import OpenMux.ConfigEditor.Lemmas.Policy
import OpenMux.ConfigEditor.Lemmas.ReadOnly
import OpenMux.ConfigEditor.Lemmas.Save

/-!
# The configuration editor
-/

namespace OpenMux.ConfigEditor

open Py

/-! ## Saving the view -/

/-- The unedited view is saved as the stored configuration exactly when every stored secret is that of the first row with the
same name, and an edited view keeps its secrets exactly when the first row with the name of a masked row has its secret. -/
theorem save_keeps_secrets (stored : Mapping) : (RoundTrips stored ↔ Listed stored ∧ Findable stored) ∧
    ∀ (view payload saved : Mapping) (origin : Origin), maskConfigSecrets stored = some view →
      preparePayloadForSave payload stored = some saved →
        (KeepsSecrets stored view payload saved origin ↔ Traceable stored view payload origin) :=
  ⟨roundTrips_iff, fun _ _ _ _ _ h => keepsSecrets_iff h⟩

def text (s : String) : Tree := .str s.toList

def mapping (es : List (String × Tree)) : Mapping := es.map fun e => (.str e.1.toList, e.2)

/-- A configuration with one user and these ports. -/
def withPorts (ports : List Tree) : Mapping :=
  mapping [("server", .dict []),
    ("authentication", .dict (mapping [("users", .list [.dict (mapping [("username", text "a"), ("password_hash", text "h")])])])),
    ("tcp_initiator_ports", .list ports)]

def portRow (name password : String) : Tree :=
  .dict (mapping [("name", text name), ("host", text "h"), ("port", .int 1), ("password", text password)])

def managerOf (config : Mapping) (h : config ≠ []) (securityFile : File) : Manager :=
  { config := config, loaded := h, securityFile := securityFile, authFile := .missing }

/-- The ports are swapped in the view, with their passwords masked. -/
theorem save_keeps_secrets_swapped : ∃ view payload saved, maskConfigSecrets (withPorts [portRow "a" "x", portRow "b" "y"]) = some view ∧
    preparePayloadForSave payload (withPorts [portRow "a" "x", portRow "b" "y"]) = some saved ∧
      KeepsSecrets (withPorts [portRow "a" "x", portRow "b" "y"]) view payload saved fun
        | .ports, j => some (1 - j)
        | _, j => some j := by
  refine ⟨_, withPorts [portRow "b" "********", portRow "a" "********"], _, rfl, rfl,
    ((save_keeps_secrets _).2 _ _ _ _ rfl rfl).mpr ?_⟩
  intro s hs j row hrow hmask
  simp only [spots, List.mem_cons, List.not_mem_nil, or_false] at hs
  rcases hs with rfl | rfl | rfl | rfl | rfl | rfl <;> rcases j with _ | _ | j <;> cases hrow <;> cases hmask
  · exact ⟨fun h => (by cases h), fun i hi _ => by cases hi; rfl⟩
  · exact ⟨fun h => (by cases h), fun i hi _ => by cases hi; rfl⟩

/-- Two API keys, which need no names. -/
def twoKeys : Mapping :=
  mapping [("server", .dict []), ("client_listener", .dict []),
    ("authentication", .dict (mapping [("api_keys",
      .list [.dict (mapping [("key", text "x")]), .dict (mapping [("key", text "y")])])]))]

/-- Both are saved as the first. -/
theorem save_keeps_secrets_fails : ∃ (stored : Mapping) (h : stored ≠ []),
    validatePayload (fun _ => false) (managerOf stored h .missing) stored = some stored ∧ ¬ RoundTrips stored := by
  refine ⟨twoKeys, by simp [twoKeys, mapping], rfl, fun h => ?_⟩
  have hfind := (roundTrips_iff.mp h).2 ⟨.apiKeys, false, "key".toList⟩ (by simp [spots]) (.dict (mapping [("key", text "y")]))
    (List.mem_cons_of_mem _ List.mem_cons_self) (text "y") rfl rfl
  have hfirst : some (text "x") = some (text "y") := hfind
  cases hfirst

/-! ## Read-only sections -/

/-- A policy with a misspelled key. -/
def misspelled : File := .content (.dict (mapping [("config_edit", .dict (mapping [("disabled", .list [text "*"])]))]))

/-- The answers for two configurations that differ in secrets are the same exactly when the secrets that no mask covers are. -/
theorem view_hides_secrets {cm : Manager} {config : Mapping} (hc : config ≠ []) (h : SecretVariants cm.config config) :
    handleData { cm with config := config, loaded := hc } = handleData cm ↔
      (Listed cm.config → SameExposed cm.config config) := by
  have hlisted := listed_variants h
  constructor
  · intro heq hl
    obtain ⟨view, hview⟩ := Option.isSome_iff_exists.mp (maskConfigSecrets_isSome.mpr hl)
    obtain ⟨view', hview'⟩ := Option.isSome_iff_exists.mp (maskConfigSecrets_isSome.mpr (hlisted.mp hl))
    have hsame : some view' = some view := by
      have := congrArg (Option.map DataResponse.config) heq
      simpa [handleData, hview, hview'] using this
    exact (views_eq_iff h hview hview').mp (Option.some.inj hsame).symm
  · intro hsame
    cases hview : maskConfigSecrets cm.config with
    | none =>
        have hview' : maskConfigSecrets config = none := by
          rw [← Option.not_isSome_iff_eq_none, maskConfigSecrets_isSome, ← hlisted, ← maskConfigSecrets_isSome, hview]
          simp
        simp [handleData, hview, hview']
    | some view =>
        have hl : Listed cm.config := maskConfigSecrets_isSome.mp (by simp [hview])
        obtain ⟨view', hview'⟩ := Option.isSome_iff_exists.mp (maskConfigSecrets_isSome.mpr (hlisted.mp hl))
        have heq := (views_eq_iff h hview hview').mpr (hsame hl)
        subst heq
        simp only [handleData, hview, hview']
        rfl

def withSso (secret : String) : Mapping :=
  mapping [("server", .dict []), ("authentication", .dict (mapping [("users", .list [])])),
    ("web_console", .dict (mapping [("sso_secret", text secret)]))]

def portManager (password : String) : Manager :=
  managerOf (withPorts [portRow "a" password]) (by simp [withPorts, mapping]) .missing

/-- The password of a port stays hidden. -/
theorem view_hides_secrets_port : handleData (portManager "y") = handleData (portManager "x") := by
  have h : SecretVariants (portManager "x").config (portManager "y").config := rfl
  refine (view_hides_secrets (portManager "y").loaded h).mpr fun _ => ?_
  simp only [SameExposed, exposedPlaces, List.forall_mem_cons]
  exact ⟨rfl, rfl, rfl, rfl, fun _ hp => by cases hp⟩

/-- The shared secret of the single sign-on is shown. -/
theorem view_hides_secrets_fails : ¬ ∀ (cm : Manager) (config : Mapping) (hc : config ≠ []), SecretVariants cm.config config →
    handleData { cm with config := config, loaded := hc } = handleData cm := by
  intro h
  have heq := h (managerOf (withSso "x") (by simp [withSso, mapping]) .missing) (withSso "y") (by simp [withSso, mapping]) rfl
  have hvalues := congrArg (Option.map fun r => Place.values (path ["web_console", "sso_secret"]) (.dict r.config)) heq
  have hshown : some [text "y"] = some [text "x"] := hvalues
  cases hshown

/-! ## The security policy -/

namespace Parsing

/-- The parser does what is documented exactly when an error is due before anything raises, or when nothing raises and no empty
value stands for a block and no star beside an unknown name. -/
theorem policy_strict_iff (p : Printer) (order : LimitOrder) (raw : Tree) :
    Promised p raw (fromMapping p order raw) ↔ Careful p (parts order raw) := by
  have hf := fromMapping_follows p order raw
  rw [careful_iff hf]
  cases hx : fromMapping p order raw with
  | error e =>
      cases e with
      | policy e => exact Iff.rfl
      | other => exact Iff.rfl
  | ok policy =>
      rw [hx] at hf
      apply Iff.symm
      apply (wellFormed_iff hf).trans
      exact ⟨fun hwf => ⟨hwf, fromMapping_ok hx hwf⟩, fun h => h.1⟩

/-- A star and a misspelled name. -/
def misspelled : Tree := .dict (mapping [("adapters", .dict (mapping [("allowed", .list [text "*", text "serail"])]))])

/-- The misspelled name is accepted. -/
theorem policy_strict_fails : ¬ ∀ (p : Printer) (order : LimitOrder) (raw : Tree), Promised p raw (fromMapping p order raw) := by
  intro h
  have hok : ∃ policy, fromMapping ⟨fun _ => none⟩ ⟨_, .refl _⟩ misspelled = .ok policy := ⟨_, rfl⟩
  obtain ⟨policy, hpolicy⟩ := hok
  have hp := h ⟨fun _ => none⟩ ⟨_, .refl _⟩ misspelled
  rw [hpolicy] at hp
  have hmem : text "serail" ∈ listed (under adapters.name misspelled.entries) "allowed".toList [.str ['*']] :=
    .tail _ (.head _)
  obtain ⟨name, ⟨t, ht, rfl⟩, hname⟩ := (hp.1.allowDeny adapters (by simp)).2.1 _ hmem
  cases ht
  revert hname
  decide

end Parsing

end OpenMux.ConfigEditor
