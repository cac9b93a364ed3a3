import OpenMux.Peering.Lemmas.Acceptor
import OpenMux.Peering.Lemmas.Trust

/-!
# What peers may do
-/

namespace OpenMux.Peering

open Py

/-! ## Authentication -/

/-- In every run of a node that requires authentication, an accepted connection counts as authenticated only from a step on in
which an answer proved the key its HELLO named. A connection gets one challenge, and one answer to it is accepted. -/
theorem Node.authenticated_by_proof {ν κ : Type} (verify : κ → Text → ν → Bool) {time : Nat} {keys : Dict Text κ}
    {as : List (Act ν κ)} {s : Node ν κ}
    (hrun : Transition.exec (step verify) { time := time, authPubkeys := keys } as = some s) :
    (∀ a s', s.step verify a = some s' → ∀ connId socket, s'.Accepted connId socket →
        s.Accepted connId socket ∨ s.Proves verify connId socket a) ∧
      (s.issued.map Issue.socket).Nodup ∧ (s.enabled.map Prod.fst).Nodup := by
  have hinv : s.Inv := Transition.exec_invariant' (fun _ _ _ h hstep => (step_keeps h hstep).1) (inv_start time keys) hrun
  exact ⟨fun a s' hstep => (step_keeps hinv hstep).2, hinv.issuedOnce, hinv.enabledOnce⟩

/-- One key, with one signature. -/
def oneKey : Dict Text Unit := (∅ : Dict Text Unit).set ['k'] ()

def oneSignature : Unit → Text → Nat → Bool := fun _ sig nonce => sig = List.replicate nonce 's'

theorem Node.authenticated_by_proof_one : ∃ s, Transition.exec (step oneSignature) { authPubkeys := oneKey }
      [.accept 0 (some (['h'], ['1'])) "HELLO MuxCon/1.0 ID=p PKID=k".toList 2] = some s ∧
    ∃ s', s.step oneSignature (.frame "in:h:1:0".toList ['C'] "AUTH:PK:RESPONSE:k:ss".toList) = some s' ∧
      s.Proves oneSignature "in:h:1:0".toList 0 (.frame "in:h:1:0".toList ['C'] "AUTH:PK:RESPONSE:k:ss".toList) := by
  refine ⟨_, rfl, _, rfl, ?_⟩
  have haccepted := (authenticated_by_proof oneSignature (rfl : Transition.exec (step oneSignature) { authPubkeys := oneKey }
    [.accept 0 (some (['h'], ['1'])) "HELLO MuxCon/1.0 ID=p PKID=k".toList 2] = some _)).1
      (.frame "in:h:1:0".toList ['C'] "AUTH:PK:RESPONSE:k:ss".toList) _ rfl "in:h:1:0".toList 0
      ⟨⟨0, .server, some ['k'], true, none⟩, by decide, rfl, rfl, rfl⟩
  refine haccepted.resolve_left ?_
  rintro ⟨c, hc, -, -, hok⟩
  have hget : c = ⟨0, .server, some ['k'], false, some ⟨['k'], 2, 30 * second⟩⟩ := by
    refine (Option.some.inj (hc.symm.trans ?_))
    decide
  cases hget
  cases hok

/-! ## Trust on first use -/

namespace Trust

open Transition

variable {ω : Type} {F : Formats ω} {store : Store} {as : List TrustAct} {s : Trust}

/-- Where the file can be read and written at every link: each accepted link that uses TLS was checked as its options say; links that are held
to the first certificate of a peer presented the same one; and the fingerprints that the file held stay. At a link at which the file cannot be
read, any certificate is accepted and every other fingerprint is forgotten. -/
theorem first_use (hsound : Along (step F) Sound { store := store } as) (hrun : exec (step F) { store := store } as = some s) :
    (∀ d ∈ s.accepted, d.options.useTls = true → s.Vouched F d) ∧
      (∀ d ∈ s.accepted, ∀ d' ∈ s.accepted, d.Tofu → d'.Tofu → d.key = d'.key →
        ∃ fp fp', d.fingerprint = some fp ∧ d'.fingerprint = some fp' ∧ F.lower fp = F.lower fp') ∧
      (∀ key fp, store.Holds F key fp → s.store.Holds F key fp) ∧
      ∀ a fp, a.readable = false → a.saved = .done → a.dial.Tofu → a.dial.fingerprint = some fp →
        ∃ t, s.step F a = some t ∧ t.accepted = s.accepted ++ [a.dial] ∧ ∀ key fp', key ≠ a.dial.key → ¬ t.store.Holds F key fp' := by
  have h : s.Sworn F ∧ ∀ key fp, store.Holds F key fp → s.store.Holds F key fp :=
    exec_invariant (I := fun s => s.Sworn F ∧ ∀ key fp, store.Holds F key fp → s.store.Holds F key fp)
      (fun _ _ _ h hsound hs => by
        obtain ⟨hsworn, hkept⟩ := h.1.step hsound hs
        exact ⟨hsworn, fun key fp hheld => hkept key fp (h.2 key fp hheld)⟩)
      ⟨fun d hd => absurd hd List.not_mem_nil, fun _ _ hheld => hheld⟩ hsound hrun
  refine ⟨h.1, ?_, h.2, fun a fp hread hsaved htofu hcert => s.step_unreadable hread hsaved htofu hcert⟩
  intro d hd d' hd' htofu htofu' hkey
  obtain ⟨fp, hcert, hheld⟩ := (h.1 d hd htofu.1).first htofu
  obtain ⟨fp', hcert', hheld'⟩ := (h.1 d' hd' htofu'.1).first htofu'
  exact ⟨fp, fp', hcert, hcert', hheld.unique (hkey ▸ hheld')⟩

/-- Text between double quotes, with `\` before what would end it. -/
def quote (t : Text) : Text := t.flatMap fun c => if c = '"' ∨ c = '\\' then ['\\', c] else [c]

/-- The text up to a double quote, and what follows it. -/
def unquote : Text → Option (Text × Text)
  | [] => none
  | '"' :: rest => some ([], rest)
  | '\\' :: c :: rest => (unquote rest).map fun p => (c :: p.1, p.2)
  | c :: rest => (unquote rest).map fun p => (c :: p.1, p.2)

theorem unquote_quote (t rest : Text) : unquote (quote t ++ '"' :: rest) = some (t, rest) := by
  induction t with
  | nil => rfl
  | cons c t ih =>
      have hcons : quote (c :: t) = (if c = '"' ∨ c = '\\' then ['\\', c] else [c]) ++ quote t := rfl
      rw [hcons, List.append_assoc]
      by_cases hc : c = '"' ∨ c = '\\'
      · rw [if_pos hc]
        simp [unquote, ih]
      · rw [if_neg hc]
        obtain ⟨hq, hb⟩ := not_or.mp hc
        rw [List.singleton_append, unquote, ih]
        · rfl
        · exact hq
        · intro c' rest' h
          cases h
          exact absurd rfl hb

/-- A line `"key": "value"` for each entry. -/
def dumpLines (es : List (Text × Text)) : Text :=
  es.flatMap fun e => '"' :: (quote e.1 ++ '"' :: ':' :: ' ' :: '"' :: (quote e.2 ++ '"' :: ['\n']))

def readLines : ℕ → Text → Option (List (Text × Text))
  | _, [] => some []
  | n + 1, '"' :: rest =>
      match unquote rest with
      | some (k, ':' :: ' ' :: '"' :: rest) =>
          match unquote rest with
          | some (v, '\n' :: rest) => (readLines n rest).map ((k, v) :: ·)
          | _ => none
      | _ => none
  | _, _ => none

theorem readLines_dumpLines (es : List (Text × Text)) (n : ℕ) : readLines (es.length + n) (dumpLines es) = some es := by
  induction es with
  | nil => simp [readLines, dumpLines]
  | cons e es ih =>
      obtain ⟨k, v⟩ := e
      have hcons : dumpLines ((k, v) :: es) =
          '"' :: (quote k ++ '"' :: ':' :: ' ' :: '"' :: (quote v ++ '"' :: '\n' :: dumpLines es)) := by simp [dumpLines]
      rw [hcons, List.length_cons, Nat.add_right_comm, readLines, unquote_quote]
      simp only [unquote_quote, ih, Option.map_some]

/-- A mapping of quoted texts. -/
def quoted : Formats Text where
  yaml content := (readLines content.length content).map fun es => some (es.foldl (fun d e => d.set e.1 e.2) ∅)
  json _ := none
  safeDump m := dumpLines m.entries
  text := id
  asText := some
  str := id
  lower t := t.map Char.toLower
  yaml_safeDump m := by
    have hlen : m.entries.length ≤ (dumpLines m.entries).length := by
      unfold dumpLines
      induction m.entries with
      | nil => exact Nat.le_refl 0
      | cons e es ih =>
          simp only [List.flatMap_cons, List.length_append, List.length_cons] at ih ⊢
          omega
    obtain ⟨n, hn⟩ := Nat.exists_eq_add_of_le hlen
    refine ⟨m.entries.foldl (fun d e => d.set e.1 e.2) ∅, ?_, fun k => ?_⟩
    · rw [hn, readLines_dumpLines]
      rfl
    · rw [Dict.get?_foldl_set m.nodup]
      show ((Dict.findList k m.entries).or none) = m.get? k
      rw [Option.or_none]
      rfl
  asText_text _ := rfl
  str_text v t h := Option.some.inj h

/-- A peer is dialled twice, and another one between. -/
def threeDials : List TrustAct := [
  { dial := { host := ['a'], port := 1, fingerprint := some ['f'] } },
  { dial := { host := ['b'], port := 1, fingerprint := some ['e'] } },
  { dial := { host := ['a'], port := 1, fingerprint := some ['F'] } }]

theorem first_use_threeDials : ∃ s, exec (step quoted) {} threeDials = some s ∧
    ∀ d ∈ s.accepted, d.options.useTls = true → s.Vouched quoted d := by
  obtain ⟨s, hs⟩ := Option.isSome_iff_exists.mp (by decide +kernel : (exec (step quoted) {} threeDials).isSome)
  exact ⟨s, hs, (@first_use _ quoted {} _ _ (by decide +kernel) hs).1⟩

end Trust

end OpenMux.Peering
