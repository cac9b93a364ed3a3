import OpenMux.Web.Lemmas.Paths
import OpenMux.Web.Lemmas.Reload
import OpenMux.Web.Lemmas.Sso

/-!
# The web console
-/

namespace OpenMux.Web

open Py Transition

/-- A request that the middleware passes to the handler of a route without a username is for a public one, exactly if the
route is public, or the request has a live session, or its base path is guarded. -/
theorem auth_guarded_iff {cfg : WebConfig} {routes : RouteConfig} {resolve : Request → Option Pattern}
    (hresolves : Resolves cfg routes resolve) (creds : Credentials) (sessions : Dict Text Session) (now : ℚ) {r : Request}
    {p : Pattern} (hp : resolve r = some p) :
    ((authMiddleware cfg creds sessions now r).1 = .handler none → p.Public) ↔
      p.Public ∨ (liveSession cfg sessions now r).isSome ∨ Guarded cfg r := by
  obtain ⟨hmem, rest, hpath, hfits⟩ := hresolves r p hp
  by_cases hpublic : p.Public
  · exact iff_of_true (fun _ => hpublic) (.inl hpublic)
  · rw [handler_none_iff, public_or_proxy_iff hmem hpublic hpath hfits]
    simp only [hpublic, false_or, imp_false, not_and, ← Option.isSome_iff_ne_none]
    tauto

/-- The defaults. -/
def WebConfig.default : WebConfig := ⟨['/'], true, "omx_session".toList, 28800⟩

def RouteConfig.default : RouteConfig := ⟨true, true, false, false, false⟩

/-- No credentials are known. -/
def Credentials.none : Credentials := ⟨fun _ => .none, fun _ => .none, .none⟩

/-- The console of a port that is called `login`. -/
def loginPort (xForwardedPrefix : Option Text) : Request where
  path := "/ws/login".toList
  xForwardedPrefix := xForwardedPrefix

/-- Sends a request with a path to its route. -/
def routeTo (path : Text) (p : Pattern) (r : Request) : Option Pattern := if r.path = path then some p else Option.none

theorem fits_port (name : Text) (h : name ≠ []) : Pattern.Fits [lit "ws", .name] ("/ws/".toList ++ name) :=
  ⟨'/' :: name, rfl, name, [], h, (List.append_nil _).symm, rfl⟩

theorem resolves_loginPort : Resolves WebConfig.default RouteConfig.default (routeTo "/ws/login".toList [lit "ws", .name]) := by
  intro r p hp
  obtain ⟨hpath, hp⟩ := Option.ite_none_right_eq_some.mp hp
  cases hp
  exact ⟨by decide, "/ws/login".toList, hpath, fits_port "login".toList (by decide)⟩

/-- Without the header of a proxy the console of the port is not reached. -/
theorem auth_guarded_loginPort : Guarded WebConfig.default (loginPort none) ∧
    ((authMiddleware WebConfig.default Credentials.none ∅ 0 (loginPort none)).1 ≠ .handler none ∨
      Pattern.Public [lit "ws", .name]) := by
  have hguarded : Guarded WebConfig.default (loginPort none) := by decide
  have hpublic := (auth_guarded_iff resolves_loginPort Credentials.none ∅ 0 (r := loginPort none) rfl).mpr (.inr (.inr hguarded))
  exact ⟨hguarded, not_or_of_imp hpublic⟩

/-- The configured base path is the name of a public directory. -/
def WebConfig.static : WebConfig := { WebConfig.default with basePath := "/static".toList }

/-- A request that names `/ws` as its prefix reaches the console of a port that is called `login`, and goes on as `web`; and
below a base path `/static` every request reaches its handler. -/
theorem auth_guarded_fails :
    (Resolves WebConfig.default RouteConfig.default (routeTo "/ws/login".toList [lit "ws", .name]) ∧
      (authMiddleware WebConfig.default Credentials.none ∅ 0 (loginPort (some "/ws".toList))).1 = .handler none ∧
      hwsUsername none = "web".toList ∧ ¬ Pattern.Public [lit "ws", .name]) ∧
    ([lit "ws", .name] ∈ registerRoutes RouteConfig.default ∧
      Pattern.Fits [lit "ws", .name] "/ws/t".toList ∧ mountPrefix WebConfig.static = "/static".toList ∧
      (authMiddleware WebConfig.static Credentials.none ∅ 0 { path := "/static/ws/t".toList }).1 = .handler none) := by
  refine ⟨⟨resolves_loginPort, by decide, by decide, by decide⟩, by decide, fits_port ['t'] (by decide), by decide, by decide⟩

/-! ## Trust headers -/

/-- A header is accepted only if it is proved, fresh and from a known node, exactly if one that is signed carries both its times and names a
known node; and a header that a trusted proxy issues is accepted within its window, exactly if the key id that stands in it has no
separator. -/
theorem sso_headers {Priv Pub : Type} (lib : SsoLibrary Priv Pub) (server : SsoServer Pub) :
    (∀ header, server.Right lib header ↔ server.Sane lib header) ∧
    ∀ (p : SsoProxy Priv) (username : Option Text) (node header : Text) (issuedAt : ℤ),
      proxySsoHeader lib p username node issuedAt = some header → server.Trusts lib p node →
      SsoServer.Reads lib (ssoClaims ((username.filter (· ≠ [])).getD "sso".toList) node issuedAt) →
      ((∀ now, issuedAt - server.ssoMaxSkewSec ≤ now → now ≤ issuedAt + 60 + server.ssoMaxSkewSec →
        server.verifySsoHeader lib header now =
          some (ssoClaims ((username.filter (· ≠ [])).getD "sso".toList) node issuedAt)) ↔ server.Separable p) := by
  refine ⟨fun header => ⟨SsoServer.Right.sane, SsoServer.Sane.right⟩, ?_⟩
  intro p username node header issuedAt hissued htrust hreads
  exact SsoServer.issued_iff hissued htrust hreads

def textBytes (t : String) : List UInt8 := t.toList.map fun c => UInt8.ofNat c.toNat

/-- The claims for `ro` at 1000, and a payload without times. -/
def payload : List UInt8 :=
  textBytes "\x7b\"ver\":1,\"user\":\"ro\",\"perm\":\"admin\",\"iat\":1000,\"exp\":1060,\"node\":\"mbp\"\x7d"

def undatedPayload : List UInt8 := textBytes "\x7b\"user\":\"ro\"\x7d"

def undatedClaims : Dict Text Value := ⟨[("user".toList, .str "ro".toList)], by decide⟩

def payloadMac : Text := "a6e8d0ca7a0ecb31a9c489693a101734cb1298760584317dc937c1fc6b1bb6ab".toList

def undatedMac : Text := "7edb884e3f5cd4dcdd5ba1afe3cd36087e2d49f834aada27b3f96403d846a5d8".toList

/-- JSON and the HMAC under the secret `k`, of these two payloads; the keys sign with the data itself. -/
def SsoLibrary.sample : SsoLibrary Unit Unit where
  loads bytes :=
    if bytes = payload then some (ssoClaims "ro".toList "mbp".toList 1000)
    else if bytes = undatedPayload then some undatedClaims
    else none
  dumps _ := payload
  int
    | .int n => some n
    | _ => none
  str
    | .str t => t
    | _ => []
  hexdigest _ text := if text = Base64.encode payload then payloadMac else undatedMac
  sign _ data := data
  verify _ sig data := sig = data

def SsoServer.secretHolder (serverId : Text) : SsoServer Unit := ⟨some ['k'], 120, some ⟨serverId, [], ∅⟩⟩

theorem sso_headers_sample : ∃ header,
    proxySsoHeader SsoLibrary.sample ⟨some ['k'], none, none⟩ (some "ro".toList) "mbp".toList 1000 = some header ∧
    (SsoServer.secretHolder "mbp".toList).verifySsoHeader SsoLibrary.sample header 1030 =
      some (ssoClaims "ro".toList "mbp".toList 1000) := by
  have htrust : (SsoServer.secretHolder "mbp".toList).Trusts SsoLibrary.sample (⟨some ['k'], none, none⟩ : SsoProxy Unit) "mbp".toList := rfl
  have hreads : SsoServer.Reads SsoLibrary.sample (ssoClaims "ro".toList "mbp".toList 1000) := by
    refine ⟨by decide +kernel, fun _ => rfl, fun _ => rfl, fun secret text => ?_⟩
    unfold SsoLibrary.sample
    dsimp only
    split <;> decide
  have hseparable : (SsoServer.secretHolder "mbp".toList).Separable (⟨some ['k'], none, none⟩ : SsoProxy Unit) := by
    intro hnone
    exact absurd hnone (by decide)
  have haccepted := (sso_headers SsoLibrary.sample (SsoServer.secretHolder "mbp".toList)).2 ⟨some ['k'], none, none⟩ (some "ro".toList)
    "mbp".toList _ 1000 rfl htrust hreads
  exact ⟨_, rfl, haccepted.mpr hseparable 1030 (by decide) (by decide)⟩

/-- A signed payload without times is good for ever; the first format names a node that the server does not know; and a key id with a
semicolon spoils a header that a registered key signed. -/
theorem sso_headers_fails :
    ¬ (SsoServer.secretHolder "mbp".toList).Right SsoLibrary.sample
      ("v1".toList ++ ';' :: (Base64.encode undatedPayload ++ ';' :: undatedMac)) ∧
    ((SsoServer.secretHolder "other".toList).verifySsoHeader SsoLibrary.sample
        ("v1".toList ++ ';' :: (Base64.encode payload ++ ';' :: payloadMac)) 1030 = some (ssoClaims "ro".toList "mbp".toList 1000) ∧
      ¬ (SsoServer.secretHolder "other".toList).Named SsoLibrary.sample (ssoClaims "ro".toList "mbp".toList 1000)) ∧
    ∃ header, proxySsoHeader SsoLibrary.sample ⟨none, some (), some "a;b".toList⟩ (some "ro".toList) "mbp".toList 1000 = some header ∧
      SsoServer.verifySsoHeader SsoLibrary.sample ⟨none, 120, some ⟨"mbp".toList, [], Dict.set ∅ "a;b".toList ()⟩⟩ header 1030 = none := by
  refine ⟨?_, ⟨by decide +kernel, ?_⟩, ⟨_, rfl, by decide +kernel⟩⟩
  · intro h
    have hauthentic : (SsoServer.secretHolder "mbp".toList).Authentic SsoLibrary.sample
        ("v1".toList ++ ';' :: (Base64.encode undatedPayload ++ ';' :: undatedMac)) undatedClaims .v1 :=
      ⟨Base64.encode undatedPayload, ['k'], by decide +kernel, rfl, by decide, by decide +kernel⟩
    have hdated := h.sane.dated .v1 undatedClaims hauthentic (fun hf => (by cases hf)) (by decide)
      (fun _ hv => (by cases hv)) (fun _ hv => (by cases hv))
    exact absurd hdated (by decide)
  · intro h
    obtain ⟨muxcon, hmuxcon, hnode⟩ := h (.str "mbp".toList) rfl (by decide)
    cases hmuxcon
    rcases hnode with hnode | hnode
    · exact absurd hnode (by decide)
    · cases hnode

/-! ## Reloads -/

instance {α : Type} [DecidableEq α] (s : Reload α) : Decidable s.Settled := inferInstanceAs (Decidable (_ ∧ _ ∧ _))

instance Reload.Clean.decidable {α : Type} [DecidableEq α] (s : Reload α) : (a : ReloadAct) → Decidable (s.Clean a)
  | .read =>
      match h : s.phase with
      | .received caller body =>
          decidable_of_iff ((wantsOf caller body).isOk = false → NamesOnce s.config) (by simp only [Reload.Clean, h])
      | .applying .. | .disconnecting .. | .done => isTrue (by simp only [Reload.Clean, h])
  | .disconnect =>
      match h : s.phase with
      | .disconnecting ((client, name) :: _) _ =>
          decidable_of_iff (s.consoles.clientPortMap.get? client ≠ some name) (by simp only [Reload.Clean, h])
      | .disconnecting [] _ | .received .. | .applying .. | .done => isTrue (by simp only [Reload.Clean, h])
  | .proceed =>
      match h : s.phase with
      | .disconnecting [] [] => decidable_of_iff s.Settled (by simp only [Reload.Clean, h])
      | .disconnecting (_ :: _) _ | .disconnecting [] (_ :: _) | .received .. | .applying .. | .done =>
          isTrue (by simp only [Reload.Clean, h])
  | .console _ | .apply _ | .reconciled _ => isTrue trivial

/-- A reload that is over was truthful, exactly if every section asked for was applied or is asked for as it is, the clients of the ports
that were removed or built anew left of themselves before the end, nobody attached to a port that was built anew was found there, and no
name is in two of the lists that remain. -/
theorem reload_truthful {α : Type} {history : List ConsolesAct} {consoles : Consoles}
    (hhistory : exec Consoles.step {} history = some consoles) (config : Sections α) (caller : Caller) (body : Body α)
    {run : List ReloadAct} {t : Reload α} (h : exec Reload.step (Reload.start consoles config caller body) run = some t)
    (hdone : t.phase = .done) :
    t.Truthful config ↔ Along Reload.step Reload.Clean (Reload.start consoles config caller body) run := by
  have hconsoles : consoles.Inv := exec_invariant' (fun _ _ _ hI hstep => hI.step hstep) Consoles.inv_initial hhistory
  have hiff := exec_iff_along (fun s a u hI hstep => Reload.Inv.step hI hstep) (Reload.inv_start hconsoles caller body) h
  have hstart : (Reload.start consoles config caller body).Sound config := Reload.sound_start caller body
  constructor
  · intro ht
    exact (hiff.mp ⟨ht.only, fun _ => ht⟩).2
  · intro hclean
    exact (hiff.mpr ⟨hstart, hclean⟩).2 hdone

def admin : Caller := ⟨some "root".toList, some "admin".toList⟩

def portItem (name : String) (rest : ℕ) : PortItem ℕ := .port (some name.toList) rest

/-- `a` is a loopback port. -/
def loopbackOnly : Sections ℕ := Dict.set ∅ .loopbackPorts [portItem "a" 0]

/-- The port `a`, with a client `c`. -/
def consolesA : Consoles where
  ports := Dict.set ∅ "a".toList ⟨0, ["c".toList]⟩
  clientPortMap := Dict.set ∅ "c".toList "a".toList
  attachedTo := Dict.set ∅ "c".toList 0
  next := 1

def historyA : List ConsolesAct := [.register "a".toList, .attach "c".toList "a".toList]

def reloadOf (k : Section) (lst : List (PortItem ℕ)) : Reload ℕ :=
  .start consolesA loopbackOnly admin (.object (Dict.set ∅ k.key (some lst)))

def working : Option SectionAdapter := some ⟨true, true⟩

/-- The port is built anew while its client is away, and the client comes to another one. -/
def rebuiltAway : List ReloadAct :=
  [.read, .apply working, .console (.detach "c".toList), .console (.unregister "a".toList), .console (.register "a".toList),
    .console (.register "b".toList), .reconciled (some { updated := ["a".toList] }), .proceed, .proceed,
    .console (.attach "c".toList "b".toList), .proceed]

theorem reload_truthful_rebuiltAway : ∃ t,
    exec Reload.step (reloadOf .loopbackPorts [portItem "a" 1, portItem "b" 0]) rebuiltAway = some t ∧ t.Truthful loopbackOnly ∧
      t.config.get? .loopbackPorts = some [portItem "a" 1, portItem "b" 0] := by
  have hclean : Along Reload.step Reload.Clean (reloadOf .loopbackPorts [portItem "a" 1, portItem "b" 0]) rebuiltAway := by
    decide +kernel
  have hhistory : exec Consoles.step {} historyA = some consolesA := by decide +kernel
  exact ⟨_, rfl, (reload_truthful hhistory loopbackOnly admin _ rfl rfl).mpr hclean, by decide +kernel⟩

/-- The list of a section without an adapter is kept; the client of a port that is removed stays at it; of a port that is built anew the
old client stays and one that comes is disconnected; and a name comes to be in two sections. -/
theorem reload_truthful_fails :
    exec Consoles.step {} historyA = some consolesA ∧
    (∃ t, exec Reload.step (reloadOf .serialPorts [portItem "s" 0]) [.read, .apply none, .proceed, .proceed] = some t ∧
      ¬ t.Applied .serialPorts ∧ t.config.get? .serialPorts ≠ loopbackOnly.get? .serialPorts ∧ ¬ t.Truthful loopbackOnly) ∧
    (∃ t, exec Reload.step (reloadOf .loopbackPorts []) [.read, .apply working, .console (.unregister "a".toList),
        .reconciled (some { removed := ["a".toList] }), .proceed, .proceed, .proceed] = some t ∧
      t.consoles.attachedTo.get? "c".toList = some 0 ∧ t.gone = [0] ∧ ¬ t.Truthful loopbackOnly) ∧
    (∃ t, exec Reload.step (reloadOf .loopbackPorts [portItem "a" 1]) [.read, .apply working, .console (.unregister "a".toList),
        .console (.register "a".toList), .reconciled (some { updated := ["a".toList] }), .console (.attach "d".toList "a".toList),
        .proceed, .proceed, .disconnect, .proceed] = some t ∧
      t.disconnected = [("d".toList, 1)] ∧ t.consoles.attachedTo.get? "c".toList = some 0 ∧ t.gone = [0] ∧
        ¬ t.Truthful loopbackOnly) ∧
    ∃ t, exec Reload.step (reloadOf .commandPorts [portItem "a" 0]) [.read, .apply working, .console (.register "a".toList),
        .reconciled (some {}), .proceed, .proceed] = some t ∧ t.Applied .commandPorts ∧ ¬ NamesOnce t.config ∧ ¬ t.Truthful loopbackOnly := by
  refine ⟨by decide +kernel, ⟨_, rfl, by decide +kernel, by decide +kernel, ?_⟩, ⟨_, rfl, by decide +kernel, by decide +kernel, ?_⟩,
    ⟨_, rfl, by decide +kernel, by decide +kernel, by decide +kernel, ?_⟩, ⟨_, rfl, by decide +kernel, by decide +kernel, ?_⟩⟩
  · intro h
    exact absurd (h.config .serialPorts) (by decide +kernel)
  · intro h
    exact h.left "c".toList 0 (by decide +kernel) (by decide +kernel)
  · intro h
    exact h.left "c".toList 0 (by decide +kernel) (by decide +kernel)
  · intro h
    exact absurd h.names (by decide +kernel)

end OpenMux.Web
