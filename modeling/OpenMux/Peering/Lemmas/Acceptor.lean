import OpenMux.Lib.Run
import OpenMux.Peering.Acceptor

/-!
# Who is authenticated

Every pending challenge is the one that was issued on the connection of its record, and no answer has been accepted on that
connection.
-/

namespace OpenMux.Peering.Node

open Py

variable {ν κ : Type} {verify : κ → Text → ν → Bool} {s s' : Node ν κ} {connId : Text} {c : Conn ν}

/-- The pending challenge of a record was issued on its connection, for the key its HELLO named, and is not answered yet. -/
structure Pending (s : Node ν κ) (c : Conn ν) (st : AuthState ν) : Prop where
  named : c.pkId = some st.keyId
  issued : ∃ i ∈ s.issued, i.socket = c.socket ∧ i.nonce = st.nonce ∧ st.expiresAt = i.time + 30 * second
  unanswered : ∀ n, (c.socket, n) ∉ s.enabled

structure Inv (s : Node ν κ) : Prop where
  required : s.authRequired = true
  socket : ∀ {connId c}, s.connections.get? connId = some c → c.socket ∈ s.sockets
  distinct : ∀ {connId connId' c c'}, s.connections.get? connId = some c → s.connections.get? connId' = some c' →
    c.socket = c'.socket → connId = connId'
  pending : ∀ {connId c st}, s.connections.get? connId = some c → c.authState = some st → s.Pending c st
  enabledSocket : ∀ p ∈ s.enabled, p.1 ∈ s.sockets
  issuedSocket : ∀ i ∈ s.issued, i.socket ∈ s.sockets
  enabledOnce : (s.enabled.map Prod.fst).Nodup
  issuedOnce : (s.issued.map Issue.socket).Nodup

/-- A record is put whose connection has no other record. -/
theorem Inv.put (h : s.Inv) (connId : Text) (hother : ∀ connId' c', connId' ≠ connId → s.connections.get? connId' = some c' → c'.socket ≠ c.socket)
    (hsocket : c.socket ∈ s.sockets) (hpending : ∀ st, c.authState = some st → s.Pending c st) : (s.setConn connId c).Inv := by
  have hcases {connId' c'} (hc : (s.setConn connId c).connections.get? connId' = some c') :
      connId' = connId ∧ c' = c ∨ connId' ≠ connId ∧ s.connections.get? connId' = some c' := by
    unfold setConn at hc
    rw [Dict.get?_set] at hc
    split at hc
    · rename_i hid
      cases hc
      exact .inl ⟨hid, rfl⟩
    · rename_i hid
      exact .inr ⟨hid, hc⟩
  refine ⟨h.required, fun hc => ?_, fun hc hc' he => ?_, fun hc hst => ?_, h.enabledSocket, h.issuedSocket, h.enabledOnce,
    h.issuedOnce⟩
  · rcases hcases hc with ⟨-, rfl⟩ | ⟨-, hc⟩
    · exact hsocket
    · exact h.socket hc
  · rcases hcases hc with ⟨rfl, rfl⟩ | ⟨hne, hold⟩ <;> rcases hcases hc' with ⟨rfl, rfl⟩ | ⟨hne', hold'⟩
    · rfl
    · exact absurd he.symm (hother _ _ hne' hold')
    · exact absurd he (hother _ _ hne hold)
    · exact h.distinct hold hold' he
  · rcases hcases hc with ⟨-, rfl⟩ | ⟨-, hc⟩
    · obtain ⟨hnamed, hissued, hun⟩ := hpending _ hst
      exact ⟨hnamed, hissued, hun⟩
    · obtain ⟨hnamed, hissued, hun⟩ := h.pending hc hst
      exact ⟨hnamed, hissued, hun⟩

/-- A challenge is issued on a new connection. -/
theorem Inv.issue (h : s.Inv) {i : Issue ν} (hmem : i.socket ∈ s.sockets) (hnew : ∀ j ∈ s.issued, j.socket ≠ i.socket) :
    ({ s with issued := s.issued ++ [i] } : Node ν κ).Inv where
  required := h.required
  socket := h.socket
  distinct := h.distinct
  pending hc hst := by
    obtain ⟨hnamed, ⟨j, hj, hrest⟩, hun⟩ := h.pending hc hst
    exact ⟨hnamed, ⟨j, List.mem_append_left _ hj, hrest⟩, hun⟩
  enabledSocket := h.enabledSocket
  issuedSocket j hj := by
    rcases List.mem_append.mp hj with hj | hj
    · exact h.issuedSocket j hj
    · cases List.mem_singleton.mp hj
      exact hmem
  enabledOnce := h.enabledOnce
  issuedOnce := by
    rw [List.map_append]
    refine List.nodup_append.mpr ⟨h.issuedOnce, by simp, fun x hx y hy => ?_⟩
    obtain ⟨j, hj, rfl⟩ := List.mem_map.mp hx
    cases List.mem_singleton.mp hy
    exact hnew j hj

/-- An answer is accepted on a connection that has no pending challenge left. -/
theorem Inv.enable (h : s.Inv) {p : Nat × ν} (hmem : p.1 ∈ s.sockets) (hnew : ∀ n, (p.1, n) ∉ s.enabled)
    (hno : ∀ connId c st, s.connections.get? connId = some c → c.authState = some st → c.socket ≠ p.1) :
    ({ s with enabled := s.enabled ++ [p] } : Node ν κ).Inv where
  required := h.required
  socket := h.socket
  distinct := h.distinct
  pending hc hst := by
    obtain ⟨hnamed, hissued, hun⟩ := h.pending hc hst
    refine ⟨hnamed, hissued, fun n hn => ?_⟩
    rcases List.mem_append.mp hn with hn | hn
    · exact hun n hn
    · cases List.mem_singleton.mp hn
      exact hno _ _ _ hc hst rfl
  enabledSocket q hq := by
    rcases List.mem_append.mp hq with hq | hq
    · exact h.enabledSocket q hq
    · cases List.mem_singleton.mp hq
      exact hmem
  issuedSocket := h.issuedSocket
  enabledOnce := by
    rw [List.map_append]
    refine List.nodup_append.mpr ⟨h.enabledOnce, by simp, fun x hx y hy => ?_⟩
    obtain ⟨q, hq, rfl⟩ := List.mem_map.mp hx
    cases List.mem_singleton.mp hy
    rintro heq
    exact hnew q.2 (by rw [← heq]; exact hq)
  issuedOnce := h.issuedOnce

/-- A new connection. -/
theorem Inv.open (h : s.Inv) (socket : Nat) : ({ s with sockets := socket :: s.sockets } : Node ν κ).Inv where
  required := h.required
  socket hc := List.mem_cons_of_mem _ (h.socket hc)
  distinct := h.distinct
  pending hc hst := by
    obtain ⟨hnamed, hissued, hun⟩ := h.pending hc hst
    exact ⟨hnamed, hissued, hun⟩
  enabledSocket p hp := List.mem_cons_of_mem _ (h.enabledSocket p hp)
  issuedSocket i hi := List.mem_cons_of_mem _ (h.issuedSocket i hi)
  enabledOnce := h.enabledOnce
  issuedOnce := h.issuedOnce

theorem Inv.close (h : s.Inv) (closing : List Text) :
    ({ s with connections := s.connections.pop connId, closing := closing } : Node ν κ).Inv where
  required := h.required
  socket hc := h.socket (Dict.get?_of_get?_pop hc)
  distinct hc hc' := h.distinct (Dict.get?_of_get?_pop hc) (Dict.get?_of_get?_pop hc')
  pending hc hst := by
    obtain ⟨hnamed, hissued, hun⟩ := h.pending (Dict.get?_of_get?_pop hc) hst
    exact ⟨hnamed, hissued, hun⟩
  enabledSocket := h.enabledSocket
  issuedSocket := h.issuedSocket
  enabledOnce := h.enabledOnce
  issuedOnce := h.issuedOnce

/-- The other fields do not matter. -/
theorem Inv.of (h : s.Inv) (hrequired : s'.authRequired = s.authRequired) (hconns : s'.connections = s.connections)
    (hsockets : s'.sockets = s.sockets) (hissued : s'.issued = s.issued) (henabled : s'.enabled = s.enabled) : s'.Inv := by
  obtain ⟨time, required, keys, conns, sockets, closing, issued, enabled⟩ := s
  obtain ⟨time', required', keys', conns', sockets', closing', issued', enabled'⟩ := s'
  cases hrequired
  cases hconns
  cases hsockets
  cases hissued
  cases henabled
  exact ⟨h.required, h.socket, h.distinct, fun hc hst => by
    obtain ⟨hnamed, hissued, hun⟩ := h.pending hc hst
    exact ⟨hnamed, hissued, hun⟩, h.enabledSocket, h.issuedSocket, h.enabledOnce, h.issuedOnce⟩

/-! ## Steps -/

/-- Whoever counts as authenticated after a step did so before it, or has proved its key in it. -/
def Earned (verify : κ → Text → ν → Bool) (s : Node ν κ) (a : Act ν κ) (s' : Node ν κ) : Prop :=
  ∀ connId socket, s'.Accepted connId socket → s.Accepted connId socket ∨ s.Proves verify connId socket a

theorem earned_of_eq {a : Act ν κ} (h : s'.connections = s.connections) : Earned verify s a s' := by
  rintro connId socket ⟨c, hc, hrest⟩
  exact .inl ⟨c, h ▸ hc, hrest⟩

/-- A record is put that does not count as authenticated, or did before. -/
theorem earned_put {a : Act ν κ} {s₀ : Node ν κ} (hs : s₀.connections = s.connections)
    (h : c.role = .server → c.authOk = true → s.Accepted connId c.socket) : Earned verify s a (s₀.setConn connId c) := by
  rintro connId' socket ⟨c', hc', hsocket, hrole, hok⟩
  unfold setConn at hc'
  rw [Dict.get?_set] at hc'
  split at hc'
  · rename_i hid
    cases hc'
    exact .inl (hsocket ▸ hid ▸ h hrole hok)
  · exact .inl ⟨c', hs ▸ hc', hsocket, hrole, hok⟩

theorem performServerHandshake_step {socket : Nat} {line : Text} {nonce : ν} {a : Act ν κ} (h : s.Inv)
    (hnew : socket ∉ s.sockets) :
    (({ s with sockets := socket :: s.sockets } : Node ν κ).performServerHandshake socket connId line nonce).Inv ∧
      Earned verify s a
        (({ s with sockets := socket :: s.sockets } : Node ν κ).performServerHandshake socket connId line nonce) := by
  have hrequired := h.required
  obtain ⟨time, required, keys, conns, sockets, closing, issued, enabled⟩ := s
  simp only at hrequired
  subst hrequired
  have hopen := h.open socket
  have hother {c : Conn ν} (hc : c.socket = socket) (connId' : Text) (c' : Conn ν) (_ : connId' ≠ connId)
      (hc' : conns.get? connId' = some c') : c'.socket ≠ c.socket :=
    fun he => hnew (hc ▸ he ▸ h.socket hc')
  unfold performServerHandshake
  cases MuxConHandshake.parse line with
  | none => exact ⟨hopen, earned_of_eq rfl⟩
  | some hs =>
      simp only [if_true, Bool.not_true]
      -- The record without a challenge counts as nothing.
      have hput := hopen.put connId (c := { socket := socket, role := .server, pkId := hs.pkId, authOk := false })
        (hother rfl) List.mem_cons_self fun st hst => by cases hst
      have hearned : Earned verify (⟨time, true, keys, conns, sockets, closing, issued, enabled⟩ : Node ν κ) a
          ((⟨time, true, keys, conns, socket :: sockets, closing, issued, enabled⟩ : Node ν κ).setConn connId
            { socket := socket, role := .server, pkId := hs.pkId, authOk := false }) := earned_put rfl fun _ hok => by cases hok
      cases hpk : hs.pkId with
      | none =>
          rw [hpk] at hput hearned
          exact ⟨hput.of rfl rfl rfl rfl rfl, hearned⟩
      | some pkid =>
          rw [hpk] at hput hearned
          dsimp only
          split
          · exact ⟨hput.of rfl rfl rfl rfl rfl, hearned⟩
          · have hissue := hput.issue (i := ⟨socket, nonce, time⟩) List.mem_cons_self
              fun j hj he => hnew ((show j.socket = socket from he) ▸ h.issuedSocket j hj)
            refine ⟨(hissue.put connId
              (c := ⟨socket, .server, some pkid, false, some ⟨pkid, nonce, time + 30 * second⟩⟩) (fun connId' c' hne hc' => ?_)
              List.mem_cons_self fun st hst => ?_).of rfl rfl rfl rfl rfl, ?_⟩
            rotate_left 2
            · rintro connId' socket' ⟨c', hc', hrest⟩
              simp only [setConn, Dict.get?_set] at hc'
              split at hc'
              · cases hc'
                cases hrest.2.2
              · exact .inl ⟨c', hc', hrest⟩
            · simp only [setConn, Dict.get?_set, hne, if_false] at hc'
              exact hother rfl connId' c' hne hc'
            · cases hst
              refine ⟨rfl, ⟨_, List.mem_append_right _ List.mem_cons_self, rfl, rfl, rfl⟩, fun n hn => ?_⟩
              exact hnew (h.enabledSocket _ hn)

/-- An answer that is accepted proves the key. -/
theorem ctlAuthResponse_step {frameType payload keyId sig : Text} (h : s.Inv) (hf : frameType = ['C'] ∨ frameType = ['H', 'B'])
    (hr : authResponse (strip payload) = some (keyId, sig)) : (s.ctlAuthResponse verify connId keyId sig).Inv ∧
      Earned verify s (.frame connId frameType payload) (s.ctlAuthResponse verify connId keyId sig) := by
  have hsame : s.Inv ∧ Earned verify s (.frame connId frameType payload) s := ⟨h, earned_of_eq rfl⟩
  have hclosing : ({ s with closing := connId :: s.closing } : Node ν κ).Inv ∧
      Earned verify s (.frame connId frameType payload) { s with closing := connId :: s.closing } :=
    ⟨h.of rfl rfl rfl rfl rfl, earned_of_eq rfl⟩
  unfold ctlAuthResponse
  cases hc : s.connections.get? connId with
  | none => exact hsame
  | some c =>
      dsimp only
      cases hst : c.authState with
      | none => exact hsame
      | some st =>
          dsimp only
          split
          · exact hsame
          · rename_i hkey
            split
            · exact hclosing
            · rename_i htime
              cases hpub : s.authPubkeys.get? keyId with
              | none => exact hclosing
              | some pub =>
                  dsimp only
                  split
                  · rename_i hverify
                    obtain ⟨hnamed, ⟨i, hi, hsocket, hnonce, hexpires⟩, hun⟩ := h.pending hc hst
                    have hkey : st.keyId = keyId := not_not.mp hkey
                    have hput := h.put connId (c := { c with authOk := true, authState := none })
                      (fun connId' c' hne hc' he => hne (h.distinct hc' hc he)) (show c.socket ∈ s.sockets from h.socket hc)
                      fun st hst => by cases hst
                    refine ⟨(hput.enable (p := (c.socket, st.nonce)) (h.socket hc) hun fun connId' c' st' hc' hst' he => ?_).of
                      rfl rfl rfl rfl rfl, ?_⟩
                    · simp only [setConn, Dict.get?_set] at hc'
                      split at hc'
                      · cases hc'
                        cases hst'
                      · rename_i hne
                        exact hne (h.distinct hc' hc he)
                    · rintro connId' socket ⟨c', hc', hs', hrest⟩
                      simp only [setConn, Dict.get?_set] at hc'
                      split at hc'
                      · rename_i hid
                        cases hc'
                        subst hid hs'
                        exact .inr ⟨c, frameType, payload, keyId, sig, pub, i, rfl, hf, hr, hc, rfl, hkey ▸ hnamed, hpub, hi,
                          hsocket, hnonce ▸ hverify, hexpires ▸ Nat.not_lt.mp htime, hun⟩
                      · exact .inl ⟨c', hc', hs', hrest⟩
                  · exact hclosing

/-- A peer's own AUTH:OK says nothing on an accepted connection. -/
theorem ctlAuthOk_step {a : Act ν κ} (h : s.Inv) : (s.ctlAuthOk connId).Inv ∧ Earned verify s a (s.ctlAuthOk connId) := by
  unfold ctlAuthOk
  cases hc : s.connections.get? connId with
  | none => exact ⟨h, earned_of_eq rfl⟩
  | some c =>
      dsimp only
      cases hrole : c.role with
      | server => exact ⟨h.of rfl rfl rfl rfl rfl, earned_of_eq rfl⟩
      | client =>
          refine ⟨h.put connId (c := { c with authOk := true, role := .client }) (fun connId' c' hne hc' he => hne (h.distinct hc' hc he))
            (show c.socket ∈ s.sockets from h.socket hc) fun st hst => ?_, earned_put rfl fun hr => by cases hr⟩
          obtain ⟨hnamed, hissued, hun⟩ := h.pending hc hst
          exact ⟨hnamed, hissued, hun⟩

theorem step_keeps {a : Act ν κ} (h : s.Inv) (hstep : s.step verify a = some s') : s'.Inv ∧ Earned verify s a s' := by
  cases a with
  | accept socket peer line nonce =>
      simp only [step] at hstep
      split at hstep
      · cases hstep
      · rename_i hnew
        cases hstep
        exact performServerHandshake_step h hnew
  | dial socket host port =>
      simp only [step] at hstep
      split at hstep
      · cases hstep
      · rename_i hnew
        cases hstep
        refine ⟨(h.open socket).put _ (fun connId' c' _ hc' he => hnew ((show c'.socket = socket from he) ▸ h.socket hc')) List.mem_cons_self
          fun st hst => (by cases hst), earned_put rfl fun hr => by cases hr⟩
  | frame connId frameType payload =>
      simp only [step, Option.some.injEq] at hstep
      subst hstep
      have hsame : s.Inv ∧ Earned verify s (.frame connId frameType payload) s := ⟨h, earned_of_eq rfl⟩
      unfold readFrame
      split
      · rename_i hf
        unfold processControlCommand
        dsimp only
        split
        · split
          · exact hsame
          · split
            · rename_i keyId sig hr
              exact ctlAuthResponse_step h hf hr
            · split
              · exact ctlAuthOk_step h
              · split
                · exact ⟨h.of rfl rfl rfl rfl rfl, earned_of_eq rfl⟩
                · exact hsame
        · exact hsame
      · exact hsame
  | close connId =>
      cases hstep
      refine ⟨h.close _, ?_⟩
      rintro connId' socket ⟨c, hc, hrest⟩
      exact .inl ⟨c, Dict.get?_of_get?_pop hc, hrest⟩
  | loadPublicKeys keys =>
      cases hstep
      exact ⟨h.of rfl rfl rfl rfl rfl, earned_of_eq rfl⟩
  | wait time =>
      cases hstep
      exact ⟨h.of rfl rfl rfl rfl rfl, earned_of_eq rfl⟩

theorem inv_start (time : Nat) (keys : Dict Text κ) : ({ time := time, authPubkeys := keys } : Node ν κ).Inv := by
  refine ⟨rfl, ?_, ?_, ?_, ?_, ?_, ?_, ?_⟩ <;> simp

end OpenMux.Peering.Node
