import OpenMux.Arbitration.Lemmas.Views

/-!
# Steps of the link are moves of its streams
-/

namespace OpenMux.Arbitration

open Py Federation Origin Streams Relation

namespace Link

variable {k : Text} {s s' : Link} {sid : StreamId}

/-- What holds of the link beside the invariants of its streams. -/
structure Wired (k : Text) (s : Link) : Prop where
  distinct : s.requester.Distinct
  bounded : ∀ c sid, s.requester.clientSessions.get? c = some sid → sid ≤ s.requester.nextStreamId
  owners : ∀ r ∈ s.requester.requests, s.requester.clientSessions.get? r.clientId = some r.sid
  victim : ∀ a ∈ s.arbiter.arbitrating, a.2 ≠ Arbiter.mirror k a.1
  takers : ∀ t ∈ s.arbiter.transfers, ∀ sid, t.taker ≠ Arbiter.mirror k sid

structure Inv (k : Text) (s : Link) : Prop where
  wired : s.Wired k
  streams : ∀ sid, (s.view k sid).Invariant

/-- Every stream moves. -/
def Moves (k : Text) (s s' : Link) : Prop :=
  ∀ sid, ReflTransGen StreamView.Move (s.view k sid) (s'.view k sid)

theorem Only.moves {v : StreamView} (h : Only k s s' sid v) (hm : StreamView.Move (s.view k sid) v) :
    Moves k s s' := by
  intro sid'
  rw [h sid']
  split
  · rename_i hs; subst hs; exact .single hm
  · exact .refl

theorem Moves.trans {s'' : Link} (h : Moves k s s') (h' : Moves k s' s'') : Moves k s s'' :=
  fun sid => (h sid).trans (h' sid)

theorem Moves.of_eq (h : ∀ sid, s'.view k sid = s.view k sid) : Moves k s s' :=
  fun sid => h sid ▸ .refl

/-- Changes of one stream, one after the other. -/
theorem Only.trans {s'' : Link} {v v' : StreamView} (h : Only k s s' sid v) (h' : Only k s' s'' sid v') :
    Only k s s'' sid v' := by
  intro sid'
  rw [h' sid']
  split
  · rfl
  · rename_i hs; rw [h sid', if_neg hs]

theorem Only.self {v : StreamView} (h : Only k s s' sid v) : s'.view k sid = v := by
  rw [h sid, if_pos rfl]

theorem Inv.session (h : s.Inv k) (hne : s.view k sid ≠ {}) : (s.view k sid).session :=
  (h.streams sid).session hne

theorem view_session {clientId : Text} (h : s.Wired k) (hc : s.requester.clientSessions.get? clientId = some sid) :
    (s.view k sid).session := by
  simp [view, (Requester.localClient_iff h.distinct).mpr hc]

/-! ## The requesting node -/

/-- A request for the slot of a client that has nothing under way. -/
theorem moves_ask (h : s.Inv k) {clientId : Text} {stage : Stage} {action : FedrwAction}
    (hc : s.requester.clientSessions.get? clientId = some sid) (hclear : (s.view k sid).Clear)
    (hstage : stage ≠ .release) (haction : action.Asks) :
    Moves k s (s.sends (s.requester.requestFor clientId stage action)) := by
  rw [Requester.requestFor, hc]
  exact (view_requestFedrw clientId sid stage action).moves
    (.ask ⟨s.requester.nextRequest, clientId, sid, stage, .pending⟩ action (view_session h.wired hc) hclear hstage rfl haction)

/-- A release. -/
theorem moves_demote (h : s.Inv k) {clientId : Text} (hc : s.requester.clientSessions.get? clientId = some sid)
    (hw : (s.view k sid).awaiting = false) (hg : (s.view k sid).granted = false) :
    Moves k s (s.sends (s.requester.demote clientId)) := by
  have hproxy := only_proxy (k := k) h.wired.distinct hc (p := s.requester.proxy.demoteClient clientId)
    fun c hne => by simp [hne]
  have hrec : (s.requester.proxy.demoteClient clientId).clientHasWrite clientId = false := by
    rw [← Bool.not_eq_true, clientHasWrite_iff]
    cases hm : modeOf s.requester.proxy clientId <;> simp [hm]
  rw [hrec] at hproxy
  have hsend := view_requestFedrw (k := k)
    (s := { s with requester := { s.requester with proxy := s.requester.proxy.demoteClient clientId } })
    clientId sid .release .release
  rw [hproxy.self] at hsend
  have heq : s.sends (s.requester.demote clientId) =
      sends { s with requester := { s.requester with proxy := s.requester.proxy.demoteClient clientId } }
        (Requester.requestFedrw { s.requester with proxy := s.requester.proxy.demoteClient clientId } clientId sid .release
          .release) := by
    simp only [Requester.demote, Requester.requestFor, hc]
    rfl
  rw [heq]
  exact (hproxy.trans hsend).moves (.release ⟨s.requester.nextRequest, clientId, sid, .release, .pending⟩
    (view_session h.wired hc) hw hg (by simp [Request.Asks]))

theorem fresh_session (h : s.Wired k) : ∀ c, s.requester.clientSessions.get? c ≠ some (s.requester.nextStreamId + 1) :=
  fun c hc => Nat.not_succ_le_self _ (h.bounded c _ hc)

/-- Nothing is known of a stream that is yet to be opened. -/
theorem view_fresh (h : s.Inv k) : s.view k (s.requester.nextStreamId + 1) = {} := by
  refine (h.streams _).blank ?_
  have : s.requester.localClient (s.requester.nextStreamId + 1) = none := by
    cases hl : s.requester.localClient (s.requester.nextStreamId + 1) with
    | none => rfl
    | some c => exact absurd (Requester.get?_of_localClient hl) (fresh_session h.wired c)
  simp [view, this]

/-- A new client with a new stream. -/
def attach (s : Link) (clientId : Text) (username : String) (now : Nat) : Link :=
  { s with
    requester := { s.requester with
      proxy := s.requester.proxy.addClient ⟨clientId, username, .readOnly, now⟩
      clientSessions := s.requester.clientSessions.set clientId (s.requester.nextStreamId + 1)
      nextStreamId := s.requester.nextStreamId + 1 }
    toOrigin := s.toOrigin ++ [.openStream (s.requester.nextStreamId + 1)] }

theorem wired_attach (h : s.Wired k) {clientId : Text} (hnew : s.requester.clientSessions.get? clientId = none)
    (username : String) (now : Nat) : (s.attach clientId username now).Wired k := by
  have hfresh := fresh_session h
  refine ⟨fun c c' sid hc hc' => ?_, fun c sid hc => ?_, fun r hr => ?_, h.victim, h.takers⟩
  · simp only [attach, Dict.get?_set] at hc hc'
    split at hc <;> split at hc'
    · rename_i h₁ h₂; rw [h₁, h₂]
    · cases hc; exact absurd hc' (hfresh c')
    · cases hc'; exact absurd hc (hfresh c)
    · exact h.distinct _ _ _ hc hc'
  · simp only [attach, Dict.get?_set] at hc ⊢
    split at hc
    · cases hc; exact le_refl _
    · exact Nat.le_succ_of_le (h.bounded c sid hc)
  · have := h.owners r hr
    simp only [attach]
    rw [Dict.get?_set_ne]
    · exact this
    · rintro he
      rw [he, hnew] at this
      cases this

theorem only_attach (h : s.Inv k) {clientId : Text} (hnew : s.requester.clientSessions.get? clientId = none)
    (username : String) (now : Nat) : Only k s (s.attach clientId username now) (s.requester.nextStreamId + 1)
      { session := true, frames := [.openStream] } := by
  have hlocal := fun sid' => Requester.localClient_set (n := s.requester) (s.attach clientId username now).requester
    sid' h.wired.distinct (wired_attach h.wired hnew username now).distinct rfl hnew (fresh_session h.wired)
  have hblank := view_fresh h
  intro sid'
  split
  · rename_i hs
    subst hs
    have hrec : record (s.attach clientId username now).requester (s.requester.nextStreamId + 1) = false := by
      unfold record
      rw [hlocal, if_pos rfl]
      show (s.requester.proxy.addClient ⟨clientId, username, .readOnly, now⟩).clientHasWrite clientId = false
      rw [← Bool.not_eq_true, clientHasWrite_iff, modeOf_addClient_self (c := ⟨clientId, username, .readOnly, now⟩) rfl]
      simp
    have hparts := hblank
    simp only [view, StreamView.mk.injEq] at hparts
    obtain ⟨-, -, h₁, h₂, h₃, h₄, h₅, h₆, h₇, h₈⟩ := hparts
    simp only [view, hlocal, hrec, StreamView.mk.injEq]
    refine ⟨by simp, trivial, h₁, h₂, ?_, h₄, h₅, h₆, h₇, h₈⟩
    simp only [attach, List.filterMap_append, h₃, Frame.forStream, List.filterMap_cons, if_true, List.filterMap_nil,
      List.nil_append]
  · rename_i hs
    have hrec : record (s.attach clientId username now).requester sid' = record s.requester sid' := by
      unfold record
      rw [hlocal, if_neg hs]
      cases hl : s.requester.localClient sid' with
      | none => rfl
      | some c =>
          have hne : c ≠ clientId := by
            rintro rfl
            rw [Requester.get?_of_localClient hl] at hnew
            cases hnew
          show (s.requester.proxy.addClient ⟨clientId, username, .readOnly, now⟩).clientHasWrite c =
            s.requester.proxy.clientHasWrite c
          rw [Bool.eq_iff_iff, clientHasWrite_iff, clientHasWrite_iff,
            modeOf_addClient_of_ne (c := ⟨clientId, username, .readOnly, now⟩) hne]
    simp only [view, hlocal, hrec, if_neg hs]
    simp [attach, Frame.forStream, Ne.symm hs]

theorem moves_connect (h : s.Inv k) {clientId : Text} {username : String} {now : Nat} {entitled : Bool}
    (hnew : s.requester.clientSessions.get? clientId = none) :
    Moves k s (s.sends (s.requester.connectClient clientId username now entitled)) := by
  have hattach := only_attach h hnew username now
  have hblank := view_fresh h
  have hmoves : Moves k s (s.attach clientId username now) := hattach.moves (.connect hblank)
  cases entitled with
  | false => exact hmoves
  | true =>
      have heq : s.sends (s.requester.connectClient clientId username now true) =
          (s.attach clientId username now).sends ((s.attach clientId username now).requester.requestFedrw clientId
            (s.requester.nextStreamId + 1) .attach .request) := by
        simp [sends, attach, Requester.connectClient, Requester.requestFedrw]
      rw [heq]
      refine hmoves.trans ((view_requestFedrw clientId _ .attach .request).moves
        (.ask ⟨s.requester.nextRequest, clientId, s.requester.nextStreamId + 1, .attach, .pending⟩ .request ?_ ?_
          (by simp [Request.Asks]) rfl trivial))
      · rw [hattach.self]
      · rw [hattach.self]; exact ⟨rfl, rfl, rfl⟩

theorem moves_reopen (h : s.Inv k) {clientId : Text} (hc : s.requester.clientSessions.get? clientId = some sid) :
    Moves k s { s with toOrigin := s.toOrigin ++ [.openStream sid] } :=
  (view_openFrame sid).moves (.reopen (view_session h.wired hc))

theorem mem_view_requests {r : Request} (hr : r ∈ s.requester.requests) : r ∈ (s.view k r.sid).requests :=
  List.mem_filter.mpr ⟨hr, by simp⟩

theorem moves_expire (h : s.Inv k) {id : Nat}
    (hany : s.requester.requests.any fun r => r.Is sid id ∧ r.fut = .pending)
    (hmeets : s.Meets k (.expire sid id)) : Moves k s { s with requester := s.requester.expire sid id } := by
  obtain ⟨r, hr, hp⟩ := List.any_eq_true.mp hany
  obtain ⟨⟨rfl, rfl⟩, hf⟩ := of_decide_eq_true hp
  have hmem := mem_view_requests (k := k) hr
  refine (view_setFut r.sid r.id .cancelled).moves (.expire r.id (h.session fun he => ?_) ⟨r, hmem, rfl, hf⟩ ?_)
  · rw [he] at hmem; cases hmem
  · rcases hmeets with ⟨q, hq, ⟨hqs, hqi⟩, hask⟩ | hden
    · exact .inl ⟨q, hqs ▸ mem_view_requests hq, hqi, hask⟩
    · exact .inr hden

/-- A coroutine that was not granted the slot leaves, and one of a release. -/
theorem moves_leave (h : s.Inv k) {r : Request} (hr : r ∈ s.requester.requests) (hf : r.fut ≠ .pending)
    (hno : ¬ (r.Asks ∧ r.fut = .done .readWrite)) : Moves k s (s.drop r) := by
  have hmem := mem_view_requests (k := k) hr
  refine (view_drop r).moves (.finish r _ (h.session fun he => ?_) hmem hf ?_)
  · rw [he] at hmem; cases hmem
  · rw [if_neg hno]

/-- A coroutine that was granted the slot applies it on the proxy. -/
theorem moves_apply (h : s.Inv k) {r : Request} (hr : r ∈ s.requester.requests) (hask : r.Asks)
    (hf : r.fut = .done .readWrite) {p : Port} (hp : ∀ c, c ≠ r.clientId → modeOf p c = modeOf s.requester.proxy c)
    (hrw : p.clientHasWrite r.clientId) :
    Moves k s { s.drop r with requester := { (s.drop r).requester with proxy := p } } := by
  have hmem := mem_view_requests (k := k) hr
  have hproxy := only_proxy (k := k) (s := s.drop r) (p := p) (fun c c' sid => h.wired.distinct c c' sid)
    (h.wired.owners r hr) hp
  rw [hrw, (view_drop r).self] at hproxy
  refine ((view_drop r).trans hproxy).moves (.finish r true (h.session fun he => ?_) hmem (by rw [hf]; decide) ?_)
  · rw [he] at hmem; cases hmem
  · rw [if_pos ⟨hask, hf⟩]

theorem moves_resume (h : s.Inv k) {r : Request} {mayDrive : Bool} (hr : r ∈ s.requester.requests)
    (hf : r.fut ≠ .pending) (happ : s.Applies k r mayDrive) :
    Moves k s (s.sends (s.requester.resume r mayDrive)) := by
  have hmem := mem_view_requests (k := k) hr
  by_cases hrw : r.fut = .done .readWrite
  swap
  · have : s.sends (s.requester.resume r mayDrive) = s.drop r := by
      simp [Requester.resume, hrw, sends, drop]
    rw [this]
    exact moves_leave h hr hf fun hg => hrw hg.2
  have happ := happ hrw
  have hpromoted : (s.requester.proxy.promoteClient r.clientId).2 →
      modeOf (s.requester.proxy.promoteClient r.clientId).1 r.clientId = some .readWrite := fun hok => by
    simp [modeOf_promoteClient, hok]
  cases hst : r.stage with
  | attach =>
      rw [hst] at happ
      have heq : s.sends (s.requester.resume r mayDrive) = { s.drop r with requester := { (s.drop r).requester with
          proxy := (s.requester.proxy.promoteClient r.clientId).1 } } := by
        simp [Requester.resume, hrw, hst, sends, drop]
      rw [heq]
      exact moves_apply h hr (by simp [Request.Asks, hst]) hrw (fun c hne => by simp [modeOf_promoteClient, hne])
        (clientHasWrite_iff.mpr (hpromoted happ))
  | promote =>
      rw [hst] at happ
      have heq : s.sends (s.requester.resume r mayDrive) = { s.drop r with requester := { (s.drop r).requester with
          proxy := ((s.requester.proxy.promoteClient r.clientId).1.promoteClient r.clientId).1 } } := by
        simp [Requester.resume, hrw, hst, sends, drop, show (s.requester.proxy.promoteClient r.clientId).2 = true from happ]
      rw [heq]
      refine moves_apply h hr (by simp [Request.Asks, hst]) hrw (fun c hne => by simp [modeOf_promoteClient, hne]) ?_
      rw [clientHasWrite_iff, modeOf_promoteClient, if_pos ⟨rfl, promoteClient_of_readWrite (hpromoted happ)⟩]
  | take =>
      rw [hst] at happ
      obtain ⟨hdrive, hacks⟩ := happ
      have howner := h.wired.owners r hr
      have heq : s.sends (s.requester.resume r mayDrive) =
          (s.drop r).sends ((s.drop r).requester.requestFedrw r.clientId r.sid .promote .request) := by
        simp only [Requester.resume, hrw, hst, hdrive, ne_eq, not_true_eq_false, if_false, if_true, Requester.requestFor, howner]
        rfl
      have hsend := view_requestFedrw (k := k) (s := s.drop r) r.clientId r.sid .promote .request
      rw [(view_drop r).self] at hsend
      rw [heq]
      refine ((view_drop r).trans hsend).moves (.follow r ⟨s.requester.nextRequest, r.clientId, r.sid, .promote, .pending⟩
        (h.session fun he => ?_) hmem (by simp [Request.Asks, hst]) hrw hacks (by simp [Request.Asks]) rfl)
      rw [he] at hmem; cases hmem
  | release =>
      have heq : s.sends (s.requester.resume r mayDrive) = s.drop r := by
        simp [Requester.resume, hrw, hst, sends, drop]
      rw [heq]
      exact moves_leave h hr hf fun hg => hg.1 hst

theorem moves_readAck (h : s.Inv k) {a : Ack} {rest : List Ack} (hch : s.toRequester = a :: rest)
    (hmeets : a.mode = .readOnly → (s.view k a.sid).granted = false) :
    Moves k s { s with requester := s.requester.handleFedrwAck a, toRequester := rest } := by
  obtain ⟨htake, hacks⟩ := view_takeAck (k := k) hch
  have hsess : (s.view k a.sid).session := h.session fun he => by rw [he] at hacks; cases hacks
  cases hawait : s.requester.awaited a.sid with
  | some id =>
      have heq : ({ s with requester := s.requester.handleFedrwAck a, toRequester := rest } : Link) =
          { s.takeAck a rest with requester := (s.takeAck a rest).requester.setFut a.sid id (.done a.mode) } := by
        simp [Requester.handleFedrwAck, hawait, takeAck]
      obtain ⟨hp, hany⟩ := Option.filter_eq_some_iff.mp hawait
      obtain ⟨r, hr, hdec⟩ := List.any_eq_true.mp hany
      obtain ⟨⟨hsid, rfl⟩, hf⟩ := of_decide_eq_true hdec
      have hset := view_setFut (k := k) (s := s.takeAck a rest) a.sid r.id (.done a.mode)
      rw [htake.self] at hset
      rw [heq]
      exact (htake.trans hset).moves (.readReply a.mode _ r hacks (hsid ▸ mem_view_requests hr) hp hf)
  | none =>
      have hno : ¬ (s.view k a.sid).awaited := by
        rw [awaited_iff, hawait]
        rintro ⟨id, hid⟩; cases hid
      have hmove : StreamView.Move (s.view k a.sid) { s.view k a.sid with
          acks := (s.view k a.sid).acks.tail, pending := none
          record := (s.view k a.sid).record && a.mode ≠ .readOnly } :=
        .readNotice a.mode _ hacks hno hmeets
      cases hm : a.mode with
      | readWrite =>
          have heq : ({ s with requester := s.requester.handleFedrwAck a, toRequester := rest } : Link) = s.takeAck a rest := by
            simp [Requester.handleFedrwAck, hawait, takeAck, hm]
          rw [hm] at hmove
          rw [heq]
          refine htake.moves ?_
          simpa using hmove
      | readOnly =>
          obtain ⟨c, hc⟩ : ∃ c, s.requester.localClient a.sid = some c := Option.isSome_iff_exists.mp hsess
          have hget := Requester.get?_of_localClient hc
          have heq : ({ s with requester := s.requester.handleFedrwAck a, toRequester := rest } : Link) =
              { s.takeAck a rest with requester := { (s.takeAck a rest).requester with
                proxy := s.requester.proxy.demoteClient c } } := by
            have : Requester.localClient { s.requester with fedrwPending := s.requester.fedrwPending.pop a.sid } a.sid = some c := hc
            simp [Requester.handleFedrwAck, hawait, takeAck, hm, Requester.notifyLocalClient, this]
          have hproxy := only_proxy (k := k) (s := s.takeAck a rest) (p := s.requester.proxy.demoteClient c)
            (fun c c' sid => h.wired.distinct c c' sid) hget fun c' hne => by simp [hne, takeAck]
          have hrec : (s.requester.proxy.demoteClient c).clientHasWrite c = false := by
            rw [← Bool.not_eq_true, clientHasWrite_iff]
            cases hmo : modeOf s.requester.proxy c <;> simp [hmo]
          rw [hrec, htake.self] at hproxy
          rw [hm] at hmove
          rw [heq]
          refine (htake.trans hproxy).moves ?_
          simpa using hmove

end Link

end OpenMux.Arbitration
