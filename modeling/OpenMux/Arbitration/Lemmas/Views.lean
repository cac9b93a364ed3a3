import OpenMux.Arbitration.Lemmas.Moves
import OpenMux.Arbitration.Lemmas.Ports

/-!
# What a step changes in the views

The parts of a step, and the views of the streams after each: of the stream it is about, and of the others.
-/

namespace OpenMux.Arbitration

open Py Federation Origin Streams

namespace Requester

variable {n : Requester} {clientId : Text} {sid sid' : StreamId}

/-- No stream has two clients. -/
def Distinct (n : Requester) : Prop :=
  ∀ c c' sid, n.clientSessions.get? c = some sid → n.clientSessions.get? c' = some sid → c = c'

theorem get?_of_localClient (h : n.localClient sid = some clientId) : n.clientSessions.get? clientId = some sid := by
  obtain ⟨⟨c, s⟩, he, rfl⟩ := Option.map_eq_some_iff.mp h
  have hs : s = sid := by simpa using List.find?_some he
  subst hs
  exact Dict.mem_entries.mp (List.mem_of_find?_eq_some he)

theorem localClient_iff (hd : n.Distinct) : n.localClient sid = some clientId ↔ n.clientSessions.get? clientId = some sid := by
  refine ⟨get?_of_localClient, fun h => ?_⟩
  have hfind : (n.clientSessions.entries.find? (·.2 = sid)).isSome :=
    List.find?_isSome.mpr ⟨(clientId, sid), Dict.mem_entries.mpr h, by simp⟩
  obtain ⟨⟨c, s⟩, he⟩ := Option.isSome_iff_exists.mp hfind
  have hc : n.localClient sid = some c := by simp [localClient, he]
  rw [hc, hd _ _ _ (get?_of_localClient hc) h]

/-- The record of a stream is that of its client. -/
theorem record_eq (hd : n.Distinct) (h : n.clientSessions.get? clientId = some sid) :
    Link.record n sid = n.proxy.clientHasWrite clientId := by
  simp [Link.record, (localClient_iff hd).mpr h]

/-- A change of one client's record is a change of its stream's. -/
theorem record_proxy (hd : n.Distinct) {p : Port} (h : n.clientSessions.get? clientId = some sid)
    (hp : ∀ c, c ≠ clientId → modeOf p c = modeOf n.proxy c) :
    Link.record { n with proxy := p } sid' = if sid' = sid then p.clientHasWrite clientId else Link.record n sid' := by
  split
  · rename_i hs
    subst hs
    exact record_eq (n := { n with proxy := p }) hd h
  · rename_i hs
    have hlocal : Requester.localClient { n with proxy := p } sid' = n.localClient sid' := rfl
    unfold Link.record
    rw [hlocal]
    cases hl : n.localClient sid' with
    | none => rfl
    | some c =>
        have hc := get?_of_localClient hl
        have hne : c ≠ clientId := by
          rintro rfl
          rw [hc] at h
          exact hs (Option.some.inj h)
        show p.clientHasWrite c = n.proxy.clientHasWrite c
        rw [Bool.eq_iff_iff, clientHasWrite_iff, clientHasWrite_iff, hp c hne]

theorem localClient_set (n' : Requester) (sid' : StreamId) (hd : n.Distinct) (hd' : n'.Distinct)
    (hset : n'.clientSessions = n.clientSessions.set clientId sid) (hnew : n.clientSessions.get? clientId = none)
    (hfresh : ∀ c, n.clientSessions.get? c ≠ some sid) :
    n'.localClient sid' = if sid' = sid then some clientId else n.localClient sid' := by
  have hget : ∀ c, n'.clientSessions.get? c = if c = clientId then some sid else n.clientSessions.get? c := by
    intro c; rw [hset, Dict.get?_set]
  split
  · rename_i hs
    subst hs
    exact (localClient_iff hd').mpr (by rw [hget, if_pos rfl])
  · rename_i hs
    refine Option.ext fun c => ?_
    show n'.localClient sid' = some c ↔ n.localClient sid' = some c
    rw [localClient_iff hd', localClient_iff hd, hget]
    split
    · rename_i hc
      subst hc
      simp [hnew, Ne.symm hs]
    · rfl

end Requester

variable {reqs : List Request} {sid sid' : StreamId} {id : Nat} {fut : Fut}

theorem filter_setFut : (reqs.map fun r => if r.Is sid id then { r with fut := fut } else r).filter (·.sid = sid') =
    if sid' = sid then (reqs.filter (·.sid = sid')).map fun r => if r.id = id then { r with fut := fut } else r
    else reqs.filter (·.sid = sid') := by
  induction reqs with
  | nil => simp
  | cons r reqs ih =>
      rw [List.map_cons]
      by_cases hs : sid' = sid
      · subst hs
        simp only [if_true] at ih ⊢
        by_cases hr : r.sid = sid'
        · by_cases hid : r.id = id
          · have his : r.Is sid' id := ⟨hr, hid⟩
            simp [his, hr, hid, ih]
          · have his : ¬ r.Is sid' id := fun h => hid h.2
            simp [his, hr, hid, ih]
        · have his : ¬ r.Is sid' id := fun h => hr h.1
          simp [his, hr, ih]
      · simp only [hs, if_false] at ih ⊢
        by_cases hr : r.Is sid id
        · have h₁ : ¬ r.sid = sid' := fun he => hs (he.symm.trans hr.1)
          simp [hr, h₁, ih]
        · simp only [hr, if_false, List.filter_cons, ih]

theorem filter_without : (reqs.filter fun q => ¬ q.Is sid id).filter (·.sid = sid') =
    if sid' = sid then (reqs.filter (·.sid = sid')).filter (·.id ≠ id) else reqs.filter (·.sid = sid') := by
  rw [List.filter_filter]
  split
  · rename_i hs
    subst hs
    rw [List.filter_filter]
    refine List.filter_congr fun r _ => ?_
    by_cases hr : r.sid = sid' <;> simp [Request.Is, hr]
  · rename_i hs
    refine List.filter_congr fun r _ => ?_
    by_cases hr : r.sid = sid'
    · have : ¬ r.sid = sid := fun he => hs (hr.symm.trans he)
      simp [Request.Is, hr, hs]
    · simp [hr]

namespace Link

variable {k : Text} {s : Link}

/-- The view of one stream after a change, and the views of the others as they were. -/
def Only (k : Text) (s s' : Link) (sid : StreamId) (v : StreamView) : Prop :=
  ∀ sid', s'.view k sid' = if sid' = sid then v else s.view k sid'

/-! ## The requesting node -/

theorem view_requestFedrw (clientId : Text) (sid : StreamId) (stage : Stage) (action : FedrwAction) :
    Only k s (s.sends (s.requester.requestFedrw clientId sid stage action)) sid
      { s.view k sid with
        requests := (s.view k sid).requests ++ [⟨s.requester.nextRequest, clientId, sid, stage, .pending⟩]
        pending := some s.requester.nextRequest
        frames := (s.view k sid).frames ++ [.fedrw action] } := by
  intro sid'
  split
  · rename_i hs
    subst hs
    simp [view, sends, Requester.requestFedrw, Requester.localClient, record, Frame.forStream]
  · rename_i hs
    simp [view, sends, Requester.requestFedrw, Requester.localClient, record, Frame.forStream, Dict.get?_set, hs, Ne.symm hs]

/-- A change of the proxy. -/
theorem view_proxy {p : Port} (sid : StreamId) :
    view k { s with requester := { s.requester with proxy := p } } sid =
      { s.view k sid with record := record { s.requester with proxy := p } sid } := rfl

/-- A change of one client's record. -/
theorem only_proxy (hd : s.requester.Distinct) {p : Port} {clientId : Text}
    (h : s.requester.clientSessions.get? clientId = some sid)
    (hp : ∀ c, c ≠ clientId → modeOf p c = modeOf s.requester.proxy c) :
    Only k s { s with requester := { s.requester with proxy := p } } sid
      { s.view k sid with record := p.clientHasWrite clientId } := by
  intro sid'
  rw [view_proxy, Requester.record_proxy hd h hp]
  split
  · rename_i hs; subst hs; rfl
  · rfl

theorem view_openFrame (sid : StreamId) : Only k s { s with toOrigin := s.toOrigin ++ [.openStream sid] } sid
    { s.view k sid with frames := (s.view k sid).frames ++ [.openStream] } := by
  intro sid'
  split
  · rename_i hs; subst hs; simp [view, Frame.forStream]
  · rename_i hs; simp [view, Frame.forStream, Ne.symm hs]

theorem view_setFut (sid : StreamId) (id : Nat) (fut : Fut) :
    Only k s { s with requester := s.requester.setFut sid id fut } sid
      { s.view k sid with requests := (s.view k sid).setFut id fut } := by
  intro sid'
  split
  · rename_i hs
    subst hs
    simp only [view, Requester.setFut, StreamView.setFut, filter_setFut, if_true]
    rfl
  · rename_i hs
    simp only [view, Requester.setFut, filter_setFut, if_neg hs]
    rfl

/-- A request that leaves, with the `finally` of `_request_fedrw`. -/
def drop (s : Link) (r : Request) : Link :=
  { s with requester := { s.requester with
      requests := s.requester.requests.filter fun q => ¬ q.Is r.sid r.id
      fedrwPending := s.requester.fedrwPending.pop r.sid } }

theorem view_drop (r : Request) : Only k s (s.drop r) r.sid
    { s.view k r.sid with requests := (s.view k r.sid).without r.id, pending := none } := by
  intro sid'
  split
  · rename_i hs
    subst hs
    simp only [view, drop, filter_without, if_true, StreamView.without, Dict.get?_pop_self]
    rfl
  · rename_i hs
    simp only [view, drop, filter_without, if_neg hs, Dict.get?_pop_ne _ hs]
    rfl

/-- An ack that is taken from the channel, and with it the future. -/
def takeAck (s : Link) (a : Ack) (rest : List Ack) : Link :=
  { s with
    requester := { s.requester with fedrwPending := s.requester.fedrwPending.pop a.sid }
    toRequester := rest }

theorem view_takeAck {a : Ack} {rest : List Ack} (h : s.toRequester = a :: rest) :
    Only k s (s.takeAck a rest) a.sid
      { s.view k a.sid with acks := (s.view k a.sid).acks.tail, pending := none } ∧
      (s.view k a.sid).acks = a.mode :: (s.view k a.sid).acks.tail := by
  refine ⟨fun sid' => ?_, by simp [view, h]⟩
  split
  · rename_i hs
    subst hs
    simp [view, takeAck, h, Requester.localClient, record]
  · rename_i hs
    simp [view, takeAck, h, Requester.localClient, record, Dict.get?_pop_ne _ hs, Ne.symm hs]

theorem awaited_iff : (s.view k sid).awaited ↔ ∃ id, s.requester.awaited sid = some id := by
  simp only [StreamView.awaited, view, Requester.awaited, Option.filter_eq_some_iff, List.any_eq_true, decide_eq_true_eq,
    List.mem_filter]
  constructor
  · rintro ⟨r, ⟨hr, hs⟩, hp, hf⟩
    exact ⟨r.id, hp, r, hr, ⟨hs, rfl⟩, hf⟩
  · rintro ⟨id, hp, r, hr, ⟨hs, rfl⟩, hf⟩
    exact ⟨r, ⟨hr, hs⟩, hp, hf⟩

end Link

end OpenMux.Arbitration
