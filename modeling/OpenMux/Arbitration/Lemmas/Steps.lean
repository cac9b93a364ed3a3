import OpenMux.Arbitration.Lemmas.Origin

/-!
# Runs of the link
-/

namespace OpenMux.Arbitration

open Py Federation Origin Streams

namespace Link

variable {k : Text} {s s' : Link} {sid : StreamId}

/-! ## What is known beside the streams -/

/-- The clients keep their streams, and the requests are those of clients. -/
theorem Wired.requester (h : s.Wired k) (n : Requester) (frames : List Frame) (acks : List Ack)
    (hsess : n.clientSessions = s.requester.clientSessions) (hnext : n.nextStreamId = s.requester.nextStreamId)
    (howners : ∀ r ∈ n.requests, s.requester.clientSessions.get? r.clientId = some r.sid) :
    Wired k { s with requester := n, toOrigin := frames, toRequester := acks } := by
  refine ⟨?_, ?_, ?_, h.victim, h.takers⟩
  · intro c c' sid hc hc'
    rw [hsess] at hc hc'
    exact h.distinct c c' sid hc hc'
  · intro c sid hc
    rw [hsess] at hc
    rw [hnext]
    exact h.bounded c sid hc
  · intro r hr
    rw [hsess]
    exact howners r hr

theorem Wired.requestFor (h : s.Wired k) (clientId : Text) (stage : Stage) (action : FedrwAction) :
    Wired k (s.sends (s.requester.requestFor clientId stage action)) := by
  unfold Requester.requestFor
  cases hc : s.requester.clientSessions.get? clientId with
  | none => exact h.requester _ _ _ rfl rfl h.owners
  | some sid =>
      refine h.requester _ _ _ rfl rfl fun r hr => ?_
      rcases List.mem_append.mp hr with hr | hr
      · exact h.owners r hr
      · rw [List.mem_singleton.mp hr]
        exact hc

theorem Wired.connect (h : s.Wired k) {clientId : Text} (hnew : s.requester.clientSessions.get? clientId = none)
    (username : String) (now : Nat) (entitled : Bool) :
    Wired k (s.sends (s.requester.connectClient clientId username now entitled)) := by
  have hattach := wired_attach h hnew username now
  cases entitled with
  | false => exact hattach
  | true =>
      refine hattach.requester _ _ s.toRequester rfl rfl fun r hr => ?_
      rcases List.mem_append.mp hr with hr | hr
      · exact hattach.owners r hr
      · rw [List.mem_singleton.mp hr]
        simp [attach]

theorem owners_setFut (h : s.Wired k) {id : Nat} {fut : Fut} :
    ∀ r ∈ (s.requester.setFut sid id fut).requests, s.requester.clientSessions.get? r.clientId = some r.sid := by
  intro r hr
  obtain ⟨q, hq, rfl⟩ := List.mem_map.mp hr
  have := h.owners q hq
  split <;> exact this

theorem Wired.resume (h : s.Wired k) (r : Request) (mayDrive : Bool) :
    Wired k (s.sends (s.requester.resume r mayDrive)) := by
  have howners : ∀ q ∈ (s.drop r).requester.requests, s.requester.clientSessions.get? q.clientId = some q.sid :=
    fun q hq => h.owners q (List.mem_of_mem_filter hq)
  have hdrop : (s.drop r).Wired k := h.requester (s.drop r).requester _ _ rfl rfl howners
  unfold Requester.resume
  dsimp only
  split
  · exact h.requester _ _ s.toRequester rfl rfl howners
  · cases r.stage with
    | attach => exact h.requester _ _ s.toRequester rfl rfl howners
    | promote => exact h.requester _ _ s.toRequester rfl rfl howners
    | release => exact h.requester _ _ s.toRequester rfl rfl howners
    | take =>
        dsimp only
        split
        · exact hdrop.requestFor r.clientId .promote .request
        · exact h.requester _ _ s.toRequester rfl rfl howners

theorem Wired.readAck (h : s.Wired k) (a : Ack) (rest : List Ack) :
    Wired k { s with requester := s.requester.handleFedrwAck a, toRequester := rest } := by
  unfold Requester.handleFedrwAck
  dsimp only
  split
  · exact h.requester _ s.toOrigin rest rfl rfl fun r hr => owners_setFut h r hr
  · split
    · refine h.requester _ s.toOrigin rest ?_ ?_ ?_ <;> unfold Requester.notifyLocalClient
      · split <;> rfl
      · split <;> rfl
      · split <;> exact h.owners
    · exact h.requester _ s.toOrigin rest rfl rfl h.owners

theorem Wired.acks (h : s.Wired k) (r : Arbiter × List Ack)
    (hvictim : ∀ a ∈ r.1.arbitrating, a.2 ≠ Arbiter.mirror k a.1)
    (htakers : ∀ t ∈ r.1.transfers, ∀ sid, t.taker ≠ Arbiter.mirror k sid) : Wired k (s.acks r) :=
  ⟨h.distinct, h.bounded, h.owners, hvictim, htakers⟩

theorem Wired.arbiter (h : s.Wired k) (n : Arbiter) (hvictim : ∀ a ∈ n.arbitrating, a.2 ≠ Arbiter.mirror k a.1)
    (htakers : ∀ t ∈ n.transfers, ∀ sid, t.taker ≠ Arbiter.mirror k sid) : Wired k { s with arbiter := n } :=
  ⟨h.distinct, h.bounded, h.owners, hvictim, htakers⟩

theorem Wired.takeFrame (h : s.Wired k) (rest : List Frame) : (s.takeFrame rest).Wired k :=
  ⟨h.distinct, h.bounded, h.owners, h.victim, h.takers⟩

theorem transfers_demoteVictim (n : Arbiter) (victim : Text) : (n.demoteVictim victim).transfers = n.transfers := by
  unfold Arbiter.demoteVictim; split <;> rfl

theorem arbitrating_demoteVictim (n : Arbiter) (victim : Text) : (n.demoteVictim victim).arbitrating = n.arbitrating := by
  unfold Arbiter.demoteVictim; split <;> rfl

theorem Wired.handleFedrwTake (h : s.Wired k) (sid : StreamId) (spec : TakeSpec) :
    (∀ a ∈ (s.arbiter.handleFedrwTake k sid spec).1.arbitrating, a.2 ≠ Arbiter.mirror k a.1) ∧
      (s.arbiter.handleFedrwTake k sid spec).1.transfers = s.arbiter.transfers := by
  unfold Arbiter.handleFedrwTake
  cases hres : resolveFedrwTakeTarget s.arbiter.port (k, (sid : Int)) spec with
  | none =>
      dsimp only
      split
      · exact ⟨h.victim, rfl⟩
      · exact ⟨h.victim, rfl⟩
  | some c =>
      refine ⟨fun a ha => ?_, transfers_demoteVictim _ _⟩
      cases ha
      exact (resolve_mem hres).2

theorem Wired.handleFrame (h : s.Wired k) (now : Nat) (f : Frame) :
    (∀ a ∈ (s.arbiter.handleFrame k now f).1.arbitrating, a.2 ≠ Arbiter.mirror k a.1) ∧
      (s.arbiter.handleFrame k now f).1.transfers = s.arbiter.transfers := by
  cases f with
  | openStream sid => exact ⟨h.victim, rfl⟩
  | fedrw sid action =>
      unfold Arbiter.handleFrame Arbiter.handleFedrwRequest
      dsimp only
      split
      · exact ⟨h.victim, rfl⟩
      · cases action with
        | request => exact ⟨h.victim, rfl⟩
        | release => exact ⟨h.victim, rfl⟩
        | take spec => exact h.handleFedrwTake sid spec
        | force => exact h.handleFedrwTake sid .latest
        | unknown => exact ⟨h.victim, rfl⟩

theorem Wired.peerTake (h : s.Wired k) {slot : Slot} (hslot : slot.1 ≠ k) (spec : TakeSpec) :
    Wired k (s.acks (s.arbiter.peerTake k slot spec)) := by
  unfold Arbiter.peerTake
  cases resolveFedrwTakeTarget s.arbiter.port slot spec with
  | none =>
      dsimp only
      split
      · exact h.acks _ h.victim h.takers
      · exact h.acks _ h.victim h.takers
  | some c =>
      refine h.acks _ (fun a ha => ?_) fun t ht sid => ?_
      · rw [show _ = s.arbiter.arbitrating from arbitrating_demoteVictim _ _] at ha
        exact h.victim a ha
      · rcases List.mem_append.mp ht with ht | ht
        · exact h.takers t ht sid
        · rw [List.mem_singleton.mp ht]
          exact fedClientId_ne_mirror hslot

theorem Wired.localTake (h : s.Wired k) {taker : Text} (htaker : ¬ fedPrefix <+: taker) (victim : Text) :
    Wired k { s with arbiter := s.arbiter.localTake taker victim } := by
  refine h.arbiter _ h.victim fun t ht sid he => ?_
  rcases List.mem_append.mp ht with ht | ht
  · exact h.takers t ht sid he
  · obtain rfl := List.mem_singleton.mp ht
    have : taker = Arbiter.mirror k sid := he
    exact htaker (this ▸ fedPrefix_mirror)

theorem Wired.transferStep (h : s.Wired k) {i : Nat} {t : Transfer} (ht : s.arbiter.transfers[i]? = some t) (mayDrive : Bool) :
    Wired k { s with arbiter := s.arbiter.transferStep i t mayDrive } := by
  have herase : ∀ u ∈ s.arbiter.transfers.eraseIdx i, ∀ sid, u.taker ≠ Arbiter.mirror k sid :=
    fun u hu => h.takers u (List.mem_of_mem_eraseIdx hu)
  unfold Arbiter.transferStep
  cases t.kind with
  | peer => exact h.arbiter _ h.victim herase
  | localClient promoted =>
      dsimp only
      split
      · refine h.arbiter _ h.victim fun u hu => ?_
        rcases List.mem_or_eq_of_mem_set hu with hu | rfl
        · exact h.takers u hu
        · exact h.takers t (List.mem_of_getElem? ht)
      · exact h.arbiter _ h.victim herase

theorem Wired.endArbitration (h : s.Wired k) (sid : StreamId) (victim : Text) :
    Wired k (s.acks (s.arbiter.endArbitration k sid victim)) := by
  refine h.acks _ ?_ h.takers
  simp [Arbiter.endArbitration]

/-! ## Steps -/

theorem Inv.intro (h : s.Inv k) (hw : s'.Wired k) (hm : Moves k s s') : s'.Inv k :=
  ⟨hw, fun sid => (h.streams sid).moves (hm sid)⟩

/-- A step that meets its condition keeps what holds of the link. -/
theorem Inv.step (h : s.Inv k) {a : Act} (hmeets : s.Meets k a) (hstep : s.step k a = some s') : s'.Inv k := by
  cases a with
  | connect clientId username now entitled =>
      unfold Link.step at hstep
      dsimp only at hstep
      split at hstep
      · cases hstep
      · rename_i hnew
        cases hstep
        have hnone := Option.not_isSome_iff_eq_none.mp hnew
        exact h.intro (h.wired.connect hnone username now entitled) (moves_connect h hnone)
  | promote clientId =>
      obtain ⟨sid, hc, rfl⟩ := Option.map_eq_some_iff.mp hstep
      exact h.intro (h.wired.requestFor _ _ _) (moves_ask h hc (hmeets sid hc) (by simp) trivial)
  | take clientId target =>
      obtain ⟨sid, hc, rfl⟩ := Option.map_eq_some_iff.mp hstep
      exact h.intro (h.wired.requestFor _ _ _) (moves_ask h hc (hmeets sid hc) (by simp) trivial)
  | demote clientId =>
      obtain ⟨sid, hc, rfl⟩ := Option.map_eq_some_iff.mp hstep
      obtain ⟨hw, hg⟩ : (s.view k sid).awaiting = false ∧ (s.view k sid).granted = false := hmeets sid hc
      have hproxy : Wired k { s with requester := { s.requester with proxy := s.requester.proxy.demoteClient clientId } } :=
        h.wired.requester _ _ _ rfl rfl h.wired.owners
      exact h.intro (hproxy.requestFor clientId .release .release) (moves_demote h hc hw hg)
  | reopen clientId =>
      obtain ⟨sid, hc, rfl⟩ := Option.map_eq_some_iff.mp hstep
      exact h.intro (h.wired.requester _ _ _ rfl rfl h.wired.owners) (moves_reopen h hc)
  | expire sid id =>
      unfold Link.step at hstep
      dsimp only at hstep
      split at hstep
      · cases hstep
        exact h.intro (h.wired.requester _ _ _ rfl rfl (owners_setFut h.wired)) (moves_expire h ‹_› hmeets)
      · cases hstep
  | resume sid id mayDrive =>
      obtain ⟨r, hfind, rfl⟩ := Option.map_eq_some_iff.mp hstep
      have hr := List.mem_of_find?_eq_some hfind
      have hdec := List.find?_some hfind
      have hf : r.fut ≠ .pending := (of_decide_eq_true hdec).2
      exact h.intro (h.wired.resume r mayDrive) (moves_resume h hr hf (hmeets r hfind))
  | setProxyCapacity mode =>
      cases hstep
      exact h.intro (h.wired.requester _ _ _ rfl rfl h.wired.owners) (Moves.of_eq fun sid => rfl)
  | readAck =>
      unfold Link.step at hstep
      dsimp only at hstep
      split at hstep
      · rename_i a rest hch
        cases hstep
        exact h.intro (h.wired.readAck a rest) (moves_readAck h hch (hmeets a (by simp [hch])))
      · cases hstep
  | readFrame now =>
      unfold Link.step at hstep
      dsimp only at hstep
      split at hstep
      · rename_i f rest harb hch
        cases hstep
        obtain ⟨hvictim, htransfers⟩ := h.wired.handleFrame now f
        exact h.intro ((h.wired.takeFrame rest).acks _ hvictim (htransfers ▸ h.wired.takers))
          (moves_handleFrame h hch harb (hmeets f (by simp [hch])) now)
      · cases hstep
  | endArbitration =>
      obtain ⟨⟨sid, victim⟩, harb, rfl⟩ := Option.map_eq_some_iff.mp hstep
      exact h.intro (h.wired.endArbitration sid victim) (moves_endArbitration h harb (hmeets (sid, victim) harb))
  | localTake taker victim =>
      unfold Link.step Link.localTake at hstep
      dsimp only at hstep
      split at hstep
      · rename_i hc
        cases hstep
        exact h.intro (h.wired.localTake hc.2.1 victim) (moves_localTake h hc.2.2.2.1)
      · cases hstep
  | peerTake slot spec =>
      unfold Link.step at hstep
      dsimp only at hstep
      split at hstep
      · cases hstep
      · rename_i hslot
        cases hstep
        exact h.intro (h.wired.peerTake hslot spec) (moves_peerTake h hslot hmeets)
  | transferStep i mayDrive =>
      unfold Link.step at hstep
      dsimp only at hstep
      split at hstep
      · rename_i t ht
        split at hstep
        · cases hstep
        · cases hstep
          exact h.intro (h.wired.transferStep ht mayDrive) (moves_transferStep h ht (hmeets t ht))
      · cases hstep
  | transferNotice i =>
      unfold Link.step at hstep
      dsimp only at hstep
      split at hstep
      · rename_i t ht
        split at hstep
        · rename_i hk
          cases hstep
          exact h.intro (h.wired.acks _ h.wired.victim
            fun u hu => h.wired.takers u (List.mem_of_mem_eraseIdx hu)) (moves_transferNotice h ht (by simp [hk]) (hmeets t ht))
        · cases hstep
      · cases hstep
  | port op =>
      unfold Link.step at hstep
      dsimp only at hstep
      split at hstep
      · cases hstep
      · rename_i hop
        cases hstep
        refine h.intro (h.wired.arbiter _ ?_ ?_) (moves_port (by simpa using hop))
        · cases op <;> exact h.wired.victim
        · cases op <;> exact h.wired.takers

end Link

end OpenMux.Arbitration
