import OpenMux.Heartbeat.Loop

/-!
# A silent peer

What the loop does to a connection that no fault is injected into. The age of a request is compared when its time has just been
written, so it is never overdue.
-/

namespace OpenMux.Heartbeat.Adapter

open Py

variable {a b d : Adapter} {c cid : Text} {now : ℚ} {l : Loop}

/-! ## Other connections -/

/-- The two nodes keep the same of a connection. -/
structure SameAt (cid : Text) (a b : Adapter) : Prop where
  connections : b.connections.get? cid = a.connections.get? cid
  hbState : b.hbState.get? cid = a.hbState.get? cid
  faultState : b.faultState.get? cid = a.faultState.get? cid
  paths : b.paths.get? cid = a.paths.get? cid
  interval : b.heartbeatInterval = a.heartbeatInterval

theorem SameAt.refl (a : Adapter) : SameAt cid a a := ⟨rfl, rfl, rfl, rfl, rfl⟩

theorem SameAt.trans (h : SameAt cid a b) (h' : SameAt cid b d) : SameAt cid a d where
  connections := h'.connections.trans h.connections
  hbState := h'.hbState.trans h.hbState
  faultState := h'.faultState.trans h.faultState
  paths := h'.paths.trans h.paths
  interval := h'.interval.trans h.interval

theorem SameAt.setLoop (h : SameAt cid a b) (l : Loop) : SameAt cid a { b with loop := l } :=
  ⟨h.connections, h.hbState, h.faultState, h.paths, h.interval⟩

theorem SameAt.setHb (h : cid ≠ c) (st : HbState) : SameAt cid a { a with hbState := a.hbState.set c st } :=
  ⟨rfl, Dict.get?_set_ne _ _ h, rfl, rfl, rfl⟩

theorem SameAt.setFaults (h : cid ≠ c) (fs : Faults) : SameAt cid a { a with faultState := a.faultState.set c fs } :=
  ⟨rfl, rfl, Dict.get?_set_ne _ _ h, rfl, rfl⟩

theorem SameAt.close (h : cid ≠ c) (a : Adapter) : SameAt cid a (a.closeConnection c) :=
  ⟨Dict.get?_pop_ne _ h, Dict.get?_pop_ne _ h, rfl, Dict.get?_pop_ne _ h, rfl⟩

theorem SameAt.see (h : cid ≠ c) (a : Adapter) (f : Connection → Connection) (g : PathSeen → PathSeen) :
    SameAt cid a (a.see c f g) := by
  rw [Adapter.see]
  split
  · exact .refl a
  · constructor
    · exact Dict.get?_set_ne _ _ h
    · rfl
    · rfl
    · dsimp only
      split
      · rfl
      · exact Dict.get?_set_ne _ _ h
    · rfl

theorem SameAt.hbFrozenStep (h : cid ≠ c) (a : Adapter) (now : ℚ) : SameAt cid a (a.hbFrozenStep c now) := by
  rw [Adapter.hbFrozenStep]
  dsimp only
  split
  · split
    · exact (SameAt.setHb h _).trans (.close h _)
    · exact .setHb h _
  · exact .setHb h _

theorem SameAt.hbDropStep (h : cid ≠ c) (a : Adapter) (now : ℚ) : SameAt cid a (a.hbDropStep c now) := .setHb h _

theorem SameAt.hbSendStep (h : cid ≠ c) (a : Adapter) (now : ℚ) (rest : List Text) :
    SameAt cid a (a.hbSendStep c now rest) := by
  rw [Adapter.hbSendStep]
  split
  · exact (SameAt.setHb h _).setLoop _
  · exact (SameAt.refl a).setLoop _

theorem SameAt.hbCheckTimeout (h : cid ≠ c) (a : Adapter) (now : ℚ) : SameAt cid a (a.hbCheckTimeout c now) := by
  rw [Adapter.hbCheckTimeout]
  split
  · exact .refl a
  · split
    · dsimp only
      split
      · exact (SameAt.setHb h _).trans (.close h _)
      · exact .setHb h _
    · exact .refl a

theorem SameAt.touch (h : cid ≠ c) (a : Adapter) (now : ℚ) : SameAt cid a (a.touch c now) := .see h a _ _

theorem SameAt.processControlCommand (h : cid ≠ c) (a : Adapter) (now : ℚ) (text : Command) :
    SameAt cid a (a.processControlCommand c now text) := by
  cases text with
  | req =>
      rw [Adapter.processControlCommand]
      split
      · exact .touch h a now
      · exact .refl a
  | ack =>
      rw [Adapter.processControlCommand]
      split
      · exact (SameAt.setHb h _).trans (.touch h _ now)
      · exact .refl a
  | other => exact .refl a

theorem SameAt.receive (h : cid ≠ c) (a : Adapter) (now : ℚ) (frame : Frame) : SameAt cid a (a.receive c now frame) := by
  cases frame with
  | control text | heartbeat text => exact (SameAt.touch h a now).trans (.processControlCommand h _ now text)
  | data | openStream | closeStream =>
      rw [Adapter.receive]
      split
      · exact .touch h a now
      · exact .refl a
  | ack => exact .refl a

theorem SameAt.freezeConnection (h : cid ≠ c) (a : Adapter) : SameAt cid a (a.freezeConnection c) := by
  rw [Adapter.freezeConnection]
  split
  · have hs := (SameAt.setFaults (a := a) h { a.faults c with frozen := true }).trans
      (.see h _ ({ · with lastSeen := 0 }) ({ · with lastSeen := 0 }))
    dsimp only
    split
    · exact hs
    · exact hs.trans (.setHb h _)
  · exact .refl a

theorem SameAt.unfreezeConnection (h : cid ≠ c) (a : Adapter) (now : ℚ) : SameAt cid a (a.unfreezeConnection c now) := by
  rw [Adapter.unfreezeConnection]
  split
  · exact (SameAt.setFaults h _).trans (.see h _ _ _)
  · exact .refl a

theorem SameAt.setDropHeartbeats (h : cid ≠ c) (a : Adapter) (drop : Bool) : SameAt cid a (a.setDropHeartbeats c drop) := by
  rw [Adapter.setDropHeartbeats]
  split
  · exact .setFaults h _
  · exact .refl a

/-- An act on another connection keeps the loop where it is too. -/
theorem SameAt.step {act : Act} (hc : act.cid? = some c) (h : cid ≠ c) (hb : a.step act = some b) : SameAt cid a b := by
  cases act with
  | tick | visit | sent | sendFailed => cases hc
  | receive c frame now =>
      cases hc; cases hb
      exact .receive h a now frame
  | freezeConnection c =>
      cases hc; cases hb
      exact .freezeConnection h a
  | unfreezeConnection c now =>
      cases hc; cases hb
      exact .unfreezeConnection h a now
  | setDropHeartbeats c drop =>
      cases hc; cases hb
      exact .setDropHeartbeats h a drop
  | connect c authenticated now =>
      cases hc; cases hb
      exact ⟨Dict.get?_set_ne _ _ h, rfl, rfl, rfl, rfl⟩
  | authenticate c | shut c =>
      cases hc; cases hb
      exact .see h a _ _
  | registerPath c now =>
      cases hc; cases hb
      exact ⟨rfl, rfl, rfl, Dict.get?_set_ne _ _ h, rfl⟩
  | unregisterPath c =>
      cases hc; cases hb
      exact ⟨rfl, rfl, rfl, Dict.get?_pop_ne _ h, rfl⟩
  | closeConnection c =>
      cases hc; cases hb
      exact .close h a

/-! ## The place of the loop -/

@[simp] theorem loop_see (f : Connection → Connection) (g : PathSeen → PathSeen) : (a.see c f g).loop = a.loop := by
  rw [see]
  split <;> rfl

@[simp] theorem loop_touch : (a.touch c now).loop = a.loop := loop_see _ _

theorem loop_processControlCommand (text : Command) : (a.processControlCommand c now text).loop = a.loop := by
  cases text with
  | req =>
      rw [processControlCommand]
      split
      · exact loop_touch
      · rfl
  | ack =>
      rw [processControlCommand]
      split
      · exact loop_touch
      · rfl
  | other => rfl

/-- Only the loop moves the loop. -/
theorem loop_step {act : Act} (hc : act.cid? = some c) (hb : a.step act = some b) : b.loop = a.loop := by
  cases act with
  | tick | visit | sent | sendFailed => cases hc
  | receive c frame now =>
      cases hb
      cases frame with
      | control text | heartbeat text => exact (loop_processControlCommand text).trans loop_touch
      | data | openStream | closeStream =>
          rw [receive]
          split
          · exact loop_touch
          · rfl
      | ack => rfl
  | freezeConnection c =>
      cases hb
      rw [freezeConnection]
      split
      · dsimp only
        split <;> exact loop_see _ _
      · rfl
  | unfreezeConnection c now =>
      cases hb
      rw [unfreezeConnection]
      split
      · exact loop_see _ _
      · rfl
  | setDropHeartbeats c drop =>
      cases hb
      rw [setDropHeartbeats]
      split <;> rfl
  | authenticate c | shut c =>
      cases hb
      exact loop_see _ _
  | connect | registerPath | unregisterPath | closeConnection =>
      cases hb
      rfl

/-! ## The connection of a silent peer -/

/-- The connection is open and without a fault, and a request that is being written for it carries the time of its pass. -/
structure Quiet (a : Adapter) (cid : Text) : Prop where
  connected : (a.connections.get? cid).any (·.writer = .ready)
  notFrozen : a.frozen cid = false
  notDropping : a.dropHeartbeats cid = false
  fresh : ∀ now rest, a.loop = .sending now cid rest → ∃ st, a.hbState.get? cid = some st ∧ st.lastReqTs = now

/-- The connection and its path were last seen at a time. -/
def SeenAt (a : Adapter) (cid : Text) (now : ℚ) : Prop :=
  (∀ conn, a.connections.get? cid = some conn → conn.lastSeen = now) ∧
    ∀ path, a.paths.get? cid = some path → path.lastSeen = now

/-- What no part of a pass changes. -/
structure Keeps (cid : Text) (a b : Adapter) : Prop where
  interval : b.heartbeatInterval = a.heartbeatInterval
  registered : (b.paths.get? cid).isSome = (a.paths.get? cid).isSome

theorem Keeps.trans (h : Keeps cid a b) (h' : Keeps cid b d) : Keeps cid a d :=
  ⟨h'.interval.trans h.interval, h'.registered.trans h.registered⟩

theorem SameAt.keeps (h : SameAt cid a b) : Keeps cid a b := ⟨h.interval, by rw [h.paths]⟩

theorem Untroubled.quiet (h : a.Untroubled cid) : a.Quiet cid where
  connected := h.connected
  notFrozen := h.notFrozen
  notDropping := h.notDropping
  fresh now rest hs := by
    obtain ⟨wake, hw⟩ := h.asleep
    rw [hw] at hs
    cases hs

theorem SameAt.quiet (hs : SameAt cid a b) (h : a.Quiet cid)
    (hf : ∀ now rest, b.loop = .sending now cid rest → ∃ st, b.hbState.get? cid = some st ∧ st.lastReqTs = now) :
    b.Quiet cid where
  connected := by rw [hs.connections]; exact h.connected
  notFrozen := by rw [frozen, hs.faultState]; exact h.notFrozen
  notDropping := by rw [dropHeartbeats, hs.faultState]; exact h.notDropping
  fresh := hf

theorem SameAt.seenAt (hs : SameAt cid a b) (h : a.SeenAt cid now) : b.SeenAt cid now := by
  rw [SeenAt, hs.connections, hs.paths]
  exact h

theorem Quiet.get? (h : a.Quiet cid) : ∃ conn, a.connections.get? cid = some conn ∧ conn.writer = .ready := by
  have hc := h.connected
  cases hg : a.connections.get? cid with
  | none =>
      rw [hg] at hc
      cases hc
  | some conn => exact ⟨conn, rfl, by simpa [hg] using hc⟩

/-- A request is not overdue at the time that it carries. -/
theorem overdue_self (a : Adapter) (st : HbState) : a.overdue st.lastReqTs st = false := by
  have hp := a.interval_pos
  rw [overdue, sub_self, decide_eq_false_iff_not, not_lt]
  positivity

/-- The check finds nothing in the pass that wrote the request. -/
theorem hbCheckTimeout_fresh {st : HbState} (hs : a.hbState.get? cid = some st) (hn : st.lastReqTs = now) :
    a.hbCheckTimeout cid now = a := by
  subst hn
  simp [hbCheckTimeout, hs, overdue_self]

/-- The loop writes a request for the connection when it comes to it. -/
theorem Quiet.hbSendStep (h : a.Quiet cid) (now : ℚ) (rest : List Text) : (a.hbSendStep cid now rest).Quiet cid ∧
    (a.hbSendStep cid now rest).loop = .sending now cid rest := by
  rw [Adapter.hbSendStep, if_pos h.connected]
  refine ⟨⟨h.connected, h.notFrozen, h.notDropping, ?_⟩, rfl⟩
  rintro now' rest' hl
  cases hl
  exact ⟨_, Dict.get?_set_self _ _ _, rfl⟩

/-- A request that is written marks the connection as seen. -/
theorem Quiet.hbBumpLastSeen (h : a.Quiet cid) (now : ℚ) : (a.hbBumpLastSeen cid now).SeenAt cid now := by
  obtain ⟨conn, hg, -⟩ := h.get?
  simp only [Adapter.hbBumpLastSeen, see, hg]
  constructor
  · intro conn' hc
    rw [Dict.get?_set_self] at hc
    cases hc
    rfl
  · intro path hp
    dsimp only at hp
    split at hp
    · rename_i hn
      rw [hn] at hp
      cases hp
    · rw [Dict.get?_set_self] at hp
      cases hp
      rfl

theorem Quiet.bump (h : a.Quiet cid) (hl : ∀ now' rest, l ≠ .sending now' cid rest) :
    ({ a.hbBumpLastSeen cid now with loop := l } : Adapter).Quiet cid := by
  obtain ⟨conn, hg, hw⟩ := h.get?
  refine ⟨?_, ?_, ?_, fun now' rest hs => absurd hs (hl now' rest)⟩
  · simp [Adapter.hbBumpLastSeen, see, hg, hw]
  · simpa only [Adapter.hbBumpLastSeen, see, hg, frozen] using h.notFrozen
  · simpa only [Adapter.hbBumpLastSeen, see, hg, dropHeartbeats] using h.notDropping

theorem Keeps.bump (h : a.Quiet cid) : Keeps cid a { a.hbBumpLastSeen cid now with loop := l } := by
  obtain ⟨conn, hg, -⟩ := h.get?
  refine ⟨by simp only [Adapter.hbBumpLastSeen, see, hg], ?_⟩
  simp only [Adapter.hbBumpLastSeen, see, hg]
  split
  · rfl
  · simp [*]

/-- The loop takes the next connection of its pass, and writes a request if it is the silent one. -/
theorem Quiet.visit {rest : List Text} (h : a.Quiet cid) (hl : a.loop = .visiting now (c :: rest)) :
    ∃ b, a.visit = some b ∧ b.Quiet cid ∧ Keeps cid a b ∧
      (a.SeenAt cid now → b.SeenAt cid now) ∧
      (b.loop = .visiting now rest ∧ c ≠ cid ∨ b.loop = .sending now c rest) := by
  by_cases hc : cid = c
  · subst hc
    obtain ⟨hq, hs⟩ := h.hbSendStep now rest
    refine ⟨a.hbSendStep cid now rest, ?_, hq, ?_, ?_, .inr hs⟩
    · simp [Adapter.visit, hl, h.notFrozen, h.notDropping]
    · rw [Adapter.hbSendStep]
      split <;> exact ⟨rfl, rfl⟩
    · rw [Adapter.hbSendStep]
      split <;> exact id
  · have hskip : ∀ d, SameAt cid a d → ∃ b, some ({ d with loop := .visiting now rest } : Adapter) = some b ∧ b.Quiet cid ∧
        Keeps cid a b ∧ (a.SeenAt cid now → b.SeenAt cid now) ∧
        (b.loop = .visiting now rest ∧ c ≠ cid ∨ b.loop = .sending now c rest) := by
      intro d hd
      have hd' := hd.setLoop (.visiting now rest)
      refine ⟨_, rfl, hd'.quiet h ?_, hd'.keeps, hd'.seenAt, .inl ⟨rfl, Ne.symm hc⟩⟩
      intro now' rest' hs
      cases hs
    by_cases hf : a.frozen c
    · simpa [Adapter.visit, hl, hf] using hskip _ (.hbFrozenStep hc a now)
    · by_cases hd : a.dropHeartbeats c
      · simpa [Adapter.visit, hl, hf, hd] using hskip _ (.hbDropStep hc a now)
      · simp only [Adapter.visit, hl, hf, hd, Bool.false_eq_true, if_false]
        have hs := SameAt.hbSendStep hc a now rest
        by_cases hw : (a.connections.get? c).any (·.writer = .ready)
        · refine ⟨_, rfl, hs.quiet h ?_, hs.keeps, hs.seenAt, .inr ?_⟩
          · intro now' rest' hl'
            rw [Adapter.hbSendStep, if_pos hw] at hl'
            cases hl'
            exact absurd rfl hc
          · rw [Adapter.hbSendStep, if_pos hw]
        · have he : a.hbSendStep c now rest = { a with loop := .visiting now rest } := by
            rw [Adapter.hbSendStep, if_neg hw]
          rw [he]
          exact hskip a (.refl a)

/-- A pass goes on when its request is written or cannot be; a written one marks the connection as seen. -/
theorem Quiet.sent {rest : List Text} (h : a.Quiet cid) (hl : a.loop = .sending now c rest) (written : Bool) :
    ∃ b, a.sent written = some b ∧ b.Quiet cid ∧ Keeps cid a b ∧
      (a.SeenAt cid now ∨ written = true ∧ c = cid → b.SeenAt cid now) ∧ b.loop = .visiting now rest := by
  cases written with
  | false =>
      refine ⟨{ a with loop := .visiting now rest }, ?_, ⟨h.connected, h.notFrozen, h.notDropping, ?_⟩, ⟨rfl, rfl⟩, ?_, rfl⟩
      · simp [Adapter.sent, hl]
      · intro now' rest' hs
        cases hs
      · rintro (hs | ⟨hw, -⟩)
        · exact hs
        · cases hw
  | true =>
      refine ⟨{ (a.hbCheckTimeout c now).hbBumpLastSeen c now with loop := .visiting now rest }, ?_, ?_⟩
      · simp [Adapter.sent, hl]
      · by_cases hc : cid = c
        · subst hc
          obtain ⟨st, hst, hn⟩ := h.fresh now rest hl
          rw [hbCheckTimeout_fresh hst hn]
          refine ⟨h.bump ?_, ?_, fun _ => h.hbBumpLastSeen now, rfl⟩
          · intro now' rest' hs
            cases hs
          · exact .bump h
        · have hs := ((SameAt.hbCheckTimeout hc a now).trans (.see hc _ ({ · with lastSeen := now })
            ({ · with lastSeen := now }))).setLoop (.visiting now rest)
          refine ⟨hs.quiet h ?_, hs.keeps, ?_, rfl⟩
          · intro now' rest' hs'
            cases hs'
          · rintro (hs' | ⟨-, he⟩)
            · exact hs.seenAt hs'
            · exact absurd he.symm hc

/-- What leaves the connection alone keeps it quiet. -/
theorem Quiet.step {act : Act} (h : a.Quiet cid) (hc : act.cid? ≠ some cid) (hb : a.step act = some b) : b.Quiet cid := by
  cases hact : act.cid? with
  | some c =>
      rw [hact] at hc
      have hne : cid ≠ c := fun he => hc (congrArg some he.symm)
      have hs := SameAt.step hact hne hb
      refine hs.quiet h fun now rest hl => ?_
      rw [loop_step hact hb] at hl
      rw [hs.hbState]
      exact h.fresh now rest hl
  | none =>
      cases act with
      | tick now =>
          simp only [Adapter.step, tick] at hb
          split at hb
          · split at hb
            · split at hb <;>
              · cases hb
                exact ⟨h.connected, h.notFrozen, h.notDropping, nofun⟩
            · cases hb
          · cases hb
      | visit =>
          cases hl : a.loop with
          | asleep | sending => simp [Adapter.step, Adapter.visit, hl] at hb
          | visiting now todo =>
              cases todo with
              | nil =>
                  simp only [Adapter.step, Adapter.visit, hl] at hb
                  cases hb
                  exact ⟨h.connected, h.notFrozen, h.notDropping, nofun⟩
              | cons c rest =>
                  obtain ⟨b', hb', hq, -⟩ := h.visit hl
                  cases hb'.symm.trans hb
                  exact hq
      | sent | sendFailed =>
          cases hl : a.loop with
          | asleep | visiting => simp [Adapter.step, Adapter.sent, hl] at hb
          | sending now c rest =>
              obtain ⟨b', hb', hq, -⟩ := h.sent hl _
              cases hb'.symm.trans hb
              exact hq
      | _ => cases hact

/-- A silent run closes no connection that was quiet. -/
theorem Quiet.run {as : List Act} (h : a.Quiet cid) (hr : a.SilentRun cid as b) : b.Quiet cid :=
  Transition.exec_invariant (I := fun a => a.Quiet cid) (C := fun _ act => act.cid? ≠ some cid)
    (fun _ _ _ hq hc hs => hq.step hc hs) h (.of_forall fun act hm _ => hr.2 act hm) hr.1

/-! ## Passes -/

/-- A pass runs to its end and sees every connection that it has left. -/
theorem Quiet.pass {rest : List Text} (h : a.Quiet cid) (hl : a.loop = .visiting now rest) :
    ∃ as b, a.SilentRun cid as b ∧ as.countP Act.isTick = 0 ∧ b.Quiet cid ∧
      b.loop = .asleep (now + a.heartbeatInterval) ∧ Keeps cid a b ∧
      (cid ∈ rest ∨ a.SeenAt cid now → b.SeenAt cid now) := by
  induction rest generalizing a with
  | nil =>
      refine ⟨[.visit], { a with loop := .asleep (now + a.heartbeatInterval) }, ⟨?_, by simp [Act.cid?]⟩, rfl,
        ⟨h.connected, h.notFrozen, h.notDropping, nofun⟩, rfl, ⟨rfl, rfl⟩, ?_⟩
      · simp [Transition.exec, Adapter.step, Adapter.visit, hl]
      · rintro (hm | hs)
        · cases hm
        · exact hs
  | cons c rest ih =>
      obtain ⟨b, hb, hq, hi, hseen, hloop⟩ := h.visit hl
      obtain ⟨hlb, hne⟩ | hlb := hloop
      · obtain ⟨as, d, hr, hn, hqd, hld, hid, hsd⟩ := ih hq hlb
        refine ⟨.visit :: as, d, ⟨?_, ?_⟩, by simpa [Act.isTick] using hn, hqd, by rw [hld, hi.interval], hi.trans hid, ?_⟩
        · exact (Transition.exec_cons hb).trans hr.1
        · simpa [Act.cid?] using hr.2
        · rintro (hm | hs)
          · obtain rfl | hm := List.mem_cons.mp hm
            · exact absurd rfl hne
            · exact hsd (.inl hm)
          · exact hsd (.inr (hseen hs))
      · obtain ⟨b', hb', hq', hi', hseen', hlb'⟩ := hq.sent hlb true
        have hs' : b.step .sent = some b' := hb'
        obtain ⟨as, d, hr, hn, hqd, hld, hid, hsd⟩ := ih hq' hlb'
        refine ⟨.visit :: .sent :: as, d, ⟨?_, ?_⟩, by simpa [Act.isTick] using hn, hqd, by rw [hld, hi'.interval, hi.interval],
          hi.trans (hi'.trans hid), ?_⟩
        · exact (Transition.exec_cons hb).trans ((Transition.exec_cons hs').trans hr.1)
        · simpa [Act.cid?] using hr.2
        · rintro (hm | hs)
          · obtain rfl | hm := List.mem_cons.mp hm
            · exact hsd (.inr (hseen' (.inr ⟨rfl, rfl⟩)))
            · exact hsd (.inl hm)
          · exact hsd (.inr (hseen' (.inl (hseen hs))))

/-- A tick that is due is followed by a whole pass, which sees the connection. -/
theorem Quiet.wholeTick {wake : ℚ} (h : a.Quiet cid) (hl : a.loop = .asleep wake) (hd : wake ≤ now) :
    ∃ as b, a.SilentRun cid as b ∧ as.countP Act.isTick = 1 ∧ b.Quiet cid ∧
      b.loop = .asleep (now + a.heartbeatInterval) ∧ Keeps cid a b ∧ b.SeenAt cid now := by
  obtain ⟨conn, hg, -⟩ := h.get?
  have hm : cid ∈ a.connections.keys := Dict.mem_keys.mpr ⟨conn, hg⟩
  have ht : a.step (.tick now) = some { a with loop := .visiting now a.connections.keys } := by
    simp [Adapter.step, tick, hl, hd, List.ne_nil_of_mem hm]
  obtain ⟨as, b, hr, hn, hq, hlb, hi, hs⟩ := Quiet.pass (a := { a with loop := .visiting now a.connections.keys })
    ⟨h.connected, h.notFrozen, h.notDropping, nofun⟩ rfl
  refine ⟨.tick now :: as, b, ⟨(Transition.exec_cons ht).trans hr.1, ?_⟩, ?_, hq, hlb,
    ⟨hi.interval, hi.registered⟩, hs (.inl hm)⟩
  · simpa [Act.cid?] using hr.2
  · rw [List.countP_cons_of_pos rfl, hn]

/-- The loop can go on for any number of ticks. -/
theorem Quiet.ticks {wake : ℚ} (h : a.Quiet cid) (hl : a.loop = .asleep wake) (n : Nat) :
    ∃ as b, a.SilentRun cid as b ∧ as.countP Act.isTick = n ∧ b.Quiet cid ∧
      b.loop = .asleep (wake + n * a.heartbeatInterval) := by
  induction n generalizing a wake with
  | zero => exact ⟨[], a, ⟨rfl, nofun⟩, rfl, h, by simpa using hl⟩
  | succ n ih =>
      obtain ⟨as, b, hr, hn, hq, hlb, hi, -⟩ := h.wholeTick hl le_rfl
      obtain ⟨as', d, hr', hn', hqd, hld⟩ := ih hq hlb
      refine ⟨as ++ as', d, ⟨Transition.exec_append hr.1 hr'.1, ?_⟩, ?_, hqd, ?_⟩
      · intro act hm
        exact (List.mem_append.mp hm).elim (hr.2 act) (hr'.2 act)
      · rw [List.countP_append, hn, hn', Nat.add_comm]
      · rw [hld, hi.interval]
        push_cast
        ring_nf

end OpenMux.Heartbeat.Adapter
