import OpenMux.Command.Idle

/-!
# Idle timers
-/

namespace OpenMux.Command.Lifecycle

variable {idle : Bool} {s t : Lifecycle} {a : LifecycleAct}

/-- The question of the timer does not come up. -/
def Off (s : Lifecycle) : Prop := ¬ s.Quiet ∨ ¬ s.Running ∨ s.attached ≠ 0

/-- A state in which the timer is not asked for, with the right count and the right events. -/
theorem follows_of_off (hcount : t.clientCount = t.attached) (hevents : ∀ e ∈ t.events, e.Right) (hoff : t.Off) : t.Follows idle where
  count := hcount
  timer _ hquiet hrun hzero := by
    rcases hoff with h | h | h
    · exact absurd hquiet h
    · exact absurd hrun h
    · exact absurd hzero h
  events := hevents

theorem right_append {e : LifecycleEvent} (hs : s.Follows idle) (he : e.Right) : ∀ e' ∈ s.events ++ [e], e'.Right := by
  intro e' he'
  rcases List.mem_append.mp he' with h | h
  · exact hs.events e' h
  · rw [List.mem_singleton.mp h]
    exact he

/-- The end of a timer that does not sleep. -/
theorem awaits_endTimer {timer : IdleTimer} (h : timer.phase ≠ .sleeping) : (s.endTimer timer).Awaits ↔ s.Awaits := by
  constructor
  · rintro ⟨x, hx, hphase⟩
    exact ⟨x, List.mem_of_mem_erase hx, hphase⟩
  · rintro ⟨x, hx, hphase⟩
    have hne : x ≠ timer := by
      rintro rfl
      exact h hphase
    exact ⟨x, (List.mem_erase_of_ne hne).mpr hx, hphase⟩

/-- What `stop` does before its first wait leaves the clients as they are. -/
theorem clients_beginStop (s : Lifecycle) (timer : Option ℕ) :
    (s.beginStop timer).clientCount = s.clientCount ∧ (s.beginStop timer).attached = s.attached ∧
      (s.beginStop timer).events = s.events ∧ ¬ (s.beginStop timer).Quiet := by
  unfold beginStop Quiet
  split <;> simp [cancelIdleStop]

/-- The last client leaves: a timer is to come exactly if one was, or no task is in its way. -/
theorem awaits_scheduleIdleStop (hidle : idle = true) :
    (s.scheduleIdleStop idle).Awaits ↔ (s.idleStopTask.any s.pending = true → s.Awaits) := by
  unfold scheduleIdleStop
  split
  · rename_i hfree
    have hnew : Awaits { s with
        idleStopTask := some s.nextTimer
        timers := s.timers ++ [⟨s.nextTimer, .sleeping⟩]
        nextTimer := s.nextTimer + 1 } := ⟨⟨s.nextTimer, .sleeping⟩, by simp, rfl⟩
    exact ⟨fun _ h => absurd h hfree.2, fun _ => hnew⟩
  · rename_i hbusy
    have hpending : s.idleStopTask.any s.pending = true := by
      by_contra h
      exact hbusy ⟨hidle, h⟩
    exact ⟨fun h _ => h, fun h => h hpending⟩

/-- A timer that is scheduled changes only the timers. -/
theorem scheduleIdleStop_keeps (idle : Bool) (s : Lifecycle) :
    (s.scheduleIdleStop idle).attached = s.attached ∧ (s.scheduleIdleStop idle).clientCount = s.clientCount ∧
      (s.scheduleIdleStop idle).events = s.events ∧ ((s.scheduleIdleStop idle).Quiet ↔ s.Quiet) ∧
      ((s.scheduleIdleStop idle).Running ↔ s.Running) := by
  unfold scheduleIdleStop Quiet Running
  split <;> simp

theorem follows_clients (hs : s.Follows idle) (count : ℕ) :
    (s.onClientCountChanged idle count).Follows idle ↔ s.Clean idle (.clients count) := by
  unfold onClientCountChanged
  simp only
  split
  · rename_i h
    refine iff_of_true (follows_of_off rfl hs.events (.inr (.inr ?_))) fun _ hzero => ?_
    · exact Nat.pos_iff_ne_zero.mp h.2
    · exact absurd hzero (Nat.pos_iff_ne_zero.mp h.2)
  · split
    · rename_i h
      obtain ⟨hpos, rfl⟩ := h
      obtain ⟨hattached, hcount, hevents, hquiet, hrun⟩ := scheduleIdleStop_keeps idle { s with attached := 0, clientCount := 0 }
      constructor
      · intro ht hidle _ _ hq hr hpending
        have hschedule := awaits_scheduleIdleStop (s := { s with attached := 0, clientCount := 0 }) hidle
        exact hschedule.mp (ht.timer hidle (hquiet.mpr hq) (hrun.mpr hr) hattached) hpending
      · intro hclean
        refine ⟨hcount.trans hattached.symm, fun hidle hq hr _ => ?_, by rw [hevents]; exact hs.events⟩
        have hschedule := awaits_scheduleIdleStop (s := { s with attached := 0, clientCount := 0 }) hidle
        exact hschedule.mpr (hclean hidle rfl hpos (hquiet.mp hq) (hrun.mp hr))
    · rename_i hfirst hlast
      have hclean : s.Clean idle (.clients count) := fun _ hzero hpos => absurd ⟨hpos, hzero⟩ hlast
      refine iff_of_true ⟨rfl, fun hidle hquiet hrun hzero => ?_, hs.events⟩ hclean
      have hold : s.clientCount = 0 := by
        have hzero : count = 0 := hzero
        omega
      exact hs.timer hidle hquiet hrun (hs.count ▸ hold)

/-- A step keeps the port with its clients exactly if it is clean. -/
theorem follows_step (hs : s.Follows idle) (h : s.step idle a = some t) : t.Follows idle ↔ s.Clean idle a := by
  cases a with
  | clients count =>
      cases h
      exact follows_clients hs count
  | spawn =>
      simp only [step] at h
      split at h
      · cases h
      · cases h
        have hbusy : ¬ Quiet { s with spawns := s.spawns + 1 } := fun hq => Nat.succ_ne_zero _ hq.1
        exact iff_of_true (follows_of_off hs.count hs.events (.inl hbusy)) trivial
  | spawned ok =>
      simp only [step] at h
      split at h
      · cases h
      · rename_i hspawns
        split at h
        · rename_i hok
          cases h
          constructor
          · intro ht hidle hone hstops _ hzero
            exact ht.timer hidle ⟨by simp [hone], hstops⟩ ⟨rfl, rfl⟩ hzero
          · intro hclean
            refine ⟨hs.count, fun hidle hquiet _ hzero => ?_, hs.events⟩
            have hleft : s.spawns - 1 = 0 := hquiet.1
            exact hclean hidle (by omega) hquiet.2 (.inl hok) hzero
        · rename_i hok
          cases h
          constructor
          · intro ht hidle hone hstops hrun hzero
            exact ht.timer hidle ⟨by simp [hone], hstops⟩ (hrun.resolve_left hok) hzero
          · intro hclean
            refine ⟨hs.count, fun hidle hquiet hrun hzero => ?_, hs.events⟩
            have hleft : s.spawns - 1 = 0 := hquiet.1
            exact hclean hidle (by omega) hquiet.2 (.inr hrun) hzero
  | watch =>
      simp only [step] at h
      split at h
      · cases h
      · split at h
        · cases h
          exact iff_of_true ⟨hs.count, hs.timer, hs.events⟩ trivial
        · cases h
          exact iff_of_true (follows_of_off hs.count hs.events (.inr (.inl (by simp [Running])))) trivial
  | hangup =>
      simp only [step] at h
      split at h
      · cases h
        exact iff_of_true (follows_of_off hs.count hs.events (.inr (.inl (by simp [Running])))) trivial
      · cases h
  | exited =>
      simp only [step] at h
      split at h
      · cases h
        exact iff_of_true (follows_of_off hs.count hs.events (.inr (.inl (by simp [Running])))) trivial
      · cases h
  | reported =>
      simp only [step] at h
      split at h
      · cases h
        constructor
        · intro ht hstopped
          have hright := ht.events _ (List.mem_append_right _ (List.mem_singleton_self _))
          simp only [LifecycleEvent.Right, hstopped, Bool.false_and, Bool.false_eq_true, imp_false] at hright
          omega
        · intro hclean
          refine follows_of_off hs.count (right_append hs fun hpos => ?_) (.inr (.inl (by simp [Running])))
          have hrun : s.isRunning = true := by
            by_contra hstopped
            rw [hclean (by simpa using hstopped)] at hpos
            omega
          simpa [hrun, hs.count] using hpos
      · cases h
  | stop =>
      simp only [step] at h
      split at h
      · cases h
        obtain ⟨hcount, hattached, hevents, hbusy⟩ := clients_beginStop s none
        refine iff_of_true (follows_of_off ?_ ?_ (.inl hbusy)) trivial
        · rw [hcount, hattached, hs.count]
        · rw [hevents]
          exact hs.events
      · cases h
  | stopped timer =>
      simp only [step] at h
      split at h
      · cases h
        have hreset : ∀ timers task stops, ({ s.resetStopState with timers := timers, idleStopTask := task, stops := stops } :
            Lifecycle).Follows idle ↔ s.attached = 0 := by
          intro timers task stops
          constructor
          · exact fun ht => ht.count.symm
          · intro hzero
            exact follows_of_off hzero.symm (right_append hs fun hpos => absurd hzero hpos.ne') (.inr (.inl (by simp [Running, resetStopState])))
        cases timer with
        | none => exact hreset _ _ _
        | some i => exact hreset _ _ _
      · cases h
  | fire i =>
      simp only [step] at h
      split at h
      · split at h
        · rename_i hstop
          cases h
          have hzero : s.attached = 0 := hs.count ▸ hstop.1
          obtain ⟨hcount, hattached, hevents, hbusy⟩ := clients_beginStop { s with
            timers := s.timers.map fun t => if t.id = i then { t with phase := .stopping } else t
            events := s.events ++ [.idleStop s.attached] } (some i)
          refine iff_of_true (follows_of_off ?_ ?_ (.inl hbusy)) trivial
          · rw [hcount, hattached]
            exact hs.count
          · rw [hevents]
            exact right_append hs hzero
        · rename_i hkeep
          cases h
          refine iff_of_true (follows_of_off hs.count hs.events ?_) trivial
          by_cases hzero : s.clientCount = 0
          · exact .inr (.inl fun hrun => hkeep ⟨hzero, hrun.1⟩)
          · exact .inr (.inr fun h => hzero (hs.count.trans h))
      · cases h
  | unwind i =>
      simp only [step] at h
      split at h
      · cases h
        refine iff_of_true ⟨hs.count, fun hidle hquiet hrun hzero => ?_, hs.events⟩ trivial
        exact (awaits_endTimer (by simp)).mpr (hs.timer hidle hquiet hrun hzero)
      · cases h

end OpenMux.Command.Lifecycle
