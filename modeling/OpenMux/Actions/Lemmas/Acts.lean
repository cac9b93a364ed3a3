import OpenMux.Actions.Lemmas.Rely

/-!
# What single acts and operations preserve

The acts of a task keep the invariant and what the other tasks rely on; the operations keep what all tasks rely on.
-/

namespace OpenMux.Actions.Runner

open Py Origin Access

variable {i j : Text} {s t : Runner} {l : Launch} {run : ActionRun} {f : ActionRun → ActionRun}

/-! ## Updates of a run -/

theorem get?_updateRun : (s.updateRun i f).runs.get? j = if j = i then (s.runs.get? i).map f else s.runs.get? j := by
  unfold updateRun
  cases h : s.runs.get? i with
  | none =>
      by_cases hj : j = i
      · subst hj; simp [h]
      · simp [hj]
  | some run =>
      by_cases hj : j = i
      · subst hj; simp
      · simp [hj, Dict.get?_set_ne]

theorem get?_updateRun_self (h : s.runs.get? i = some run) : (s.updateRun i f).runs.get? i = some (f run) := by
  simp [get?_updateRun, h]

theorem get?_updateRun_ne (h : j ≠ i) : (s.updateRun i f).runs.get? j = s.runs.get? j := by simp [get?_updateRun, h]

@[simp] theorem updateRun_console : (s.updateRun i f).console = s.console := rfl
@[simp] theorem updateRun_links : (s.updateRun i f).links = s.links := rfl
@[simp] theorem updateRun_activeByPort : (s.updateRun i f).activeByPort = s.activeByPort := rfl
@[simp] theorem updateRun_openFinishedByPort : (s.updateRun i f).openFinishedByPort = s.openFinishedByPort := rfl
@[simp] theorem updateRun_sessions : (s.updateRun i f).sessions = s.sessions := rfl
@[simp] theorem updateRun_cancelling : (s.updateRun i f).cancelling = s.cancelling := rfl
@[simp] theorem updateRun_calls : (s.updateRun i f).calls = s.calls := rfl

theorem known_updateRun : Known j (s.updateRun i f) ↔ Known j s := by
  unfold Known
  rw [get?_updateRun]
  split
  · subst j; simp
  · exact Iff.rfl

theorem inScript_updateRun_ne (h : j ≠ i) : (s.updateRun i f).inScript j = s.inScript j := by
  unfold inScript
  rw [get?_updateRun_ne h]
  rfl

theorem inScript_updateRun_self (hf : ∀ run, s.runs.get? i = some run → (f run).status = run.status) :
    (s.updateRun i f).inScript i = s.inScript i := by
  unfold inScript
  rw [get?_updateRun, if_pos rfl]
  cases h : s.runs.get? i with
  | none => rfl
  | some run => simp only [Option.map_some, Option.any_some, hf run h]; rfl

/-- An update that neither closes a run nor tells its end nor starts it again. -/
def Mild (f : ActionRun → ActionRun) (run : ActionRun) : Prop :=
  (f run).launch = run.launch ∧ (f run).closed = run.closed ∧ ((f run).Finished ↔ run.Finished) ∧
    ((f run).status = .running → run.status = .running)

theorem Inv.updateRun (hI : s.Inv) (hf : ∀ run, s.runs.get? i = some run → Mild f run)
    (hst : i ∈ s.cancelling → ∀ run, s.runs.get? i = some run → (f run).status = run.status) : (s.updateRun i f).Inv := by
  have hget : ∀ j run', (s.updateRun i f).runs.get? j = some run' → ∃ run, s.runs.get? j = some run ∧
      run'.launch = run.launch ∧ run'.closed = run.closed ∧ (run'.Finished ↔ run.Finished) ∧
      (run'.status = .running → run.status = .running) := by
    intro j run' h
    by_cases hj : j = i
    · subst hj
      rw [get?_updateRun, if_pos rfl] at h
      obtain ⟨run, hrun, rfl⟩ := Option.map_eq_some_iff.mp h
      exact ⟨run, hrun, hf run hrun⟩
    · rw [get?_updateRun_ne hj] at h
      exact ⟨run', h, rfl, rfl, Iff.rfl, id⟩
  have hset : ∀ j run, s.runs.get? j = some run → ∃ run', (s.updateRun i f).runs.get? j = some run' ∧
      run'.launch = run.launch ∧ run'.closed = run.closed ∧ (run'.Finished ↔ run.Finished) := by
    intro j run h
    by_cases hj : j = i
    · subst hj
      have hmild := hf run h
      exact ⟨f run, get?_updateRun_self h, hmild.1, hmild.2.1, hmild.2.2.1⟩
    · exact ⟨run, by rw [get?_updateRun_ne hj, h], rfl, rfl, Iff.rfl⟩
  refine ⟨fun j run' h hfin => ?_, fun name j h => ?_, fun name j h => ?_, fun j hj => ?_, fun j hj name => ?_,
    fun j run' h hfin => ?_, fun j hj => known_updateRun.mpr (hI.seated j hj),
    fun r hr => known_updateRun.mpr (hI.logged r hr)⟩
  · obtain ⟨run, hrun, hlaunch, hclosed, hfinished, -⟩ := hget j run' h
    rw [hlaunch, hclosed]
    exact hI.unfinished j run hrun (mt hfinished.mpr hfin)
  · obtain ⟨run, hrun, hname⟩ := hI.active name j h
    obtain ⟨run', hrun', hlaunch, -⟩ := hset j run hrun
    exact ⟨run', hrun', hlaunch ▸ hname⟩
  · obtain ⟨run, hrun, hname, hclosed, hfinished⟩ := hI.openFinished name j h
    obtain ⟨run', hrun', hlaunch, hclosed', hfinished'⟩ := hset j run hrun
    exact ⟨run', hrun', hlaunch ▸ hname, hclosed'.trans hclosed, hfinished'.mpr hfinished⟩
  · by_cases hji : j = i
    · subst hji
      rw [inScript_updateRun_self (hst hj)]
      exact hI.cancelling j hj
    · rw [inScript_updateRun_ne hji]
      exact hI.cancelling j hj
  · refine hI.fresh j ?_ name
    have hk := (known_updateRun (s := s) (i := i) (f := f) (j := j)).not
    simpa [Known] using hk.mp (by simp [Known, hj])
  · obtain ⟨run, hrun, -, -, hfinished, hstatus⟩ := hget j run' h
    exact mt hstatus (hI.outcome j run hrun (hfinished.mp hfin))

theorem Rely.updateRun_ne (h : j ≠ i) : Rely j s (s.updateRun i f) where
  known hs := by rw [get?_updateRun_ne h, hs]
  run run hrun := ⟨run, by rw [get?_updateRun_ne h, hrun], .refl⟩
  session := Iff.rfl
  records _ := le_rfl
  active _ := id
  calls := ⟨[], by simp⟩

theorem Rely.updateRun (h : ∀ run, s.runs.get? i = some run → Extends (s.inScript i = true) run (f run)) :
    Rely j s (s.updateRun i f) := by
  by_cases hj : j = i
  · subst hj
    refine ⟨fun hs => ?_, fun run hrun => ⟨f run, get?_updateRun_self hrun, h run hrun⟩, Iff.rfl, fun _ => le_rfl, fun _ => id,
      ⟨[], by simp⟩⟩
    simp [get?_updateRun, hs]
  · exact .updateRun_ne hj

/-! ## Acts of a task -/

/-- What an act of the task of a run must keep. -/
def Step (i : Text) (s t : Runner) : Prop := t.Inv ∧ Async.Pool.Guarantee Known Rely i s t

/-- A call of a run. -/
theorem step_perform (hI : s.Inv) (hk : Known i s) (c : Call) : Step i s (s.perform i l c).1 := by
  refine ⟨⟨hI.unfinished, hI.active, hI.openFinished, hI.cancelling, fun j hj name => ?_, hI.outcome, hI.seated,
    fun r hr => ?_⟩, Iff.rfl, fun j hj => ?_⟩
  · have hji : i ≠ j := by
      rintro rfl
      simp [Known, show s.runs.get? i = none from hj] at hk
    exact Nat.le_zero.mp ((records_apply_le fun h => hji h.1).trans (hI.fresh j hj name).le)
  · rcases List.mem_append.mp hr with hr | hr
    · exact hI.logged r hr
    · rw [List.mem_singleton.mp hr]
      exact hk
  · refine ⟨id, fun run hrun => ⟨run, hrun, .refl⟩, Iff.rfl, fun name => ?_, fun _ => id,
      [⟨i, c, s.console⟩], rfl, fun r hr => ?_⟩
    · exact records_apply_le fun h => hj h.1.symm
    · rw [List.mem_singleton.mp hr]
      exact hj.symm

theorem step_updateRun (hI : s.Inv) (hf : ∀ run, s.runs.get? i = some run → Mild f run)
    (hst : i ∈ s.cancelling → ∀ run, s.runs.get? i = some run → (f run).status = run.status) : Step i s (s.updateRun i f) :=
  ⟨hI.updateRun hf hst, known_updateRun.symm, fun _ hj => .updateRun_ne hj⟩

theorem step_openSession (hI : s.Inv) (hk : Known i s) : Step i s { s with sessions := i :: s.sessions } := by
  refine ⟨⟨hI.unfinished, hI.active, hI.openFinished, fun j hj => ?_, hI.fresh, hI.outcome, fun j hj => ?_, hI.logged⟩,
    Iff.rfl, fun j hj => ?_⟩
  · obtain ⟨hmem, hrun⟩ := inScript_iff.mp (hI.cancelling j hj)
    exact inScript_iff.mpr ⟨List.mem_cons_of_mem _ hmem, hrun⟩
  · rcases List.mem_cons.mp hj with rfl | hj
    · exact hk
    · exact hI.seated j hj
  · exact ⟨id, fun run hrun => ⟨run, hrun, .refl⟩, by simp [hj], fun _ => le_rfl, fun _ => id, [], by simp⟩

/-- The run after it has told its end. -/
theorem get?_release (h : s.runs.get? i = some run) : (s.release i l).runs.get? i =
    some { run with events := run.events ++ [.actionFinished run.status run.error] } :=
  get?_updateRun_self h

theorem get?_release_ne (h : j ≠ i) : (s.release i l).runs.get? j = s.runs.get? j := get?_updateRun_ne h

theorem step_release (hI : s.Inv) (hrun : s.runs.get? i = some run) (hfin : ¬ run.Finished) (hst : run.status ≠ .running) :
    Step i s (s.release i run.launch) := by
  obtain ⟨hlock, hclosed⟩ := hI.unfinished i run hrun hfin
  have hself := get?_release (l := run.launch) hrun
  refine ⟨⟨fun j run' h hfin' => ?_, fun name j h => ?_, fun name j h => ?_, fun j hj => ?_, fun j hj name => ?_,
    fun j run' h hfin' => ?_, fun j hj => known_updateRun.mpr (hI.seated j (List.mem_filter.mp hj).1),
    fun r hr => known_updateRun.mpr (hI.logged r hr)⟩, ?_, fun j hj => ?_⟩
  · have hji : j ≠ i := by
      rintro rfl
      cases hself.symm.trans h
      exact hfin' ⟨_, List.mem_append_right _ (List.mem_singleton_self _), rfl⟩
    rw [get?_release_ne hji] at h
    obtain ⟨hlock', hclosed'⟩ := hI.unfinished j run' h hfin'
    refine ⟨?_, hclosed'⟩
    change (s.activeByPort.pop run.launch.portName).get? run'.launch.portName = some j
    rw [Dict.get?_pop_ne _ fun heq => ?_, hlock']
    rw [heq, hlock] at hlock'
    exact hji (Option.some.inj hlock').symm
  · have hold := Dict.get?_of_get?_pop h
    obtain ⟨run', hrun', hname⟩ := hI.active name j hold
    have hji : j ≠ i := by
      rintro rfl
      cases hrun.symm.trans hrun'
      subst hname
      change (s.activeByPort.pop run.launch.portName).get? run.launch.portName = some j at h
      simp at h
    exact ⟨run', by rw [get?_release_ne hji, hrun'], hname⟩
  · change (s.openFinishedByPort.set run.launch.portName i).get? name = some j at h
    by_cases hname : name = run.launch.portName
    · subst hname
      rw [Dict.get?_set_self] at h
      cases h
      exact ⟨_, hself, rfl, hclosed, _, List.mem_append_right _ (List.mem_singleton_self _), rfl⟩
    · rw [Dict.get?_set_ne _ _ hname] at h
      obtain ⟨run', hrun', hname', hclosed', hfin'⟩ := hI.openFinished name j h
      have hji : j ≠ i := by
        rintro rfl
        cases hrun.symm.trans hrun'
        exact hfin hfin'
      exact ⟨run', by rw [get?_release_ne hji, hrun'], hname', hclosed', hfin'⟩
  · obtain ⟨hmem, run', hrun', hrunning⟩ := inScript_iff.mp (hI.cancelling j hj)
    have hji : j ≠ i := by
      rintro rfl
      cases hrun.symm.trans hrun'
      exact hst hrunning
    exact inScript_iff.mpr ⟨List.mem_filter.mpr ⟨hmem, by simpa using hji⟩, run', by rw [get?_release_ne hji, hrun'], hrunning⟩
  · have hji : j ≠ i := by
      rintro rfl
      rw [hself] at hj
      cases hj
    rw [get?_release_ne hji] at hj
    exact hI.fresh j hj name
  · by_cases hji : j = i
    · subst hji
      cases hself.symm.trans h
      exact hst
    · rw [get?_release_ne hji] at h
      exact hI.outcome j run' h hfin'
  · simp [Known, hrun, hself]
  · refine ⟨fun h => by rw [get?_release_ne hj, h], fun run' h => ⟨run', by rw [get?_release_ne hj, h], .refl⟩, ?_,
      fun _ => le_rfl, fun _ h => Dict.get?_of_get?_pop h, [], by simp [release]⟩
    simp [release, hj]

end OpenMux.Actions.Runner
