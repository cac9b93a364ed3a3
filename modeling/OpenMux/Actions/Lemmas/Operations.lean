import OpenMux.Actions.Lemmas.Execute

/-!
# What the operations preserve

Launches, cancels, closes, take-overs, and what others do to the ports and the links.
-/

namespace OpenMux.Actions.Runner

open Py Origin Access

variable {i j : Text} {s t : Runner} {l : Launch} {run : ActionRun}

/-- What an operation that starts no task must keep. -/
abbrev Sound (s t : Runner) : Prop := t.Inv ∧ ∀ k, Rely k s t

theorem Sound.trans {u : Runner} (h : Sound s t) (h' : Sound t u) : Sound s u := ⟨h'.1, fun k => (h.2 k).trans (h'.2 k)⟩

theorem opSound_of_sound (h : Sound s t) :
    Async.Pool.OpSound Known Inv Rely Allowed Ended s t (none : Option (Text × (Signal → RunTask Unit))) where
  state := h.1
  rely k _ := h.2 k
  fresh _ _ hs := by cases hs
  known k hk := .inl ((h.2 k).known_iff.mpr hk)

/-- A change of the console alone that adds no record of the client of a run. -/
theorem sound_console (hI : s.Inv) {c : Console} (hc : ∀ name i, records c name i ≤ records s.console name i) :
    Sound s { s with console := c } := by
  refine ⟨⟨hI.unfinished, hI.active, hI.openFinished, hI.cancelling, fun j hj name => ?_, hI.outcome, hI.seated, hI.logged⟩,
    fun k => ⟨id, fun run hrun => ⟨run, hrun, .refl⟩, Iff.rfl, fun name => hc name k, fun _ => id, [], by simp⟩⟩
  exact Nat.le_zero.mp ((hc name j).trans (hI.fresh j hj name).le)

theorem sound_links (hI : s.Inv) (links : Dict Text Bool) : Sound s { s with links := links } :=
  ⟨⟨hI.unfinished, hI.active, hI.openFinished, hI.cancelling, hI.fresh, hI.outcome, hI.seated, hI.logged⟩,
    fun _ => ⟨id, fun run hrun => ⟨run, hrun, .refl⟩, Iff.rfl, fun _ => le_rfl, fun _ => id, [], by simp⟩⟩

theorem sound_inputs (hI : s.Inv) (inputs : List (Text × Text)) : Sound s { s with inputs := inputs } :=
  ⟨⟨hI.unfinished, hI.active, hI.openFinished, hI.cancelling, hI.fresh, hI.outcome, hI.seated, hI.logged⟩,
    fun _ => ⟨id, fun run hrun => ⟨run, hrun, .refl⟩, Iff.rfl, fun _ => le_rfl, fun _ => id, [], by simp⟩⟩

theorem sound_cancelling (hI : s.Inv) (cancelling : List Text) (hc : ∀ i ∈ cancelling, s.inScript i = true) :
    Sound s { s with cancelling := cancelling } :=
  ⟨⟨hI.unfinished, hI.active, hI.openFinished, hc, hI.fresh, hI.outcome, hI.seated, hI.logged⟩,
    fun _ => ⟨id, fun run hrun => ⟨run, hrun, .refl⟩, Iff.rfl, fun _ => le_rfl, fun _ => id, [], by simp⟩⟩

theorem sound_updateRun (hI : s.Inv) {f : ActionRun → ActionRun} (hf : ∀ run, s.runs.get? i = some run → Mild f run)
    (hext : ∀ run, s.runs.get? i = some run → Extends (s.inScript i = true) run (f run)) : Sound s (s.updateRun i f) :=
  ⟨hI.updateRun hf fun _ run hrun => (hext run hrun).status, fun _ => .updateRun hext⟩

/-- A finished run that is closed leaves the registry. -/
theorem sound_close (hI : s.Inv) (hrun : s.runs.get? i = some run) (hfin : run.Finished) {d : Dict Text Text}
    (hd : ∀ name j, d.get? name = some j → s.openFinishedByPort.get? name = some j ∧ j ≠ i) :
    Sound s ({ s with openFinishedByPort := d }.updateRun i fun run => { run with closed := true }) := by
  have hget : ∀ j run', ({ s with openFinishedByPort := d }.updateRun i fun run => { run with closed := true }).runs.get? j =
      some run' → if j = i then run' = { run with closed := true } else s.runs.get? j = some run' := by
    intro j run' h
    rw [get?_updateRun] at h
    split at h
    · rw [show ({ s with openFinishedByPort := d } : Runner).runs.get? i = some run from hrun] at h
      rw [if_pos ‹_›]
      exact (Option.some.inj h).symm
    · rwa [if_neg ‹_›]
  have hne : ∀ {j}, j ≠ i → ({ s with openFinishedByPort := d }.updateRun i fun run =>
      { run with closed := true }).runs.get? j = s.runs.get? j := fun h => get?_updateRun_ne h
  refine ⟨⟨fun j run' h hfin' => ?_, fun name j h => ?_, fun name j h => ?_, fun j hj => ?_, fun j hj name => ?_,
    fun j run' h hfin' => ?_, fun j hj => known_updateRun.mpr (hI.seated j hj),
    fun r hr => known_updateRun.mpr (hI.logged r hr)⟩, fun k => ?_⟩
  · have h := hget j run' h
    split at h
    · subst h
      exact absurd hfin hfin'
    · exact hI.unfinished j run' h hfin'
  · obtain ⟨run', hrun', hname⟩ := hI.active name j h
    by_cases hji : j = i
    · subst hji
      cases hrun.symm.trans hrun'
      exact ⟨_, get?_updateRun_self hrun, hname⟩
    · exact ⟨run', by rw [hne hji, hrun'], hname⟩
  · obtain ⟨hold, hji⟩ := hd name j h
    obtain ⟨run', hrun', hrest⟩ := hI.openFinished name j hold
    exact ⟨run', by rw [hne hji, hrun'], hrest⟩
  · have hin := hI.cancelling j hj
    by_cases hji : j = i
    · subst hji
      obtain ⟨hmem, run', hrun', hst⟩ := inScript_iff.mp hin
      exact inScript_iff.mpr ⟨hmem, _, get?_updateRun_self hrun', hst⟩
    · rwa [inScript_updateRun_ne hji]
  · have hji : j ≠ i := by
      rintro rfl
      rw [get?_updateRun_self (show ({ s with openFinishedByPort := d } : Runner).runs.get? j = some run from hrun)] at hj
      cases hj
    rw [hne hji] at hj
    exact hI.fresh j hj name
  · have h := hget j run' h
    split at h
    · subst h
      exact hI.outcome i run hrun hfin
    · exact hI.outcome j run' h hfin'
  · have hrely : Rely k { s with openFinishedByPort := d } ({ s with openFinishedByPort := d }.updateRun i fun run =>
        { run with closed := true }) := by
      refine .updateRun fun run _ => ?_
      exact ⟨rfl, rfl, ⟨[], by simp⟩, .inl rfl⟩
    exact ⟨hrely.known, hrely.run, hrely.session, hrely.records, hrely.active, hrely.calls⟩

theorem sound_closePrior (hI : s.Inv) (name : Text) : Sound s (s.closePrior name) := by
  unfold closePrior
  cases hp : s.openFinishedByPort.get? name with
  | none => exact ⟨hI, fun _ => .refl⟩
  | some prior =>
      obtain ⟨run, hrun, hname, -, hfin⟩ := hI.openFinished name prior hp
      refine sound_close hI hrun hfin fun n j h => ⟨Dict.get?_of_get?_pop h, ?_⟩
      rintro rfl
      obtain ⟨run', hrun', hn, -⟩ := hI.openFinished n j (Dict.get?_of_get?_pop h)
      cases hrun.symm.trans hrun'
      rw [← hn, hname] at h
      simp at h

theorem sound_closeRun (hI : s.Inv) {clientId : Option Text} (hC : s.Orderly (.close i clientId)) :
    Sound s (s.closeRun i clientId) := by
  unfold closeRun
  cases hrun : s.runs.get? i with
  | none => exact ⟨hI, fun _ => .refl⟩
  | some run =>
      dsimp only
      split
      · rename_i hcond
        simp only [Bool.and_eq_true, decide_eq_true_eq, ne_eq] at hcond
        have hfin := hC run hrun hcond.1.1 hcond.2
        split
        · have h := sound_close hI hrun hfin (d := s.openFinishedByPort.pop run.launch.portName) fun n j h => by
            refine ⟨Dict.get?_of_get?_pop h, ?_⟩
            rintro rfl
            obtain ⟨run', hrun', hn, -⟩ := hI.openFinished n j (Dict.get?_of_get?_pop h)
            cases hrun.symm.trans hrun'
            rw [← hn] at h
            simp at h
          exact h
        · rename_i hother
          refine sound_close hI hrun hfin (d := s.openFinishedByPort) fun n j h => ⟨h, ?_⟩
          rintro rfl
          obtain ⟨run', hrun', hn, -⟩ := hI.openFinished n j h
          cases hrun.symm.trans hrun'
          rw [← hn] at h
          exact hother h
      · exact ⟨hI, fun _ => .refl⟩

theorem sound_cancelRun (hI : s.Inv) {clientId : Option Text} (hC : s.Orderly (.cancel i clientId)) :
    Sound s (s.cancelRun i clientId) := by
  unfold cancelRun
  cases hrun : s.runs.get? i with
  | none => exact ⟨hI, fun _ => .refl⟩
  | some run =>
      dsimp only
      split
      · rename_i hcond
        simp only [Bool.and_eq_true, decide_eq_true_eq] at hcond
        refine sound_cancelling hI _ fun j hj => ?_
        rcases List.mem_cons.mp hj with rfl | hj
        · exact hC run hrun hcond.1 hcond.2
        · exact hI.cancelling j hj
      · exact ⟨hI, fun _ => .refl⟩

theorem sound_submit (hI : s.Inv) {text : Text} {clientId : Option Text} : Sound s (s.submitOperatorInput i text clientId) := by
  unfold submitOperatorInput
  split
  · split
    · exact sound_inputs hI _
    · exact ⟨hI, fun _ => .refl⟩
  · exact ⟨hI, fun _ => .refl⟩

theorem updateRun_updateRun {f g : ActionRun → ActionRun} :
    (s.updateRun i f).updateRun i g = s.updateRun i fun run => g (f run) := by
  unfold updateRun
  cases h : s.runs.get? i with
  | none => simp [h]
  | some run => simp [Dict.set_set]

/-- A pending restore follows the role while the run is running. -/
theorem sound_takeOver (hI : s.Inv) {clientId : Text} : Sound s (s.takeOverOperator i clientId) := by
  unfold takeOverOperator
  cases hrun : s.runs.get? i with
  | none => exact ⟨hI, fun _ => .refl⟩
  | some run =>
      dsimp only
      split
      · unfold publish
        rw [updateRun_updateRun]
        refine sound_updateRun hI (fun run _ => ⟨rfl, rfl, finished_append rfl fun e he => ?_, id⟩) fun run _ => ?_
        · rw [List.mem_singleton.mp he]
          exact operatorChanged_name _ _
        · refine ⟨rfl, rfl, ⟨_, rfl, fun e he => .inl ⟨_, _, List.mem_singleton.mp he⟩⟩, ?_⟩
          dsimp only
          split
          · cases hpend : run.autoDemotedClientId with
            | none => exact .inl rfl
            | some c => exact .inr ⟨‹_›, rfl, clientId, rfl, _, List.mem_append_right _ (List.mem_singleton_self _)⟩
          · exact .inl rfl
      · exact ⟨hI, fun _ => .refl⟩

theorem sound_report (hI : s.Inv) {name : Text} (hin : s.inScript i = true) (hname : name ≠ finishedName) :
    Sound s (s.publish i (.script name)) := by
  refine sound_updateRun hI (fun run _ => ⟨rfl, rfl, finished_publish hname, id⟩) fun run _ => ?_
  exact ⟨rfl, rfl, ⟨_, rfl, fun e he => .inr ⟨hin, name, List.mem_singleton.mp he, hname⟩⟩, .inl rfl⟩

/-! ## Launches -/

theorem stage_launch (hI : s.Inv) (hnew : s.runs.get? i = none) (b : Dict Text Text) :
    Stage i l 1 Untouched false { s with runs := s.runs.set i { launch := l }, activeByPort := b } := by
  have hunknown : ¬ Known i s := by simp [Known, hnew]
  refine ⟨⟨{ launch := l }, Dict.get?_set_self _ _ _, rfl, ?_, ⟨rfl, rfl⟩, fun c hc => ?_⟩, ?_, ?_⟩
  · rintro ⟨e, he, -⟩
    cases he
  · obtain ⟨r, hr, rfl, -⟩ := hc
    exact absurd (hI.logged r hr) hunknown
  · exact ((hI.fresh i hnew l.portName).le).trans (Nat.zero_le 1)
  · simpa using fun hmem => hunknown (hI.seated i hmem)

theorem opSound_launch (hI : s.Inv) (hnew : s.runs.get? i = none) (hfree : s.getActiveRun l.portName = none) :
    Async.Pool.OpSound Known Inv Rely Allowed Ended s
      { s with runs := s.runs.set i { launch := l }, activeByPort := s.activeByPort.set l.portName i }
      (some (i, taskOf i l)) := by
  have hne : ∀ {j run}, s.runs.get? j = some run → j ≠ i := by
    rintro j run h rfl
    rw [hnew] at h
    cases h
  have hother : ∀ {j}, j ≠ i → (s.runs.set i { launch := l }).get? j = s.runs.get? j := fun h => Dict.get?_set_ne _ _ h
  have hfree' : s.activeByPort.get? l.portName = none := by
    cases ha : s.activeByPort.get? l.portName with
    | none => rfl
    | some j =>
        obtain ⟨run, hrun, -⟩ := hI.active _ _ ha
        simp [getActiveRun, ha, hrun] at hfree
  have hset : ∀ k, (s.runs.get? k).isSome = true → ((s.runs.set i { launch := l }).get? k).isSome = true := by
    intro k hk
    by_cases hki : k = i
    · subst hki; simp
    · rwa [hother hki]
  refine ⟨⟨fun j run' h hfin' => ?_, fun name j h => ?_, fun name j h => ?_, fun j hj => ?_, fun j hj name => ?_,
    fun j run' h hfin' => ?_, fun j hj => hset j (hI.seated j hj), fun r hr => hset _ (hI.logged r hr)⟩,
    fun k hk => ?_, fun k rest hs => ?_, fun k hk => ?_⟩
  · by_cases hji : j = i
    · subst hji
      rw [Dict.get?_set_self] at h
      cases h
      exact ⟨Dict.get?_set_self _ _ _, rfl⟩
    · rw [hother hji] at h
      obtain ⟨hlock, hclosed⟩ := hI.unfinished j run' h hfin'
      refine ⟨?_, hclosed⟩
      rw [Dict.get?_set_ne, hlock]
      intro heq
      rw [heq, hfree'] at hlock
      cases hlock
  · rw [Dict.get?_set] at h
    split at h
    · cases h
      exact ⟨_, Dict.get?_set_self _ _ _, Eq.symm ‹_›⟩
    · obtain ⟨run, hrun, hname⟩ := hI.active name j h
      exact ⟨run, by rw [hother (hne hrun), hrun], hname⟩
  · obtain ⟨run, hrun, hrest⟩ := hI.openFinished name j h
    exact ⟨run, by rw [hother (hne hrun), hrun], hrest⟩
  · obtain ⟨hmem, run, hrun, hst⟩ := inScript_iff.mp (hI.cancelling j hj)
    exact inScript_iff.mpr ⟨hmem, run, by rw [hother (hne hrun), hrun], hst⟩
  · have hji : j ≠ i := by
      rintro rfl
      rw [Dict.get?_set_self] at hj
      cases hj
    rw [hother hji] at hj
    exact hI.fresh j hj name
  · by_cases hji : j = i
    · subst hji
      rw [Dict.get?_set_self] at h
      cases h
      obtain ⟨e, he, -⟩ := hfin'
      cases he
    · rw [hother hji] at h
      exact hI.outcome j run' h hfin'
  · obtain ⟨run, hrun⟩ := Option.isSome_iff_exists.mp hk
    have hki := hne hrun
    refine ⟨fun h => by rw [hother hki, h], fun run h => ⟨run, by rw [hother hki, h], .refl⟩, Iff.rfl, fun _ => le_rfl,
      fun name h => ?_, [], by simp⟩
    rw [Dict.get?_set] at h
    split at h
    · cases h
      exact absurd rfl hki
    · exact h
  · cases hs
    refine ⟨by simp [Known, hnew], by simp [Known], fun t hIt hR signal hA => ?_⟩
    have hstage := (stage_launch (l := l) hI hnew _).rely stable_untouched hR
    cases signal with
    | value result => exact (ok_execute hIt hstage).mono (fun _ _ => id) fun _ _ h => h.elim
    | raised e => exact absurd (hA.2 e rfl) (hstage.quiet (.inl rfl))
  · by_cases hki : k = i
    · subst hki
      exact .inr ⟨_, rfl⟩
    · exact .inl (by simpa [Known, hother hki] using hk)

/-- An operation that first makes a sound change. -/
theorem opSound_after {u : Runner} {spawn : Option (Text × (Signal → RunTask Unit))} (h : Sound s t)
    (h' : Async.Pool.OpSound Known Inv Rely Allowed Ended t u spawn) :
    Async.Pool.OpSound Known Inv Rely Allowed Ended s u spawn where
  state := h'.state
  rely k hk := (h.2 k).trans (h'.rely k ((h.2 k).known_iff.mp hk))
  fresh k rest hs := ⟨mt (h.2 k).known_iff.mp (h'.fresh k rest hs).1, (h'.fresh k rest hs).2⟩
  known k hk := (h'.known k hk).imp_left (h.2 k).known_iff.mpr

theorem getActiveRun_closePrior (hI : s.Inv) {name : Text} (h : s.getActiveRun name = none) :
    (s.closePrior name).getActiveRun name = none := by
  unfold getActiveRun at h ⊢
  have hactive : (s.closePrior name).activeByPort = s.activeByPort := by
    unfold closePrior
    split <;> rfl
  rw [hactive]
  cases ha : s.activeByPort.get? name with
  | none => rfl
  | some i =>
      rw [ha] at h
      exact ((sound_closePrior hI name).2 i).known h

end OpenMux.Actions.Runner
