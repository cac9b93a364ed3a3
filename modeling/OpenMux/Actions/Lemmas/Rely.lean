import OpenMux.Actions.Lemmas.Records

/-!
# What the tasks of the runs rely on

What holds of the runner at every wait, what others may do to a run while its task waits, and that a task does no more than
this to the others.
-/

namespace OpenMux.Actions

open Py Origin Access

theorem finished_append {run run' : ActionRun} {more : List Event} (h : run'.events = run.events ++ more)
    (hmore : ∀ e ∈ more, e.name ≠ finishedName) : run'.Finished ↔ run.Finished := by
  simp only [ActionRun.Finished, h, List.mem_append, or_and_right, exists_or, or_iff_left_iff_imp]
  rintro ⟨e, he, hname⟩
  exact absurd hname (hmore e he)

theorem operatorChanged_name (c : Text) (previous : Option Text) :
    (Event.operatorChanged c previous).name ≠ finishedName := by
  change "operator_changed".toList ≠ "action_finished".toList
  decide

/-- What others may add to a run. -/
structure Extends (reporting : Prop) (run run' : ActionRun) : Prop where
  launch : run'.launch = run.launch
  status : run'.status = run.status
  events : ∃ more, run'.events = run.events ++ more ∧ ∀ e ∈ more,
    (∃ c previous, e = .operatorChanged c previous) ∨ (reporting ∧ ∃ name, e = .script name ∧ name ≠ finishedName)
  pending : run'.autoDemotedClientId = run.autoDemotedClientId ∨
    run.status = .running ∧ run.autoDemotedClientId.isSome = true ∧
      ∃ c, run'.autoDemotedClientId = some c ∧ run'.TakenBy c

namespace Extends

variable {reporting : Prop} {run run' run'' : ActionRun}

theorem refl : Extends reporting run run := ⟨rfl, rfl, ⟨[], by simp⟩, .inl rfl⟩

theorem finished (h : Extends reporting run run') : run'.Finished ↔ run.Finished := by
  obtain ⟨more, heq, hmore⟩ := h.events
  refine finished_append heq fun e he => ?_
  rcases hmore e he with ⟨c, previous, rfl⟩ | ⟨-, name, rfl, hname⟩
  · exact operatorChanged_name c previous
  · exact hname

theorem takenBy (h : Extends reporting run run') {c : Text} (hc : run.TakenBy c) : run'.TakenBy c := by
  obtain ⟨more, heq, -⟩ := h.events
  obtain ⟨previous, hmem⟩ := hc
  exact ⟨previous, by simp [heq, hmem]⟩

theorem trans {reporting' : Prop} (h : Extends reporting run run') (h' : Extends reporting' run' run'')
    (hr : reporting' → reporting) : Extends reporting run run'' := by
  refine ⟨h'.launch.trans h.launch, h'.status.trans h.status, ?_, ?_⟩
  · obtain ⟨more, heq, hmore⟩ := h.events
    obtain ⟨more', heq', hmore'⟩ := h'.events
    refine ⟨more ++ more', by rw [heq', heq, List.append_assoc], fun e he => ?_⟩
    rcases List.mem_append.mp he with he | he
    · exact hmore e he
    · exact (hmore' e he).imp_right (And.imp_left hr)
  · rcases h'.pending with heq' | ⟨hst, hsome, c, hc, htaken⟩
    · rcases h.pending with heq | ⟨hst, hsome, c, hc, htaken⟩
      · exact .inl (heq'.trans heq)
      · exact .inr ⟨hst, hsome, c, heq'.trans hc, h'.takenBy htaken⟩
    · refine .inr ⟨h.status ▸ hst, ?_, c, hc, htaken⟩
      rcases h.pending with heq | ⟨-, hsome', -⟩
      · rwa [← heq]
      · exact hsome'

end Extends

namespace Runner

/-- A run has been launched. -/
def Known (runId : Text) (s : Runner) : Prop := (s.runs.get? runId).isSome = true

/-- What holds at every wait. A run that has not told its end holds the lock of its port and is not closed. -/
structure Inv (s : Runner) : Prop where
  unfinished : ∀ i run, s.runs.get? i = some run → ¬ run.Finished →
    s.activeByPort.get? run.launch.portName = some i ∧ run.closed = false
  active : ∀ name i, s.activeByPort.get? name = some i → ∃ run, s.runs.get? i = some run ∧ run.launch.portName = name
  openFinished : ∀ name i, s.openFinishedByPort.get? name = some i →
    ∃ run, s.runs.get? i = some run ∧ run.launch.portName = name ∧ run.closed = false ∧ run.Finished
  cancelling : ∀ i ∈ s.cancelling, s.inScript i = true
  fresh : ∀ i, s.runs.get? i = none → ∀ name, records s.console name i = 0
  outcome : ∀ i run, s.runs.get? i = some run → run.Finished → run.status ≠ .running
  seated : ∀ i ∈ s.sessions, Known i s
  logged : ∀ r ∈ s.calls, Known r.runId s

/-- What others may do to a run. -/
structure Rely (i : Text) (s t : Runner) : Prop where
  known : s.runs.get? i = none → t.runs.get? i = none
  run : ∀ run, s.runs.get? i = some run → ∃ run', t.runs.get? i = some run' ∧ Extends (s.inScript i = true) run run'
  session : i ∈ t.sessions ↔ i ∈ s.sessions
  records : ∀ name, records t.console name i ≤ records s.console name i
  active : ∀ name, t.activeByPort.get? name = some i → s.activeByPort.get? name = some i
  calls : ∃ more, t.calls = s.calls ++ more ∧ ∀ r ∈ more, r.runId ≠ i

variable {i j : Text} {s t u : Runner} {l : Launch} {c : Text}

theorem Rely.refl : Rely i s s :=
  ⟨id, fun run h => ⟨run, h, .refl⟩, Iff.rfl, fun _ => le_rfl, fun _ => id, ⟨[], by simp⟩⟩

theorem inScript_iff : s.inScript i = true ↔ i ∈ s.sessions ∧ ∃ run, s.runs.get? i = some run ∧ run.status = .running := by
  simp [inScript, Option.any_eq_true]

theorem Rely.inScript (h : Rely i s t) : t.inScript i = true ↔ s.inScript i = true := by
  rw [inScript_iff, inScript_iff, h.session]
  refine and_congr_right fun _ => ?_
  cases hrun : s.runs.get? i with
  | none => simp [h.known hrun]
  | some run =>
      obtain ⟨run', hrun', hext⟩ := h.run run hrun
      simp [hrun', hext.status]

theorem Rely.trans (h : Rely i s t) (h' : Rely i t u) : Rely i s u := by
  refine ⟨fun hs => h'.known (h.known hs), fun run hrun => ?_, h'.session.trans h.session,
    fun name => (h'.records name).trans (h.records name), fun name ha => h.active name (h'.active name ha), ?_⟩
  · obtain ⟨run', hrun', hext⟩ := h.run run hrun
    obtain ⟨run'', hrun'', hext'⟩ := h'.run run' hrun'
    exact ⟨run'', hrun'', hext.trans hext' h.inScript.mp⟩
  · obtain ⟨more, heq, hmore⟩ := h.calls
    obtain ⟨more', heq', hmore'⟩ := h'.calls
    refine ⟨more ++ more', by rw [heq', heq, List.append_assoc], fun r hr => ?_⟩
    rcases List.mem_append.mp hr with hr | hr
    · exact hmore r hr
    · exact hmore' r hr

theorem Rely.known_iff (h : Rely i s t) : Known i s ↔ Known i t := by
  unfold Known
  cases hrun : s.runs.get? i with
  | none => simp [h.known hrun]
  | some run =>
      obtain ⟨run', hrun', -⟩ := h.run run hrun
      simp [hrun']

theorem Rely.demoted (h : Rely i s t) : t.Demoted i c ↔ s.Demoted i c := by
  obtain ⟨more, heq, hmore⟩ := h.calls
  unfold Demoted
  refine ⟨fun ⟨r, hr, hid, hcall⟩ => ⟨r, ?_, hid, hcall⟩, fun ⟨r, hr, hid, hcall⟩ => ⟨r, ?_, hid, hcall⟩⟩
  · rw [heq] at hr
    exact (List.mem_append.mp hr).resolve_right fun h => hmore r h hid
  · rw [heq]
    exact List.mem_append_left _ hr

theorem Offered.mono {name : Text} (h : s.Offered i name c) (hcalls : s.calls ⊆ t.calls) : t.Offered i name c := by
  obtain ⟨r, hr, hrest⟩ := h
  exact ⟨r, hcalls hr, hrest⟩

theorem Rely.offered {name : Text} (h : Rely i s t) (ho : s.Offered i name c) : t.Offered i name c := by
  obtain ⟨more, heq, -⟩ := h.calls
  exact ho.mono (by simp [heq])

/-- A task that has ended has released its run. -/
def Ended (i : Text) (s : Runner) : Prop := i ∉ s.sessions ∧ ∃ run, s.runs.get? i = some run ∧ s.Released i run

theorem Ended.rely (h : Ended i s) (hr : Rely i s t) : Ended i t := by
  obtain ⟨hsession, run, hrun, hreleased⟩ := h
  obtain ⟨run', hrun', hext⟩ := hr.run run hrun
  have hquiet : ¬ s.inScript i = true := fun hin => hsession (inScript_iff.mp hin).1
  have hpending : run'.autoDemotedClientId = run.autoDemotedClientId :=
    hext.pending.resolve_right fun hp => hreleased.status hp.1
  refine ⟨fun hmem => hsession (hr.session.mp hmem), run', hrun', ?_, ?_, ?_, ?_, ?_⟩
  · rw [hext.status]
    exact hreleased.status
  · rw [hext.launch]
    exact fun ha => hreleased.lock (hr.active _ ha)
  · rw [hext.launch]
    exact Nat.le_zero.mp (hreleased.detached ▸ hr.records _)
  · intro c hc
    obtain ⟨c', hc', hwho, hoffered⟩ := hreleased.restore c (hr.demoted.mp hc)
    exact ⟨c', hpending.trans hc', hwho.imp_right hext.takenBy, hext.launch ▸ hr.offered hoffered⟩
  · obtain ⟨before, status, error, after, heq, hbefore, hafter⟩ := hreleased.events
    obtain ⟨more, hmore, hnames⟩ := hext.events
    refine ⟨before, status, error, after ++ more, by simp [hmore, heq], hbefore, fun e he => ?_⟩
    rcases List.mem_append.mp he with he | he
    · exact hafter e he
    · exact (hnames e he).resolve_right fun h => hquiet h.1

theorem relies : Async.Pool.Relies Known Inv Rely Ended where
  refl _ _ := .refl
  trans _ _ _ _ := Rely.trans
  known _ _ _ := Rely.known_iff
  ends _ _ _ _ _ hr hq := hq.rely hr

end Runner

end OpenMux.Actions
