import OpenMux.Actions.Lemmas.Acts

/-!
# The task of a run keeps its promises

The task of a run, waiting among others, keeps the invariant, does to the others only what they rely on, raises nothing, and
leaves its run released.
-/

namespace OpenMux.Actions.Runner

open Py Origin Access

variable {ρ τ : Type} {i : Text} {l : Launch} {s t : Runner} {Q : Runner → ρ → Prop} {E : Runner → Exn → Prop}

/-- The signals that an orderly run of the system gives to a task. -/
def Allowed (i : Text) (s : Runner) (signal : Signal) : Prop :=
  i ∉ s.cancelling ∧ ∀ e, signal = .raised e → s.inScript i = true

/-- The task is safe among the others. -/
abbrev Ok (i : Text) (Q : Runner → ρ → Prop) (E : Runner → Exn → Prop) (c : RunTask ρ) (s : Runner) : Prop :=
  Async.Safe Inv (Rely i) (Async.Pool.Guarantee Known Rely i) (Allowed i) Q E c s

/-! ## Single steps -/

theorem ok_bind {Q' : Runner → τ → Prop} {c : RunTask τ} {k : τ → RunTask ρ} (h : Ok i Q' E c s)
    (hk : ∀ t r, Q' t r → Ok i Q E (k r) t) : Ok i Q E (c >>= k) s :=
  Async.safe_bind.mpr (h.mono hk fun _ _ => id)

theorem ok_get {k : Runner → RunTask ρ} (hI : s.Inv) (h : Ok i Q E (k s) s) : Ok i Q E (.get >>= k) s :=
  Async.safe_bind.mpr ((Async.safe_get hI (Async.Pool.guarantee_refl relies i s)).mpr h)

theorem ok_call {c : Call} {k : Bool → RunTask ρ} (hI : s.Inv) (hk : Known i s)
    (h : (s.perform i l c).1.Inv → Ok i Q E (k (s.perform i l c).2) (s.perform i l c).1) : Ok i Q E (call i l c >>= k) s := by
  obtain ⟨hinv, hg⟩ := step_perform (l := l) hI hk c
  exact Async.safe_bind.mpr ⟨hinv, hg, h hinv⟩

theorem ok_modify {f : Runner → Runner} {k : Unit → RunTask ρ} (hf : Step i s (f s)) (h : (f s).Inv → Ok i Q E (k ()) (f s)) :
    Ok i Q E (.modify f >>= k) s :=
  Async.safe_bind.mpr ⟨hf.1, hf.2, h hf.1⟩

/-- A wait outside the script ends with a value, and finds what is stable. -/
theorem ok_wait {S : Runner → Prop} {Q : Runner → Bool → Prop} (hS : ∀ s t, S s → Rely i s t → S t)
    (hquiet : ∀ s, S s → ¬ s.inScript i = true) (hs : S s) (h : ∀ t r, t.Inv → S t → Q t r) : Ok i Q E guarded s := by
  intro t hI hR signal hA
  cases signal with
  | value result => exact h t result hI (hS s t hs hR)
  | raised e => exact absurd (hA.2 e rfl) (hquiet t (hS s t hs hR))

theorem ok_guarded {S : Runner → Prop} {k : Bool → RunTask ρ} (hS : ∀ s t, S s → Rely i s t → S t)
    (hquiet : ∀ s, S s → ¬ s.inScript i = true) (hs : S s) (h : ∀ t r, t.Inv → S t → Ok i Q E (k r) t) :
    Ok i Q E (guarded >>= k) s :=
  Async.safe_bind.mpr (ok_wait hS hquiet hs h)

/-! ## What a task knows about its run -/

/-- The run has not told its end, its client has at most `n` records on its port, and a client that it has demoted is owed a
restore, or the client that took the run over since. -/
structure Stage (i : Text) (l : Launch) (n : Nat) (P : ActionRun → Prop) (b : Bool) (s : Runner) : Prop where
  run : ∃ run, s.runs.get? i = some run ∧ run.launch = l ∧ ¬ run.Finished ∧ P run ∧
    ∀ c, s.Demoted i c → ∃ c', run.autoDemotedClientId = some c' ∧ (c' = c ∨ run.TakenBy c')
  count : records s.console l.portName i ≤ n
  session : i ∈ s.sessions ↔ b = true

/-- The others keep it. -/
def Stable (P : ActionRun → Prop) : Prop := ∀ reporting run run', Extends reporting run run' → P run → P run'

theorem stable_status (st : Status → Prop) : Stable fun run => st run.status :=
  fun _ _ _ hext h => by simpa only [hext.status] using h

variable {n : Nat} {P : ActionRun → Prop} {b : Bool}

theorem Stage.known (h : Stage i l n P b s) : Known i s := by
  obtain ⟨run, hrun, -⟩ := h.run
  simp [Known, hrun]

theorem Stage.rely (hP : Stable P) (h : Stage i l n P b s) (hr : Rely i s t) : Stage i l n P b t := by
  obtain ⟨run, hrun, hlaunch, hfin, hp, hdemoted⟩ := h.run
  obtain ⟨run', hrun', hext⟩ := hr.run run hrun
  refine ⟨⟨run', hrun', hext.launch.trans hlaunch, mt hext.finished.mp hfin, hP _ _ _ hext hp, fun c hc => ?_⟩,
    (hr.records _).trans h.count, hr.session.trans h.session⟩
  obtain ⟨c', hc', hwho⟩ := hdemoted c (hr.demoted.mp hc)
  rcases hext.pending with heq | ⟨-, -, c'', hc'', htaken⟩
  · exact ⟨c', heq.trans hc', hwho.imp_right hext.takenBy⟩
  · exact ⟨c'', hc'', .inr htaken⟩

/-- A stage outside the script. -/
theorem Stage.quiet (h : Stage i l n P b s) (hq : b = false ∨ ∀ run, P run → run.status ≠ .running) : ¬ s.inScript i = true := by
  rw [inScript_iff]
  rintro ⟨hmem, run, hrun, hrunning⟩
  rcases hq with rfl | hq
  · cases h.session.mp hmem
  · obtain ⟨run', hrun', -, -, hp, -⟩ := h.run
    cases hrun.symm.trans hrun'
    exact hq run hp hrunning

theorem demoted_perform {x : Call} {c : Text} : (s.perform i l x).1.Demoted i c ↔ s.Demoted i c ∨ x = .demote c := by
  simp [Demoted, perform, or_and_right, exists_or]

/-- A call that demotes nobody. -/
theorem Stage.perform {x : Call} {m : Nat} (h : Stage i l n P b s) (hx : ∀ c, x ≠ .demote c)
    (hm : records (s.perform i l x).1.console l.portName i ≤ m) : Stage i l m P b (s.perform i l x).1 := by
  obtain ⟨run, hrun, hlaunch, hfin, hp, hdemoted⟩ := h.run
  refine ⟨⟨run, hrun, hlaunch, hfin, hp, fun c hc => hdemoted c ?_⟩, hm, h.session⟩
  exact (demoted_perform.mp hc).resolve_right (hx c)

theorem Stage.perform_le {x : Call} (h : Stage i l n P b s) (hx : ∀ c, x ≠ .demote c) (hadd : x ≠ .add) :
    Stage i l n P b (s.perform i l x).1 := by
  exact h.perform hx ((records_apply_le fun h => hadd h.2).trans h.count)

theorem Stage.add (h : Stage i l 1 P b s) : Stage i l 1 P b (s.perform i l .add).1 := by
  refine h.perform (fun _ => by simp) ?_
  have hle := records_apply (s := s.console) (i := i) (j := i) (n := l.portName) (l := l) (c := .add)
  exact hle.trans (Nat.max_le.mpr ⟨h.count, by simp⟩)

theorem Stage.remove (h : Stage i l 1 P b s) : Stage i l 0 P b (s.perform i l .remove).1 :=
  h.perform (fun _ => by simp) (records_remove h.count).le

/-- An update of the run that neither tells its end nor forgets whom it owes a restore. -/
theorem Stage.updateRun {f : ActionRun → ActionRun} {P' : ActionRun → Prop} (h : Stage i l n P b s)
    (hf : ∀ run, run.launch = l → ¬ run.Finished → P run → (f run).launch = l ∧ ¬ (f run).Finished ∧ P' (f run) ∧
      (f run).autoDemotedClientId = run.autoDemotedClientId ∧ ∀ c, run.TakenBy c → (f run).TakenBy c) :
    Stage i l n P' b (s.updateRun i f) := by
  obtain ⟨run, hrun, hlaunch, hfin, hp, hdemoted⟩ := h.run
  obtain ⟨hlaunch', hfin', hp', hpending, htaken⟩ := hf run hlaunch hfin hp
  refine ⟨⟨f run, get?_updateRun_self hrun, hlaunch', hfin', hp', fun c hc => ?_⟩, h.count, h.session⟩
  obtain ⟨c', hc', hwho⟩ := hdemoted c hc
  exact ⟨c', hpending.trans hc', hwho.imp_right (htaken c')⟩

theorem Stage.weaken {P' : ActionRun → Prop} (h : Stage i l n P b s) (hP : ∀ run, P run → P' run) : Stage i l n P' b s := by
  obtain ⟨run, hrun, hlaunch, hfin, hp, hdemoted⟩ := h.run
  exact ⟨⟨run, hrun, hlaunch, hfin, hP run hp, hdemoted⟩, h.count, h.session⟩

/-! ## Attaching -/

def Running (run : ActionRun) : Prop := run.status = .running

/-- A run that has demoted nobody. -/
def Untouched (run : ActionRun) : Prop := run.status = .running ∧ run.autoDemotedClientId = none

theorem stable_running : Stable Running := stable_status (· = .running)

theorem stable_untouched : Stable Untouched := by
  intro reporting run run' hext h
  refine ⟨hext.status.trans h.1, ?_⟩
  rcases hext.pending with heq | ⟨-, hsome, -⟩
  · exact heq.trans h.2
  · simp [h.2] at hsome

/-- The launcher is demoted, and noted in the same step. -/
theorem Stage.selfDemote {c : Text} (h : Stage i l 1 Untouched false s) :
    Stage i l 1 Running false (noteDemoted i c (s.perform i l (.demote c)).1) := by
  obtain ⟨run, hrun, hlaunch, hfin, ⟨hrunning, hnone⟩, hdemoted⟩ := h.run
  refine ⟨⟨_, get?_updateRun_self hrun, hlaunch, hfin, hrunning, fun c' hc' => ⟨c, rfl, ?_⟩⟩, ?_, h.session⟩
  · rcases (demoted_perform (l := l)).mp hc' with hold | heq
    · obtain ⟨c'', hc'', -⟩ := hdemoted c' hold
      rw [hnone] at hc''
      cases hc''
    · cases heq
      exact .inl rfl
  · exact (records_apply_le fun h => by simp at h).trans h.count

section Attach

variable {P : ActionRun → Prop}

theorem ok_addActionClient (hP : Stable P) (hI : s.Inv) (h : Stage i l 1 P false s) :
    Ok i (fun t _ => t.Inv ∧ Stage i l 1 P false t) E (addActionClient i l) s := by
  unfold addActionClient
  refine ok_call hI h.known fun hI => ok_get hI ?_
  split
  · exact ok_guarded (fun _ _ hs hr => hs.rely hP hr) (fun _ hs => hs.quiet (.inl rfl)) h.add fun t _ hI hs => ⟨hI, hs⟩
  · exact ⟨hI, h.add⟩

theorem ok_removeActionClient {b : Bool} (hP : Stable P) (hq : b = false ∨ ∀ run, P run → run.status ≠ .running) (hI : s.Inv)
    (h : Stage i l 1 P b s) : Ok i (fun t _ => t.Inv ∧ Stage i l 0 P b t) E (removeActionClient i l) s := by
  unfold removeActionClient
  refine ok_call hI h.known fun hI => ok_get hI ?_
  split
  · exact ok_guarded (fun _ _ hs hr => hs.rely hP hr) (fun _ hs => hs.quiet hq) h.remove fun t _ hI hs => ⟨hI, hs⟩
  · exact ⟨hI, h.remove⟩

theorem ok_notifyClientMode {n : Nat} {b : Bool} {c : Text} {code : Code} (hP : Stable P)
    (hq : b = false ∨ ∀ run, P run → run.status ≠ .running) (hI : s.Inv) (h : Stage i l n P b s) :
    Ok i (fun t _ => t.Inv ∧ Stage i l n P b t ∧ ∀ r ∈ (s.perform i l (.tell c code)).1.calls, r ∈ t.calls) E
      (notifyClientMode i l c code) s := by
  unfold notifyClientMode
  refine ok_call hI h.known fun hI => ?_
  refine ok_guarded (S := fun t => Stage i l n P b t ∧ ∀ r ∈ (s.perform i l (.tell c code)).1.calls, r ∈ t.calls)
    (fun t u hs hr => ⟨hs.1.rely hP hr, fun r hr' => ?_⟩) (fun _ hs => hs.1.quiet hq)
    ⟨h.perform_le (fun _ => by simp) (by simp), fun _ => id⟩ fun t _ hI hs => ⟨hI, hs⟩
  obtain ⟨more, heq, -⟩ := hr.calls
  rw [heq]
  exact List.mem_append_left _ (hs.2 r hr')

theorem ok_releaseOriginSlot {federated : Bool} {c : Text} (hP : Stable P) (hI : s.Inv) (h : Stage i l 1 P false s) :
    Ok i (fun t _ => t.Inv ∧ Stage i l 1 P false t) E (releaseOriginSlot i l federated c) s := by
  unfold releaseOriginSlot
  split
  · refine ok_call hI h.known fun hI => ?_
    exact ok_guarded (fun _ _ hs hr => hs.rely hP hr) (fun _ hs => hs.quiet (.inl rfl))
      (h.perform_le (fun _ => by simp) (by simp)) fun t _ hI hs => ⟨hI, hs⟩
  · exact ⟨hI, h⟩

theorem ok_requestOriginGrant {n : Nat} {b : Bool} {c : Text} (hP : Stable P)
    (hq : b = false ∨ ∀ run, P run → run.status ≠ .running) (hI : s.Inv) (h : Stage i l n P b s) :
    Ok i (fun t _ => t.Inv ∧ Stage i l n P b t) E (requestOriginGrant i l c) s := by
  unfold requestOriginGrant
  refine ok_call hI h.known fun hI => ?_
  exact ok_wait (fun _ _ hs hr => hs.rely hP hr) (fun _ hs => hs.quiet hq)
    (h.perform_le (fun _ => by simp) (by simp)) fun t _ hI hs => ⟨hI, hs⟩

theorem ok_makeRoom {federated : Bool} (hI : s.Inv) (h : Stage i l 1 Untouched false s) :
    Ok i (fun t _ => t.Inv ∧ Stage i l 1 Running false t) E (makeRoom i l federated) s := by
  unfold makeRoom
  refine ok_get hI ?_
  split
  · exact ⟨hI, h.weaken fun _ => And.left⟩
  · split
    · refine ok_bind (ok_releaseOriginSlot stable_untouched hI h) fun t _ ⟨hI, h⟩ => ?_
      refine ok_call hI h.known fun hI' => ok_modify ?_ fun hI => ?_
      · refine step_updateRun hI' (fun run _ => ⟨rfl, rfl, Iff.rfl, id⟩) fun _ run _ => rfl
      · refine ok_bind (ok_notifyClientMode stable_running (.inl rfl) hI h.selfDemote) fun t _ ⟨hI, h, _⟩ => ?_
        exact ok_addActionClient stable_running hI h
    · exact ⟨hI, h.weaken fun _ => And.left⟩

theorem ok_attach {federated : Bool} (hI : s.Inv) (h : Stage i l 1 Untouched false s) :
    Ok i (fun t _ => t.Inv ∧ Stage i l 1 Running false t) E (attach i l federated) s := by
  unfold attach
  refine ok_bind (ok_addActionClient stable_untouched hI h) fun t attached ⟨hI, h⟩ => ?_
  split
  · exact ⟨hI, h.weaken fun _ => And.left⟩
  · exact ok_makeRoom hI h

/-- A run that cannot attach raises that the port is busy. -/
def Busy (i : Text) (l : Launch) (t : Runner) (e : Exn) : Prop :=
  t.Inv ∧ Stage i l 1 Running false t ∧ ∃ message, e = .busy message

theorem ok_attachReadWrite (hI : s.Inv) (h : Stage i l 1 Untouched false s) :
    Ok i (fun t _ => t.Inv ∧ Stage i l 1 Running false t) (Busy i l) (attachReadWrite i l) s := by
  unfold attachReadWrite
  refine ok_get hI ?_
  split
  · exact ⟨hI, h.weaken fun _ => And.left, _, rfl⟩
  · refine ok_bind (ok_attach hI h) fun t attached ⟨hI, h⟩ => ?_
    split
    · exact ⟨hI, h, _, rfl⟩
    · split
      · refine ok_bind (ok_requestOriginGrant stable_running (.inl rfl) hI h) fun t granted ⟨hI, h⟩ => ?_
        split
        · exact ⟨hI, h⟩
        · refine ok_bind (ok_removeActionClient stable_running (.inl rfl) hI h) fun t _ ⟨hI, h⟩ => ?_
          exact ⟨hI, ⟨h.run, h.count.trans (Nat.zero_le 1), h.session⟩, _, rfl⟩
      · exact ⟨hI, h⟩

end Attach

/-! ## The script -/

def NotRunning (run : ActionRun) : Prop := run.status ≠ .running

theorem stable_notRunning : Stable NotRunning := stable_status (· ≠ .running)

theorem Step.trans (h : Step i s t) {u : Runner} (h' : Step i t u) : Step i s u :=
  ⟨h'.1, Async.Pool.guarantee_trans relies i s t u h.2 h'.2⟩

theorem step_setOutcome (hI : s.Inv) (hc : i ∉ s.cancelling) {status : Status} (hst : status ≠ .running)
    (error : Option Text) : Step i s (s.setOutcome i status error) :=
  step_updateRun hI (fun _ _ => ⟨rfl, rfl, Iff.rfl, fun h => absurd h hst⟩) fun h => absurd h hc

theorem finished_publish {run : ActionRun} {e : Event} (he : e.name ≠ finishedName) :
    { run with events := run.events ++ [e] }.Finished ↔ run.Finished :=
  finished_append rfl fun e' he' => by rwa [List.mem_singleton.mp he']

theorem step_publish (hI : s.Inv) {e : Event} (he : e.name ≠ finishedName) : Step i s (s.publish i e) :=
  step_updateRun hI (fun _ _ => ⟨rfl, rfl, finished_publish he, id⟩) fun _ _ _ => rfl

theorem Stage.setOutcome {n : Nat} {P : ActionRun → Prop} {b : Bool} (h : Stage i l n P b s) {status : Status}
    (hst : status ≠ .running) (error : Option Text) : Stage i l n NotRunning b (s.setOutcome i status error) :=
  h.updateRun fun _ hl hfin _ => ⟨hl, hfin, hst, rfl, fun _ => id⟩

theorem Stage.publish {n : Nat} {P : ActionRun → Prop} {b : Bool} (h : Stage i l n P b s)
    (hP : ∀ run events, P run → P { run with events := events }) {e : Event} (he : e.name ≠ finishedName) :
    Stage i l n P b (s.publish i e) := by
  refine h.updateRun fun run hl hfin hp => ⟨hl, mt (finished_publish he).mp hfin, hP run _ hp, rfl, ?_⟩
  rintro c ⟨previous, hmem⟩
  exact ⟨previous, List.mem_append_left _ hmem⟩

theorem ne_finishedName {p : Text} (hp : ¬ p <+: finishedName) (x : Text) : p ++ x ≠ finishedName :=
  fun h => hp (h ▸ List.prefix_append p x)

/-- Each `except` clause sets an outcome, and reports a line of its own. -/
theorem scriptFailed_eq (e : Exn) : ∃ status error name, status ≠ .running ∧ name ≠ finishedName ∧
    s.scriptFailed i l e = (s.setOutcome i status error).publish i (.script name) := by
  cases e with
  | timeout => exact ⟨.timeout, _, _, by simp, ne_finishedName (by decide) _, rfl⟩
  | cancelled => exact ⟨.cancelled, _, _, by simp, ne_finishedName (by decide) _, rfl⟩
  | busy message => exact ⟨.failed, _, _, by simp, ne_finishedName (by decide) _, rfl⟩
  | other kind message =>
      refine ⟨.failed, _, _, by simp, ?_, rfl⟩
      simp only [List.append_assoc]
      exact ne_finishedName (by decide) _

/-- What the script ends in, however it ends. -/
theorem ok_script (h : Stage i l 1 Running true s) :
    Ok i (fun t _ => t.Inv ∧ Stage i l 1 Running true t ∧ i ∉ t.cancelling)
      (fun t _ => t.Inv ∧ Stage i l 1 Running true t ∧ i ∉ t.cancelling) script s := by
  intro t hI hR signal hA
  have hpost := And.intro hI (And.intro (h.rely stable_running hR) hA.1)
  cases signal with
  | value result => exact hpost
  | raised e => exact hpost

theorem ok_runScript (h : Stage i l 1 Running true s) :
    Ok i (fun t _ => t.Inv ∧ Stage i l 1 NotRunning true t) E (runScript i l) s := by
  unfold runScript
  refine Async.safe_tryCatch.mpr (Async.safe_bind.mpr ((ok_script h).mono ?_ ?_))
  · rintro t r ⟨hI, h, hc⟩
    have hstep := step_setOutcome hI hc (by simp : Status.success ≠ .running) none
    exact ⟨hstep.1, hstep.2, hstep.1, h.setOutcome (by simp) none⟩
  · rintro t e ⟨hI, h, hc⟩
    obtain ⟨status, error, name, hst, hname, heq⟩ := scriptFailed_eq (s := t) (i := i) (l := l) e
    have hset := step_setOutcome hI hc hst error
    have hstep := hset.trans (step_publish hset.1 (e := .script name) hname)
    have hstage := (h.setOutcome hst error).publish (fun _ _ => id) (e := .script name) hname
    rw [← heq] at hstep hstage
    exact ⟨hstep.1, hstep.2, hstep.1, hstage⟩

theorem ok_attachAndRun (hI : s.Inv) (h : Stage i l 1 Untouched false s) :
    Ok i (fun t _ => t.Inv ∧ Stage i l 1 NotRunning true t) (Busy i l) (attachAndRun i l) s := by
  unfold attachAndRun
  refine ok_bind (ok_attachReadWrite hI h) fun t _ ⟨hI, h⟩ => ?_
  have hname : Event.actionStarted.name ≠ finishedName := by
    change "action_started".toList ≠ "action_finished".toList
    decide
  refine ok_modify (step_publish hI hname) fun hI => ?_
  refine ok_guarded (fun _ _ hs hr => hs.rely stable_running hr) (fun _ hs => hs.quiet (.inl rfl))
    (h.publish (fun _ _ => id) hname) fun t _ hI h => ?_
  refine ok_modify (step_openSession hI h.known) fun hI => ok_runScript ?_
  exact ⟨h.run, h.count, by simp⟩

/-! ## The restore -/

/-- The run is not running, and owes this restore. -/
def Owes (o : Option Text) (run : ActionRun) : Prop := run.status ≠ .running ∧ run.autoDemotedClientId = o

theorem stable_owes {o : Option Text} : Stable (Owes o) := by
  intro reporting run run' hext h
  exact ⟨hext.status ▸ h.1, (hext.pending.resolve_right fun hp => h.1 hp.1).trans h.2⟩

section Restore

variable {b : Bool} {n : Nat} {c : Text} {o : Option Text}

theorem Stage.owes (h : Stage i l n NotRunning b s) : Stage i l n (Owes (s.autoDemoted i)) b s := by
  obtain ⟨run, hrun, hlaunch, hfin, hp, hdemoted⟩ := h.run
  exact ⟨⟨run, hrun, hlaunch, hfin, ⟨hp, by simp [autoDemoted, hrun]⟩, hdemoted⟩, h.count, h.session⟩

theorem Stage.autoDemoted_eq (h : Stage i l n (Owes o) b s) : s.autoDemoted i = o := by
  obtain ⟨run, hrun, -, -, hp, -⟩ := h.run
  simp [autoDemoted, hrun, hp.2]

theorem owes_quiet : b = false ∨ ∀ run, Owes o run → run.status ≠ .running := .inr fun _ h => h.1

/-- What the restore leaves: the client of the run is gone, and whom it owed a restore was offered it. -/
def Settled (i : Text) (l : Launch) (b : Bool) (t : Runner) : Prop :=
  t.Inv ∧ ∃ o, Stage i l 0 (Owes o) b t ∧ ∀ c, o = some c → t.Offered i l.portName c

theorem ok_promoteBack (hI : s.Inv) (h : Stage i l 0 (Owes (some c)) b s) :
    Ok i (fun t _ => Settled i l b t) E (promoteBack i l) s := by
  unfold promoteBack
  refine ok_get hI ?_
  rw [h.autoDemoted_eq]
  refine ok_call hI h.known fun hI => ?_
  refine (ok_notifyClientMode stable_owes owes_quiet hI (h.perform_le (fun _ => by simp) (by simp))).mono ?_ fun _ _ => id
  rintro t r ⟨hI, h, hcalls⟩
  refine ⟨hI, some c, h, fun c' hc' => ?_⟩
  cases hc'
  exact ⟨⟨i, .promote c, s.console⟩, hcalls _ (by simp [perform]), rfl, .inl rfl⟩

theorem ok_restoreDenied (hI : s.Inv) (h : Stage i l 0 (Owes (some c)) b s) :
    Ok i (fun t _ => Settled i l b t) E (restoreDenied i l) s := by
  unfold restoreDenied
  refine ok_get hI ?_
  rw [h.autoDemoted_eq]
  refine (ok_notifyClientMode stable_owes owes_quiet hI h).mono ?_ fun _ _ => id
  rintro t r ⟨hI, h, hcalls⟩
  refine ⟨hI, some c, h, fun c' hc' => ?_⟩
  cases hc'
  exact ⟨⟨i, .tell c .actionRestoreDenied, s.console⟩, hcalls _ (by simp [perform]), rfl, .inr (.inl rfl)⟩

theorem ok_detachAndRestore (hI : s.Inv) (h : Stage i l 1 NotRunning b s) :
    Ok i (fun t _ => Settled i l b t) E (detachAndRestore i l) s := by
  unfold detachAndRestore
  refine ok_bind (ok_removeActionClient stable_notRunning (.inr fun _ => id) hI h) fun t _ ⟨hI, h⟩ => ok_get hI ?_
  have howes := h.owes
  cases hc : t.autoDemoted i with
  | none => exact ⟨hI, none, hc ▸ howes, fun c h => by cases h⟩
  | some c =>
      rw [hc] at howes
      refine ok_call hI h.known fun hI => ?_
      have hstage := howes.perform_le (x := .attached c) (fun _ => by simp) (by simp)
      split
      · refine ok_get hI ?_
        split
        · refine ok_bind (ok_requestOriginGrant stable_owes owes_quiet hI hstage) fun u granted ⟨hI, h⟩ => ?_
          split
          · exact ok_promoteBack hI h
          · exact ok_restoreDenied hI h
        · exact ok_promoteBack hI hstage
      · rename_i hgone
        refine ⟨hI, some c, hstage, fun c' hc' => ?_⟩
        cases hc'
        exact ⟨⟨i, .attached c, t.console⟩, by simp [perform], rfl, .inr (.inr ⟨rfl, by simpa [perform, Call.apply] using hgone⟩)⟩

theorem ended_release (h : Stage i l 0 (Owes o) b s) (ho : ∀ c, o = some c → s.Offered i l.portName c) :
    Ended i (s.release i l) := by
  obtain ⟨run, hrun, rfl, hfin, hp, hdemoted⟩ := h.run
  refine ⟨by simp [release], _, get?_release hrun, hp.1, ?_, Nat.le_zero.mp h.count, fun c hc => ?_, ?_⟩
  · change (s.activeByPort.pop run.launch.portName).get? run.launch.portName ≠ some i
    simp
  · obtain ⟨c', hc', hwho⟩ := hdemoted c hc
    refine ⟨c', hc', hwho.imp_right ?_, ho c' (hp.2.symm.trans hc')⟩
    rintro ⟨previous, hmem⟩
    exact ⟨previous, List.mem_append_left _ hmem⟩
  · exact ⟨run.events, run.status, run.error, [], rfl, fun e he hname => hfin ⟨e, he, hname⟩, by simp⟩

theorem ok_cleanup (hI : s.Inv) (h : Stage i l 1 NotRunning b s) : Ok i (fun t _ => Ended i t) E (cleanup i l) s := by
  unfold cleanup
  refine ok_bind (ok_detachAndRestore hI h) fun t _ ⟨hI, o, h, ho⟩ => ?_
  obtain ⟨run, hrun, hlaunch, hfin, hp, -⟩ := h.run
  refine ok_modify (hlaunch ▸ step_release hI hrun hfin hp.1) fun hI => ?_
  exact ok_guarded (fun _ _ hs hr => hs.rely hr) (fun _ hs hin => hs.1 (inScript_iff.mp hin).1) (ended_release h ho)
    fun t _ _ hs => hs

end Restore

/-- A task that runs leaves its run released, and raises nothing. -/
theorem ok_execute (hI : s.Inv) (h : Stage i l 1 Untouched false s) :
    Ok i (fun t _ => Ended i t) (fun _ _ => False) (execute i l) s := by
  unfold execute
  refine Async.safe_tryFinally.mpr (Async.safe_tryCatch.mpr ((ok_attachAndRun hI h).mono ?_ ?_))
  · rintro t r ⟨hI, h⟩
    exact ok_cleanup hI h
  · rintro t e ⟨hI, h, message, rfl⟩
    have hc : i ∉ t.cancelling := fun hc => h.quiet (.inl rfl) (hI.cancelling i hc)
    have hstep := step_setOutcome hI hc (by simp : Status.failed ≠ .running) (some message)
    exact ⟨hstep.1, hstep.2, ok_cleanup hstep.1 (h.setOutcome (by simp) _)⟩

end OpenMux.Actions.Runner
