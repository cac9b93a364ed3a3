import OpenMux.Actions.Lemmas.Expect
import OpenMux.Actions.Lemmas.Launch
import OpenMux.Actions.Lemmas.Operations
import OpenMux.Actions.Lemmas.Prompts
import OpenMux.Actions.Lemmas.Viewers
import OpenMux.Lib.Run

/-!
# Runs end and release their ports
-/

namespace OpenMux.Actions

open Py Origin Access Transition Runner

/-! ## Every run is released -/

theorem inv_boot (policy : Policy) (ports : Dict Text Port) (links : Dict Text Bool) : (boot policy ports links).Inv where
  unfinished i run h := by cases h
  active name i h := by cases h
  openFinished name i h := by cases h
  cancelling i h := by cases h
  fresh i _ name := by
    simp only [boot, records, Dict.get?_mapValues]
    cases ports.get? name <;> simp
  outcome i run h := by cases h
  seated i h := by cases h
  logged r h := by cases h

theorem accept_allowed {s t : Runner} {i : Text} {signal : Signal} (hI : s.Inv) (h : s.accept i signal = some t) :
    t.Inv ∧ (∀ k, Rely k s t) ∧ Allowed i t signal := by
  have hsound := sound_cancelling hI (s.cancelling.filter (· ≠ i)) fun j hj =>
    hI.cancelling j (List.mem_filter.mp hj).1
  have hclear : i ∉ s.cancelling.filter (· ≠ i) := by simp
  unfold accept at h
  split at h
  · cases h
    exact ⟨hsound.1, hsound.2, hclear, fun e he => by cases he⟩
  · split at h
    · rename_i hcond
      cases h
      refine ⟨hsound.1, hsound.2, hclear, fun e _ => ?_⟩
      exact hcond.elim (hI.cancelling i) id
    · cases h
  · split at h
    · cases h
      exact ⟨hsound.1, hsound.2, hclear, fun e _ => ‹_›⟩
    · cases h

theorem apply_sound {s t : Runner} {o : Op} {spawn : Option (Text × (Signal → RunTask Unit))} (hI : s.Inv) (hC : s.Orderly o)
    (h : s.apply o = some (t, spawn)) : Async.Pool.OpSound Known Inv Rely Allowed Ended s t spawn := by
  cases o with
  | launch i l valid =>
      simp only [apply] at h
      split at h
      · cases h
      · rename_i hnew
        have hnone : s.runs.get? i = none := by simpa using hnew
        simp only [launchRun, Option.some.injEq] at h
        split at h
        · cases h
          exact opSound_of_sound ⟨hI, fun _ => .refl⟩
        · rename_i hfree
          have hprior := sound_closePrior hI l.portName
          have hfree' : (s.closePrior l.portName).getActiveRun l.portName = none :=
            getActiveRun_closePrior hI (Option.not_isSome_iff_eq_none.mp hfree)
          split at h
          · cases h
            exact opSound_of_sound hprior
          · cases h
            exact opSound_after hprior (opSound_launch hprior.1 ((hprior.2 i).known hnone) hfree')
  | cancel i clientId =>
      cases h
      exact opSound_of_sound (sound_cancelRun hI hC)
  | close i clientId =>
      cases h
      exact opSound_of_sound (sound_closeRun hI hC)
  | takeOver i clientId =>
      cases h
      exact opSound_of_sound (sound_takeOver hI)
  | submit i text clientId =>
      cases h
      exact opSound_of_sound (sound_submit hI)
  | report i name =>
      simp only [apply] at h
      split at h
      · cases h
        exact opSound_of_sound (sound_report hI ‹_› hC)
      · cases h
  | link name up =>
      cases up <;> (cases h; exact opSound_of_sound (sound_links hI _))
  | env e =>
      obtain ⟨c, hc, heq⟩ := Option.map_eq_some_iff.mp h
      cases heq
      exact opSound_of_sound (sound_console hI fun name i => records_env hc)

theorem sound_start (policy : Policy) (ports : Dict Text Port) (links : Dict Text Bool) :
    ({ state := boot policy ports links } : System).Sound Known Inv Rely Allowed Ended where
  state := inv_boot policy ports links
  known i rest h := by cases h
  tasks i rest h := by cases h
  ended i hk := by cases hk

/-- Along orderly steps, whatever the order: a run whose task is finished is released; two runs of one port are not both
under way, and one that is under way holds the lock of its port; a closed run is not in the registry of open ones. -/
theorem runs_released {policy : Policy} {ports : Dict Text Port} {links : Dict Text Bool} {as : List Act} {p : System}
    (hC : Along System.step System.Orderly { state := boot policy ports links } as)
    (hrun : exec System.step { state := boot policy ports links } as = some p) :
    (∀ i run, p.state.runs.get? i = some run → p.tasks.get? i = none → p.state.Released i run) ∧
    (∀ i run, p.state.runs.get? i = some run → run.status = .running ∨ ¬ run.Finished →
      p.state.activeByPort.get? run.launch.portName = some i) ∧
    ∀ name i, p.state.openFinishedByPort.get? name = some i →
      ∃ run, p.state.runs.get? i = some run ∧ run.closed = false := by
  have hsound := (sound_start policy ports links).exec relies (C := System.Orderly)
    (fun p i signal s hI _ h => accept_allowed hI h) (fun p o s spawn hI hC h => apply_sound hI hC h) hC hrun
  refine ⟨fun i run hi ht => ?_, fun i run hi hrunning => ?_, fun name i h => ?_⟩
  · obtain ⟨-, run', hrun', hreleased⟩ := hsound.ended i (by simp [Known, hi]) ht
    cases hi.symm.trans hrun'
    exact hreleased
  · refine (hsound.state.unfinished i run hi ?_).1
    exact hrunning.elim (fun hst hfin => hsound.state.outcome i run hi hfin hst) id
  · obtain ⟨run, hrun', -, hclosed, -⟩ := hsound.state.openFinished name i h
    exact ⟨run, hrun', hclosed⟩

/-! ## A restore that follows the role -/

/-- Two users who may write everywhere, and a port with one slot. -/
def writers : Policy where
  access := { accessDefault := some "allow", getUserGroups := fun _ => [] }
  getUserPermissions _ := some "read-write"

def tty : Text := "ttyUSB0".toList

def alice : Text := "web-alice".toList

def bob : Text := "web-bob".toList

def run1 : Text := "5f0c2ab91d3e".toList

def backup : Launch := { portName := tty, actionId := "backup".toList, username := "alice", requestingClientId := some alice }

def oneSlot : System where
  state := boot writers (Dict.empty.set tty { adapterType := "serial".toList }) ∅

/-- Alice launches a script on the port that she writes to, and Bob takes the run over before it ends. -/
def handover : List Act :=
  [.op (.env (.attach tty alice "alice" .readWrite)), .op (.env (.attach tty bob "bob" .readOnly)),
    .op (.launch run1 backup true), .signal run1 (.value true), .signal run1 (.value true), .signal run1 (.value true),
    .op (.takeOver run1 bob), .signal run1 (.value true), .signal run1 (.value true), .signal run1 (.value true)]

/-- The calls of the run, in order. -/
def callsOf (p : System) : List (Text × Call) := p.state.calls.map fun r => (r.runId, r.call)

theorem exec_handover : ∃ p, exec System.step oneSlot handover = some p ∧ p.tasks.get? run1 = none ∧
    (p.state.runs.get? run1).isSome = true ∧ callsOf p = [(run1, .add), (run1, .demote alice),
      (run1, .tell alice .actionSelfDemoted), (run1, .add), (run1, .remove), (run1, .attached bob), (run1, .promote bob),
      (run1, .tell bob .actionRestored)] := ⟨_, rfl, rfl, rfl, rfl⟩

theorem handover_orderly : Along System.step System.Orderly oneSlot handover := by
  refine .of_forall fun a ha s => ?_
  simp only [handover, List.mem_cons, List.not_mem_nil, or_false] at ha
  rcases ha with rfl | rfl | rfl | rfl | rfl | rfl | rfl | rfl | rfl | rfl <;> trivial

theorem runs_released_handover : ∃ p run, exec System.step oneSlot handover = some p ∧
    p.state.runs.get? run1 = some run ∧ p.state.Released run1 run := by
  obtain ⟨p, hexec, htask, hsome, -⟩ := exec_handover
  obtain ⟨run, hrun⟩ := Option.isSome_iff_exists.mp hsome
  exact ⟨p, run, hexec, hrun, (runs_released handover_orderly hexec).1 run1 run hrun htask⟩

/-- Alice, whom the run has demoted, is not offered her restore: it has moved to Bob with the role. -/
theorem runs_released_fails : ∃ p, exec System.step oneSlot handover = some p ∧ p.tasks.get? run1 = none ∧
    p.state.Demoted run1 alice ∧ ¬ p.state.Offered run1 tty alice := by
  obtain ⟨p, hexec, htask, -, hcalls⟩ := exec_handover
  have hmem : ∀ r ∈ p.state.calls, (r.runId, r.call) ∈ callsOf p := fun r hr => List.mem_map_of_mem hr
  refine ⟨p, hexec, htask, ?_, ?_⟩
  · have hdemote : (run1, Call.demote alice) ∈ callsOf p := by
      rw [hcalls]
      simp
    obtain ⟨r, hr, heq⟩ := List.mem_map.mp hdemote
    exact ⟨r, hr, congrArg Prod.fst heq, congrArg Prod.snd heq⟩
  · rintro ⟨r, hr, -, hcall⟩
    have hr := hmem r hr
    rw [hcalls] at hr
    have halice : alice ≠ bob := by decide
    rcases hcall with hcall | hcall | ⟨hcall, -⟩ <;> simp [hcall, halice] at hr

/-! ## A launch checks before it acts -/

namespace Launcher

variable (b : Builtins) (s : Launcher) (runId : Text) (action : ActionScript) (l : Launch) (raw : Dict Text Tree)

/-- A launch leaves everything as it is where it is refused, and gives its script what is declared otherwise, exactly if the port is
busy, or the parameters are not valid and there is no finished run to settle, or they are and fit their declarations. -/
theorem launchSafe_iff : s.LaunchSafe b runId action l raw ↔ s.LaunchFits b action l raw := by
  by_cases hbusy : (s.runner.getActiveRun l.portName).isSome = true
  · have hlaunch : s.launchRun b runId action l raw = (s, .error (.busy l.portName)) := if_pos hbusy
    apply iff_of_true
    · constructor
      · intro t e h
        rw [hlaunch] at h
        cases h
        rfl
      · intro t validated h
        rw [hlaunch] at h
        cases h
    · exact .inl hbusy
  · cases hvalid : action.validateParams b raw with
    | error e =>
        have hlaunch : s.launchRun b runId action l raw = (s.settle l.portName, .error e) := by
          rw [launchRun, if_neg hbusy]
          simp only [hvalid]
        constructor
        · intro h
          apply Or.inr
          rw [hvalid]
          exact settle_eq_iff.mp (h.refused _ e hlaunch)
        · intro h
          have hnone : s.runner.openFinishedByPort.get? l.portName = none := by
            have hfits := h.resolve_left hbusy
            rwa [hvalid] at hfits
          constructor
          · intro t e' ht
            rw [hlaunch, settle_eq_iff.mpr hnone] at ht
            cases ht
            rfl
          · intro t validated ht
            rw [hlaunch] at ht
            cases ht
    | ok validated =>
        have hlaunch : ∃ t, s.launchRun b runId action l raw = (t, .ok validated) ∧ t.tasks.get? runId = some validated := by
          rw [launchRun, if_neg hbusy]
          simp only [hvalid]
          exact ⟨_, rfl, Dict.get?_set_self ..⟩
        obtain ⟨t, ht, htask⟩ := hlaunch
        constructor
        · intro h
          apply Or.inr
          rw [hvalid]
          exact (conforms_iff hvalid).mp (h.launched t validated ht).2
        · intro h
          have hfits := h.resolve_left hbusy
          rw [hvalid] at hfits
          constructor
          · intro t' e ht'
            rw [ht] at ht'
            cases ht'
          · intro t' validated' ht'
            rw [ht] at ht'
            cases ht'
            exact ⟨htask, (conforms_iff hvalid).mpr hfits⟩

/-- Conversions of values that hold neither floats nor objects. -/
def plainBuiltins : Builtins where
  str _ := .error .other
  int _ := .error .typeOrValue
  float _ := .error .typeOrValue

/-- A port with a finished run that nobody has closed. -/
def finished : Launcher where
  runner := {
    console := oneSlot.state.console
    runs := Dict.empty.set run1 { launch := backup, status := .success }
    openFinishedByPort := Dict.empty.set tty run1 }

def image : Text := "image".toList

def flash : ActionScript where
  id := "flash".toList
  params := [{ name := image, widget := .select, choices := ["stable".toList, "beta".toList] }]

/-- A launch without its required parameter closes the finished run of the port; one with a value that is none of the choices is not
refused. -/
theorem launchSafe_fails :
    ¬ finished.LaunchSafe plainBuiltins "8c11d0a7e2b4".toList flash backup ∅ ∧
      ¬ Launcher.LaunchSafe plainBuiltins ⟨oneSlot.state, ∅, ∅, ∅, []⟩ "8c11d0a7e2b4".toList flash backup
        (Dict.empty.set image (.str "nightly".toList)) := by
  constructor
  · intro h
    have hclosing := congrArg closing (h.refused _ _ rfl)
    exact absurd hclosing (by decide)
  · intro h
    obtain ⟨v, hv, hs⟩ := (h.launched _ _ rfl).2.satisfied image _ rfl
    cases hv
    obtain ⟨t, hmem, ht⟩ := hs.chosen (by decide) (by simp)
    cases ht
    exact absurd hmem (by decide)

end Launcher

/-! ## What a script reads -/

namespace Ledger

/-- After any run of a session its buffer holds exactly the bytes after those that were consumed, exactly if every match of the run was
exact. -/
theorem expect_consumes {t : Ledger} {run : List ReadAct} (h : exec step {} run = some t) : t.Whole ↔ Along step Clean {} run := by
  have hstart : Whole {} := rfl
  have hrun := exec_iff_along (fun s a u hs hu => whole_step (s := s) (t := u) hs hu) (.inl hstart) h
  rw [hrun]
  exact and_iff_right hstart

/-- A pattern that matches the first occurrence of a character. -/
def charPattern (c : Char) : Regex where
  search t := if c ∈ t then some (t.idxOf c, t.idxOf c + 1) else none
  bounds t start stop h := by
    split at h
    · rename_i hc
      cases h
      exact ⟨Nat.le_succ _, List.idxOf_lt_length_of_mem hc⟩
    · cases h

/-- A prompt after text with a character of two bytes, in two chunks that cut it. -/
def promptRun : List ReadAct :=
  [.deliver [0x68, 0xC3], .deliver [0xA9, 0x24, 0x20], .expect (charPattern '$'), .receive, .receive]

theorem expect_consumes_prompt : Along step Clean {} promptRun := by
  have hrun : (exec step {} promptRun).any (fun t => t.used ++ t.session.buffer = t.taken) = true := by decide
  obtain ⟨t, hexec, hwhole⟩ := (Option.any_eq_true _ _).mp hrun
  have hbytes : t.used ++ t.session.buffer = t.taken := by simpa using hwhole
  exact (expect_consumes hexec).mp hbytes

/-- A byte that is no UTF-8 takes the two bytes after the match with it. -/
theorem expect_consumes_fails : ∃ t, exec step {} [.deliver [0xFF, 0x24, 0x6F, 0x6B], .expect (charPattern '$'), .receive] = some t ∧
    t.session.buffer = [] ∧ t.used = [0xFF, 0x24] ∧ t.taken = [0xFF, 0x24, 0x6F, 0x6B] :=
  ⟨_, rfl, by decide, by decide, by decide⟩

end Ledger

/-! ## What a script asks -/

namespace PromptRun

/-- In any run of a script its prompts return what was submitted to them, and its events tell them, exactly if no text was waiting when a
prompt opened that was answered, and none was cancelled. -/
theorem prompts_faithful {t : PromptRun} {run : List PromptAct} (h : exec step {} run = some t) :
    t.Faithful ↔ Along step Clean {} run := by
  have hstart : Faithful {} := ⟨fun a ha => absurd ha (by simp), .nil, rfl⟩
  have hrun := exec_iff_along (fun s a u hs hu => faithful_step (s := s) (t := u) hs hu) inv_start h
  rw [hrun]
  exact and_iff_right hstart

def goOn : Prompt := .confirm "Continue?".toList "none".toList false

def erase : Prompt := .confirm "Erase the flash?".toList "red".toList true

/-- One prompt is answered and the next is not. -/
def oneAnswer : List PromptAct := [.prompt goOn, .submit "yes".toList, .answer, .prompt erase, .expire]

theorem prompts_faithful_answer : ∃ t, exec step {} oneAnswer = some t ∧ t.Faithful := by
  have hclean : Along step Clean {} oneAnswer := by decide
  obtain ⟨t, ht⟩ := Option.isSome_iff_exists.mp (show (exec step {} oneAnswer).isSome = true by decide)
  exact ⟨t, ht, (prompts_faithful ht).mpr hclean⟩

/-- The second click on one prompt confirms the next. -/
theorem prompts_faithful_fails :
    ∃ t, exec step {} [.prompt goOn, .submit "yes".toList, .submit "yes".toList, .answer, .prompt erase, .answer] = some t ∧
      (2, ⟨"yes".toList, 1, some 1⟩) ∈ t.answers ∧ ¬ t.Faithful := by
  have hrun : (exec step {} [.prompt goOn, .submit "yes".toList, .submit "yes".toList, .answer, .prompt erase, .answer]).any
      (fun t => (2, ⟨"yes".toList, 1, some 1⟩) ∈ t.answers) = true := by decide
  obtain ⟨t, ht, hmem⟩ := (Option.any_eq_true _ _).mp hrun
  have hmem := of_decide_eq_true hmem
  exact ⟨t, ht, hmem, fun h => absurd (h.during _ hmem) (by decide)⟩

end PromptRun

/-! ## What a viewer is told -/

namespace EventRun

/-- A viewer joins after the first event. -/
def lateJoin : List ViewAct :=
  [.publish .actionStarted, .join, .publish (.script "version: 15.2".toList), .send, .settle, .send, .finish .success none, .forget, .send]

end EventRun

end OpenMux.Actions
