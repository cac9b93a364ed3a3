import OpenMux.Actions.Prompts

/-!
# Prompts and their answers
-/

namespace OpenMux.Actions

open Py

namespace PromptRun

variable {s t : PromptRun} {o : OpenPrompt} {p : Prompt} {x : Submitted} {xs : List Submitted} {a : PromptAct}

/-! ## Events -/

theorem recorded_openPrompt (h : s.opened = none) : (s.openPrompt p).Recorded ↔ s.Recorded := by
  simp [Recorded, openPrompt, h]

/-- A close with the id of the open prompt is what its event waits for. -/
theorem recorded_close (h : s.opened = some o) (hid : s.pendingPromptId = some o.id) (reason : PromptEnd) :
    ((s.closePrompt reason).leave o reason).Recorded ↔ s.Recorded := by
  have hevents : s.ended.flatMap frames ++ [.waitingForOperator o.id o.prompt, .operatorPromptClosed (some o.id) reason] =
      (s.ended.flatMap frames ++ [.waitingForOperator o.id o.prompt]) ++ [.operatorPromptClosed (some o.id) reason] := by
    simp
  simp only [Recorded, leave, closePrompt, h, hid, List.flatMap_append, List.flatMap_singleton, frames, Option.toList_none,
    Option.toList_some, List.map_nil, List.map_cons, List.append_nil]
  rw [hevents, List.append_cancel_right_eq]

def isClose : PromptEvent → Bool
  | .operatorPromptClosed _ _ => true
  | .waitingForOperator _ _ => false

theorem countP_frames (es : List EndedPrompt) : (es.flatMap frames).countP isClose = es.length := by
  induction es with
  | nil => rfl
  | cons e es ih => simp [frames, isClose, List.countP_cons, ih, Nat.add_comm]

/-- The events of a run that tells its prompts close as many as have ended. -/
theorem Recorded.countP (h : s.Recorded) : s.events.countP isClose = s.ended.length := by
  rw [h, List.countP_append, countP_frames]
  cases s.opened <;> simp [isClose]

/-! ## The queue -/

structure Inv (s : PromptRun) : Prop where
  before : ∀ x ∈ s.operatorInput, ∀ i, x.during = some i → i ≤ s.promptSeq
  current : ∀ o, s.opened = some o → o.id ≤ s.promptSeq ∧ s.pendingPromptId = some o.id
  clear : ∀ o, s.opened = some o → o.clear = true → ∀ x ∈ s.operatorInput, x.during = some o.id
  stale : ∀ o, s.opened = some o → o.clear = false → ∃ x xs, s.operatorInput = x :: xs ∧ x.during ≠ some o.id
  nodup : (s.answers.map (·.2.number) ++ s.operatorInput.map (·.number)).Nodup
  number_lt : ∀ n ∈ s.answers.map (·.2.number) ++ s.operatorInput.map (·.number), n < s.submissions
  closed : s.events.countP isClose ≤ s.ended.length

theorem inv_start : Inv {} where
  before x hx := by cases hx
  current o h := by cases h
  clear o h := by cases h
  stale o h := by cases h
  nodup := .nil
  number_lt n hn := by cases hn
  closed := le_rfl

theorem Inv.openPrompt (hs : s.Inv) : (s.openPrompt p).Inv where
  before x hx i hi := Nat.le_succ_of_le (hs.before x hx i hi)
  current o h := by
    cases h
    exact ⟨le_rfl, rfl⟩
  clear o h hclear x hx := by
    cases h
    have hempty : s.operatorInput = [] := List.isEmpty_iff.mp hclear
    have hx : x ∈ s.operatorInput := hx
    rw [hempty] at hx
    cases hx
  stale o h hclear := by
    cases h
    cases hq : s.operatorInput with
    | nil => simp [hq] at hclear
    | cons x xs =>
        refine ⟨x, xs, hq, fun hid => ?_⟩
        have hle := hs.before x (by rw [hq]; exact List.mem_cons_self) _ hid
        exact absurd hle (Nat.not_succ_le_self _)
  nodup := hs.nodup
  number_lt := hs.number_lt
  closed := by simpa [PromptRun.openPrompt, isClose] using hs.closed

theorem Inv.submit (hs : s.Inv) (text : Text) : (s.submitOperatorInput text).Inv where
  before x hx i hi := by
    rcases List.mem_append.mp hx with hx | hx
    · exact hs.before x hx i hi
    · cases List.mem_singleton.mp hx
      obtain ⟨o, ho, rfl⟩ := Option.map_eq_some_iff.mp hi
      exact (hs.current o ho).1
  current := hs.current
  clear o h hclear x hx := by
    rcases List.mem_append.mp hx with hx | hx
    · exact hs.clear o h hclear x hx
    · cases List.mem_singleton.mp hx
      exact congrArg (Option.map (·.id)) h
  stale o h hclear := by
    obtain ⟨x, xs, hq, hx⟩ := hs.stale o h hclear
    exact ⟨x, _, by rw [submitOperatorInput, hq]; rfl, hx⟩
  nodup := by
    have hfresh : s.submissions ∉ s.answers.map (·.2.number) ++ s.operatorInput.map (·.number) := fun hm =>
      lt_irrefl _ (hs.number_lt _ hm)
    rw [submitOperatorInput, List.map_append, ← List.append_assoc]
    exact List.nodup_append.mpr ⟨hs.nodup, List.nodup_singleton _, fun n hn m hm => by
      cases List.mem_singleton.mp hm
      rintro rfl
      exact hfresh hn⟩
  number_lt n hn := by
    rw [submitOperatorInput, List.map_append, ← List.append_assoc] at hn
    rcases List.mem_append.mp hn with hn | hn
    · exact Nat.lt_succ_of_lt (hs.number_lt n hn)
    · cases List.mem_singleton.mp hn
      exact Nat.lt_succ_self _
  closed := hs.closed

theorem Inv.answer (hs : s.Inv) (hq : s.operatorInput = x :: xs) :
    (({ s with operatorInput := xs, answers := s.answers ++ [(o.id, x)] }.closePrompt .answered).leave o .answered).Inv := by
  have hnumbers : s.answers.map (·.2.number) ++ s.operatorInput.map (·.number) =
      (s.answers ++ [(o.id, x)]).map (·.2.number) ++ xs.map (·.number) := by
    simp [hq]
  constructor
  · intro y hy
    exact hs.before y (by rw [hq]; exact List.mem_cons_of_mem _ hy)
  · intro o' h
    cases h
  · intro o' h
    cases h
  · intro o' h
    cases h
  · exact hnumbers ▸ hs.nodup
  · exact hnumbers ▸ hs.number_lt
  · simpa [leave, closePrompt, isClose] using hs.closed

theorem Inv.expire (hs : s.Inv) : ((s.closePrompt .expired).leave o .expired).Inv where
  before := hs.before
  current o h := by cases h
  clear o h := by cases h
  stale o h := by cases h
  nodup := hs.nodup
  number_lt := hs.number_lt
  closed := by simpa [leave, closePrompt, isClose] using hs.closed

theorem Inv.cancel (hs : s.Inv) : (s.leave o .cancelled).Inv where
  before := hs.before
  current o h := by cases h
  clear o h := by cases h
  stale o h := by cases h
  nodup := hs.nodup
  number_lt := hs.number_lt
  closed := by
    rw [leave, List.length_append]
    exact Nat.le_succ_of_le hs.closed

theorem Inv.elsewhere (hs : s.Inv) : Inv { s with promptSeq := s.promptSeq + 1 } where
  before x hx i hi := Nat.le_succ_of_le (hs.before x hx i hi)
  current o h := ⟨Nat.le_succ_of_le (hs.current o h).1, (hs.current o h).2⟩
  clear := hs.clear
  stale := hs.stale
  nodup := hs.nodup
  number_lt := hs.number_lt
  closed := hs.closed

theorem Inv.finish (hs : s.Inv) (h : s.opened = none) : Inv { s with running := false, pendingPromptId := none } where
  before := hs.before
  current o ho := by
    rw [h] at ho
    cases ho
  clear := hs.clear
  stale := hs.stale
  nodup := hs.nodup
  number_lt := hs.number_lt
  closed := hs.closed

/-! ## Steps -/

theorem Inv.once (hs : s.Inv) : (s.answers.map (·.2.number)).Nodup := (List.nodup_append.mp hs.nodup).1

/-- Where a prompt opened with no text waiting, and only there, it gets a text that was submitted to it. -/
theorem Inv.head_during (hs : s.Inv) (ho : s.opened = some o) (hq : s.operatorInput = x :: xs) :
    x.during = some o.id ↔ o.clear = true := by
  constructor
  · intro h
    by_contra hclear
    obtain ⟨y, ys, hy, hne⟩ := hs.stale o ho (by simpa using hclear)
    rw [hq] at hy
    cases hy
    exact hne h
  · intro h
    exact hs.clear o ho h x (by rw [hq]; exact List.mem_cons_self)

theorem faithful_iff (hs : s.Inv) : s.Faithful ↔ (∀ a ∈ s.answers, a.2.during = some a.1) ∧ s.Recorded :=
  ⟨fun h => ⟨h.during, h.recorded⟩, fun h => ⟨h.1, hs.once, h.2⟩⟩

theorem faithful_step (hs : s.Inv) (h : s.step a = some t) : t.Inv ∧ (t.Faithful ↔ s.Faithful ∧ s.Clean a) := by
  cases a with
  | prompt p =>
      simp only [step] at h
      split at h
      · rename_i hcond
        have hnone : s.opened = none := by
          rw [Bool.and_eq_true, Option.isNone_iff_eq_none] at hcond
          exact hcond.2
        split at h
        · cases h
          refine ⟨hs.openPrompt, ?_⟩
          rw [faithful_iff hs, faithful_iff hs.openPrompt, recorded_openPrompt hnone]
          simp [Clean, openPrompt]
        · cases h
          exact ⟨hs, by simp [Clean]⟩
      · cases h
  | submit text =>
      simp only [step, Option.ite_none_right_eq_some, Option.some.injEq] at h
      obtain ⟨-, rfl⟩ := h
      refine ⟨hs.submit text, ?_⟩
      rw [faithful_iff hs, faithful_iff (hs.submit text)]
      simp [Clean, submitOperatorInput, Recorded]
  | answer =>
      simp only [step] at h
      split at h
      · rename_i o x xs ho hq
        cases h
        have ht := hs.answer (o := o) hq
        refine ⟨ht, ?_⟩
        have hclose : (({ s with operatorInput := xs, answers := s.answers ++ [(o.id, x)] }.closePrompt .answered).leave o
            .answered).Recorded ↔ s.Recorded := recorded_close ho (hs.current o ho).2 .answered
        rw [faithful_iff hs, faithful_iff ht, hclose]
        have hhead := hs.head_during ho hq
        simp only [leave, closePrompt, List.forall_mem_append, List.forall_mem_singleton, hhead, Clean, ho, Option.all_some]
        exact and_right_comm
      · cases h
  | expire =>
      simp only [step] at h
      split at h
      · rename_i o ho
        simp only [Option.ite_none_right_eq_some, Option.some.injEq] at h
        obtain ⟨-, rfl⟩ := h
        refine ⟨hs.expire, ?_⟩
        rw [faithful_iff hs, faithful_iff hs.expire, recorded_close ho (hs.current o ho).2]
        simp [Clean, leave, closePrompt]
      · cases h
  | cancel =>
      simp only [step] at h
      split at h
      · rename_i o ho
        cases h
        refine ⟨hs.cancel, iff_of_false (fun hf => ?_) fun hf => hf.2⟩
        have hcount : s.events.countP isClose = s.ended.length + 1 := by simpa [leave] using hf.recorded.countP
        have hle := hs.closed
        omega
      · cases h
  | elsewhere =>
      cases h
      refine ⟨hs.elsewhere, ?_⟩
      rw [faithful_iff hs, faithful_iff hs.elsewhere]
      simp [Clean, Recorded]
  | finish =>
      simp only [step, Option.ite_none_right_eq_some, Option.some.injEq] at h
      obtain ⟨hnone, rfl⟩ := h
      have ht := hs.finish (Option.isNone_iff_eq_none.mp hnone)
      refine ⟨ht, ?_⟩
      rw [faithful_iff hs, faithful_iff ht]
      simp [Clean, Recorded]

end PromptRun

end OpenMux.Actions
