import Mathlib

/-!
# Runs of a partial step function

A system is a step function `step : σ → α → Option σ`: `none` says that the action is not enabled. A run is a list of
actions. `Along` says that every action of a run is taken in a state that meets a condition, and `exec_invariant`
carries an invariant along such a run.
-/

namespace Transition

universe u v

variable {σ : Type u} {α : Type v}

/-- The state that a list of actions leads to; `none` when one of them is not enabled. -/
def exec (step : σ → α → Option σ) : σ → List α → Option σ
  | s, [] => some s
  | s, a :: as => match step s a with
    | none => none
    | some s' => exec step s' as

/-- Every action of the list is taken in a state that meets `C`. -/
def Along (step : σ → α → Option σ) (C : σ → α → Prop) : σ → List α → Prop
  | _, [] => True
  | s, a :: as => C s a ∧ match step s a with
    | none => True
    | some s' => Along step C s' as

variable {step : σ → α → Option σ} {C D : σ → α → Prop}

instance Along.decidable [∀ s a, Decidable (C s a)] :
    (s : σ) → (as : List α) → Decidable (Along step C s as)
  | _, [] => isTrue trivial
  | s, a :: as =>
      match h : step s a with
      | none => decidable_of_iff (C s a) (by simp [Along, h])
      | some s' =>
          have := Along.decidable s' as
          decidable_of_iff (C s a ∧ Along step C s' as) (by simp [Along, h])

@[simp] theorem exec_nil (s : σ) : exec step s [] = some s := rfl

theorem exec_cons {s s' : σ} {a : α} {as : List α} (h : step s a = some s') :
    exec step s (a :: as) = exec step s' as := by
  simp [exec, h]

/-- A run that begins with `a` takes it and goes on from the state it leads to. -/
theorem exec_cons_inv {s t : σ} {a : α} {as : List α} (h : exec step s (a :: as) = some t) :
    ∃ s', step s a = some s' ∧ exec step s' as = some t := by
  simp only [exec] at h
  split at h
  · cases h
  · exact ⟨_, ‹_›, h⟩

theorem exec_append {s t u : σ} {as bs : List α} (h₁ : exec step s as = some t) (h₂ : exec step t bs = some u) :
    exec step s (as ++ bs) = some u := by
  induction as generalizing s with
  | nil => cases h₁; exact h₂
  | cons a as ih =>
      obtain ⟨s', hs, hr⟩ := exec_cons_inv h₁
      rw [List.cons_append, exec_cons hs]
      exact ih hr

/-- A run splits at every point of its list of actions. -/
theorem exec_append_inv {s u : σ} {as bs : List α} (h : exec step s (as ++ bs) = some u) :
    ∃ t, exec step s as = some t ∧ exec step t bs = some u := by
  induction as generalizing s with
  | nil => exact ⟨s, rfl, h⟩
  | cons a as ih =>
      obtain ⟨s', hs, hr⟩ := exec_cons_inv h
      obtain ⟨t, ht, hu⟩ := ih hr
      exact ⟨t, by rw [exec_cons hs, ht], hu⟩

theorem along_cons {s s' : σ} {a : α} {as : List α} (hs : step s a = some s') :
    Along step C s (a :: as) ↔ C s a ∧ Along step C s' as := by
  simp [Along, hs]

theorem along_append_left {s : σ} {as bs : List α} (h : Along step C s (as ++ bs)) : Along step C s as := by
  induction as generalizing s with
  | nil => trivial
  | cons a as ih =>
      refine ⟨h.1, ?_⟩
      have h' := h.2
      cases hs : step s a with
      | none => trivial
      | some s' =>
          simp only [hs] at h' ⊢
          exact ih h'

theorem along_append_right {s t : σ} {as bs : List α} (h : Along step C s (as ++ bs))
    (ht : exec step s as = some t) : Along step C t bs := by
  induction as generalizing s with
  | nil => cases ht; exact h
  | cons a as ih =>
      obtain ⟨s', hs, hr⟩ := exec_cons_inv ht
      exact ih ((along_cons hs).mp h).2 hr

/-- The condition holds of the action taken at every point of the run. -/
theorem along_append_at {s t : σ} {as bs : List α} {a : α} (h : Along step C s (as ++ a :: bs))
    (ht : exec step s as = some t) : C t a := by
  induction as generalizing s with
  | nil => cases ht; exact h.1
  | cons b as ih =>
      obtain ⟨s', hs, hr⟩ := exec_cons_inv ht
      exact ih ((along_cons hs).mp h).2 hr

/-- Two conditions that agree in every state of an invariant of the second hold along the same runs. -/
theorem along_congr {I : σ → Prop} (hstep : ∀ s a s', I s → D s a → step s a = some s' → I s')
    (hCD : ∀ s a, I s → (C s a ↔ D s a)) {s : σ} {as : List α} (hs : I s) : Along step C s as ↔ Along step D s as := by
  induction as generalizing s with
  | nil => exact Iff.rfl
  | cons a as ih =>
      cases h : step s a with
      | none => simp only [Along, h, hCD s a hs]
      | some s' =>
          rw [along_cons h, along_cons h, hCD s a hs]
          exact and_congr_right fun hd => ih (hstep s a s' hs hd h)

theorem Along.of_forall {s : σ} {as : List α} (h : ∀ a ∈ as, ∀ s, C s a) : Along step C s as := by
  induction as generalizing s with
  | nil => trivial
  | cons a as ih =>
      refine ⟨h a List.mem_cons_self s, ?_⟩
      cases step s a with
      | none => trivial
      | some s' => exact ih fun b hb => h b (List.mem_cons_of_mem a hb)

theorem Along.and {s : σ} {as : List α} (h₁ : Along step C s as) (h₂ : Along step D s as) :
    Along step (fun s a => C s a ∧ D s a) s as := by
  induction as generalizing s with
  | nil => trivial
  | cons a as ih =>
      refine ⟨⟨h₁.1, h₂.1⟩, ?_⟩
      have h₁' := h₁.2
      have h₂' := h₂.2
      cases hs : step s a with
      | none => trivial
      | some s' =>
          simp only [hs] at h₁' h₂' ⊢
          exact ih h₁' h₂'

/-- An invariant that each action meeting `C` preserves holds at the end of every run along `C`. -/
theorem exec_invariant {I : σ → Prop} (hstep : ∀ s a s', I s → C s a → step s a = some s' → I s')
    {s t : σ} {as : List α} (hs : I s) (hC : Along step C s as) (h : exec step s as = some t) : I t := by
  induction as generalizing s with
  | nil => cases h; exact hs
  | cons a as ih =>
      obtain ⟨s', h₁, h₂⟩ := exec_cons_inv h
      obtain ⟨hca, hrest⟩ := (along_cons h₁).mp hC
      exact ih (hstep s a s' hs hca h₁) hrest h₂

/-- An invariant that every action preserves holds at the end of every run. -/
theorem exec_invariant' {I : σ → Prop} (hstep : ∀ s a s', I s → step s a = some s' → I s')
    {s t : σ} {as : List α} (hs : I s) (h : exec step s as = some t) : I t := by
  induction as generalizing s with
  | nil => cases h; exact hs
  | cons a as ih =>
      obtain ⟨s', h₁, h₂⟩ := exec_cons_inv h
      exact ih (hstep s a s' hs h₁) h₂

/-- A property holds in every state of a run exactly if every step of it meets the condition, where an invariant carries the
property, a step keeps the invariant if it meets the condition, and it breaks the property if it does not. -/
theorem forall_prefix_iff_along {I P : σ → Prop} (hP : ∀ s, I s → P s)
    (hstep : ∀ s a s', I s → C s a → step s a = some s' → I s')
    (hback : ∀ s a s', I s → step s a = some s' → P s' → C s a) (hnone : ∀ s a, I s → step s a = none → C s a)
    {s : σ} (hs : I s) (as : List α) :
    (∀ bs t, bs <+: as → exec step s bs = some t → P t) ↔ Along step C s as := by
  induction as generalizing s with
  | nil =>
      refine iff_of_true (fun bs t hpre hrun => ?_) trivial
      cases List.prefix_nil.mp hpre
      cases hrun
      exact hP s hs
  | cons a as ih =>
      cases h : step s a with
      | none =>
          refine iff_of_true (fun bs t hpre hrun => ?_) ⟨hnone s a hs h, by rw [h]; trivial⟩
          cases bs with
          | nil =>
              cases hrun
              exact hP s hs
          | cons b bs =>
              obtain ⟨rfl, -⟩ := List.cons_prefix_cons.mp hpre
              obtain ⟨s', hs', -⟩ := exec_cons_inv hrun
              rw [h] at hs'
              cases hs'
      | some s' =>
          rw [along_cons h]
          constructor
          · intro hall
            have hC : C s a :=
              hback s a s' hs h (hall [a] s' (List.prefix_append [a] as) (by rw [exec_cons h]; rfl))
            refine ⟨hC, (ih (hstep s a s' hs hC h)).mp fun bs t hpre hrun => ?_⟩
            exact hall (a :: bs) t ((List.prefix_cons_inj a).mpr hpre) ((exec_cons h).trans hrun)
          · rintro ⟨hC, hrest⟩ bs t hpre hrun
            cases bs with
            | nil =>
                cases hrun
                exact hP s hs
            | cons b bs =>
                obtain ⟨rfl, htail⟩ := List.cons_prefix_cons.mp hpre
                rw [exec_cons h] at hrun
                exact (ih (hstep s b s' hs hC h)).mpr hrest bs t htail hrun

end Transition

/-!
## Properties that a run loses for good

A property of the states that holds after a step exactly if it held before and the step meets a condition holds at the end of a run
exactly if it held at its start and all steps meet the condition.
-/

namespace Transition

universe u v

variable {σ : Type u} {α : Type v} {step : σ → α → Option σ} {C : σ → α → Prop} {I P : σ → Prop}

theorem exec_iff_along (hstep : ∀ s a t, I s → step s a = some t → I t ∧ (P t ↔ P s ∧ C s a)) {s t : σ} {as : List α} (hs : I s)
    (h : exec step s as = some t) : P t ↔ P s ∧ Along step C s as := by
  induction as generalizing s with
  | nil =>
      cases h
      simp [Along]
  | cons a as ih =>
      obtain ⟨s', hs', hr⟩ := exec_cons_inv h
      obtain ⟨hI, hP⟩ := hstep s a s' hs hs'
      rw [ih hI hr, hP, along_cons hs', and_assoc]

/-- A property that a step from a state with it keeps exactly if the step meets a condition, where an invariant of the states that have it
helps, holds all along a run exactly if all steps meet the condition. -/
theorem throughout_iff_along_of_invariant
    (hstep : ∀ s a t, I s → P s → step s a = some t → (P t ↔ C s a) ∧ (P t → I t)) {s t : σ} {as : List α} (hI : I s) (hs : P s)
    (h : exec step s as = some t) : (∀ bs u, bs <+: as → exec step s bs = some u → P u) ↔ Along step C s as := by
  induction as generalizing s with
  | nil =>
      refine iff_of_true (fun bs u hbs hu => ?_) trivial
      rw [List.prefix_nil] at hbs
      subst hbs
      cases hu
      exact hs
  | cons a as ih =>
      obtain ⟨s', hs', hr⟩ := exec_cons_inv h
      obtain ⟨hiff, hkeep⟩ := hstep s a s' hI hs hs'
      rw [along_cons hs']
      constructor
      · intro hall
        have hP : P s' := hall [a] s' (List.prefix_append [a] as) (by rw [exec_cons hs']; rfl)
        refine ⟨hiff.mp hP, (ih (hkeep hP) hP hr).mp fun bs u hbs hu => ?_⟩
        exact hall (a :: bs) u ((List.prefix_cons_inj a).mpr hbs) (by rw [exec_cons hs', hu])
      · rintro ⟨hc, hal⟩ bs u hbs hu
        have hP := hiff.mpr hc
        cases bs with
        | nil =>
            cases hu
            exact hs
        | cons b bs =>
            obtain ⟨rfl, hpre⟩ := List.cons_prefix_cons.mp hbs
            rw [exec_cons hs'] at hu
            exact (ih (hkeep hP) hP hr).mpr hal bs u hpre hu

/-- The same without an invariant. -/
theorem throughout_iff_along (hstep : ∀ s a t, P s → step s a = some t → (P t ↔ C s a)) {s t : σ} {as : List α} (hs : P s)
    (h : exec step s as = some t) : (∀ bs u, bs <+: as → exec step s bs = some u → P u) ↔ Along step C s as :=
  throughout_iff_along_of_invariant (I := fun _ => True) (fun s a t _ hP ht => ⟨hstep s a t hP ht, fun _ => trivial⟩) trivial hs h

end Transition
