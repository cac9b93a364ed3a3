import Mathlib

/-!
# Searching bytes
-/

namespace Py

variable {α : Type} [DecidableEq α]

/-- `data.find(sep)` for a separator that is not empty: what is before the first occurrence, and the data from there on. -/
def find (sep : List α) : List α → Option (List α × List α)
  | [] => none
  | b :: d => if sep <+: b :: d then some ([], b :: d) else (find sep d).map fun r => (b :: r.1, r.2)

variable {sep d x y : List α} {b : α}

example : find [1, 2] [0, 1, 2, 3] = some ([0], [1, 2, 3]) := by simp [find]

theorem find_of_prefix (h : sep <+: d) (hne : d ≠ []) : find sep d = some ([], d) := by
  cases d with
  | nil => exact absurd rfl hne
  | cons b d => simp [find, h]

theorem find_cons_of_not (h : ¬ sep <+: b :: d) : find sep (b :: d) = (find sep d).map fun r => (b :: r.1, r.2) := by
  simp [find, h]

/-- The two parts make up the data, and the second begins with the separator. -/
theorem find_some (h : find sep d = some (x, y)) : d = x ++ y ∧ sep <+: y ∧ y ≠ [] := by
  induction d generalizing x with
  | nil => simp [find] at h
  | cons b d ih =>
      rw [find] at h
      split at h
      · rename_i hp
        cases h
        simp [hp]
      · obtain ⟨⟨x', y'⟩, hr, he⟩ := Option.map_eq_some_iff.mp h
        cases he
        obtain ⟨rfl, hy⟩ := ih hr
        exact ⟨rfl, hy⟩

/-- Data that is shorter than the separator does not hold it. -/
theorem find_of_short (h : d.length < sep.length) : find sep d = none := by
  induction d with
  | nil => rfl
  | cons b d ih =>
      have hlen : ¬ sep <+: b :: d := fun hp => absurd hp.length_le (by omega)
      rw [find_cons_of_not hlen, ih (by simp at h; omega)]
      rfl

/-- One byte is found at its first occurrence. -/
theorem find_singleton (h : b ∉ x) : find [b] (x ++ b :: y) = some (x, b :: y) := by
  induction x with
  | nil => simp [find]
  | cons c x ih =>
      simp only [List.mem_cons, not_or] at h
      have hc : ¬ [b] <+: c :: (x ++ b :: y) := by simpa using h.1
      rw [List.cons_append, find_cons_of_not hc, ih h.2]
      rfl

theorem find_singleton_none (h : b ∉ x) : find [b] x = none := by
  induction x with
  | nil => rfl
  | cons c x ih =>
      simp only [List.mem_cons, not_or] at h
      have hc : ¬ [b] <+: c :: x := by simpa using h.1
      rw [find_cons_of_not hc, ih h.2]
      rfl

end Py
