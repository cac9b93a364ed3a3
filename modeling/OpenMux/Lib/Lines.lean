import Mathlib

/-!
# Cutting a stream at its line ends

The whole lines of a stream without their ends, and what is left of it. What has no end yet goes to the first line of what follows.
-/

namespace Lines

universe u v

variable {α : Type u} {β : Type v} {ends : α → Bool}

def cut (ends : α → Bool) : List α → List (List α) × List α
  | [] => ([], [])
  | a :: as =>
      if ends a then ([] :: (cut ends as).1, (cut ends as).2)
      else match (cut ends as).1 with
        | [] => ([], a :: (cut ends as).2)
        | l :: ls => ((a :: l) :: ls, (cut ends as).2)

/-- No end is in it. -/
def Open (ends : α → Bool) (as : List α) : Prop := ∀ a ∈ as, ends a = false

example : cut (fun n : ℕ => n = 10) [1, 10, 2] = ([[1]], [2]) := by simp [cut]

theorem cut_open_append {as : List α} (bs : List α) (h : Open ends as) : cut ends (as ++ bs) = match (cut ends bs).1 with
    | [] => ([], as ++ (cut ends bs).2)
    | l :: ls => ((as ++ l) :: ls, (cut ends bs).2) := by
  induction as with
  | nil =>
      rw [List.nil_append]
      split
      · rename_i hnil
        exact Prod.ext hnil rfl
      · rename_i l ls hcons
        exact Prod.ext hcons rfl
  | cons a as ih =>
      obtain ⟨ha, has⟩ := List.forall_mem_cons.mp h
      rw [List.cons_append, cut, if_neg (by simp [ha]), ih has]
      cases (cut ends bs).1 <;> rfl

theorem cut_of_open {as : List α} (h : Open ends as) : cut ends as = ([], as) := by
  simpa [cut] using cut_open_append [] h

/-- The rest has no end. -/
theorem open_rest (as : List α) : Open ends (cut ends as).2 := by
  induction as with
  | nil => exact fun a h => by cases h
  | cons a as ih =>
      rw [cut]
      split
      · exact ih
      · rename_i ha
        split
        · exact List.forall_mem_cons.mpr ⟨by simpa using ha, ih⟩
        · exact ih

/-- A stream is cut as its first part is, and then what is left of that with the rest. -/
theorem cut_append (as bs : List α) : cut ends (as ++ bs) =
    ((cut ends as).1 ++ (cut ends ((cut ends as).2 ++ bs)).1, (cut ends ((cut ends as).2 ++ bs)).2) := by
  induction as with
  | nil => rfl
  | cons a as ih =>
      rw [List.cons_append, cut, cut, ih]
      cases ha : ends a with
      | true => rfl
      | false =>
          rw [if_neg (by simp), if_neg (by simp)]
          cases (cut ends as).1 with
          | nil => rw [List.nil_append, List.nil_append, List.cons_append, cut, if_neg (by simp [ha])]
          | cons l ls => rfl

/-- Nothing is cut only of nothing. -/
theorem cut_eq_nil_iff {as : List α} : (cut ends as).1 = [] ∧ (cut ends as).2 = [] ↔ as = [] := by
  constructor
  · rintro ⟨hlines, hrest⟩
    cases as with
    | nil => rfl
    | cons a as =>
        rw [cut] at hlines hrest
        split at hlines
        · cases hlines
        · rename_i ha
          rw [if_neg ha] at hrest
          split at hlines
          · rename_i hnil
            rw [hnil] at hrest
            cases hrest
          · cases hlines
  · rintro rfl
    exact ⟨rfl, rfl⟩

theorem cut_map {f : β → α} (bs : List β) :
    cut ends (bs.map f) = ((cut (fun b => ends (f b)) bs).1.map (List.map f), (cut (fun b => ends (f b)) bs).2.map f) := by
  induction bs with
  | nil => rfl
  | cons b bs ih =>
      rw [List.map_cons, cut, cut, ih]
      split
      · rfl
      · cases (cut (fun b => ends (f b)) bs).1 <;> rfl

/-- The whole lines have no ends, so what stands in front of data without one is not cut off. -/
theorem cut_fst_eq_nil {as : List α} : (cut ends as).1 = [] ↔ Open ends as := by
  constructor
  · induction as with
    | nil => exact fun _ a h => by cases h
    | cons a as ih =>
        intro h
        rw [cut] at h
        split at h
        · cases h
        · rename_i ha
          split at h
          · rename_i hnil
            exact List.forall_mem_cons.mpr ⟨by simpa using ha, ih hnil⟩
          · cases h
  · intro h
    rw [cut_of_open h]

/-- The lines with one end between them make up the stream. -/
theorem join_cut [DecidableEq α] (b : α) (as : List α) :
    (cut (· = b) as).1.flatMap (· ++ [b]) ++ (cut (· = b) as).2 = as := by
  induction as with
  | nil => rfl
  | cons a as ih =>
      rw [cut]
      split
      · rename_i ha
        simpa [of_decide_eq_true ha] using ih
      · split
        · rename_i hnil
          simpa [hnil] using ih
        · rename_i l ls hcons
          simpa [hcons] using ih

/-- Two beginnings make as many lines of what follows, and the same ones exactly if they are the same or no line comes to its end. -/
theorem cut_open_append_congr {as bs : List α} (cs : List α) (ha : Open ends as) (hb : Open ends bs) :
    (cut ends (as ++ cs)).1.length = (cut ends (bs ++ cs)).1.length ∧
      ((cut ends (as ++ cs)).1 = (cut ends (bs ++ cs)).1 ↔ Open ends cs ∨ as = bs) := by
  rw [cut_open_append cs ha, cut_open_append cs hb, ← cut_fst_eq_nil]
  cases (cut ends cs).1 with
  | nil => simp
  | cons l ls => simp

end Lines

/-!
## Rewriting the line ends of a stream

A stream in which every pair `cr lf` becomes `lf`, and every item what a table says. Two halves are rewritten one after the other as
the whole is, exactly if no pair lies across them.
-/

namespace Newlines

universe u

variable {α : Type u} [DecidableEq α] {cr lf : α} {f : α → List α} {u v : List α}

/-- Every pair `cr lf` as `lf`. -/
def joinPairs (cr lf : α) : List α → List α
  | a :: b :: l => if a = cr ∧ b = lf then lf :: joinPairs cr lf l else a :: joinPairs cr lf (b :: l)
  | l => l

/-- The pairs joined, and then every item by the table. -/
def rewrite (cr lf : α) (f : α → List α) (l : List α) : List α := (joinPairs cr lf l).flatMap f

/-- A pair lies across the two halves. -/
def Splits (cr lf : α) (u v : List α) : Prop := u.getLast? = some cr ∧ v.head? = some lf

instance : Decidable (Splits cr lf u v) := inferInstanceAs (Decidable (_ ∧ _))

example : joinPairs 13 10 [1, 13, 10, 2] = [1, 10, 2] := by simp [joinPairs]

theorem joinPairs_append (h : ¬ Splits cr lf u v) : joinPairs cr lf (u ++ v) = joinPairs cr lf u ++ joinPairs cr lf v := by
  fun_induction joinPairs cr lf u with
  | case1 a b l hpair ih =>
      have hl : ¬ Splits cr lf l v := by
        intro hs
        apply h
        cases l with
        | nil => simp [Splits] at hs
        | cons c l => simpa [Splits] using hs
      simpa [joinPairs, hpair] using ih hl
  | case2 a b l hne ih =>
      have hl : ¬ Splits cr lf (b :: l) v := by simpa [Splits] using h
      simpa [joinPairs, hne] using ih hl
  | case3 l hshort =>
      cases l with
      | nil => rfl
      | cons a l =>
          cases l with
          | cons b l => exact absurd rfl (hshort a b l)
          | nil =>
              cases v with
              | nil => rfl
              | cons b v =>
                  have hab : ¬ (a = cr ∧ b = lf) := by simpa [Splits] using h
                  simp [joinPairs, hab]

theorem joinPairs_cons {a : α} (h : a ≠ cr) (l : List α) : joinPairs cr lf (a :: l) = a :: joinPairs cr lf l := by
  cases l with
  | nil => rfl
  | cons b l => simp [joinPairs, h]

/-- The first of a pair that lies across is joined to the second. -/
theorem joinPairs_append_of_splits (hne : cr ≠ lf) (h : Splits cr lf u v) :
    ∃ p q, joinPairs cr lf u = p ++ [cr] ∧ joinPairs cr lf v = lf :: q ∧ joinPairs cr lf (u ++ v) = p ++ lf :: q := by
  obtain ⟨hu, hv⟩ := h
  obtain ⟨w, rfl⟩ := List.getLast?_eq_some_iff.mp hu
  obtain ⟨x, rfl⟩ := List.head?_eq_some_iff.mp hv
  have hw : ∀ y, ¬ Splits cr lf w (cr :: y) := fun y hs => hne (by simpa [Splits] using hs.2)
  refine ⟨joinPairs cr lf w, joinPairs cr lf x, ?_, joinPairs_cons hne.symm x, ?_⟩
  · rw [joinPairs_append (hw [])]
    rfl
  · rw [List.append_assoc, List.singleton_append, joinPairs_append (hw _)]
    simp [joinPairs]

/-- What comes before a stream does not shorten it. -/
theorem joinPairs_suffix (hne : cr ≠ lf) (u v : List α) : joinPairs cr lf v <:+ joinPairs cr lf (u ++ v) := by
  by_cases h : Splits cr lf u v
  · obtain ⟨p, q, -, hv, huv⟩ := joinPairs_append_of_splits hne h
    rw [hv, huv]
    exact List.suffix_append p (lf :: q)
  · rw [joinPairs_append h]
    exact List.suffix_append _ _

theorem joinPairs_eq_nil_iff : joinPairs cr lf u = [] ↔ u = [] := by
  fun_cases joinPairs cr lf u <;> simp

/-! ## The items by the table -/

theorem rewrite_append (h : ¬ Splits cr lf u v) : rewrite cr lf f (u ++ v) = rewrite cr lf f u ++ rewrite cr lf f v := by
  simp [rewrite, joinPairs_append h]

theorem length_rewrite_of_splits (hne : cr ≠ lf) (hf : f cr ≠ []) (h : Splits cr lf u v) :
    (rewrite cr lf f (u ++ v)).length < (rewrite cr lf f u).length + (rewrite cr lf f v).length := by
  obtain ⟨p, q, hu, hv, huv⟩ := joinPairs_append_of_splits hne h
  have hpos := List.length_pos_of_ne_nil hf
  simp only [rewrite, hu, hv, huv, List.flatMap_append, List.flatMap_cons, List.flatMap_nil, List.length_append, List.length_nil]
  omega

/-- Two halves are never rewritten to less than the whole is. -/
theorem length_rewrite_append_le (hne : cr ≠ lf) (hf : f cr ≠ []) (u v : List α) :
    (rewrite cr lf f (u ++ v)).length ≤ (rewrite cr lf f u).length + (rewrite cr lf f v).length := by
  by_cases h : Splits cr lf u v
  · exact (length_rewrite_of_splits hne hf h).le
  · rw [rewrite_append h, List.length_append]

theorem length_rewrite_suffix_le (hne : cr ≠ lf) (u v : List α) :
    (rewrite cr lf f v).length ≤ (rewrite cr lf f (u ++ v)).length := by
  obtain ⟨p, hp⟩ := joinPairs_suffix hne u v
  simp [rewrite, ← hp]

theorem rewrite_eq_nil_iff (hf : ∀ a, f a ≠ []) : rewrite cr lf f u = [] ↔ u = [] := by
  rw [rewrite, List.flatMap_eq_nil_iff, ← @joinPairs_eq_nil_iff α _ cr lf u]
  constructor
  · intro h
    cases hu : joinPairs cr lf u with
    | nil => rfl
    | cons a l => exact absurd (h a (by simp [hu])) (hf a)
  · intro h
    simp [h]

end Newlines
