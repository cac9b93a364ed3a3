import Mathlib

/-!
# Bounded queues

`asyncio.Queue`, and the accounts of a queue that gives up its oldest item when it is full.
-/

namespace Py

universe u

/-- A `maxsize` of 0 is no bound. -/
structure Queue (α : Type u) where
  maxsize : Nat
  items : List α := []
deriving DecidableEq

namespace Queue

variable {α : Type u} {q q' : Queue α} {x y : α}

def full (q : Queue α) : Bool := 0 < q.maxsize && q.maxsize ≤ q.items.length

/-- `none` for `QueueFull`. -/
def putNowait (q : Queue α) (x : α) : Option (Queue α) :=
  if q.full then none else some { q with items := q.items ++ [x] }

/-- `none` for `QueueEmpty`. -/
def getNowait (q : Queue α) : Option (α × Queue α) :=
  match q.items with
  | [] => none
  | x :: xs => some (x, { q with items := xs })

/-- Puts an item in, in place of the oldest one of a full queue, and how many are counted as dropped. -/
def offer (q : Queue α) (x : α) : Queue α × Nat :=
  match q.putNowait x with
  | some q' => (q', 0)
  | none =>
      match q.getNowait with
      | none => (q, 0)
      | some (_, q₁) =>
          match q₁.putNowait x with
          | some q₂ => (q₂, 1)
          | none => (q₁, 0)

/-- The queue holds no more than its bound. -/
def Bounded (q : Queue α) : Prop := q.maxsize = 0 ∨ q.items.length ≤ q.maxsize

/-- A queue that is full has room once its oldest item is out. -/
theorem offer_cases (h : q.Bounded) (x : α) : (q.full = false ∧ q.offer x = ({ q with items := q.items ++ [x] }, 0)) ∨
    q.items.length = q.maxsize ∧ ∃ y ys, q.items = y :: ys ∧ q.offer x = ({ q with items := ys ++ [x] }, 1) := by
  by_cases hfull : q.full
  · right
    obtain ⟨hpos, hge⟩ : 0 < q.maxsize ∧ q.maxsize ≤ q.items.length := by simpa [full] using hfull
    have hle : q.items.length ≤ q.maxsize := h.resolve_left (by omega)
    refine ⟨by omega, ?_⟩
    cases hi : q.items with
    | nil =>
        rw [hi, List.length_nil] at hge
        omega
    | cons y ys =>
        rw [hi, List.length_cons] at hle
        have hroom : full { q with items := ys } = false := by
          simp only [full, Bool.and_eq_false_imp, decide_eq_true_eq, decide_eq_false_iff_not]
          omega
        exact ⟨y, ys, rfl, by simp [offer, putNowait, hfull, getNowait, hi, hroom]⟩
  · left
    have hroom := eq_false_of_ne_true hfull
    exact ⟨hroom, by simp [offer, putNowait, hroom]⟩

theorem offer_maxsize (h : q.Bounded) (x : α) : (q.offer x).1.maxsize = q.maxsize := by
  rcases offer_cases h x with ⟨-, heq⟩ | ⟨-, y, ys, -, heq⟩ <;> rw [heq]

theorem Bounded.offer (h : q.Bounded) (x : α) : (q.offer x).1.Bounded := by
  rcases offer_cases h x with ⟨hroom, heq⟩ | ⟨hlen, y, ys, hi, heq⟩
  · simp only [full, Bool.and_eq_false_imp, decide_eq_true_eq, decide_eq_false_iff_not] at hroom
    rw [heq, Bounded, List.length_append, List.length_singleton]
    simp only
    omega
  · rw [hi, List.length_cons] at hlen
    right
    rw [heq, List.length_append, List.length_singleton]
    exact hlen.le

theorem getNowait_some (h : q.getNowait = some (x, q')) : q.items = x :: q'.items ∧ q'.maxsize = q.maxsize := by
  unfold getNowait at h
  split at h
  · cases h
  case h_2 y ys hi =>
    cases h
    exact ⟨hi, rfl⟩

/-- What came in is what went out, the oldest item first, and what is still there; and what was handed out went out. -/
def Kept (arrived handed items : List α) : Prop :=
  ∃ out : List (α × Bool), arrived = out.map Prod.fst ++ items ∧ handed = (out.filter Prod.snd).map Prod.fst

variable {arrived handed items : List α}

theorem kept_nil : Kept ([] : List α) [] [] := ⟨[], rfl, rfl⟩

theorem Kept.put (h : Kept arrived handed items) (x : α) : Kept (arrived ++ [x]) handed (items ++ [x]) := by
  obtain ⟨out, rfl, rfl⟩ := h
  exact ⟨out, by simp, rfl⟩

/-- The oldest item is lost. -/
theorem Kept.drop (h : Kept arrived handed (y :: items)) : Kept arrived handed items := by
  obtain ⟨out, rfl, rfl⟩ := h
  exact ⟨out ++ [(y, false)], by simp, by simp⟩

theorem Kept.get (h : Kept arrived handed (y :: items)) : Kept arrived (handed ++ [y]) items := by
  obtain ⟨out, rfl, rfl⟩ := h
  exact ⟨out ++ [(y, true)], by simp, by simp⟩

theorem Kept.drain (h : Kept arrived handed items) : Kept arrived (handed ++ items) [] := by
  induction items generalizing handed with
  | nil => simpa using h
  | cons y ys ih => simpa using ih h.get

theorem Kept.length_le (h : Kept arrived handed items) : handed.length + items.length ≤ arrived.length := by
  obtain ⟨out, rfl, rfl⟩ := h
  have := List.length_filter_le Prod.snd out
  simp only [List.length_map, List.length_append]
  omega

/-- How many items came in and are neither handed out nor there. -/
def lost (arrived handed items : List α) : Nat := arrived.length - (handed.length + items.length)

/-- Where nothing is lost, what came in was handed out or is there, once and in order. -/
theorem Kept.complete (h : Kept arrived handed items) (hlost : lost arrived handed items = 0) : arrived = handed ++ items := by
  have hle := h.length_le
  obtain ⟨out, rfl, rfl⟩ := h
  have hall : (out.filter Prod.snd).length = out.length := by
    have := List.length_filter_le Prod.snd out
    simp only [lost, List.length_map, List.length_append] at hlost
    omega
  rw [List.filter_eq_self.mpr (List.length_filter_eq_length_iff.mp hall)]

theorem Kept.offer (h : Kept arrived handed q.items) (hq : q.Bounded) (x : α) :
    Kept (arrived ++ [x]) handed (q.offer x).1.items := by
  rcases offer_cases hq x with ⟨-, heq⟩ | ⟨-, y, ys, hi, heq⟩
  · rw [heq]
    exact h.put x
  · rw [heq]
    rw [hi] at h
    exact h.drop.put x

/-- What is counted as dropped is lost. -/
theorem Kept.lost_offer (h : Kept arrived handed q.items) (hq : q.Bounded) (x : α) :
    lost (arrived ++ [x]) handed (q.offer x).1.items = lost arrived handed q.items + (q.offer x).2 := by
  have hle := h.length_le
  rcases offer_cases hq x with ⟨-, heq⟩ | ⟨-, y, ys, hi, heq⟩
  · simp only [heq, lost, List.length_append, List.length_singleton]
    omega
  · rw [hi, List.length_cons] at hle
    simp only [heq, hi, lost, List.length_append, List.length_singleton, List.length_cons]
    omega

theorem lost_get : lost arrived (handed ++ [y]) items = lost arrived handed (y :: items) := by
  simp only [lost, List.length_append, List.length_cons, List.length_nil]
  omega

theorem lost_drain : lost arrived (handed ++ items) [] = lost arrived handed items := by
  simp [lost]

end Queue

end Py
