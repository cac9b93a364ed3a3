import Mathlib

/-!
# Machines that read a stream item by item

A machine answers each item that it reads with some output and goes to its next state. However a stream is cut into chunks, it
gives the same output.
-/

namespace Transducer

universe u v w

variable {σ : Type u} {α : Type v} {β : Type w}

/-- The state after a stream, and the output on the way. -/
def run (step : σ → α → σ × List β) : σ → List α → σ × List β
  | s, [] => (s, [])
  | s, a :: as =>
      let (t, out) := step s a
      let (u, rest) := run step t as
      (u, out ++ rest)

/-- The chunks of a stream one after the other, with an operation that takes a chunk. -/
def runChunks (read : σ → List α → σ × List β) : σ → List (List α) → σ × List β
  | s, [] => (s, [])
  | s, c :: cs =>
      let (t, out) := read s c
      let (u, rest) := runChunks read t cs
      (u, out ++ rest)

variable {step : σ → α → σ × List β} {s : σ}

@[simp] theorem run_nil : run step s [] = (s, []) := rfl

theorem run_cons (a : α) (as : List α) :
    run step s (a :: as) = ((run step (step s a).1 as).1, (step s a).2 ++ (run step (step s a).1 as).2) := rfl

theorem run_append (as bs : List α) :
    run step s (as ++ bs) = ((run step (run step s as).1 bs).1, (run step s as).2 ++ (run step (run step s as).1 bs).2) := by
  induction as generalizing s with
  | nil => rfl
  | cons a as ih => simp [run_cons, ih]

/-- An operation that reads a stream as its two halves one after the other does not care how the stream is cut. -/
theorem runChunks_eq {read : σ → List α → σ × List β} (hnil : ∀ s, read s [] = (s, []))
    (happend : ∀ s c d, read s (c ++ d) = ((read (read s c).1 d).1, (read s c).2 ++ (read (read s c).1 d).2))
    (cs : List (List α)) : runChunks read s cs = read s cs.flatten := by
  induction cs generalizing s with
  | nil => exact (hnil s).symm
  | cons c cs ih =>
      rw [List.flatten_cons, happend, ← ih]
      rfl

end Transducer
