import OpenMux.Lib.Run

/-!
# Batched writing

Data is put into a buffer that a flusher empties. A flusher is started when data comes in and none is at work. Each time it wakes it takes the
whole buffer as one batch and sends it, and it ends when it finds the buffer empty or a batch cannot be sent. The buffer and its flusher do not
depend on what the data is or where it is sent.
-/

namespace Batch

open Transition

universe u v

variable {α : Type u} {β : Type v}

/-- None at work; before its next look at the buffer; with a batch that is being sent. -/
inductive Flusher
  | idle
  | waiting
  | sending
deriving DecidableEq

/-- A batch, with where it was sent. -/
structure Sent (α : Type u) (β : Type v) where
  data : List α
  via : Option β
deriving DecidableEq

structure Buffer (α : Type u) (β : Type v) where
  pending : List α := []
  flusher : Flusher := .idle
  /-- The batches that were taken, in order. -/
  batches : List (Sent α β) := []
  /-- The data that came in, in order. -/
  accepted : List α := []
deriving DecidableEq

/-- Data comes in; the flusher wakes with a place to send to or none; the batch was sent, or could not be. -/
inductive Act (α : Type u) (β : Type v)
  | accept (data : List α)
  | wake (via : Option β)
  | sent
  | failed

namespace Buffer

def accept (b : Buffer α β) (data : List α) : Buffer α β :=
  { b with
    pending := b.pending ++ data
    accepted := b.accepted ++ data
    flusher := if b.flusher = .idle then .waiting else b.flusher }

/-- Data that does not wait for a flusher. -/
def through (b : Buffer α β) (data : List α) (via : β) : Buffer α β :=
  { b with accepted := b.accepted ++ data, batches := b.batches ++ [⟨data, some via⟩] }

/-- The whole buffer is one batch. -/
def take (b : Buffer α β) (via : Option β) : Buffer α β :=
  { b with
    pending := []
    batches := b.batches ++ [⟨b.pending, via⟩]
    flusher := if via.isSome then .sending else .idle }

/-- The flusher goes on if there is more. -/
def settle (b : Buffer α β) : Buffer α β := { b with flusher := if b.pending.isEmpty then .idle else .waiting }

def step (b : Buffer α β) : Act α β → Option (Buffer α β)
  | .accept data => some (b.accept data)
  | .wake via =>
      if b.flusher = .waiting then some (if b.pending.isEmpty then { b with flusher := .idle } else b.take via) else none
  | .sent => if b.flusher = .sending then some b.settle else none
  | .failed => if b.flusher = .sending then some { b with flusher := .idle } else none

/-- The data of the batches. -/
def taken (b : Buffer α β) : List α := b.batches.flatMap Sent.data

/-- Nothing that came in is lost from the buffer, doubled or reordered. -/
def Conserved (b : Buffer α β) : Prop := b.accepted = b.taken ++ b.pending

/-- Data in the buffer has a flusher. -/
def Live (b : Buffer α β) : Prop := b.pending ≠ [] → b.flusher ≠ .idle

instance [DecidableEq α] (b : Buffer α β) : Decidable b.Live := inferInstanceAs (Decidable (_ → _))

variable {b b' : Buffer α β} {data : List α} {via : β}

@[simp] theorem taken_accept : (b.accept data).taken = b.taken := rfl

@[simp] theorem taken_through : (b.through data via).taken = b.taken ++ data := by simp [taken, through]

@[simp] theorem taken_take (place : Option β) : (b.take place).taken = b.taken ++ b.pending := by simp [taken, take]

theorem Conserved.accept (h : b.Conserved) : (b.accept data).Conserved := by
  show b.accepted ++ data = b.taken ++ (b.pending ++ data)
  rw [h, List.append_assoc]

theorem Conserved.through (h : b.Conserved) (hempty : b.pending = []) : (b.through data via).Conserved := by
  show b.accepted ++ data = (b.through data via).taken ++ b.pending
  rw [h, taken_through, hempty, List.append_nil, List.append_nil]

theorem Conserved.take (h : b.Conserved) (place : Option β) : (b.take place).Conserved := by
  show b.accepted = (b.take place).taken ++ []
  rw [taken_take, List.append_nil, h]

theorem Conserved.step (h : b.Conserved) {a : Act α β} (hs : b.step a = some b') : b'.Conserved := by
  cases a with
  | accept data =>
      cases hs
      exact h.accept
  | wake place =>
      simp only [Buffer.step] at hs
      split at hs
      · split at hs <;> cases hs
        · exact h
        · exact h.take place
      · cases hs
  | sent | failed =>
      simp only [Buffer.step] at hs
      split at hs
      · cases hs
        exact h
      · cases hs

/-- The act leaves the buffer without a flusher. -/
def Faults : Act α β → Prop
  | .wake none | .failed => True
  | _ => False

theorem Live.accept (b : Buffer α β) (data : List α) : (b.accept data).Live := by
  intro _
  show (if b.flusher = .idle then Flusher.waiting else b.flusher) ≠ .idle
  split
  · exact Flusher.noConfusion
  · assumption

theorem live_of_nil (h : b.pending = []) : b.Live := fun hne => absurd h hne

/-- Only a batch that could not be sent leaves data without a flusher. -/
theorem Live.step (h : b.Live) {a : Act α β} (ha : ¬ Faults a) (hs : b.step a = some b') : b'.Live := by
  cases a with
  | accept data =>
      cases hs
      exact Live.accept b data
  | wake place =>
      simp only [Buffer.step] at hs
      split at hs
      · split at hs <;> cases hs
        · rename_i hempty
          exact live_of_nil (List.isEmpty_iff.mp hempty)
        · exact live_of_nil rfl
      · cases hs
  | sent =>
      simp only [Buffer.step] at hs
      split at hs
      · cases hs
        intro hne
        have hne : b.pending ≠ [] := hne
        show (if b.pending.isEmpty then Flusher.idle else Flusher.waiting) ≠ .idle
        rw [if_neg (by simpa using hne)]
        exact Flusher.noConfusion
      · cases hs
  | failed => exact absurd trivial ha

end Buffer

end Batch
