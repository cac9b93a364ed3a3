import Mathlib

/-!
# A byte stream that arrives in chunks

The buffer of a stream reader and the chunks that will be fed to it before the end of input. What `readexactly` returns
depends on the bytes only, not on how they are cut.
-/

structure StreamReader where
  buffer : List UInt8
  feed : List (List UInt8)

namespace StreamReader

/-- The bytes still to be read. -/
def rest (r : StreamReader) : List UInt8 := r.buffer ++ r.feed.flatten

/-- Waits for chunks until the buffer holds `n` bytes. At the end of input the buffer is cleared and
`IncompleteReadError` raised, here `none`. -/
def readFrom (n : Nat) : List UInt8 → List (List UInt8) → Option (List UInt8) × StreamReader
  | buf, [] => if n ≤ buf.length then (some (buf.take n), ⟨buf.drop n, []⟩) else (none, ⟨[], []⟩)
  | buf, c :: cs =>
      if n ≤ buf.length then (some (buf.take n), ⟨buf.drop n, c :: cs⟩) else readFrom n (buf ++ c) cs

/-- `reader.readexactly(n)`. -/
def readexactly (n : Nat) (r : StreamReader) : Option (List UInt8) × StreamReader := readFrom n r.buffer r.feed

variable {n : Nat} {r r' : StreamReader} {bs : List UInt8} {b : UInt8}

theorem readFrom_cases (n : Nat) (buf : List UInt8) (feed : List (List UInt8)) :
    (n ≤ (buf ++ feed.flatten).length ∧ ∃ r', readFrom n buf feed = (some ((buf ++ feed.flatten).take n), r') ∧
      r'.rest = (buf ++ feed.flatten).drop n) ∨
    ((buf ++ feed.flatten).length < n ∧ readFrom n buf feed = (none, ⟨[], []⟩)) := by
  induction feed generalizing buf with
  | nil =>
      by_cases h : n ≤ buf.length
      · exact Or.inl ⟨by simpa using h, ⟨buf.drop n, []⟩, by simp [readFrom, h], by simp [rest]⟩
      · exact Or.inr ⟨by simpa using h, by simp [readFrom, h]⟩
  | cons c cs ih =>
      by_cases h : n ≤ buf.length
      · refine Or.inl ⟨by rw [List.length_append]; omega, ⟨buf.drop n, c :: cs⟩, ?_, ?_⟩
        · rw [readFrom, if_pos h, List.take_append_of_le_length h]
        · rw [rest, List.drop_append_of_le_length h]
      · rw [readFrom, if_neg h, List.flatten_cons, ← List.append_assoc]
        exact ih (buf ++ c)

/-- Enough bytes are read off the front, whatever the chunks. -/
theorem readexactly_append (bs : List UInt8) {tail : List UInt8} (h : r.rest = bs ++ tail) :
    ∃ r', r.readexactly bs.length = (some bs, r') ∧ r'.rest = tail := by
  unfold rest at h
  rcases readFrom_cases bs.length r.buffer r.feed with ⟨_, r', hr, hrest⟩ | ⟨hlt, _⟩
  · rw [h, List.take_left] at hr
    rw [h, List.drop_left] at hrest
    exact ⟨r', hr, hrest⟩
  · rw [h, List.length_append] at hlt
    omega

theorem readexactly_one (h : r.rest = b :: bs) : ∃ r', r.readexactly 1 = (some [b], r') ∧ r'.rest = bs :=
  readexactly_append [b] h

theorem readexactly_end (h : r.rest = []) (hn : 0 < n) : r.readexactly n = (none, ⟨[], []⟩) := by
  unfold rest at h
  rcases readFrom_cases n r.buffer r.feed with ⟨hle, _⟩ | ⟨_, hr⟩
  · rw [h] at hle
    simp at hle
    omega
  · exact hr

/-- A read that succeeds leaves fewer bytes. -/
theorem rest_length_of_readexactly (h : r.readexactly n = (some bs, r')) (hn : 0 < n) :
    r'.rest.length < r.rest.length := by
  rcases readFrom_cases n r.buffer r.feed with ⟨hle, r₁, hr, hrest⟩ | ⟨_, hr⟩
  · rw [readexactly, hr] at h
    cases h
    rw [hrest, List.length_drop]
    unfold rest
    omega
  · rw [readexactly, hr] at h
    cases h

end StreamReader
