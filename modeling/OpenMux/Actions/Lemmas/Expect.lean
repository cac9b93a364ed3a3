import OpenMux.Actions.Expect

/-!
# What a match drops
-/

namespace OpenMux.Actions

open Py Utf8

variable {r : Regex} {buffer : List UInt8} {stop : Nat}

/-- What is dropped for the text up to the end of a match. -/
def dropped (buffer : List UInt8) (stop : Nat) : Nat := (encodeUtf8 ((decode buffer).take stop)).length

/-! ## One match -/

theorem dropped_eq : dropped buffer stop = ((((pieces buffer).take stop).map Piece.text).flatMap String.utf8EncodeChar).length := by
  rw [dropped, decode, encodeUtf8, List.map_take]

/-- The bytes of the matched text and those of the text after it. -/
theorem split_at_stop (buffer : List UInt8) (stop : Nat) :
    ((pieces buffer).take stop).flatMap Piece.bytes ++ ((pieces buffer).drop stop).flatMap Piece.bytes = buffer := by
  rw [← List.flatMap_append, List.take_append_drop, flatMap_pieces]

theorem rest_eq_nil_iff : ((pieces buffer).drop stop).flatMap Piece.bytes = [] ↔ (pieces buffer).length ≤ stop := by
  rw [← List.drop_eq_nil_iff]
  constructor
  · intro h
    cases hrest : (pieces buffer).drop stop with
    | nil => rfl
    | cons p ps =>
        have hp : p ∈ pieces buffer := List.mem_of_mem_drop (by rw [hrest]; exact List.mem_cons_self)
        have hlen := congrArg List.length h
        rw [hrest, List.flatMap_cons, List.length_append, List.length_nil] at hlen
        have hpos := length_pos_of_mem hp
        omega
  · intro h
    rw [h]
    rfl

/-- A match drops what it was decoded from, or more. -/
theorem drop_dropped :
    buffer.drop (dropped buffer stop) = (((pieces buffer).drop stop).flatMap Piece.bytes).drop
      (dropped buffer stop - (((pieces buffer).take stop).flatMap Piece.bytes).length) := by
  have hmem : ∀ p ∈ (pieces buffer).take stop, p.bytes.length ≤ (String.utf8EncodeChar p.text).length :=
    fun p hp => length_le_of_mem (List.mem_of_mem_take hp)
  have hle := (length_flatMap_le hmem).1
  rw [← dropped_eq] at hle
  calc buffer.drop (dropped buffer stop)
      = (((pieces buffer).take stop).flatMap Piece.bytes ++ ((pieces buffer).drop stop).flatMap Piece.bytes).drop
          (dropped buffer stop) := by rw [split_at_stop]
    _ = _ := by rw [List.drop_append, List.drop_eq_nil_of_le hle, List.nil_append]

theorem matched_append_drop :
    ((pieces buffer).take stop).flatMap Piece.bytes ++ buffer.drop (dropped buffer stop) = buffer ↔
      (∀ p ∈ (pieces buffer).take stop, p.SameLength) ∨ (pieces buffer).length ≤ stop := by
  have hmem : ∀ p ∈ (pieces buffer).take stop, p.bytes.length ≤ (String.utf8EncodeChar p.text).length :=
    fun p hp => length_le_of_mem (List.mem_of_mem_take hp)
  obtain ⟨hle, hsame⟩ := length_flatMap_le hmem
  rw [← dropped_eq] at hle hsame
  rw [← rest_eq_nil_iff, ← hsame, drop_dropped]
  conv_lhs => rhs; rw [← split_at_stop buffer stop]
  rw [List.append_cancel_left_eq]
  constructor
  · intro h
    have hlen := congrArg List.length h
    rw [List.length_drop] at hlen
    by_cases hnil : ((pieces buffer).drop stop).flatMap Piece.bytes = []
    · exact .inr hnil
    · have hpos := List.length_pos_iff.mpr hnil
      apply Or.inl
      omega
  · rintro (h | h)
    · rw [h, Nat.sub_self, List.drop_zero]
    · rw [h, List.drop_nil]

theorem drop_eq_or_length_lt {α : Type} (n : Nat) (l : List α) : l.drop n = l ∨ (l.drop n).length < l.length := by
  cases n with
  | zero => exact .inl rfl
  | succ n =>
      cases l with
      | nil => exact .inl rfl
      | cons a l =>
          apply Or.inr
          rw [List.length_drop, List.length_cons]
          omega

/-- What was matched and what stays are the whole buffer, or shorter. -/
theorem matched_append_drop_lt :
    ((pieces buffer).take stop).flatMap Piece.bytes ++ buffer.drop (dropped buffer stop) = buffer ∨
      (((pieces buffer).take stop).flatMap Piece.bytes ++ buffer.drop (dropped buffer stop)).length < buffer.length := by
  have hsplit := split_at_stop buffer stop
  rw [drop_dropped]
  rcases drop_eq_or_length_lt (dropped buffer stop - (((pieces buffer).take stop).flatMap Piece.bytes).length)
    (((pieces buffer).drop stop).flatMap Piece.bytes) with h | h
  · rw [h]
    exact .inl hsplit
  · have hlen := congrArg List.length hsplit
    rw [List.length_append] at hlen
    apply Or.inr
    rw [List.length_append]
    omega

/-! ## The buffer after a search -/

namespace ActionSession

variable {s : ActionSession}

theorem buffer_expect : (s.expect r).1.buffer = (s.search r).1.buffer := by
  unfold expect
  split
  · rename_i h
    rw [h]
  · rename_i h
    rw [h]
    split <;> rfl

/-- What was matched and what stays make up the buffer exactly if the match is exact, and are shorter otherwise. -/
theorem search_exact : (r.matchedBytes s.buffer ++ (s.search r).1.buffer = s.buffer ↔ r.Exact s.buffer) ∧
    (r.matchedBytes s.buffer ++ (s.search r).1.buffer = s.buffer ∨
      (r.matchedBytes s.buffer ++ (s.search r).1.buffer).length < s.buffer.length) := by
  unfold Regex.matchedBytes search Regex.Exact
  split
  · rename_i start stop h
    simp only [h]
    exact ⟨matched_append_drop, matched_append_drop_lt⟩
  · rename_i h
    simp only [h]
    simp

end ActionSession

/-! ## Steps -/

namespace Ledger

variable {s t : Ledger} {a : ReadAct}

/-- What a step takes from the queue and uses up, beside what it leaves. -/
theorem step_cases (h : s.step a = some t) : ∃ taken used, t.taken = s.taken ++ taken ∧ t.used = s.used ++ used ∧
    (used ++ t.session.buffer = s.session.buffer ++ taken ↔ s.Clean a) ∧
      (used ++ t.session.buffer = s.session.buffer ++ taken ∨
        (used ++ t.session.buffer).length < (s.session.buffer ++ taken).length) := by
  cases a with
  | deliver chunk =>
      simp only [step, Option.ite_none_right_eq_some, Option.some.injEq] at h
      obtain ⟨-, rfl⟩ := h
      exact ⟨[], [], by simp [Clean]⟩
  | detach =>
      cases h
      exact ⟨[], [], by simp [Clean]⟩
  | expect r =>
      simp only [step, Option.ite_none_right_eq_some, Option.some.injEq] at h
      obtain ⟨-, rfl⟩ := h
      refine ⟨[], r.matchedBytes s.session.buffer, by simp, rfl, ?_⟩
      simp only [ActionSession.buffer_expect, List.append_nil]
      exact ActionSession.search_exact
  | receive =>
      simp only [step] at h
      split at h
      · rename_i r chunk chunks hr hq
        cases h
        refine ⟨chunk, r.matchedBytes (s.session.buffer ++ chunk), rfl, rfl, ?_⟩
        have hexact := ActionSession.search_exact (r := r) (s := { s.session with buffer := s.session.buffer ++ chunk, queue := chunks })
        refine ⟨hexact.1.trans ⟨fun he r' chunk' chunks' hr' hq' => ?_, fun hc => hc r chunk chunks hr hq⟩, hexact.2⟩
        rw [hr] at hr'
        rw [hq] at hq'
        cases hr'
        cases hq'
        exact he
      · cases h
  | timeout =>
      simp only [step, Option.ite_none_right_eq_some, Option.some.injEq] at h
      obtain ⟨-, rfl⟩ := h
      exact ⟨[], [], by simp [Clean]⟩
  | readBuffer consume =>
      simp only [step, Option.ite_none_right_eq_some, Option.some.injEq] at h
      obtain ⟨-, rfl⟩ := h
      refine ⟨s.session.queued, _, rfl, rfl, ?_⟩
      cases consume <;> simp [ActionSession.readBuffer, Clean]
  | clearBuffer =>
      simp only [step, Option.ite_none_right_eq_some, Option.some.injEq] at h
      obtain ⟨-, rfl⟩ := h
      exact ⟨[], s.session.buffer, by simp [ActionSession.clearBuffer, Clean]⟩

/-- The bytes add up, or some are gone. -/
def Bounded (s : Ledger) : Prop := s.Whole ∨ (s.used ++ s.session.buffer).length < s.taken.length

theorem whole_step (hs : s.Bounded) (h : s.step a = some t) : t.Bounded ∧ (t.Whole ↔ s.Whole ∧ s.Clean a) := by
  obtain ⟨taken, used, htaken, hused, hclean, hlen⟩ := step_cases h
  unfold Bounded Whole at *
  rw [htaken, hused, ← hclean, List.append_assoc]
  rcases hs with hs | hs
  · rw [← hs, List.append_assoc, List.append_cancel_left_eq]
    constructor
    · rcases hlen with hlen | hlen
      · exact .inl hlen
      · apply Or.inr
        simp only [List.length_append] at *
        omega
    · simp
  · have hnever : ∀ u v : List UInt8, u.length < v.length → u ≠ v := by
      rintro u v hlt rfl
      exact lt_irrefl _ hlt
    have hlt : (s.used ++ (used ++ t.session.buffer)).length < (s.taken ++ taken).length := by
      rcases hlen with hlen | hlen
      · rw [hlen]
        simp only [List.length_append] at *
        omega
      · simp only [List.length_append] at *
        omega
    exact ⟨.inr hlt, iff_of_false (hnever _ _ hlt) fun hw => hnever _ _ hs hw.1⟩

end Ledger

end OpenMux.Actions
