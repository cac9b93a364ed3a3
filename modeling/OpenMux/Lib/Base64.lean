import Mathlib

/-!
# Base64 with the url-safe alphabet

The encoder without its padding, and the decoder that skips what is not in the alphabet, as `binascii.a2b_base64` does when it is not strict.
-/

namespace Base64

/-- The character of six bits. -/
def char (v : ℕ) : Char :=
  if v < 26 then Char.ofNat (65 + v)
  else if v < 52 then Char.ofNat (71 + v)
  else if v < 62 then Char.ofNat (v - 4)
  else if v = 62 then '-'
  else '_'

/-- The six bits of a character, of either alphabet. -/
def value (c : Char) : Option ℕ :=
  if 'A' ≤ c ∧ c ≤ 'Z' then some (c.toNat - 65)
  else if 'a' ≤ c ∧ c ≤ 'z' then some (c.toNat - 71)
  else if '0' ≤ c ∧ c ≤ '9' then some (c.toNat + 4)
  else if c = '-' ∨ c = '+' then some 62
  else if c = '_' ∨ c = '/' then some 63
  else none

/-- `urlsafe_b64encode(data).rstrip("=")`. -/
def encode : List UInt8 → List Char
  | [] => []
  | [a] => [char (a.toNat / 4), char (a.toNat % 4 * 16)]
  | [a, b] => [char (a.toNat / 4), char (a.toNat % 4 * 16 + b.toNat / 16), char (b.toNat % 16 * 4)]
  | a :: b :: c :: rest =>
      char (a.toNat / 4) :: char (a.toNat % 4 * 16 + b.toNat / 16) :: char (b.toNat % 16 * 4 + c.toNat / 64) ::
        char (c.toNat % 64) :: encode rest

/-- The loop of `a2b_base64`, at a place in a group of four, with the bits that are left over and the padding seen. -/
def decodeFrom : ℕ → ℕ → ℕ → List Char → Option (List UInt8)
  | pos, _, _, [] => if pos = 0 then some [] else none
  | pos, left, pads, c :: cs =>
      if c = '=' then
        if 2 ≤ pos then
          if 4 ≤ pos + (pads + 1) then some [] else decodeFrom pos left (pads + 1) cs
        else decodeFrom pos left pads cs
      else match value c with
        | none => decodeFrom pos left pads cs
        | some v =>
            match pos with
            | 0 => decodeFrom 1 v 0 cs
            | 1 => (decodeFrom 2 (v % 16) 0 cs).map (UInt8.ofNat (left * 4 + v / 16) :: ·)
            | 2 => (decodeFrom 3 (v % 4) 0 cs).map (UInt8.ofNat (left * 16 + v / 4) :: ·)
            | _ => (decodeFrom 0 0 0 cs).map (UInt8.ofNat (left * 64 + v) :: ·)

/-- `urlsafe_b64decode`; `none` when it raises. -/
def decode (t : List Char) : Option (List UInt8) := if t.all (·.toNat < 128) then decodeFrom 0 0 0 t else none

/-- `t + "=" * (-len(t) % 4)`. -/
def padded (t : List Char) : List Char := t ++ List.replicate ((4 - t.length % 4) % 4) '='

example : encode [104, 105] = ['a', 'G', 'k'] := by simp [encode, char]

example : decodeFrom 0 0 0 [] = some [] := by simp [decodeFrom]

/-! ## Characters -/

theorem value_char : ∀ v < 64, value (char v) = some v := by decide

theorem char_ne_pad : ∀ v < 64, char v ≠ '=' := by decide

theorem char_ascii : ∀ v < 64, (char v).toNat < 128 := by decide

theorem char_ne_semicolon : ∀ v < 64, char v ≠ ';' := by decide

/-- A property of the alphabet holds of what is encoded. -/
theorem forall_mem_encode {P : Char → Prop} (hP : ∀ v < 64, P (char v)) (data : List UInt8) : ∀ c ∈ encode data, P c := by
  induction data using encode.induct with
  | case1 => simp [encode]
  | case2 a =>
      have ha := a.toNat_lt
      simp only [encode, List.mem_cons, List.not_mem_nil, or_false, forall_eq_or_imp, forall_eq]
      exact ⟨hP _ (by omega), hP _ (by omega)⟩
  | case3 a b =>
      have ha := a.toNat_lt
      have hb := b.toNat_lt
      simp only [encode, List.mem_cons, List.not_mem_nil, or_false, forall_eq_or_imp, forall_eq]
      exact ⟨hP _ (by omega), hP _ (by omega), hP _ (by omega)⟩
  | case4 a b c rest ih =>
      have ha := a.toNat_lt
      have hb := b.toNat_lt
      have hc := c.toNat_lt
      simp only [encode, List.mem_cons, forall_eq_or_imp]
      exact ⟨hP _ (by omega), hP _ (by omega), hP _ (by omega), hP _ (by omega), ih⟩

/-! ## The round trip -/

theorem decodeFrom_char {pos left pads v : ℕ} {cs : List Char} (hv : v < 64) : decodeFrom pos left pads (char v :: cs) =
    match pos with
    | 0 => decodeFrom 1 v 0 cs
    | 1 => (decodeFrom 2 (v % 16) 0 cs).map (UInt8.ofNat (left * 4 + v / 16) :: ·)
    | 2 => (decodeFrom 3 (v % 4) 0 cs).map (UInt8.ofNat (left * 16 + v / 4) :: ·)
    | _ => (decodeFrom 0 0 0 cs).map (UInt8.ofNat (left * 64 + v) :: ·) := by
  rw [decodeFrom, if_neg (char_ne_pad v hv), value_char v hv]

theorem decodeFrom_zero {left pads v : ℕ} {cs : List Char} (hv : v < 64) :
    decodeFrom 0 left pads (char v :: cs) = decodeFrom 1 v 0 cs := decodeFrom_char hv

theorem decodeFrom_one {left pads v : ℕ} {cs : List Char} (hv : v < 64) : decodeFrom 1 left pads (char v :: cs) =
    (decodeFrom 2 (v % 16) 0 cs).map (UInt8.ofNat (left * 4 + v / 16) :: ·) := decodeFrom_char hv

theorem decodeFrom_two {left pads v : ℕ} {cs : List Char} (hv : v < 64) : decodeFrom 2 left pads (char v :: cs) =
    (decodeFrom 3 (v % 4) 0 cs).map (UInt8.ofNat (left * 16 + v / 4) :: ·) := decodeFrom_char hv

theorem decodeFrom_three {left pads v : ℕ} {cs : List Char} (hv : v < 64) : decodeFrom 3 left pads (char v :: cs) =
    (decodeFrom 0 0 0 cs).map (UInt8.ofNat (left * 64 + v) :: ·) := decodeFrom_char hv

theorem ofNat_eq {a : UInt8} {n : ℕ} (h : n = a.toNat) : UInt8.ofNat n = a := by
  rw [h, UInt8.ofNat_toNat]

theorem decodeFrom_encode (data : List UInt8) :
    decodeFrom 0 0 0 (encode data ++ List.replicate ((4 - (encode data).length % 4) % 4) '=') = some data := by
  induction data using encode.induct with
  | case1 => rfl
  | case2 a =>
      have ha := a.toNat_lt
      simp only [encode, List.cons_append, List.nil_append]
      rw [decodeFrom_zero (by omega), decodeFrom_one (by omega)]
      have hpads : decodeFrom 2 (a.toNat % 4 * 16 % 16) 0
          (List.replicate ((4 - [char (a.toNat / 4), char (a.toNat % 4 * 16)].length % 4) % 4) '=') = some [] := rfl
      simp only [hpads, Option.map_some, ofNat_eq (a := a) (show a.toNat / 4 * 4 + a.toNat % 4 * 16 / 16 = a.toNat by omega)]
  | case3 a b =>
      have ha := a.toNat_lt
      have hb := b.toNat_lt
      simp only [encode, List.cons_append, List.nil_append]
      rw [decodeFrom_zero (by omega), decodeFrom_one (by omega), decodeFrom_two (by omega)]
      have hpads : decodeFrom 3 (b.toNat % 16 * 4 % 4) 0 (List.replicate ((4 - [char (a.toNat / 4),
          char (a.toNat % 4 * 16 + b.toNat / 16), char (b.toNat % 16 * 4)].length % 4) % 4) '=') = some [] := rfl
      have hfirst : a.toNat / 4 * 4 + (a.toNat % 4 * 16 + b.toNat / 16) / 16 = a.toNat := by omega
      have hsecond : (a.toNat % 4 * 16 + b.toNat / 16) % 16 * 16 + b.toNat % 16 * 4 / 4 = b.toNat := by omega
      simp only [hpads, Option.map_some, ofNat_eq hfirst, ofNat_eq hsecond]
  | case4 a b c rest ih =>
      have ha := a.toNat_lt
      have hb := b.toNat_lt
      have hc := c.toNat_lt
      have hlength : (encode (a :: b :: c :: rest)).length % 4 = (encode rest).length % 4 := by
        simp only [encode, List.length_cons]
        omega
      rw [hlength]
      simp only [encode, List.cons_append]
      rw [decodeFrom_zero (by omega), decodeFrom_one (by omega), decodeFrom_two (by omega), decodeFrom_three (by omega)]
      have hfirst : a.toNat / 4 * 4 + (a.toNat % 4 * 16 + b.toNat / 16) / 16 = a.toNat := by omega
      have hsecond : (a.toNat % 4 * 16 + b.toNat / 16) % 16 * 16 + (b.toNat % 16 * 4 + c.toNat / 64) / 4 = b.toNat := by omega
      have hthird : (b.toNat % 16 * 4 + c.toNat / 64) % 4 * 64 + c.toNat % 64 = c.toNat := by omega
      simp only [ih, Option.map_some, ofNat_eq hfirst, ofNat_eq hsecond, ofNat_eq hthird]

theorem decode_encode (data : List UInt8) : decode (padded (encode data)) = some data := by
  have hascii : (padded (encode data)).all (·.toNat < 128) = true := by
    simp only [padded, List.all_append, Bool.and_eq_true, List.all_eq_true, decide_eq_true_eq]
    refine ⟨forall_mem_encode char_ascii data, fun c hc => ?_⟩
    rw [List.eq_of_mem_replicate hc]
    decide
  rw [decode, if_pos hascii, padded, decodeFrom_encode]

end Base64
