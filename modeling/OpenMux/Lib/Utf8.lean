import Mathlib

/-!
# Decoding UTF-8 with replacement

A decoder that never fails: it cuts the bytes into pieces, each the bytes of a character or the longest start of one that
does not go on, and writes U+FFFD for the latter. The pieces make up the bytes.
-/

namespace Utf8

inductive Piece
  | char (c : Char)
  | bad (bytes : List UInt8)
deriving DecidableEq

namespace Piece

def bytes : Piece → List UInt8
  | char c => String.utf8EncodeChar c
  | bad bytes => bytes

def replacement : Char := '\ufffd'

/-- The character that is written for a piece. -/
def text : Piece → Char
  | char c => c
  | bad _ => replacement

/-- The character that is written for a piece takes as many bytes as the piece. -/
def SameLength (p : Piece) : Prop := p.bytes.length = (String.utf8EncodeChar p.text).length

instance : DecidablePred SameLength := fun _ => inferInstanceAs (Decidable (_ = _))

end Piece

/-- How many bytes follow a first byte, and the bounds of the one right after it. -/
def lead (b : UInt8) : Option (Nat × UInt8 × UInt8) :=
  if 0xC2 ≤ b ∧ b ≤ 0xDF then some (1, 0x80, 0xBF)
  else if b = 0xE0 then some (2, 0xA0, 0xBF)
  else if b = 0xED then some (2, 0x80, 0x9F)
  else if 0xE1 ≤ b ∧ b ≤ 0xEF then some (2, 0x80, 0xBF)
  else if b = 0xF0 then some (3, 0x90, 0xBF)
  else if b = 0xF4 then some (3, 0x80, 0x8F)
  else if 0xF1 ≤ b ∧ b ≤ 0xF3 then some (3, 0x80, 0xBF)
  else none

def isTail (b : UInt8) : Bool := 0x80 ≤ b && b ≤ 0xBF

/-- The length of the longest start of a character, for bytes that begin with no whole one. -/
def badLength (b : UInt8) (rest : List UInt8) : Nat :=
  match lead b, rest with
  | some (n, lo, hi), c :: cs => if lo ≤ c ∧ c ≤ hi then 2 + ((cs.take (n - 2)).takeWhile isTail).length else 1
  | _, _ => 1

/-- The piece that the bytes begin with. -/
def next (b : UInt8) (rest : List UInt8) : Piece :=
  match ByteArray.utf8DecodeChar? ⟨(b :: rest).toArray⟩ 0 with
  | some c => .char c
  | none => .bad ((b :: rest).take (badLength b rest))

def piecesUpTo : Nat → List UInt8 → List Piece
  | 0, _ | _, [] => []
  | n + 1, b :: rest => next b rest :: piecesUpTo n ((b :: rest).drop (next b rest).bytes.length)

def pieces (bytes : List UInt8) : List Piece := piecesUpTo bytes.length bytes

/-- `decode` with replacement. -/
def decode (bytes : List UInt8) : List Char := (pieces bytes).map Piece.text

/-- `decode` that leaves out what is no character. -/
def decodeIgnore (bytes : List UInt8) : List Char :=
  (pieces bytes).filterMap fun
    | .char c => some c
    | .bad _ => none

variable {b : UInt8} {rest bs : List UInt8} {p : Piece}

/-! ## The pieces make up the bytes -/

theorem lead_le {n : Nat} {lo hi : UInt8} (h : lead b = some (n, lo, hi)) : n ≤ 3 := by
  unfold lead at h
  split_ifs at h <;> cases h <;> decide

theorem badLength_pos : 0 < badLength b rest := by
  unfold badLength
  split
  · split <;> omega
  · exact one_pos

theorem badLength_le : badLength b rest ≤ 3 := by
  unfold badLength
  split
  · rename_i n lo hi c cs hlead
    have hn := lead_le hlead
    have htake := (List.takeWhile_sublist isTail (l := cs.take (n - 2))).length_le
    rw [List.length_take] at htake
    split <;> omega
  · decide

theorem next_prefix (b : UInt8) (rest : List UInt8) : (next b rest).bytes <+: b :: rest := by
  unfold next
  split
  · rename_i c h
    obtain ⟨l, hl⟩ := ByteArray.exists_of_utf8DecodeChar?_eq_some h
    refine ⟨l.data.toList, ?_⟩
    have hdata := congrArg (fun x : ByteArray => x.data.toList) hl
    simpa [Piece.bytes] using hdata.symm
  · exact List.take_prefix ..

theorem next_length_pos (b : UInt8) (rest : List UInt8) : 0 < (next b rest).bytes.length := by
  unfold next
  split
  · rename_i c _
    simpa [Piece.bytes] using Char.utf8Size_pos c
  · simpa [Piece.bytes] using badLength_pos

theorem flatMap_piecesUpTo {n : Nat} (h : bs.length ≤ n) : (piecesUpTo n bs).flatMap Piece.bytes = bs := by
  induction n generalizing bs with
  | zero => simpa [piecesUpTo] using h
  | succ n ih =>
      cases bs with
      | nil => rfl
      | cons b rest =>
          have hpos := next_length_pos b rest
          have hlen : ((b :: rest).drop (next b rest).bytes.length).length ≤ n := by
            rw [List.length_drop]
            omega
          rw [piecesUpTo, List.flatMap_cons, ih hlen]
          obtain ⟨t, ht⟩ := next_prefix b rest
          conv_rhs => rw [← ht]
          rw [← ht, List.drop_left]

theorem flatMap_pieces : (pieces bs).flatMap Piece.bytes = bs := flatMap_piecesUpTo le_rfl

/-! ## What is written takes no fewer bytes -/

theorem length_le_of_mem_piecesUpTo {n : Nat} (h : p ∈ piecesUpTo n bs) :
    p.bytes.length ≤ (String.utf8EncodeChar p.text).length := by
  induction n generalizing bs with
  | zero => cases h
  | succ n ih =>
      cases bs with
      | nil => cases h
      | cons b rest =>
          rcases List.mem_cons.mp h with rfl | h
          · unfold next
            split
            · exact le_rfl
            · exact le_trans (List.length_take_le ..) badLength_le
          · exact ih h

theorem length_pos_of_mem_piecesUpTo {n : Nat} (h : p ∈ piecesUpTo n bs) : 0 < p.bytes.length := by
  induction n generalizing bs with
  | zero => cases h
  | succ n ih =>
      cases bs with
      | nil => cases h
      | cons b rest =>
          rcases List.mem_cons.mp h with rfl | h
          · exact next_length_pos _ _
          · exact ih h

theorem length_pos_of_mem (h : p ∈ pieces bs) : 0 < p.bytes.length := length_pos_of_mem_piecesUpTo h

theorem length_le_of_mem (h : p ∈ pieces bs) : p.bytes.length ≤ (String.utf8EncodeChar p.text).length :=
  length_le_of_mem_piecesUpTo h

/-- The characters of some pieces take no fewer bytes than the pieces, and just as many only if each of them does. -/
theorem length_flatMap_le {ps : List Piece} (h : ∀ p ∈ ps, p.bytes.length ≤ (String.utf8EncodeChar p.text).length) :
    (ps.flatMap Piece.bytes).length ≤ ((ps.map Piece.text).flatMap String.utf8EncodeChar).length ∧
      (((ps.map Piece.text).flatMap String.utf8EncodeChar).length = (ps.flatMap Piece.bytes).length ↔
        ∀ p ∈ ps, p.SameLength) := by
  induction ps with
  | nil => simp
  | cons p ps ih =>
      obtain ⟨hle, hiff⟩ := ih fun q hq => h q (List.mem_cons_of_mem _ hq)
      have hp := h p List.mem_cons_self
      rw [List.map_cons, List.flatMap_cons, List.flatMap_cons, List.length_append, List.length_append, List.forall_mem_cons, ← hiff]
      unfold Piece.SameLength
      constructor
      · omega
      · constructor
        · intro heq
          constructor <;> omega
        · rintro ⟨hfirst, hrest⟩
          omega

/-! ## What was encoded -/

theorem next_utf8EncodeChar {c : Char} {tail : List UInt8} (h : b :: rest = String.utf8EncodeChar c ++ tail) : next b rest = .char c := by
  have hdecode : ByteArray.utf8DecodeChar? ⟨(b :: rest).toArray⟩ 0 = some c := by
    have happend : (⟨(b :: rest).toArray⟩ : ByteArray) = (String.utf8EncodeChar c).toByteArray ++ ⟨tail.toArray⟩ := by
      rw [h]
      apply ByteArray.ext
      simp
    rw [happend]
    exact ByteArray.utf8DecodeChar?_utf8EncodeChar_append
  rw [next, hdecode]

theorem piecesUpTo_encode (t : List Char) {n : Nat} (h : (t.flatMap String.utf8EncodeChar).length ≤ n) :
    piecesUpTo n (t.flatMap String.utf8EncodeChar) = t.map .char := by
  induction t generalizing n with
  | nil => cases n <;> rfl
  | cons c t ih =>
      rw [List.flatMap_cons] at h ⊢
      have hpos : 0 < (String.utf8EncodeChar c).length := by simpa using Char.utf8Size_pos c
      rw [List.length_append] at h
      obtain _ | n := n
      · omega
      · obtain ⟨b, rest, hrest⟩ := List.exists_cons_of_length_pos (l := String.utf8EncodeChar c ++ t.flatMap String.utf8EncodeChar)
          (by rw [List.length_append]; omega)
        rw [hrest, piecesUpTo, next_utf8EncodeChar hrest.symm, ← hrest]
        show Piece.char c :: piecesUpTo n ((String.utf8EncodeChar c ++ t.flatMap String.utf8EncodeChar).drop (String.utf8EncodeChar c).length) = _
        rw [List.drop_left, ih (by omega)]
        rfl

theorem decodeIgnore_encode (t : List Char) : decodeIgnore (t.flatMap String.utf8EncodeChar) = t := by
  rw [decodeIgnore, pieces, piecesUpTo_encode t le_rfl, List.filterMap_map]
  exact List.filterMap_some

end Utf8
