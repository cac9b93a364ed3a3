import Mathlib

/-!
# Python text, integers and ASCII bytes

`str` is a list of characters. `str(n)` and `int(t)` refuse more than 4300 digits, as the interpreter does. `int` is given
for ASCII text, which is all that decoded ASCII bytes can be.
-/

namespace Py

abbrev Text := List Char

instance : LawfulBEq Text := inferInstance

/-- The characters beyond ASCII for which `str.isspace` holds. -/
def wideSpaces : List Nat :=
  [0x85, 0xa0, 0x1680, 0x2000, 0x2001, 0x2002, 0x2003, 0x2004, 0x2005, 0x2006, 0x2007, 0x2008, 0x2009, 0x200a, 0x2028,
    0x2029, 0x202f, 0x205f, 0x3000]

/-- `str.isspace` of one character. -/
def isSpace (c : Char) : Bool :=
  (9 ≤ c.toNat && c.toNat ≤ 13) || (28 ≤ c.toNat && c.toNat ≤ 32) || wideSpaces.contains c.toNat

def strip (t : Text) : Text := ((t.dropWhile isSpace).reverse.dropWhile isSpace).reverse

/-- `t.split(sep, maxsplit)`. -/
def split (sep : Char) : Nat → Text → List Text
  | _, [] => [[]]
  | 0, t => [t]
  | n + 1, c :: t =>
      if c = sep then [] :: split sep n t
      else match split sep (n + 1) t with
        | [] => [[c]]
        | p :: ps => (c :: p) :: ps

/-- `t.count(c + c)`: occurrences that do not overlap. -/
def countTwice (c : Char) : Text → Nat
  | a :: b :: t => if a = c ∧ b = c then countTwice c t + 1 else countTwice c (b :: t)
  | _ => 0

/-- `t.split(c + c, 1)` for text that has the separator. -/
def cutTwice (c : Char) : Text → Option (Text × Text)
  | a :: b :: t => if a = c ∧ b = c then some ([], t) else (cutTwice c (b :: t)).map fun (p, q) => (a :: p, q)
  | _ => none

/-- The digit limit of conversions between `int` and `str`. -/
def maxStrDigits : Nat := 4300

/-- `str(n)`; `none` when it raises `ValueError`. -/
def str (n : Int) : Option Text :=
  let ds := Nat.toDigits 10 n.natAbs
  if maxStrDigits < ds.length then none
  else some (if n < 0 then '-' :: ds else ds)

/-- The text of an integer that `str` can print, such as one that `int` read. -/
def decimal (n : Int) : Text :=
  if n < 0 then '-' :: Nat.toDigits 10 n.natAbs else Nat.toDigits 10 n.natAbs

/-- The digits of an integer literal; single underscores may stand between them. -/
def digits : Text → Option Text
  | [] => none
  | [c] => if c.isDigit then some [c] else none
  | c :: '_' :: rest => if c.isDigit then (digits rest).map (c :: ·) else none
  | c :: d :: rest => if c.isDigit then (digits (d :: rest)).map (c :: ·) else none

def natOf (t : Text) : Option Nat :=
  match digits t with
  | none => none
  | some ds => if maxStrDigits < ds.length then none else some (Nat.ofDigitChars 10 ds 0)

/-- `int(t)`; `none` when it raises `ValueError`. -/
def int (t : Text) : Option Int :=
  match strip t with
  | '-' :: ds => (natOf ds).map fun k : Nat => -(k : Int)
  | '+' :: ds => (natOf ds).map fun k : Nat => (k : Int)
  | ds => (natOf ds).map fun k : Nat => (k : Int)

/-- `t.encode("ascii")`; `none` when it raises `UnicodeEncodeError`. -/
def encodeAscii : Text → Option (List UInt8)
  | [] => some []
  | c :: t => if c.toNat < 128 then (encodeAscii t).map (UInt8.ofNat c.toNat :: ·) else none

/-- `b.decode("ascii")`; `none` when it raises `UnicodeDecodeError`. -/
def decodeAscii : List UInt8 → Option Text
  | [] => some []
  | b :: bs => if b.toNat < 128 then (decodeAscii bs).map (Char.ofNat b.toNat :: ·) else none

def encodeUtf8 (t : Text) : List UInt8 := t.flatMap String.utf8EncodeChar

/-! ## Integers come back -/

variable {c : Char} {t u : Text} {n : Int} {bs cs : List UInt8}

theorem isSpace_of_isDigit (h : c.isDigit) : isSpace c = false := by
  simp only [Char.isDigit, Bool.and_eq_true, decide_eq_true_eq] at h
  have h₁ : 48 ≤ c.toNat := h.1
  have h₂ : c.toNat ≤ 57 := h.2
  have h₃ : wideSpaces.contains c.toNat = false :=
    (by decide : ∀ n < 58, wideSpaces.contains n = false) c.toNat (by omega)
  simp only [isSpace, h₃, Bool.or_false, Bool.or_eq_false_iff, Bool.and_eq_false_iff, decide_eq_false_iff_not]
  omega

theorem dropWhile_of_head {p : Char → Bool} (h : p c = false) : (c :: t).dropWhile p = c :: t := by
  simp [h]

/-- Text whose ends are not blank is not changed. -/
theorem strip_of_ends (h₁ : isSpace c = false) {d : Char} (h₂ : (c :: t).getLast? = some d) (h₃ : isSpace d = false) :
    strip (c :: t) = c :: t := by
  unfold strip
  rw [dropWhile_of_head h₁]
  have hrev : (c :: t).reverse.head? = some d := by rw [List.head?_reverse]; exact h₂
  cases hr : (c :: t).reverse with
  | nil => simp at hr
  | cons x xs =>
      rw [hr] at hrev
      cases hrev
      rw [dropWhile_of_head h₃, ← hr, List.reverse_reverse]

theorem digits_of_all (hne : t ≠ []) (h : ∀ c ∈ t, c.isDigit = true) : digits t = some t := by
  induction t with
  | nil => exact absurd rfl hne
  | cons c t ih =>
      have hc := h c List.mem_cons_self
      cases t with
      | nil => simp [digits, hc]
      | cons d t =>
          have hd := h d (List.mem_cons_of_mem _ List.mem_cons_self)
          have hu : d ≠ '_' := by rintro rfl; revert hd; decide
          have ih' := ih (by simp) (fun x hx => h x (List.mem_cons_of_mem _ hx))
          unfold digits
          split
          · rename_i heq; cases heq
          · rename_i heq; cases heq
          · rename_i heq; cases heq; exact absurd rfl hu
          · rename_i heq
            cases heq
            rw [if_pos hc, ih']
            rfl

theorem natOf_toDigits {k : Nat} (h : (Nat.toDigits 10 k).length ≤ maxStrDigits) :
    natOf (Nat.toDigits 10 k) = some k := by
  unfold natOf
  rw [digits_of_all Nat.toDigits_ne_nil
    (fun c hc => Nat.isDigit_of_mem_toDigits (by decide) (by decide) hc)]
  simp [Nat.not_lt.mpr h]

theorem str_cases (h : str n = some t) : (Nat.toDigits 10 n.natAbs).length ≤ maxStrDigits ∧
    t = if n < 0 then '-' :: Nat.toDigits 10 n.natAbs else Nat.toDigits 10 n.natAbs := by
  simp only [str] at h
  split at h
  · cases h
  · exact ⟨Nat.le_of_not_lt ‹_›, (Option.some.inj h).symm⟩

theorem str_ne_nil (h : str n = some t) : t ≠ [] := by
  obtain ⟨_, rfl⟩ := str_cases h
  split
  · simp
  · exact Nat.toDigits_ne_nil

/-- A printed integer has digits and at most a minus sign. -/
theorem mem_str (h : str n = some t) (hc : c ∈ t) : c = '-' ∨ c.isDigit = true := by
  obtain ⟨_, rfl⟩ := str_cases h
  split at hc
  · rcases List.mem_cons.mp hc with rfl | hc
    · exact Or.inl rfl
    · exact Or.inr (Nat.isDigit_of_mem_toDigits (by decide) (by decide) hc)
  · exact Or.inr (Nat.isDigit_of_mem_toDigits (by decide) (by decide) hc)

theorem not_mem_str (h : str n = some t) (hm : c ≠ '-') (hd : c.isDigit = false) : c ∉ t := by
  intro hc
  rcases mem_str h hc with rfl | hd'
  · exact hm rfl
  · rw [hd] at hd'
    cases hd'

/-- Text up to the first separator is determined. -/
theorem append_sep_inj {c : Char} {a a' b b' : Text} (ha : c ∉ a) (ha' : c ∉ a') (h : a ++ c :: b = a' ++ c :: b') :
    a = a' ∧ b = b' := by
  induction a generalizing a' with
  | nil =>
      cases a' with
      | nil => exact ⟨rfl, (List.cons.inj h).2⟩
      | cons x a' => exact absurd (List.cons.inj h).1 (fun he => ha' (he ▸ List.mem_cons_self))
  | cons x a ih =>
      cases a' with
      | nil => exact absurd (List.cons.inj h).1.symm (fun he => ha (he ▸ List.mem_cons_self))
      | cons y a' =>
          obtain ⟨rfl, hrest⟩ := List.cons.inj h
          obtain ⟨rfl, rfl⟩ := ih (fun hm => ha (List.mem_cons_of_mem _ hm)) (fun hm => ha' (List.mem_cons_of_mem _ hm)) hrest
          exact ⟨rfl, rfl⟩

theorem mem_decimal {n : Int} {c : Char} (hc : c ∈ decimal n) : c = '-' ∨ c.isDigit = true := by
  unfold decimal at hc
  split at hc
  · rcases List.mem_cons.mp hc with rfl | hc
    · exact Or.inl rfl
    · exact Or.inr (Nat.isDigit_of_mem_toDigits (by decide) (by decide) hc)
  · exact Or.inr (Nat.isDigit_of_mem_toDigits (by decide) (by decide) hc)

theorem toDigits_injective {k k' : Nat} (h : Nat.toDigits 10 k = Nat.toDigits 10 k') : k = k' := by
  have hof : Nat.ofDigitChars 10 (Nat.toDigits 10 k) 0 = Nat.ofDigitChars 10 (Nat.toDigits 10 k') 0 := by rw [h]
  simpa using hof

theorem decimal_injective {n m : Int} (h : decimal n = decimal m) : n = m := by
  have hminus : ∀ k, Nat.toDigits 10 k ≠ '-' :: Nat.toDigits 10 n.natAbs ∧
      Nat.toDigits 10 k ≠ '-' :: Nat.toDigits 10 m.natAbs := by
    intro k
    constructor <;>
    · intro hk
      have hd : ('-' : Char).isDigit = true :=
        Nat.isDigit_of_mem_toDigits (b := 10) (n := k) (by decide) (by decide) (by rw [hk]; exact List.mem_cons_self)
      revert hd
      decide
  unfold decimal at h
  split_ifs at h with hn hm hm
  · have hk := toDigits_injective (List.cons.inj h).2
    omega
  · exact absurd h.symm (hminus _).1
  · exact absurd h (hminus _).2
  · have hk := toDigits_injective h
    omega

theorem isSpace_of_mem_str (h : str n = some t) (hc : c ∈ t) : isSpace c = false := by
  rcases mem_str h hc with rfl | hd
  · rfl
  · exact isSpace_of_isDigit hd

theorem strip_str (h : str n = some t) : strip t = t := by
  have hspace := fun (c : Char) (hc : c ∈ t) => isSpace_of_mem_str h hc
  cases ht : t with
  | nil => exact absurd ht (str_ne_nil h)
  | cons c t' =>
      rw [ht] at hspace
      obtain ⟨d, hd⟩ : ∃ d, (c :: t').getLast? = some d := ⟨_, List.getLast?_eq_some_getLast (by simp)⟩
      exact strip_of_ends (hspace c List.mem_cons_self) hd (hspace d (List.mem_of_getLast? hd))

theorem int_str (h : str n = some t) : int t = some n := by
  unfold int
  rw [strip_str h]
  obtain ⟨hlen, rfl⟩ := str_cases h
  have hnat := natOf_toDigits hlen
  by_cases hn : n < 0
  · simp only [hn, if_true, hnat, Option.map_some, Option.some.injEq]
    omega
  · simp only [hn, if_false]
    have hall : ∀ c ∈ Nat.toDigits 10 n.natAbs, c.isDigit = true :=
      fun c hc => Nat.isDigit_of_mem_toDigits (by decide) (by decide) hc
    split
    · rename_i heq
      rw [heq] at hall
      have hminus := hall '-' List.mem_cons_self
      exact absurd hminus (by decide)
    · rename_i heq
      rw [heq] at hall
      have hplus := hall '+' List.mem_cons_self
      exact absurd hplus (by decide)
    · rw [hnat]
      simp only [Option.map_some, Option.some.injEq]
      omega

/-! ## Splitting -/

theorem split_sep (sep : Char) (k : Nat) (t : Text) : split sep (k + 1) (sep :: t) = [] :: split sep k t := by
  simp [split]

/-- A piece without the separator is cut off in front of it. -/
theorem split_piece {sep : Char} {k : Nat} (h : sep ∉ t) :
    split sep (k + 1) (t ++ sep :: u) = t :: split sep k u := by
  induction t with
  | nil => exact split_sep sep k u
  | cons c t ih =>
      have hc : c ≠ sep := by rintro rfl; exact h List.mem_cons_self
      rw [List.cons_append, split, if_neg hc, ih (fun hm => h (List.mem_cons_of_mem _ hm))]

theorem split_ne_nil (sep : Char) (n : Nat) (t : Text) : split sep n t ≠ [] := by
  induction t generalizing n with
  | nil => simp [split]
  | cons c t ih =>
      cases n with
      | zero => simp [split]
      | succ n =>
          rw [split]
          split
          · simp
          · split <;> simp

/-- The pieces are the text again when they are joined. -/
theorem intercalate_split (sep : Char) (n : Nat) (t : Text) : [sep].intercalate (split sep n t) = t := by
  induction t generalizing n with
  | nil => rw [split, List.intercalate_singleton]
  | cons c t ih =>
      cases n with
      | zero => simp [split]
      | succ n =>
          rw [split]
          split
          · rename_i hc
            rw [List.intercalate_cons_of_ne_nil (split_ne_nil sep n t), ih n, hc]
            rfl
          · cases hps : split sep (n + 1) t with
            | nil => exact absurd hps (split_ne_nil sep (n + 1) t)
            | cons p ps =>
                have hrest := ih (n + 1)
                rw [hps] at hrest
                rw [List.intercalate_cons_cons_left, hrest]

theorem split_two {sep : Char} {n : Nat} {a b : Text} (h : split sep n t = [a, b]) : t = a ++ sep :: b := by
  have := intercalate_split sep n t
  rw [h, List.intercalate_cons_cons, List.intercalate_singleton] at this
  simpa using this.symm

/-! ## ASCII -/

theorem encodeAscii_append (ht : encodeAscii t = some bs) (hu : encodeAscii u = some cs) :
    encodeAscii (t ++ u) = some (bs ++ cs) := by
  induction t generalizing bs with
  | nil => cases ht; exact hu
  | cons c t ih =>
      simp only [encodeAscii] at ht
      split at ht
      · obtain ⟨bs', hbs, rfl⟩ := Option.map_eq_some_iff.mp ht
        simp [encodeAscii, ‹c.toNat < 128›, ih hbs]
      · cases ht

/-- Text that encodes splits where the text does. -/
theorem encodeAscii_append_inv (h : encodeAscii (t ++ u) = some bs) :
    ∃ b₁ b₂, encodeAscii t = some b₁ ∧ encodeAscii u = some b₂ ∧ bs = b₁ ++ b₂ := by
  induction t generalizing bs with
  | nil => exact ⟨[], bs, rfl, h, rfl⟩
  | cons c t ih =>
      simp only [List.cons_append, encodeAscii] at h
      split at h
      · obtain ⟨bs', hbs, rfl⟩ := Option.map_eq_some_iff.mp h
        obtain ⟨b₁, b₂, h₁, h₂, rfl⟩ := ih hbs
        exact ⟨UInt8.ofNat c.toNat :: b₁, b₂, by simp [encodeAscii, ‹c.toNat < 128›, h₁], h₂, rfl⟩
      · cases h

theorem toNat_ofNat_of_lt {k : Nat} (h : k < 128) : (UInt8.ofNat k).toNat = k := by
  rw [UInt8.toNat_ofNat']
  exact Nat.mod_eq_of_lt (by omega)

theorem decodeAscii_encodeAscii (h : encodeAscii t = some bs) : decodeAscii bs = some t := by
  induction t generalizing bs with
  | nil => cases h; rfl
  | cons c t ih =>
      simp only [encodeAscii] at h
      split at h
      · obtain ⟨bs', hbs, rfl⟩ := Option.map_eq_some_iff.mp h
        have hlt : c.toNat < 128 := ‹_›
        simp [decodeAscii, toNat_ofNat_of_lt hlt, hlt, ih hbs]
      · cases h

/-- A byte of encoded text stands for a character of the text. -/
theorem mem_encodeAscii (h : encodeAscii t = some bs) (hc : c ∉ t) (hlt : c.toNat < 128) :
    UInt8.ofNat c.toNat ∉ bs := by
  induction t generalizing bs with
  | nil => cases h; simp
  | cons d t ih =>
      simp only [encodeAscii] at h
      split at h
      · obtain ⟨bs', hbs, rfl⟩ := Option.map_eq_some_iff.mp h
        have hd : d.toNat < 128 := ‹_›
        intro hm
        rcases List.mem_cons.mp hm with he | hm
        · have hnat := congrArg UInt8.toNat he
          rw [toNat_ofNat_of_lt hlt, toNat_ofNat_of_lt hd] at hnat
          exact hc (by rw [Char.ext (UInt32.toNat_inj.mp hnat)]; exact List.mem_cons_self)
        · exact ih hbs (fun hm' => hc (List.mem_cons_of_mem _ hm')) hm
      · cases h

end Py

/-!
## Pieces of a text

What `str.split` leaves out, and how many pieces there are.
-/

namespace Py

variable {sep : Char} {k : ℕ} {t p : Text}

/-- No piece has the separator. -/
theorem notMem_split (h : t.length ≤ k) (hp : p ∈ split sep k t) : sep ∉ p := by
  induction t generalizing k p with
  | nil =>
      rw [split, List.mem_singleton] at hp
      rw [hp]
      exact List.not_mem_nil
  | cons c t ih =>
      cases k with
      | zero => simp at h
      | succ k =>
          rw [List.length_cons] at h
          rw [split] at hp
          split at hp
          · rcases List.mem_cons.mp hp with rfl | hp
            · exact List.not_mem_nil
            · exact ih (by omega) hp
          · rename_i hc
            have ih' := fun p (hp : p ∈ split sep (k + 1) t) => ih (by omega) hp
            split at hp
            · rw [List.mem_singleton.mp hp]
              simpa using Ne.symm hc
            · rename_i q qs hq
              rw [hq] at ih'
              rcases List.mem_cons.mp hp with rfl | hp
              · have hq' := ih' q List.mem_cons_self
                simp [hq', Ne.symm hc]
              · exact ih' p (List.mem_cons_of_mem _ hp)

/-- A text without the separator is one piece. -/
theorem split_self (h : sep ∉ t) : split sep k t = [t] := by
  induction t generalizing k with
  | nil => rw [split]
  | cons c t ih =>
      obtain ⟨hc, ht⟩ := not_or.mp (fun hor => h (List.mem_cons.mpr hor))
      cases k with
      | zero =>
          rw [split]
          exact List.cons_ne_nil c t
      | succ k => rw [split, if_neg (Ne.symm hc), ih ht]

/-- There is one piece more than there are separators. -/
theorem length_split (sep : Char) (h : t.length ≤ k) : (split sep k t).length = t.count sep + 1 := by
  induction t generalizing k with
  | nil => rw [split]; rfl
  | cons c t ih =>
      cases k with
      | zero => simp at h
      | succ k =>
          rw [List.length_cons] at h
          rw [split]
          split
          · rename_i hc
            rw [List.length_cons, ih (by omega), hc, List.count_cons_self]
          · rename_i hc
            have ih' := ih (k := k + 1) (by omega)
            rw [List.count_cons_of_ne hc]
            split
            · rename_i hnil
              exact absurd hnil (split_ne_nil _ _ _)
            · rename_i q qs hq
              rw [hq] at ih'
              exact ih'

end Py
