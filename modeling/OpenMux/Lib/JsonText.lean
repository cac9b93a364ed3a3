import OpenMux.Lib.PyText

/-!
# JSON text

What `json.dumps` writes with compact separators and `json.loads` reads. A number with a fraction or an exponent, an infinity and NaN are
the float of their literal. A text that names half of a surrogate pair is not read, as no `Text` holds it.
-/

namespace JsonText

open Py

inductive Doc
  | null
  | bool (b : Bool)
  | int (n : Int)
  | float (literal : Text)
  | str (t : Text)
  | arr (xs : List Doc)
  | obj (es : List (Text × Doc))

/-! ## Writing -/

def hexDigit (n : Nat) : Char := Char.ofNat (if n < 10 then 48 + n else 87 + n)

def hex4 (n : Nat) : Text := [hexDigit (n / 4096), hexDigit (n / 256 % 16), hexDigit (n / 16 % 16), hexDigit (n % 16)]

/-- `\uXXXX`. -/
def unicode (n : Nat) : Text := '\\' :: 'u' :: hex4 n

/-- What stands for a character in a string. -/
def escape (c : Char) : Text :=
  if c = '"' then ['\\', '"']
  else if c = '\\' then ['\\', '\\']
  else if c = '\n' then ['\\', 'n']
  else if c = '\r' then ['\\', 'r']
  else if c = '\t' then ['\\', 't']
  else if c.toNat = 12 then ['\\', 'f']
  else if c.toNat = 8 then ['\\', 'b']
  else if 32 ≤ c.toNat ∧ c.toNat ≤ 126 then [c]
  else if c.toNat < 0x10000 then unicode c.toNat
  else unicode (0xD800 + (c.toNat - 0x10000) / 0x400) ++ unicode (0xDC00 + (c.toNat - 0x10000) % 0x400)

def quote (t : Text) : Text := '"' :: (t.flatMap escape ++ ['"'])

namespace Doc

mutual
def text : Doc → Text
  | null => ['n', 'u', 'l', 'l']
  | bool true => ['t', 'r', 'u', 'e']
  | bool false => ['f', 'a', 'l', 's', 'e']
  | int n => decimal n
  | float literal => literal
  | str t => quote t
  | arr xs => '[' :: (textElements xs ++ [']'])
  | obj es => '{' :: (textEntries es ++ ['}'])

def textElements : List Doc → Text
  | [] => []
  | [x] => x.text
  | x :: y :: xs => x.text ++ ',' :: textElements (y :: xs)

def textEntries : List (Text × Doc) → Text
  | [] => []
  | [(k, x)] => quote k ++ ':' :: x.text
  | (k, x) :: e :: es => quote k ++ ':' :: (x.text ++ ',' :: textEntries (e :: es))
end

end Doc

/-! ## Reading -/

def isBlank (c : Char) : Bool := c = ' ' || c = '\t' || c = '\n' || c = '\r'

def skipBlank : Text → Text := List.dropWhile isBlank

def hexVal (c : Char) : Option Nat :=
  if 48 ≤ c.toNat ∧ c.toNat ≤ 57 then some (c.toNat - 48)
  else if 97 ≤ c.toNat ∧ c.toNat ≤ 102 then some (c.toNat - 87)
  else if 65 ≤ c.toNat ∧ c.toNat ≤ 70 then some (c.toNat - 55)
  else none

/-- The number of four hexadecimal digits. -/
def unhex4 (a b c d : Char) : Option Nat := do
  let a ← hexVal a
  let b ← hexVal b
  let c ← hexVal c
  let d ← hexVal d
  return a * 4096 + b * 256 + c * 16 + d

def isHigh (n : Nat) : Bool := 0xD800 ≤ n && n ≤ 0xDBFF

def isLow (n : Nat) : Bool := 0xDC00 ≤ n && n ≤ 0xDFFF

/-- The character of an escape of one letter. -/
def unescape (c : Char) : Option Char :=
  if c = '"' ∨ c = '\\' ∨ c = '/' then some c
  else if c = 'b' then some (Char.ofNat 8)
  else if c = 'f' then some (Char.ofNat 12)
  else if c = 'n' then some '\n'
  else if c = 'r' then some '\r'
  else if c = 't' then some '\t'
  else none

/-- The string whose opening quote was read, and what follows its closing quote. -/
def scanString : Text → Option (Text × Text)
  | [] => none
  | '"' :: t => some ([], t)
  | '\\' :: 'u' :: a :: b :: c :: d :: t =>
      match unhex4 a b c d with
      | none => none
      | some n =>
          if isHigh n then
            match t with
            | '\\' :: 'u' :: a' :: b' :: c' :: d' :: t =>
                match unhex4 a' b' c' d' with
                | none => none
                | some n' =>
                    if isLow n' then (scanString t).map fun (s, r) => (Char.ofNat (0x10000 + (n - 0xD800) * 0x400 + (n' - 0xDC00)) :: s, r)
                    else none
            | _ => none
          else if isLow n then none
          else (scanString t).map fun (s, r) => (Char.ofNat n :: s, r)
  | '\\' :: c :: t =>
      match unescape c with
      | none => none
      | some x => (scanString t).map fun (s, r) => (x :: s, r)
  | c :: t => if c.toNat < 32 ∨ c = '\\' then none else (scanString t).map fun (s, r) => (c :: s, r)

def digitsOf (t : Text) : Text × Text := t.span Char.isDigit

/-- `0`, or digits that do not begin with it. -/
def scanInteger : Text → Option (Text × Text)
  | '0' :: r => some (['0'], r)
  | c :: r => if c.isDigit then some (c :: (digitsOf r).1, (digitsOf r).2) else none
  | [] => none

def scanFraction : Text → Text × Text
  | '.' :: r => if (digitsOf r).1 = [] then ([], '.' :: r) else ('.' :: (digitsOf r).1, (digitsOf r).2)
  | r => ([], r)

def exponentSign : Text → Text × Text
  | '+' :: r => (['+'], r)
  | '-' :: r => (['-'], r)
  | r => ([], r)

def scanExponent : Text → Text × Text
  | c :: r =>
      if c = 'e' ∨ c = 'E' then
        let (sign, r') := exponentSign r
        if (digitsOf r').1 = [] then ([], c :: r) else (c :: (sign ++ (digitsOf r').1), (digitsOf r').2)
      else ([], c :: r)
  | [] => ([], [])

def minusSign : Text → Text × Text
  | '-' :: r => (['-'], r)
  | r => ([], r)

def scanNumber (t : Text) : Option (Doc × Text) :=
  match scanInteger (minusSign t).2 with
  | none => none
  | some (integer, r) =>
      let fraction := scanFraction r
      let exponent := scanExponent fraction.2
      if fraction.1 = [] ∧ exponent.1 = [] then (int ((minusSign t).1 ++ integer)).map fun n => (.int n, exponent.2)
      else some (.float ((minusSign t).1 ++ integer ++ fraction.1 ++ exponent.1), exponent.2)

def constants : List (Text × Doc) := [
  ("null".toList, .null), ("true".toList, .bool true), ("false".toList, .bool false), ("NaN".toList, .float "NaN".toList),
  ("Infinity".toList, .float "Infinity".toList), ("-Infinity".toList, .float "-Infinity".toList)]

def scanConstant (t : Text) : Option (Doc × Text) := constants.findSome? fun (word, d) => (t.dropPrefix? word).map fun r => (d, r)

mutual
/-- The document that a text begins with, and what follows it. -/
def scan : Nat → Text → Option (Doc × Text)
  | 0, _ => none
  | _ + 1, '"' :: r => (scanString r).map fun (s, r) => (.str s, r)
  | n + 1, '{' :: r =>
      match skipBlank r with
      | '}' :: r => some (.obj [], r)
      | r => (scanEntries n r).map fun (es, r) => (.obj es, r)
  | n + 1, '[' :: r =>
      match skipBlank r with
      | ']' :: r => some (.arr [], r)
      | r => (scanElements n r).map fun (xs, r) => (.arr xs, r)
  | _ + 1, t =>
      match scanConstant t with
      | some x => some x
      | none => scanNumber t

def scanElements : Nat → Text → Option (List Doc × Text)
  | 0, _ => none
  | n + 1, t =>
      match scan n t with
      | none => none
      | some (x, r) =>
          match skipBlank r with
          | ']' :: r => some ([x], r)
          | ',' :: r => (scanElements n (skipBlank r)).map fun (xs, r) => (x :: xs, r)
          | _ => none

def scanEntries : Nat → Text → Option (List (Text × Doc) × Text)
  | 0, _ => none
  | n + 1, '"' :: t =>
      match scanString t with
      | none => none
      | some (k, r) =>
          match skipBlank r with
          | ':' :: r =>
              match scan n (skipBlank r) with
              | none => none
              | some (x, r) =>
                  match skipBlank r with
                  | '}' :: r => some ([(k, x)], r)
                  | ',' :: r => (scanEntries n (skipBlank r)).map fun (es, r) => ((k, x) :: es, r)
                  | _ => none
          | _ => none
  | _ + 1, _ => none
end

/-- `json.loads`. Two calls of the readers take at least one character. -/
def loads (t : Text) : Option Doc :=
  match scan (2 * t.length + 2) (skipBlank t) with
  | some (d, r) => if skipBlank r = [] then some d else none
  | none => none

/-! ## Strings come back -/

variable {c : Char} {n : Nat} {t r : Text}

theorem hexVal_hexDigit : ∀ n < 16, hexVal (hexDigit n) = some n := by decide

theorem unhex4_hex4 (h : n < 0x10000) :
    unhex4 (hexDigit (n / 4096)) (hexDigit (n / 256 % 16)) (hexDigit (n / 16 % 16)) (hexDigit (n % 16)) = some n := by
  have h₁ := hexVal_hexDigit (n / 4096) (by omega)
  have h₂ := hexVal_hexDigit (n / 256 % 16) (Nat.mod_lt _ (by decide))
  have h₃ := hexVal_hexDigit (n / 16 % 16) (Nat.mod_lt _ (by decide))
  have h₄ := hexVal_hexDigit (n % 16) (Nat.mod_lt _ (by decide))
  simp only [unhex4, h₁, h₂, h₃, h₄, Option.bind_eq_bind, Option.bind_some, Option.pure_def, Option.some.injEq]
  omega

theorem isHigh_iff : isHigh n = true ↔ 0xD800 ≤ n ∧ n ≤ 0xDBFF := by simp [isHigh]

theorem isLow_iff : isLow n = true ↔ 0xDC00 ≤ n ∧ n ≤ 0xDFFF := by simp [isLow]

/-- A number that is no half of a surrogate pair. -/
theorem scanString_unicode (hn : n < 0x10000) (h : ¬ (0xD800 ≤ n ∧ n ≤ 0xDFFF)) :
    scanString (unicode n ++ r) = (scanString r).map fun (s, r) => (Char.ofNat n :: s, r) := by
  have hhigh : isHigh n = false := by simpa [isHigh] using fun h' => by omega
  have hlow : isLow n = false := by simpa [isLow] using fun h' => by omega
  simp [unicode, hex4, scanString, unhex4_hex4 hn, hhigh, hlow]

theorem scanString_pair (hn : 0x10000 ≤ n) (h : n < 0x110000) :
    scanString (unicode (0xD800 + (n - 0x10000) / 0x400) ++ unicode (0xDC00 + (n - 0x10000) % 0x400) ++ r) =
      (scanString r).map fun (s, r) => (Char.ofNat n :: s, r) := by
  have hhigh : isHigh (0xD800 + (n - 0x10000) / 0x400) = true := isHigh_iff.mpr (by omega)
  have hlow : isLow (0xDC00 + (n - 0x10000) % 0x400) = true := isLow_iff.mpr (by omega)
  have hsum : 0x10000 + (0xD800 + (n - 0x10000) / 0x400 - 0xD800) * 0x400 + (0xDC00 + (n - 0x10000) % 0x400 - 0xDC00) = n := by omega
  have h₁ := unhex4_hex4 (n := 0xD800 + (n - 0x10000) / 0x400) (by omega)
  have h₂ := unhex4_hex4 (n := 0xDC00 + (n - 0x10000) % 0x400) (by omega)
  simp only [unicode, hex4, List.cons_append, List.nil_append, scanString, h₁, h₂, hhigh, hlow, if_true, hsum]

/-- A character that stands for itself. -/
theorem scanString_cons (hquote : c ≠ '"') (hslash : c ≠ '\\') (hspace : 32 ≤ c.toNat) (r : Text) :
    scanString (c :: r) = (scanString r).map fun (s, r) => (c :: s, r) := by
  have hlt : ¬ c.toNat < 32 := Nat.not_lt.mpr hspace
  rw [scanString.eq_def]
  split
  · rename_i h; cases h
  · rename_i h; cases h; exact absurd rfl hquote
  · rename_i h; cases h; exact absurd rfl hslash
  · rename_i h; cases h; exact absurd rfl hslash
  · rename_i h; cases h; simp [hlt, hslash]

/-- An escape of one letter. -/
theorem scanString_letter {e : Char} (he : e ≠ 'u') (h : unescape e = some c) (r : Text) :
    scanString ('\\' :: e :: r) = (scanString r).map fun (s, r) => (c :: s, r) := by
  rw [scanString.eq_def]
  split
  · rename_i h'; cases h'
  · rename_i h'; cases h'
  · rename_i h'; cases h'; exact absurd rfl he
  · rename_i h'; cases h'; simp [h]
  · rename_i hletter h'; cases h'; exact (hletter e r rfl rfl).elim

theorem scanString_escape (c : Char) (r : Text) : scanString (escape c ++ r) = (scanString r).map fun (s, r) => (c :: s, r) := by
  have hc : Char.ofNat c.toNat = c := Char.ofNat_toNat c
  have hvalid : c.toNat < 0xD800 ∨ 0xDFFF < c.toNat ∧ c.toNat < 0x110000 := c.valid
  unfold escape
  split_ifs with hquote hslash hline hreturn htab hfeed hback hplain hshort
  · exact scanString_letter (by decide) (by simp [unescape, hquote]) r
  · exact scanString_letter (by decide) (by simp [unescape, hslash]) r
  · exact scanString_letter (by decide) (by simp [unescape, hline]) r
  · exact scanString_letter (by decide) (by simp [unescape, hreturn]) r
  · exact scanString_letter (by decide) (by simp [unescape, htab]) r
  · exact scanString_letter (by decide) (by rw [hfeed] at hc; simp [unescape]; exact hc) r
  · exact scanString_letter (by decide) (by rw [hback] at hc; simp [unescape]; exact hc) r
  · exact scanString_cons hquote hslash hplain.1 r
  · rw [scanString_unicode hshort (by omega), hc]
  · rw [scanString_pair (by omega) (by omega), hc]

theorem scanString_quote (t r : Text) : scanString (t.flatMap escape ++ '"' :: r) = some (t, r) := by
  induction t with
  | nil => rfl
  | cons c t ih => rw [List.flatMap_cons, List.append_assoc, scanString_escape, ih]; rfl

/-! ## Numbers -/

/-- Where a document ends: at the end of the text, or at a mark that comes after a value. -/
def Stops (r : Text) : Prop := ∀ c ∈ r.head?, c = ',' ∨ c = ']' ∨ c = '}'

theorem stops_nil : Stops [] := fun c h => by cases h

theorem stops_cons {c : Char} (h : c = ',' ∨ c = ']' ∨ c = '}') : Stops (c :: r) := fun d hd => by cases hd; exact h

theorem digitsOf_append (t : Text) (hr : Stops r) : digitsOf (t ++ r) = ((digitsOf t).1, (digitsOf t).2 ++ r) := by
  simp only [digitsOf, List.span_eq_takeWhile_dropWhile]
  induction t with
  | nil =>
      cases r with
      | nil => rfl
      | cons c r =>
          have hc : c.isDigit = false := by
            obtain rfl | rfl | rfl := hr c rfl <;> rfl
          simp [hc]
  | cons c t ih =>
      cases hc : c.isDigit with
      | false => simp [hc]
      | true => simpa [hc] using ih

theorem scanInteger_append (t : Text) (hr : Stops r) : scanInteger (t ++ r) = (scanInteger t).map fun (ds, u) => (ds, u ++ r) := by
  cases t with
  | nil =>
      cases r with
      | nil => rfl
      | cons c r => obtain rfl | rfl | rfl := hr c rfl <;> rfl
  | cons c t =>
      by_cases hc : c = '0'
      · subst hc; rfl
      · rw [List.cons_append, scanInteger.eq_2 _ _ hc, scanInteger.eq_2 _ _ hc, digitsOf_append t hr]
        split <;> rfl

theorem scanFraction_append (t : Text) (hr : Stops r) : scanFraction (t ++ r) = ((scanFraction t).1, (scanFraction t).2 ++ r) := by
  cases t with
  | nil =>
      cases r with
      | nil => rfl
      | cons c r => obtain rfl | rfl | rfl := hr c rfl <;> rfl
  | cons c t =>
      by_cases hc : c = '.'
      · subst hc
        simp only [List.cons_append, scanFraction, digitsOf_append t hr]
        split <;> rfl
      · simp only [List.cons_append, scanFraction]
        split
        · rename_i h; cases h; exact absurd rfl hc
        · split
          · rename_i h; cases h; exact absurd rfl hc
          · rfl

theorem exponentSign_append (t : Text) (hr : Stops r) : exponentSign (t ++ r) = ((exponentSign t).1, (exponentSign t).2 ++ r) := by
  cases t with
  | nil =>
      cases r with
      | nil => rfl
      | cons c r => obtain rfl | rfl | rfl := hr c rfl <;> rfl
  | cons c t =>
      by_cases hplus : c = '+'
      · subst hplus; rfl
      · by_cases hminus : c = '-'
        · subst hminus; rfl
        · rw [List.cons_append, exponentSign.eq_3 _ (by simp [hplus]) (by simp [hminus]), exponentSign.eq_3 _ (by simp [hplus]) (by simp [hminus])]
          rfl

theorem scanExponent_append (t : Text) (hr : Stops r) : scanExponent (t ++ r) = ((scanExponent t).1, (scanExponent t).2 ++ r) := by
  cases t with
  | nil =>
      cases r with
      | nil => rfl
      | cons c r => obtain rfl | rfl | rfl := hr c rfl <;> rfl
  | cons c t =>
      simp only [List.cons_append, scanExponent, exponentSign_append t hr, digitsOf_append _ hr]
      split
      · split <;> rfl
      · rfl

theorem minusSign_append (t : Text) (hr : Stops r) : minusSign (t ++ r) = ((minusSign t).1, (minusSign t).2 ++ r) := by
  cases t with
  | nil =>
      cases r with
      | nil => rfl
      | cons c r => obtain rfl | rfl | rfl := hr c rfl <;> rfl
  | cons c t =>
      by_cases hc : c = '-'
      · subst hc; rfl
      · rw [List.cons_append, minusSign.eq_2 _ (by simp [hc]), minusSign.eq_2 _ (by simp [hc])]
        rfl

theorem scanNumber_append (t : Text) (hr : Stops r) : scanNumber (t ++ r) = (scanNumber t).map fun (d, u) => (d, u ++ r) := by
  simp only [scanNumber, minusSign_append t hr, scanInteger_append _ hr]
  cases scanInteger (minusSign t).2 with
  | none => rfl
  | some x =>
      simp only [Option.map_some, scanFraction_append _ hr, scanExponent_append _ hr]
      split
      · cases int ((minusSign t).1 ++ x.1) <;> rfl
      · rfl

/-- A printed number does not begin with zero, but for zero itself. -/
theorem head_toDigits {k : Nat} (h : Nat.toDigits 10 k = '0' :: t) : k = 0 ∧ t = [] := by
  induction k using Nat.strong_induction_on generalizing t with
  | _ k ih =>
    by_cases hk : k < 10
    · rw [Nat.toDigits_of_lt_base hk] at h
      obtain ⟨hdigit, rfl⟩ := List.cons.inj h
      exact ⟨(by decide : ∀ k < 10, Nat.digitChar k = '0' → k = 0) k hk hdigit, rfl⟩
    · rw [Nat.toDigits_of_base_le (by decide) (Nat.not_lt.mp hk)] at h
      obtain ⟨c, u, hu⟩ := List.exists_cons_of_ne_nil (Nat.toDigits_ne_nil (b := 10) (n := k / 10))
      rw [hu] at h
      obtain ⟨rfl, -⟩ := List.cons.inj h
      have hzero := (ih (k / 10) (by omega) hu).1
      omega

theorem scanInteger_toDigits (k : Nat) : scanInteger (Nat.toDigits 10 k) = some (Nat.toDigits 10 k, []) := by
  obtain ⟨c, u, hu⟩ := List.exists_cons_of_ne_nil (Nat.toDigits_ne_nil (b := 10) (n := k))
  have hall : ∀ d ∈ Nat.toDigits 10 k, d.isDigit = true := fun d hd => Nat.isDigit_of_mem_toDigits (by decide) (by decide) hd
  rw [hu] at hall ⊢
  obtain ⟨hc, hrest⟩ := List.forall_mem_cons.mp hall
  by_cases hzero : c = '0'
  · subst hzero
    obtain ⟨-, rfl⟩ := head_toDigits hu
    rfl
  · have hspan : digitsOf u = (u, []) := by
      simp only [digitsOf, List.span_eq_takeWhile_dropWhile, List.takeWhile_eq_self_iff.mpr hrest, List.dropWhile_eq_nil_iff.mpr hrest]
    rw [scanInteger.eq_2 _ _ hzero, if_pos hc, hspan]

/-- A number whose digits can be converted. -/
def Fits (n : Int) : Prop := (Nat.toDigits 10 n.natAbs).length ≤ maxStrDigits

theorem str_of_fits {n : Int} (h : Fits n) : str n = some (decimal n) := by
  unfold Fits at h
  simp [str, decimal, Nat.not_lt.mpr h]

theorem scanNumber_decimal {n : Int} (h : Fits n) : scanNumber (decimal n) = some (.int n, []) := by
  have hint : int (decimal n) = some n := int_str (str_of_fits h)
  by_cases hn : n < 0
  · simp only [decimal, if_pos hn] at hint ⊢
    simp [scanNumber, minusSign, scanInteger_toDigits, scanFraction, scanExponent, hint]
  · simp only [decimal, if_neg hn] at hint ⊢
    have hminus : '-' ∉ Nat.toDigits 10 n.natAbs := fun hm => by
      have hdigit := Nat.isDigit_of_mem_toDigits (b := 10) (by decide) (by decide) hm
      cases hdigit
    have hsign : minusSign (Nat.toDigits 10 n.natAbs) = ([], Nat.toDigits 10 n.natAbs) :=
      minusSign.eq_2 _ fun u hu => hminus (by rw [hu]; exact List.mem_cons_self)
    simp [scanNumber, hsign, scanInteger_toDigits, scanFraction, scanExponent, hint]

/-- A number begins with a digit, or with a minus and one. -/
theorem scanNumber_head {x : Doc × Text} (h : scanNumber t = some x) :
    ∃ c u, c.isDigit = true ∧ (t = c :: u ∨ t = '-' :: c :: u) := by
  have hinteger : ∀ {u y}, scanInteger u = some y → ∃ c v, c.isDigit = true ∧ u = c :: v := by
    intro u y hy
    cases u with
    | nil => cases hy
    | cons c v =>
        by_cases hc : c.isDigit = true
        · exact ⟨c, v, hc, rfl⟩
        · have hzero : c ≠ '0' := by rintro rfl; exact hc rfl
          rw [scanInteger.eq_2 _ _ hzero, if_neg hc] at hy
          cases hy
  unfold scanNumber at h
  cases hy : scanInteger (minusSign t).2 with
  | none => rw [hy] at h; cases h
  | some y =>
      obtain ⟨c, v, hc, hv⟩ := hinteger hy
      unfold minusSign at hv
      split at hv
      · exact ⟨c, v, hc, .inr (congrArg _ hv)⟩
      · exact ⟨c, v, hc, .inl hv⟩

/-- No constant begins with a digit, or with a minus and one. -/
theorem scanConstant_number {x : Doc × Text} (h : scanNumber t = some x) (r : Text) : scanConstant (t ++ r) = none := by
  obtain ⟨c, u, hc, rfl | rfl⟩ := scanNumber_head h
  all_goals
    have hne : ∀ d : Char, d.isDigit = false → (c == d) = false := fun d hd => by
      rw [beq_eq_false_iff_ne]
      rintro rfl
      rw [hc] at hd
      cases hd
    simp [scanConstant, constants, List.dropPrefix?, hne]

/-! ## Documents -/

/-- The literal of a float. -/
def Literal (t : Text) : Prop :=
  scanNumber t = some (.float t, []) ∨ t = "NaN".toList ∨ t = "Infinity".toList ∨ t = "-Infinity".toList

namespace Doc

mutual
/-- A document that can be written. -/
def Sound : Doc → Prop
  | int n => Fits n
  | float literal => Literal literal
  | arr xs => SoundElements xs
  | obj es => SoundEntries es
  | null | bool _ | str _ => True

def SoundElements : List Doc → Prop
  | [] => True
  | x :: xs => x.Sound ∧ SoundElements xs

def SoundEntries : List (Text × Doc) → Prop
  | [] => True
  | (_, x) :: es => x.Sound ∧ SoundEntries es
end

end Doc

open Doc

variable {d : Doc}

/-- What a document's text begins with. -/
def Opens (c : Char) : Prop := isBlank c = false ∧ c ≠ ']' ∧ c ≠ '}'

theorem opens_of_isDigit (h : c.isDigit = true) : Opens c := by
  have hne : ∀ d : Char, d.isDigit = false → c ≠ d := fun d hd hcd => by rw [← hcd, h] at hd; cases hd
  refine ⟨?_, hne _ rfl, hne _ rfl⟩
  simp [isBlank, hne]

theorem scanNumber_opens {x : Doc × Text} (h : scanNumber t = some x) : ∃ c u, t = c :: u ∧ Opens c := by
  obtain ⟨c, u, hc, rfl | rfl⟩ := scanNumber_head h
  · exact ⟨c, u, rfl, opens_of_isDigit hc⟩
  · exact ⟨'-', c :: u, rfl, by decide, by decide, by decide⟩

theorem text_opens (h : d.Sound) : ∃ c u, d.text = c :: u ∧ Opens c := by
  cases d with
  | null | str | arr | obj => exact ⟨_, _, rfl, by decide, by decide, by decide⟩
  | bool b => cases b <;> exact ⟨_, _, rfl, by decide, by decide, by decide⟩
  | int n => exact scanNumber_opens (scanNumber_decimal h)
  | float literal =>
      obtain h | rfl | rfl | rfl := h
      · exact scanNumber_opens h
      all_goals exact ⟨_, _, rfl, by decide, by decide, by decide⟩

theorem skipBlank_of_opens {c : Char} {u : Text} (h : Opens c) : skipBlank (c :: u) = c :: u := dropWhile_of_head h.1

theorem skipBlank_text (h : d.Sound) (r : Text) : skipBlank (d.text ++ r) = d.text ++ r := by
  obtain ⟨c, u, hc, hopens⟩ := text_opens h
  rw [hc]
  exact skipBlank_of_opens hopens

theorem length_text_pos (h : d.Sound) : 0 < d.text.length := by
  obtain ⟨c, u, hc, -⟩ := text_opens h
  rw [hc]
  exact Nat.succ_pos _

theorem scan_other (hquote : c ≠ '"') (hbrace : c ≠ '\x7b') (hbracket : c ≠ '[') (t : Text) : scan (n + 1) (c :: t) =
    match scanConstant (c :: t) with
    | some x => some x
    | none => scanNumber (c :: t) :=
  scan.eq_5 (c :: t) n (by simp [hquote]) (by simp [hbrace]) (by simp [hbracket])

theorem scan_number (h : scanNumber t = some (d, [])) (hr : Stops r) : scan (n + 1) (t ++ r) = some (d, r) := by
  have hconst := scanConstant_number h r
  have hnum : scanNumber (t ++ r) = some (d, r) := by rw [scanNumber_append t hr, h]; rfl
  obtain ⟨c, u, hc, rfl | rfl⟩ := scanNumber_head h
  · have hne : ∀ d : Char, d.isDigit = false → c ≠ d := fun d hd hcd => by rw [← hcd, hc] at hd; cases hd
    rw [List.cons_append, scan_other (hne _ rfl) (hne _ rfl) (hne _ rfl), ← List.cons_append, hconst]
    exact hnum
  · rw [List.cons_append, scan_other (by decide) (by decide) (by decide), ← List.cons_append, hconst]
    exact hnum

theorem scan_constant {word : Text} (hword : (word, d) ∈ constants) (r : Text) : scan (n + 1) (word ++ r) = some (d, r) := by
  simp only [constants, List.mem_cons, Prod.mk.injEq, List.not_mem_nil, or_false] at hword
  obtain ⟨rfl, rfl⟩ | ⟨rfl, rfl⟩ | ⟨rfl, rfl⟩ | ⟨rfl, rfl⟩ | ⟨rfl, rfl⟩ | ⟨rfl, rfl⟩ := hword
  all_goals simp [scan_other, scanConstant, constants, List.dropPrefix?]

theorem scan_scalar (h : d.Sound) (hr : Stops r) (hlist : ∀ xs, d ≠ .arr xs) (hobj : ∀ es, d ≠ .obj es) :
    scan (n + 1) (d.text ++ r) = some (d, r) := by
  cases d with
  | null => exact scan_constant (by simp [constants, Doc.text]) r
  | bool b => cases b <;> exact scan_constant (by simp [constants, Doc.text]) r
  | int k => exact scan_number (scanNumber_decimal h) hr
  | float literal =>
      obtain h | rfl | rfl | rfl := h
      · exact scan_number h hr
      all_goals exact scan_constant (by simp [constants, Doc.text]) r
  | str t =>
      show (scanString ((t.flatMap escape ++ ['"']) ++ r)).map _ = _
      rw [List.append_assoc, List.singleton_append, scanString_quote]
      rfl
  | arr xs => exact absurd rfl (hlist xs)
  | obj es => exact absurd rfl (hobj es)

theorem stops_bracket (r : Text) : Stops (']' :: r) := stops_cons (by decide)

theorem stops_comma (r : Text) : Stops (',' :: r) := stops_cons (by decide)

theorem stops_brace (r : Text) : Stops ('\x7d' :: r) := stops_cons (by decide)

theorem skipBlank_mark {c : Char} (h : isBlank c = false) (r : Text) : skipBlank (c :: r) = c :: r := dropWhile_of_head h

/-- The fuel is enough for the documents whose text is that long. -/
def Scans (n : Nat) : Prop :=
  ∀ (d : Doc) (r : Text), d.Sound → Stops r → 2 * d.text.length ≤ n + 1 → scan n (d.text ++ r) = some (d, r)

def ScansElements (n : Nat) : Prop :=
  ∀ (x : Doc) (xs : List Doc) (r : Text), SoundElements (x :: xs) → 2 * (textElements (x :: xs)).length ≤ n →
    scanElements n (textElements (x :: xs) ++ ']' :: r) = some (x :: xs, r)

def ScansEntries (n : Nat) : Prop :=
  ∀ (k : Text) (x : Doc) (es : List (Text × Doc)) (r : Text), SoundEntries ((k, x) :: es) → 2 * (textEntries ((k, x) :: es)).length ≤ n →
    scanEntries n (textEntries ((k, x) :: es) ++ '\x7d' :: r) = some ((k, x) :: es, r)

theorem textElements_opens {x : Doc} {xs : List Doc} (h : SoundElements (x :: xs)) : ∃ c u, textElements (x :: xs) = c :: u ∧ Opens c := by
  obtain ⟨c, u, hc, hopens⟩ := text_opens h.1
  cases xs with
  | nil => exact ⟨c, u, hc, hopens⟩
  | cons y ys => exact ⟨c, u ++ ',' :: textElements (y :: ys), by rw [textElements, hc]; rfl, hopens⟩

theorem textEntries_opens (k : Text) (x : Doc) (es : List (Text × Doc)) : ∃ u, textEntries ((k, x) :: es) = '"' :: u := by
  cases es with
  | nil => exact ⟨_, rfl⟩
  | cons e es => exact ⟨_, rfl⟩

theorem Scans.elements (h : Scans n) (hrest : ScansElements n) : ScansElements (n + 1) := by
  intro x xs r hsound hn
  cases xs with
  | nil =>
      have hx := h x (']' :: r) hsound.1 (stops_bracket r) (by simp only [textElements] at hn; omega)
      simp only [textElements, scanElements, hx, skipBlank_mark (c := ']') rfl]
  | cons y ys =>
      simp only [textElements, List.length_append, List.length_cons] at hn
      have hx := h x (',' :: (textElements (y :: ys) ++ ']' :: r)) hsound.1 (stops_comma _) (by omega)
      obtain ⟨c, u, hc, hopens⟩ := textElements_opens hsound.2
      have hskip : skipBlank (textElements (y :: ys) ++ ']' :: r) = textElements (y :: ys) ++ ']' :: r := by
        rw [hc]
        exact skipBlank_of_opens hopens
      have hys := hrest y ys r hsound.2 (by omega)
      simp only [textElements, List.append_assoc, List.cons_append, scanElements, hx, skipBlank_mark (c := ',') rfl, hskip, hys,
        Option.map_some]

theorem Scans.entries (h : Scans n) (hrest : ScansEntries n) : ScansEntries (n + 1) := by
  intro k x es r hsound hn
  cases es with
  | nil =>
      simp only [textEntries, List.length_append, List.length_cons] at hn
      have hx := h x ('\x7d' :: r) hsound.1 (stops_brace r) (by omega)
      simp only [textEntries, quote, List.append_assoc, List.cons_append, List.nil_append, scanEntries, scanString_quote,
        skipBlank_mark (c := ':') rfl, skipBlank_text hsound.1, hx, skipBlank_mark (c := '\x7d') rfl]
  | cons e es =>
      obtain ⟨k', y⟩ := e
      simp only [textEntries, List.length_append, List.length_cons] at hn
      have hx := h x (',' :: (textEntries ((k', y) :: es) ++ '\x7d' :: r)) hsound.1 (stops_comma _) (by omega)
      obtain ⟨u, hu⟩ := textEntries_opens k' y es
      have hskip : skipBlank (textEntries ((k', y) :: es) ++ '\x7d' :: r) = textEntries ((k', y) :: es) ++ '\x7d' :: r := by
        rw [hu]
        rfl
      have hes := hrest k' y es r hsound.2 (by omega)
      simp only [textEntries, quote, List.append_assoc, List.cons_append, List.nil_append, scanEntries, scanString_quote,
        skipBlank_mark (c := ':') rfl, skipBlank_text hsound.1, hx, skipBlank_mark (c := ',') rfl, hskip, hes, Option.map_some]

theorem scan_arr {u : Text} (h : Opens c) : scan (n + 1) ('[' :: c :: u) = (scanElements n (c :: u)).map fun (xs, r) => (.arr xs, r) := by
  simp only [scan, skipBlank_of_opens h]
  split
  · rename_i heq
    cases heq
    exact absurd rfl h.2.1
  · rfl

theorem scan_obj (u : Text) : scan (n + 1) ('\x7b' :: '"' :: u) = (scanEntries n ('"' :: u)).map fun (es, r) => (.obj es, r) := rfl

theorem Scans.succ (helements : ScansElements n) (hentries : ScansEntries n) : Scans (n + 1) := by
  intro d r h hr hn
  match d with
  | .arr [] => rfl
  | .obj [] => rfl
  | .arr (x :: xs) =>
      simp only [Doc.text, List.length_cons, List.length_append] at hn
      obtain ⟨c, u, hc, hopens⟩ := textElements_opens h
      have hxs := helements x xs r h (by omega)
      rw [hc] at hxs
      simp only [Doc.text, hc, List.cons_append, List.append_assoc, List.nil_append] at hxs ⊢
      rw [scan_arr hopens, hxs]
      rfl
  | .obj ((k, x) :: es) =>
      simp only [Doc.text, List.length_cons, List.length_append] at hn
      have hes := hentries k x es r h (by omega)
      obtain ⟨u, hu⟩ := textEntries_opens k x es
      rw [hu] at hes
      simp only [Doc.text, hu, List.cons_append, List.append_assoc, List.nil_append] at hes ⊢
      rw [scan_obj, hes]
      rfl
  | .null | .bool _ | .int _ | .float _ | .str _ => exact scan_scalar h hr (by simp) (by simp)

theorem scans (n : Nat) : Scans n ∧ ScansElements n ∧ ScansEntries n := by
  induction n with
  | zero =>
      refine ⟨fun d r h _ hn => ?_, fun x xs r h hn => ?_, fun k x es r h hn => ?_⟩
      · have hpos := length_text_pos h
        omega
      · obtain ⟨c, u, hc, -⟩ := textElements_opens h
        rw [hc] at hn
        cases hn
      · obtain ⟨u, hu⟩ := textEntries_opens k x es
        rw [hu] at hn
        cases hn
  | succ n ih => exact ⟨.succ ih.2.1 ih.2.2, ih.1.elements ih.2.1, ih.1.entries ih.2.2⟩

/-- What was written is read. -/
theorem loads_text (h : d.Sound) : loads d.text = some d := by
  have hscan := (scans (2 * d.text.length + 2)).1 d [] h stops_nil (by omega)
  have hskip := skipBlank_text h []
  rw [List.append_nil] at hscan hskip
  rw [loads, hskip, hscan]
  rfl

/-! ## What is written is printable ASCII -/

def Printable (c : Char) : Prop := 32 ≤ c.toNat ∧ c.toNat ≤ 126

theorem printable_of_isDigit (h : c.isDigit = true) : Printable c := by
  simp only [Char.isDigit, Bool.and_eq_true, decide_eq_true_eq] at h
  have h₁ : 48 ≤ c.toNat := h.1
  have h₂ : c.toNat ≤ 57 := h.2
  exact ⟨by omega, by omega⟩

theorem printable_hexDigit : ∀ n < 16, Printable (hexDigit n) := by unfold Printable; decide

theorem printable_unicode (h : n < 0x10000) : ∀ c ∈ unicode n, Printable c := by
  have hdigit := fun k (hk : k < 16) => printable_hexDigit k hk
  simp only [unicode, hex4, List.forall_mem_cons]
  exact ⟨by simp [Printable], by simp [Printable], hdigit _ (by omega), hdigit _ (by omega), hdigit _ (by omega), hdigit _ (by omega), by simp⟩

theorem printable_escape (c : Char) : ∀ d ∈ escape c, Printable d := by
  have hvalid : c.toNat < 0xD800 ∨ 0xDFFF < c.toNat ∧ c.toNat < 0x110000 := c.valid
  unfold escape
  split_ifs with hquote hslash hline hreturn htab hfeed hback hplain hshort
  iterate 7 simp [Printable]
  · exact fun d hd => by rw [List.mem_singleton.mp hd]; exact hplain
  · exact printable_unicode hshort
  · intro d hd
    obtain hd | hd := List.mem_append.mp hd
    · exact printable_unicode (by omega) d hd
    · exact printable_unicode (by omega) d hd

theorem printable_quote (t : Text) : ∀ c ∈ quote t, Printable c := by
  intro c hc
  simp only [quote, List.mem_cons, List.mem_append, List.mem_flatMap, List.not_mem_nil, or_false] at hc
  obtain rfl | ⟨d, -, hd⟩ | rfl := hc
  · simp [Printable]
  · exact printable_escape d c hd
  · simp [Printable]

theorem printable_decimal (k : Int) : ∀ c ∈ decimal k, Printable c := by
  intro c hc
  obtain rfl | hdigit := mem_decimal hc
  · simp [Printable]
  · exact printable_of_isDigit hdigit

theorem printable_digitsOf (t : Text) : ∀ c ∈ (digitsOf t).1, Printable c := by
  intro c hc
  rw [digitsOf, List.span_eq_takeWhile_dropWhile] at hc
  exact printable_of_isDigit (List.mem_takeWhile_imp hc)

theorem printable_scanInteger {ds u : Text} (h : scanInteger t = some (ds, u)) : ∀ c ∈ ds, Printable c := by
  unfold scanInteger at h
  split at h
  · cases h; simp [Printable]
  · rename_i c r _
    split at h
    · rename_i hc
      cases h
      exact List.forall_mem_cons.mpr ⟨printable_of_isDigit hc, printable_digitsOf r⟩
    · cases h
  · cases h

theorem printable_scanFraction (t : Text) : ∀ c ∈ (scanFraction t).1, Printable c := by
  unfold scanFraction
  split
  · rename_i r
    split
    · simp
    · exact List.forall_mem_cons.mpr ⟨by simp [Printable], printable_digitsOf r⟩
  · simp

theorem printable_scanExponent (t : Text) : ∀ c ∈ (scanExponent t).1, Printable c := by
  cases t with
  | nil => simp [scanExponent]
  | cons c t =>
      simp only [scanExponent]
      split
      · rename_i hc
        split
        · simp
        · refine List.forall_mem_cons.mpr ⟨by obtain rfl | rfl := hc <;> simp [Printable], ?_⟩
          intro d hd
          obtain hd | hd := List.mem_append.mp hd
          · unfold exponentSign at hd
            split at hd
            all_goals simp at hd
            all_goals subst hd; simp [Printable]
          · exact printable_digitsOf _ d hd
      · simp

theorem printable_literal (h : Literal t) : ∀ c ∈ t, Printable c := by
  obtain h | rfl | rfl | rfl := h
  · unfold scanNumber at h
    cases hinteger : scanInteger (minusSign t).2 with
    | none => rw [hinteger] at h; cases h
    | some x =>
        rw [hinteger] at h
        simp only at h
        split at h
        · simp at h
        · simp only [Option.some.injEq, Prod.mk.injEq, Doc.float.injEq] at h
          rw [← h.1]
          intro c hc
          simp only [List.mem_append] at hc
          obtain ((hc | hc) | hc) | hc := hc
          · unfold minusSign at hc
            split at hc
            all_goals simp at hc
            subst hc
            simp [Printable]
          · exact printable_scanInteger hinteger c hc
          · exact printable_scanFraction _ c hc
          · exact printable_scanExponent _ c hc
  all_goals simp [Printable]

mutual
theorem printable_text (d : Doc) (h : d.Sound) : ∀ c ∈ d.text, Printable c := by
  match d with
  | .null => simp [Doc.text, Printable]
  | .bool true => simp [Doc.text, Printable]
  | .bool false => simp [Doc.text, Printable]
  | .int k => exact printable_decimal k
  | .float literal => exact printable_literal h
  | .str t => exact printable_quote t
  | .arr xs =>
      have hxs := printable_textElements xs h
      simp only [Doc.text, List.forall_mem_cons, List.forall_mem_append]
      exact ⟨by simp [Printable], hxs, by simp [Printable]⟩
  | .obj es =>
      have hes := printable_textEntries es h
      simp only [Doc.text, List.forall_mem_cons, List.forall_mem_append]
      exact ⟨by simp [Printable], hes, by simp [Printable]⟩

theorem printable_textElements (xs : List Doc) (h : SoundElements xs) : ∀ c ∈ textElements xs, Printable c := by
  match xs with
  | [] => simp [textElements]
  | [x] => exact printable_text x h.1
  | x :: y :: ys =>
      have hx := printable_text x h.1
      have hys := printable_textElements (y :: ys) h.2
      simp only [textElements, List.forall_mem_cons, List.forall_mem_append]
      exact ⟨hx, by simp [Printable], hys⟩

theorem printable_textEntries (es : List (Text × Doc)) (h : SoundEntries es) : ∀ c ∈ textEntries es, Printable c := by
  match es with
  | [] => simp [textEntries]
  | [(k, x)] =>
      have hk := printable_quote k
      have hx := printable_text x h.1
      simp only [textEntries, List.forall_mem_cons, List.forall_mem_append]
      exact ⟨hk, by simp [Printable], hx⟩
  | (k, x) :: e :: es =>
      have hk := printable_quote k
      have hx := printable_text x h.1
      have hes := printable_textEntries (e :: es) h.2
      simp only [textEntries, List.forall_mem_cons, List.forall_mem_append]
      exact ⟨hk, by simp [Printable], hx, by simp [Printable], hes⟩
end

theorem newline_notMem_text (h : d.Sound) : '\n' ∉ d.text := fun hmem => absurd (printable_text d h _ hmem) (by simp [Printable])

end JsonText
