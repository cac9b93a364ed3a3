import OpenMux.Lib.PyValue

/-!
# Write-slot capacity

The `max_read_write_users` value of a port as a mode, as a wire integer, and as a number of writers. `int` stands for the
conversion of a string by `int()`, `none` when it raises `ValueError`.
-/

namespace OpenMux.Federation

open Py

/-- `WRITE_MODES`. -/
inductive WriteMode
  | none
  | one
  | multiple
deriving DecidableEq, Repr

namespace WriteMode

def text : WriteMode → Text
  | none => ['n', 'o', 'n', 'e']
  | one => ['o', 'n', 'e']
  | multiple => ['m', 'u', 'l', 't', 'i', 'p', 'l', 'e']

/-- `text in WRITE_MODES`. -/
def ofText (t : Text) : Option WriteMode :=
  if t = none.text then some none
  else if t = one.text then some one
  else if t = multiple.text then some multiple
  else .none

/-- A mode as the string that an attribute holds. -/
def value (m : WriteMode) : Value := .str m.text

end WriteMode

/-- `str.lower` as far as the mode names go: no character beyond ASCII lowers to a letter of one. -/
def lower (t : Text) : Text := t.map Char.toLower

/-- `_legacy_int_to_mode`. -/
def legacyIntToMode (value : Int) : WriteMode :=
  if value = 0 then .none else if value = 1 then .one else .multiple

variable (int : Text → Option Int)

/-- `parse_write_mode`; `none` is `InvalidWriteMode`. -/
def parseWriteMode : Value → Option WriteMode
  | .none => some .one
  | .bool _ => none
  | .int n => if 0 ≤ n then some (legacyIntToMode n) else none
  | .str t =>
      match WriteMode.ofText (lower (strip t)) with
      | some m => some m
      | none =>
          match int (lower (strip t)) with
          | some n => if 0 ≤ n then some (legacyIntToMode n) else none
          | none => none
  | .float _ => none
  | .other _ => none

/-- `wire_to_mode`. A float is a legacy count when `is_integer()` holds, which it does not of infinity. -/
def wireToMode : Value → WriteMode
  | .str t =>
      match WriteMode.ofText (lower (strip t)) with
      | some m => m
      | none =>
          match int (lower (strip t)) with
          | some n => legacyIntToMode n
          | none => .one
  | .bool _ => .one
  | .int n => if 0 ≤ n then legacyIntToMode n else .one
  | .float (.fin q) => if q.den = 1 ∧ 0 ≤ q then legacyIntToMode q.num else .one
  | .float _ => .one
  | .none => .one
  | .other _ => .one

/-- `write_capacity`. -/
def writeCapacity (mode : Value) : FloatVal :=
  match parseWriteMode int mode with
  | none => .fin 1
  | some .none => .fin 0
  | some .one => .fin 1
  | some .multiple => .inf

/-- `WIRE_MULTIPLE`. -/
def wireMultiple : Int := 2147483647

/-- `WIRE_CAPACITY`. -/
def wireCapacity : WriteMode → Int
  | .none => 0
  | .one => 1
  | .multiple => wireMultiple

/-- `capacity_to_wire`. -/
def capacityToWire (mode : Value) : Int :=
  match parseWriteMode int mode with
  | none => 1
  | some m => wireCapacity m

/-- `capacity_from_wire`. -/
def capacityFromWire (value : Value) : FloatVal := writeCapacity int (wireToMode int value).value

variable {int}

@[simp] theorem parseWriteMode_value (m : WriteMode) : parseWriteMode int m.value = some m := by
  cases m <;> rfl

/-- Each mode comes back from its wire integer. -/
theorem wireToMode_wireCapacity (m : WriteMode) : wireToMode int (.int (wireCapacity m)) = m := by
  cases m <;> rfl

/-- A capacity read as a wire value is `one`, or `none` for the zero that no wire value leads to. -/
theorem wireToMode_writeCapacity (m : WriteMode) :
    wireToMode int (.float (writeCapacity int m.value)) = match m with
      | .none => .none
      | .one => .one
      | .multiple => .one := by
  cases m <;> rfl

/-! ## One capacity for one value -/

/-- The number of writers that a mode stands for. -/
def WriteMode.writers : WriteMode → FloatVal
  | none => .fin 0
  | one => .fin 1
  | multiple => .inf

/-- The normalisers read the value as the mode that the parser gives, or as one writer where the parser refuses it. -/
structure OneCapacity (int : Text → Option Int) (v : Value) : Prop where
  accepted : ∀ m, parseWriteMode int v = some m → wireToMode int v = m ∧ writeCapacity int v = m.writers ∧
    capacityFromWire int v = m.writers ∧ wireToMode int (.int (capacityToWire int v)) = m
  rejected : parseWriteMode int v = none →
    writeCapacity int v = .fin 1 ∧ capacityFromWire int v = .fin 1 ∧ capacityToWire int v = 1

/-- A string that `int` reads as a negative number. -/
def NegativeText (int : Text → Option Int) (v : Value) : Prop :=
  ∃ t n, v = .str t ∧ WriteMode.ofText (lower (strip t)) = none ∧ int (lower (strip t)) = some n ∧ n < 0

/-- A float that is zero or an integer from two on. -/
def CountFloat (v : Value) : Prop := ∃ q : ℚ, v = .float (.fin q) ∧ q.den = 1 ∧ 0 ≤ q ∧ q ≠ 1

theorem writeCapacity_accepted {v : Value} {m : WriteMode} (h : parseWriteMode int v = some m) :
    writeCapacity int v = m.writers := by
  rw [writeCapacity, h]
  cases m <;> rfl

theorem capacityFromWire_eq (v : Value) : capacityFromWire int v = (wireToMode int v).writers :=
  writeCapacity_accepted (parseWriteMode_value _)

/-- What the parser accepts, the wire reads alike. -/
theorem wireToMode_accepted {v : Value} {m : WriteMode} (h : parseWriteMode int v = some m) : wireToMode int v = m := by
  cases v with
  | none => exact Option.some.inj h
  | bool b => cases h
  | float x => cases h
  | other b => cases h
  | int n =>
      simp only [parseWriteMode] at h
      split at h
      · simp only [wireToMode, if_pos ‹0 ≤ n›]
        exact Option.some.inj h
      · cases h
  | str t =>
      simp only [parseWriteMode] at h
      simp only [wireToMode]
      split at h
      · exact Option.some.inj h
      · split at h
        · split at h
          · exact Option.some.inj h
          · cases h
        · cases h

theorem oneCapacity_accepted {v : Value} {m : WriteMode} (h : parseWriteMode int v = some m) : OneCapacity int v where
  accepted m' h' := by
    cases h.symm.trans h'
    refine ⟨wireToMode_accepted h, writeCapacity_accepted h, ?_, ?_⟩
    · rw [capacityFromWire_eq, wireToMode_accepted h]
    · rw [capacityToWire, h]
      exact wireToMode_wireCapacity m
  rejected h' := by cases h.symm.trans h'

/-- What the parser refuses, only the wire may read otherwise. -/
theorem oneCapacity_rejected {v : Value} (h : parseWriteMode int v = none) :
    OneCapacity int v ↔ wireToMode int v = .one := by
  constructor
  · intro hone
    have hwire := (hone.rejected h).2.1
    rw [capacityFromWire_eq] at hwire
    revert hwire
    cases wireToMode int v <;> simp [WriteMode.writers]
  · intro hwire
    refine ⟨fun m hm => ?_, fun _ => ⟨?_, ?_, ?_⟩⟩
    · cases h.symm.trans hm
    · simp [writeCapacity, h]
    · rw [capacityFromWire_eq, hwire]
      rfl
    · simp [capacityToWire, h]

theorem legacyIntToMode_one {n : Int} : legacyIntToMode n = .one ↔ n = 1 := by
  unfold legacyIntToMode
  split
  · simp [‹n = 0›]
  · split <;> simp [*]

/-- The wire reads a refused value as one writer unless it is a negative number in a string, or a count in a float. -/
theorem wireToMode_rejected {v : Value} (h : parseWriteMode int v = none) :
    wireToMode int v = .one ↔ ¬ NegativeText int v ∧ ¬ CountFloat v := by
  cases v with
  | none => cases h
  | bool b => simp [wireToMode, NegativeText, CountFloat]
  | other b => simp [wireToMode, NegativeText, CountFloat]
  | int n =>
      simp only [parseWriteMode] at h
      split at h
      · cases h
      · simp [wireToMode, NegativeText, CountFloat, ‹¬ 0 ≤ n›]
  | float x =>
      cases x with
      | fin q =>
          have hnum : q.den = 1 → (q.num = 1 ↔ q = 1) := by
            intro hden
            constructor
            · intro hone
              exact Rat.ext hone hden
            · rintro rfl
              rfl
          have hcount : CountFloat (.float (.fin q)) ↔ q.den = 1 ∧ 0 ≤ q ∧ q ≠ 1 := by simp [CountFloat]
          have hneg : ¬ NegativeText int (.float (.fin q)) := by simp [NegativeText]
          simp only [wireToMode, hcount, hneg, not_false_eq_true, true_and]
          split
          · rename_i hq
            rw [legacyIntToMode_one, hnum hq.1]
            simp [hq]
          · rename_i hq
            simp only [true_iff]
            exact fun h => hq ⟨h.1, h.2.1⟩
      | inf => simp [wireToMode, NegativeText, CountFloat]
      | negInf => simp [wireToMode, NegativeText, CountFloat]
      | nan => simp [wireToMode, NegativeText, CountFloat]
  | str t =>
      simp only [parseWriteMode] at h
      split at h
      · cases h
      · rename_i hmode
        split at h
        · rename_i n hn
          split at h
          · cases h
          · rename_i hneg
            refine iff_of_false ?_ (fun hno => hno.1 ⟨t, n, rfl, hmode, hn, Int.not_le.mp hneg⟩)
            simp only [wireToMode, hmode, hn, legacyIntToMode_one]
            omega
        · rename_i hn
          refine iff_of_true ?_ ⟨?_, ?_⟩
          · simp [wireToMode, hmode, hn]
          · rintro ⟨t', n, heq, -, hn', -⟩
            cases heq
            cases hn.symm.trans hn'
          · rintro ⟨q, heq, -⟩
            cases heq

end OpenMux.Federation
