import Mathlib
import OpenMux.Lib.Dict
import OpenMux.Lib.PyText

/-!
# Python values and JSON scalars

The scalar values that a configuration file or a JSON object holds, with truthiness, and the two directions of the JSON
encoder for them. The encoder writes the float infinity as `Infinity` and the decoder reads it back.
-/

namespace Py

inductive FloatVal
  | fin (q : ℚ)
  | inf
  | negInf
  | nan
deriving DecidableEq

/-- `n <= x`. -/
def FloatVal.Bounds (n : Nat) : FloatVal → Prop
  | fin q => (n : ℚ) ≤ q
  | inf => True
  | negInf | nan => False

/-- A value; `other` stands for any object that is not a scalar, with its truthiness. -/
inductive Value
  | none
  | bool (b : Bool)
  | int (n : Int)
  | float (x : FloatVal)
  | str (t : Text)
  | other (truthy : Bool)
deriving DecidableEq

namespace Value

/-- `bool(v)`. -/
def truthy : Value → Bool
  | none => false
  | bool b => b
  | int n => n ≠ 0
  | float x => x ≠ .fin 0
  | str t => t ≠ []
  | other b => b

/-- `v or w`. -/
def orElse (v w : Value) : Value := if v.truthy then v else w

end Value

/-- The JSON text of a scalar. -/
inductive Json
  | null
  | bool (b : Bool)
  | int (n : Int)
  | float (q : ℚ)
  | infinity
  | negInfinity
  | nan
  | str (t : Text)
deriving DecidableEq

/-- `json.dumps`; `none` for what it does not write as a scalar. -/
def dumps : Value → Option Json
  | .none => some .null
  | .bool b => some (.bool b)
  | .int n => some (.int n)
  | .float (.fin q) => some (.float q)
  | .float .inf => some .infinity
  | .float .negInf => some .negInfinity
  | .float .nan => some .nan
  | .str t => some (.str t)
  | .other _ => none

/-- `json.loads`. -/
def loads : Json → Value
  | .null => .none
  | .bool b => .bool b
  | .int n => .int n
  | .float q => .float (.fin q)
  | .infinity => .float .inf
  | .negInfinity => .float .negInf
  | .nan => .float .nan
  | .str t => .str t

/-- A scalar that was written is read back. -/
theorem loads_dumps {v : Value} {j : Json} (h : dumps v = some j) : loads j = v := by
  cases v with
  | float x => cases x <;> cases h <;> rfl
  | other b => cases h
  | _ => cases h; rfl

end Py

/-!
## Nested Python values

What YAML and JSON files hold: scalars, lists and dictionaries. Equality is Python's: numbers are compared across their types,
dictionaries without regard to order, and `nan` equals nothing.
-/

namespace Py

/-- Keys that are no text are told apart by a number. -/
inductive Key
  | str (t : Text)
  | other (n : Nat)
deriving DecidableEq

/-- `object` is any other value, such as a date or a set; a number stands for what it is equal to. -/
inductive Tree
  | none
  | bool (b : Bool)
  | int (n : Int)
  | float (x : FloatVal)
  | str (t : Text)
  | object (id : Nat) (truthy iterable : Bool)
  | list (xs : List Tree)
  | dict (es : List (Key × Tree))

/-- A `dict`, in order of insertion. -/
abbrev Mapping := List (Key × Tree)

namespace Tree

/-- `bool(v)`. -/
def truthy : Tree → Bool
  | none => false
  | bool b => b
  | int n => n ≠ 0
  | float x => x ≠ .fin 0
  | str t => t ≠ []
  | object _ b _ => b
  | list xs => xs ≠ []
  | dict es => es ≠ []

/-- `v or w`. -/
def orElse (v w : Tree) : Tree := if v.truthy then v else w

/-- `for x in v` does not raise. -/
def iterable : Tree → Bool
  | str _ | list _ | dict _ => true
  | object _ _ b => b
  | none | bool _ | int _ | float _ => false

/-- `for x in v or []` does not raise. -/
def loopable (v : Tree) : Bool := !v.truthy || v.iterable

def number : Tree → Option FloatVal
  | bool b => some (.fin (if b then 1 else 0))
  | int n => some (.fin n)
  | float x => some x
  | _ => Option.none

mutual

/-- `v == w`. -/
def eq : Tree → Tree → Bool
  | none, none => true
  | str s, str t => s = t
  | object i _ _, object j _ _ => i = j
  | list xs, list ys => eqList xs ys
  | dict d, dict e => d.length = e.length && eqDict d e
  | v, w => match v.number, w.number with
    | some x, some y => x = y && x ≠ .nan
    | _, _ => false

def eqList : List Tree → List Tree → Bool
  | [], [] => true
  | v :: vs, w :: ws => eq v w && eqList vs ws
  | _, _ => false

/-- Every entry has an equal one under its key. -/
def eqDict : List (Key × Tree) → List (Key × Tree) → Bool
  | [], _ => true
  | (k, v) :: d, e => (match Dict.findList k e with
    | some w => eq v w
    | Option.none => false) && eqDict d e

end

/-- Only text equals text. -/
theorem eq_str {v : Tree} {t : Text} : v.eq (.str t) = true ↔ v = .str t := by
  cases v <;> simp [eq, number]

/-- The rows of a list. -/
def rows : Tree → List Tree
  | list xs => xs
  | _ => []

/-- The entries of a dictionary. -/
def entries : Tree → List (Key × Tree)
  | dict es => es
  | _ => []

/-- The loop `for row in v or []` that may change the rows; `none` when it raises. -/
def forRows (f : Tree → Option Tree) : Tree → Option Tree
  | list xs => (xs.mapM f).map list
  | v => if v.loopable then some v else Option.none

theorem forRows_isSome {f : Tree → Tree} {v : Tree} : (forRows (fun x => some (f x)) v).isSome ↔ v.loopable = true := by
  cases v with
  | list xs =>
      have hmap : xs.mapM (fun x => some (f x)) = some (xs.map f) := by
        rw [← List.mapM'_eq_mapM]
        induction xs with
        | nil => rfl
        | cons x xs ih => simp [ih]
      simp [forRows, hmap, loopable, iterable]
  | _ => simp [forRows]

/-- The rows after the loop. -/
theorem forRows_rows {f : Tree → Option Tree} {v w : Tree} (h : forRows f v = some w) : v.rows.mapM f = some w.rows := by
  cases v with
  | list xs =>
      obtain ⟨ys, hys, rfl⟩ := Option.map_eq_some_iff.mp h
      exact hys
  | _ =>
      simp only [forRows] at h
      split at h
      · cases h; rfl
      · cases h

theorem mapM_inverse {f g : Tree → Option Tree} {xs ys : List Tree} (h : xs.mapM f = some ys)
    (hg : ∀ x ∈ xs, ∀ y, f x = some y → g y = some x) : ys.mapM g = some xs := by
  rw [← List.mapM'_eq_mapM] at h ⊢
  induction xs generalizing ys with
  | nil => cases h; rfl
  | cons x xs ih =>
      simp only [List.mapM'_cons, Option.pure_def, Option.bind_eq_bind, Option.bind_eq_some_iff] at h
      obtain ⟨y, hy, zs, hzs, hcons⟩ := h
      cases hcons
      rw [List.forall_mem_cons] at hg
      rw [List.mapM'_cons, hg.1 y hy, ih hzs hg.2]
      rfl

/-- A loop that takes every row back. -/
theorem forRows_inverse {f g : Tree → Option Tree} {v w : Tree} (h : forRows f v = some w)
    (hg : ∀ x ∈ v.rows, ∀ y, f x = some y → g y = some x) : forRows g w = some v := by
  cases v with
  | list xs =>
      obtain ⟨ys, hys, rfl⟩ := Option.map_eq_some_iff.mp h
      simp [forRows, mapM_inverse hys hg]
  | _ =>
      simp only [forRows] at h
      split at h
      · cases h; simpa [forRows] using ‹_›
      · cases h

theorem length_mapM {f : Tree → Option Tree} {xs ys : List Tree} (h : xs.mapM f = some ys) : ys.length = xs.length := by
  rw [← List.mapM'_eq_mapM] at h
  induction xs generalizing ys with
  | nil => cases h; rfl
  | cons x xs ih =>
      simp only [List.mapM'_cons, Option.pure_def, Option.bind_eq_bind, Option.bind_eq_some_iff] at h
      obtain ⟨y, hy, zs, hzs, hcons⟩ := h
      cases hcons
      rw [List.length_cons, List.length_cons, ih hzs]

theorem getElem?_mapM {f : Tree → Option Tree} {xs ys : List Tree} (h : xs.mapM f = some ys) (j : Nat) :
    ys[j]? = xs[j]?.bind f := by
  rw [← List.mapM'_eq_mapM] at h
  induction xs generalizing ys j with
  | nil => cases h; rfl
  | cons x xs ih =>
      simp only [List.mapM'_cons, Option.pure_def, Option.bind_eq_bind, Option.bind_eq_some_iff] at h
      obtain ⟨y, hy, zs, hzs, hcons⟩ := h
      cases hcons
      cases j with
      | zero => simp [hy]
      | succ j => simpa using ih hzs j

end Tree

namespace Mapping

/-- `m.get(k)`, with `none` for a key that is absent. -/
def find (k : Text) (m : Mapping) : Option Tree := Dict.findList (.str k) m

/-- `m.get(k)`. -/
def get (k : Text) (m : Mapping) : Tree := (find k m).getD .none

/-- `m[k] = v`. -/
def assign (k : Text) (v : Tree) (m : Mapping) : Mapping := Dict.setList (.str k) v m

/-- `m.pop(k, None)`. -/
def pop (k : Text) (m : Mapping) : Mapping := m.filter (·.1 ≠ .str k)

/-- Changes the value of a key in place. -/
def update (k : Text) (f : Tree → Option Tree) (m : Mapping) : Option Mapping :=
  match find k m with
  | some v => (f v).map (assign k · m)
  | none => some m

variable {m : Mapping} {k l : Text} {v w : Tree}

theorem find_assign : find l (assign k v m) = if l = k then some v else find l m := by
  simp [find, assign, Dict.findList_setList]

@[simp] theorem find_assign_self : find k (assign k v m) = some v := by simp [find_assign]

theorem find_assign_ne (h : l ≠ k) : find l (assign k v m) = find l m := by simp [find_assign, h]

theorem find_pop : find l (pop k m) = if l = k then none else find l m := by
  rw [find, pop, Dict.findList_filter_ne]
  simp [find]

theorem get_assign_ne (h : l ≠ k) : get l (assign k v m) = get l m := by simp [get, find_assign_ne h]

theorem assign_assign : assign k w (assign k v m) = assign k w m := by
  unfold assign
  induction m with
  | nil => simp [Dict.setList]
  | cons e m ih =>
      by_cases he : e.1 = .str k
      · simp [Dict.setList, he]
      · simpa [Dict.setList, he] using ih

/-- The assignment of what is there changes nothing. -/
theorem assign_find (h : find k m = some v) : assign k v m = m := by
  unfold assign
  unfold find at h
  induction m with
  | nil => cases h
  | cons e m ih =>
      by_cases he : e.1 = .str k
      · rw [Dict.findList, if_pos he] at h
        rw [Dict.setList, if_pos he, ← he, ← Option.some.inj h]
      · rw [Dict.findList, if_neg he] at h
        rw [Dict.setList, if_neg he, ih h]

/-- Assignments to two keys, one of which is present, in either order. -/
theorem assign_comm (hne : k ≠ l) (hk : find k m = some w) {a b : Tree} :
    assign k a (assign l b m) = assign l b (assign k a m) := by
  unfold assign
  unfold find at hk
  have hne' : ¬ Key.str k = Key.str l := fun h => hne (Key.str.inj h)
  induction m with
  | nil => cases hk
  | cons e m ih =>
      rw [Dict.findList] at hk
      by_cases he : e.1 = .str k
      · have hel : ¬ e.1 = Key.str l := fun h => hne' (he.symm.trans h)
        simp [Dict.setList, he, hne']
      · rw [if_neg he] at hk
        by_cases hl : e.1 = .str l
        · have hlk : ¬ Key.str l = Key.str k := fun h => hne' h.symm
          simp [Dict.setList, hl, hlk]
        · simp [Dict.setList, he, hl, ih hk]

theorem update_isSome {f : Tree → Option Tree} : (update k f m).isSome ↔ ∀ v, find k m = some v → (f v).isSome := by
  unfold update
  cases find k m <;> simp

theorem find_update_ne {f : Tree → Option Tree} {n : Mapping} (h : update k f m = some n) (hne : l ≠ k) :
    find l n = find l m := by
  unfold update at h
  cases hk : find k m with
  | none =>
      simp only [hk, Option.some.injEq] at h
      rw [h]
  | some v =>
      simp only [hk, Option.map_eq_some_iff] at h
      obtain ⟨w, -, rfl⟩ := h
      exact find_assign_ne hne

/-- Changes of two keys, one after the other. -/
theorem update_update_isSome {f g : Tree → Option Tree} (h : k ≠ l) : ((update k f m).bind (update l g)).isSome ↔
    (∀ v, find k m = some v → (f v).isSome) ∧ ∀ v, find l m = some v → (g v).isSome := by
  rw [← update_isSome]
  cases hu : update k f m with
  | none => simp
  | some n => simp [update_isSome, find_update_ne hu h.symm]

theorem get_of_update {f : Tree → Option Tree} {n : Mapping} (h : update k f m = some n) :
    (find k m = none ∧ n = m) ∨ ∃ v w, find k m = some v ∧ f v = some w ∧ n = assign k w m := by
  unfold update at h
  cases hk : find k m with
  | none =>
      simp only [hk, Option.some.injEq] at h
      exact .inl ⟨rfl, h.symm⟩
  | some v =>
      simp only [hk, Option.map_eq_some_iff] at h
      obtain ⟨w, hw, rfl⟩ := h
      exact .inr ⟨v, w, rfl, hw, rfl⟩

/-- A change that takes the change of a key back. -/
theorem update_inverse {f g : Tree → Option Tree} {n : Mapping} (h : update k f m = some n)
    (hg : ∀ v w, find k m = some v → f v = some w → g w = some v) : update k g n = some m := by
  rcases get_of_update h with ⟨hk, rfl⟩ | ⟨v, w, hk, hw, rfl⟩
  · simp [update, hk]
  · simp [update, hg v w hk hw, assign_assign, assign_find hk]

/-- Changes of two keys commute. -/
theorem update_update_comm {f g : Tree → Option Tree} (h : k ≠ l) :
    (update k f m).bind (update l g) = (update l g m).bind (update k f) := by
  unfold update
  cases hk : find k m with
  | none =>
      cases hl : find l m with
      | none => simp [hk, hl]
      | some b =>
          cases hb : g b <;> simp [hl, hb, find_assign_ne h, hk]
  | some a =>
      cases hl : find l m with
      | none => cases ha : f a <;> simp [hk, ha, find_assign_ne h.symm, hl]
      | some b =>
          cases ha : f a <;> cases hb : g b <;>
            simp [hk, hl, ha, hb, find_assign_ne h, find_assign_ne h.symm, assign_comm h.symm hl]

/-- Changes that take the changes of two keys back. -/
theorem update_update_inverse {f f' g g' : Tree → Option Tree} {n : Mapping} (hne : k ≠ l)
    (h : (update k f m).bind (update l g) = some n)
    (hf : ∀ v w, find k m = some v → f v = some w → f' w = some v)
    (hg : ∀ v w, find l m = some v → g v = some w → g' w = some v) :
    (update k f' n).bind (update l g') = some m := by
  obtain ⟨m₁, h₁, h₂⟩ := Option.bind_eq_some_iff.mp h
  rw [update_update_comm hne]
  have hl : update l g' n = some m₁ := update_inverse h₂ fun v w hv hw =>
    hg v w (by rwa [find_update_ne h₁ hne.symm] at hv) hw
  rw [hl]
  exact update_inverse h₁ hf

end Mapping

end Py
