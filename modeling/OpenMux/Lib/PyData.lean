import OpenMux.Lib.PyValue

/-!
# Python data up to the order of keys

What a YAML document holds, where dictionaries with the same entries are the same. `other` is any other value, such as a date or a set, with
its truthiness, whether a loop can go over it, and what `in` says of it.
-/

namespace Py

inductive Data
  | none
  | bool (b : Bool)
  | int (n : Int)
  | float (x : FloatVal)
  | str (t : Text)
  | list (xs : List Data)
  | dict (entries : Key → Option Data)
  | other (id : ℕ) (truthy iterable : Bool) (members : Text → Option Bool)

namespace Data

/-- The entries of a `dict`. -/
abbrev Entries := Key → Option Data

def isDict : Data → Bool
  | dict _ => true
  | _ => false

def isNone : Data → Bool
  | none => true
  | _ => false

/-- `bool(v)`, where it does not depend on the entries of a dictionary. -/
def truthy : Data → Bool
  | none => false
  | bool b => b
  | int n => n ≠ 0
  | float x => x ≠ .fin 0
  | str t => t ≠ []
  | list xs => xs ≠ []
  | dict _ => true
  | other _ b _ _ => b

/-- `v or {}`. -/
def orDict (v : Data) : Data := if v.truthy then v else dict fun _ => Option.none

/-- `for x in v or []` does not raise. -/
def loopable : Data → Bool
  | none | str _ | list _ | dict _ => true
  | bool b => !b
  | int n => n = 0
  | float x => x = .fin 0
  | other _ b i _ => !b || i

/-- `v == "text"`. -/
def isText (k : Text) : Data → Bool
  | str t => t = k
  | _ => false

/-- `k in v`; `none` when it raises. -/
def has (k : Text) : Data → Option Bool
  | str t => some (decide (k <:+: t))
  | list xs => some (xs.any (isText k))
  | dict f => some (f (.str k)).isSome
  | other _ _ _ members => members k
  | none | bool _ | int _ | float _ => Option.none

/-- `d[k] = v`. -/
def assign (f : Entries) (k : Text) (v : Data) : Entries := fun k' => if k' = .str k then some v else f k'

/-- `d.pop(k, None)`. -/
def pop (f : Entries) (k : Text) : Entries := fun k' => if k' = .str k then Option.none else f k'

/-- Where the value is a dict, the entry `k` is deleted. -/
def delete (k : Text) : Data → Data
  | dict f => dict (pop f k)
  | v => v

/-- Where the value is a dict that has `k`, that entry is changed. -/
def modify (k : Text) (g : Data → Data) : Data → Data
  | dict f => dict fun k' => if k' = .str k then (f k').map g else f k'
  | v => v

/-- Where the value is a list, all its items are changed. -/
def each (g : Data → Data) : Data → Data
  | list xs => list (xs.map g)
  | v => v

@[simp] theorem assign_self (f : Entries) (k : Text) (v : Data) : assign f k v (.str k) = some v := if_pos rfl

theorem assign_ne {f : Entries} {k : Text} {k' : Key} {v : Data} (h : k' ≠ .str k) : assign f k v k' = f k' := if_neg h

/-- Where the key was not there, what was put in and the rest are told from the result. -/
theorem assign_inj {f g : Entries} {k : Text} {v w : Data} (h : assign f k v = assign g k w) (hf : f (.str k) = Option.none)
    (hg : g (.str k) = Option.none) : v = w ∧ f = g := by
  constructor
  · have hk := congrFun h (.str k)
    rw [assign_self, assign_self] at hk
    exact Option.some.inj hk
  · funext k'
    by_cases hk : k' = .str k
    · rw [hk, hf, hg]
    · have hne := congrFun h k'
      rwa [assign_ne hk, assign_ne hk] at hne

@[simp] theorem pop_self (f : Entries) (k : Text) : pop f k (.str k) = Option.none := if_pos rfl

theorem pop_ne {f : Entries} {k : Text} {k' : Key} (h : k' ≠ .str k) : pop f k k' = f k' := if_neg h

@[simp] theorem loopable_each (g : Data → Data) (v : Data) : (v.each g).loopable = v.loopable := by
  cases v <;> rfl

@[simp] theorem loopable_modify (k : Text) (g : Data → Data) (v : Data) : (v.modify k g).loopable = v.loopable := by
  cases v <;> rfl

@[simp] theorem loopable_delete (k : Text) (v : Data) : (v.delete k).loopable = v.loopable := by
  cases v <;> rfl

/-- `v[k] = w`, where `v` is a dict. -/
def put (v : Data) (k : Text) (w : Data) : Data :=
  match v with
  | dict f => dict (assign f k w)
  | v => v

/-- Changes of different entries do not disturb each other. -/
theorem modify_put {k k' : Text} (h : k ≠ k') (g : Data → Data) (v w : Data) : (v.put k' w).modify k g = (v.modify k g).put k' w := by
  cases v with
  | dict f =>
      have hne : Key.str k ≠ Key.str k' := fun he => h (Key.str.inj he)
      simp only [put, modify, dict.injEq]
      funext x
      by_cases hx : x = .str k
      · rw [hx, if_pos rfl, assign_ne hne, assign_ne hne, if_pos rfl]
      · by_cases hx' : x = .str k'
        · rw [if_neg hx, hx', assign_self, assign_self]
        · rw [if_neg hx, assign_ne hx', assign_ne hx', if_neg hx]
  | _ => rfl

end Data

end Py
