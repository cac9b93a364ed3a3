import Mathlib

/-!
# Dictionaries that keep the order of insertion

A dictionary is a list of entries with distinct keys. Setting a key that is present overwrites its value in place; a new
key goes to the end. The lemmas say what `get?` returns after each operation.
-/

universe u v

/-- The entries in order of insertion, no key twice. -/
structure Dict (κ : Type u) (ν : Type v) where
  entries : List (κ × ν)
  nodup : (entries.map Prod.fst).Nodup
deriving DecidableEq

namespace Dict

variable {κ : Type u} {ν : Type v}

def empty : Dict κ ν := ⟨[], List.nodup_nil⟩

instance : EmptyCollection (Dict κ ν) := ⟨empty⟩

instance : Inhabited (Dict κ ν) := ⟨∅⟩

def keys (d : Dict κ ν) : List κ := d.entries.map Prod.fst

@[simp] theorem entries_empty : (∅ : Dict κ ν).entries = [] := rfl

variable [DecidableEq κ]

/-- The value of the first entry with the key. -/
def findList (k : κ) : List (κ × ν) → Option ν
  | [] => none
  | e :: es => if e.1 = k then some e.2 else findList k es

/-- Overwrites the value of `k` where it stands, or adds the entry at the end. -/
def setList (k : κ) (v : ν) : List (κ × ν) → List (κ × ν)
  | [] => [(k, v)]
  | e :: es => if e.1 = k then (k, v) :: es else e :: setList k v es

example : findList 1 (setList 1 true [(0, false)]) = some true := by simp [setList, findList]

theorem mem_keys_setList {k k' : κ} {v : ν} {es : List (κ × ν)} :
    k' ∈ (setList k v es).map Prod.fst ↔ k' = k ∨ k' ∈ es.map Prod.fst := by
  induction es with
  | nil => simp [setList]
  | cons e es ih =>
      by_cases he : e.1 = k
      · subst he; simp [setList]
      · simp only [setList, he, ↓reduceIte, List.map_cons, List.mem_cons, ih]
        tauto

theorem nodup_setList {k : κ} {v : ν} {es : List (κ × ν)} (h : (es.map Prod.fst).Nodup) :
    ((setList k v es).map Prod.fst).Nodup := by
  induction es with
  | nil => simp [setList]
  | cons e es ih =>
      rw [List.map_cons, List.nodup_cons] at h
      by_cases he : e.1 = k
      · subst he; simpa [setList] using h
      · simp only [setList, he, ↓reduceIte, List.map_cons, List.nodup_cons]
        refine ⟨fun hm => ?_, ih h.2⟩
        rcases mem_keys_setList.mp hm with hk | hk
        · exact he hk
        · exact h.1 hk

theorem findList_setList {k k' : κ} {v : ν} {es : List (κ × ν)} :
    findList k' (setList k v es) = if k' = k then some v else findList k' es := by
  induction es with
  | nil => simp [setList, findList, eq_comm]
  | cons e es ih =>
      by_cases he : e.1 = k
      · subst he
        by_cases h : e.1 = k'
        · simp [setList, findList, h]
        · simp [setList, findList, h, Ne.symm h]
      · by_cases h : e.1 = k'
        · subst h; simp [setList, findList, he]
        · simp [setList, findList, he, h, ih]

theorem setList_setList {k : κ} {v w : ν} {es : List (κ × ν)} : setList k w (setList k v es) = setList k w es := by
  induction es with
  | nil => simp [setList]
  | cons e es ih =>
      by_cases he : e.1 = k
      · simp [setList, he]
      · simp [setList, he, ih]

theorem findList_filter_ne {k k' : κ} {es : List (κ × ν)} :
    findList k' (es.filter (fun e => e.1 ≠ k)) = if k' = k then none else findList k' es := by
  induction es with
  | nil => simp [findList]
  | cons e es ih =>
      by_cases he : e.1 = k
      · rw [List.filter_cons_of_neg (by simpa using he), ih]
        by_cases h : k' = k
        · simp [h]
        · simp [findList, h, he, Ne.symm h]
      · rw [List.filter_cons_of_pos (by simpa using he)]
        by_cases h : e.1 = k'
        · subst h; simp [findList, he]
        · rw [findList, if_neg h, ih, findList, if_neg h]

theorem mem_of_findList {k : κ} {v : ν} {es : List (κ × ν)} (h : findList k es = some v) : (k, v) ∈ es := by
  induction es with
  | nil => cases h
  | cons e es ih =>
      by_cases he : e.1 = k
      · simp only [findList, he, ↓reduceIte, Option.some.injEq] at h
        subst he h
        exact List.mem_cons_self
      · exact List.mem_cons_of_mem _ (ih (by simpa [findList, he] using h))

theorem findList_of_mem {k : κ} {v : ν} {es : List (κ × ν)} (hn : (es.map Prod.fst).Nodup) (h : (k, v) ∈ es) :
    findList k es = some v := by
  induction es with
  | nil => cases h
  | cons e es ih =>
      rw [List.map_cons, List.nodup_cons] at hn
      rcases List.mem_cons.mp h with he | he
      · subst he; simp [findList]
      · have hk : e.1 ≠ k := by
          intro hk
          exact hn.1 (hk ▸ List.mem_map_of_mem (f := Prod.fst) he)
        simpa [findList, hk] using ih hn.2 he

def get? (d : Dict κ ν) (k : κ) : Option ν := findList k d.entries

def set (d : Dict κ ν) (k : κ) (v : ν) : Dict κ ν := ⟨setList k v d.entries, nodup_setList d.nodup⟩

def pop (d : Dict κ ν) (k : κ) : Dict κ ν :=
  ⟨d.entries.filter (fun e => e.1 ≠ k), d.nodup.sublist (List.filter_sublist.map _)⟩

/-- Changes every value. -/
def mapValues (d : Dict κ ν) (f : κ → ν → ν) : Dict κ ν :=
  ⟨d.entries.map fun e => (e.1, f e.1 e.2), by simpa [Function.comp_def] using d.nodup⟩

/-- The entries whose key has the property. -/
def filterKeys (d : Dict κ ν) (p : κ → Bool) : Dict κ ν :=
  ⟨d.entries.filter fun e => p e.1, d.nodup.sublist (List.filter_sublist.map _)⟩

@[simp] theorem get?_empty (k : κ) : (∅ : Dict κ ν).get? k = none := rfl

theorem get?_set (d : Dict κ ν) (k k' : κ) (v : ν) :
    (d.set k v).get? k' = if k' = k then some v else d.get? k' := findList_setList

@[simp] theorem get?_set_self (d : Dict κ ν) (k : κ) (v : ν) : (d.set k v).get? k = some v := by
  simp [get?_set]

theorem set_set (d : Dict κ ν) (k : κ) (v w : ν) : (d.set k v).set k w = d.set k w := by
  simp [set, setList_setList]

theorem get?_set_ne (d : Dict κ ν) {k k' : κ} (v : ν) (h : k' ≠ k) : (d.set k v).get? k' = d.get? k' := by
  simp [get?_set, h]

theorem get?_pop (d : Dict κ ν) (k k' : κ) : (d.pop k).get? k' = if k' = k then none else d.get? k' :=
  findList_filter_ne

@[simp] theorem get?_pop_self (d : Dict κ ν) (k : κ) : (d.pop k).get? k = none := by
  simp [get?_pop]

theorem get?_pop_ne (d : Dict κ ν) {k k' : κ} (h : k' ≠ k) : (d.pop k).get? k' = d.get? k' := by
  simp [get?_pop, h]

/-- A new key comes last. -/
theorem entries_set_of_none {d : Dict κ ν} {k : κ} (h : d.get? k = none) (v : ν) : (d.set k v).entries = d.entries ++ [(k, v)] := by
  show setList k v d.entries = d.entries ++ [(k, v)]
  have h : findList k d.entries = none := h
  generalize d.entries = es at h
  induction es with
  | nil => rfl
  | cons e es ih =>
      by_cases he : e.1 = k
      · simp [findList, he] at h
      · rw [findList, if_neg he] at h
        rw [setList, if_neg he, ih h, List.cons_append]

theorem pop_of_none {d : Dict κ ν} {k : κ} (h : d.get? k = none) : d.pop k = d := by
  have hself : d.entries.filter (fun e => e.1 ≠ k) = d.entries := by
    rw [List.filter_eq_self]
    intro e he
    rw [decide_eq_true_eq]
    intro hk
    have hsome : d.get? k = some e.2 := findList_of_mem d.nodup (hk ▸ he)
    rw [h] at hsome
    cases hsome
  cases d
  simpa only [pop, Dict.mk.injEq] using hself

@[simp] theorem pop_empty (k : κ) : (∅ : Dict κ ν).pop k = ∅ := rfl

@[simp] theorem set_empty_set (k : κ) (v v' : ν) : ((∅ : Dict κ ν).set k v).set k v' = (∅ : Dict κ ν).set k v' := by
  simp [set, setList]

@[simp] theorem set_empty_pop (k : κ) (v : ν) : ((∅ : Dict κ ν).set k v).pop k = ∅ := by
  show (⟨_, _⟩ : Dict κ ν) = ⟨[], _⟩
  simp [set, setList]

/-- A value that is found after a `pop` was there before it. -/
theorem get?_of_get?_pop {d : Dict κ ν} {k k' : κ} {v : ν} (h : (d.pop k).get? k' = some v) :
    d.get? k' = some v := by
  rw [get?_pop] at h
  split at h
  · cases h
  · exact h

/-- The entries are what `get?` finds. -/
theorem mem_entries {d : Dict κ ν} {k : κ} {v : ν} : (k, v) ∈ d.entries ↔ d.get? k = some v :=
  ⟨findList_of_mem d.nodup, mem_of_findList⟩

theorem get?_mapValues (d : Dict κ ν) (f : κ → ν → ν) (k : κ) : (d.mapValues f).get? k = (d.get? k).map (f k) := by
  obtain ⟨entries, hn⟩ := d
  show findList k (entries.map _) = (findList k entries).map (f k)
  clear hn
  induction entries with
  | nil => rfl
  | cons e es ih =>
      by_cases he : e.1 = k
      · subst he; simp [findList]
      · simpa [findList, he] using ih

theorem mem_keys {d : Dict κ ν} {k : κ} : k ∈ d.keys ↔ ∃ v, d.get? k = some v := by
  simp only [keys, List.mem_map]
  constructor
  · rintro ⟨⟨k₀, v⟩, he, rfl⟩; exact ⟨v, mem_entries.mp he⟩
  · rintro ⟨v, hv⟩; exact ⟨(k, v), mem_entries.mpr hv, rfl⟩

theorem mem_keys_set {d : Dict κ ν} {k k' : κ} {v : ν} : k' ∈ (d.set k v).keys ↔ k' = k ∨ k' ∈ d.keys :=
  mem_keys_setList

/-- A key that is there keeps its place. -/
theorem keys_set_of_mem {d : Dict κ ν} {k : κ} (h : k ∈ d.keys) (v : ν) : (d.set k v).keys = d.keys := by
  have hlist : ∀ es : List (κ × ν), k ∈ es.map Prod.fst → (setList k v es).map Prod.fst = es.map Prod.fst := by
    intro es
    induction es with
    | nil => nofun
    | cons e es ih =>
        intro hk
        by_cases he : e.1 = k
        · simp [setList, he]
        · have hk' : k ∈ es.map Prod.fst := (List.mem_cons.mp hk).resolve_left (Ne.symm he)
          rw [setList, if_neg he, List.map_cons, ih hk', List.map_cons]
  exact hlist d.entries h

theorem mem_keys_pop {d : Dict κ ν} {k k' : κ} : k' ∈ (d.pop k).keys ↔ k' ≠ k ∧ k' ∈ d.keys := by
  simp only [mem_keys, get?_pop]
  by_cases h : k' = k <;> simp [h]

theorem get?_foldl_set {es : List (κ × ν)} (hn : (es.map Prod.fst).Nodup) (d : Dict κ ν) (k : κ) :
    (es.foldl (fun d e => d.set e.1 e.2) d).get? k = (findList k es).or (d.get? k) := by
  induction es generalizing d with
  | nil => rfl
  | cons e es ih =>
      rw [List.map_cons, List.nodup_cons] at hn
      rw [List.foldl_cons, ih hn.2, get?_set]
      by_cases hk : k = e.1
      · subst hk
        have hnone : findList e.1 es = none := by
          cases hf : findList e.1 es with
          | none => rfl
          | some v => exact absurd (List.mem_map_of_mem (f := Prod.fst) (mem_of_findList hf)) hn.1
        simp [findList, hnone]
      · simp [findList, hk, Ne.symm hk]

/-- `d.update(d')`. -/
def update (d d' : Dict κ ν) : Dict κ ν := d'.entries.foldl (fun d e => d.set e.1 e.2) d

theorem get?_update (d d' : Dict κ ν) (k : κ) : (d.update d').get? k = (d'.get? k).or (d.get? k) :=
  get?_foldl_set d'.nodup d k

theorem findList_filterKeys {k : κ} {p : κ → Bool} {es : List (κ × ν)} :
    findList k (es.filter fun e => p e.1) = if p k then findList k es else none := by
  induction es with
  | nil => simp [findList]
  | cons e es ih =>
      obtain ⟨k', v⟩ := e
      by_cases hk : k' = k
      · subst hk
        by_cases hp : p k' <;> simp [List.filter_cons, findList, hp, ih]
      · by_cases hp : p k' <;> simp [List.filter_cons, findList, hp, hk, ih]

theorem get?_filterKeys (d : Dict κ ν) (p : κ → Bool) (k : κ) :
    (d.filterKeys p).get? k = if p k then d.get? k else none := findList_filterKeys

end Dict
