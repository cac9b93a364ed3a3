import OpenMux.Lib.PyValue

/-!
# Places in nested values

A place is a path of keys, with a step to every row of a list. `modify` changes the values at a place, and `values` lists them.
-/

namespace Py

inductive Step
  | key (k : Text)
  | rows
deriving DecidableEq

abbrev Place := List Step

namespace Place

/-- The change of what one step leads to. -/
def within (f : Tree → Tree) : Step → Tree → Tree
  | .key k, .dict m => match Mapping.find k m with
      | some v => .dict (Mapping.assign k (f v) m)
      | none => .dict m
  | .rows, .list xs => .list (xs.map f)
  | _, v => v

def modify (f : Tree → Tree) : Place → Tree → Tree
  | [], v => f v
  | s :: p, v => within (modify f p) s v

def values : Place → Tree → List Tree
  | [], v => [v]
  | .key k :: p, .dict m => match Mapping.find k m with
      | some v => values p v
      | none => []
  | .rows :: p, .list xs => xs.flatMap (values p)
  | _ :: _, _ => []

/-- The places part at a key. -/
def Apart : Place → Place → Prop
  | .key k :: p, .key l :: q => k ≠ l ∨ Apart p q
  | .rows :: p, .rows :: q => Apart p q
  | _, _ => False

variable {f g : Tree → Tree} {s : Step} {p q : Place} {v w : Tree} {m : Mapping} {k : Text}

@[simp] theorem within_key (h : Mapping.find k m = some v) :
    within f (.key k) (.dict m) = .dict (Mapping.assign k (f v) m) := by
  simp [within, h]

@[simp] theorem within_absent (h : Mapping.find k m = none) : within f (.key k) (.dict m) = .dict m := by
  simp [within, h]

@[simp] theorem within_rows (xs : List Tree) : within f .rows (.list xs) = .list (xs.map f) := rfl

/-- Two changes of one step are one. -/
theorem within_within : within f s (within g s v) = within (fun v => f (g v)) s v := by
  cases s with
  | rows => cases v <;> simp [within]
  | key k =>
      cases v with
      | dict m => cases h : Mapping.find k m <;> simp [within, h, Mapping.assign_assign]
      | _ => rfl

/-- A change that does nothing to what is there does nothing. -/
theorem within_id (h : ∀ v, f v = v) : within f s v = v := by
  obtain rfl : f = id := funext h
  cases s with
  | rows => cases v <;> simp [within]
  | key k =>
      cases v with
      | dict m => cases hk : Mapping.find k m <;> simp [within, hk, Mapping.assign_find]
      | _ => rfl

theorem forall_values_key {P : Tree → Prop} :
    (∀ v ∈ values (.key k :: p) (.dict m), P v) ↔ ∀ w, Mapping.find k m = some w → ∀ v ∈ values p w, P v := by
  cases hk : Mapping.find k m <;> simp [values, hk]

theorem forall_values_nil {P : Tree → Prop} : (∀ v ∈ values [] w, P v) ↔ P w := by simp [values]

theorem values_modify (h : Apart p q) : values q (modify f p v) = values q v := by
  induction p generalizing q v with
  | nil => cases h
  | cons s p ih =>
      cases q with
      | nil => cases s <;> cases h
      | cons t q =>
          cases s with
          | rows =>
              cases t with
              | key l => cases h
              | rows => cases v <;> simp [modify, within, values, List.flatMap_map, ih (q := q) h]
          | key k =>
              cases t with
              | rows => cases h
              | key l =>
                  cases v with
                  | dict m =>
                      cases hk : Mapping.find k m with
                      | none => simp [modify, within, hk]
                      | some a =>
                          by_cases hl : l = k
                          · subst hl
                            have hpq := h.resolve_left (fun hne => hne rfl)
                            simp [modify, within, values, hk, ih (q := q) hpq]
                          · simp [modify, within, values, hk, Mapping.find_assign_ne hl]
                  | _ => rfl

/-- What is changed below a place is what is found there, changed. -/
theorem values_modify_append : values p (modify f (p ++ q) v) = (values p v).map (modify f q) := by
  induction p generalizing v with
  | nil => rfl
  | cons s p ih =>
      cases s with
      | rows => cases v <;> simp [modify, within, values, List.flatMap_map, List.map_flatMap, ih]
      | key k =>
          cases v with
          | dict m => cases hk : Mapping.find k m <;> simp [modify, within, values, hk, ih]
          | _ => rfl

theorem length_values_modify : (values p (modify f p v)).length = (values p v).length := by
  induction p generalizing v with
  | nil => rfl
  | cons s p ih =>
      cases s with
      | rows => cases v <;> simp [modify, within, values, List.length_flatMap, Function.comp_def, ih]
      | key k =>
          cases v with
          | dict m => cases hk : Mapping.find k m <;> simp [modify, within, values, hk, ih]
          | _ => rfl

/-- What a change of a place leaves, with the values that were there, is the whole. -/
theorem eq_of_modify (h : modify f p v = modify f p w) (hv : values p v = values p w) : v = w := by
  induction p generalizing v w with
  | nil => simpa [values] using hv
  | cons s p ih =>
      cases s with
      | rows =>
          cases v with
          | list xs =>
              cases w with
              | list ys =>
                  simp only [modify, within, Tree.list.injEq] at h ⊢
                  simp only [values] at hv
                  induction xs generalizing ys with
                  | nil => cases ys <;> simp at h ⊢
                  | cons x xs ihx =>
                      cases ys with
                      | nil => simp at h
                      | cons y ys =>
                          simp only [List.map_cons, List.cons.injEq] at h
                          simp only [List.flatMap_cons] at hv
                          have hlen : (values p x).length = (values p y).length := by
                            rw [← length_values_modify (f := f), h.1, length_values_modify]
                          obtain ⟨hx, hxs⟩ := List.append_inj hv hlen
                          rw [ih h.1 hx, ihx ys hxs h.2]
              | _ => simp [modify, within] at h
          | _ => cases w <;> simp_all [modify, within]
      | key k =>
          cases v with
          | dict m =>
              cases w with
              | dict n =>
                  cases hm : Mapping.find k m with
                  | none =>
                      cases hn : Mapping.find k n with
                      | none => simpa [modify, within, hm, hn] using h
                      | some b =>
                          simp only [modify, within, hm, hn, Tree.dict.injEq] at h
                          rw [h] at hm
                          simp at hm
                  | some a =>
                      cases hn : Mapping.find k n with
                      | none =>
                          simp only [modify, within, hm, hn, Tree.dict.injEq] at h
                          rw [← h] at hn
                          simp at hn
                      | some b =>
                          simp only [modify, within, hm, hn, Tree.dict.injEq] at h
                          simp only [values, hm, hn] at hv
                          have hval : modify f p a = modify f p b := by
                            have := congrArg (Mapping.find k) h
                            simpa using this
                          have hab := ih hval hv
                          subst hab
                          have hassign := congrArg (Mapping.assign k a) h
                          rw [Mapping.assign_assign, Mapping.assign_assign, Mapping.assign_find hm, Mapping.assign_find hn] at hassign
                          rw [hassign]
              | _ => cases hm : Mapping.find k m <;> simp [modify, within, hm] at h
          | _ =>
              cases w with
              | dict n => cases hn : Mapping.find k n <;> simp [modify, within, hn] at h
              | _ => first | exact h | exact absurd h (by simp [modify, within])

/-! ## Loops -/

theorem dict_of_update {F : Tree → Option Tree} {n : Mapping} (h : Mapping.update k F m = some n)
    (hF : ∀ v w, F v = some w → w = f v) : Tree.dict n = within f (.key k) (.dict m) := by
  unfold Mapping.update at h
  cases hk : Mapping.find k m with
  | none =>
      simp only [hk, Option.some.injEq] at h
      rw [within_absent hk, h]
  | some v =>
      simp only [hk, Option.map_eq_some_iff] at h
      obtain ⟨w, hw, rfl⟩ := h
      rw [within_key hk, hF v w hw]

theorem forRows_eq {F : Tree → Option Tree} (h : Tree.forRows F v = some w) (hF : ∀ x y, F x = some y → y = f x) :
    w = within f .rows v := by
  cases v with
  | list xs =>
      obtain ⟨ys, hys, rfl⟩ := Option.map_eq_some_iff.mp h
      rw [within_rows]
      rw [← List.mapM'_eq_mapM] at hys
      congr 1
      clear h
      induction xs generalizing ys with
      | nil => cases hys; rfl
      | cons x xs ih =>
          simp only [List.mapM'_cons, Option.pure_def, Option.bind_eq_bind, Option.bind_eq_some_iff] at hys
          obtain ⟨y, hy, zs, hzs, hcons⟩ := hys
          cases hcons
          rw [List.map_cons, hF x y hy, ih zs hzs]
  | _ =>
      simp only [Tree.forRows] at h
      split at h
      · cases h; rfl
      · cases h

end Place

end Py
