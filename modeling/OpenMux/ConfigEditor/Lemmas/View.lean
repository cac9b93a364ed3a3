import OpenMux.ConfigEditor.Places

/-!
# The view hides the masked places
-/

namespace OpenMux.ConfigEditor

open Py Place

variable {c d : Mapping} {v w : Tree}

/-! ## Masking -/

theorem maskField_eq (m : Mapping) (field : Text) :
    Tree.dict (maskField m field) = Place.modify blind [.key field] (.dict m) := by
  unfold maskField
  cases h : Mapping.find field m with
  | none => simp [Place.modify, Mapping.get, h, Tree.truthy]
  | some v => cases hv : v.truthy <;> simp [Place.modify, blind, Mapping.get, h, hv, Mapping.assign_find]

theorem maskFields_eq (fields : List Text) (v : Tree) :
    maskFields fields v = blindAll (fields.map fun field => [.key field]) v := by
  unfold blindAll
  rw [List.foldl_map]
  cases v with
  | dict m =>
      unfold maskFields
      dsimp only
      induction fields generalizing m with
      | nil => rfl
      | cons field fields ih => rw [List.foldl_cons, List.foldl_cons, ih, maskField_eq]
  | _ =>
      induction fields with
      | nil => rfl
      | cons field fields ih => rw [List.foldl_cons]; exact ih

/-- Places one step further in are hidden one step further in. -/
theorem within_blindAll (s : Step) (ps : List Place) (v : Tree) :
    within (blindAll ps) s v = blindAll (ps.map (s :: ·)) v := by
  unfold blindAll
  rw [List.foldl_map]
  induction ps generalizing v with
  | nil => exact within_id fun _ => rfl
  | cons p ps ih =>
      rw [List.foldl_cons, ← ih]
      show _ = within _ s (within (Place.modify blind p) s v)
      rw [within_within]
      rfl

theorem blindAll_append (ps qs : List Place) (v : Tree) : blindAll (ps ++ qs) v = blindAll qs (blindAll ps v) := by
  simp [blindAll]

theorem maskPort_eq (v : Tree) : maskPort v = blindAll
    [path ["password"], path ["api_key"], path ["protocol", "password"], path ["protocol", "api_key"]] v := by
  cases v with
  | dict m =>
      have : maskPort (.dict m) = within (maskFields portSecretFields) (.key "protocol".toList)
        (maskFields portSecretFields (.dict m)) := rfl
      rw [this, show maskFields portSecretFields = _ from funext (maskFields_eq portSecretFields), within_blindAll,
        ← blindAll_append]
      rfl
  | _ => rfl

theorem maskAuth_eq (h : maskAuth v = some w) : w = blindAll
    [path ["users"] ++ .rows :: path ["password_hash"], path ["api_keys"] ++ .rows :: path ["key"]] v := by
  have hrows : ∀ (field : Text) (x y : Tree),
      Tree.forRows (fun row => some (maskFields [field] row)) x = some y → y = blindAll [[.rows, .key field]] x := by
    intro field x y hxy
    rw [forRows_eq (f := blindAll [[.key field]]) hxy, within_blindAll]
    · rfl
    · intro a b hab
      cases hab
      exact maskFields_eq _ _
  cases v with
  | dict auth =>
      obtain ⟨auth₂, hbind, rfl⟩ := Option.map_eq_some_iff.mp h
      obtain ⟨auth₁, h₁, h₂⟩ := Option.bind_eq_some_iff.mp hbind
      rw [dict_of_update h₂ (hrows _), dict_of_update h₁ (hrows _), within_blindAll, within_blindAll, ← blindAll_append]
      rfl
  | _ => cases h; rfl

/-- The view is the configuration with the masked places hidden. -/
theorem maskConfigSecrets_eq (h : maskConfigSecrets c = some d) : Tree.dict d = blindAll maskedPlaces (.dict c) := by
  obtain ⟨c₁, h₁, h₂⟩ := Option.bind_eq_some_iff.mp h
  have hports : ∀ (x y : Tree), Tree.forRows (fun item => some (maskPort item)) x = some y →
      y = blindAll [.rows :: path ["password"], .rows :: path ["api_key"], .rows :: path ["protocol", "password"],
        .rows :: path ["protocol", "api_key"]] x := by
    intro x y hxy
    rw [forRows_eq hxy (fun a b hab => by cases hab; exact maskPort_eq a), within_blindAll]
    rfl
  rw [dict_of_update h₂ hports, dict_of_update h₁ (fun _ _ => maskAuth_eq), within_blindAll, within_blindAll,
    ← blindAll_append]
  rfl

/-! ## When there is a view -/

theorem maskAuth_isSome : (maskAuth v).isSome ↔
    (∀ w ∈ values (path ["users"]) v, w.loopable = true) ∧ ∀ w ∈ values (path ["api_keys"]) v, w.loopable = true := by
  cases v with
  | dict auth =>
      rw [maskAuth, Option.isSome_map, Mapping.update_update_isSome (by decide)]
      simp only [path, List.map_cons, List.map_nil, forall_values_key, forall_values_nil, Tree.forRows_isSome]
  | _ => simp [maskAuth, path, values]

theorem maskConfigSecrets_isSome : (maskConfigSecrets c).isSome ↔ Listed c := by
  rw [maskConfigSecrets, Mapping.update_update_isSome (by decide)]
  simp only [maskAuth_isSome, Tree.forRows_isSome, Listed, loopPlaces, List.forall_mem_cons]
  simp only [path, List.map_cons, List.map_nil, forall_values_key, forall_values_nil]
  constructor
  · rintro ⟨hauth, hports⟩
    exact ⟨fun w hw => (hauth w hw).1, fun w hw => (hauth w hw).2, hports, fun p hp => by cases hp⟩
  · rintro ⟨husers, hkeys, hports, -⟩
    exact ⟨fun w hw => ⟨husers w hw, hkeys w hw⟩, hports⟩

/-! ## Variants -/

/-- A place of secrets is beside a list that the view goes through, or in its rows. -/
def Beside (p q : Place) : Prop := Apart p q ∨ ∃ r, p = q ++ .rows :: r

theorem secretPlaces_beside : ∀ p ∈ maskedPlaces ++ exposedPlaces, ∀ q ∈ loopPlaces, Beside p q := by
  simp only [maskedPlaces, exposedPlaces, loopPlaces, path, List.cons_append, List.nil_append, List.forall_mem_cons]
  simp [Beside, Apart]

theorem loopable_rows (r : Place) (v : Tree) : (Place.modify blind (.rows :: r) v).loopable = v.loopable := by
  cases v <;> simp [Place.modify, within, Tree.loopable, Tree.iterable]

theorem loopable_values {p q : Place} (h : Beside p q) (t : Tree) :
    (∀ v ∈ values q (Place.modify blind p t), v.loopable = true) ↔ ∀ v ∈ values q t, v.loopable = true := by
  rcases h with h | ⟨r, rfl⟩
  · rw [values_modify h]
  · rw [values_modify_append]
    simp [loopable_rows]

theorem loopable_blindAll {ps : List Place} {q : Place} (h : ∀ p ∈ ps, Beside p q) (t : Tree) :
    (∀ v ∈ values q (blindAll ps t), v.loopable = true) ↔ ∀ v ∈ values q t, v.loopable = true := by
  induction ps generalizing t with
  | nil => rfl
  | cons p ps ih =>
      rw [List.forall_mem_cons] at h
      rw [blindAll, List.foldl_cons]
      exact (ih h.2 _).trans (loopable_values h.1 t)

/-- Variants are gone through alike. -/
theorem listed_variants (h : SecretVariants c d) : Listed c ↔ Listed d := by
  have hblind : ∀ (e : Mapping), Listed e ↔ ∀ q ∈ loopPlaces,
      ∀ v ∈ values q (blindAll (maskedPlaces ++ exposedPlaces) (.dict e)), v.loopable = true := fun e =>
    forall₂_congr fun q hq => (loopable_blindAll (fun p hp => secretPlaces_beside p hp q hq) _).symm
  rw [hblind, hblind, h]

theorem masked_apart_exposed : ∀ p ∈ maskedPlaces, ∀ q ∈ exposedPlaces, Apart p q := by
  simp only [maskedPlaces, exposedPlaces, path, List.cons_append, List.nil_append, List.forall_mem_cons]
  simp [Apart]

theorem values_blindAll {ps : List Place} {q : Place} (h : ∀ p ∈ ps, Apart p q) (t : Tree) :
    values q (blindAll ps t) = values q t := by
  induction ps generalizing t with
  | nil => rfl
  | cons p ps ih =>
      rw [List.forall_mem_cons] at h
      rw [blindAll, List.foldl_cons]
      exact (ih h.2 _).trans (values_modify h.1)

/-- Trees that are the same once places apart from each other are hidden, with the same values there, are the same. -/
theorem eq_of_blindAll {ps : List Place} (hps : ps.Pairwise Apart) (h : blindAll ps v = blindAll ps w)
    (hv : ∀ p ∈ ps, values p v = values p w) : v = w := by
  induction ps generalizing v w with
  | nil => exact h
  | cons p ps ih =>
      rw [List.pairwise_cons] at hps
      rw [List.forall_mem_cons] at hv
      rw [blindAll, blindAll, List.foldl_cons, List.foldl_cons] at h
      have hp : Place.modify blind p v = Place.modify blind p w := by
        refine ih hps.2 h fun q hq => ?_
        rw [values_modify (hps.1 q hq), values_modify (hps.1 q hq)]
        exact hv.2 q hq
      exact eq_of_modify hp hv.1

theorem exposed_pairwise : exposedPlaces.Pairwise Apart := by
  simp only [exposedPlaces, path, List.cons_append, List.nil_append, List.pairwise_cons, List.forall_mem_cons]
  simp [Apart]

/-- The views of variants are the same exactly when the exposed secrets are. -/
theorem views_eq_iff {c' d' : Mapping} (h : SecretVariants c d) (hc : maskConfigSecrets c = some c')
    (hd : maskConfigSecrets d = some d') : c' = d' ↔ SameExposed c d := by
  have hsame : SameExposed c' d' ↔ SameExposed c d := by
    refine forall₂_congr fun q hq => ?_
    have hapart := fun p hp => masked_apart_exposed p hp q hq
    rw [maskConfigSecrets_eq hc, maskConfigSecrets_eq hd, values_blindAll hapart, values_blindAll hapart]
  rw [← hsame]
  constructor
  · rintro rfl
    exact fun _ _ => rfl
  · intro he
    unfold SecretVariants at h
    rw [blindAll_append, blindAll_append, ← maskConfigSecrets_eq hc, ← maskConfigSecrets_eq hd] at h
    exact Tree.dict.inj (eq_of_blindAll exposed_pairwise h he)

end OpenMux.ConfigEditor

/-!
## Masking and restoring go through the same rows
-/

namespace OpenMux.ConfigEditor

open Py

variable {f g : RowList → Tree → Option Tree} {c d : Mapping} {v w : Tree}

/-! ## Loops over the three lists -/

def rewriteAuth (f : RowList → Tree → Option Tree) : Tree → Option Tree
  | .dict auth => ((Mapping.update "users".toList (Tree.forRows (f .users)) auth).bind
      (Mapping.update "api_keys".toList (Tree.forRows (f .apiKeys)))).map .dict
  | v => some v

/-- Rewrites the rows of the three lists. -/
def rewriteRows (f : RowList → Tree → Option Tree) (c : Mapping) : Option Mapping :=
  (Mapping.update "authentication".toList (rewriteAuth f) c).bind
    (Mapping.update "tcp_initiator_ports".toList (Tree.forRows (f .ports)))

theorem maskConfigSecrets_rows : maskConfigSecrets c = rewriteRows (fun l row => some (l.mask row)) c := by
  have hauth : maskAuth = rewriteAuth fun l row => some (l.mask row) := by
    funext v
    cases v <;> rfl
  rw [maskConfigSecrets, hauth]
  rfl

theorem restoreMaskedSecrets_rows : restoreMaskedSecrets c d = rewriteRows (RowList.restore d) c := by
  have hauth : restoreAuth (section? "authentication".toList d) = rewriteAuth (RowList.restore d) := by
    funext v
    cases v <;> rfl
  rw [restoreMaskedSecrets, hauth]
  rfl

theorem rows_update {k : Text} {F : Tree → Option Tree} {m n : Mapping} (h : Mapping.update k (Tree.forRows F) m = some n) :
    (Mapping.get k m).rows.mapM F = some (Mapping.get k n).rows := by
  rcases Mapping.get_of_update h with ⟨hk, rfl⟩ | ⟨a, b, hk, hb, rfl⟩
  · simp [Mapping.get, hk, Tree.rows]
  · simpa [Mapping.get, hk] using Tree.forRows_rows hb

theorem get_of_update_ne {k l : Text} {F : Tree → Option Tree} {m n : Mapping} (h : Mapping.update k F m = some n)
    (hne : l ≠ k) : Mapping.get l n = Mapping.get l m := by
  unfold Mapping.get
  rw [Mapping.find_update_ne h hne]

/-- The lists of accounts before and after. -/
theorem rows_rewriteAuth (h : rewriteAuth f v = some w) :
    (Mapping.get "users".toList v.entries).rows.mapM (f .users) = some (Mapping.get "users".toList w.entries).rows ∧
      (Mapping.get "api_keys".toList v.entries).rows.mapM (f .apiKeys) =
        some (Mapping.get "api_keys".toList w.entries).rows := by
  cases v with
  | dict auth =>
      obtain ⟨auth₂, hbind, rfl⟩ := Option.map_eq_some_iff.mp h
      obtain ⟨auth₁, h₁, h₂⟩ := Option.bind_eq_some_iff.mp hbind
      constructor
      · unfold Tree.entries
        dsimp only
        rw [get_of_update_ne h₂ (by decide)]
        exact rows_update h₁
      · unfold Tree.entries
        dsimp only
        rw [← get_of_update_ne h₁ (by decide)]
        exact rows_update h₂
  | _ => cases h; exact ⟨rfl, rfl⟩

theorem rows_rewriteRows (h : rewriteRows f c = some d) (l : RowList) : (l.rows c).mapM (f l) = some (l.rows d) := by
  obtain ⟨c₁, h₁, h₂⟩ := Option.bind_eq_some_iff.mp h
  have hsection : rewriteAuth f (Mapping.get "authentication".toList c) = some (Mapping.get "authentication".toList d) := by
    rw [get_of_update_ne h₂ (by decide)]
    unfold Mapping.get
    rcases Mapping.get_of_update h₁ with ⟨hk, rfl⟩ | ⟨a, b, hk, hb, rfl⟩
    · rw [hk]; rfl
    · rw [hk, Mapping.find_assign_self]; exact hb
  cases l with
  | users => exact (rows_rewriteAuth hsection).1
  | apiKeys => exact (rows_rewriteAuth hsection).2
  | ports =>
      unfold RowList.rows RowList.listOf
      dsimp only
      rw [← get_of_update_ne h₁ (by decide)]
      exact rows_update h₂

theorem rewriteAuth_inverse (h : rewriteAuth f v = some w)
    (husers : ∀ x ∈ (Mapping.get "users".toList v.entries).rows, ∀ y, f .users x = some y → g .users y = some x)
    (hkeys : ∀ x ∈ (Mapping.get "api_keys".toList v.entries).rows, ∀ y, f .apiKeys x = some y → g .apiKeys y = some x) :
    rewriteAuth g w = some v := by
  cases v with
  | dict auth =>
      obtain ⟨auth₂, hbind, rfl⟩ := Option.map_eq_some_iff.mp h
      refine Option.map_eq_some_iff.mpr ⟨auth, Mapping.update_update_inverse (by decide) hbind ?_ ?_, rfl⟩
      · intro a b ha hb
        refine Tree.forRows_inverse hb fun x hx => husers x ?_
        show x ∈ (Mapping.get _ auth).rows
        rw [Mapping.get, ha]
        exact hx
      · intro a b ha hb
        refine Tree.forRows_inverse hb fun x hx => hkeys x ?_
        show x ∈ (Mapping.get _ auth).rows
        rw [Mapping.get, ha]
        exact hx
  | _ => cases h; rfl

/-- A rewriting that takes every row back takes the whole back. -/
theorem rewriteRows_inverse (h : rewriteRows f c = some d)
    (hg : ∀ l : RowList, ∀ x ∈ l.rows c, ∀ y, f l x = some y → g l y = some x) : rewriteRows g d = some c := by
  refine Mapping.update_update_inverse (by decide) h ?_ ?_
  · intro a b ha hb
    have hsection : Mapping.get "authentication".toList c = a := by rw [Mapping.get, ha]; rfl
    refine rewriteAuth_inverse hb (fun x hx => hg .users x ?_) fun x hx => hg .apiKeys x ?_
    · unfold RowList.rows RowList.listOf section?
      dsimp only
      rwa [hsection]
    · unfold RowList.rows RowList.listOf section?
      dsimp only
      rwa [hsection]
  · intro a b ha hb
    refine Tree.forRows_inverse hb fun x hx => hg .ports x ?_
    unfold RowList.rows RowList.listOf
    dsimp only
    rw [Mapping.get, ha]
    exact hx

end OpenMux.ConfigEditor
