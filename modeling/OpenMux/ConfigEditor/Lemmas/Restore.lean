import OpenMux.ConfigEditor.Lemmas.View

/-!
# Rows are restored from the first row with their name
-/

namespace OpenMux.ConfigEditor

open Py

variable {source stored v w : Tree} {m n : Mapping} {field k : Text} {fields : List Text}

theorem get_eq_mask : (Mapping.get field m).eq (.str secretMask) = true ↔ Mapping.find field m = some (.str secretMask) := by
  rw [Tree.eq_str, Mapping.get]
  cases Mapping.find field m <;> simp

/-! ## Fields -/

theorem find_maskField_ne (h : k ≠ field) : Mapping.find k (maskField m field) = Mapping.find k m := by
  unfold maskField
  split
  · exact Mapping.find_assign_ne h
  · rfl

theorem find_maskField_self (h : Mapping.find field m = some v) (hv : v.truthy = true) :
    Mapping.find field (maskField m field) = some (.str secretMask) := by
  unfold maskField
  simp [Mapping.get, h, hv]

theorem find_foldl_maskField (h : k ∉ fields) : Mapping.find k (fields.foldl maskField m) = Mapping.find k m := by
  induction fields generalizing m with
  | nil => rfl
  | cons field fields ih =>
      rw [List.mem_cons, not_or] at h
      rw [List.foldl_cons, ih h.2, find_maskField_ne h.1]

theorem find_foldl_maskField_mem (hn : fields.Nodup) (hf : field ∈ fields) (h : Mapping.find field m = some v)
    (hv : v.truthy = true) : Mapping.find field (fields.foldl maskField m) = some (.str secretMask) := by
  induction fields generalizing m with
  | nil => cases hf
  | cons f fields ih =>
      rw [List.nodup_cons] at hn
      rw [List.foldl_cons]
      rcases List.mem_cons.mp hf with rfl | hf
      · rw [find_foldl_maskField hn.1, find_maskField_self h hv]
      · have hne : field ≠ f := fun he => hn.1 (he ▸ hf)
        exact ih hn.2 hf (by rwa [find_maskField_ne hne])

/-- A field that is restored takes what its source has. -/
theorem restoreField_spec (h : restoreField source m field = some n) :
    (Mapping.find field m = some (.str secretMask) → Mapping.find field n = restored source field) ∧
      (Mapping.find field m ≠ some (.str secretMask) → Mapping.find field n = Mapping.find field m) ∧
      ∀ k, k ≠ field → Mapping.find k n = Mapping.find k m := by
  unfold restoreField at h
  split at h
  · rename_i hmask
    obtain ⟨v, hv, rfl⟩ := Option.map_eq_some_iff.mp h
    refine ⟨fun _ => by rw [Mapping.find_assign_self, hv], fun hno => absurd (get_eq_mask.mp hmask) hno, fun k hk => ?_⟩
    exact Mapping.find_assign_ne hk
  · rename_i hmask
    cases h
    exact ⟨fun hyes => absurd (get_eq_mask.mpr hyes) hmask, fun _ => rfl, fun _ _ => rfl⟩

theorem restoreFields_spec (hn : fields.Nodup) (h : fields.foldlM (restoreField source) m = some n) :
    (∀ field ∈ fields, (Mapping.find field m = some (.str secretMask) → Mapping.find field n = restored source field) ∧
      (Mapping.find field m ≠ some (.str secretMask) → Mapping.find field n = Mapping.find field m)) ∧
      ∀ k, k ∉ fields → Mapping.find k n = Mapping.find k m := by
  induction fields generalizing m with
  | nil => cases h; exact ⟨fun _ hf => (by cases hf), fun _ _ => rfl⟩
  | cons f fields ih =>
      rw [List.nodup_cons] at hn
      rw [List.foldlM_cons] at h
      obtain ⟨m₁, h₁, h₂⟩ := Option.bind_eq_some_iff.mp h
      obtain ⟨hmask, hkeep, hother⟩ := restoreField_spec h₁
      obtain ⟨hin, hout⟩ := ih hn.2 h₂
      refine ⟨fun field hf => ?_, fun k hk => ?_⟩
      · rcases List.mem_cons.mp hf with rfl | hf
        · rw [hout field hn.1]
          exact ⟨hmask, hkeep⟩
        · have hne : field ≠ f := fun he => hn.1 (he ▸ hf)
          rw [← hother field hne]
          exact hin field hf
      · rw [List.mem_cons, not_or] at hk
        rw [hout k hk.2, hother k hk.1]

/-- Restoring a field leaves an assignment to another key alone. -/
theorem restoreField_assign (hk : k ≠ field) (hfind : Mapping.find k m = some v) :
    restoreField source (Mapping.assign k w m) field = (restoreField source m field).map (Mapping.assign k w) := by
  unfold restoreField
  rw [Mapping.get_assign_ne hk.symm]
  split
  · cases restored source field with
    | none => rfl
    | some u => simp [Mapping.assign_comm hk hfind]
  · rfl

theorem restoreField_mask_ne (h : field ≠ k) :
    restoreField source (maskField m k) field = (restoreField source m field).map fun m => maskField m k := by
  cases hk : Mapping.find k m with
  | none =>
      have hmask : ∀ n, Mapping.find k n = none → maskField n k = n := fun n hn => by simp [maskField, Mapping.get, hn, Tree.truthy]
      rw [hmask m hk]
      cases hr : restoreField source m field with
      | none => rfl
      | some n => simp [hmask n (by rw [(restoreField_spec hr).2.2 k h.symm, hk])]
  | some u =>
      have hmask : ∀ n, Mapping.find k n = some u → maskField n k = if u.truthy then Mapping.assign k (.str secretMask) n else n :=
        fun n hn => by simp [maskField, Mapping.get, hn]
      rw [hmask m hk]
      cases hr : restoreField source m field with
      | none => cases u.truthy <;> simp [hr, restoreField_assign h.symm hk]
      | some n =>
          have hn := hmask n (by rw [(restoreField_spec hr).2.2 k h.symm, hk])
          cases hu : u.truthy <;> simp [hr, restoreField_assign h.symm hk, hn, hu]

theorem mask_truthy (h : v.truthy = false) : v ≠ .str secretMask := by
  rintro rfl
  cases h

theorem restoreField_mask_self (h : ∀ v, Mapping.find field m = some v → v.truthy = true → restored source field = some v) :
    restoreField source (maskField m field) field = some m := by
  cases hf : Mapping.find field m with
  | none =>
      have hmask : maskField m field = m := by simp [maskField, Mapping.get, hf, Tree.truthy]
      rw [hmask, restoreField, if_neg]
      rw [get_eq_mask, hf]
      simp
  | some v =>
      cases hv : v.truthy with
      | true =>
          have hr := h v hf hv
          have hmask : maskField m field = Mapping.assign field (.str secretMask) m := by simp [maskField, Mapping.get, hf, hv]
          rw [hmask, restoreField, if_pos (get_eq_mask.mpr Mapping.find_assign_self), hr, Option.map_some,
            Mapping.assign_assign, Mapping.assign_find hf]
      | false =>
          have hmask : maskField m field = m := by simp [maskField, Mapping.get, hf, hv]
          rw [hmask, restoreField, if_neg]
          rw [get_eq_mask, hf]
          exact fun he => mask_truthy hv (Option.some.inj he)

theorem restoreField_foldl (h : field ∉ fields) : restoreField source (fields.foldl maskField m) field =
    (restoreField source m field).map (fields.foldl maskField ·) := by
  induction fields generalizing m with
  | nil => simp
  | cons f fields ih =>
      rw [List.mem_cons, not_or] at h
      rw [List.foldl_cons, ih h.2, restoreField_mask_ne h.1, Option.map_map]
      rfl

/-- Masked fields are restored when the source has what was masked. -/
theorem restoreFields_mask (hn : fields.Nodup)
    (h : ∀ field ∈ fields, ∀ v, Mapping.find field m = some v → v.truthy = true → restored source field = some v) :
    fields.foldlM (restoreField source) (fields.foldl maskField m) = some m := by
  induction fields generalizing m with
  | nil => rfl
  | cons f fields ih =>
      rw [List.nodup_cons] at hn
      rw [List.forall_mem_cons] at h
      rw [List.foldl_cons, List.foldlM_cons, restoreField_foldl hn.1, restoreField_mask_self h.1]
      exact ih hn.2 h.2

theorem restoreFields_assign (hk : k ∉ fields) (hfind : Mapping.find k m = some v) :
    fields.foldlM (restoreField source) (Mapping.assign k w m) =
      (fields.foldlM (restoreField source) m).map (Mapping.assign k w) := by
  induction fields generalizing m v with
  | nil => simp
  | cons f fields ih =>
      rw [List.mem_cons, not_or] at hk
      rw [List.foldlM_cons, List.foldlM_cons, restoreField_assign hk.1 hfind]
      cases hr : restoreField source m f with
      | none => rfl
      | some n => exact ih hk.2 (by rw [(restoreField_spec hr).2.2 k hk.1, hfind])

/-! ## Rows -/

/-- The row of a stored list that a row is restored from. -/
def foundFor (l : RowList) (c row : Mapping) : Option Tree :=
  findByField (l.listOf c) l.idField (Mapping.get l.idField row)

theorem source_dict (s : Spot) (c row : Mapping) :
    s.source c (.dict row) = (foundFor s.list c row).bind fun found => restored (s.holder found) s.field := rfl

theorem secret_dict {s : Spot} {row : Mapping} (h : s.nested = false) : s.secret (.dict row) = Mapping.find s.field row := by
  simp [Spot.secret, Spot.holder, h]

theorem secret_nested {s : Spot} {row : Mapping} (h : s.nested = true) :
    s.secret (.dict row) = Mapping.find s.field (Mapping.get "protocol".toList row).entries := by
  simp only [Spot.secret, Spot.holder, h, if_true, protocolOf, Tree.entries]
  cases Mapping.get "protocol".toList row <;> rfl

theorem secret_of_not_dict {s : Spot} {row : Tree} (h : ∀ m, row ≠ .dict m) : s.secret row = none := by
  unfold Spot.secret Spot.holder
  cases row with
  | dict m => exact absurd rfl (h m)
  | _ => cases s.nested <;> rfl

namespace RowList

theorem nodup_secretFields (l : RowList) : l.secretFields.Nodup := by cases l <;> decide

theorem idField_not_mem (l : RowList) : l.idField ∉ l.secretFields := by cases l <;> decide

theorem protocol_not_mem (l : RowList) : "protocol".toList ∉ l.secretFields := by cases l <;> decide

theorem idField_ne_protocol (l : RowList) : l.idField ≠ "protocol".toList := by cases l <;> decide

theorem mem_spots {l : RowList} (h : field ∈ l.secretFields) : ⟨l, false, field⟩ ∈ spots := by
  cases l <;> simp_all [secretFields, spots, portSecretFields]

theorem mem_spots_nested (h : field ∈ portSecretFields) : ⟨.ports, true, field⟩ ∈ spots := by
  simp_all [spots, portSecretFields]

theorem field_mem : ∀ s ∈ spots, s.field ∈ s.list.secretFields ∧ (s.nested = true → s.list = .ports) := by
  simp [spots, secretFields, portSecretFields]

/-- The rest of a port's row. -/
def restoreProtocol (l : RowList) (found : Tree) (row : Mapping) : Option Mapping :=
  match l with
  | ports => Mapping.update "protocol".toList (restoreFields (protocolOf found) portSecretFields) row
  | users | apiKeys => some row

theorem restore_dict (c row : Mapping) (l : RowList) : restore c l (.dict row) = (foundFor l c row).bind fun found =>
    ((l.secretFields.foldlM (restoreField found) row).bind (restoreProtocol l found)).map .dict := by
  have hrow : ∀ (x : Tree) (idField : Text) (fs : List Text),
      restoreRow x idField fs (.dict row) = (findByField x idField (Mapping.get idField row)).bind fun found =>
        ((fs.foldlM (restoreField found) row).bind some).map .dict := by
    intro x idField fs
    simp [restoreRow, restoreFields]
  cases l with
  | users => exact hrow _ _ _
  | apiKeys => exact hrow _ _ _
  | ports =>
      unfold restore restorePort foundFor secretFields restoreProtocol
      dsimp only
      congr 1
      funext found
      unfold restoreFields
      dsimp only
      cases portSecretFields.foldlM (restoreField found) row <;> rfl

theorem restore_of_not_dict {c : Mapping} {l : RowList} {row : Tree} (h : ∀ m, row ≠ .dict m) :
    restore c l row = some row := by
  cases row with
  | dict m => exact absurd rfl (h m)
  | _ => cases l <;> rfl

end RowList

/-- A restored row has the secrets of its source where it had the mask, and its own elsewhere. -/
theorem restore_spec {c : Mapping} {l : RowList} {row row' : Tree} (h : RowList.restore c l row = some row') :
    ∀ s ∈ spots, s.list = l →
      (s.secret row = some (.str secretMask) → s.secret row' = s.source c row) ∧
      (s.secret row ≠ some (.str secretMask) → s.secret row' = s.secret row) := by
  rintro s hs rfl
  obtain ⟨hfield, hports⟩ := RowList.field_mem s hs
  cases row with
  | dict m =>
      rw [RowList.restore_dict] at h
      obtain ⟨found, hfound, h⟩ := Option.bind_eq_some_iff.mp h
      obtain ⟨n, hbind, rfl⟩ := Option.map_eq_some_iff.mp h
      obtain ⟨m₁, h₁, h₂⟩ := Option.bind_eq_some_iff.mp hbind
      obtain ⟨hin, hout⟩ := restoreFields_spec s.list.nodup_secretFields h₁
      have hsource : s.source c (.dict m) = restored (s.holder found) s.field := by
        rw [source_dict, hfound]; rfl
      rw [hsource]
      cases hn : s.nested with
      | false =>
          have hfind : Mapping.find s.field n = Mapping.find s.field m₁ := by
            have hne : s.field ≠ "protocol".toList := fun he => s.list.protocol_not_mem (he ▸ hfield)
            revert h₂
            unfold RowList.restoreProtocol
            cases s.list with
            | ports => exact fun h₂ => Mapping.find_update_ne h₂ hne
            | _ => intro h₂; cases h₂; rfl
          rw [secret_dict hn, secret_dict hn, hfind]
          simpa [Spot.holder, hn] using hin s.field hfield
      | true =>
          have hlist := hports hn
          rw [hlist] at h₂ hfield
          have hget : Mapping.find "protocol".toList m₁ = Mapping.find "protocol".toList m := hout _ s.list.protocol_not_mem
          rw [secret_nested hn, secret_nested hn]
          simp only [Spot.holder, hn, if_true]
          rcases Mapping.get_of_update h₂ with ⟨hp, rfl⟩ | ⟨p, p', hp, hp', rfl⟩
          · have hnone : Mapping.find s.field (Mapping.get "protocol".toList m).entries = none := by
              rw [Mapping.get, ← hget, hp]; rfl
            have hsame : Mapping.get "protocol".toList n = Mapping.get "protocol".toList m := by
              rw [Mapping.get, Mapping.get, hget]
            rw [hsame, hnone]
            exact ⟨fun he => (by cases he), fun _ => rfl⟩
          · rw [hget] at hp
            rw [show Mapping.get "protocol".toList m = p by rw [Mapping.get, hp]; rfl,
              show Mapping.get "protocol".toList (Mapping.assign "protocol".toList p' m₁) = p' by
                rw [Mapping.get, Mapping.find_assign_self]; rfl]
            cases p with
            | dict q =>
                obtain ⟨q', hq, rfl⟩ := Option.map_eq_some_iff.mp hp'
                exact (restoreFields_spec (by decide) hq).1 s.field hfield
            | _ =>
                cases hp'
                exact ⟨fun he => (by cases he), fun _ => rfl⟩
  | _ =>
      rw [RowList.restore_of_not_dict (by simp)] at h
      cases h
      rw [secret_of_not_dict (by simp)]
      exact ⟨fun he => (by cases he), fun _ => rfl⟩

/-! ## Masked rows -/

/-- A masked row: its own fields are masked, and its `protocol` stands with its fields masked. -/
structure MaskedRow (l : RowList) (m n : Mapping) : Prop where
  row : l.mask (.dict m) = .dict n
  fields : ∀ p, Mapping.find "protocol".toList m = some p →
    n = if l = .ports then Mapping.assign "protocol".toList (maskFields portSecretFields p) (l.secretFields.foldl maskField m)
      else l.secretFields.foldl maskField m
  absent : Mapping.find "protocol".toList m = none → n = l.secretFields.foldl maskField m

theorem maskedRow (l : RowList) (m : Mapping) : ∃ n, MaskedRow l m n := by
  cases l with
  | ports =>
      have hmask : RowList.mask .ports (.dict m) = Place.within (maskFields portSecretFields) (.key "protocol".toList)
        (.dict (portSecretFields.foldl maskField m)) := rfl
      have hfind : Mapping.find "protocol".toList (portSecretFields.foldl maskField m) = Mapping.find "protocol".toList m :=
        find_foldl_maskField (by decide)
      cases hp : Mapping.find "protocol".toList m with
      | none =>
          refine ⟨portSecretFields.foldl maskField m, ?_, fun p he => (by rw [hp] at he; cases he), fun _ => rfl⟩
          rw [hmask, Place.within_absent (by rw [hfind, hp])]
      | some p =>
          refine ⟨_, by rw [hmask, Place.within_key (by rw [hfind, hp])], fun q he => ?_, fun he => (by rw [hp] at he; cases he)⟩
          rw [hp] at he
          cases he
          rfl
  | _ => exact ⟨_, rfl, fun _ _ => rfl, fun _ => rfl⟩

theorem MaskedRow.find {l : RowList} (h : MaskedRow l m n) (hk : k ≠ "protocol".toList) :
    Mapping.find k n = Mapping.find k (l.secretFields.foldl maskField m) := by
  cases hp : Mapping.find "protocol".toList m with
  | none => rw [h.absent hp]
  | some p =>
      rw [h.fields p hp]
      split
      · exact Mapping.find_assign_ne hk
      · rfl

theorem MaskedRow.foundFor {l : RowList} (h : MaskedRow l m n) (c : Mapping) : foundFor l c n = foundFor l c m := by
  unfold ConfigEditor.foundFor
  rw [Mapping.get, Mapping.get, h.find l.idField_ne_protocol, find_foldl_maskField l.idField_not_mem]

theorem foundFor_of_mem {l : RowList} {c : Mapping} {row : Tree} (h : row ∈ l.rows c) (m : Mapping) :
    ∃ found, foundFor l c m = some found := by
  unfold foundFor
  unfold RowList.rows at h
  cases hl : l.listOf c with
  | list xs => exact ⟨_, rfl⟩
  | _ => rw [hl] at h; cases h

theorem source_mask {s : Spot} {c : Mapping} (row : Tree) : s.source c (s.list.mask row) = s.source c row := by
  cases row with
  | dict m =>
      obtain ⟨n, h⟩ := maskedRow s.list m
      rw [h.row, source_dict, source_dict, h.foundFor]
  | _ => cases s.list <;> rfl

/-- A secret that is not empty is shown as the mask. -/
theorem secret_mask {s : Spot} (hs : s ∈ spots) {row : Tree} (h : s.secret row = some v) (hv : v.truthy = true) :
    s.secret (s.list.mask row) = some (.str secretMask) := by
  obtain ⟨hfield, hports⟩ := RowList.field_mem s hs
  cases row with
  | dict m =>
      obtain ⟨n, hn⟩ := maskedRow s.list m
      rw [hn.row]
      cases hnest : s.nested with
      | false =>
          rw [secret_dict hnest] at h ⊢
          rw [hn.find fun he => s.list.protocol_not_mem (he ▸ hfield)]
          exact find_foldl_maskField_mem s.list.nodup_secretFields hfield h hv
      | true =>
          have hlist := hports hnest
          rw [secret_nested hnest] at h ⊢
          cases hp : Mapping.find "protocol".toList m with
          | none =>
              rw [Mapping.get, hp] at h
              cases h
          | some p =>
              rw [Mapping.get, hp] at h
              rw [hn.fields p hp, if_pos hlist, Mapping.get, Mapping.find_assign_self]
              cases p with
              | dict q =>
                  rw [hlist] at hfield
                  exact find_foldl_maskField_mem (m := q) (by decide) hfield h hv
              | _ => cases h
  | _ =>
      rw [secret_of_not_dict (by simp)] at h
      cases h

/-- A masked row is restored when each of its secrets is that of the row it is restored from. -/
theorem restore_mask {c : Mapping} {l : RowList} {row : Tree} (hmem : row ∈ l.rows c)
    (h : ∀ s ∈ spots, s.list = l → ∀ v, s.secret row = some v → v.truthy = true → s.source c row = some v) :
    RowList.restore c l (l.mask row) = some row := by
  cases row with
  | dict m =>
      obtain ⟨n, hn⟩ := maskedRow l m
      obtain ⟨found, hfound⟩ := foundFor_of_mem hmem m
      have hfields : l.secretFields.foldlM (restoreField found) (l.secretFields.foldl maskField m) = some m := by
        refine restoreFields_mask l.nodup_secretFields fun f hf v hv ht => ?_
        have := h ⟨l, false, f⟩ (RowList.mem_spots hf) rfl v (by rw [secret_dict rfl]; exact hv) ht
        rw [source_dict, hfound] at this
        exact this
      rw [hn.row, RowList.restore_dict, hn.foundFor, hfound, Option.bind_some]
      cases hp : Mapping.find "protocol".toList m with
      | none =>
          rw [hn.absent hp, hfields]
          cases l with
          | ports => simp only [RowList.restoreProtocol, Mapping.update, hp, Option.bind_some, Option.map_some]
          | _ => rfl
      | some p =>
          rw [hn.fields p hp]
          split
          · rename_i hl
            subst hl
            have hprotocol : restoreFields (protocolOf found) portSecretFields (maskFields portSecretFields p) = some p := by
              cases p with
              | dict q =>
                  refine Option.map_eq_some_iff.mpr ⟨q, restoreFields_mask (by decide) fun f hf v hv ht => ?_, rfl⟩
                  have := h ⟨.ports, true, f⟩ (RowList.mem_spots_nested hf) rfl v
                    (by rw [secret_nested rfl, Mapping.get, hp]; exact hv) ht
                  rw [source_dict, hfound] at this
                  exact this
              | _ => rfl
            have hfind : Mapping.find "protocol".toList (RowList.ports.secretFields.foldl maskField m) = some p := by
              rw [find_foldl_maskField RowList.ports.protocol_not_mem, hp]
            rw [restoreFields_assign RowList.ports.protocol_not_mem hfind, hfields]
            simp only [Option.map_some, Option.bind_some, RowList.restoreProtocol, Mapping.update,
              Mapping.find_assign_self, hprotocol, Mapping.assign_assign, Mapping.assign_find hp]
          · rw [hfields]
            cases l with
            | ports => contradiction
            | _ => rfl
  | _ => cases l <;> rfl

end OpenMux.ConfigEditor
