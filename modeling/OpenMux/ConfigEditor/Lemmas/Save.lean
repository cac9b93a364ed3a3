import OpenMux.ConfigEditor.Lemmas.Restore

/-!
# What a save makes of the view
-/

namespace OpenMux.ConfigEditor

open Py

variable {stored view payload saved : Mapping} {m n : Mapping} {k : Text}

/-! ## Keys that the view does not model -/

theorem find_mergeSection {preserved : Text × List Text} (h : k ≠ preserved.1) :
    Mapping.find k (mergeSection n m preserved) = Mapping.find k m := by
  unfold mergeSection
  split
  · exact Mapping.find_assign_ne h
  · rfl

theorem find_mergePreserveUnmodelled (h : ∀ preserved ∈ preserveUnmodelledKeys, k ≠ preserved.1) :
    Mapping.find k (mergePreserveUnmodelled m n) = Mapping.find k m := by
  unfold mergePreserveUnmodelled
  simp only [preserveUnmodelledKeys, List.forall_mem_cons] at h
  simp only [preserveUnmodelledKeys, List.foldl_cons, List.foldl_nil]
  rw [find_mergeSection h.2.1, find_mergeSection h.1]

theorem preserveKey_self (k : Text) : preserveKey m m k = m := by
  unfold preserveKey
  cases Mapping.find k m <;> rfl

theorem foldl_preserveKey_self (keys : List Text) : keys.foldl (preserveKey m) m = m := by
  induction keys with
  | nil => rfl
  | cons k keys ih => rw [List.foldl_cons, preserveKey_self, ih]

theorem mergeSection_self (preserved : Text × List Text) : mergeSection m m preserved = m := by
  unfold mergeSection
  split
  · rename_i a b hfind hget
    have : a = b := by
      rw [Mapping.get, hfind] at hget
      exact Tree.dict.inj hget
    subst this
    rw [foldl_preserveKey_self, Mapping.assign_find hfind]
  · rfl

/-- Nothing is missing from the stored configuration. -/
theorem mergePreserveUnmodelled_self : mergePreserveUnmodelled m m = m := by
  simp only [mergePreserveUnmodelled, preserveUnmodelledKeys, List.foldl_cons, List.foldl_nil, mergeSection_self]

theorem rows_congr (h : ∀ k ∈ ["authentication".toList, "tcp_initiator_ports".toList], Mapping.find k m = Mapping.find k n)
    (l : RowList) : l.rows m = l.rows n := by
  simp only [List.forall_mem_cons] at h
  cases l <;> simp only [RowList.rows, RowList.listOf, section?, Mapping.get, h]

/-! ## Saved rows -/

theorem rows_prepare (h : preparePayloadForSave payload stored = some saved) (l : RowList) :
    (l.rows payload).mapM (RowList.restore stored l) = some (l.rows saved) := by
  obtain ⟨p, hp, rfl⟩ := Option.map_eq_some_iff.mp h
  rw [restoreMaskedSecrets_rows] at hp
  rw [rows_rewriteRows hp l]
  congr 1
  refine rows_congr (fun k hk => ?_) l
  rw [Mapping.find_pop, if_neg, find_mergePreserveUnmodelled]
  · intro preserved hpre
    revert k preserved
    decide
  · rintro rfl
    revert hk
    decide

theorem rows_view (h : maskConfigSecrets stored = some view) (l : RowList) : l.rows view = (l.rows stored).map l.mask := by
  rw [maskConfigSecrets_rows] at h
  have hmap := rows_rewriteRows h l
  have hpure : ∀ xs : List Tree, xs.mapM (fun row => some (l.mask row)) = some (xs.map l.mask) := by
    intro xs
    rw [← List.mapM'_eq_mapM]
    induction xs with
    | nil => rfl
    | cons x xs ih => simp [ih]
  rw [hpure] at hmap
  exact (Option.some.inj hmap).symm

theorem secretAt_saved (h : preparePayloadForSave payload stored = some saved) {s : Spot} (hs : s ∈ spots) {j : Nat} {row : Tree}
    (hrow : (s.list.rows payload)[j]? = some row) :
    (s.secret row = some (.str secretMask) → s.secretAt saved j = s.source stored row) ∧
      (s.secret row ≠ some (.str secretMask) → s.secretAt saved j = s.secret row) := by
  have hget := Tree.getElem?_mapM (rows_prepare h s.list) j
  rw [hrow, Option.bind_some] at hget
  have hlen : ∃ row', (s.list.rows saved)[j]? = some row' := by
    have hj : j < (s.list.rows payload).length := (List.getElem?_eq_some_iff.mp hrow).1
    rw [← Tree.length_mapM (rows_prepare h s.list)] at hj
    exact ⟨_, List.getElem?_eq_getElem hj⟩
  obtain ⟨row', hrow'⟩ := hlen
  rw [hrow'] at hget
  unfold Spot.secretAt
  rw [hrow', Option.bind_some]
  exact restore_spec hget.symm s hs rfl

/-! ## Both directions -/

theorem secretAt_of_row {s : Spot} {c : Mapping} {j : Nat} {row : Tree} (h : (s.list.rows c)[j]? = some row) :
    s.secretAt c j = s.secret row := by
  rw [Spot.secretAt, h, Option.bind_some]

theorem row_of_secretAt {s : Spot} {c : Mapping} {j : Nat} {v : Tree} (h : s.secretAt c j = some v) :
    ∃ row, (s.list.rows c)[j]? = some row ∧ s.secret row = some v := Option.bind_eq_some_iff.mp h

theorem roundTrips_iff : RoundTrips stored ↔ Listed stored ∧ Findable stored := by
  constructor
  · rintro ⟨view, hview, hsaved⟩
    refine ⟨maskConfigSecrets_isSome.mp (Option.isSome_iff_exists.mpr ⟨view, hview⟩), fun s hs row hrow v hv ht => ?_⟩
    obtain ⟨j, hj⟩ := List.mem_iff_getElem?.mp hrow
    have hshown : (s.list.rows view)[j]? = some (s.list.mask row) := by
      rw [rows_view hview, List.getElem?_map, hj]; rfl
    have hsame : s.list.rows (Mapping.pop "access_default".toList stored) = s.list.rows stored := by
      refine rows_congr (fun k hk => ?_) s.list
      rw [Mapping.find_pop, if_neg]
      rintro rfl
      revert hk
      decide
    have := (secretAt_saved hsaved hs hshown).1 (secret_mask hs hv ht)
    rw [source_mask, Spot.secretAt, hsame, hj, Option.bind_some, hv] at this
    exact this.symm
  · rintro ⟨hlisted, hfind⟩
    obtain ⟨view, hview⟩ := Option.isSome_iff_exists.mp (maskConfigSecrets_isSome.mpr hlisted)
    refine ⟨view, hview, ?_⟩
    have hrestore : restoreMaskedSecrets view stored = some stored := by
      rw [restoreMaskedSecrets_rows]
      rw [maskConfigSecrets_rows] at hview
      refine rewriteRows_inverse hview fun l row hrow y hy => ?_
      cases hy
      refine restore_mask hrow fun s hs hl v hv ht => ?_
      subst hl
      exact hfind s hs row hrow v hv ht
    rw [preparePayloadForSave, hrestore, Option.map_some, mergePreserveUnmodelled_self]

theorem keepsSecrets_iff {origin : Origin} (h : preparePayloadForSave payload stored = some saved) :
    KeepsSecrets stored view payload saved origin ↔ Traceable stored view payload origin := by
  constructor
  · intro hkeeps s hs j row hrow hmask
    have hsaved := (secretAt_saved h hs hrow).1 hmask
    refine ⟨hsaved ▸ hkeeps.unmasked s hs j, fun i hi hshown => ?_⟩
    rw [← hsaved]
    exact hkeeps.restored s hs j i hi hshown (by rw [secretAt_of_row hrow, hmask])
  · intro htrace
    refine ⟨fun s hs j i hi hshown hmask => ?_, fun s hs j v hv hne => ?_, fun s hs j => ?_⟩
    · obtain ⟨row, hrow, hm⟩ := row_of_secretAt hmask
      rw [(secretAt_saved h hs hrow).1 hm]
      exact (htrace s hs j row hrow hm).2 i hi hshown
    · obtain ⟨row, hrow, hm⟩ := row_of_secretAt hv
      rw [(secretAt_saved h hs hrow).2 (by rw [hm]; simpa using hne), hm]
    · cases hrow : (s.list.rows payload)[j]? with
      | none =>
          have hnone : (s.list.rows saved)[j]? = none := by
            rw [List.getElem?_eq_none_iff] at hrow ⊢
            rwa [Tree.length_mapM (rows_prepare h s.list)]
          simp [Spot.secretAt, hnone]
      | some row =>
          by_cases hm : s.secret row = some (.str secretMask)
          · rw [(secretAt_saved h hs hrow).1 hm]
            exact (htrace s hs j row hrow hm).1
          · rw [(secretAt_saved h hs hrow).2 hm]
            exact hm

end OpenMux.ConfigEditor
