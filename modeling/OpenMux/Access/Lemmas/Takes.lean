import OpenMux.Access.Grants
import OpenMux.Access.Lemmas.Reported

/-!
# The two arbiters

Both arbiters run alone are changes of the port. On the port they transfer a slot in the same way; they differ in when they
do and from whom.
-/

namespace OpenMux.Origin.Port

open Py Federation Access

variable {p : Port} {id id' taker victim old new : Text} {c : Client} {target : Option Text}

theorem has_of_isReadWrite (h : p.isReadWrite id) : p.Has id := by
  obtain ⟨c, hc, hid, -⟩ := isReadWrite_iff.mp h
  exact ⟨c, hc, hid⟩

theorem any_iff_has : p.connectedClients.any (·.clientId = id) = true ↔ p.Has id := by
  simp [Has]

/-! ## Holders after a promote and a demote -/

theorem exists_updateClient_ne {cs : List Client} {f : Client → Client} {m : Mode} (hne : id' ≠ id)
    (hf : ∀ c, c.clientId = id → (f c).clientId = id) :
    (∃ c ∈ updateClient id f cs, c.clientId = id' ∧ c.mode = m) ↔ ∃ c ∈ cs, c.clientId = id' ∧ c.mode = m := by
  induction cs with
  | nil => exact Iff.rfl
  | cons c cs ih =>
      rw [updateClient]
      split
      · rename_i hc
        simp [hf c hc, hc, Ne.symm hne]
      · simp only [List.exists_mem_cons_iff, ih]

theorem exists_updateClient_self {cs : List Client} {f : Client → Client} {m : Mode} (hn : (cs.map (·.clientId)).Nodup)
    (hf : ∀ c, c.clientId = id → (f c).clientId = id) :
    (∃ c ∈ updateClient id f cs, c.clientId = id ∧ c.mode = m) ↔ ∃ c ∈ cs, c.clientId = id ∧ (f c).mode = m := by
  induction cs with
  | nil => simp [updateClient]
  | cons c cs ih =>
      rw [List.map_cons, List.nodup_cons] at hn
      rw [updateClient]
      split
      · rename_i hc
        have hrest : ∀ d ∈ cs, d.clientId ≠ id := fun d hd he =>
          hn.1 (hc ▸ he ▸ List.mem_map_of_mem (f := (·.clientId)) hd)
        have hnone (P : Client → Prop) : ¬ ∃ d ∈ cs, d.clientId = id ∧ P d := by
          rintro ⟨d, hd, he, -⟩
          exact hrest d hd he
        simp [hf c hc, hc, hnone (·.mode = m), hnone fun d => (f d).mode = m]
      · rename_i hc
        simp only [List.exists_mem_cons_iff, ih hn.2, hc, false_and, false_or]

/-- A promote that finds no slot changes nothing. -/
theorem promote_refused (hw : p.isReadWrite id = false) (hf : p.full p.writers.length = true) :
    (p.promoteClient id).1 = p := by
  have hrefused : (!p.isReadWrite id && p.full p.writers.length) = true := by rw [hw, hf]; rfl
  unfold promoteClient
  exact congrArg Prod.fst (if_pos hrefused)

theorem isReadWrite_promote_iff (h : p.Distinct) : (p.promoteClient id).1.isReadWrite id' ↔
    p.isReadWrite id' ∨ id' = id ∧ p.Has id ∧ p.full p.writers.length = false := by
  by_cases hfull : (!p.isReadWrite id && p.full p.writers.length) = true
  · simp only [Bool.and_eq_true, Bool.not_eq_true'] at hfull
    simp [promote_refused hfull.1 hfull.2, hfull.2]
  · have hupdate : (p.promoteClient id).1 =
        { p with connectedClients := updateClient id (fun c => { c with mode := .readWrite }) p.connectedClients } := by
      unfold promoteClient
      exact congrArg Prod.fst (if_neg hfull)
    rw [hupdate, isReadWrite_iff]
    dsimp only
    by_cases hid : id' = id
    · subst hid
      rw [exists_updateClient_self (f := fun c => { c with mode := .readWrite }) h fun _ hc => hc]
      constructor
      · rintro ⟨c, hc, hid, -⟩
        by_cases hw : p.isReadWrite id' = true
        · exact .inl hw
        · exact .inr ⟨rfl, ⟨c, hc, hid⟩, by simpa [hw] using hfull⟩
      · rintro (hw | ⟨-, ⟨c, hc, hid⟩, -⟩)
        · obtain ⟨c, hc, hid⟩ := has_of_isReadWrite hw
          exact ⟨c, hc, hid, rfl⟩
        · exact ⟨c, hc, hid, rfl⟩
    · rw [exists_updateClient_ne (f := fun c => { c with mode := .readWrite }) hid fun _ hc => hc, ← isReadWrite_iff]
      simp [hid]

theorem promote_snd_iff : (p.promoteClient id).2 = true ↔
    p.Has id ∧ (p.isReadWrite id ∨ p.full p.writers.length = false) := by
  by_cases hfull : (!p.isReadWrite id && p.full p.writers.length) = true
  · have hno : (p.promoteClient id).2 = false := by
      unfold promoteClient
      exact congrArg Prod.snd (if_pos hfull)
    simp only [Bool.and_eq_true, Bool.not_eq_true'] at hfull
    simp [hno, hfull.1, hfull.2]
  · have hany : (p.promoteClient id).2 = p.connectedClients.any (·.clientId = id) := by
      unfold promoteClient
      exact congrArg Prod.snd (if_neg hfull)
    rw [hany, any_iff_has]
    have : p.isReadWrite id = true ∨ p.full p.writers.length = false := by
      cases hw : p.isReadWrite id <;> simp_all
    simp [this]

theorem isReadWrite_demote_iff (h : p.Distinct) : (p.demoteClient id).isReadWrite id' ↔ p.isReadWrite id' ∧ id' ≠ id := by
  rw [isReadWrite_iff]
  unfold demoteClient
  dsimp only
  by_cases hid : id' = id
  · subst hid
    rw [exists_updateClient_self (f := fun c => { c with mode := .readOnly }) h fun _ hc => hc]
    simp
  · rw [exists_updateClient_ne (f := fun c => { c with mode := .readOnly }) hid fun _ hc => hc, ← isReadWrite_iff]
    simp [hid]

theorem ids_demote : (p.demoteClient id).connectedClients.map (·.clientId) = p.connectedClients.map (·.clientId) :=
  map_clientId_updateClient (f := fun c => { c with mode := .readOnly }) fun _ hc => hc

theorem ids_promote : (p.promoteClient id).1.connectedClients.map (·.clientId) = p.connectedClients.map (·.clientId) := by
  unfold promoteClient
  split
  · rfl
  · exact map_clientId_updateClient (f := fun c => { c with mode := .readWrite }) fun _ hc => hc

theorem Distinct.demote (h : p.Distinct) (id : Text) : (p.demoteClient id).Distinct := by
  unfold Distinct
  rwa [ids_demote]

theorem Distinct.promote (h : p.Distinct) (id : Text) : (p.promoteClient id).1.Distinct := by
  unfold Distinct
  rwa [ids_promote]

/-- A demote of a holder frees one slot. -/
theorem length_writers_demote (h : p.Distinct) (hw : p.isReadWrite id) :
    (p.demoteClient id).writers.length + 1 = p.writers.length := by
  have hnew := length_writers id (h.demote id)
  have hold := length_writers id h
  have hothers : others id (p.demoteClient id).connectedClients = others id p.connectedClients :=
    others_updateClient fun _ hc => hc
  have hself : (p.demoteClient id).isReadWrite id = false := by
    rw [Bool.eq_false_iff]
    exact fun hd => ((isReadWrite_demote_iff h).mp hd).2 rfl
  have hw' := hw
  unfold isReadWrite at hself hw'
  simp only [hself, hothers] at hnew
  simp only [hw'] at hold
  simp only [writers, hnew, hold]
  simp

/-- The holders after a transfer: the victim is out, and the taker is in if a slot is left for it. -/
theorem isReadWrite_transfer_iff (h : p.Distinct) (hv : p.isReadWrite victim) (ht : p.Has taker) (hne : taker ≠ victim) :
    (p.transfer victim taker).isReadWrite id ↔
      p.isReadWrite id ∧ id ≠ victim ∨ id = taker ∧ p.full (p.writers.length - 1) = false := by
  have hlen : (p.demoteClient victim).writers.length = p.writers.length - 1 := by
    have := length_writers_demote h hv
    omega
  have hhas : (p.demoteClient victim).Has taker := by
    obtain ⟨c, hc, hid⟩ := ht
    have hmem : taker ∈ (p.demoteClient victim).connectedClients.map (·.clientId) := by
      rw [ids_demote]
      exact hid ▸ List.mem_map_of_mem (f := (·.clientId)) hc
    obtain ⟨d, hd, hdid⟩ := List.mem_map.mp hmem
    exact ⟨d, hd, hdid⟩
  have hfull : (p.demoteClient victim).full (p.demoteClient victim).writers.length = p.full (p.writers.length - 1) := by
    rw [hlen]; rfl
  have hpromoted : ((p.demoteClient victim).promoteClient taker).1.isReadWrite id ↔
      p.isReadWrite id ∧ id ≠ victim ∨ id = taker ∧ p.full (p.writers.length - 1) = false := by
    rw [isReadWrite_promote_iff (h.demote victim), isReadWrite_demote_iff h, hfull]
    simp [hhas]
  unfold transfer
  dsimp only
  split
  · exact hpromoted
  · rename_i hno
    -- The taker is refused because no slot is left, and so is the victim.
    rw [promote_snd_iff, hfull] at hno
    simp only [hhas, true_and, not_or, Bool.not_eq_true, Bool.not_eq_false] at hno
    rw [promote_refused hno.1 (hfull.trans hno.2), isReadWrite_promote_iff (h.demote victim), hfull, hno.2,
      isReadWrite_demote_iff h]
    simp

/-! ## Renaming -/

/-- The holders of the second port are those of the first under a renaming. -/
def Matches (old new : Text) (p q : Port) : Prop :=
  ∀ x, q.isReadWrite x ↔ ∃ y, p.isReadWrite y ∧ x = renameId old new y

theorem renameId_of_ne (h : id ≠ old) : renameId old new id = id := if_neg h

@[simp] theorem renameId_self : renameId old new old = new := if_pos rfl

theorem mem_rename : c ∈ (p.rename old new).connectedClients ↔
    ∃ d ∈ p.connectedClients, c = { d with clientId := renameId old new d.clientId } := by
  simp only [rename, List.mem_map, eq_comm]

theorem matches_rename : Matches old new p (p.rename old new) := by
  intro x
  rw [isReadWrite_iff]
  constructor
  · rintro ⟨c, hc, rfl, hm⟩
    obtain ⟨d, hd, rfl⟩ := mem_rename.mp hc
    exact ⟨d.clientId, isReadWrite_iff.mpr ⟨d, hd, rfl, hm⟩, rfl⟩
  · rintro ⟨y, hy, rfl⟩
    obtain ⟨d, hd, rfl, hm⟩ := isReadWrite_iff.mp hy
    exact ⟨_, mem_rename.mpr ⟨d, hd, rfl⟩, rfl, hm⟩

theorem has_rename (h : p.Has old) : (p.rename old new).Has new := by
  obtain ⟨c, hc, hid⟩ := h
  exact ⟨_, mem_rename.mpr ⟨c, hc, rfl⟩, by rw [hid, renameId_self]⟩

theorem length_writers_rename : (p.rename old new).writers.length = p.writers.length := by
  unfold writers rename
  rw [List.filter_map, List.length_map]
  rfl

theorem full_rename {n : Nat} : (p.rename old new).full n = p.full n := rfl

theorem Distinct.rename (h : p.Distinct) (hfree : p.Free new) : (p.rename old new).Distinct := by
  have hids : (p.rename old new).connectedClients.map (·.clientId) =
      (p.connectedClients.map (·.clientId)).map (renameId old new) := by
    simp only [Port.rename, List.map_map, Function.comp_def]
  unfold Distinct
  rw [hids]
  refine List.Nodup.map_on (fun x hx y hy he => ?_) h
  obtain ⟨c, hc, rfl⟩ := List.mem_map.mp hx
  obtain ⟨d, hd, rfl⟩ := List.mem_map.mp hy
  have hcn := hfree c hc
  have hdn := hfree d hd
  unfold renameId at he
  split at he <;> split at he <;> simp_all

/-- The candidates for a take are the same under the renaming of the taker. -/
theorem candidates_rename (hfree : p.Free new) :
    ((p.rename old new).connectedClients.filter fun c => c.mode = .readWrite ∧ c.clientId ≠ new) =
      p.connectedClients.filter fun c => c.mode = .readWrite ∧ c.clientId ≠ old := by
  have hfilter : p.connectedClients.filter ((fun c : Client => decide (c.mode = .readWrite ∧ c.clientId ≠ new)) ∘
      fun c => { c with clientId := renameId old new c.clientId }) =
        p.connectedClients.filter fun c => c.mode = .readWrite ∧ c.clientId ≠ old := by
    refine List.filter_congr fun c hc => ?_
    have hnew := hfree c hc
    by_cases hid : c.clientId = old
    · simp [hid]
    · simp [renameId, hid, hnew]
  unfold rename
  rw [List.filter_map, hfilter]
  refine (List.map_congr_left fun c hc => ?_).trans (List.map_id _)
  have hne : c.clientId ≠ old := by
    simp only [List.mem_filter, decide_eq_true_eq] at hc
    exact hc.2.2
  rw [renameId_of_ne hne]
  rfl

/-! ## Takes on a port and on its renaming -/

section Takes

variable (hdistinct : p.Distinct) (hfree : p.Free new) (hhas : p.Has old)

include hdistinct hfree hhas

theorem matches_transfer (hv : p.isReadWrite victim) (hne : victim ≠ old) :
    Matches old new (p.transfer victim old) ((p.rename old new).transfer victim new) := by
  have hvn : victim ≠ new := by
    obtain ⟨c, hc, hid⟩ := has_of_isReadWrite hv
    exact hid ▸ hfree c hc
  have hv' : (p.rename old new).isReadWrite victim := (matches_rename victim).mpr ⟨victim, hv, (renameId_of_ne hne).symm⟩
  intro x
  rw [isReadWrite_transfer_iff (hdistinct.rename hfree) hv' (has_rename hhas) hvn.symm, length_writers_rename, full_rename,
    matches_rename x]
  simp only [isReadWrite_transfer_iff hdistinct hv hhas (Ne.symm hne)]
  constructor
  · rintro (⟨⟨y, hy, rfl⟩, hx⟩ | ⟨rfl, hslot⟩)
    · refine ⟨y, .inl ⟨hy, ?_⟩, rfl⟩
      rintro rfl
      exact hx (renameId_of_ne hne)
    · exact ⟨old, .inr ⟨rfl, hslot⟩, renameId_self.symm⟩
  · rintro ⟨y, ⟨hy, hyv⟩ | ⟨rfl, hslot⟩, rfl⟩
    · refine .inl ⟨⟨y, hy, rfl⟩, ?_⟩
      unfold renameId
      split
      · exact hvn.symm
      · exact hyv
    · exact .inr ⟨renameId_self, hslot⟩

theorem matches_promote : Matches old new (p.promoteClient old).1 ((p.rename old new).promoteClient new).1 := by
  intro x
  rw [isReadWrite_promote_iff (hdistinct.rename hfree), length_writers_rename, full_rename, matches_rename x]
  simp only [isReadWrite_promote_iff hdistinct, hhas, has_rename hhas, true_and]
  constructor
  · rintro (⟨y, hy, rfl⟩ | ⟨rfl, hslot⟩)
    · exact ⟨y, .inl hy, rfl⟩
    · exact ⟨old, .inr ⟨rfl, hslot⟩, renameId_self.symm⟩
  · rintro ⟨y, hy | ⟨rfl, hslot⟩, rfl⟩
    · exact .inl ⟨y, hy, rfl⟩
    · exact .inr ⟨renameId_self, hslot⟩

/-- A transfer on one side only shows in the victim. -/
theorem not_matches_transfer_left (hv : p.isReadWrite victim) (hne : victim ≠ old) :
    ¬ Matches old new (p.transfer victim old) (p.rename old new) := by
  intro h
  obtain ⟨y, hy, he⟩ := (h victim).mp ((matches_rename victim).mpr ⟨victim, hv, (renameId_of_ne hne).symm⟩)
  have hyv : y = victim := by
    obtain ⟨c, hc, hid⟩ := has_of_isReadWrite hv
    have := hfree c hc
    unfold renameId at he
    split at he <;> simp_all
  subst hyv
  rcases (isReadWrite_transfer_iff hdistinct hv hhas (Ne.symm hne)).mp hy with ⟨-, h⟩ | ⟨h, -⟩
  · exact h rfl
  · exact hne h

theorem not_matches_transfer_right (hv : p.isReadWrite victim) (hne : victim ≠ old) :
    ¬ Matches old new p ((p.rename old new).transfer victim new) := by
  intro h
  have hvn : victim ≠ new := by
    obtain ⟨c, hc, hid⟩ := has_of_isReadWrite hv
    exact hid ▸ hfree c hc
  have hv' : (p.rename old new).isReadWrite victim := (matches_rename victim).mpr ⟨victim, hv, (renameId_of_ne hne).symm⟩
  have hw := (h victim).mpr ⟨victim, hv, (renameId_of_ne hne).symm⟩
  rcases (isReadWrite_transfer_iff (hdistinct.rename hfree) hv' (has_rename hhas) hvn.symm).mp hw with ⟨-, h⟩ | ⟨h, -⟩
  · exact h rfl
  · exact hvn h

/-- A promote on one side only shows in the taker, unless it holds a slot or there is none. -/
theorem matches_promote_right_iff : Matches old new p ((p.rename old new).promoteClient new).1 ↔
    p.isReadWrite old ∨ p.full p.writers.length = true := by
  have hiff (x : Text) : ((p.rename old new).promoteClient new).1.isReadWrite x ↔
      (∃ y, p.isReadWrite y ∧ x = renameId old new y) ∨ x = new ∧ p.full p.writers.length = false := by
    rw [isReadWrite_promote_iff (hdistinct.rename hfree), length_writers_rename, full_rename, matches_rename x]
    simp [has_rename hhas]
  constructor
  · intro h
    by_cases hslot : p.full p.writers.length = true
    · exact .inr hslot
    · obtain ⟨y, hy, he⟩ := (h new).mp ((hiff new).mpr (.inr ⟨rfl, by simpa using hslot⟩))
      obtain ⟨c, hc, hid⟩ := has_of_isReadWrite hy
      have hyn := hfree c hc
      unfold renameId at he
      split at he
      · rename_i hyo; exact .inl (hyo ▸ hy)
      · exact absurd (hid.trans he.symm) hyn
  · intro h x
    rw [hiff x]
    constructor
    · rintro (hx | ⟨rfl, hslot⟩)
      · exact hx
      · rcases h with h | h
        · exact ⟨old, h, renameId_self.symm⟩
        · rw [h] at hslot; cases hslot
    · exact .inl

end Takes

/-! ## Who is demoted -/

theorem latestClient_eq_none {cs : List Client} : latestClient cs = none ↔ cs = [] := by
  cases cs with
  | nil => exact iff_of_true rfl rfl
  | cons c cs =>
      refine iff_of_false (fun h => ?_) (List.cons_ne_nil c cs)
      rw [latestClient] at h
      split at h
      · split at h <;> cases h
      · cases h

theorem mem_candidates : c ∈ p.candidates id ↔ c ∈ p.connectedClients ∧ c.mode = .readWrite ∧ c.clientId ≠ id := by
  simp [candidates]

/-- The arbiter demotes the holder that is named, for a mirror in the seat of the client. -/
theorem resolveFedrwTakeTarget_rename (old : Text) {slot : Slot} {spec : TakeSpec} (hspec : spec.Names slot target)
    (hfree : p.Free (Streams.fedClientId slot.1 slot.2)) :
    resolveFedrwTakeTarget (p.rename old (Streams.fedClientId slot.1 slot.2)) slot spec = p.namedHolder old target := by
  unfold resolveFedrwTakeTarget
  rw [candidates_rename hfree]
  cases spec <;> cases target <;> simp only [TakeSpec.Names, namedHolder] at hspec ⊢
  case latest.none => rfl
  case own.some rest t => rw [hspec, if_pos (List.prefix_append _ _)]; rfl
  case fed.some id t => rw [if_pos hspec.2, hspec.1]; rfl
  case unknown.some t => rw [if_neg hspec]

theorem namedHolder_mem (h : p.namedHolder old target = some c) : c ∈ p.candidates old ∧
    ∀ t, target = some t → Streams.fedPrefix <+: t ∧ c.clientId = t := by
  unfold namedHolder at h
  split at h
  · exact ⟨latestClient_mem h, fun t ht => by cases ht⟩
  · rename_i t
    split at h
    · rename_i hfed
      refine ⟨List.mem_of_find?_eq_some h, fun t' ht => ?_⟩
      cases ht
      exact ⟨hfed, by simpa using List.find?_some h⟩
    · cases h

theorem contested_iff : p.Contested old target ↔ ∃ victim, p.namedHolder old target = some victim := by
  constructor
  · rintro ⟨c, hc, hm, hid, ht⟩
    have hmem : c ∈ p.candidates old := mem_candidates.mpr ⟨hc, hm, hid⟩
    cases target with
    | none => exact Option.ne_none_iff_exists'.mp fun h => List.ne_nil_of_mem hmem (latestClient_eq_none.mp h)
    | some t =>
        obtain ⟨hfed, rfl⟩ := ht t rfl
        unfold namedHolder
        dsimp only
        rw [if_pos hfed]
        exact Option.isSome_iff_exists.mp (List.find?_isSome.mpr ⟨c, hmem, by simp⟩)
  · rintro ⟨c, hc⟩
    obtain ⟨hmem, ht⟩ := namedHolder_mem hc
    obtain ⟨hc, hm, hid⟩ := mem_candidates.mp hmem
    exact ⟨c, hc, hm, hid, ht⟩

/-- The console manager demotes the holder that is named if there is one. -/
theorem resolveTakeTarget_named (h : p.namedHolder old target = some c) : resolveTakeTarget p old target = .ok c := by
  unfold namedHolder candidates at h
  unfold resolveTakeTarget
  dsimp only
  split
  · rename_i hnil
    rw [hnil] at h
    split at h
    · cases h
    · simp at h
  · rename_i d ds t hds
    rw [hds] at h
    dsimp only at h
    split at h
    · unfold matchTakeTarget
      rw [h]
    · cases h
  · rename_i d ds hds
    rw [hds] at h
    dsimp only at h
    rw [h]

theorem resolveTakeTarget_ok (h : resolveTakeTarget p old none = .ok c) : p.namedHolder old none = some c := by
  unfold resolveTakeTarget at h
  unfold namedHolder candidates
  dsimp only at h ⊢
  split at h
  · cases h
  · rename_i ht; cases ht
  · rename_i d ds hds _
    rw [hds]
    split at h
    · rename_i hlatest; cases h; exact hlatest
    · cases h

/-- The two arbiters leave the same holders exactly on the takes that are the same for both. -/
theorem matches_take_iff {slot : Slot} {spec : TakeSpec} (hspec : spec.Names slot target) (hdistinct : p.Distinct)
    (hfree : p.Free (Streams.fedClientId slot.1 slot.2)) (hhas : p.Has old) :
    Matches old (Streams.fedClientId slot.1 slot.2) (p.takeLocal old target)
      (handleFedrwTake (p.rename old (Streams.fedClientId slot.1 slot.2)) slot spec) ↔ p.SameTake old target := by
  have hlatest : spec = .latest ↔ target = none := by
    cases spec <;> cases target <;> simp_all [TakeSpec.Names]
  have hfed := resolveFedrwTakeTarget_rename old hspec hfree
  cases hnamed : p.namedHolder old target with
  | some victim =>
      obtain ⟨hmem, ht⟩ := namedHolder_mem hnamed
      obtain ⟨hc, hm, hid⟩ := mem_candidates.mp hmem
      have hv : p.isReadWrite victim.clientId := isReadWrite_iff.mpr ⟨victim, hc, rfl, hm⟩
      have hcontested : p.Contested old target := contested_iff.mpr ⟨victim, hnamed⟩
      have htake : handleFedrwTake (p.rename old (Streams.fedClientId slot.1 slot.2)) slot spec =
          (p.rename old (Streams.fedClientId slot.1 slot.2)).transfer victim.clientId (Streams.fedClientId slot.1 slot.2) := by
        unfold handleFedrwTake
        rw [hfed, hnamed]
        rfl
      have hleft := not_matches_transfer_right hdistinct hfree hhas hv hid
      rw [htake]
      unfold takeLocal SameTake
      cases p.maxReadWriteUsers with
      | none => exact iff_of_false hleft fun h => h hcontested
      | multiple => exact iff_of_false hleft fun h => h.1 hcontested
      | one =>
          have hres := resolveTakeTarget_named hnamed
          simp only [hres]
          refine iff_of_true (matches_transfer hdistinct hfree hhas hv hid) fun v hv' => ?_
          cases hv'
          exact ht
  | none =>
      have hcontested : ¬ p.Contested old target := fun h => by
        obtain ⟨v, hv⟩ := contested_iff.mp h
        rw [hnamed] at hv
        cases hv
      have htake : handleFedrwTake (p.rename old (Streams.fedClientId slot.1 slot.2)) slot spec =
          if target = none then ((p.rename old (Streams.fedClientId slot.1 slot.2)).promoteClient
            (Streams.fedClientId slot.1 slot.2)).1
          else p.rename old (Streams.fedClientId slot.1 slot.2) := by
        unfold handleFedrwTake
        rw [hfed, hnamed]
        simp only [hlatest]
      have hpromote := matches_promote_right_iff hdistinct hfree hhas
      rw [htake]
      cases target with
      | none =>
          rw [if_pos rfl]
          unfold takeLocal SameTake
          cases hmode : p.maxReadWriteUsers with
          | none => exact iff_of_true (hpromote.mpr (.inr (by simp [full, hmode]))) hcontested
          | multiple =>
              refine hpromote.trans ?_
              simp [full, hmode, hcontested]
          | one =>
              cases hres : resolveTakeTarget p old none with
              | ok v => rw [resolveTakeTarget_ok hres] at hnamed; cases hnamed
              | error reason =>
                  refine iff_of_true ?_ fun v hv => by cases hv
                  by_cases hw : p.isReadWrite old = true
                  · rw [hw]
                    exact hpromote.mpr (.inl hw)
                  · simp only [Option.isSome_none, Bool.false_eq_true, false_or, if_neg hw]
                    exact matches_promote hdistinct hfree hhas
      | some t =>
          rw [if_neg (by simp)]
          unfold takeLocal SameTake
          cases hmode : p.maxReadWriteUsers with
          | none => exact iff_of_true matches_rename hcontested
          | multiple => exact iff_of_true matches_rename ⟨hcontested, fun h => by cases h⟩
          | one =>
              cases hres : resolveTakeTarget p old (some t) with
              | error reason =>
                  refine iff_of_true matches_rename fun v hv => ?_
                  cases hv
              | ok v =>
                  obtain ⟨hc, hm, hid⟩ := Console.resolveTakeTarget_mem hres
                  refine iff_of_false (not_matches_transfer_left hdistinct hfree hhas
                    (isReadWrite_iff.mpr ⟨v, hc, rfl, hm⟩) hid) fun h => hcontested ⟨v, hc, hm, hid, ?_⟩
                  exact h v rfl

/-! ## The holders as a list -/

theorem ids_transfer : (p.transfer victim taker).connectedClients.map (·.clientId) =
    p.connectedClients.map (·.clientId) := by
  unfold transfer
  dsimp only
  split
  · rw [ids_promote, ids_demote]
  · rw [ids_promote, ids_promote, ids_demote]

theorem ids_takeLocal : (p.takeLocal taker target).connectedClients.map (·.clientId) =
    p.connectedClients.map (·.clientId) := by
  unfold takeLocal
  split
  · rfl
  · rfl
  · split
    · exact ids_transfer
    · split
      · rfl
      · exact ids_promote

theorem ids_handleFedrwTake {slot : Slot} {spec : TakeSpec} :
    (handleFedrwTake p slot spec).connectedClients.map (·.clientId) = p.connectedClients.map (·.clientId) := by
  unfold handleFedrwTake
  dsimp only
  split
  · split
    · exact ids_promote
    · rfl
  · exact ids_transfer

theorem mem_holderIds : id ∈ p.holderIds ↔ p.isReadWrite id := by
  rw [isReadWrite_iff]
  simp only [holderIds, List.mem_map, List.mem_filter, decide_eq_true_eq]
  refine exists_congr fun c => ?_
  tauto

theorem Distinct.nodup_holderIds (h : p.Distinct) : p.holderIds.Nodup :=
  List.Nodup.sublist (List.filter_sublist.map _) h

theorem free_iff : p.Free id ↔ id ∉ p.connectedClients.map (·.clientId) := by
  simp [Free]

/-- On ports without double clients the multisets of holders are equal up to the renaming when their members are. -/
theorem perm_holderIds_iff {q : Port} (hp : p.Distinct) (hq : q.Distinct) (hfree : p.Free new) :
    (p.holderIds.map (renameId old new)).Perm q.holderIds ↔ Matches old new p q := by
  have hinj : (p.holderIds.map (renameId old new)).Nodup := by
    refine List.Nodup.map_on (fun x hx y hy he => ?_) hp.nodup_holderIds
    obtain ⟨c, hc, hcx⟩ := has_of_isReadWrite (mem_holderIds.mp hx)
    obtain ⟨d, hd, hdy⟩ := has_of_isReadWrite (mem_holderIds.mp hy)
    have hcn := hcx ▸ hfree c hc
    have hdn := hdy ▸ hfree d hd
    unfold renameId at he
    split at he <;> split at he <;> simp_all
  rw [List.perm_ext_iff_of_nodup hinj hq.nodup_holderIds]
  refine forall_congr' fun x => ?_
  rw [List.mem_map, mem_holderIds]
  simp only [mem_holderIds, eq_comm (a := x)]
  exact iff_comm

end OpenMux.Origin.Port

namespace OpenMux.Access.Console

open Py Federation Origin Coro

variable {s : Console} {name taker clientId : Text} {p : Port} {target : Option Text}

theorem get?_promote (clientId : Text) (hp : s.ports.get? name = some p) :
    (promoteClient name clientId s).1.ports.get? name = some (p.promoteClient clientId).1 ∧
      (promoteClient name clientId s).2 = (p.promoteClient clientId).2 := by
  constructor
  · show (s.updatePort name _).ports.get? name = _
    rw [get?_updatePort, if_pos rfl, hp]
    rfl
  · simp [promoteClient, askPort, hp]

theorem get?_demote (clientId : Text) (hp : s.ports.get? name = some p) :
    (demoteClient name clientId s).1.ports.get? name = some (p.demoteClient clientId) := by
  show (s.updatePort name _).ports.get? name = _
  rw [get?_updatePort, if_pos rfl, hp]
  rfl

/-- A demote of an attached client is that of the port manager. -/
theorem run_demote_attached (hp : s.ports.get? name = some p) (hmap : s.clientPortMap.get? clientId = some name)
    (hhas : p.Has clientId) : ((demoteClientToReadOnly clientId name).run s).1 = (demoteClient name clientId s).1 ∧
      ((demoteClientToReadOnly clientId name).run s).2.ok = true := by
  obtain ⟨hstate, hok, -⟩ := run_demote hmap
  refine ⟨hstate, hok.trans ?_⟩
  simp only [demoteClient, askPort, hp]
  exact Port.any_iff_has.mpr hhas

/-- A takeover transfers the slot on the port. -/
theorem get?_takeSlotLocal (hp : s.ports.get? name = some p) (hd : s.Driver name taker) {victim : Client}
    (hv : victim ∈ p.connectedClients) (hmap : s.clientPortMap.get? victim.clientId = some name) :
    ((takeSlotLocal name taker victim).run s).1.ports.get? name = some (p.transfer victim.clientId taker) := by
  obtain ⟨hstate, hok⟩ := run_demote_attached hp hmap ⟨victim, hv, rfl⟩
  have hp' := get?_demote victim.clientId hp
  obtain ⟨hstate', hok', -⟩ := run_promote (hd.demote victim.clientId)
  obtain ⟨hq, hsnd⟩ := get?_promote taker hp'
  rw [hsnd] at hok'
  unfold Port.transfer
  dsimp only
  cases hpromoted : ((p.demoteClient victim.clientId).promoteClient taker).2 with
  | true =>
      rw [hpromoted] at hok'
      have hrun : ((takeSlotLocal name taker victim).run s).1 =
          (promoteClient name taker (demoteClient name victim.clientId s).1).1 := by
        simp [takeSlotLocal, hok, hstate, hok', hstate']
      rw [hrun, hq, if_pos rfl]
  | false =>
      rw [hpromoted] at hok'
      have hrun : ((takeSlotLocal name taker victim).run s).1 = (promoteClient name victim.clientId
          (promoteClient name taker (demoteClient name victim.clientId s).1).1).1 := by
        simp [takeSlotLocal, hok, hstate, hok', hstate']
      rw [hrun, (get?_promote _ hq).1, if_neg Bool.false_ne_true]

theorem get?_takeWriteSlotLocal (target : Option Text) (hp : s.ports.get? name = some p) (hd : s.Driver name taker) (hattached : s.Attached name) :
    ((takeWriteSlotLocal taker name target p).run s).1.ports.get? name = some (p.takeLocal taker target) := by
  -- A refusal leaves the port as it is.
  have hsame {d : AccessDecision} (hrun : (takeWriteSlotLocal taker name target p).run s = (s, d)) :
      ((takeWriteSlotLocal taker name target p).run s).1.ports.get? name = some p := by
    rw [hrun]
    exact hp
  unfold Port.takeLocal
  cases hmode : p.maxReadWriteUsers with
  | none => exact hsame (d := s.seatRefusal taker name) (by simp [takeWriteSlotLocal, hmode])
  | multiple =>
      by_cases hw : p.isReadWrite taker = true
      · exact hsame (d := s.decidedOn .alreadyRw .readWrite taker name) (by simp [takeWriteSlotLocal, hmode, hw])
      · exact hsame (d := s.seatRefusal taker name) (by simp [takeWriteSlotLocal, hmode, hw])
  | one =>
      cases hres : resolveTakeTarget p taker target with
      | ok victim =>
          obtain ⟨hmem, -, -⟩ := resolveTakeTarget_mem hres
          have hrun : (takeWriteSlotLocal taker name target p).run s = (takeSlotLocal name taker victim).run s := by
            simp [takeWriteSlotLocal, hmode, hres]
          rw [hrun]
          exact get?_takeSlotLocal hp hd hmem (hattached p hp victim hmem)
      | error reason =>
          cases target with
          | some t => exact hsame (d := s.decidedWith reason .readOnly taker name) (by simp [takeWriteSlotLocal, hmode, hres])
          | none =>
              cases resolveTakeTarget_error hres rfl
              obtain ⟨hq, hsnd⟩ := get?_promote taker hp
              by_cases hw : p.isReadWrite taker = true
              · have hrun : (takeWriteSlotLocal taker name none p).run s =
                    (s, s.decidedOn .alreadyRw .readWrite taker name) := by simp [takeWriteSlotLocal, hmode, hres, hw]
                rw [hw]
                exact hsame hrun
              · obtain ⟨hstate, hok, -⟩ := run_promote hd
                have hrun : ((takeWriteSlotLocal taker name none p).run s).1 = (promoteClient name taker s).1 := by
                  cases hpromoted : (promoteClient name taker s).2 <;>
                    simp [takeWriteSlotLocal, hmode, hres, hw, hok, hstate, hpromoted]
                rw [hrun, hq]
                simp [hw]

/-- The arbiter for peers changes the port as it does where nothing is suspended. -/
theorem get?_handleFedrwTake (slot : Slot) (spec : TakeSpec) (hp : s.ports.get? name = some p) (hattached : s.Attached name) :
    ((handleFedrwTake slot name spec).run s).1.ports.get? name = some (Origin.handleFedrwTake p slot spec) := by
  unfold Origin.handleFedrwTake
  dsimp only
  cases hres : resolveFedrwTakeTarget p slot spec with
  | none =>
      by_cases hspec : spec = .latest
      · subst hspec
        have hrun : ((handleFedrwTake slot name .latest).run s).1 =
            (promoteClient name (Streams.fedClientId slot.1 slot.2) s).1 := by
          simp [handleFedrwTake, hp, hres]
        rw [hrun, (get?_promote _ hp).1]
        rfl
      · have hrun : ((handleFedrwTake slot name spec).run s).1 = s := by
          simp [handleFedrwTake, hp, hres, hspec]
        rw [hrun, hp]
        simp [hspec]
  | some victim =>
      have hvictim : victim ∈ p.connectedClients := (resolveFedrwTakeTarget_mem hres).1
      obtain ⟨hstate, hok⟩ := run_demote_attached hp (hattached p hp victim hvictim) ⟨victim, hvictim, rfl⟩
      have hp' := get?_demote victim.clientId hp
      obtain ⟨hq, hsnd⟩ := get?_promote (Streams.fedClientId slot.1 slot.2) hp'
      cases hpromoted : ((p.demoteClient victim.clientId).promoteClient (Streams.fedClientId slot.1 slot.2)).2 with
      | true =>
          rw [hpromoted] at hsnd
          have hrun : ((handleFedrwTake slot name spec).run s).1 =
              (promoteClient name (Streams.fedClientId slot.1 slot.2) (demoteClient name victim.clientId s).1).1 := by
            by_cases hfed : Streams.fedPrefix <+: victim.clientId <;> simp [handleFedrwTake, hp, hres, hfed, hstate, hsnd]
          rw [hrun, hq]
          simp [hpromoted]
      | false =>
          rw [hpromoted] at hsnd
          have hrun : ((handleFedrwTake slot name spec).run s).1 = (promoteClient name victim.clientId
              (promoteClient name (Streams.fedClientId slot.1 slot.2) (demoteClient name victim.clientId s).1).1).1 := by
            by_cases hfed : Streams.fedPrefix <+: victim.clientId <;> simp [handleFedrwTake, hp, hres, hfed, hstate, hsnd]
          rw [hrun, (get?_promote _ hq).1]
          simp [hpromoted]

/-- A mirror in the seat of an attached client is attached. -/
theorem attached_asMirror {slot : Slot} (hp : s.ports.get? name = some p) (hattached : s.Attached name)
    (hfree : p.Free (Streams.fedClientId slot.1 slot.2)) : (s.asMirror name taker slot).Attached name := by
  intro q hq c hc
  have hq' : (s.updatePort name (·.rename taker (Streams.fedClientId slot.1 slot.2))).ports.get? name = some q := hq
  rw [get?_updatePort, if_pos rfl, hp] at hq'
  cases hq'
  obtain ⟨d, hd, rfl⟩ := Port.mem_rename.mp hc
  show ((s.clientPortMap.pop taker).set (Streams.fedClientId slot.1 slot.2) name).get? _ = some name
  by_cases hid : d.clientId = taker
  · rw [hid, Port.renameId_self, Dict.get?_set_self]
  · rw [Port.renameId_of_ne hid, Dict.get?_set_ne _ _ (hfree d hd), Dict.get?_pop_ne _ hid]
    exact hattached p hp d hd

theorem get?_asMirror (taker : Text) (slot : Slot) (hp : s.ports.get? name = some p) : (s.asMirror name taker slot).ports.get? name =
    some (p.rename taker (Streams.fedClientId slot.1 slot.2)) := by
  show (s.updatePort name _).ports.get? name = _
  rw [get?_updatePort, if_pos rfl, hp]
  rfl

/-- A TAKE frame runs the arbiter. -/
theorem run_fedrwTake {slot : Slot} {spec : TakeSpec} (hopen : s.localSessionMap.get? slot = some name) :
    ((handleFedrwRequest slot name (.take spec)).run s).1 = ((handleFedrwTake slot name spec).run s).1 := by
  simp [handleFedrwRequest, hopen]

end OpenMux.Access.Console
