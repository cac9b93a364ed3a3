import OpenMux.Access.Console

/-!
# Seats of a port

No client twice, and no more writers than the capacity. Each operation of the port manager keeps both.
-/

namespace OpenMux.Origin.Port

open Py Federation Access

/-- `n` writers are no more than the capacity. -/
def Within : WriteMode → Nat → Prop
  | .none, n => n = 0
  | .one, n => n ≤ 1
  | .multiple, _ => True

theorem Within.mono {m : WriteMode} {n k : Nat} (h : Within m n) (hk : k ≤ n) : Within m k := by
  cases m <;> simp only [Within] at h ⊢ <;> omega

def writers (p : Port) : List Client := p.connectedClients.filter (·.mode = .readWrite)

structure Seated (p : Port) : Prop where
  nodup : (p.connectedClients.map (·.clientId)).Nodup
  within : Within p.maxReadWriteUsers p.writers.length

variable {p : Port} {id : Text} {c : Client} {cs : List Client} {f : Client → Client}

/-- A port that is not full takes one more. -/
theorem within_of_not_full {n : Nat} (h : p.full n = false) : Within p.maxReadWriteUsers (n + 1) := by
  unfold full at h
  cases hm : p.maxReadWriteUsers <;> simp_all [Within]

/-! ## Counting -/

theorem map_clientId_updateClient (hf : ∀ c, c.clientId = id → (f c).clientId = id) :
    (updateClient id f cs).map (·.clientId) = cs.map (·.clientId) := by
  induction cs with
  | nil => rfl
  | cons c cs ih =>
      rw [updateClient]
      split
      · rename_i hc; simp [hf c hc, hc]
      · simp [ih]

/-- The writers other than the client. -/
def others (id : Text) (cs : List Client) : List Client := cs.filter fun c => c.clientId ≠ id ∧ c.mode = .readWrite

theorem others_updateClient (hf : ∀ c, c.clientId = id → (f c).clientId = id) :
    others id (updateClient id f cs) = others id cs := by
  induction cs with
  | nil => rfl
  | cons c cs ih =>
      rw [updateClient]
      split
      · rename_i hc; simp [others, hf c hc, hc]
      · rename_i hc
        simp only [others] at ih
        simp only [others, List.filter_cons, ih]

theorem others_of_not_mem (h : id ∉ cs.map (·.clientId)) : others id cs = cs.filter (·.mode = .readWrite) := by
  refine List.filter_congr fun c hc => ?_
  have : c.clientId ≠ id := fun he => h (he ▸ List.mem_map_of_mem (f := (·.clientId)) hc)
  simp [this]

/-- Among distinct clients the client itself is at most one writer. -/
theorem length_writers (id : Text) (hn : (cs.map (·.clientId)).Nodup) :
    (cs.filter (·.mode = .readWrite)).length =
      (others id cs).length + if cs.any (fun c => c.clientId = id ∧ c.mode = .readWrite) then 1 else 0 := by
  induction cs with
  | nil => rfl
  | cons c cs ih =>
      rw [List.map_cons, List.nodup_cons] at hn
      have hcons : ((c :: cs).filter (·.mode = .readWrite)).length =
          (cs.filter (·.mode = .readWrite)).length + if c.mode = .readWrite then 1 else 0 := by
        by_cases hm : c.mode = .readWrite <;> simp [hm]
      by_cases hc : c.clientId = id
      · have hrest : others id cs = cs.filter (·.mode = .readWrite) := others_of_not_mem (hc ▸ hn.1)
        have hno : cs.any (fun c => c.clientId = id ∧ c.mode = .readWrite) = false := by
          rw [List.any_eq_false]
          intro d hd he
          simp only [decide_eq_true_eq] at he
          exact hn.1 (hc ▸ he.1 ▸ List.mem_map_of_mem (f := (·.clientId)) hd)
        have hself : others id (c :: cs) = others id cs := by simp [others, hc]
        rw [hcons, hself, hrest, List.any_cons, hno]
        simp [hc]
      · have hself : (others id (c :: cs)).length = (others id cs).length + if c.mode = .readWrite then 1 else 0 := by
          by_cases hm : c.mode = .readWrite <;> simp [others, hc, hm]
        have hany : (c :: cs).any (fun c => c.clientId = id ∧ c.mode = .readWrite) =
            cs.any (fun c => c.clientId = id ∧ c.mode = .readWrite) := by simp [hc]
        rw [hcons, hself, hany, ih hn.2]
        omega

theorem length_writers_le (id : Text) (hn : (cs.map (·.clientId)).Nodup) :
    (cs.filter (·.mode = .readWrite)).length ≤ (others id cs).length + 1 := by
  rw [length_writers id hn]
  split <;> omega

/-- A new record of the client that is read-only adds no writer. -/
theorem any_updateClient_readOnly (hn : (cs.map (·.clientId)).Nodup)
    (hm : ∀ c, (f c).mode = .readOnly) :
    (updateClient id f cs).any (fun c => c.clientId = id ∧ c.mode = .readWrite) = false := by
  induction cs with
  | nil => rfl
  | cons c cs ih =>
      rw [List.map_cons, List.nodup_cons] at hn
      rw [updateClient]
      split
      · rename_i hc
        rw [List.any_cons, List.any_eq_false.mpr]
        · simp [hm]
        · intro d hd he
          simp only [decide_eq_true_eq] at he
          exact hn.1 (hc ▸ he.1 ▸ List.mem_map_of_mem (f := (·.clientId)) hd)
      · rename_i hc
        simpa [hc] using ih hn.2

/-! ## The operations -/

theorem Seated.updateClient (h : p.Seated) (hf : ∀ c, c.clientId = id → (f c).clientId = id)
    (hw : Within p.maxReadWriteUsers ((others id p.connectedClients).length + 1)) :
    ({ p with connectedClients := Origin.Port.updateClient id f p.connectedClients } : Port).Seated := by
  have hn : ((Origin.Port.updateClient id f p.connectedClients).map (·.clientId)).Nodup := by
    rw [map_clientId_updateClient hf]; exact h.nodup
  refine ⟨hn, hw.mono ?_⟩
  have := length_writers_le id hn
  rwa [others_updateClient hf] at this

theorem Seated.readOnly (h : p.Seated) (hf : ∀ c, c.clientId = id → (f c).clientId = id)
    (hm : ∀ c, (f c).mode = .readOnly) :
    ({ p with connectedClients := Origin.Port.updateClient id f p.connectedClients } : Port).Seated := by
  have hn : ((Origin.Port.updateClient id f p.connectedClients).map (·.clientId)).Nodup := by
    rw [map_clientId_updateClient hf]; exact h.nodup
  refine ⟨hn, h.within.mono ?_⟩
  have hnew := length_writers id hn
  have hold := length_writers id h.nodup
  rw [any_updateClient_readOnly h.nodup hm, others_updateClient hf] at hnew
  simp only [writers, hnew, hold]
  simp

theorem Seated.demoteClient (h : p.Seated) (id : Text) : (p.demoteClient id).Seated :=
  h.readOnly (fun _ hc => hc) fun _ => rfl

theorem Seated.removeClient (h : p.Seated) (id : Text) : (p.removeClient id).Seated := by
  have hsub : (p.removeClient id).connectedClients.Sublist p.connectedClients := List.eraseP_sublist
  exact ⟨h.nodup.sublist (hsub.map _), h.within.mono (hsub.filter _).length_le⟩

theorem Seated.promoteClient (h : p.Seated) (id : Text) : (p.promoteClient id).1.Seated := by
  unfold Origin.Port.promoteClient
  split
  · exact h
  · rename_i hfull
    refine h.updateClient (fun _ hc => hc) ?_
    have hlen := length_writers id h.nodup
    by_cases hrw : p.isReadWrite id
    · have hself := hrw
      unfold Origin.Port.isReadWrite at hself
      rw [hself] at hlen
      exact h.within.mono hlen.ge
    · simp only [hrw, Bool.not_false, Bool.true_and, Bool.not_eq_true] at hfull
      unfold Origin.Port.isReadWrite at hrw
      rw [Bool.not_eq_true] at hrw
      rw [hrw] at hlen
      have := within_of_not_full hfull
      rwa [hlen] at this

theorem Seated.addClient (h : p.Seated) (c : Client) : (p.addClient c).Seated := by
  unfold Origin.Port.addClient
  split
  · exact h
  · rename_i hfull
    have hroom : c.mode = .readWrite → Within p.maxReadWriteUsers ((others c.clientId p.connectedClients).length + 1) := by
      intro hm
      simp only [hm, true_and, Bool.not_eq_true] at hfull
      exact within_of_not_full hfull
    split
    · cases hm : c.mode with
      | readWrite => exact h.updateClient (fun _ _ => rfl) (hroom hm)
      | readOnly => exact h.readOnly (fun _ _ => rfl) fun _ => hm
    · rename_i hnew
      have hmem : c.clientId ∉ p.connectedClients.map (·.clientId) := by
        simp only [List.any_eq_true, decide_eq_true_eq] at hnew
        intro hc
        obtain ⟨d, hd, he⟩ := List.mem_map.mp hc
        exact hnew ⟨d, hd, he⟩
      refine ⟨?_, ?_⟩
      · rw [List.map_append, List.map_singleton]
        exact h.nodup.append (List.nodup_singleton _) (by simpa using hmem)
      · cases hm : c.mode with
        | readWrite =>
            have := hroom hm
            rw [others_of_not_mem hmem] at this
            simpa [writers, hm] using this
        | readOnly => simpa [writers, hm] using h.within

/-- Within the capacity as `write_capacity` gives it. -/
theorem within_iff {int : Text → Option Int} {m : WriteMode} {n : Nat} :
    Within m n ↔ (writeCapacity int m.value).Bounds n := by
  cases m
  · show n = 0 ↔ (n : ℚ) ≤ 0
    exact_mod_cast Nat.le_zero.symm
  · show n ≤ 1 ↔ (n : ℚ) ≤ 1
    exact_mod_cast Iff.rfl
  · exact Iff.rfl

end OpenMux.Origin.Port
