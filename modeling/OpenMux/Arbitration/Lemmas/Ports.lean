import OpenMux.Arbitration.Stream

/-!
# The modes of clients

What the operations of the port manager do to the mode of a client's first record.
-/

namespace OpenMux.Arbitration

open Py Federation Origin Streams

variable {p : Port} {id id' : Text} {c : Client} {cs : List Client} {f : Client → Client}

theorem find?_updateClient (hf : ∀ c, (f c).clientId = c.clientId) :
    (Port.updateClient id f cs).find? (·.clientId = id') =
      if id' = id then (cs.find? (·.clientId = id')).map f else cs.find? (·.clientId = id') := by
  induction cs with
  | nil => simp [Port.updateClient]
  | cons c cs ih =>
      rw [Port.updateClient]
      by_cases hc : c.clientId = id
      · by_cases hid : id' = id
        · simp [hc, hid, hf]
        · have : ¬ id = id' := fun h => hid h.symm
          simp [hc, hid, hf, this]
      · by_cases hid : id' = id
        · subst hid
          simpa [hc] using ih
        · by_cases hc' : c.clientId = id'
          · simp [hc, hc', hid]
          · simpa [hc, hc', hid] using ih

/-- Without a record of the client nothing is updated. -/
theorem updateClient_of_not_mem (h : cs.any (·.clientId = id) = false) : Port.updateClient id f cs = cs := by
  induction cs with
  | nil => rfl
  | cons c cs ih =>
      rw [List.any_cons, Bool.or_eq_false_iff, decide_eq_false_iff_not] at h
      rw [Port.updateClient, if_neg h.1, ih h.2]

theorem clientHasWrite_iff : p.clientHasWrite id ↔ modeOf p id = some .readWrite := by
  unfold Port.clientHasWrite modeOf
  cases p.connectedClients.find? (·.clientId = id) <;> simp

theorem modeOf_isSome : (modeOf p id).isSome ↔ p.connectedClients.any (·.clientId = id) := by
  simp [modeOf, List.find?_isSome]

@[simp] theorem modeOf_demoteClient : modeOf (p.demoteClient id) id' =
    if id' = id then (modeOf p id').map fun _ => .readOnly else modeOf p id' := by
  simp only [modeOf, Port.demoteClient]
  rw [find?_updateClient (f := fun c => { c with mode := .readOnly }) fun _ => rfl]
  split
  · simp [Function.comp_def]
  · rfl

/-- A promotion that fails changes nothing. -/
theorem promoteClient_of_false (h : (p.promoteClient id).2 = false) : (p.promoteClient id).1 = p := by
  unfold Port.promoteClient at h ⊢
  split at h
  · rename_i hfull; rw [if_pos hfull]
  · rename_i hfull
    rw [if_neg hfull]
    simp only [updateClient_of_not_mem h]

theorem modeOf_promoteClient : modeOf (p.promoteClient id).1 id' =
    if id' = id ∧ (p.promoteClient id).2 then some .readWrite else modeOf p id' := by
  cases hok : (p.promoteClient id).2 with
  | false => simp [promoteClient_of_false hok]
  | true =>
      unfold Port.promoteClient at hok ⊢
      split at hok
      · cases hok
      · rename_i hfull
        rw [if_neg hfull]
        simp only [modeOf]
        rw [find?_updateClient (f := fun c => { c with mode := .readWrite }) fun _ => rfl]
        by_cases hid : id' = id
        · subst hid
          have hsome := List.find?_isSome.mpr (List.any_eq_true.mp hok)
          obtain ⟨c, hc⟩ := Option.isSome_iff_exists.mp hsome
          simp [hc]
        · simp [hid]

/-- A client that is read-write already is promoted, full or not. -/
theorem promoteClient_of_readWrite (h : modeOf p id = some .readWrite) : (p.promoteClient id).2 = true := by
  obtain ⟨c, hc, hm⟩ := Option.map_eq_some_iff.mp h
  have hmem := List.mem_of_find?_eq_some hc
  have hid : c.clientId = id := by simpa using List.find?_some hc
  have hrw : p.isReadWrite id = true := List.any_eq_true.mpr ⟨c, hmem, by simp [hid, hm]⟩
  have hany : p.connectedClients.any (·.clientId = id) = true := List.any_eq_true.mpr ⟨c, hmem, by simp [hid]⟩
  unfold Port.promoteClient
  rw [hrw]
  simpa using hany

theorem modeOf_addClient_of_ne (h : id ≠ c.clientId) : modeOf (p.addClient c) id = modeOf p id := by
  unfold Port.addClient
  split
  · rfl
  · split
    · -- The record is replaced in place.
      simp only [modeOf]
      have hrepl : ∀ cs : List Client, (Port.updateClient c.clientId (fun _ => c) cs).find? (·.clientId = id) =
          cs.find? (·.clientId = id) := by
        intro cs
        induction cs with
        | nil => rfl
        | cons d cs ih =>
            rw [Port.updateClient]
            by_cases hd : d.clientId = c.clientId
            · have : ¬ c.clientId = id := fun he => h he.symm
              simp [hd, this]
            · simp only [hd, if_false, List.find?_cons, ih]
      rw [hrepl]
    · have : ¬ c.clientId = id := fun he => h he.symm
      simp [modeOf, List.find?_append, this]

/-- A read-only client is always let in. -/
theorem modeOf_addClient_self (h : c.mode = .readOnly) : modeOf (p.addClient c) c.clientId = some .readOnly := by
  unfold Port.addClient
  rw [if_neg (by simp [h])]
  split
  · rename_i hany
    simp only [modeOf]
    have hrepl : ∀ cs : List Client, cs.any (·.clientId = c.clientId) = true →
        (Port.updateClient c.clientId (fun _ => c) cs).find? (·.clientId = c.clientId) = some c := by
      intro cs hcs
      induction cs with
      | nil => cases hcs
      | cons d cs ih =>
          rw [Port.updateClient]
          by_cases hd : d.clientId = c.clientId
          · simp [hd]
          · have : cs.any (·.clientId = c.clientId) = true := by simpa [hd] using hcs
            simpa [hd] using ih this
    rw [hrepl _ hany]
    simp [h]
  · rename_i hany
    have hnone : p.connectedClients.find? (·.clientId = c.clientId) = none := by
      rw [List.find?_eq_none]
      intro d hd he
      exact hany (List.any_eq_true.mpr ⟨d, hd, he⟩)
    simp [modeOf, List.find?_append, hnone, h]

theorem modeOf_removeClient_of_ne (h : id ≠ id') : modeOf (p.removeClient id') id = modeOf p id := by
  simp only [modeOf, Port.removeClient]
  congr 1
  induction p.connectedClients with
  | nil => rfl
  | cons c cs ih =>
      by_cases hc : c.clientId = id'
      · have : ¬ id' = id := fun he => h he.symm
        simp [hc, this]
      · rw [List.eraseP_cons_of_neg (by simpa using hc), List.find?_cons, List.find?_cons, ih]

/-- The taker is promoted, or the port is as it was with the victim promoted. -/
theorem modeOf_settle (taker victim id : Text) : modeOf (Arbiter.settle p taker victim) id =
    if (p.promoteClient taker).2 then if id = taker then some .readWrite else modeOf p id
    else if id = victim ∧ (p.promoteClient victim).2 then some .readWrite else modeOf p id := by
  unfold Arbiter.settle
  cases hok : (p.promoteClient taker).2 with
  | true => simp [hok, modeOf_promoteClient]
  | false => simp [hok, promoteClient_of_false hok, modeOf_promoteClient]

/-! ## Ids of mirrors -/

variable {k : Text} {sid sid' : StreamId}

theorem mirror_injective (h : Arbiter.mirror k sid = Arbiter.mirror k sid') : sid = sid' :=
  Int.ofNat.inj (fedClientId_injective h).2

@[simp] theorem mirror_inj : Arbiter.mirror k sid = Arbiter.mirror k sid' ↔ sid = sid' :=
  ⟨mirror_injective, fun h => h ▸ rfl⟩

theorem ofPeer_mirror : OfPeer k (Arbiter.mirror k sid) := by
  have happ : Arbiter.mirror k sid = (fedPrefix ++ (k ++ [':'])) ++ decimal (sid : Int) := by
    simp [Arbiter.mirror, fedClientId]
  refine ⟨⟨decimal (sid : Int), happ.symm⟩, ?_⟩
  rw [happ, List.drop_left]
  exact colon_not_mem_decimal _

theorem fedPrefix_mirror : fedPrefix <+: Arbiter.mirror k sid := ⟨_, rfl⟩

theorem fedClientId_ne_mirror {slot : Slot} (h : slot.1 ≠ k) : fedClientId slot.1 slot.2 ≠ Arbiter.mirror k sid :=
  fun he => h (fedClientId_injective he).1

end OpenMux.Arbitration
