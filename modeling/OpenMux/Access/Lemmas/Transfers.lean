import OpenMux.Access.Lemmas.Takes

/-!
# A takeover is a transfer or nothing

On a port with one slot the transfer to a taker that is attached succeeds, and the restore after a refused one undoes the
demote.
-/

namespace OpenMux.Origin.Port

open Py Federation Access

variable {p : Port} {id taker victim : Text} {c : Client} {cs : List Client} {f : Client → Client} {target : Option Text}

/-! ## Records -/

/-- Among distinct clients a change of the first record of the client is one of all its records. -/
theorem updateClient_eq_map (hn : (cs.map (·.clientId)).Nodup) :
    updateClient id f cs = cs.map fun c => if c.clientId = id then f c else c := by
  induction cs with
  | nil => rfl
  | cons c cs ih =>
      rw [List.map_cons, List.nodup_cons] at hn
      rw [updateClient, List.map_cons]
      by_cases hc : c.clientId = id
      · have hrest : ∀ d ∈ cs, d.clientId ≠ id := fun d hd he =>
          hn.1 (hc ▸ he ▸ List.mem_map_of_mem (f := (·.clientId)) hd)
        have hsame : cs.map (fun d => if d.clientId = id then f d else d) = cs :=
          (List.map_congr_left fun d hd => if_neg (hrest d hd)).trans (List.map_id _)
        simp [hc, hsame]
      · simp [hc, ih hn.2]

theorem with_readWrite (hm : c.mode = .readWrite) : { c with mode := .readWrite } = c := by
  cases c
  cases hm
  rfl

/-- Among distinct clients the record of a writer is that of a writer. -/
theorem mode_of_isReadWrite (h : p.Distinct) (hw : p.isReadWrite id) (hc : c ∈ p.connectedClients) (hid : c.clientId = id) :
    c.mode = .readWrite := by
  obtain ⟨d, hd, hdid, hm⟩ := isReadWrite_iff.mp hw
  rwa [List.inj_on_of_nodup_map h hc hd (hid.trans hdid.symm)]

theorem connectedClients_demote (h : p.Distinct) : (p.demoteClient id).connectedClients =
    p.connectedClients.map fun c => if c.clientId = id then { c with mode := .readOnly } else c :=
  updateClient_eq_map h

/-- A promote that is not refused for want of a slot. -/
theorem connectedClients_promote (h : p.Distinct) (hroom : p.isReadWrite id ∨ p.full p.writers.length = false) :
    (p.promoteClient id).1 = { p with connectedClients := p.connectedClients.map fun c =>
      if c.clientId = id then { c with mode := .readWrite } else c } := by
  have hadmitted : ¬ (!p.isReadWrite id && p.full p.writers.length) = true := by
    rcases hroom with hw | hf <;> simp [*]
  rw [← updateClient_eq_map h]
  unfold promoteClient
  exact congrArg Prod.fst (if_neg hadmitted)

/-- A promote that fails changes nothing. -/
theorem promote_failed (h : p.Distinct) (hno : (p.promoteClient id).2 = false) : (p.promoteClient id).1 = p := by
  have hnot : ¬ (p.Has id ∧ (p.isReadWrite id ∨ p.full p.writers.length = false)) := by
    rw [← promote_snd_iff, hno]
    simp
  by_cases hroom : p.isReadWrite id ∨ p.full p.writers.length = false
  · have hnobody : ∀ c ∈ p.connectedClients, (if c.clientId = id then { c with mode := .readWrite } else c : Client) = c :=
      fun c hc => if_neg fun hid => hnot ⟨⟨c, hc, hid⟩, hroom⟩
    rw [connectedClients_promote h hroom, List.map_congr_left hnobody, List.map_id']
  · rw [not_or, Bool.not_eq_true, Bool.not_eq_false] at hroom
    exact promote_refused hroom.1 hroom.2

/-! ## A port with one slot -/

theorem reseat_none_self (h : p.Distinct) (hw : p.isReadWrite taker) : p.reseat taker none = p := by
  have hsame : ∀ c ∈ p.connectedClients, (if c.clientId = taker then { c with mode := .readWrite }
      else if some c.clientId = none then { c with mode := .readOnly } else c : Client) = c := by
    intro c hc
    by_cases hid : c.clientId = taker
    · rw [if_pos hid, with_readWrite (mode_of_isReadWrite h hw hc hid)]
    · simp [hid]
  unfold reseat
  rw [List.map_congr_left hsame, List.map_id']

/-- The only writer of a port with one slot is no writer after a demote. -/
theorem room_after_demote (h : p.Seated) (hone : p.maxReadWriteUsers = .one) (hw : p.isReadWrite victim) :
    (p.demoteClient victim).full (p.demoteClient victim).writers.length = false := by
  have hwithin := h.within
  have hlen := length_writers_demote h.nodup hw
  rw [hone, Within] at hwithin
  have hfull (n : Nat) : (p.demoteClient victim).full n = decide (1 ≤ n) := by
    show p.full n = _
    simp [full, hone]
  rw [hfull]
  simp only [decide_eq_false_iff_not]
  omega

theorem has_demote : (p.demoteClient victim).Has taker ↔ p.Has taker := by
  have hids : (p.demoteClient victim).connectedClients.map (·.clientId) = p.connectedClients.map (·.clientId) := ids_demote
  have hmem (q : Port) : q.Has taker ↔ taker ∈ q.connectedClients.map (·.clientId) := by
    simp [Has]
  rw [hmem, hmem, hids]

/-- A transfer to a client that has a record moves the slot. -/
theorem transfer_eq_reseat (h : p.Seated) (hone : p.maxReadWriteUsers = .one) (hw : p.isReadWrite victim)
    (hne : victim ≠ taker) (hhas : p.Has taker) :
    (p.demoteClient victim).promoteClient taker = (p.reseat taker (some victim), true) := by
  have hroom := room_after_demote h hone hw
  have hsnd : ((p.demoteClient victim).promoteClient taker).2 = true :=
    promote_snd_iff.mpr ⟨has_demote.mpr hhas, .inr hroom⟩
  refine Prod.ext ?_ hsnd
  rw [connectedClients_promote (Distinct.demote h.nodup victim) (.inr hroom), connectedClients_demote h.nodup, List.map_map]
  unfold demoteClient reseat
  simp only [Port.mk.injEq, true_and, and_true]
  refine List.map_congr_left fun c _ => ?_
  simp only [Function.comp_apply]
  by_cases hv : c.clientId = victim
  · simp [hv, hne]
  · simp [hv]

/-- Without a record of the taker the victim has its slot back. -/
theorem restore_eq (h : p.Seated) (hone : p.maxReadWriteUsers = .one) (hw : p.isReadWrite victim)
    (hhas : ¬ p.Has taker) :
    ((p.demoteClient victim).promoteClient taker).2 = false ∧
      (((p.demoteClient victim).promoteClient taker).1.promoteClient victim).1 = p := by
  have hroom := room_after_demote h hone hw
  have hdistinct := Distinct.demote h.nodup victim
  have hno : ((p.demoteClient victim).promoteClient taker).2 = false := by
    rw [← Bool.not_eq_true, promote_snd_iff, has_demote]
    exact fun hp => hhas hp.1
  refine ⟨hno, ?_⟩
  rw [promote_failed hdistinct hno, connectedClients_promote hdistinct (.inr hroom), connectedClients_demote h.nodup, List.map_map]
  have hback : ∀ c ∈ p.connectedClients, ((fun c : Client => if c.clientId = victim then { c with mode := .readWrite } else c) ∘
      fun c : Client => if c.clientId = victim then { c with mode := .readOnly } else c) c = c := by
    intro c hc
    by_cases hid : c.clientId = victim
    · simpa [hid] using hid ▸ with_readWrite (mode_of_isReadWrite h.nodup hw hc hid)
    · simp [hid]
  rw [List.map_congr_left hback, List.map_id']
  rfl

/-- A promote into the empty slot. -/
theorem promote_eq_reseat (h : p.Distinct) (hok : (p.promoteClient taker).2 = true) :
    (p.promoteClient taker).1 = p.reseat taker none := by
  rw [connectedClients_promote h (promote_snd_iff.mp hok).2]
  simp [reseat]

/-- A port with one slot and a writer has one writer. -/
theorem one_writer (h : p.Seated) (hone : p.maxReadWriteUsers = .one) (hw : p.isReadWrite id) : p.writers.length = 1 := by
  have hwithin := h.within
  obtain ⟨c, hc, -, hm⟩ := isReadWrite_iff.mp hw
  have hmem : c ∈ p.writers := List.mem_filter.mpr ⟨hc, by simp [hm]⟩
  have hpos := List.length_pos_of_mem hmem
  rw [hone, Within] at hwithin
  omega

/-- With one slot, a port that has a writer now had one before or was empty. -/
theorem writers_of_one {q : Port} (h : p.Seated) (hone : p.maxReadWriteUsers = .one) (hq : q.Seated)
    (hqone : q.maxReadWriteUsers = .one) (hw : q.isReadWrite id) :
    q.writers.length = p.writers.length ∨ p.writers.length = 0 ∧ q.writers.length = 1 := by
  have hwithin := h.within
  have hlen := one_writer hq hqone hw
  rw [hone, Within] at hwithin
  omega

end OpenMux.Origin.Port

namespace OpenMux.Access.Console

open Py Federation Origin Coro

variable {s s' : Console} {name taker clientId : Text} {p q : Port} {target : Option Text} {f : Port → Port}

theorem Unchanged.refl (s : Console) : s.Unchanged s := ⟨rfl, fun _ => rfl⟩

theorem Becomes.self (hp : s.ports.get? name = some p) : s.Becomes s name p := by
  refine ⟨rfl, fun other => ?_⟩
  by_cases ho : other = name
  · simp [ho, hp]
  · simp [ho]

theorem Becomes.unchanged (hp : s.ports.get? name = some p) (h : s.Becomes s' name p) : s.Unchanged s' := by
  refine ⟨h.1, fun other => ?_⟩
  rw [h.2 other]
  by_cases ho : other = name
  · simp [ho, hp]
  · simp [ho]

theorem Becomes.get? (h : s.Becomes s' name p) : s'.ports.get? name = some p := by
  simp [h.2 name]

theorem Becomes.updatePort (h : s.Becomes s' name p) : s.Becomes (s'.updatePort name f) name (f p) := by
  refine ⟨h.1, fun other => ?_⟩
  rw [get?_updatePort, h.2 other]
  by_cases ho : other = name
  · simp [ho]
  · simp [ho]

theorem Becomes.promote (h : s.Becomes s' name p) (clientId : Text) :
    s.Becomes (promoteClient name clientId s').1 name (p.promoteClient clientId).1 :=
  h.updatePort

theorem Becomes.demote (h : s.Becomes s' name p) (clientId : Text) :
    s.Becomes (demoteClient name clientId s').1 name (p.demoteClient clientId) :=
  h.updatePort

/-! ## Takes -/

theorem ok_of_driveRefusal {code : Code} (h : s.driveRefusal name p clientId = some code) : code.ok = false := by
  unfold driveRefusal at h
  split at h
  · cases h
    rfl
  · dsimp only at h
    split at h
    · cases h
    · cases h
      cases (s.entitlement name _ _).code with
      | none => rfl
      | some denied => exact Code.ok_ofDenied denied

theorem ok_of_resolveTakeTarget {code : Code} (h : resolveTakeTarget p taker target = .error code) : code.ok = false := by
  unfold resolveTakeTarget at h
  dsimp only at h
  split at h
  · cases h
    rfl
  · split at h <;> cases h
    rfl
  · split at h <;> cases h
    rfl

/-- What a take of the slot leaves behind: the port with the taker in the place of the victim, or what was there. -/
def Takes (s : Console) (name taker : Text) (p : Port) (victim : Option Text) (r : Console × AccessDecision) : Prop :=
  (r.2.ok = true → s.Becomes r.1 name (p.reseat taker victim) ∧ (p.reseat taker victim).isReadWrite taker ∧
    ((p.reseat taker victim).writers.length = p.writers.length ∨
      p.writers.length = 0 ∧ (p.reseat taker victim).writers.length = 1)) ∧
  (r.2.ok = false → s.Unchanged r.1)

theorem takes_refused {victim : Option Text} {d : AccessDecision} (hd : d.ok = false) : s.Takes name taker p victim (s, d) :=
  ⟨fun h => absurd (h.symm.trans hd) (by simp), fun _ => .refl s⟩

theorem takes_alreadyRw (h : p.Distinct) (hp : s.ports.get? name = some p) (hw : p.isReadWrite taker) {d : AccessDecision}
    (hd : d.ok = true) : s.Takes name taker p none (s, d) := by
  refine ⟨fun _ => ?_, fun hno => absurd (hd.symm.trans hno) (by simp)⟩
  rw [Port.reseat_none_self h hw]
  exact ⟨.self hp, hw, .inl rfl⟩

theorem Port.isReadWrite_reseat {victim : Option Text} (h : p.Has taker) : (p.reseat taker victim).isReadWrite taker := by
  obtain ⟨c, hc, hid⟩ := h
  refine Port.isReadWrite_iff.mpr ⟨{ c with mode := .readWrite }, ?_, hid, rfl⟩
  exact List.mem_map.mpr ⟨c, hc, if_pos hid⟩

/-- The transfer to the taker goes through if the taker has a record; otherwise the restore undoes the demote. -/
theorem takes_takeSlot (h : p.Seated) (hone : p.maxReadWriteUsers = .one) (hp : s.ports.get? name = some p)
    (hd : s.Driver name taker) {victim : Client} (hv : victim ∈ p.connectedClients) (hm : victim.mode = .readWrite)
    (hne : victim.clientId ≠ taker) :
    s.Takes name taker p (some victim.clientId) ((takeSlotLocal name taker victim).run s) := by
  by_cases hmap : s.clientPortMap.get? victim.clientId = some name
  · have hw : p.isReadWrite victim.clientId := Port.isReadWrite_iff.mpr ⟨victim, hv, rfl, hm⟩
    obtain ⟨hstate, hok⟩ := run_demote_attached hp hmap ⟨victim, hv, rfl⟩
    have hdemoted := (Becomes.self hp).demote victim.clientId
    obtain ⟨hstate', hok', -⟩ := run_promote (hd.demote victim.clientId)
    rw [(get?_promote taker (get?_demote victim.clientId hp)).2] at hok'
    by_cases hhas : p.Has taker
    · have htransfer := Port.transfer_eq_reseat h hone hw hne hhas
      rw [htransfer] at hok'
      have hrun : ((takeSlotLocal name taker victim).run s).1 =
            (promoteClient name taker (demoteClient name victim.clientId s).1).1 ∧
          ((takeSlotLocal name taker victim).run s).2.ok = true := by
        simp only [takeSlotLocal, run_bind, run_get, hok, if_pos, hstate, hok', hstate', run_yield, run_pure]
        exact ⟨trivial, rfl⟩
      have hseated := (h.demoteClient victim.clientId).promoteClient taker
      rw [htransfer] at hseated
      have hwriter : (p.reseat taker (some victim.clientId)).isReadWrite taker := Port.isReadWrite_reseat hhas
      refine ⟨fun _ => ⟨?_, hwriter, Port.writers_of_one h hone hseated hone hwriter⟩,
        fun hno => absurd (hrun.2.symm.trans hno) (by simp)⟩
      have hpromoted := hdemoted.promote taker
      rw [htransfer] at hpromoted
      rw [hrun.1]
      exact hpromoted
    · obtain ⟨hrefused, hback⟩ := Port.restore_eq h hone hw hhas
      rw [hrefused] at hok'
      have hrun : (takeSlotLocal name taker victim).run s =
          ((promoteClient name victim.clientId (promoteClient name taker (demoteClient name victim.clientId s).1).1).1,
            (promoteClient name victim.clientId
              (promoteClient name taker (demoteClient name victim.clientId s).1).1).1.seatRefusal taker name) := by
        simp [takeSlotLocal, hok, hstate, hok', hstate']
      rw [hrun]
      refine ⟨fun hyes => absurd ((ok_seatRefusal _ _ _).symm.trans hyes) (by simp), fun _ => ?_⟩
      have hrestored := (hdemoted.promote taker).promote victim.clientId
      rw [hback] at hrestored
      exact hrestored.unchanged hp
  · have hrun : (takeSlotLocal name taker victim).run s = (s, decided .victimNotCurrent .readOnly taker name) := by
      simp [takeSlotLocal, run_demote_refused hmap, Code.ok, Code.kind]
    rw [hrun]
    exact takes_refused rfl

theorem takes_takeLocal (h : p.Seated) (hp : s.ports.get? name = some p) (hd : s.Driver name taker) :
    s.Takes name taker p (p.victimOf taker target) ((takeWriteSlotLocal taker name target p).run s) := by
  unfold Port.victimOf
  cases hmode : p.maxReadWriteUsers with
  | none =>
      have hrun : (takeWriteSlotLocal taker name target p).run s = (s, s.seatRefusal taker name) := by
        simp [takeWriteSlotLocal, hmode]
      rw [hrun]
      exact takes_refused (ok_seatRefusal _ _ _)
  | multiple =>
      by_cases hw : p.isReadWrite taker = true
      · have hrun : (takeWriteSlotLocal taker name target p).run s = (s, s.decidedOn .alreadyRw .readWrite taker name) := by
          simp [takeWriteSlotLocal, hmode, hw]
        rw [hrun]
        exact takes_alreadyRw h.nodup hp hw rfl
      · have hrun : (takeWriteSlotLocal taker name target p).run s = (s, s.seatRefusal taker name) := by
          simp [takeWriteSlotLocal, hmode, hw]
        rw [hrun]
        exact takes_refused (ok_seatRefusal _ _ _)
  | one =>
      cases hres : resolveTakeTarget p taker target with
      | ok victim =>
          obtain ⟨hmem, hm, hne⟩ := resolveTakeTarget_mem hres
          have hrun : (takeWriteSlotLocal taker name target p).run s = (takeSlotLocal name taker victim).run s := by
            simp [takeWriteSlotLocal, hmode, hres]
          rw [hrun]
          exact takes_takeSlot h hmode hp hd hmem hm hne
      | error reason =>
          cases target with
          | some t =>
              have hrun : (takeWriteSlotLocal taker name (some t) p).run s =
                  (s, s.decidedWith reason .readOnly taker name) := by simp [takeWriteSlotLocal, hmode, hres]
              rw [hrun]
              exact takes_refused (ok_of_resolveTakeTarget hres)
          | none =>
              cases resolveTakeTarget_error hres rfl
              by_cases hw : p.isReadWrite taker = true
              · have hrun : (takeWriteSlotLocal taker name none p).run s =
                    (s, s.decidedOn .alreadyRw .readWrite taker name) := by simp [takeWriteSlotLocal, hmode, hres, hw]
                rw [hrun]
                exact takes_alreadyRw h.nodup hp hw rfl
              · obtain ⟨hstate, hok, -⟩ := run_promote hd
                have hsnd := (get?_promote taker hp).2
                have hpromoted := (Becomes.self hp).promote taker
                rw [hsnd] at hok
                cases hdone : (p.promoteClient taker).2 with
                | true =>
                    rw [hdone] at hok
                    have hrun : (takeWriteSlotLocal taker name none p).run s = ((promoteClient name taker s).1,
                        (promoteClient name taker s).1.decidedOn .granted .readWrite taker name) := by
                      simp [takeWriteSlotLocal, hmode, hres, hw, hok, hstate]
                    rw [hrun]
                    refine ⟨fun _ => ?_, fun hno => by cases hno⟩
                    have hseated := h.promoteClient taker
                    rw [Port.promote_eq_reseat h.nodup hdone] at hpromoted hseated
                    have hwriter : (p.reseat taker none).isReadWrite taker :=
                      Port.isReadWrite_reseat (Port.promote_snd_iff.mp hdone).1
                    exact ⟨hpromoted, hwriter, Port.writers_of_one h hmode hseated hmode hwriter⟩
                | false =>
                    rw [hdone] at hok
                    have hrun : (takeWriteSlotLocal taker name none p).run s = ((promoteClient name taker s).1,
                        (promoteClient name taker s).1.seatRefusal taker name) := by
                      simp [takeWriteSlotLocal, hmode, hres, hw, hok, hstate]
                    rw [hrun]
                    refine ⟨fun hyes => absurd ((ok_seatRefusal _ _ _).symm.trans hyes) (by simp), fun _ => ?_⟩
                    rw [Port.promote_failed h.nodup hdone] at hpromoted
                    exact hpromoted.unchanged hp

theorem takes_take (h : s.Seated) (hp : s.ports.get? name = some p) :
    s.Takes name taker p (p.victimOf taker target) ((takeWriteSlot taker name target).run s) := by
  by_cases hmap : s.clientPortMap.get? taker = some name
  · cases hcreds : s.takeWriteSlotPermissions p taker with
    | none =>
        have hrun : (takeWriteSlot taker name target).run s = (s, decided .notEntitled .readOnly taker name) := by
          simp [takeWriteSlot, hmap, hp, hcreds]
        rw [hrun]
        exact takes_refused rfl
    | some permissions =>
        cases hrefusal : s.driveRefusal name p taker with
        | some refusal =>
            have hrun : (takeWriteSlot taker name target).run s = (s, s.decidedWith refusal .readOnly taker name) := by
              simp [takeWriteSlot, hmap, hp, hcreds, hrefusal]
            rw [hrun]
            exact takes_refused (ok_of_driveRefusal hrefusal)
        | none =>
            have hd : s.Driver name taker := ⟨hmap, fun q hq => by rw [hp] at hq; cases hq; exact hrefusal⟩
            have hrun : (takeWriteSlot taker name target).run s = (takeWriteSlotLocal taker name target p).run s := by
              simp [takeWriteSlot, hmap, hp, hcreds, hrefusal]
            rw [hrun]
            exact takes_takeLocal (h name p hp) hp hd
  · have hrun : (takeWriteSlot taker name target).run s = (s, decided .notAttached .readOnly taker name) := by
      simp [takeWriteSlot, hmap]
    rw [hrun]
    exact takes_refused rfl

/-- A port that is gone is taken by nobody. -/
theorem take_missing (hp : s.ports.get? name = none) :
    ((takeWriteSlot taker name target).run s).2.ok = false ∧ s.Unchanged ((takeWriteSlot taker name target).run s).1 := by
  by_cases hmap : s.clientPortMap.get? taker = some name
  · have hrun : (takeWriteSlot taker name target).run s = (s, decided .portMissing .readOnly taker name) := by
      simp [takeWriteSlot, hmap, hp]
    rw [hrun]
    exact ⟨rfl, .refl s⟩
  · have hrun : (takeWriteSlot taker name target).run s = (s, decided .notAttached .readOnly taker name) := by
      simp [takeWriteSlot, hmap]
    rw [hrun]
    exact ⟨rfl, .refl s⟩

end OpenMux.Access.Console
