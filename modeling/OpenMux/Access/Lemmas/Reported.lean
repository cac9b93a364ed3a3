import OpenMux.Access.Grants
import OpenMux.Access.Lemmas.Entitled

/-!
# What a call reports

The run of each request for access, and the mode of the record after it.
-/

namespace OpenMux.Origin.Port

open Py Federation

variable {p : Port} {id : Text} {c : Client} {f : Client → Client}

/-- Among distinct clients an update reaches every record of the client. -/
theorem forall_updateClient {P : Client → Prop} {cs : List Client} (hn : (cs.map (·.clientId)).Nodup)
    (hf : ∀ c, c.clientId = id → P (f c)) : ∀ c ∈ updateClient id f cs, c.clientId = id → P c := by
  induction cs with
  | nil => intro c hc; cases hc
  | cons d cs ih =>
      rw [List.map_cons, List.nodup_cons] at hn
      intro c hc hid
      rw [updateClient] at hc
      split at hc
      · rename_i hd
        rcases List.mem_cons.mp hc with rfl | hc
        · exact hf d hd
        · exact absurd (List.mem_map_of_mem (f := (·.clientId)) hc) (hid ▸ hd ▸ hn.1)
      · rename_i hd
        rcases List.mem_cons.mp hc with rfl | hc
        · exact absurd hid hd
        · exact ih hn.2 c hc hid

end OpenMux.Origin.Port

namespace OpenMux.Access

open Py Federation Origin Coro

namespace Console

variable {s : Console} {name clientId : Text} {mode : Mode} {code : Code}

theorem shows_readOnly : s.Shows name clientId .readOnly ↔ ¬ s.IsWriter name clientId := by
  constructor
  · rintro h ⟨p, hp, hw⟩
    obtain ⟨c, hc, hid, hm⟩ := Port.isReadWrite_iff.mp hw
    rw [h p hp c hc hid] at hm
    cases hm
  · intro h p hp c hc hid
    cases hm : c.mode with
    | readOnly => rfl
    | readWrite => exact absurd ⟨p, hp, Port.isReadWrite_iff.mpr ⟨c, hc, hid, hm⟩⟩ h

theorem shows_updatePort {f : Port → Port}
    (h : ∀ p, s.ports.get? name = some p → ∀ c ∈ (f p).connectedClients, c.clientId = clientId → c.mode = mode) :
    (s.updatePort name f).Shows name clientId mode := by
  intro p hp c hc hid
  rw [get?_updatePort, if_pos rfl] at hp
  obtain ⟨q, hq, rfl⟩ := Option.map_eq_some_iff.mp hp
  exact h q hq c hc hid

/-- A promote that succeeds leaves the client read-write. -/
theorem shows_promote (h : s.Seated) (hok : (promoteClient name clientId s).2 = true) :
    (promoteClient name clientId s).1.Shows name clientId .readWrite := by
  refine shows_updatePort fun p hp c hc hid => ?_
  simp only [promoteClient, askPort, hp] at hok
  unfold Port.promoteClient at hok hc
  split at hok
  · cases hok
  · rename_i hfull
    rw [if_neg hfull] at hc
    exact Port.forall_updateClient (P := fun c => c.mode = .readWrite) (h name p hp).nodup (fun _ _ => rfl) c hc hid

/-- A promote that fails leaves the client read-only. -/
theorem shows_promote_fail (hfail : (promoteClient name clientId s).2 = false) :
    (promoteClient name clientId s).1.Shows name clientId .readOnly :=
  shows_readOnly.mpr fun hw => not_isWriter_of_promote hfail (noGrant_promote hfail _ _ hw)

theorem shows_demote (h : s.Seated) : (demoteClient name clientId s).1.Shows name clientId .readOnly :=
  shows_updatePort fun p hp =>
    Port.forall_updateClient (P := fun c => c.mode = .readOnly) (h name p hp).nodup fun _ _ => rfl

/-- An attach that succeeds leaves the client in its mode. -/
theorem shows_add {username : String} (h : s.Seated) (hok : (addClientToPort name clientId username mode s).2 = true) :
    (addClientToPort name clientId username mode s).1.Shows name clientId mode := by
  refine shows_updatePort fun p hp c hc hid => ?_
  simp only [addClientToPort, askPort, hp, Bool.not_eq_true', Bool.and_eq_false_iff, decide_eq_false_iff_not] at hok
  have hroom : ¬ (mode = .readWrite ∧ p.full (p.rwCount clientId) = true) := by
    rintro ⟨hm, hf⟩
    rcases hok with hok | hok
    · exact hok hm
    · rw [hf] at hok; cases hok
  unfold Port.addClient at hc
  rw [if_neg hroom] at hc
  split at hc
  · exact Port.forall_updateClient (P := fun c => c.mode = mode) (h name p hp).nodup (fun _ _ => rfl) c hc hid
  · rename_i hnew
    rcases List.mem_append.mp hc with hold | hnew'
    · exact absurd (List.any_eq_true.mpr ⟨c, hold, by simpa using hid⟩) hnew
    · cases List.mem_singleton.mp hnew'; rfl

/-- A client that leaves a port has no record there. -/
theorem shows_remove (h : s.Seated) : (removeClientFromPort name clientId s).1.Shows name clientId mode := by
  refine shows_updatePort fun p hp c hc hid => ?_
  have hn := (h name p hp).nodup
  unfold Port.removeClient at hc
  dsimp only at hc
  generalize p.connectedClients = cs at hn hc
  induction cs with
  | nil => cases hc
  | cons d cs ih =>
      rw [List.map_cons, List.nodup_cons] at hn
      by_cases hd : d.clientId = clientId
      · simp only [List.eraseP_cons, hd, decide_true, cond_true] at hc
        exact absurd (List.mem_map_of_mem (f := (·.clientId)) hc) (hid ▸ hd ▸ hn.1)
      · simp only [List.eraseP_cons, hd, decide_false, cond_false] at hc
        rcases List.mem_cons.mp hc with rfl | hc
        · exact absurd hid hd
        · exact ih hn.2 hc

/-! ## Decisions -/

@[simp] theorem mode_decided : (decided code mode clientId name).mode = mode := rfl

@[simp] theorem mode_decidedOn : (s.decidedOn code mode clientId name).mode = mode := rfl

@[simp] theorem mode_decidedWith : (s.decidedWith code mode clientId name).mode = mode := rfl

@[simp] theorem mode_seatRefusal : (s.seatRefusal clientId name).mode = .readOnly := rfl

@[simp] theorem ok_decided : (decided code mode clientId name).ok = code.ok := rfl

@[simp] theorem ok_decidedOn : (s.decidedOn code mode clientId name).ok = code.ok := rfl

@[simp] theorem ok_decidedWith : (s.decidedWith code mode clientId name).ok = code.ok := rfl

/-- Only a port that does not exist refuses a read-only attach. -/
theorem get?_of_add_refused {username : String} (h : (addClientToPort name clientId username .readOnly s).2 = false) :
    (addClientToPort name clientId username .readOnly s).1.ports.get? name = none := by
  show (s.updatePort name _).ports.get? name = none
  rw [get?_updatePort, if_pos rfl]
  cases hp : s.ports.get? name with
  | none => rfl
  | some p => simp [addClientToPort, askPort, hp] at h

/-- Among distinct clients a writer has no other record. -/
theorem shows_readWrite (h : s.Seated) {p : Port} (hp : s.ports.get? name = some p) (hw : p.isReadWrite clientId) :
    s.Shows name clientId .readWrite := by
  intro q hq c hc hid
  rw [hp] at hq
  cases hq
  obtain ⟨d, hd, hdid, hm⟩ := Port.isReadWrite_iff.mp hw
  have hcd : c = d := List.inj_on_of_nodup_map (h name p hp).nodup hc hd (hid.trans hdid.symm)
  rw [hcd, hm]

theorem shows_of_absent {f : Port → Port} (h : s.askPort name (·.connectedClients.any (·.clientId = clientId)) = false)
    (hf : ∀ p : Port, ∀ c ∈ (f p).connectedClients, c.clientId = clientId → ∃ d ∈ p.connectedClients, d.clientId = clientId) :
    (s.updatePort name f).Shows name clientId mode := by
  refine shows_updatePort fun p hp c hc hid => ?_
  simp only [askPort, hp] at h
  obtain ⟨d, hd, hdid⟩ := hf p c hc hid
  rw [List.any_eq_true.mpr ⟨d, hd, by simpa using hdid⟩] at h
  cases h

/-! ## Runs -/

/-- A promote that is admitted is that of the port manager, and its decision reports the outcome. -/
theorem run_promote (hd : s.Driver name clientId) :
    ((promoteClientToReadWrite clientId name).run s).1 = (promoteClient name clientId s).1 ∧
    ((promoteClientToReadWrite clientId name).run s).2.ok = (promoteClient name clientId s).2 ∧
    ((promoteClientToReadWrite clientId name).run s).2.mode =
      if (promoteClient name clientId s).2 then .readWrite else .readOnly := by
  have hnone : ((s.ports.get? name).bind fun p => s.driveRefusal name p clientId) = none := by
    cases hp : s.ports.get? name with
    | none => rfl
    | some p => exact hd.2 p hp
  have hrun : (promoteClientToReadWrite clientId name).run s = (promoteChecked clientId name).run s := by
    simp [promoteClientToReadWrite, hd.1, hnone]
  rw [hrun]
  cases hok : (promoteClient name clientId s).2 with
  | true =>
      have hr : (promoteChecked clientId name).run s = ((promoteClient name clientId s).1,
          (promoteClient name clientId s).1.decidedOn .granted .readWrite clientId name) := by
        simp [promoteChecked, hok]
      rw [hr]
      exact ⟨rfl, rfl, rfl⟩
  | false =>
      have hr : (promoteChecked clientId name).run s = ((promoteClient name clientId s).1,
          (promoteClient name clientId s).1.seatRefusal clientId name) := by
        simp [promoteChecked, hok]
      rw [hr]
      exact ⟨rfl, ok_seatRefusal _ _ _, rfl⟩

theorem shows_run_promote (h : s.Seated) (hd : s.Driver name clientId) :
    ((promoteClientToReadWrite clientId name).run s).1.Shows name clientId
      ((promoteClientToReadWrite clientId name).run s).2.mode := by
  obtain ⟨hstate, -, hmode⟩ := run_promote hd
  rw [hstate, hmode]
  cases hok : (promoteClient name clientId s).2 with
  | true => exact shows_promote h hok
  | false => exact shows_promote_fail hok

/-- A promote that is refused leaves the state as it is, and reports read-only. -/
theorem run_promote_refused (hd : ¬ s.Driver name clientId) :
    ((promoteClientToReadWrite clientId name).run s).1 = s ∧
    ((promoteClientToReadWrite clientId name).run s).2.mode = .readOnly := by
  by_cases hmap : s.clientPortMap.get? clientId = some name
  · cases hrefusal : (s.ports.get? name).bind fun p => s.driveRefusal name p clientId with
    | none => exact absurd ⟨hmap, fun p hp => by simpa [hp] using hrefusal⟩ hd
    | some refusal =>
        have hr : (promoteClientToReadWrite clientId name).run s = (s, s.decidedWith refusal .readOnly clientId name) := by
          simp [promoteClientToReadWrite, hmap, hrefusal]
        rw [hr]
        exact ⟨rfl, rfl⟩
  · have hr : (promoteClientToReadWrite clientId name).run s = (s, decided .notAttached .readOnly clientId name) := by
      simp [promoteClientToReadWrite, hmap]
    rw [hr]
    exact ⟨rfl, rfl⟩

theorem reports_promote (h : s.Seated) :
    ((promoteClientToReadWrite clientId name).run s).1.Shows name clientId
      ((promoteClientToReadWrite clientId name).run s).2.mode ↔ s.Driver name clientId ∨ ¬ s.IsWriter name clientId := by
  by_cases hd : s.Driver name clientId
  · exact iff_of_true (shows_run_promote h hd) (.inl hd)
  · obtain ⟨hstate, hmode⟩ := run_promote_refused hd
    rw [hstate, hmode, shows_readOnly]
    exact ⟨.inr, fun h => h.resolve_left hd⟩

theorem run_demote (hmap : s.clientPortMap.get? clientId = some name) :
    ((demoteClientToReadOnly clientId name).run s).1 = (demoteClient name clientId s).1 ∧
    ((demoteClientToReadOnly clientId name).run s).2.ok = (demoteClient name clientId s).2 ∧
    ((demoteClientToReadOnly clientId name).run s).2.mode =
      if (demoteClient name clientId s).2 then .readOnly else .readWrite := by
  cases hok : (demoteClient name clientId s).2 with
  | true =>
      have hr : (demoteClientToReadOnly clientId name).run s = ((demoteClient name clientId s).1,
          (demoteClient name clientId s).1.decidedOn .released .readOnly clientId name) := by
        simp [demoteClientToReadOnly, hmap, hok]
      rw [hr]
      exact ⟨rfl, rfl, rfl⟩
  | false =>
      have hr : (demoteClientToReadOnly clientId name).run s = ((demoteClient name clientId s).1,
          (demoteClient name clientId s).1.decidedWith .demoteFailed .readWrite clientId name) := by
        simp [demoteClientToReadOnly, hmap, hok]
      rw [hr]
      exact ⟨rfl, rfl, rfl⟩

theorem run_demote_refused (hmap : s.clientPortMap.get? clientId ≠ some name) :
    (demoteClientToReadOnly clientId name).run s = (s, decided .notAttached .readWrite clientId name) := by
  simp [demoteClientToReadOnly, hmap]

theorem reports_demote (h : s.Seated) :
    ((demoteClientToReadOnly clientId name).run s).1.Shows name clientId
      ((demoteClientToReadOnly clientId name).run s).2.mode ↔
      s.clientPortMap.get? clientId = some name ∨ s.Shows name clientId .readWrite := by
  by_cases hmap : s.clientPortMap.get? clientId = some name
  · refine iff_of_true ?_ (.inl hmap)
    obtain ⟨hstate, -, hmode⟩ := run_demote hmap
    rw [hstate, hmode]
    cases hok : (demoteClient name clientId s).2 with
    | true => exact shows_demote h
    | false =>
        refine shows_of_absent hok fun p c hc hid => ?_
        rcases Port.mem_updateClient hc with hold | ⟨d, hd, hdid, rfl⟩
        · exact ⟨c, hold, hid⟩
        · exact ⟨d, hd, hdid⟩
  · rw [run_demote_refused hmap]
    exact ⟨.inr, fun h => h.resolve_left hmap⟩

/-! ## Attaching -/

/-- An entitlement to write carries no code. -/
theorem takerEntitled_code {policy : AccessPolicy} {lists : GroupLists} {permissions : Option String} {username : String}
    (h : (takerEntitled policy lists permissions username).grant = .write) :
    (takerEntitled policy lists permissions username).code = none := by
  unfold takerEntitled at h ⊢
  split
  · rfl
  · rename_i hadmin
    rw [if_neg hadmin] at h
    split
    · rename_i hlists
      rw [if_pos hlists] at h
      split
      · rfl
      · rename_i hrw
        rw [if_neg hrw] at h
        split at h <;> cases h
    · rename_i hlists
      rw [if_neg hlists] at h
      split
      · rename_i hdeny
        rw [if_pos hdeny] at h
        cases h
      · split <;> rfl

theorem run_attachClient (name clientId : Text) (username : String) (mode : Mode) (code : Code) (h : s.Seated) :
    ∃ r, (attachClientToPort name clientId username mode code).run s = r ∧
      (∀ m, r.2.1 = some m → r.1.Shows name clientId m) ∧ (r.2.1 = none → r.1.ports.get? name = none) := by
  refine ⟨_, rfl, ?_⟩
  cases hok : (addClientToPort name clientId username mode s).2 with
  | true =>
      have hr : (attachClientToPort name clientId username mode code).run s =
          ({ (addClientToPort name clientId username mode s).1 with
            clientPortMap := (addClientToPort name clientId username mode s).1.clientPortMap.set clientId name },
            (some mode, code)) := by
        simp [attachClientToPort, hok]
      rw [hr]
      refine ⟨fun m hm => ?_, fun hm => by cases hm⟩
      cases hm
      exact shows_add h hok
  | false =>
      cases mode with
      | readOnly =>
          have hr : (attachClientToPort name clientId username .readOnly code).run s =
              ((addClientToPort name clientId username .readOnly s).1, (none, .portUnavailable)) := by
            simp [attachClientToPort, hok]
          rw [hr]
          refine ⟨fun m hm => (by cases hm), fun _ => ?_⟩
          exact get?_of_add_refused hok
      | readWrite =>
          cases hro : (addClientToPort name clientId username .readOnly (addClientToPort name clientId username .readWrite s).1).2 with
          | true =>
              have hr : (attachClientToPort name clientId username .readWrite code).run s =
                  ({ (addClientToPort name clientId username .readOnly (addClientToPort name clientId username .readWrite s).1).1 with
                    clientPortMap := (addClientToPort name clientId username .readOnly
                      (addClientToPort name clientId username .readWrite s).1).1.clientPortMap.set clientId name },
                    (some .readOnly, .capacityFull)) := by
                simp [attachClientToPort, hok, hro]
              rw [hr]
              refine ⟨fun m hm => ?_, fun hm => by cases hm⟩
              cases hm
              exact shows_add (quiet_add.1 h) hro
          | false =>
              have hr : (attachClientToPort name clientId username .readWrite code).run s =
                  ((addClientToPort name clientId username .readOnly (addClientToPort name clientId username .readWrite s).1).1,
                    (none, .portUnavailable)) := by
                simp [attachClientToPort, hok, hro]
              rw [hr]
              exact ⟨fun m hm => (by cases hm), fun _ => get?_of_add_refused hro⟩

/-- The ladder grants an attach exactly when access control does not deny it. -/
theorem ok_resolveAccessMode {permissions username : String} :
    (s.resolveAccessMode name permissions username).2.ok = true ↔
      (s.entitlement name (some permissions) username).code = none := by
  unfold resolveAccessMode
  dsimp only
  split
  · rename_i hgrant
    refine iff_of_true ?_ (takerEntitled_code hgrant)
    unfold rwModeOrDemote
    split
    · rfl
    · dsimp only
      split <;> rfl
  · cases hcode : (s.entitlement name (some permissions) username).code with
    | none => exact iff_of_true rfl rfl
    | some c => simp

theorem reports_attachPhase (h : s.Seated) {username : String} :
    ((attachPhase clientId name username).run s).1.Shows name clientId ((attachPhase clientId name username).run s).2.mode ↔
      s.Admits name username ∨ ¬ s.IsWriter name clientId := by
  have hrefused {d : AccessDecision} (hr : (attachPhase clientId name username).run s = (s, d)) (hd : d.mode = .readOnly)
      (hno : ¬ s.Admits name username) : ((attachPhase clientId name username).run s).1.Shows name clientId
        ((attachPhase clientId name username).run s).2.mode ↔ s.Admits name username ∨ ¬ s.IsWriter name clientId := by
    rw [hr, hd, shows_readOnly]
    exact ⟨.inr, fun h => h.resolve_left hno⟩
  cases hperm : s.policy.getUserPermissions username with
  | none =>
      refine hrefused (d := decided .noPermissions .readOnly clientId name) (by simp [attachPhase, hperm]) rfl ?_
      rintro ⟨permissions, hp, -⟩
      rw [hperm] at hp
      cases hp
  | some permissions =>
      cases hok : (s.resolveAccessMode name permissions username).2.ok with
      | false =>
          refine hrefused (d := s.decidedOn (s.resolveAccessMode name permissions username).2 .readOnly clientId name)
            (by simp [attachPhase, hperm, hok]) rfl ?_
          rintro ⟨permissions', hp, hcode⟩
          rw [hperm] at hp
          cases hp
          rw [ok_resolveAccessMode.mpr hcode] at hok
          cases hok
      | true =>
          refine iff_of_true ?_ (.inl ⟨permissions, hperm, ok_resolveAccessMode.mp hok⟩)
          obtain ⟨r, hr, hshows, hgone⟩ := run_attachClient name clientId username
            (s.resolveAccessMode name permissions username).1 (s.resolveAccessMode name permissions username).2 h
          obtain ⟨t, attached, code⟩ := r
          cases attached with
          | none =>
              have hrun : (attachPhase clientId name username).run s =
                  (t, t.decidedWith .portUnavailable .readOnly clientId name) := by
                simp [attachPhase, hperm, hok, hr]
              rw [hrun]
              intro p hp
              rw [hgone rfl] at hp
              cases hp
          | some m =>
              have hrun : (attachPhase clientId name username).run s = (t, t.decidedWith code m clientId name) := by
                simp [attachPhase, hperm, hok, hr]
              rw [hrun]
              exact hshows m rfl

theorem run_disconnect (hmap : s.clientPortMap.get? clientId = some name) :
    (disconnectClientFromPort clientId name).run s =
      ({ (removeClientFromPort name clientId s).1 with clientPortMap := s.clientPortMap.pop clientId }, some true) := by
  have hmap' : (removeClientFromPort name clientId s).1.clientPortMap.get? clientId = some name := hmap
  cases hp : s.ports.get? name <;> simp [disconnectClientFromPort, hmap, hmap', hp] <;> rfl

theorem isWriter_congr {t : Console} (h : t.ports.get? name = s.ports.get? name) :
    t.IsWriter name clientId ↔ s.IsWriter name clientId := by
  unfold IsWriter
  rw [h]

theorem reports_connect (h : s.Seated) {username : String} {d : AccessDecision}
    (hd : ((connectClientToPort clientId name username).run s).2 = some d) :
    ((connectClientToPort clientId name username).run s).1.Shows name clientId d.mode ↔
      s.clientPortMap.get? clientId = some name ∨ s.Admits name username ∨ ¬ s.IsWriter name clientId := by
  cases hmap : s.clientPortMap.get? clientId with
  | none =>
      have hrun : (connectClientToPort clientId name username).run s =
          (((attachPhase clientId name username).run s).1, some ((attachPhase clientId name username).run s).2) := by
        simp [connectClientToPort, hmap]
      rw [hrun] at hd ⊢
      cases hd
      simpa using reports_attachPhase h
  | some old =>
      obtain ⟨t, ht, hports, hpolicy⟩ : ∃ t : Console, (disconnectClientFromPort clientId old).run s = (t, some true) ∧
          t.ports = (removeClientFromPort old clientId s).1.ports ∧ t.policy = s.policy := ⟨_, run_disconnect hmap, rfl, rfl⟩
      have hseated : t.Seated := fun name p hp => quiet_remove.1 h name p (hports ▸ hp)
      have hrun : (connectClientToPort clientId name username).run s =
          (((attachPhase clientId name username).run t).1, some ((attachPhase clientId name username).run t).2) := by
        simp [connectClientToPort, hmap, ht]
      rw [hrun] at hd ⊢
      cases hd
      have hadmits : t.Admits name username ↔ s.Admits name username := by
        simp only [Admits, entitlement, hpolicy]
      rw [reports_attachPhase hseated, hadmits]
      by_cases hold : old = name
      · subst hold
        have hgone : ¬ t.IsWriter old clientId := by
          rw [isWriter_congr (congrArg (Dict.get? · old) hports), ← shows_readOnly]
          exact shows_remove h
        exact iff_of_true (.inr hgone) (.inl rfl)
      · have hother : t.ports.get? name = s.ports.get? name := by
          rw [hports]
          show (s.updatePort old _).ports.get? name = _
          rw [get?_updatePort, if_neg (Ne.symm hold)]
        simp [isWriter_congr hother, hold]

/-! ## Takes -/

theorem recordUsername_demote {p : Port} {id : Text} : recordUsername (p.demoteClient id) clientId = recordUsername p clientId := by
  unfold recordUsername Port.demoteClient
  dsimp only
  induction p.connectedClients with
  | nil => rfl
  | cons c cs ih =>
      rw [Port.updateClient]
      split
      · by_cases hc : c.clientId = clientId <;> simp [hc]
      · by_cases hc : c.clientId = clientId
        · simp [hc]
        · simpa [hc] using ih

/-- Demoting another client leaves the standing of a client as it is. -/
theorem Driver.demote (h : s.Driver name clientId) (id : Text) : (demoteClient name id s).1.Driver name clientId := by
  refine ⟨h.1, fun p hp => ?_⟩
  have hport : (s.updatePort name (·.demoteClient id)).ports.get? name = some p := hp
  rw [get?_updatePort, if_pos rfl] at hport
  obtain ⟨q, hq, rfl⟩ := Option.map_eq_some_iff.mp hport
  have hd := h.2 q hq
  simp only [driveRefusal, takeWriteSlotPermissions, takerUsername, recordUsername_demote] at hd ⊢
  exact hd

/-- A takeover reports the mode of the taker unless its victim is not attached. -/
theorem reports_takeSlot (h : s.Seated) (hd : s.Driver name clientId) {p : Port} (hp : s.ports.get? name = some p)
    {victim : Client} (hv : victim ∈ p.connectedClients) (hne : victim.clientId ≠ clientId) :
    ((takeSlotLocal name clientId victim).run s).1.Shows name clientId ((takeSlotLocal name clientId victim).run s).2.mode ↔
      s.clientPortMap.get? victim.clientId = some name ∨ ¬ s.IsWriter name clientId := by
  by_cases hmap : s.clientPortMap.get? victim.clientId = some name
  · refine iff_of_true ?_ (.inl hmap)
    have hdone : (demoteClient name victim.clientId s).2 = true := by
      simp only [demoteClient, askPort, hp]
      exact List.any_eq_true.mpr ⟨victim, hv, by simp⟩
    obtain ⟨hstate, hok, -⟩ := run_demote hmap
    rw [hdone] at hok
    have hseated : (demoteClient name victim.clientId s).1.Seated := quiet_demote.1 h
    obtain ⟨hstate', hok', -⟩ := run_promote (hd.demote victim.clientId)
    cases hpromoted : (promoteClient name clientId (demoteClient name victim.clientId s).1).2 with
    | true =>
        rw [hpromoted] at hok'
        have hrun : ((takeSlotLocal name clientId victim).run s).1 =
              (promoteClient name clientId (demoteClient name victim.clientId s).1).1 ∧
            ((takeSlotLocal name clientId victim).run s).2.mode = .readWrite := by
          simp [takeSlotLocal, hok, hstate, hok', hstate']
        rw [hrun.1, hrun.2]
        exact shows_promote hseated hpromoted
    | false =>
        rw [hpromoted] at hok'
        have hrun : (takeSlotLocal name clientId victim).run s =
            ((promoteClient name victim.clientId (promoteClient name clientId (demoteClient name victim.clientId s).1).1).1,
              (promoteClient name victim.clientId (promoteClient name clientId (demoteClient name victim.clientId s).1).1).1.seatRefusal
                clientId name) := by
          simp [takeSlotLocal, hok, hstate, hok', hstate']
        rw [hrun, mode_seatRefusal, shows_readOnly]
        intro hw
        rcases isWriter_promote hw with hw | ⟨-, hid, -⟩
        · exact shows_readOnly.mp (shows_promote_fail hpromoted) hw
        · exact hne hid.symm
  · have hrun : (takeSlotLocal name clientId victim).run s = (s, decided .victimNotCurrent .readOnly clientId name) := by
      simp [takeSlotLocal, run_demote_refused hmap, Code.ok, Code.kind]
    rw [hrun, mode_decided, shows_readOnly]
    exact ⟨.inr, fun h => h.resolve_left hmap⟩

theorem resolveTakeTarget_error {p : Port} {target : Option Text} {reason : Code}
    (h : resolveTakeTarget p clientId target = .error reason) : target = none → reason = .noHolder := by
  rintro rfl
  unfold resolveTakeTarget at h
  dsimp only at h
  split at h
  · cases h; rfl
  · simp_all
  · split at h <;> cases h
    rfl

/-- Who can take the slot of a port. -/
theorem takeable_iff (hd : s.Driver name clientId) {p : Port} (hp : s.ports.get? name = some p) {target : Option Text} :
    s.Takeable name clientId target ↔ match p.maxReadWriteUsers with
      | .none => False
      | .multiple => True
      | .one => match resolveTakeTarget p clientId target with
        | .ok victim => s.clientPortMap.get? victim.clientId = some name
        | .error _ => target = none := by
  refine ⟨fun ht => ht.2 p hp, fun ht => ⟨hd, fun q hq => ?_⟩⟩
  rw [hp] at hq
  cases hq
  exact ht

theorem reports_takeLocal (h : s.Seated) (hd : s.Driver name clientId) {p : Port} (hp : s.ports.get? name = some p)
    {target : Option Text} :
    ((takeWriteSlotLocal clientId name target p).run s).1.Shows name clientId
      ((takeWriteSlotLocal clientId name target p).run s).2.mode ↔
      s.Takeable name clientId target ∨ ¬ s.IsWriter name clientId := by
  have htakeable : s.Takeable name clientId target ↔ _ := takeable_iff hd hp
  have hwriter : s.IsWriter name clientId ↔ p.isReadWrite clientId := by
    simp [IsWriter, hp]
  -- A refusal that changes nothing reports read-only.
  have hrefused {d : AccessDecision} (hrun : (takeWriteSlotLocal clientId name target p).run s = (s, d))
      (hm : d.mode = .readOnly) (hno : ¬ s.Takeable name clientId target) :
      ((takeWriteSlotLocal clientId name target p).run s).1.Shows name clientId
        ((takeWriteSlotLocal clientId name target p).run s).2.mode ↔
        s.Takeable name clientId target ∨ ¬ s.IsWriter name clientId := by
    rw [hrun, hm, shows_readOnly]
    exact ⟨.inr, fun h => h.resolve_left hno⟩
  cases hmode : p.maxReadWriteUsers with
  | none =>
      rw [hmode] at htakeable
      exact hrefused (d := s.seatRefusal clientId name) (by simp [takeWriteSlotLocal, hmode]) rfl htakeable.mp
  | multiple =>
      rw [hmode] at htakeable
      refine iff_of_true ?_ (.inl (htakeable.mpr trivial))
      by_cases hw : p.isReadWrite clientId = true
      · have hrun : (takeWriteSlotLocal clientId name target p).run s =
            (s, s.decidedOn .alreadyRw .readWrite clientId name) := by simp [takeWriteSlotLocal, hmode, hw]
        rw [hrun]
        exact shows_readWrite h hp hw
      · have hrun : (takeWriteSlotLocal clientId name target p).run s = (s, s.seatRefusal clientId name) := by
          simp [takeWriteSlotLocal, hmode, hw]
        rw [hrun]
        exact shows_readOnly.mpr (hwriter.not.mpr hw)
  | one =>
      rw [hmode] at htakeable
      cases hres : resolveTakeTarget p clientId target with
      | ok victim =>
          simp only [hres] at htakeable
          obtain ⟨hmem, -, hne⟩ := resolveTakeTarget_mem hres
          have hrun : (takeWriteSlotLocal clientId name target p).run s = (takeSlotLocal name clientId victim).run s := by
            simp [takeWriteSlotLocal, hmode, hres]
          rw [hrun, htakeable]
          exact reports_takeSlot h hd hp hmem hne
      | error reason =>
          simp only [hres] at htakeable
          cases target with
          | some t =>
              exact hrefused (d := s.decidedWith reason .readOnly clientId name)
                (by simp [takeWriteSlotLocal, hmode, hres]) rfl (fun ht => by cases htakeable.mp ht)
          | none =>
              refine iff_of_true ?_ (.inl (htakeable.mpr rfl))
              have hreason := resolveTakeTarget_error hres rfl
              subst hreason
              by_cases hw : p.isReadWrite clientId = true
              · have hrun : (takeWriteSlotLocal clientId name none p).run s =
                    (s, s.decidedOn .alreadyRw .readWrite clientId name) := by simp [takeWriteSlotLocal, hmode, hres, hw]
                rw [hrun]
                exact shows_readWrite h hp hw
              · obtain ⟨hstate, hok, -⟩ := run_promote hd
                cases hpromoted : (promoteClient name clientId s).2 with
                | true =>
                    rw [hpromoted] at hok
                    have hrun : (takeWriteSlotLocal clientId name none p).run s = ((promoteClient name clientId s).1,
                        (promoteClient name clientId s).1.decidedOn .granted .readWrite clientId name) := by
                      simp [takeWriteSlotLocal, hmode, hres, hw, hok, hstate]
                    rw [hrun]
                    exact shows_promote h hpromoted
                | false =>
                    rw [hpromoted] at hok
                    have hrun : (takeWriteSlotLocal clientId name none p).run s = ((promoteClient name clientId s).1,
                        (promoteClient name clientId s).1.seatRefusal clientId name) := by
                      simp [takeWriteSlotLocal, hmode, hres, hw, hok, hstate]
                    rw [hrun]
                    exact shows_promote_fail hpromoted

theorem reports_take (h : s.Seated) {target : Option Text} :
    ((takeWriteSlot clientId name target).run s).1.Shows name clientId ((takeWriteSlot clientId name target).run s).2.mode ↔
      s.Takeable name clientId target ∨ ¬ s.IsWriter name clientId := by
  have hrefused {d : AccessDecision} (hrun : (takeWriteSlot clientId name target).run s = (s, d))
      (hm : d.mode = .readOnly) (hno : ¬ s.Driver name clientId) :
      ((takeWriteSlot clientId name target).run s).1.Shows name clientId
        ((takeWriteSlot clientId name target).run s).2.mode ↔
        s.Takeable name clientId target ∨ ¬ s.IsWriter name clientId := by
    rw [hrun, hm, shows_readOnly]
    exact ⟨.inr, fun h => h.resolve_left fun ht => hno ht.1⟩
  by_cases hmap : s.clientPortMap.get? clientId = some name
  · cases hp : s.ports.get? name with
    | none =>
        have hrun : (takeWriteSlot clientId name target).run s = (s, decided .portMissing .readOnly clientId name) := by
          simp [takeWriteSlot, hmap, hp]
        have hno : ¬ s.IsWriter name clientId := by simp [IsWriter, hp]
        rw [hrun]
        exact iff_of_true (shows_readOnly.mpr hno) (.inr hno)
    | some p =>
        cases hcreds : s.takeWriteSlotPermissions p clientId with
        | none =>
            refine hrefused (d := decided .notEntitled .readOnly clientId name) (by simp [takeWriteSlot, hmap, hp, hcreds]) rfl
              fun hd => ?_
            have := hd.2 p hp
            simp [driveRefusal, hcreds] at this
        | some permissions =>
            cases hrefusal : s.driveRefusal name p clientId with
            | some refusal =>
                refine hrefused (d := s.decidedWith refusal .readOnly clientId name)
                  (by simp [takeWriteSlot, hmap, hp, hcreds, hrefusal]) rfl fun hd => ?_
                rw [hd.2 p hp] at hrefusal
                cases hrefusal
            | none =>
                have hd : s.Driver name clientId := ⟨hmap, fun q hq => by rw [hp] at hq; cases hq; exact hrefusal⟩
                have hrun : (takeWriteSlot clientId name target).run s = (takeWriteSlotLocal clientId name target p).run s := by
                  simp [takeWriteSlot, hmap, hp, hcreds, hrefusal]
                rw [hrun]
                exact reports_takeLocal h hd hp
  · exact hrefused (d := decided .notAttached .readOnly clientId name) (by simp [takeWriteSlot, hmap]) rfl
      fun hd => hmap hd.1

end Console

end OpenMux.Access
