import OpenMux.Access.Grants
import OpenMux.Access.Lemmas.Interleavings
import OpenMux.Origin.Lemmas.Sessions

/-!
# Who becomes a writer

A segment makes a writer only of the client that asks, whose account the ladder admits at the start of the segment, or of the
victim of a takeover that fails. The mirrors of peers are the arbiter's own.
-/

namespace OpenMux.Origin.Port

open Py Federation Access

variable {p : Port} {id id' : Text} {c : Client}

theorem isReadWrite_iff : p.isReadWrite id ↔ ∃ c ∈ p.connectedClients, c.clientId = id ∧ c.mode = .readWrite := by
  simp [isReadWrite]

theorem isReadWrite_demote (h : (p.demoteClient id).isReadWrite id') : p.isReadWrite id' := by
  obtain ⟨c, hc, hid, hm⟩ := isReadWrite_iff.mp h
  rcases mem_updateClient hc with hc | ⟨d, _, _, rfl⟩
  · exact isReadWrite_iff.mpr ⟨c, hc, hid, hm⟩
  · cases hm

theorem isReadWrite_remove (h : (p.removeClient id).isReadWrite id') : p.isReadWrite id' := by
  obtain ⟨c, hc, hid, hm⟩ := isReadWrite_iff.mp h
  exact isReadWrite_iff.mpr ⟨c, List.mem_of_mem_eraseP hc, hid, hm⟩

/-- A promote makes a writer of a client with a record only, and then it succeeds. -/
theorem isReadWrite_promote (h : (p.promoteClient id).1.isReadWrite id') :
    p.isReadWrite id' ∨ id' = id ∧ (p.promoteClient id).2 = true := by
  unfold promoteClient at h ⊢
  split at h
  · exact .inl h
  · rename_i hfull
    rw [if_neg hfull]
    obtain ⟨c, hc, hid, hm⟩ := isReadWrite_iff.mp h
    rcases mem_updateClient hc with hc | ⟨d, hd, he, rfl⟩
    · exact .inl (isReadWrite_iff.mpr ⟨c, hc, hid, hm⟩)
    · exact .inr ⟨hid.symm.trans he, List.any_eq_true.mpr ⟨d, hd, by simpa using he⟩⟩

theorem isReadWrite_add (h : (p.addClient c).isReadWrite id') :
    p.isReadWrite id' ∨ id' = c.clientId ∧ c.mode = .readWrite ∧ c ∈ (p.addClient c).connectedClients := by
  obtain ⟨d, hd, hid, hm⟩ := isReadWrite_iff.mp h
  rcases mem_addClient hd with hold | rfl
  · exact .inl (isReadWrite_iff.mpr ⟨d, hold, hid, hm⟩)
  · exact .inr ⟨hid.symm, hm, hd⟩

/-- The record that a promote changes is the one whose account is looked up. -/
theorem promoted_record (hp : (p.promoteClient id).2 = true) :
    ∃ c ∈ (p.promoteClient id).1.connectedClients, c.clientId = id ∧ c.mode = .readWrite ∧
      c.username = Console.recordUsername p id := by
  unfold promoteClient at hp ⊢
  split at hp
  · cases hp
  · rename_i hfull
    rw [if_neg hfull]
    unfold Console.recordUsername
    generalize p.connectedClients = cs at hp
    induction cs with
    | nil => cases hp
    | cons c cs ih =>
        by_cases hc : c.clientId = id
        · refine ⟨{ c with mode := .readWrite }, ?_, hc, rfl, by simp [hc]⟩
          simp only [updateClient, hc, ↓reduceIte]
          exact List.mem_cons_self
        · obtain ⟨d, hd, hrest⟩ := ih (by simpa [hc] using hp)
          refine ⟨d, ?_, by simpa [hc] using hrest⟩
          simp only [updateClient, hc, ↓reduceIte]
          exact List.mem_cons_of_mem _ hd

end OpenMux.Origin.Port

namespace OpenMux.Access

open Py Federation Origin Coro

theorem latestClient_mem {cs : List Client} {c : Client} (h : latestClient cs = some c) : c ∈ cs := by
  induction cs generalizing c with
  | nil => cases h
  | cons d cs ih =>
      rw [latestClient] at h
      split at h
      · rename_i e he
        split at h
        · cases h; exact List.mem_cons_of_mem _ (ih he)
        · cases h; exact List.mem_cons_self
      · cases h; exact List.mem_cons_self

theorem matchTakeTarget_mem {cs : List Client} {target : Text} {c : Client} (h : matchTakeTarget cs target = some c) :
    c ∈ cs := by
  unfold matchTakeTarget at h
  split at h
  · rename_i d hd
    cases h
    exact List.mem_of_find?_eq_some hd
  · split at h
    · rename_i d hd
      cases h
      exact (List.mem_filter.mp (hd ▸ List.mem_singleton_self _)).1
    · cases h

namespace Console

variable {s s' t : Console} {name name' clientId id : Text} {f : Port → Port}

theorem get?_updatePort : (s.updatePort name f).ports.get? name' =
    if name' = name then (s.ports.get? name').map f else s.ports.get? name' := by
  unfold updatePort
  cases hp : s.ports.get? name with
  | none => by_cases hn : name' = name <;> simp [hn, hp]
  | some p => by_cases hn : name' = name <;> simp [Dict.get?_set, hn, hp]

/-- No client becomes a writer. -/
def NoGrant (s s' : Console) : Prop := ∀ name clientId, s'.IsWriter name clientId → s.IsWriter name clientId

theorem NoGrant.refl (s : Console) : s.NoGrant s := fun _ _ h => h

theorem NoGrant.trans {s'' : Console} (h : s.NoGrant s') (h' : s'.NoGrant s'') : s.NoGrant s'' :=
  fun name clientId hw => h name clientId (h' name clientId hw)

theorem NoGrant.of_eq (hp : s'.ports = s.ports) : s.NoGrant s' := by
  rintro name clientId ⟨p, hport, hw⟩
  exact ⟨p, hp ▸ hport, hw⟩

theorem isWriter_updatePort (h : (s.updatePort name f).IsWriter name' clientId) :
    s.IsWriter name' clientId ∨ name' = name ∧ ∃ p, s.ports.get? name = some p ∧ (f p).isReadWrite clientId := by
  obtain ⟨p, hp, hw⟩ := h
  rw [get?_updatePort] at hp
  split at hp
  · rename_i hn
    obtain ⟨q, hq, rfl⟩ := Option.map_eq_some_iff.mp hp
    exact .inr ⟨hn, q, hn ▸ hq, hw⟩
  · exact .inl ⟨p, hp, hw⟩

theorem noGrant_updatePort (hf : ∀ p : Port, ∀ id, (f p).isReadWrite id → p.isReadWrite id) :
    s.NoGrant (s.updatePort name f) := by
  intro name' clientId hw
  rcases isWriter_updatePort hw with hw | ⟨rfl, p, hp, hw⟩
  · exact hw
  · exact ⟨p, hp, hf p _ hw⟩

theorem noGrant_remove : s.NoGrant (removeClientFromPort name clientId s).1 :=
  noGrant_updatePort fun _ _ => Port.isReadWrite_remove

theorem noGrant_demote : s.NoGrant (demoteClient name clientId s).1 :=
  noGrant_updatePort fun _ _ => Port.isReadWrite_demote

/-- A promote makes a writer of its own client only, and then it succeeds. -/
theorem isWriter_promote (h : (promoteClient name clientId s).1.IsWriter name' id) :
    s.IsWriter name' id ∨ name' = name ∧ id = clientId ∧ (promoteClient name clientId s).2 = true := by
  rcases isWriter_updatePort h with hw | ⟨rfl, p, hp, hw⟩
  · exact .inl hw
  · rcases Port.isReadWrite_promote hw with hw | ⟨rfl, hok⟩
    · exact .inl ⟨p, hp, hw⟩
    · exact .inr ⟨rfl, rfl, by simp [promoteClient, askPort, hp, hok]⟩

theorem noGrant_promote (h : (promoteClient name clientId s).2 = false) : s.NoGrant (promoteClient name clientId s).1 := by
  intro name' id hw
  rcases isWriter_promote hw with hw | ⟨_, _, hok⟩
  · exact hw
  · rw [h] at hok; cases hok

/-- An attach makes a writer of its own client only, under the account that it gives. -/
theorem isWriter_add {username : String} {mode : Mode}
    (h : (addClientToPort name clientId username mode s).1.IsWriter name' id) :
    s.IsWriter name' id ∨ name' = name ∧ id = clientId ∧ mode = .readWrite ∧
      ∃ p c, (addClientToPort name clientId username mode s).1.ports.get? name = some p ∧ c ∈ p.connectedClients ∧
        c.clientId = clientId ∧ c.mode = .readWrite ∧ c.username = username := by
  rcases isWriter_updatePort h with hw | ⟨rfl, p, hp, hw⟩
  · exact .inl hw
  · rcases Port.isReadWrite_add hw with hw | ⟨rfl, hm, hc⟩
    · exact .inl ⟨p, hp, hw⟩
    · refine .inr ⟨rfl, rfl, hm, _, _, ?_, hc, rfl, hm, rfl⟩
      show (s.updatePort name' _).ports.get? name' = _
      rw [get?_updatePort, if_pos rfl, hp]
      rfl

theorem noGrant_add {username : String} : s.NoGrant (addClientToPort name clientId username .readOnly s).1 := by
  intro name' id hw
  rcases isWriter_add hw with hw | ⟨_, _, hm, _⟩
  · exact hw
  · cases hm

/-- An attach that is refused leaves every record as it is. -/
theorem noGrant_refused {username : String} {mode : Mode} (h : (addClientToPort name clientId username mode s).2 = false) :
    s.NoGrant (addClientToPort name clientId username mode s).1 := by
  intro name' id hw
  rcases isWriter_updatePort hw with hw | ⟨rfl, p, hp, hw⟩
  · exact hw
  · simp only [addClientToPort, askPort, hp, Bool.not_eq_false', Bool.and_eq_true, decide_eq_true_eq] at h
    rw [Port.addClient, if_pos h] at hw
    exact ⟨p, hp, hw⟩

@[simp] theorem ok_seatRefusal (s : Console) (clientId name : Text) : (s.seatRefusal clientId name).ok = false := by
  unfold seatRefusal AccessDecision.ok decidedWith decidedOn decided
  dsimp only
  split <;> rfl

/-- A client that is not refused may drive the port under the account of its record. -/
theorem mayDrive_of_no_refusal {p : Port} (h : s.driveRefusal name p clientId = none) :
    s.MayDrive name clientId (recordUsername p clientId) := by
  unfold driveRefusal at h
  split at h
  · cases h
  · rename_i permissions hperm
    dsimp only at h
    split at h
    · rename_i hgrant
      unfold takerUsername at hgrant
      unfold takeWriteSlotPermissions at hperm
      dsimp only at hperm
      split at hperm
      · rename_i q hq
        cases hperm
        split at hq
        · cases hq
        · rename_i hu
          rw [if_neg hu] at hgrant
          exact .inl ⟨permissions, hq, hgrant⟩
      · rename_i hq
        refine .inr ⟨?_, permissions, hperm, hgrant⟩
        split at hq
        · exact .inl ‹_›
        · exact .inr hq
    · cases h

/-! ## Segments -/

/-- A segment that grants nothing. -/
def Calm (s s' : Console) : Prop := s'.Seated ∧ s.NoGrant s'

theorem Calm.of_eq (h : s.Seated) (hp : s'.ports = s.ports) (hw : s'.written = s.written) : s.Calm s' :=
  ⟨(Quiet.of_eq hp hw).1 h, .of_eq hp⟩

/-- A segment that grants at most the slot to a client that may drive the port. -/
def Grants (clientId : Text) (s s' : Console) : Prop :=
  s'.Seated ∧ ∀ name id, s'.IsWriter name id → s.IsWriter name id ∨ id = clientId ∧ s.Entitled s' name id

theorem Calm.grants (h : s.Calm s') : Grants clientId s s' := ⟨h.1, fun name id hw => .inl (h.2 name id hw)⟩

theorem Grants.of_eq {t' : Console} (h : Grants clientId s t) (hp : t'.ports = t.ports) (hw : t'.written = t.written) :
    Grants clientId s t' := by
  refine ⟨(Quiet.of_eq hp hw).1 h.1, fun name id hwriter => ?_⟩
  rcases h.2 name id (NoGrant.of_eq hp _ _ hwriter) with hold | ⟨he, p, c, hport, hrest⟩
  · exact .inl hold
  · exact .inr ⟨he, p, c, hp ▸ hport, hrest⟩

section Segments

variable {G : Console → Console → Prop} {s₀ : Console}

theorem safe_disconnect {Q : Console → Console → Option Bool → Prop} (hG : ∀ t₀ t, t₀.Calm t → G t₀ t)
    (hraised : ∀ t₀ t, t₀.Calm t → Q t₀ t none) (hdone : ∀ t b, t.Seated → Q t t (some b)) (h : s.Seated) :
    (disconnectClientFromPort clientId name).Safe Seated G Q s s := by
  have hpop {t₀ t : Console} (ht : t₀.Calm t) : (do
      let s ← Coro.get
      if (s.clientPortMap.get? clientId).isNone then
        return none
      else
        Coro.modify fun s => { s with clientPortMap := s.clientPortMap.pop clientId }
        Coro.yield
        return some true : Coro Console (Option Bool)).Safe Seated G Q t₀ t := by
    simp only [safe_bind, safe_get]
    split
    · exact hraised t₀ t ht
    · simp only [safe_bind, safe_modify, safe_yield, safe_pure]
      exact ⟨hG _ _ ht, fun u hu => hdone u true hu⟩
  unfold disconnectClientFromPort
  simp only [safe_bind, safe_get]
  split
  · exact hdone s false h
  · have hremove : s.Calm (removeClientFromPort name clientId s).1 := ⟨quiet_remove.1 h, noGrant_remove⟩
    simp only [safe_bind, safe_lift]
    split
    · simp only [safe_bind, safe_yield]
      exact ⟨hG _ _ hremove, fun u hu => hpop ⟨hu, .refl u⟩⟩
    · exact hpop hremove

theorem safe_attachClient {username : String} {mode : Mode} {code : Code} {Q : Console → Console → Option Mode × Code → Prop}
    (hQ : ∀ t r, Grants clientId s t → Q s t r) (hmay : mode = .readWrite → s.MayDrive name clientId username)
    (h : s.Seated) : (attachClientToPort name clientId username mode code).Safe Seated G Q s s := by
  have hadd : Grants clientId s (addClientToPort name clientId username mode s).1 := by
    refine ⟨quiet_add.1 h, fun name' id hw => ?_⟩
    rcases isWriter_add hw with hw | ⟨rfl, rfl, hm, p, c, hp, hc, hid, hmode, huser⟩
    · exact .inl hw
    · exact .inr ⟨rfl, p, c, hp, hc, hid, hmode, huser ▸ hmay hm⟩
  unfold attachClientToPort
  simp only [safe_bind, safe_lift]
  split
  · simp only [safe_bind, safe_modify, safe_pure]
    exact hQ _ _ (hadd.of_eq rfl rfl)
  · rename_i hfull
    split
    · rename_i hm
      subst hm
      have hrefused : s.NoGrant (addClientToPort name clientId username .readWrite s).1 :=
        noGrant_refused (by simpa using hfull)
      have hfallback : s.Calm (addClientToPort name clientId username .readOnly
          (addClientToPort name clientId username .readWrite s).1).1 :=
        ⟨quiet_add.1 (quiet_add.1 h), hrefused.trans noGrant_add⟩
      simp only [safe_bind, safe_lift]
      split
      · simp only [safe_bind, safe_modify, safe_pure]
        exact hQ _ _ (hfallback.grants.of_eq rfl rfl)
      · exact hQ _ _ hfallback.grants
    · exact hQ _ _ hadd

theorem safe_attachPhase {username : String} {Q : Console → Console → AccessDecision → Prop}
    (hG : ∀ t₀ t, Grants clientId t₀ t → G t₀ t) (hQ : ∀ t₀ t r, Grants clientId t₀ t → Q t₀ t r) (h : s.Seated) :
    (attachPhase clientId name username).Safe Seated G Q s s := by
  have hsame {t : Console} (ht : t.Seated) : Grants clientId t t := Calm.grants ⟨ht, .refl t⟩
  unfold attachPhase
  simp only [safe_bind, safe_get]
  split
  · exact hQ _ _ _ (hsame h)
  · rename_i permissions hperm
    split
    · rename_i hok
      simp only [safe_bind]
      refine safe_attachClient (fun t r ht => ?_) (fun hm => ?_) h
      · split
        · exact hQ _ _ _ ht
        · simp only [safe_bind, safe_yield, safe_get]
          exact ⟨hG _ _ ht, fun u hu => hQ _ _ _ (hsame hu)⟩
      · refine .inl ⟨permissions, hperm, ?_⟩
        unfold resolveAccessMode at hm
        dsimp only at hm
        split at hm
        · assumption
        · cases hm
    · exact hQ _ _ _ (hsame h)

theorem safe_connect {username : String} {Q : Console → Console → Option AccessDecision → Prop}
    (hG : ∀ t₀ t, Grants clientId t₀ t → G t₀ t) (hQ : ∀ t₀ t r, Grants clientId t₀ t → Q t₀ t r) (h : s.Seated) :
    (connectClientToPort clientId name username).Safe Seated G Q s s := by
  unfold connectClientToPort
  simp only [safe_bind, safe_get]
  split
  · simp only [safe_map]
    exact safe_attachPhase hG (fun t₀ t r ht => hQ t₀ t _ ht) h
  · simp only [safe_bind]
    refine safe_disconnect (fun t₀ t ht => hG _ _ ht.grants) (fun t₀ t ht => hQ _ _ _ ht.grants) (fun t b ht => ?_) h
    simp only [safe_map]
    exact safe_attachPhase hG (fun t₀ t r ht => hQ t₀ t _ ht) ht

/-- A promote grants in the segment that checks, and reports a failure in a segment that granted nothing. -/
theorem safe_promote {Q : Console → Console → AccessDecision → Prop} (hG : ∀ t₀ t, Grants clientId t₀ t → G t₀ t)
    (hok : ∀ t d, t.Seated → Q t t d) (hfail : ∀ t₀ t d, t₀.Calm t → d.ok = false → Q t₀ t d) (h : s.Seated) :
    (promoteClientToReadWrite clientId name).Safe Seated G Q s s := by
  unfold promoteClientToReadWrite
  simp only [safe_bind, safe_get]
  split
  · exact hfail _ _ _ ⟨h, .refl s⟩ rfl
  · split
    · exact hok _ _ h
    · rename_i hmay
      unfold promoteChecked
      simp only [safe_bind, safe_lift]
      split
      · rename_i hdone
        simp only [safe_bind, safe_yield, safe_get]
        refine ⟨hG _ _ ⟨quiet_promote.1 h, fun name' id hw => ?_⟩, fun u hu => hok _ _ hu⟩
        rcases isWriter_promote hw with hw | ⟨rfl, rfl, -⟩
        · exact .inl hw
        · refine .inr ⟨rfl, ?_⟩
          cases hp : s.ports.get? name' with
          | none => simp [promoteClient, askPort, hp] at hdone
          | some p =>
              rw [hp] at hmay
              have hrecord : (p.promoteClient id).2 = true := by simpa [promoteClient, askPort, hp] using hdone
              obtain ⟨c, hc, hid, hm, huser⟩ := Port.promoted_record hrecord
              refine ⟨_, c, ?_, hc, hid, hm, huser ▸ mayDrive_of_no_refusal hmay⟩
              show (s.updatePort name' _).ports.get? name' = _
              rw [get?_updatePort, if_pos rfl, hp]
              rfl
      · rename_i hfull
        exact hfail _ _ _ ⟨quiet_promote.1 h, noGrant_promote (by simpa using hfull)⟩ (ok_seatRefusal _ _ _)

/-- A demote that succeeds returns at the start of a segment. -/
theorem safe_demote {Q : Console → Console → AccessDecision → Prop} (hG : ∀ t₀ t, t₀.Calm t → G t₀ t)
    (hok : ∀ t d, t.Seated → Q t t d) (hfail : ∀ t₀ t d, t₀.Calm t → d.ok = false → Q t₀ t d) (h : s.Seated) :
    (demoteClientToReadOnly clientId name).Safe Seated G Q s s := by
  have hdemote : s.Calm (demoteClient name clientId s).1 := ⟨quiet_demote.1 h, noGrant_demote⟩
  unfold demoteClientToReadOnly
  simp only [safe_bind, safe_get]
  split
  · exact hok _ _ h
  · simp only [safe_bind, safe_lift]
    split
    · simp only [safe_bind, safe_yield, safe_get]
      exact ⟨hG _ _ hdemote, fun u hu => hok _ _ hu⟩
    · exact hfail _ _ _ hdemote rfl

/-- A segment that gives the slot back to a client. -/
def Restores (name clientId : Text) (s s' : Console) : Prop :=
  s'.Seated ∧ ∀ name' id, s'.IsWriter name' id → s.IsWriter name' id ∨ name' = name ∧ id = clientId

theorem Calm.restore (h : s₀.Calm s) : Restores name clientId s₀ (promoteClient name clientId s).1 := by
  refine ⟨quiet_promote.1 h.1, fun name' id hw => ?_⟩
  rcases isWriter_promote hw with hw | ⟨hn, hid, -⟩
  · exact .inl (h.2 _ _ hw)
  · exact .inr ⟨hn, hid⟩

/-- A takeover grants to the taker, or gives the slot back to its victim and reports a failure. -/
theorem safe_takeSlot {victim : Client} {Q : Console → Console → AccessDecision → Prop}
    (hG : ∀ t₀ t, Grants clientId t₀ t → G t₀ t) (hQ : ∀ t₀ t d, Grants clientId t₀ t → Q t₀ t d)
    (hrestore : ∀ t₀ t d, Restores name victim.clientId t₀ t → d.ok = false → Q t₀ t d) (h : s.Seated) :
    (takeSlotLocal name clientId victim).Safe Seated G Q s s := by
  have hsame {t : Console} (ht : t.Seated) : t.Calm t := ⟨ht, .refl t⟩
  unfold takeSlotLocal
  simp only [safe_bind, safe_get]
  refine safe_demote (fun _ _ ht => hG _ _ ht.grants) (fun t d ht => ?_) (fun t₀ t d ht hd => ?_) h
  · split
    · simp only [safe_bind]
      refine safe_promote hG (fun u e hu => ?_) (fun u₀ u e hu he => ?_) ht
      · split
        · simp only [safe_bind, safe_yield, safe_get]
          exact ⟨hG _ _ (hsame hu).grants, fun v hv => hQ _ _ _ (hsame hv).grants⟩
        · simp only [safe_bind, safe_lift, safe_get]
          exact hrestore _ _ _ (hsame hu).restore (ok_seatRefusal _ _ _)
      · simp only [he, Bool.false_eq_true, ↓reduceIte, safe_bind, safe_lift, safe_get]
        exact hrestore _ _ _ hu.restore (ok_seatRefusal _ _ _)
    · exact hQ _ _ _ (hsame ht).grants
  · simp only [hd, Bool.false_eq_true, ↓reduceIte]
    exact hQ _ _ _ ht.grants

/-- The victim of a takeover is a writer. -/
theorem resolveTakeTarget_mem {p : Port} {target : Option Text} {victim : Client}
    (h : resolveTakeTarget p clientId target = .ok victim) :
    victim ∈ p.connectedClients ∧ victim.mode = .readWrite ∧ victim.clientId ≠ clientId := by
  have hfilter : victim ∈ p.connectedClients.filter fun c => c.mode = .readWrite ∧ c.clientId ≠ clientId := by
    unfold resolveTakeTarget at h
    dsimp only at h
    split at h
    · cases h
    · rename_i c cs t hcs
      rw [hcs]
      split at h
      · rename_i d hd
        cases h
        exact matchTakeTarget_mem hd
      · cases h
    · rename_i c cs hcs
      rw [hcs]
      split at h
      · rename_i d hd
        cases h
        exact latestClient_mem hd
      · cases h
  simpa using hfilter

theorem safe_take {target : Option Text} {Q : Console → Console → AccessDecision → Prop}
    (hG : ∀ t₀ t, Grants clientId t₀ t → G t₀ t) (hQ : ∀ t₀ t d, Grants clientId t₀ t → Q t₀ t d)
    (hrestore : ∀ victim t₀ t d, s.IsWriter name victim → Restores name victim t₀ t → d.ok = false → Q t₀ t d)
    (h : s.Seated) : (takeWriteSlot clientId name target).Safe Seated G Q s s := by
  have hsame {t : Console} (ht : t.Seated) : t.Calm t := ⟨ht, .refl t⟩
  have hstay {t : Console} (ht : t.Seated) (d : AccessDecision) : Q t t d := hQ _ _ _ (hsame ht).grants
  unfold takeWriteSlot
  simp only [safe_bind, safe_get]
  split
  · exact hstay h _
  · split
    · exact hstay h _
    · rename_i p hp
      split
      · exact hstay h _
      · split
        · exact hstay h _
        · unfold takeWriteSlotLocal
          simp only [safe_bind, safe_get]
          split
          · split <;> exact hstay h _
          · exact hstay h _
          · split
            · rename_i victim hv
              obtain ⟨hmem, hm, -⟩ := resolveTakeTarget_mem hv
              have hwriter : s.IsWriter name victim.clientId :=
                ⟨p, hp, Port.isReadWrite_iff.mpr ⟨victim, hmem, rfl, hm⟩⟩
              exact safe_takeSlot hG hQ (fun t₀ t d ht hd => hrestore _ _ _ _ hwriter ht hd) h
            · split
              · exact hstay h _
              · split
                · exact hstay h _
                · simp only [safe_bind]
                  refine safe_promote hG (fun t d ht => ?_) (fun t₀ t d ht _ => ?_) h
                  · simp only [safe_get]
                    split <;> exact hstay ht _
                  · simp only [safe_get]
                    split <;> exact hQ _ _ _ ht.grants

/-! ## The arbiter -/

/-- A segment that grants at most to the mirror of the slot. -/
def MirrorGrants (slot : Slot) (s s' : Console) : Prop :=
  s'.Seated ∧ ∀ name id, s'.IsWriter name id → s.IsWriter name id ∨ id = Streams.fedClientId slot.1 slot.2

theorem Calm.mirrorGrants {slot : Slot} (h : s₀.Calm s) : MirrorGrants slot s₀ s := ⟨h.1, fun _ _ hw => .inl (h.2 _ _ hw)⟩

theorem Calm.promoteMirror {slot : Slot} (h : s₀.Calm s) :
    MirrorGrants slot s₀ (promoteClient name (Streams.fedClientId slot.1 slot.2) s).1 := by
  refine ⟨quiet_promote.1 h.1, fun name' id hw => ?_⟩
  rcases isWriter_promote hw with hw | ⟨-, hid, -⟩
  · exact .inl (h.2 _ _ hw)
  · exact .inr hid

/-- A client whose promote fails is no writer. -/
theorem not_isWriter_of_promote (h : (promoteClient name clientId s).2 = false) : ¬ s.IsWriter name clientId := by
  rintro ⟨p, hp, hw⟩
  simp only [promoteClient, askPort, hp] at h
  have hany : p.connectedClients.any (·.clientId = clientId) = true := by
    obtain ⟨c, hc, hid, -⟩ := Port.isReadWrite_iff.mp hw
    exact List.any_eq_true.mpr ⟨c, hc, by simpa using hid⟩
  simp [Port.promoteClient, hw, hany] at h

theorem isWriter_of_connectedClientMode (h : s.connectedClientMode name clientId = .readWrite) : s.IsWriter name clientId := by
  unfold connectedClientMode at h
  split at h
  · rename_i c hc
    obtain ⟨p, hp, hfind⟩ := Option.bind_eq_some_iff.mp hc
    exact ⟨p, hp, Port.isReadWrite_iff.mpr ⟨c, List.mem_of_find?_eq_some hfind, by simpa using List.find?_some hfind, h⟩⟩
  · cases h

theorem resolveFedrwTakeTarget_mem {p : Port} {slot : Slot} {spec : TakeSpec} {victim : Client}
    (h : resolveFedrwTakeTarget p slot spec = some victim) :
    victim ∈ p.connectedClients ∧ victim.mode = .readWrite ∧ victim.clientId ≠ Streams.fedClientId slot.1 slot.2 := by
  have hfilter : victim ∈ p.connectedClients.filter fun c =>
      c.mode = .readWrite ∧ c.clientId ≠ Streams.fedClientId slot.1 slot.2 := by
    unfold resolveFedrwTakeTarget at h
    dsimp only at h
    cases spec with
    | latest => exact latestClient_mem h
    | own rest => exact List.mem_of_find?_eq_some h
    | fed id => exact List.mem_of_find?_eq_some h
    | unknown => cases h
  simpa using hfilter

theorem safe_fedrwTake {slot : Slot} {spec : TakeSpec} {Q : Console → Console → Unit → Prop}
    (hG : ∀ t₀ t, t₀.Calm t → G t₀ t) (hQ : ∀ t₀ t, MirrorGrants slot t₀ t → Q t₀ t ())
    (hrestore : ∀ victim t₀ t, s.IsWriter name victim → Restores name victim t₀ t →
      ¬ t.IsWriter name (Streams.fedClientId slot.1 slot.2) → Q t₀ t ())
    (h : s.Seated) : (handleFedrwTake slot name spec).Safe Seated G Q s s := by
  have hsame {t : Console} (ht : t.Seated) : t.Calm t := ⟨ht, .refl t⟩
  have htransfer {victim : Text} (hv : s.IsWriter name victim) (hne : victim ≠ Streams.fedClientId slot.1 slot.2)
      {t₀ t : Console} (ht : t₀.Calm t) : (do
        Coro.yield
        let promoted ← Coro.lift (promoteClient name (Streams.fedClientId slot.1 slot.2))
        if promoted then
          return ()
        else
          let _ ← Coro.lift (promoteClient name victim)
          return () : Coro Console Unit).Safe Seated G Q t₀ t := by
    simp only [safe_bind, safe_yield, safe_lift]
    refine ⟨hG _ _ ht, fun u hu => ?_⟩
    split
    · exact hQ _ _ (hsame hu).promoteMirror
    · rename_i hfail
      have hfail : (promoteClient name (Streams.fedClientId slot.1 slot.2) u).2 = false := by simpa using hfail
      have hcalm : u.Calm (promoteClient name (Streams.fedClientId slot.1 slot.2) u).1 :=
        ⟨quiet_promote.1 hu, noGrant_promote hfail⟩
      simp only [safe_bind, safe_lift, safe_pure]
      refine hrestore victim _ _ hv hcalm.restore fun hw => ?_
      rcases hcalm.restore.2 _ _ hw with hw | ⟨-, hid⟩
      · exact not_isWriter_of_promote hfail hw
      · exact hne hid.symm
  unfold handleFedrwTake
  simp only [safe_bind, safe_get]
  split
  · split
    · simp only [safe_bind, safe_lift, safe_pure]
      exact hQ _ _ (hsame h).promoteMirror
    · exact hQ _ _ (hsame h).mirrorGrants
  · rename_i victim hv
    obtain ⟨p, hp, hv⟩ := Option.bind_eq_some_iff.mp hv
    obtain ⟨hmem, hm, hne⟩ := resolveFedrwTakeTarget_mem hv
    have hwriter : s.IsWriter name victim.clientId := ⟨p, hp, Port.isReadWrite_iff.mpr ⟨victim, hmem, rfl, hm⟩⟩
    split
    · rw [safe_bind, safe_lift]
      exact htransfer hwriter hne ⟨quiet_demote.1 h, noGrant_demote⟩
    · rw [safe_bind]
      exact safe_demote hG (fun t d ht => htransfer hwriter hne (hsame ht)) (fun t₀ t d ht _ => htransfer hwriter hne ht) h

theorem safe_fedrw {slot : Slot} {action : FedrwAction} {Q : Console → Console → Option Mode → Prop}
    (hG : ∀ t₀ t, t₀.Calm t → G t₀ t) (hQ : ∀ t₀ t m, MirrorGrants slot t₀ t → Q t₀ t m)
    (hrestore : ∀ victim t₀ t m, action.Takes → s.IsWriter name victim → Restores name victim t₀ t →
      m ≠ some .readWrite → Q t₀ t m)
    (h : s.Seated) : (handleFedrwRequest slot name action).Safe Seated G Q s s := by
  have hsame : s.Calm s := ⟨h, .refl s⟩
  have hack {victim : Text} {t₀ t : Console} (ha : action.Takes) (hv : s.IsWriter name victim)
      (ht : Restores name victim t₀ t) (hno : ¬ t.IsWriter name (Streams.fedClientId slot.1 slot.2)) :
      Q t₀ t (some (t.connectedClientMode name (Streams.fedClientId slot.1 slot.2))) :=
    hrestore victim _ _ _ ha hv ht fun hm => hno (isWriter_of_connectedClientMode (Option.some.inj hm))
  unfold handleFedrwRequest
  simp only [safe_bind, safe_get]
  split
  · exact hQ _ _ _ hsame.mirrorGrants
  · split
    · exact hQ _ _ _ hsame.mirrorGrants
    · rename_i hknown
      cases action with
      | request => simp only [safe_bind, safe_lift, safe_get, safe_pure]; exact hQ _ _ _ hsame.promoteMirror
      | release =>
          simp only [safe_bind, safe_lift, safe_get, safe_pure]
          exact hQ _ _ _ (Calm.mirrorGrants ⟨quiet_demote.1 h, noGrant_demote⟩)
      | take spec =>
          rw [safe_bind]
          exact safe_fedrwTake hG (fun t₀ t ht => hQ _ _ _ ht) (fun victim t₀ t hv ht hno => hack trivial hv ht hno) h
      | force =>
          rw [safe_bind]
          exact safe_fedrwTake hG (fun t₀ t ht => hQ _ _ _ ht) (fun victim t₀ t hv ht hno => hack trivial hv ht hno) h
      | unknown => exact absurd rfl hknown

end Segments

end Console

/-! ## Operations -/

open Console

/-- What an operation may grant in a segment. -/
def Op.Granted (op : Op) (s s' : Console) (name clientId : Text) : Prop :=
  op.client = some clientId ∧ s.Entitled s' name clientId ∨
    ∃ slot port action, op = .fedrw slot port action ∧ clientId = Streams.fedClientId slot.1 slot.2

/-- What a suspended segment of an operation leads to. -/
def Op.Held (op : Op) (s s' : Console) : Prop :=
  s'.Seated ∧ ∀ name clientId, s'.IsWriter name clientId → s.IsWriter name clientId ∨ op.Granted s s' name clientId

/-- What the last segment of an operation leads to. -/
def Op.Ended (op : Op) (began s s' : Console) (r : Reply) : Prop :=
  s'.Seated ∧ ∀ name clientId, s'.IsWriter name clientId → s.IsWriter name clientId ∨ op.Granted s s' name clientId ∨
    op.Takes ∧ r.Failed ∧ began.IsWriter name clientId

variable {op : Op} {s s' began : Console} {r : Reply} {clientId name : Text}

theorem held_of_grants (hc : op.client = some clientId) (h : Grants clientId s s') : op.Held s s' := by
  refine ⟨h.1, fun name id hw => ?_⟩
  rcases h.2 name id hw with hw | ⟨rfl, he⟩
  · exact .inl hw
  · exact .inr (.inl ⟨hc, he⟩)

theorem held_of_calm (h : s.Calm s') : op.Held s s' := ⟨h.1, fun _ _ hw => .inl (h.2 _ _ hw)⟩

theorem Op.Held.ended (h : op.Held s s') : op.Ended began s s' r := by
  refine ⟨h.1, fun name id hw => ?_⟩
  rcases h.2 name id hw with hw | hg
  · exact .inl hw
  · exact .inr (.inl hg)

theorem ended_of_restores (ht : op.Takes) (hr : r.Failed) (hw : began.IsWriter name clientId)
    (h : Restores name clientId s s') : op.Ended began s s' r := by
  refine ⟨h.1, fun name' id hw' => ?_⟩
  rcases h.2 name' id hw' with hold | ⟨rfl, rfl⟩
  · exact .inl hold
  · exact .inr (.inr ⟨ht, hr, hw⟩)

/-- Every segment of an operation that gives modes through the checks grants only what the operation may grant. -/
theorem safe_checked (op : Op) (hop : op.Checked) (h : s.Seated) : op.body.Safe Seated op.Held (op.Ended s) s s := by
  have hcalm {f : Console → Console × Bool} (hq : s.Quiet (f s).1) (hn : s.NoGrant (f s).1) :
      (Reply.done <$> Coro.lift f).Safe Seated op.Held (op.Ended s) s s :=
    (held_of_calm ⟨hq.1 h, hn⟩).ended
  cases op with
  | addClientToPort name clientId username mode => cases hop; exact hcalm quiet_add noGrant_add
  | removeClientFromPort => exact hcalm quiet_remove noGrant_remove
  | promoteClient => cases hop
  | demoteClient => exact hcalm quiet_demote noGrant_demote
  | writeToPort => exact (held_of_calm ⟨h, .of_eq rfl⟩).ended
  | disconnect =>
      exact (safe_map _ _ _ _).mpr (safe_disconnect (fun _ _ ht => held_of_calm ht) (fun _ _ ht => (held_of_calm ht).ended)
        (fun t _ ht => (held_of_calm ⟨ht, .refl t⟩).ended) h)
  | connect =>
      exact (safe_map _ _ _ _).mpr (safe_connect (fun _ _ ht => held_of_grants rfl ht)
        (fun _ _ _ ht => (held_of_grants rfl ht).ended) h)
  | promote =>
      exact (safe_map _ _ _ _).mpr (safe_promote (fun _ _ ht => held_of_grants rfl ht)
        (fun t _ ht => (held_of_calm ⟨ht, .refl t⟩).ended) (fun _ _ _ ht _ => (held_of_calm ht).ended) h)
  | demote =>
      exact (safe_map _ _ _ _).mpr (safe_demote (fun _ _ ht => held_of_calm ht)
        (fun t _ ht => (held_of_calm ⟨ht, .refl t⟩).ended) (fun _ _ _ ht _ => (held_of_calm ht).ended) h)
  | take =>
      exact (safe_map _ _ _ _).mpr (safe_take (fun _ _ ht => held_of_grants rfl ht)
        (fun _ _ _ ht => (held_of_grants rfl ht).ended)
        (fun _ _ _ _ hw ht hd => ended_of_restores trivial hd hw ht) h)
  | fedrw slot name action =>
      have hmirror {t₀ t : Console} (ht : MirrorGrants slot t₀ t) : (Op.fedrw slot name action).Held t₀ t := by
        refine ⟨ht.1, fun name' id hw => ?_⟩
        rcases ht.2 name' id hw with hw | hid
        · exact .inl hw
        · exact .inr (.inr ⟨slot, name, action, rfl, hid⟩)
      exact (safe_map _ _ _ _).mpr (safe_fedrw (fun _ _ ht => held_of_calm ht) (fun _ _ _ ht => (hmirror ht).ended)
        (fun _ _ _ _ ha hw ht hm => ended_of_restores ha hm hw ht) h)

end OpenMux.Access
