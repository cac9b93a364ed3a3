import OpenMux.Pdu.Replica
import OpenMux.Pdu.Lemmas.Polled

/-!
# What a listener is told of each step
-/

namespace OpenMux.Pdu

open Py Federation

theorem applyChanges_append (f : Text → Option Bool) (cs ds : List Change) :
    applyChanges f (cs ++ ds) = applyChanges (applyChanges f cs) ds := List.foldl_append

/-- Only what was held of the ref and the changes of the ref count. -/
theorem applyChanges_congr {ref : Text} (cs : List Change) : ∀ {f g : Text → Option Bool}, f ref = g ref →
    applyChanges f cs ref = applyChanges g cs ref := by
  induction cs with
  | nil => exact fun h => h
  | cons c cs ih =>
      intro f g h
      apply ih
      by_cases hc : ref = c.ref <;> simp [hc, h]

theorem applyChanges_of_ne {ref : Text} (cs : List Change) : ∀ {f : Text → Option Bool}, (∀ c ∈ cs, c.ref ≠ ref) →
    applyChanges f cs ref = f ref := by
  induction cs with
  | nil => exact fun _ => rfl
  | cons c cs ih =>
      intro f h
      have hc : ref ≠ c.ref := (h c List.mem_cons_self).symm
      exact (ih fun d hd => h d (List.mem_cons_of_mem c hd)).trans (if_neg hc)

theorem applyChanges_of_forall {ref : Text} {v : Option Bool} (cs : List Change) : ∀ {f : Text → Option Bool},
    (∀ c ∈ cs, c.ref = ref → c.on = v) → (∃ c ∈ cs, c.ref = ref) ∨ f ref = v → applyChanges f cs ref = v := by
  induction cs with
  | nil => simp [applyChanges]
  | cons c cs ih =>
      intro f hall hsome
      refine ih (fun d hd => hall d (List.mem_cons_of_mem c hd)) ?_
      by_cases hc : c.ref = ref
      · right
        exact (if_pos hc.symm).trans (hall c List.mem_cons_self hc)
      · rcases hsome with ⟨d, hd, hdr⟩ | hf
        · left
          rcases List.mem_cons.mp hd with rfl | hd
          · exact absurd hdr hc
          · exact ⟨d, hd, hdr⟩
        · right
          exact (if_neg (Ne.symm hc)).trans hf

/-! ## Refs -/

theorem validRefToken_dot {t : Text} (h : validRefToken t = true) : '.' ∉ t := by
  intro hdot
  have hall := (Bool.and_eq_true _ _).mp h |>.2
  have := List.all_eq_true.mp hall '.' hdot
  simp at this

theorem append_dot_inj {p p' o o' : Text} (hp : '.' ∉ p) (hp' : '.' ∉ p') (h : p ++ '.' :: o = p' ++ '.' :: o') : p = p' ∧ o = o' := by
  induction p generalizing p' with
  | nil =>
      cases p' with
      | nil => exact ⟨rfl, by simpa using h⟩
      | cons c p' =>
          have hc : '.' = c := (List.cons.inj h).1
          exact absurd (hc ▸ List.mem_cons_self) hp'
  | cons c p ih =>
      cases p' with
      | nil =>
          have hc : c = '.' := (List.cons.inj h).1
          exact absurd (hc ▸ List.mem_cons_self) hp
      | cons c' p' =>
          obtain ⟨rfl, htail⟩ := List.cons.inj h
          obtain ⟨rfl, ho⟩ := ih (fun hm => hp (List.mem_cons_of_mem _ hm)) (fun hm => hp' (List.mem_cons_of_mem _ hm)) htail
          exact ⟨rfl, ho⟩

theorem parseRef_valid {ref p o : Text} (h : parseRef ref = some (p, o)) : validRefToken p = true := by
  unfold parseRef at h
  split at h
  · cases h
  · split at h
    · split at h
      · cases h
      · rename_i hvalid
        cases h
        by_contra hno
        simp [hno] at hvalid
    · cases h

/-- A ref stands for no other outlet than the one whose changes are told under it. -/
theorem parseRef_inj {ref p o name o' : Text} (h : parseRef ref = some (p, o)) (hname : validRefToken name = true)
    (hr : outletRef name o' = ref) : p = name ∧ o = o' := by
  have href := parseRef_eq h
  rw [← hr] at href
  exact (append_dot_inj (validRefToken_dot hname) (validRefToken_dot (parseRef_valid h)) href).imp Eq.symm Eq.symm

namespace Adapter

variable {s s' s'' : Adapter} {id : Nat} {ref : Text}

/-- A listener of the ref is told what becomes of it. -/
def Replicates (ref : Text) (s s' : Adapter) : Prop :=
  ∃ new, s'.changes = s.changes ++ new ∧ s'.outletOnState ref = applyChanges s.outletOnState new ref

theorem Replicates.trans (h : Replicates ref s s') (h' : Replicates ref s' s'') : Replicates ref s s'' := by
  obtain ⟨new, hnew, hon⟩ := h
  obtain ⟨new', hnew', hon'⟩ := h'
  refine ⟨new ++ new', by rw [hnew', hnew, List.append_assoc], ?_⟩
  rw [hon', applyChanges_append]
  exact applyChanges_congr new' hon

theorem Replicates.of_eq (hchanges : s'.changes = s.changes) (hon : s'.outletOnState ref = s.outletOnState ref) : Replicates ref s s' :=
  ⟨[], by rw [hchanges, List.append_nil], hon⟩

theorem outletOnState_eq {p o : Text} (h : parseRef ref = some (p, o)) :
    s.outletOnState ref = ((s.pdus.get? p).bind fun id => (s.heap id).readings.get? o).bind (·.on) := by
  simp [outletOnState, readingOf, h]

theorem outletOnState_none (h : parseRef ref = none) : s.outletOnState ref = none := by
  simp [outletOnState, readingOf, h]

/-- The ref is read where its name leads. -/
theorem outletOnState_congr (h : ∀ p o, parseRef ref = some (p, o) →
    ((s'.pdus.get? p).bind fun id => (s'.heap id).readings.get? o).bind (·.on) =
      ((s.pdus.get? p).bind fun id => (s.heap id).readings.get? o).bind (·.on)) : s'.outletOnState ref = s.outletOnState ref := by
  cases hparse : parseRef ref with
  | none => rw [outletOnState_none hparse, outletOnState_none hparse]
  | some p => rw [outletOnState_eq hparse, outletOnState_eq hparse, h p.1 p.2 hparse]

theorem outletOnState_of_readings (hpdus : s'.pdus = s.pdus) (hreadings : ∀ i, (s'.heap i).readings = (s.heap i).readings) :
    s'.outletOnState ref = s.outletOnState ref := by
  apply outletOnState_congr
  intro p o _
  rw [hpdus]
  simp [hreadings]

/-- The state of a ref whose PDU has the object `id`. -/
theorem outletOnState_current {p o : Text} (h : parseRef ref = some (p, o)) (hget : s.pdus.get? p = some id) :
    s.outletOnState ref = ((s.heap id).readings.get? o).bind (·.on) := by
  rw [outletOnState_eq h, hget]
  rfl

/-! ## Reads -/

theorem wellNamed_same (h : s.WellNamed) (hs : s.SameButReadings s') : s'.WellNamed := by
  intro name id hget
  rw [hs.pdus] at hget
  rw [hs.name, h name id hget]

/-- A reading that is stored is what its ref stands for. -/
theorem outletOnState_store (hs : s.WellNamed) (hcur : s.Current id) (hvalid : validRefToken (s.heap id).name = true) {o : Text}
    {r : OutletReading} : (s.store id o r).outletOnState ref =
      if outletRef (s.heap id).name o = ref ∧ parseRef ref ≠ none then r.on else s.outletOnState ref := by
  by_cases href : outletRef (s.heap id).name o = ref
  · cases hparse : parseRef ref with
    | none => simp [outletOnState_none hparse]
    | some p =>
        obtain ⟨hp, ho⟩ := parseRef_inj hparse hvalid href
        have hget : (s.store id o r).pdus.get? p.1 = some id := by rw [hp]; exact hcur
        rw [outletOnState_current hparse hget, ho]
        simp [store, href]
  · rw [if_neg fun h => href h.1, outletOnState, readingOf_store hs (Ne.symm href), outletOnState]

theorem replicates_store {o : Text} {r : OutletReading} (hs : s.WellNamed) (hcur : s.Current id)
    (hvalid : validRefToken (s.heap id).name = true) (hon : ((s.heap id).readings.get? o).bind (·.on) = r.on) :
    Replicates ref s (s.store id o r) := by
  refine .of_eq rfl ?_
  rw [outletOnState_store hs hcur hvalid]
  split
  · rename_i h
    obtain ⟨p, hparse⟩ := Option.ne_none_iff_exists'.mp h.2
    obtain ⟨hp, ho⟩ := parseRef_inj hparse hvalid h.1
    have hget : s.pdus.get? p.1 = some id := by rw [hp]; exact hcur
    rw [outletOnState_current hparse hget, ho, hon]
  · rfl

theorem replicates_emit_store {o : Text} {r : OutletReading} (hs : s.WellNamed) (hcur : s.Current id)
    (hvalid : validRefToken (s.heap id).name = true) (href : parseRef ref = none → outletRef (s.heap id).name o = ref → r.on = none) :
    Replicates ref s ((s.emitOutletChange (s.heap id).name o r.on).store id o r) := by
  refine ⟨[⟨outletRef (s.heap id).name o, r.on, _⟩], rfl, ?_⟩
  rw [outletOnState_store (s := s.emitOutletChange (s.heap id).name o r.on) hs hcur hvalid]
  show (if outletRef (s.heap id).name o = ref ∧ parseRef ref ≠ none then r.on else s.outletOnState ref) =
    if ref = outletRef (s.heap id).name o then r.on else s.outletOnState ref
  by_cases h : outletRef (s.heap id).name o = ref
  · cases hparse : parseRef ref with
    | none => simp [h, href hparse h, outletOnState_none hparse]
    | some p => simp [h]
  · simp [h, Ne.symm h]

/-- Marking one outlet tells that it is unknown, if it was known. -/
theorem replicates_mark {error o : Text} (hs : s.WellNamed) (hcur : s.Current id) (hvalid : validRefToken (s.heap id).name = true) :
    Replicates ref s (s.markOutletOffline id error o) := by
  unfold markOutletOffline
  split
  · exact .of_eq rfl rfl
  · rename_i reading hget
    split
    · rename_i hon
      exact replicates_store hs hcur hvalid (by simp [hget])
    · exact replicates_emit_store (r := { reading with error := error, on := none }) hs hcur hvalid fun _ _ => rfl

theorem replicates_marks {error : Text} (keys : List Text) : ∀ s : Adapter, s.WellNamed → s.Current id →
    validRefToken (s.heap id).name = true → Replicates ref s (keys.foldl (fun t o => t.markOutletOffline id error o) s) := by
  induction keys with
  | nil => exact fun _ _ _ _ => .of_eq rfl rfl
  | cons o keys ih =>
      intro s hs hcur hvalid
      have hsame := sameButReadings_mark s id error o
      refine (replicates_mark hs hcur hvalid).trans (ih _ (wellNamed_same hs hsame) ?_ ?_)
      · exact (current_congr hsame.pdus hsame.name).mpr hcur
      · rw [hsame.name]
        exact hvalid

theorem mem_changedOutlets {readings : Dict Text OutletReading} {e : Text × Option Bool} :
    e ∈ s.changedOutlets id readings ↔
      (readings.get? e.1).map (·.on) = some e.2 ∧ ((s.heap id).readings.get? e.1).map (·.on) ≠ some e.2 := by
  unfold changedOutlets
  constructor
  · intro h
    obtain ⟨a, ha, rfl⟩ := List.mem_map.mp h
    obtain ⟨ha, hne⟩ := List.mem_filter.mp ha
    exact ⟨by rw [Dict.mem_entries.mp ha]; rfl, by simpa using hne⟩
  · rintro ⟨hnew, hold⟩
    obtain ⟨r, hr, hon⟩ := Option.map_eq_some_iff.mp hnew
    exact List.mem_map.mpr ⟨(e.1, r), List.mem_filter.mpr ⟨Dict.mem_entries.mpr hr, by simpa [hon] using hold⟩, by simp [hon]⟩

/-- A read touches no ref of another PDU. -/
theorem outletOnState_refresh_ne (result : ReadResult) (hs : s.WellNamed) (hne : ∀ p ∈ parseRef ref, p.1 ≠ (s.heap id).name) :
    (s.refreshReadings id result).outletOnState ref = s.outletOnState ref := by
  apply outletOnState_congr
  intro p o hparse
  rw [(sameButReadings_refresh s id result).pdus]
  refine congrArg (Option.bind · _) (Option.bind_congr fun i hi => ?_)
  have hid : i ≠ id := by
    rintro rfl
    exact hne _ hparse (hs p i hi).symm
  rw [heap_refresh_ne result hid]

/-- A read that reports the outlet tells what becomes of it. -/
theorem replicates_apply {readings : Dict Text OutletReading} (hs : s.WellNamed) (hcur : s.Current id)
    (hvalid : validRefToken (s.heap id).name = true)
    (hknown : ∀ p ∈ parseRef ref, p.1 = (s.heap id).name → s.outletOnState ref ≠ none → (readings.get? p.2).isSome = true)
    (hnone : parseRef ref = none → ∀ e ∈ s.changedOutlets id readings, outletRef (s.heap id).name e.1 = ref → e.2 = none) :
    Replicates ref s (s.applyReadings id readings) := by
  obtain ⟨new, hnew, hmap⟩ := changes_emits (s.heap id).name (s.changedOutlets id readings) (s.mergeReadings id readings)
  have hpdus : (s.applyReadings id readings).pdus = s.pdus := (sameButReadings_refresh s id (.readings readings)).pdus
  have hmem : ∀ c ∈ new, ∃ e ∈ s.changedOutlets id readings, outletRef (s.heap id).name e.1 = c.ref ∧ e.2 = c.on := by
    intro c hc
    have := List.mem_map_of_mem (f := fun c : Change => (c.ref, c.on)) hc
    rw [hmap] at this
    obtain ⟨e, he, heq⟩ := List.mem_map.mp this
    exact ⟨e, he, (Prod.mk.inj heq).1, (Prod.mk.inj heq).2⟩
  refine ⟨new, hnew, ?_⟩
  cases hparse : parseRef ref with
  | none =>
      rw [outletOnState_none hparse]
      refine (applyChanges_of_forall new (fun c hc hcr => ?_) (.inr (outletOnState_none hparse))).symm
      obtain ⟨e, he, her, hon⟩ := hmem c hc
      rw [← hon]
      exact hnone hparse e he (her.trans hcr)
  | some p =>
      obtain ⟨p, o⟩ := p
      by_cases hp : p = (s.heap id).name
      · subst hp
        have hstate : (s.applyReadings id readings).outletOnState ref = (readings.get? o).bind (·.on) := by
          rw [outletOnState_current hparse (by rw [hpdus]; exact hcur), get?_apply]
          cases readings.get? o <;> simp
        have hbefore : s.outletOnState ref = ((s.heap id).readings.get? o).bind (·.on) := outletOnState_current hparse hcur
        have href : outletRef (s.heap id).name o = ref := (parseRef_eq hparse).symm
        rw [hstate]
        refine (applyChanges_of_forall new (fun c hc hcr => ?_) ?_).symm
        · obtain ⟨e, he, her, hon⟩ := hmem c hc
          have heo : o = e.1 := (parseRef_inj hparse hvalid (her.trans hcr)).2
          obtain ⟨r, hr, hron⟩ := Option.map_eq_some_iff.mp (mem_changedOutlets.mp he).1
          rw [heo, hr, ← hon, ← hron]
          rfl
        · by_cases hchanged : (o, (readings.get? o).bind (·.on)) ∈ s.changedOutlets id readings
          · left
            have := List.mem_map_of_mem (f := fun e : Text × Option Bool => (outletRef (s.heap id).name e.1, e.2)) hchanged
            rw [← hmap] at this
            obtain ⟨c, hc, heq⟩ := List.mem_map.mp this
            exact ⟨c, hc, (Prod.mk.inj heq).1.trans href⟩
          · right
            rw [hbefore]
            cases hget : readings.get? o with
            | none =>
                by_contra hne
                have := hknown _ hparse rfl (by rw [hbefore]; exact hne)
                simp [hget] at this
            | some r =>
                rw [mem_changedOutlets, hget] at hchanged
                have hsame : ((s.heap id).readings.get? o).map (·.on) = some r.on := by simpa using hchanged
                obtain ⟨r', hr', hon⟩ := Option.map_eq_some_iff.mp hsame
                rw [hr']
                exact hon
      · have hne : ∀ c ∈ new, c.ref ≠ ref := by
          intro c hc hcr
          obtain ⟨e, -, her, -⟩ := hmem c hc
          exact hp (parseRef_inj hparse hvalid (her.trans hcr)).1
        rw [applyChanges_of_ne new hne]
        exact outletOnState_refresh_ne (.readings readings) hs fun q hq => by cases hparse.symm.trans hq; exact hp

theorem replicates_refresh {result : ReadResult} {switched : List Text} (hs : s.WellNamed) (hcur : s.Current id)
    (hvalid : validRefToken (s.heap id).name = true) (hwell : s.ReadsWell id ref switched result) :
    Replicates ref s (s.refreshReadings id result) := by
  cases result with
  | backoff => exact .of_eq rfl rfl
  | readings readings => exact replicates_apply hs hcur hvalid hwell.1 hwell.2.1
  | raised error =>
      have hsame : s.SameButReadings (s.setObj id { s.heap id with online := some false }) := .setObj rfl rfl rfl
      have honline : Replicates ref s (s.setObj id { s.heap id with online := some false }) :=
        .of_eq rfl (outletOnState_of_readings rfl fun i => by by_cases hi : i = id <;> simp [hi])
      refine honline.trans (replicates_marks _ _ (wellNamed_same hs hsame) ?_ ?_)
      · exact (current_congr hsame.pdus hsame.name).mpr hcur
      · rw [hsame.name]
        exact hvalid

theorem replicates_discover (ids : List Text) : Replicates ref s (s.discover id ids) := by
  refine .of_eq rfl (outletOnState_congr fun p o _ => ?_)
  show ((s.pdus.get? p).bind _).bind _ = _
  cases s.pdus.get? p with
  | none => rfl
  | some i =>
      by_cases hi : i = id
      · subst hi
        simp only [Option.bind_some, discover, heap_setObj, ↓reduceIte, get?_discover]
        cases (s.heap i).readings.get? o with
        | some r => rfl
        | none =>
            simp only [Option.none_or, Option.bind_none]
            split <;> rfl
      · simp [discover, hi]

/-! ## Switches -/

/-- A switch that returns while its PDU is in place tells of its outlet. -/
theorem replicates_finish {pduName outletId r : Text} {on : Bool} {user clientId : Option Text} {impact : Impact} {reading : OutletReading}
    (hs : s.WellNamed) (hparse : parseRef r = some (pduName, outletId)) (hname : (s.heap id).name = pduName)
    (hplace : ref = r → s.pdus.get? pduName = some id) :
    Replicates ref s (s.finishSetOutlet id pduName outletId r on user clientId impact reading) := by
  have hpdus := (sameButReadings_finish s id pduName outletId r on user clientId impact reading).pdus
  have hr := parseRef_eq hparse
  have hchanges : (s.finishSetOutlet id pduName outletId r on user clientId impact reading).changes = s.changes ++
      if ((s.heap id).readings.get? outletId).map (·.on) ≠ some reading.on then
        [⟨r, reading.on, s.mappedPortsForRef r⟩] else [] := by
    unfold finishSetOutlet auditControl
    rw [hr]
    dsimp only
    split
    · split <;> rfl
    · rw [List.append_nil]
      split <;> rfl
  refine ⟨_, hchanges, ?_⟩
  by_cases href : ref = r
  · subst href
    have hget := hplace rfl
    rw [outletOnState_current hparse (by rw [hpdus]; exact hget), heap_finish, if_pos rfl, Dict.get?_set_self]
    split
    · simp [applyChanges]
    · rename_i hsame
      rw [not_not] at hsame
      obtain ⟨prev, hprev, hon⟩ := Option.map_eq_some_iff.mp hsame
      show (clearError _ reading).on = s.outletOnState ref
      rw [outletOnState_current hparse hget, hprev, on_clearError]
      exact hon.symm
  · have hnone : ∀ c ∈ (if ((s.heap id).readings.get? outletId).map (·.on) ≠ some reading.on then
        [(⟨r, reading.on, s.mappedPortsForRef r⟩ : Change)] else []), c.ref ≠ ref := by
      intro c hc
      split at hc
      · rw [List.mem_singleton.mp hc]
        exact Ne.symm href
      · cases hc
    rw [applyChanges_of_ne _ hnone]
    apply outletOnState_congr
    intro p o hparse'
    rw [hpdus]
    refine congrArg (Option.bind · _) (Option.bind_congr fun i hi => ?_)
    rw [heap_finish]
    split
    · rename_i hid
      subst hid
      have hp : p = pduName := (hs p i hi).symm.trans hname
      have ho : o ≠ outletId := by
        rintro rfl
        exact href (by rw [parseRef_eq hparse', hp, hr])
      rw [Dict.get?_set_ne _ _ ho]
    · rfl

/-! ## What is kept -/

/-- Neither the PDUs nor their readings change, and nothing is told. -/
structure Silent (s s' : Adapter) : Prop where
  pdus : s'.pdus = s.pdus
  readings : ∀ i, (s'.heap i).readings = (s.heap i).readings
  changes : s'.changes = s.changes

theorem Silent.refl (s : Adapter) : s.Silent s := ⟨rfl, fun _ => rfl, rfl⟩

theorem Silent.trans (h : s.Silent s') (h' : s'.Silent s'') : s.Silent s'' :=
  ⟨h'.pdus.trans h.pdus, fun i => (h'.readings i).trans (h.readings i), h'.changes.trans h.changes⟩

theorem Silent.replicates (h : s.Silent s') : Replicates ref s s' := .of_eq h.changes (outletOnState_of_readings h.pdus h.readings)

theorem Silent.setObj {p : PduState} (h : p.readings = (s.heap id).readings) : s.Silent (s.setObj id p) :=
  ⟨rfl, fun i => by by_cases hi : i = id <;> simp [hi, h], rfl⟩

end Adapter

namespace Node

variable {n m : Node} {t id : Nat} {ref : Text}

theorem wellNamed (h : n.Placed) : n.adapter.WellNamed := fun name id hget => (h.named name id hget).1

theorem silent_stop (n : Node) (id : Nat) : n.adapter.Silent (n.stopPollTask id).adapter := by
  rw [adapter_stop]
  exact .setObj rfl

theorem silent_start (n : Node) (id : Nat) : n.adapter.Silent (n.startPollTask id).adapter := by
  obtain ⟨he, -⟩ | ⟨-, -, he⟩ := start_cases n id
  · rw [he]
    exact .refl _
  · rw [he]
    exact .setObj rfl

theorem silent_foldl {f : Node → Nat → Node} (hf : ∀ (n : Node) id, n.adapter.Silent (f n id).adapter) (ids : List Nat) :
    ∀ n : Node, n.adapter.Silent (ids.foldl f n).adapter := by
  induction ids with
  | nil => exact fun n => .refl _
  | cons id ids ih => exact fun n => (hf n id).trans (ih (f n id))

theorem silent_finish (n : Node) (old : Option Bool) : n.adapter.Silent (n.finish old).adapter := by
  cases old with
  | none => exact ⟨rfl, fun _ => rfl, rfl⟩
  | some b =>
      show n.adapter.Silent (n.reconcilePollFlip b).adapter
      unfold reconcilePollFlip
      split
      · refine silent_foldl (fun n id => ?_) _ n
        split
        · exact silent_start n id
        · exact .refl _
      · split
        · exact silent_foldl silent_stop _ n
        · exact .refl _

/-! ## PDUs that come and go -/

theorem outletOnState_build (hp : n.Placed) (c : PduConf) : (n.buildPdu c).adapter.outletOnState ref =
    if Builds c ∧ OfPdu ref c.name then none else n.adapter.outletOnState ref := by
  by_cases hb : Builds c
  · have hbuilt := built hp hb
    cases hparse : parseRef ref with
    | none => simp [OfPdu, hparse, Adapter.outletOnState_none hparse]
    | some p =>
        obtain ⟨p, o⟩ := p
        by_cases hname : p = c.name
        · subst hname
          have hget : (n.buildPdu c).adapter.pdus.get? c.name = some n.adapter.fresh := by rw [hbuilt.pdus, Dict.get?_set_self]
          rw [Adapter.outletOnState_current hparse hget, hbuilt.empty, if_pos ⟨hb, by simp [OfPdu, hparse]⟩]
          rfl
        · rw [if_neg fun h => hname (by simpa [OfPdu, hparse] using h.2)]
          apply Adapter.outletOnState_congr
          intro p' o' hparse'
          cases hparse.symm.trans hparse'
          rw [hbuilt.pdus, Dict.get?_set_ne _ _ hname]
          refine congrArg (Option.bind · _) (Option.bind_congr fun i hi => ?_)
          rw [hbuilt.heap i (hp.named _ _ hi).2.2.ne]
          split <;> rfl
  · rw [buildPdu_of_not hb, if_neg fun h => hb h.1]

theorem changes_build (hp : n.Placed) (c : PduConf) : (n.buildPdu c).adapter.changes = n.adapter.changes := by
  by_cases hb : Builds c
  · exact (built hp hb).changes
  · rw [buildPdu_of_not hb]

theorem replicates_build (hp : n.Placed) {c : PduConf} (h : Builds c → OfPdu ref c.name → n.adapter.outletOnState ref = none) :
    Adapter.Replicates ref n.adapter (n.buildPdu c).adapter := by
  refine .of_eq (changes_build hp c) ?_
  rw [outletOnState_build hp]
  split
  · rename_i hb
    exact (h hb.1 hb.2).symm
  · rfl

theorem none_build (hp : n.Placed) (c : PduConf) (h : n.adapter.outletOnState ref = none) :
    (n.buildPdu c).adapter.outletOnState ref = none := by
  rw [outletOnState_build hp, h, ite_self]

theorem replicates_builds (pdus : List PduConf) : ∀ n : Node, n.Placed →
    n.adapter.Forgettable ref ((pdus.filter fun c => Builds c).map PduConf.name) →
      Adapter.Replicates ref n.adapter (pdus.foldl buildPdu n).adapter := by
  induction pdus with
  | nil => exact fun _ _ _ => .of_eq rfl rfl
  | cons c pdus ih =>
      intro n hp h
      refine (replicates_build hp fun hb hof => h ⟨c.name, ?_, hof⟩).trans (ih _ (hp.build c) fun hof => none_build hp c (h ?_))
      · exact List.mem_map.mpr ⟨c, List.mem_filter.mpr ⟨List.mem_cons_self, by simpa using hb⟩, rfl⟩
      · obtain ⟨name, hname, hof⟩ := hof
        obtain ⟨c', hc', rfl⟩ := List.mem_map.mp hname
        obtain ⟨hc', hb⟩ := List.mem_filter.mp hc'
        exact ⟨c'.name, List.mem_map.mpr ⟨c', List.mem_filter.mpr ⟨List.mem_cons_of_mem _ hc', hb⟩, rfl⟩, hof⟩

theorem builtNow_congr {s s' : Adapter} (henabled : s'.enabled = s.enabled) (todo : List Todo)
    (hhas : s.enabled = true → ∀ c, .build c ∈ todo → (s'.pdus.get? c.name).isSome = (s.pdus.get? c.name).isSome) :
    s'.builtNow todo = s.builtNow todo := by
  induction todo with
  | nil => rfl
  | cons x rest ih =>
      cases x with
      | bring id => rfl
      | build c =>
          have hrest := ih fun hon c' hc' => hhas hon c' (List.mem_cons_of_mem _ hc')
          unfold Adapter.builtNow
          rw [henabled, hrest]
          cases hon : s.enabled with
          | false => rfl
          | true => rw [hhas hon c List.mem_cons_self]

/-- Going on with a startup or a reconcile tells all there is to tell, if nothing is known of the PDUs that are built. -/
theorem replicates_advance {old : Option Bool} (todo : List Todo) : ∀ n : Node, n.Placed →
    n.adapter.Forgettable ref (n.adapter.builtNow todo) → Adapter.Replicates ref n.adapter (advance old todo n).adapter := by
  induction todo with
  | nil => exact fun n _ _ => (silent_finish n old).replicates
  | cons x rest ih =>
      intro n hp h
      cases x with
      | bring id => exact .of_eq rfl rfl
      | build c =>
          have henabled := enabled_build n c hp
          unfold advance
          dsimp only
          by_cases hb : Builds c
          · have hget : (n.buildPdu c).adapter.pdus.get? c.name = some n.adapter.fresh := by
              rw [(built hp hb).pdus, Dict.get?_set_self]
            have hreplica : Adapter.Replicates ref n.adapter (n.buildPdu c).adapter := by
              refine replicates_build hp fun _ hof => h ⟨c.name, ?_, hof⟩
              unfold Adapter.builtNow
              rw [if_pos hb]
              split <;> exact List.mem_cons_self
            rw [hget]
            dsimp only
            split
            · exact hreplica
            · rename_i hoff
              rw [henabled] at hoff
              refine hreplica.trans (ih _ (hp.build c) ?_)
              rw [builtNow_congr henabled rest fun hon => absurd hon hoff]
              rintro ⟨name, hname, hof⟩
              refine none_build hp c (h ⟨name, ?_, hof⟩)
              unfold Adapter.builtNow
              rw [if_pos hb, if_neg hoff]
              exact List.mem_cons_of_mem _ hname
          · rw [buildPdu_of_not hb]
            have hnow : n.adapter.builtNow (.build c :: rest) =
                if n.adapter.enabled && (n.adapter.pdus.get? c.name).isSome then [] else n.adapter.builtNow rest := if_neg hb
            rw [hnow] at h
            cases hget : n.adapter.pdus.get? c.name with
            | none => exact ih n hp (by simpa [hget] using h)
            | some id =>
                dsimp only
                split
                · exact .of_eq rfl rfl
                · rename_i hoff
                  exact ih n hp (by simpa [hget, hoff] using h)

theorem removed_silent (n : Node) (name : Text) :
    (n.reconcileRemove name).adapter.pdus = n.adapter.pdus.pop name ∧ (n.reconcileRemove name).adapter.changes = n.adapter.changes ∧
      ∀ i, ((n.reconcileRemove name).adapter.heap i).readings = (n.adapter.heap i).readings := by
  unfold reconcileRemove
  cases hget : n.adapter.pdus.get? name with
  | none => exact ⟨(Dict.pop_of_none hget).symm, rfl, fun _ => rfl⟩
  | some id =>
      have hs := silent_stop ({ n with adapter := { n.adapter with pdus := n.adapter.pdus.pop name } } : Node) id
      exact ⟨hs.pdus, hs.changes, hs.readings⟩

theorem outletOnState_remove (n : Node) (name : Text) : (n.reconcileRemove name).adapter.outletOnState ref =
    if OfPdu ref name then none else n.adapter.outletOnState ref := by
  obtain ⟨hpdus, -, hreadings⟩ := removed_silent n name
  cases hparse : parseRef ref with
  | none => simp [OfPdu, hparse, Adapter.outletOnState_none hparse]
  | some p =>
      obtain ⟨p, o⟩ := p
      by_cases hname : p = name
      · subst hname
        rw [if_pos (by simp [OfPdu, hparse]), Adapter.outletOnState_eq hparse, hpdus, Dict.get?_pop_self]
        rfl
      · rw [if_neg fun h => hname (by simpa [OfPdu, hparse] using h)]
        apply Adapter.outletOnState_congr
        intro p' o' hparse'
        cases hparse.symm.trans hparse'
        rw [hpdus, Dict.get?_pop_ne _ hname]
        simp [hreadings]

theorem replicates_removes (names : List Text) : ∀ n : Node, n.adapter.Forgettable ref names →
    Adapter.Replicates ref n.adapter (names.foldl reconcileRemove n).adapter ∧
      (n.adapter.outletOnState ref = none → (names.foldl reconcileRemove n).adapter.outletOnState ref = none) := by
  induction names with
  | nil => exact fun _ _ => ⟨.of_eq rfl rfl, id⟩
  | cons name names ih =>
      intro n h
      have hnone : n.adapter.outletOnState ref = none → (n.reconcileRemove name).adapter.outletOnState ref = none := by
        intro hn
        rw [outletOnState_remove, hn, ite_self]
      obtain ⟨hreplica, hkeep⟩ := ih (n.reconcileRemove name) fun ⟨name', hname', hof⟩ =>
        hnone (h ⟨name', List.mem_cons_of_mem _ hname', hof⟩)
      refine ⟨Adapter.Replicates.trans (.of_eq (removed_silent n name).2.1 ?_) hreplica, fun hn => hkeep (hnone hn)⟩
      rw [outletOnState_remove]
      split
      · rename_i hof
        exact (h ⟨name, List.mem_cons_self, hof⟩).symm
      · rfl

theorem get?_removes (names : List Text) {name : Text} (h : name ∉ names) : ∀ n : Node,
    (names.foldl reconcileRemove n).adapter.pdus.get? name = n.adapter.pdus.get? name := by
  induction names with
  | nil => exact fun _ => rfl
  | cons name' names ih =>
      intro n
      obtain ⟨hne, hnot⟩ : name ≠ name' ∧ name ∉ names := by simpa using h
      rw [List.foldl_cons, ih hnot, (removed_silent n name').1, Dict.get?_pop_ne _ hne]

theorem replicates_reconcile (hp : n.Placed) (enabled : Bool) (pdus : List PduConf)
    (h : n.Faithful ref (.reconcile enabled pdus)) : Adapter.Replicates ref n.adapter (n.reconcilePorts enabled pdus).adapter := by
  obtain ⟨hremoved, hbuilt⟩ := h
  have hp' : ({ n with adapter := { n.adapter with enabled := enabled } } : Node).Placed := hp.congr rfl rfl rfl rfl rfl
  obtain ⟨hreplica, hnone⟩ := replicates_removes (n.removedNames (newByName pdus))
    ({ n with adapter := { n.adapter with enabled := enabled } } : Node) hremoved
  have hr := removed_foldl (n.removedNames (newByName pdus)) _ hp'
  refine Adapter.Replicates.trans hreplica (replicates_advance _ _ (placed_removes _ _ hp') ?_)
  -- what is removed is not built again
  have hnow : ((n.removedNames (newByName pdus)).foldl reconcileRemove
      ({ n with adapter := { n.adapter with enabled := enabled } } : Node)).adapter.builtNow (n.todoOf pdus) =
        ({ n.adapter with enabled := enabled } : Adapter).builtNow (n.todoOf pdus) := by
    apply builtNow_congr
    · exact hr.enabled
    · intro _ c hc
      rw [get?_removes]
      obtain ⟨k, -, hk⟩ := List.mem_filterMap.mp hc
      obtain ⟨c', hget, hcc⟩ := Option.map_eq_some_iff.mp hk
      cases hcc
      intro hmem
      have hno := (List.mem_filter.mp (mem_sortNames.mp hmem)).2
      have hyes : c.name ∈ (newByName pdus).keys := Dict.mem_keys.mpr ⟨c, by rw [(newByName_get hget).1]; exact hget⟩
      simp [hyes] at hno
  intro hof
  rw [← todoOf, hnow] at hof
  exact hnone (hbuilt hof)

theorem replicates_start (hp : n.Placed) (pdus : List PduConf) (h : n.Faithful ref (.start pdus)) :
    Adapter.Replicates ref n.adapter (n.start pdus).adapter := by
  have hplaced := placed_builds pdus n hp
  refine Adapter.Replicates.trans (replicates_builds pdus n hp h) ?_
  unfold Node.start
  dsimp only
  split
  · refine replicates_advance _ _ hplaced ?_
    rintro ⟨name, hname, -⟩
    cases hobj : (pdus.foldl buildPdu n).adapter.objects with
    | nil => simp [hobj, Adapter.builtNow] at hname
    | cons id ids => simp [hobj, Adapter.builtNow] at hname
  · exact (silent_finish _ none).replicates

theorem replicates_stop (h : n.adapter.outletOnState ref = none) : Adapter.Replicates ref n.adapter n.stop.adapter := by
  have hs := silent_foldl silent_stop n.adapter.objects ({ n with adapter := { n.adapter with isRunning := false } } : Node)
  refine .of_eq hs.changes (Eq.trans ?_ h.symm)
  cases hparse : parseRef ref with
  | none => exact Adapter.outletOnState_none hparse
  | some p =>
      rw [Adapter.outletOnState_eq hparse]
      rfl

/-! ## Steps -/

/-- A switch that waits for the driver has the object that its name stood for. -/
def Switching (n : Node) : Prop :=
  ∀ w ∈ n.switches, parseRef w.ref = some (w.pduName, w.outletId) ∧ w.id < n.adapter.fresh ∧ (n.adapter.heap w.id).name = w.pduName

/-- Objects keep their names. -/
structure Grows (s s' : Adapter) : Prop where
  fresh : s.fresh ≤ s'.fresh
  name : ∀ i < s.fresh, (s'.heap i).name = (s.heap i).name

theorem Grows.trans {s s' s'' : Adapter} (h : Grows s s') (h' : Grows s' s'') : Grows s s'' :=
  ⟨h.fresh.trans h'.fresh, fun i hi => (h'.name i (hi.trans_le h.fresh)).trans (h.name i hi)⟩

theorem Grows.of_same {s s' : Adapter} (h : s.SameButReadings s') : Grows s s' := ⟨h.fresh.ge, fun i _ => h.name i⟩

theorem Grows.foldl {α : Type} {f : Node → α → Node} (hf : ∀ (n : Node) a, Grows n.adapter (f n a).adapter) (as : List α) :
    ∀ n : Node, Grows n.adapter (as.foldl f n).adapter := by
  induction as with
  | nil => exact fun _ => ⟨le_rfl, fun _ _ => rfl⟩
  | cons a as ih => exact fun n => (hf n a).trans (ih (f n a))

theorem Grows.stop (n : Node) (id : Nat) : Grows n.adapter (n.stopPollTask id).adapter := by
  rw [adapter_stop]
  exact ⟨le_rfl, fun i _ => Adapter.name_setObj n.adapter id { n.adapter.heap id with task := none } rfl i⟩

theorem Grows.start (n : Node) (id : Nat) : Grows n.adapter (n.startPollTask id).adapter := by
  obtain ⟨he, -⟩ | ⟨-, -, he⟩ := start_cases n id
  · rw [he]
    exact ⟨le_rfl, fun _ _ => rfl⟩
  · rw [he]
    exact ⟨le_rfl, fun i _ => Adapter.name_setObj n.adapter id { n.adapter.heap id with task := some n.nextTask } rfl i⟩

theorem Grows.build (n : Node) (c : PduConf) : Grows n.adapter (n.buildPdu c).adapter := by
  have hput : ∀ (u : Node) (p : PduState) (pdus : Dict Text Nat), Grows u.adapter
      { u.adapter.setObj u.adapter.fresh p with pdus := pdus, fresh := u.adapter.fresh + 1 } := fun u p pdus =>
    ⟨Nat.le_succ _, fun i hi => congrArg PduState.name (Adapter.heap_setObj_ne hi.ne)⟩
  unfold buildPdu
  split
  · exact ⟨le_rfl, fun _ _ => rfl⟩
  · split
    · dsimp only
      split
      · exact (Grows.stop n _).trans (hput _ _ _)
      · exact hput n _ _
    · exact ⟨le_rfl, fun _ _ => rfl⟩

theorem Grows.remove (n : Node) (name : Text) : Grows n.adapter (n.reconcileRemove name).adapter := by
  unfold reconcileRemove
  split
  · exact ⟨le_rfl, fun _ _ => rfl⟩
  · rename_i id _
    have h := Grows.stop ({ n with adapter := { n.adapter with pdus := n.adapter.pdus.pop name } } : Node) id
    exact ⟨h.fresh, h.name⟩

theorem Grows.finish (n : Node) (old : Option Bool) : Grows n.adapter (n.finish old).adapter := by
  cases old with
  | none => exact ⟨le_rfl, fun _ _ => rfl⟩
  | some b =>
      show Grows n.adapter (n.reconcilePollFlip b).adapter
      unfold reconcilePollFlip
      split
      · refine Grows.foldl (fun n id => ?_) _ n
        split
        · exact .start n id
        · exact ⟨le_rfl, fun _ _ => rfl⟩
      · split
        · exact Grows.foldl Grows.stop _ n
        · exact ⟨le_rfl, fun _ _ => rfl⟩

theorem Grows.advance {old : Option Bool} (todo : List Todo) : ∀ n : Node, Grows n.adapter (advance old todo n).adapter := by
  induction todo with
  | nil => exact fun n => .finish n old
  | cons x rest ih =>
      intro n
      cases x with
      | bring id => exact ⟨le_rfl, fun _ _ => rfl⟩
      | build c =>
          unfold Node.advance
          dsimp only
          split
          · exact (Grows.build n c).trans (ih _)
          · split
            · exact .build n c
            · exact (Grows.build n c).trans (ih _)

theorem grows_step {a : Act} (h : Step n a m) : Grows n.adapter m.adapter := by
  cases h with
  | start pdus =>
      have hbuilds := Grows.foldl Grows.build pdus n
      refine hbuilds.trans ?_
      unfold Node.start
      dsimp only
      split
      · exact .advance _ _
      · exact .finish _ none
  | stop =>
      have hs := Grows.foldl Grows.stop n.adapter.objects ({ n with adapter := { n.adapter with isRunning := false } } : Node)
      exact ⟨hs.fresh, hs.name⟩
  | reconcile enabled pdus =>
      have hs := Grows.foldl Grows.remove (n.removedNames (newByName pdus))
        ({ n with adapter := { n.adapter with enabled := enabled } } : Node)
      exact Grows.trans ⟨hs.fresh, hs.name⟩ (.advance _ _)
  | @lost old id rest =>
      have hs : n.adapter.SameButReadings (n.adapter.setObj id { n.adapter.heap id with online := some false }) := .setObj rfl rfl rfl
      exact (Grows.of_same hs).trans
        (.advance rest ({ n with adapter := n.adapter.setObj id { n.adapter.heap id with online := some false } } : Node))
  | found ids => exact .of_same (Adapter.sameButReadings_discover _ _ ids)
  | @brought old id switched rest result =>
      refine (Grows.of_same (Adapter.sameButReadings_refresh n.adapter id result)).trans ?_
      exact (Grows.start ({ n with adapter := n.adapter.refreshReadings id result } : Node) id).trans (.advance _ _)
  | polled result => exact .of_same (Adapter.sameButReadings_refresh _ _ result)
  | switched r => exact .of_same (Adapter.sameButReadings_finish _ _ _ _ _ _ _ _ _ r)
  | begin | wake | unwind | setOutlet | refused | register => exact ⟨le_rfl, fun _ _ => rfl⟩

/-- A call of `set_outlet` that gets to the driver has found the object of its PDU. -/
theorem setOutlet_some {on : Bool} {user clientId : Option Text} {w : Switch} (h : n.setOutlet ref on user clientId = some w) :
    parseRef w.ref = some (w.pduName, w.outletId) ∧ n.adapter.pdus.get? w.pduName = some w.id := by
  unfold setOutlet at h
  simp only [Option.bind_eq_bind, Option.bind_eq_some_iff] at h
  obtain ⟨⟨pduName, outletId⟩, hparse, -, -, id, hget, hw⟩ := h
  cases hw
  exact ⟨hparse, hget⟩

theorem switches_foldl {α : Type} {f : Node → α → Node} (hf : ∀ (n : Node) a, (f n a).switches = n.switches) (as : List α) :
    ∀ n : Node, (as.foldl f n).switches = n.switches := by
  induction as with
  | nil => exact fun _ => rfl
  | cons a as ih => exact fun n => (ih (f n a)).trans (hf n a)

theorem switches_stop (n : Node) (id : Nat) : (n.stopPollTask id).switches = n.switches := by
  unfold stopPollTask
  split <;> rfl

theorem switches_start (n : Node) (id : Nat) : (n.startPollTask id).switches = n.switches := by
  unfold startPollTask
  split <;> rfl

theorem switches_build (n : Node) (c : PduConf) : (n.buildPdu c).switches = n.switches := by
  unfold buildPdu
  split
  · rfl
  · split
    · dsimp only
      split
      · exact switches_stop n _
      · rfl
    · rfl

theorem switches_remove (n : Node) (name : Text) : (n.reconcileRemove name).switches = n.switches := by
  unfold reconcileRemove
  split
  · rfl
  · exact switches_stop ({ n with adapter := { n.adapter with pdus := n.adapter.pdus.pop name } } : Node) _

theorem switches_finish (n : Node) (old : Option Bool) : (n.finish old).switches = n.switches := by
  cases old with
  | none => rfl
  | some b =>
      show (n.reconcilePollFlip b).switches = n.switches
      unfold reconcilePollFlip
      split
      · refine switches_foldl (fun n id => ?_) _ n
        split
        · exact switches_start n id
        · rfl
      · split
        · exact switches_foldl switches_stop _ n
        · rfl

theorem switches_advance {old : Option Bool} (todo : List Todo) : ∀ n : Node, (advance old todo n).switches = n.switches := by
  induction todo with
  | nil => exact fun n => switches_finish n old
  | cons x rest ih =>
      intro n
      cases x with
      | bring id => rfl
      | build c =>
          unfold advance
          dsimp only
          split
          · exact (ih _).trans (switches_build n c)
          · split
            · exact switches_build n c
            · exact (ih _).trans (switches_build n c)

/-- Only a call of `set_outlet` adds a switch. -/
theorem switches_step {a : Act} (h : Step n a m) {w : Switch} (hw : w ∈ m.switches) :
    w ∈ n.switches ∨ parseRef w.ref = some (w.pduName, w.outletId) ∧ n.adapter.pdus.get? w.pduName = some w.id := by
  cases h with
  | start pdus =>
      left
      unfold Node.start at hw
      dsimp only at hw
      split at hw
      · rwa [switches_advance, switches_foldl switches_build] at hw
      · rwa [switches_finish, switches_foldl switches_build] at hw
  | stop =>
      have hs := switches_foldl switches_stop n.adapter.objects ({ n with adapter := { n.adapter with isRunning := false } } : Node)
      exact .inl (hs ▸ hw)
  | reconcile enabled pdus =>
      unfold reconcilePorts at hw
      rw [switches_advance, switches_foldl switches_remove] at hw
      exact .inl hw
  | lost => exact .inl (by rwa [switches_advance] at hw)
  | brought result => exact .inl (by rwa [switches_advance, switches_start] at hw)
  | setOutlet hset =>
      rcases List.mem_append.mp hw with hw | hw
      · exact .inl hw
      · rw [List.mem_singleton.mp hw]
        exact .inr (setOutlet_some hset)
  | refused => exact .inl (List.mem_of_mem_eraseIdx hw)
  | switched r => exact .inl (List.mem_of_mem_eraseIdx hw)
  | found | begin | wake | polled | unwind | register => exact .inl hw

theorem switching_step {a : Act} (h : n.Switching) (hsound : n.Sound) (hstep : Step n a m) : m.Switching := by
  intro w hw
  have hgrows := grows_step hstep
  rcases switches_step hstep hw with hw | ⟨hparse, hget⟩
  · obtain ⟨hparse, hlt, hname⟩ := h w hw
    exact ⟨hparse, hlt.trans_le hgrows.fresh, (hgrows.name _ hlt).trans hname⟩
  · obtain ⟨hname, -, hlt⟩ := hsound.named _ _ hget
    exact ⟨hparse, hlt.trans_le hgrows.fresh, (hgrows.name _ hlt).trans hname⟩

/-- A faithful step tells the listeners what becomes of the ref. -/
theorem replicates_step {a : Act} (h : n.Sound) (hs : n.Switching) (hclean : n.Faithful ref a) (hstep : Step n a m) :
    Adapter.Replicates ref n.adapter m.adapter := by
  have hnamed := wellNamed h.toPlaced
  have hvalid : ∀ {id : Nat}, n.adapter.Current id → validRefToken (n.adapter.heap id).name = true := fun hcur =>
    (h.named _ _ hcur).2.1
  cases hstep with
  | start pdus => exact replicates_start h.toPlaced pdus hclean
  | stop => exact replicates_stop hclean
  | reconcile enabled pdus => exact replicates_reconcile h.toPlaced enabled pdus hclean
  | @lost old id rest hop =>
      have hsame : n.adapter.SameButReadings (n.adapter.setObj id { n.adapter.heap id with online := some false }) := .setObj rfl rfl rfl
      have hsilent : n.adapter.Silent (n.adapter.setObj id { n.adapter.heap id with online := some false }) := .setObj rfl
      have hforget : n.adapter.Forgettable ref (n.adapter.builtNow rest) := hclean _ hop
      refine Adapter.Replicates.trans hsilent.replicates (replicates_advance _ _ (h.toPlaced.adapter hsame) ?_)
      have hbuilt : (n.adapter.setObj id { n.adapter.heap id with online := some false }).builtNow rest = n.adapter.builtNow rest := by
        apply builtNow_congr
        · rfl
        · exact fun _ _ _ => rfl
      rw [hbuilt]
      exact fun hof => (Adapter.outletOnState_of_readings hsilent.pdus hsilent.readings).trans (hforget hof)
  | @found old id rest ids hop => exact Adapter.replicates_discover ids
  | @brought old id switched rest result hop =>
      obtain ⟨hcur, -⟩ := h.head _ hop
      obtain ⟨hreads, hforget, hnot⟩ := hclean _ hop
      have hsame := Adapter.sameButReadings_refresh n.adapter id result
      have hcur' := (Adapter.current_congr hsame.pdus hsame.name).mpr hcur
      have hsilent := silent_start ({ n with adapter := n.adapter.refreshReadings id result } : Node) id
      have hplaced := (h.toPlaced.adapter hsame).start hcur'
      refine (Adapter.replicates_refresh hnamed hcur (hvalid hcur) hreads).trans
        (hsilent.replicates.trans (replicates_advance _ _ hplaced ?_))
      have hbuilt : (({ n with adapter := n.adapter.refreshReadings id result } : Node).startPollTask id).adapter.builtNow rest =
          n.adapter.builtNow rest := by
        refine builtNow_congr ?_ rest fun _ c _ => ?_
        · obtain ⟨he, -⟩ | ⟨-, -, he⟩ := start_cases ({ n with adapter := n.adapter.refreshReadings id result } : Node) id <;>
            exact (congrArg (fun u : Node => u.adapter.enabled) he).trans hsame.enabled
        · rw [hsilent.pdus, hsame.pdus]
      rw [hbuilt]
      intro hof
      refine (Adapter.outletOnState_of_readings hsilent.pdus hsilent.readings).trans (Eq.trans ?_ (hforget hof))
      refine Adapter.outletOnState_refresh_ne result hnamed fun p hp hname => ?_
      -- the PDUs that are built now are not the one that was read
      obtain ⟨name, hmem, hof⟩ := hof
      have : p.1 = name := by simpa [OfPdu, Option.mem_def.mp hp] using hof
      exact hnot (by rw [← hname, this]; exact hmem)
  | @polled t id switched result ht =>
      obtain ⟨hcur, -⟩ := h.live t _ ⟨ht, rfl⟩
      exact Adapter.replicates_refresh hnamed hcur (hvalid hcur) (hclean _ ht)
  | @switched i w r hw =>
      obtain ⟨hparse, -, hname⟩ := hs w (List.mem_of_getElem? hw)
      exact Adapter.replicates_finish hnamed hparse hname (hclean w hw)
  | begin | wake | unwind | setOutlet | refused | register => exact .of_eq rfl rfl

/-! ## Reads that a switch overtakes -/

theorem readings_advance {old : Option Bool} (todo : List Todo) {i : Nat} : ∀ n : Node, n.Placed → i < n.adapter.fresh →
    ((advance old todo n).adapter.heap i).readings = (n.adapter.heap i).readings := by
  induction todo with
  | nil => exact fun n _ _ => (silent_finish n old).readings i
  | cons x rest ih =>
      intro n hp hi
      cases x with
      | bring id => rfl
      | build c =>
          have hbuild : ((n.buildPdu c).adapter.heap i).readings = (n.adapter.heap i).readings := by
            by_cases hb : Builds c
            · rw [(built hp hb).heap i hi.ne]
              split <;> rfl
            · rw [buildPdu_of_not hb]
          have hrest := (ih _ (hp.build c) (hi.trans_le (Grows.build n c).fresh)).trans hbuild
          unfold advance
          dsimp only
          split
          · exact hrest
          · split
            · exact hbuild
            · exact hrest

/-- A read that reports the outlets that were switched since it began as they are leaves them so. -/
theorem switchesStand_step {a : Act} (h : n.Sound) (hclean : n.Faithful ref a) (hstep : Step n a m) : n.SwitchesStand a m := by
  have happly : ∀ (id : Nat) (readings : Dict Text OutletReading) (switched : List Text),
      n.adapter.ReadsWell id ref switched (.readings readings) → ∀ o ∈ switched,
        (((n.adapter.applyReadings id readings).heap id).readings.get? o).map (·.on) =
          ((n.adapter.heap id).readings.get? o).map (·.on) := by
    intro id readings switched hwell o ho
    rw [Adapter.get?_apply, Option.map_map]
    exact (Option.map_congr fun r _ => Adapter.on_clearError _ r).trans (hwell.2.2 o ho)
  cases hstep with
  | @polled t id switched result ht =>
      cases result with
      | readings readings =>
          intro k hk o ho
          cases ht.symm.trans hk
          exact happly id readings switched (hclean _ ht) o ho
      | _ => trivial
  | @brought old id switched rest result hop =>
      cases result with
      | readings readings =>
          intro p hp o ho
          cases hop.symm.trans hp
          obtain ⟨hcur, -⟩ := h.head _ hop
          have hsame := Adapter.sameButReadings_refresh n.adapter id (.readings readings)
          have hsilent := silent_start ({ n with adapter := n.adapter.refreshReadings id (.readings readings) } : Node) id
          have hplaced := (h.toPlaced.adapter hsame).start ((Adapter.current_congr hsame.pdus hsame.name).mpr hcur)
          have hgrows := Grows.start ({ n with adapter := n.adapter.refreshReadings id (.readings readings) } : Node) id
          have hlt : id < n.adapter.fresh := (h.named _ _ hcur).2.2
          rw [← hsame.fresh] at hlt
          rw [readings_advance _ _ hplaced (hlt.trans_le hgrows.fresh), hsilent.readings]
          exact happly id readings switched (hclean _ hop).1 o ho
      | _ => trivial
  | _ => trivial

theorem switching_fresh {enabled : Bool} {ports : Dict Text ConsolePort} : (fresh enabled ports).Switching := by
  intro w hw
  cases hw

end Node

end OpenMux.Pdu
