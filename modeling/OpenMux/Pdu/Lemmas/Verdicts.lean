import OpenMux.Pdu.Outlets

/-!
# Verdicts from the states of the feeds
-/

namespace OpenMux.Pdu

open Py Federation

/-! ## Refs -/

theorem parseRef_eq {ref pduName outletId : Text} (h : parseRef ref = some (pduName, outletId)) :
    ref = outletRef pduName outletId := by
  unfold parseRef at h
  split at h
  · cases h
  · split at h
    · rename_i p o hsplit
      split at h
      · cases h
      · cases h
        exact split_two hsplit
    · cases h

theorem outletRef_inj {pduName o o' : Text} (h : outletRef pduName o = outletRef pduName o') : o = o' := by
  simpa [outletRef] using h

namespace Adapter

variable {s t : Adapter} {portName ref : Text} {on : Option Bool} {id : Nat}

/-! ## The four verdicts -/

theorem mem_mappedPortsForRef : portName ∈ s.mappedPortsForRef ref ↔ ref ∈ s.portPowerMap portName := by
  constructor
  · intro h
    obtain ⟨e, he, rfl⟩ := List.mem_map.mp h
    obtain ⟨he, href⟩ := List.mem_filter.mp he
    have hget := Dict.mem_entries.mp (show (e.1, e.2) ∈ s.ports.entries from he)
    simpa [portPowerMap, hget] using href
  · intro h
    cases hget : s.ports.get? portName with
    | none => simp [portPowerMap, hget] at h
    | some p =>
        simp only [portPowerMap, hget] at h
        exact List.mem_map.mpr ⟨(portName, p), List.mem_filter.mpr ⟨Dict.mem_entries.mpr hget, by simpa using h⟩, rfl⟩

theorem liveFeeds_eq_nil : s.liveFeeds (s.portPowerMap portName) ref = [] ↔ ¬ s.Lit portName ref := by
  simp only [liveFeeds, Lit, List.filter_filter, List.filter_eq_nil_iff, not_exists, not_and]
  refine forall_congr' fun r => forall_congr' fun _ => ?_
  by_cases hr : r = ref <;> simp [hr]

/-- What is said before a switch looks at the local refs only, and these are the only ones that read on here. -/
theorem liveFeeds_impactRefs {localRef : Bool} {refs : List Text} :
    s.liveFeeds (impactRefs localRef refs) ref = s.liveFeeds refs ref := by
  cases localRef with
  | false => rfl
  | true =>
      have hlocal : ∀ r, s.outletOnState r = some true → (splitRemoteRef r).isNone := by
        intro r h
        by_contra hsplit
        have hparse : parseRef r = none := by simp [parseRef, Option.isSome_iff_ne_none, ← Option.isNone_iff_eq_none, hsplit]
        simp [outletOnState, readingOf, hparse] at h
      simp only [liveFeeds, impactRefs, if_true, List.filter_filter]
      refine List.filter_congr fun r _ => ?_
      by_cases hon : s.outletOnState r = some true
      · simp [hon, hlocal r hon]
      · simp [hon]

theorem metaEventFor_lost : (s.metaEventFor ref on portName).allPowerLost = true ↔ on ≠ some true ∧ ¬ s.Lit portName ref := by
  simp [metaEventFor, liveFeeds_eq_nil]

theorem payloadLost_iff_none : s.PayloadLost portName ↔ s.PayloadNone portName := by
  unfold PayloadLost PayloadNone portPowerPayload
  cases s.portPowerMap portName with
  | nil => simp
  | cons r rs => simp

theorem payloadLost_iff : s.PayloadLost portName ↔ (∃ r ∈ s.portPowerMap portName, s.feedOn portName r ≠ none) ∧
    ∀ r ∈ s.portPowerMap portName, s.feedOn portName r ≠ some true := by
  rw [payloadLost_iff_none]
  unfold PayloadNone portPowerPayload
  cases hmap : s.portPowerMap portName with
  | nil => simp
  | cons r rs =>
      have hon : ∀ refs : List Text, ((refs.map fun ref => (⟨ref, (s.feedOnWatts portName ref).1,
          (s.feedOnWatts portName ref).2⟩ : FeedEntry)).filter fun f => f.on = some true).length = 0 ↔
          ∀ r ∈ refs, s.feedOn portName r ≠ some true := by
        intro refs
        simp [List.length_eq_zero_iff, List.filter_eq_nil_iff, feedOn]
      have hknown : ∀ refs : List Text, ((refs.map fun ref => (⟨ref, (s.feedOnWatts portName ref).1,
          (s.feedOnWatts portName ref).2⟩ : FeedEntry)).filter fun f => f.on.isSome).length = 0 ↔
          ¬ ∃ r ∈ refs, s.feedOn portName r ≠ none := by
        intro refs
        simp [List.length_eq_zero_iff, List.filter_eq_nil_iff, feedOn]
      specialize hon (r :: rs)
      specialize hknown (r :: rs)
      simp only [Option.map_some, Option.some.injEq]
      split_ifs with h₀ hall h₁
      · exact iff_of_false (by simp) fun h => hknown.mp h₀ h.1
      · refine iff_of_false (by simp) fun h => ?_
        rw [hon.mpr h.2] at hall
        exact absurd hall (by simp)
      · exact iff_of_true rfl ⟨not_not.mp (mt hknown.mpr h₀), hon.mp h₁⟩
      · exact iff_of_false (by simp) fun h => h₁ (hon.mpr h.2)

/-- When the flag that a port is told agrees with its payload. -/
theorem judged_iff : t.Judged portName ref on ↔
    ((on ≠ some true ∧ ¬ t.Lit portName ref) ↔ t.PayloadLost portName) ∧
      (t.OtherOn portName ref → ¬ t.PayloadLost portName) := by
  have hnot : ¬ t.PayloadLost portName ↔ (∃ r ∈ t.portPowerMap portName, t.feedOn portName r = some true) ∨
      ∀ r ∈ t.portPowerMap portName, t.feedOn portName r = none := by
    rw [payloadLost_iff, not_and_or]
    push Not
    exact or_comm
  unfold Judged
  split
  · rename_i hlit
    rw [← hnot, ← not_or]
    exact ⟨fun h => ⟨iff_of_false (not_not.mpr hlit) h, fun _ => h⟩, fun h => mt h.1.mpr (not_not.mpr hlit)⟩
  · rename_i hdark
    rw [← and_assoc, ← payloadLost_iff]
    exact ⟨fun h => ⟨iff_of_true (not_or.mp hdark) h.1, fun ho => absurd ho h.2⟩,
      fun h => ⟨h.1.mp (not_or.mp hdark), fun ho => h.2 ho (h.1.mp (not_or.mp hdark))⟩⟩

/-- The port is told once, with what reads on here afterwards. -/
theorem toldRightly_iff {e : MetaEvent} (htold : s.told portName ref t = [e])
    (he : e.allPowerLost = true ↔ on ≠ some true ∧ ¬ t.Lit portName ref) :
    s.ToldRightly portName ref t ↔ t.Judged portName ref on := by
  rw [judged_iff]
  constructor
  · intro h
    exact ⟨he.symm.trans (h.flag e (by simp [htold])), fun ho => (h.spared ho).2⟩
  · rintro ⟨hflag, hspared⟩
    refine ⟨fun e' he' => ?_, payloadLost_iff_none, fun ho => ⟨fun e' he' => ?_, hspared ho⟩⟩
    · obtain rfl : e' = e := by simpa [htold] using he'
      exact he.trans hflag
    · obtain rfl : e' = e := by simpa [htold] using he'
      exact Bool.eq_false_iff.mpr fun hlost => hspared ho (hflag.mp (he.mp hlost))

/-! ## Reads -/

theorem nodup_mappedPortsForRef : (s.mappedPortsForRef ref).Nodup :=
  s.ports.nodup.sublist (List.filter_sublist.map _)

theorem filter_map_eq_singleton {α β : Type} {l : List α} {f : α → β} {P : β → Bool} {a : α} (hn : l.Nodup) (ha : a ∈ l)
    (hP : ∀ x ∈ l, P (f x) = true ↔ x = a) : (l.map f).filter P = [f a] := by
  induction l with
  | nil => cases ha
  | cons x l ih =>
      obtain ⟨hx, hn⟩ := List.nodup_cons.mp hn
      rcases List.mem_cons.mp ha with rfl | ha
      · have hnone : (l.map f).filter P = [] := by
          refine List.filter_eq_nil_iff.mpr fun b hb => ?_
          obtain ⟨y, hy, rfl⟩ := List.mem_map.mp hb
          rw [hP y (List.mem_cons_of_mem _ hy)]
          rintro rfl
          exact hx hy
        rw [List.map_cons, List.filter_cons_of_pos ((hP a List.mem_cons_self).mpr rfl), hnone]
      · have hne : x ≠ a := by
          rintro rfl
          exact hx ha
        rw [List.map_cons, List.filter_cons_of_neg (mt (hP x List.mem_cons_self).mp hne)]
        exact ih hn ha fun y hy => hP y (List.mem_cons_of_mem _ hy)

/-- The events of the change of an outlet. -/
def eventsOf (s : Adapter) (pduName : Text) (e : Text × Option Bool) : List MetaEvent :=
  (s.mappedPortsForRef (outletRef pduName e.1)).map (s.metaEventFor (outletRef pduName e.1) e.2)

theorem filter_eventsOf {pduName outletId : Text} (hdecl : outletRef pduName outletId ∈ s.portPowerMap portName) :
    (s.eventsOf pduName (outletId, on)).filter (fun e => e.port = portName ∧ e.outlet = outletRef pduName outletId) =
      [s.metaEventFor (outletRef pduName outletId) on portName] :=
  filter_map_eq_singleton nodup_mappedPortsForRef (mem_mappedPortsForRef.mpr hdecl) fun p _ => by simp [metaEventFor]

/-- Of the events of all changes, one tells the port of the outlet. -/
theorem filter_events {pduName outletId : Text} {changed : List (Text × Option Bool)} (hn : (changed.map Prod.fst).Nodup)
    (hmem : (outletId, on) ∈ changed) (hdecl : outletRef pduName outletId ∈ s.portPowerMap portName) :
    (changed.flatMap (s.eventsOf pduName)).filter (fun e => e.port = portName ∧ e.outlet = outletRef pduName outletId) =
      [s.metaEventFor (outletRef pduName outletId) on portName] := by
  have hother : ∀ e : Text × Option Bool, e.1 ≠ outletId →
      (s.eventsOf pduName e).filter (fun e => e.port = portName ∧ e.outlet = outletRef pduName outletId) = [] := by
    intro e he
    refine List.filter_eq_nil_iff.mpr fun b hb => ?_
    obtain ⟨p, -, rfl⟩ := List.mem_map.mp hb
    have hne : outletRef pduName e.1 ≠ outletRef pduName outletId := fun h => he (outletRef_inj h)
    simp [metaEventFor, hne]
  induction changed with
  | nil => cases hmem
  | cons e es ih =>
      rw [List.map_cons, List.nodup_cons] at hn
      rw [List.flatMap_cons, List.filter_append]
      rcases List.mem_cons.mp hmem with rfl | hmem
      · have hrest : (es.flatMap (s.eventsOf pduName)).filter
            (fun e => e.port = portName ∧ e.outlet = outletRef pduName outletId) = [] := by
          refine List.filter_eq_nil_iff.mpr fun b hb => ?_
          obtain ⟨e', he', hb⟩ := List.mem_flatMap.mp hb
          have hne : e'.1 ≠ outletId := fun h => hn.1 (List.mem_map.mpr ⟨e', he', h⟩)
          exact List.filter_eq_nil_iff.mp (hother e' hne) b hb
        rw [filter_eventsOf hdecl, hrest, List.append_nil]
      · have hne : e.1 ≠ outletId := fun h => hn.1 (List.mem_map.mpr ⟨_, hmem, h.symm⟩)
        rw [hother e hne, List.nil_append]
        exact ih hn.2 hmem

theorem metaEvents_emit {pduName outletId : Text} :
    (s.emitOutletChange pduName outletId on).metaEvents = s.metaEvents ++ s.eventsOf pduName (outletId, on) := rfl

theorem foldl_emit (s : Adapter) (pduName : Text) (changed : List (Text × Option Bool)) :
    (changed.foldl (fun t e => t.emitOutletChange pduName e.1 e.2) s).metaEvents =
        s.metaEvents ++ changed.flatMap (s.eventsOf pduName) ∧
      (changed.foldl (fun t e => t.emitOutletChange pduName e.1 e.2) s).ports = s.ports ∧
      (changed.foldl (fun t e => t.emitOutletChange pduName e.1 e.2) s).pdus = s.pdus ∧
      (changed.foldl (fun t e => t.emitOutletChange pduName e.1 e.2) s).heap = s.heap := by
  induction changed generalizing s with
  | nil => simp
  | cons e es ih =>
      obtain ⟨hevents, hports, hpdus, hheap⟩ := ih (s.emitOutletChange pduName e.1 e.2)
      refine ⟨?_, hports, hpdus, hheap⟩
      rw [List.foldl_cons, hevents, metaEvents_emit, List.append_assoc, List.flatMap_cons]
      rfl

theorem told_eq {es : List MetaEvent} (h : t.metaEvents = s.metaEvents ++ es) :
    s.told portName ref t = es.filter fun e => e.port = portName ∧ e.outlet = ref := by
  rw [told, h, List.drop_left]

/-- Only the ports, the names and the objects count for what reads on. -/
theorem lit_congr (hports : t.ports = s.ports) (hpdus : t.pdus = s.pdus) (hheap : t.heap = s.heap) :
    t.Lit portName ref ↔ s.Lit portName ref := by
  unfold Lit portPowerMap outletOnState readingOf
  rw [hports, hpdus, hheap]

theorem changedOutlets_nodup {readings : Dict Text OutletReading} : ((s.changedOutlets id readings).map Prod.fst).Nodup := by
  unfold changedOutlets
  rw [List.map_map]
  exact readings.nodup.sublist (List.filter_sublist.map _)

theorem toldRightly_apply {readings : Dict Text OutletReading} {outletId : Text}
    (hchanged : (outletId, on) ∈ s.changedOutlets id readings)
    (hdecl : outletRef (s.heap id).name outletId ∈ s.portPowerMap portName) :
    s.ToldRightly portName (outletRef (s.heap id).name outletId) (s.applyReadings id readings) ↔
      (s.applyReadings id readings).Judged portName (outletRef (s.heap id).name outletId) on := by
  obtain ⟨hevents, hports, hpdus, hheap⟩ :=
    foldl_emit (s.mergeReadings id readings) (s.heap id).name (s.changedOutlets id readings)
  refine toldRightly_iff (e := (s.mergeReadings id readings).metaEventFor (outletRef (s.heap id).name outletId) on portName)
    ((told_eq hevents).trans (filter_events changedOutlets_nodup hchanged hdecl)) ?_
  rw [metaEventFor_lost]
  exact and_congr_right fun _ => not_congr (lit_congr hports hpdus hheap).symm

/-! ## Reads that fail -/

/-- A name stands for the object that was built under it. -/
def WellNamed (s : Adapter) : Prop := ∀ name id, s.pdus.get? name = some id → (s.heap id).name = name

/-- Storing a reading changes what one ref stands for. -/
theorem readingOf_store (hs : s.WellNamed) {outletId : Text} {reading : OutletReading}
    (hr : ref ≠ outletRef (s.heap id).name outletId) : (s.store id outletId reading).readingOf ref = s.readingOf ref := by
  unfold readingOf
  cases hparse : parseRef ref with
  | none => rfl
  | some p =>
      obtain ⟨pduName, o⟩ := p
      cases hget : s.pdus.get? pduName with
      | none => simp [store, setObj, hget]
      | some id' =>
          by_cases hid : id' = id
          · subst hid
            have ho : o ≠ outletId := by
              rintro rfl
              exact hr (by rw [hs pduName id' hget]; exact parseRef_eq hparse)
            simp [store, setObj, hget, Dict.get?_set_ne _ _ ho]
          · simp [store, setObj, hget, hid]

theorem lit_store (hs : s.WellNamed) {outletId : Text} {reading : OutletReading} :
    (s.store id outletId reading).Lit portName (outletRef (s.heap id).name outletId) ↔
      s.Lit portName (outletRef (s.heap id).name outletId) := by
  refine exists_congr fun r => and_congr_right fun _ => and_congr_right fun hr => ?_
  rw [outletOnState, outletOnState, readingOf_store hs hr]

theorem toldRightly_offline (hs : s.WellNamed) {error outletId : Text} {reading : OutletReading}
    (hreading : (s.heap id).readings.get? outletId = some reading) (hon : reading.on ≠ none)
    (hdecl : outletRef (s.heap id).name outletId ∈ s.portPowerMap portName) :
    s.ToldRightly portName (outletRef (s.heap id).name outletId) (s.markOutletOffline id error outletId) ↔
      (s.markOutletOffline id error outletId).Judged portName (outletRef (s.heap id).name outletId) none := by
  have hmark : s.markOutletOffline id error outletId = (s.emitOutletChange (s.heap id).name outletId none).store id outletId
      { reading with error := error, on := none } := by
    simp [markOutletOffline, hreading, hon]
  rw [hmark]
  refine toldRightly_iff (e := s.metaEventFor (outletRef (s.heap id).name outletId) none portName)
    ((told_eq rfl).trans (filter_eventsOf hdecl)) ?_
  rw [metaEventFor_lost]
  exact and_congr_right fun _ => not_congr (lit_store (s := s.emitOutletChange (s.heap id).name outletId none) hs).symm

/-! ## Switches -/

section Switch

variable {before : Adapter} {pduName outletId : Text} {user clientId : Option Text} {impact : Impact} {reading : OutletReading}

/-- The events and the notices of a switch are told in the state that it leaves. -/
theorem finish_tells {t : Adapter} (ht : s.finishSetOutlet id pduName outletId ref false user clientId impact reading = t) :
    t.metaEvents = s.metaEvents ++ (if s.Changes id outletId reading.on then t.eventsOf pduName (outletId, reading.on) else []) ∧
      t.notices = s.notices ++ (t.mappedPortsForRef ref).map (t.noticeFor ref false user clientId) := by
  subst ht
  unfold finishSetOutlet Changes
  dsimp only
  by_cases honline : ((s.store id outletId (clearError ((s.heap id).readings.get? outletId) reading)).heap id).online = some false
  · rw [if_pos honline]
    split
    · exact ⟨rfl, rfl⟩
    · exact ⟨(List.append_nil _).symm, rfl⟩
  · rw [if_neg honline]
    split
    · exact ⟨rfl, rfl⟩
    · exact ⟨(List.append_nil _).symm, rfl⟩

theorem controlNoticeText_ne {on : Bool} : controlNoticeText ref on ≠ controlAllLostNoticeText := by
  intro h
  have hseventh : (controlNoticeText ref on)[6]? = controlAllLostNoticeText[6]? := by rw [h]
  have hfeed : (controlNoticeText ref on)[6]? = some ']' := by
    unfold controlNoticeText
    rw [List.append_assoc, List.getElem?_append_left (by decide)]
    rfl
  rw [hfeed] at hseventh
  exact absurd hseventh (by decide)

theorem warning_iff : (s.noticeFor ref false user clientId portName).text = controlAllLostNoticeText ↔ ¬ s.Lit portName ref := by
  rw [← liveFeeds_eq_nil]
  unfold noticeFor
  by_cases hlive : s.liveFeeds (s.portPowerMap portName) ref = []
  · simp [hlive]
  · simp [hlive, controlNoticeText_ne]

theorem mem_impactRefs {localRef : Bool} {refs : List Text} (hlocal : localRef = true → (splitRemoteRef ref).isNone) :
    ref ∈ impactRefs localRef refs ↔ ref ∈ refs := by
  cases localRef with
  | false => rfl
  | true => simp [impactRefs, Option.isNone_iff_eq_none.mp (hlocal rfl)]

/-- The preview names every port that declares the outlet, as one that loses power or as one that stays up. -/
theorem impact_iff {localRef : Bool} (hdecl : ref ∈ before.portPowerMap portName)
    (hlocal : localRef = true → (splitRemoteRef ref).isNone) :
    (portName ∈ (before.computeOffImpact ref localRef).losingPower.map (·.port) ↔ ¬ before.Lit portName ref) ∧
      (portName ∈ (before.computeOffImpact ref localRef).stayingUp.map (·.port) ↔ before.Lit portName ref) := by
  obtain ⟨p, hp, href⟩ : ∃ p, before.ports.get? portName = some p ∧ ref ∈ p.power := by
    cases hget : before.ports.get? portName with
    | none => simp [portPowerMap, hget] at hdecl
    | some p => exact ⟨p, rfl, by simpa [portPowerMap, hget] using hdecl⟩
  have hmap : before.portPowerMap portName = p.power := by simp [portPowerMap, hp]
  have hlive : before.liveFeeds (impactRefs localRef p.power) ref = [] ↔ ¬ before.Lit portName ref := by
    rw [liveFeeds_impactRefs, ← hmap, liveFeeds_eq_nil]
  have hentry : ∀ q : Text × ConsolePort, q ∈ before.ports.entries → q.1 = portName → q = (portName, p) := by
    rintro ⟨name, q⟩ hq rfl
    rw [Dict.mem_entries, hp] at hq
    cases hq
    rfl
  have hmem : ∀ P : Text × ConsolePort → Bool, (∃ q ∈ before.ports.entries,
      (P q = true ∧ ref ∈ impactRefs localRef q.2.power) ∧ q.1 = portName) ↔ P (portName, p) = true := by
    intro P
    constructor
    · rintro ⟨q, hq, ⟨hP, -⟩, hname⟩
      rwa [hentry q hq hname] at hP
    · exact fun hP => ⟨_, Dict.mem_entries.mpr hp, ⟨hP, (mem_impactRefs hlocal).mpr href⟩, rfl⟩
  constructor
  · rw [← hlive]
    simpa [computeOffImpact, and_assoc] using hmem fun q => before.liveFeeds (impactRefs localRef q.2.power) ref = []
  · rw [← not_not (a := before.Lit portName ref), ← hlive]
    simpa [computeOffImpact, and_assoc] using hmem fun q => before.liveFeeds (impactRefs localRef q.2.power) ref ≠ []

theorem portPowerMap_finish {on : Bool} : (s.finishSetOutlet id pduName outletId ref on user clientId impact reading).portPowerMap portName =
    s.portPowerMap portName := by
  unfold finishSetOutlet
  dsimp only
  split_ifs <;> rfl

theorem noted_finish {t : Adapter} (ht : s.finishSetOutlet id pduName outletId ref false user clientId impact reading = t)
    (hdecl : ref ∈ t.portPowerMap portName) : s.noted portName ref t = [t.noticeFor ref false user clientId portName] := by
  rw [noted, (finish_tells ht).2, List.drop_left]
  exact filter_map_eq_singleton nodup_mappedPortsForRef (mem_mappedPortsForRef.mpr hdecl) fun p _ => by simp [noticeFor]

theorem told_finish {t : Adapter} (ht : s.finishSetOutlet id pduName outletId ref false user clientId impact reading = t)
    (href : ref = outletRef pduName outletId) (hdecl : ref ∈ t.portPowerMap portName) :
    s.told portName ref t =
      if s.Changes id outletId reading.on then [t.metaEventFor ref reading.on portName] else [] := by
  subst href
  rw [told_eq (finish_tells ht).1]
  split
  · exact filter_eventsOf hdecl
  · rfl

/-- A switch that finds the same other feeds on as the preview did is told in one way, if its port is judged as one that lost
the outlet and the reading that came back does not say that it is on. -/
theorem oneVerdict_finish {t : Adapter} {localRef : Bool}
    (ht : s.finishSetOutlet id pduName outletId ref false user clientId (before.computeOffImpact ref localRef) reading = t)
    (href : ref = outletRef pduName outletId) (hlocal : localRef = true → (splitRemoteRef ref).isNone)
    (hbefore : ref ∈ before.portPowerMap portName) (hdecl : ref ∈ t.portPowerMap portName) :
    s.OneVerdict portName ref (before.computeOffImpact ref localRef) t ↔
      (before.Lit portName ref ↔ t.Lit portName ref) ∧ t.Judged portName ref (some false) ∧
        (s.Changes id outletId reading.on → reading.on = some true → t.Lit portName ref) := by
  have htold := told_finish ht href hdecl
  have hnoted := noted_finish ht hdecl
  obtain ⟨hlosing, hstaying⟩ := impact_iff hbefore hlocal
  rw [judged_iff]
  constructor
  · intro h
    have hlost : ¬ t.Lit portName ref ↔ t.PayloadLost portName := by
      have hwarned := h.warned (t.noticeFor ref false user clientId portName) (by simp [hnoted])
      rwa [warning_iff] at hwarned
    refine ⟨not_iff_not.mp ((hlosing.symm.trans h.losing).trans hlost.symm), ⟨by simpa using hlost, fun ho => (h.spared ho).2⟩,
      fun hc hon => ?_⟩
    have hflag := h.flag (t.metaEventFor ref reading.on portName) (by simp [htold, hc])
    rw [metaEventFor_lost] at hflag
    by_contra hlit
    exact (hflag.mpr (hlost.mp hlit)).1 hon
  · rintro ⟨hsame, ⟨hflag, hspared⟩, hon⟩
    have hlost : ¬ t.Lit portName ref ↔ t.PayloadLost portName := by simpa using hflag
    have hevent : ∀ e ∈ s.told portName ref t, (e.allPowerLost = true ↔ t.PayloadLost portName) := by
      intro e he
      rw [htold] at he
      split at he
      · rename_i hc
        obtain rfl := List.mem_singleton.mp he
        rw [metaEventFor_lost, ← hlost]
        exact and_iff_right_of_imp fun hlit htrue => hlit (hon hc htrue)
      · cases he
    refine ⟨⟨hevent, payloadLost_iff_none, fun ho => ⟨fun e he => ?_, hspared ho⟩⟩, ?_, ?_, fun n hn => ?_⟩
    · exact Bool.eq_false_iff.mpr fun h => hspared ho ((hevent e he).mp h)
    · rw [hlosing, hsame, hlost]
    · rw [hstaying, hsame, ← hlost, not_not]
    · obtain rfl : n = _ := by simpa [hnoted] using hn
      rw [warning_iff, hlost]

end Switch

/-! ## Ports of this node -/

/-- A port of this node whose outlet reads as it was told. -/
theorem judged_iff_locally (hlocal : t.isRemotePort portName = false) (hdecl : ref ∈ t.portPowerMap portName)
    (hon : t.outletOnState ref = on) : t.Judged portName ref on ↔ t.LocallyJudged portName ref on := by
  have hfeed : ∀ r, t.feedOn portName r = t.outletOnState r := by
    intro r
    simp [feedOn, feedOnWatts, hlocal]
  unfold Judged LocallyJudged
  simp only [hfeed]
  by_cases hlit : on = some true ∨ t.Lit portName ref
  · have hsome : ∃ r ∈ t.portPowerMap portName, t.outletOnState r = some true := by
      rcases hlit with htrue | ⟨r, hr, -, h⟩
      · exact ⟨ref, hdecl, hon.trans htrue⟩
      · exact ⟨r, hr, h⟩
    rw [if_pos hlit, ← or_assoc]
    exact iff_of_true (.inl hsome) (.inl hlit)
  · rw [if_neg hlit, ← or_assoc, or_iff_right hlit]
    obtain ⟨hne, hdark⟩ := not_or.mp hlit
    have hnone : ∀ r ∈ t.portPowerMap portName, t.outletOnState r ≠ some true := by
      intro r hr htrue
      by_cases hrr : r = ref
      · exact hne (by rw [← hon, ← hrr, htrue])
      · exact hdark ⟨r, hr, hrr, htrue⟩
    have hknown : (∃ r ∈ t.portPowerMap portName, t.outletOnState r ≠ none) ↔
        on = some false ∨ ∃ r ∈ t.portPowerMap portName, r ≠ ref ∧ t.outletOnState r ≠ none := by
      constructor
      · rintro ⟨r, hr, h⟩
        by_cases hrr : r = ref
        · left
          rw [hrr, hon] at h
          cases on with
          | none => exact absurd rfl h
          | some b => cases b with
            | true => exact absurd rfl hne
            | false => rfl
        · exact .inr ⟨r, hr, hrr, h⟩
      · rintro (hfalse | ⟨r, hr, -, h⟩)
        · exact ⟨ref, hdecl, by simp [hon, hfalse]⟩
        · exact ⟨r, hr, h⟩
    rw [hknown]
    exact and_congr_right fun _ => and_iff_right hnone

end Adapter

end OpenMux.Pdu
