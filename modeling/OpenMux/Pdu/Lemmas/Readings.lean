import OpenMux.Pdu.Lemmas.Polling
import OpenMux.Pdu.Lemmas.Verdicts

/-!
# What reads and switches do to the readings
-/

namespace OpenMux.Pdu.Adapter

open Py Federation

variable {s : Adapter} {id i : Nat} {o outletId pduName ref : Text} {on : Option Bool}

theorem heap_setObj_ne {p : PduState} (h : i ≠ id) : (s.setObj id p).heap i = s.heap i := if_neg h

@[simp] theorem on_clearError (prev : Option OutletReading) (r : OutletReading) : (clearError prev r).on = r.on := by
  unfold clearError
  split
  · split <;> rfl
  · rfl

@[simp] theorem heap_emit : (s.emitOutletChange pduName outletId on).heap = s.heap := rfl

@[simp] theorem pdus_emit : (s.emitOutletChange pduName outletId on).pdus = s.pdus := rfl

/-! ## Reads that succeed -/

/-- Emitting tells the listeners of each change in turn. -/
theorem changes_emits (pduName : Text) (changed : List (Text × Option Bool)) :
    ∀ s : Adapter, ∃ new, (changed.foldl (fun t e => t.emitOutletChange pduName e.1 e.2) s).changes = s.changes ++ new ∧
      new.map (fun c => (c.ref, c.on)) = changed.map fun e => (outletRef pduName e.1, e.2) := by
  induction changed with
  | nil => exact fun s => ⟨[], (List.append_nil _).symm, rfl⟩
  | cons e changed ih =>
      intro s
      obtain ⟨new, hnew, hmap⟩ := ih (s.emitOutletChange pduName e.1 e.2)
      refine ⟨⟨outletRef pduName e.1, e.2, s.mappedPortsForRef (outletRef pduName e.1)⟩ :: new, ?_, ?_⟩
      · rw [List.foldl_cons, hnew]
        simp [emitOutletChange]
      · simp [hmap]

theorem heap_apply (s : Adapter) (id : Nat) (readings : Dict Text OutletReading) :
    (s.applyReadings id readings).heap = (s.mergeReadings id readings).heap := (foldl_emit _ _ _).2.2.2

theorem get?_apply (s : Adapter) (id : Nat) (readings : Dict Text OutletReading) (o : Text) :
    ((s.applyReadings id readings).heap id).readings.get? o =
      (readings.get? o).map (clearError ((s.heap id).readings.get? o)) := by
  rw [heap_apply, mergeReadings, heap_setObj, if_pos rfl, Dict.get?_filterKeys, Dict.get?_update, Dict.get?_mapValues]
  cases readings.get? o <;> rfl

/-! ## Reads that fail -/

theorem heap_mark_ne {error : Text} (h : i ≠ id) : (s.markOutletOffline id error o).heap i = s.heap i := by
  unfold markOutletOffline
  split
  · rfl
  · split
    · exact heap_setObj_ne h
    · exact heap_setObj_ne h

theorem heap_marks_ne {error : Text} (h : i ≠ id) (keys : List Text) :
    ∀ s : Adapter, (keys.foldl (fun t o => t.markOutletOffline id error o) s).heap i = s.heap i := by
  induction keys with
  | nil => exact fun _ => rfl
  | cons o keys ih => exact fun s => (ih _).trans (heap_mark_ne h)

/-- A read touches the readings of its own PDU. -/
theorem heap_refresh_ne (result : ReadResult) (h : i ≠ id) : (s.refreshReadings id result).heap i = s.heap i := by
  cases result with
  | raised error => exact (heap_marks_ne h _ _).trans (heap_setObj_ne h)
  | backoff => rfl
  | readings readings => exact (congrFun (heap_apply s id readings) i).trans (heap_setObj_ne h)

/-! ## Discovery and switches -/

theorem get?_discover (ids : List Text) : ∀ d : Dict Text OutletReading,
    (ids.foldl (fun d o => if (d.get? o).isSome then d else d.set o {}) d).get? o =
      (d.get? o).or (if o ∈ ids then some {} else none) := by
  induction ids with
  | nil => simp
  | cons a ids ih =>
      intro d
      rw [List.foldl_cons, ih]
      by_cases ha : o = a
      · subst ha
        cases hd : d.get? o <;> simp [hd]
      · split <;> simp [Dict.get?_set_ne _ _ ha, ha]

theorem heap_finish {user clientId : Option Text} {impact : Impact} {reading : OutletReading} {b : Bool} :
    ((s.finishSetOutlet id pduName outletId ref b user clientId impact reading).heap i).readings =
      if i = id then (s.heap id).readings.set outletId (clearError ((s.heap id).readings.get? outletId) reading)
      else (s.heap i).readings := by
  have hstore : ∀ u : Adapter, ((if (u.heap id).online = some false then u.setObj id { u.heap id with online := some true }
      else u).heap i).readings = (u.heap i).readings := by
    intro u
    split
    · by_cases hi : i = id <;> simp [hi]
    · rfl
  have hemit : ∀ (u : Adapter) (P : Prop) [Decidable P], (if P then u.emitOutletChange pduName outletId reading.on else u).heap = u.heap := by
    intro u P _
    split <;> rfl
  unfold finishSetOutlet auditControl
  dsimp only
  rw [hemit, hstore]
  by_cases hi : i = id <;> simp [store, hi]

end OpenMux.Pdu.Adapter
