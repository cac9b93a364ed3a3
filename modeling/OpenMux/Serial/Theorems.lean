import OpenMux.Serial.Lemmas.Adapter
import OpenMux.Serial.Lemmas.Lines

/-!
# Serial ports, over whole runs
-/

namespace OpenMux.Serial

open Py Transition

/-! ## Lines and handles -/

instance SerialPortWrapper.Clean.decidable (policy : Lines LinePolicy) (s : SerialPortWrapper) :
    (a : WrapperAct) → Decidable (s.Clean policy a)
  | .connect levels => decidable_of_iff ((s.writer.all (·.closed)) ∧
      ∀ line ∈ [Line.dtr, .rts], (SerialPortWrapper.lineLevel policy s.clientCount line).all fun level =>
        s.driven.get line = some level → levels.get line = level) (by
      have hlines : ∀ P : Line → Prop, (∀ line ∈ [Line.dtr, .rts], P line) ↔ ∀ line, P line :=
        fun P => ⟨fun h line => h line (by cases line <;> simp), fun h line _ => h line⟩
      simp only [SerialPortWrapper.Clean, hlines, Option.all_eq_true, decide_eq_true_eq, Option.mem_def])
  | .stop => inferInstanceAs (Decidable (s.supervisor = .waiting → ∀ t ∈ s.writer, t.closed = true))
  | .connectFails | .clients _ | .drop _ | .disconnect | .closed => isTrue trivial

/-- All along any run of one port the lines and the handles are right, exactly if no handle is left open when the device is opened again or
the port is stopped, and no level that is due is taken for one that the device has not. -/
theorem lines_right (policy : Lines LinePolicy) {t : SerialPortWrapper} {run : List WrapperAct}
    (h : exec (SerialPortWrapper.step policy) {} run = some t) :
    (∀ before u, before <+: run → exec (SerialPortWrapper.step policy) {} before = some u → u.Right policy) ↔
      Along (SerialPortWrapper.step policy) (SerialPortWrapper.Clean policy) {} run := by
  exact throughout_iff_along_of_invariant (fun _ _ _ hI hR hstep => hI.step hR hstep) SerialPortWrapper.inv_initial
    SerialPortWrapper.right_initial h

/-- DTR follows the clients, RTS is left alone. -/
def presenceOn : Lines LinePolicy := ⟨.presenceOn, .none⟩

/-- A client comes, the port is cut and comes back, and is stopped. -/
def replugged : List WrapperAct := [.connect ⟨true, true⟩, .clients 1, .disconnect, .closed, .connectFails, .connect ⟨false, true⟩, .clients 0,
  .stop, .closed]

theorem lines_right_replugged : ∃ t, exec (SerialPortWrapper.step presenceOn) {} replugged = some t ∧ t.Right presenceOn ∧
    t.transports.map (·.levels) = [⟨false, true⟩, ⟨true, true⟩] := by
  have hclean : Along (SerialPortWrapper.step presenceOn) (SerialPortWrapper.Clean presenceOn) {} replugged := by decide
  obtain ⟨t, ht, hlevels⟩ : ∃ t, exec (SerialPortWrapper.step presenceOn) {} replugged = some t ∧
      t.transports.map (·.levels) = [⟨false, true⟩, ⟨true, true⟩] := ⟨_, rfl, by decide⟩
  exact ⟨t, ht, (lines_right presenceOn ht).mpr hclean replugged t (List.prefix_refl replugged) ht, hlevels⟩

/-- After a drop the level that was driven on the old device is taken for that of the new one, and a handle that the drop left open stays
so, when the device is opened again and when the port is stopped. -/
theorem lines_right_fails :
    (∃ t, exec (SerialPortWrapper.step presenceOn) {} [.connect ⟨true, true⟩, .drop true, .connect ⟨true, true⟩] = some t ∧
      t.writer.map (·.levels.dtr) = some true ∧ ¬ t.Right presenceOn) ∧
    (∃ t, exec (SerialPortWrapper.step presenceOn) {} [.connect ⟨true, true⟩, .drop false, .connect ⟨true, true⟩] = some t ∧
      t.openCount = 2 ∧ ¬ t.Right presenceOn) ∧
    ∃ t, exec (SerialPortWrapper.step presenceOn) {} [.connect ⟨true, true⟩, .drop false, .stop] = some t ∧
      t.openCount = 1 ∧ ¬ t.Right presenceOn := by
  refine ⟨⟨_, rfl, rfl, ?_⟩, ⟨_, rfl, by decide, ?_⟩, ⟨_, rfl, by decide, ?_⟩⟩
  · intro h
    exact absurd (h.levels rfl _ rfl rfl .dtr false rfl) (by decide)
  · intro h
    exact absurd h.handles (by decide)
  · intro h
    exact absurd (h.released rfl) (by decide)

/-! ## The ports of an adapter -/

/-- All along any run of an adapter, whenever no operation is in progress, a device has one port that uses it and every port says why it is
offline, exactly if no operation recomputes the flags for the last time while a port that is not flagged has an error to tell. -/
theorem onePortPerDevice {α : Type} (cfg : Settings α) (entries : List (Text × Entry α)) {t : SerialAdapter α}
    {run : List (AdapterAct α)} (h : exec (SerialAdapter.step cfg) (.configured cfg entries) run = some t) :
    (∀ before u, before <+: run → exec (SerialAdapter.step cfg) (.configured cfg entries) before = some u → u.Idle → u.Right) ↔
      Along (SerialAdapter.step cfg) (SerialAdapter.Clean cfg) (.configured cfg entries) run := by
  refine throughout_iff_along_of_invariant (I := SerialAdapter.Inv cfg) (P := fun s => s.Idle → s.Right) ?_
    (SerialAdapter.inv_configured cfg entries) (fun _ => SerialAdapter.right_configured cfg entries) h
  intro s a u hI hR hstep
  obtain ⟨hright, hinv⟩ := hI.step hR hstep
  exact ⟨hright, fun _ => hinv⟩

instance SerialAdapter.Clean.decidable {α : Type} (cfg : Settings α) (s : SerialAdapter α) : (a : AdapterAct α) → Decidable (s.Clean cfg a)
  | .create name entry => inferInstanceAs (Decidable (name ≠ [] ∧ cfg.accepts entry = true → SerialAdapter.Quiet s.serialPorts))
  | .advance => by
      dsimp only [SerialAdapter.Clean]
      split <;> infer_instance
  | .start | .destroy _ | .reconcile _ | .connects _ | .fails _ _ | .drops _ _ | .ends _ => isTrue trivial

/-- Every entry with a device is accepted, and there is nothing else to compare. -/
def plain : Settings Unit := ⟨fun e => e.device ≠ [], fun _ _ => true⟩

/-- Two ports of one device and a third one. -/
def shared : List (Text × Entry Unit) := [(['a'], ⟨['x'], ()⟩), (['b'], ⟨['x'], ()⟩), (['c'], ⟨['y'], ()⟩)]

/-- The first port goes in a reload and its neighbour takes the device over; the third one has connected after an error. -/
def handover : List (AdapterAct Unit) := [.start, .connects ['a'], .fails ['c'] .notFound, .connects ['c'], .drops ['a'] .disconnected,
  .reconcile shared.tail, .advance, .advance, .connects ['b']]

theorem onePortPerDevice_handover : ∃ t, exec (SerialAdapter.step plain) (.configured plain shared) handover = some t ∧ t.Right ∧
    t.serialPorts.entries.map (fun e => (e.1, e.2.isConnected)) = [(['b'], true), (['c'], true)] := by
  have hclean : Along (SerialAdapter.step plain) (SerialAdapter.Clean plain) (.configured plain shared) handover := by decide +kernel
  obtain ⟨t, ht, hidle, hports⟩ : ∃ t, exec (SerialAdapter.step plain) (.configured plain shared) handover = some t ∧ t.Idle ∧
      t.serialPorts.entries.map (fun e => (e.1, e.2.isConnected)) = [(['b'], true), (['c'], true)] :=
    ⟨_, rfl, by decide +kernel, by decide +kernel⟩
  exact ⟨t, ht, (onePortPerDevice plain shared ht).mpr hclean handover t (List.prefix_refl handover) ht hidle, hports⟩

/-- An error that is told is lost when another port is created. -/
theorem onePortPerDevice_fails : ∃ t p, exec (SerialAdapter.step plain) (.configured plain [(['a'], ⟨['x'], ()⟩)])
      [.start, .fails ['a'] .notFound, .create ['b'] ⟨['y'], ()⟩] = some t ∧ t.Idle ∧ t.serialPorts.get? ['a'] = some p ∧
    p.isConnected = false ∧ p.failed = true ∧ p.statusMessage = [] ∧ ¬ t.Right := by
  refine ⟨_, _, rfl, by decide +kernel, rfl, rfl, rfl, rfl, ?_⟩
  intro h
  exact (h.reason ['a'] _ rfl).mpr (.inr rfl) rfl

end OpenMux.Serial
