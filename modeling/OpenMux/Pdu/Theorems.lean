import OpenMux.Pdu.Lemmas.Verdicts
import OpenMux.Pdu.Lemmas.Replica

/-!
# Power outlets
-/

namespace OpenMux.Pdu.Adapter

open Py Federation

variable {s : Adapter} {portName : Text}

/-! ## Lost power -/

/-- A PDU with one outlet, which is on. -/
def onePdu (name : Text) : PduState where
  name := name
  material := ⟨"dummy".toList, 10, .none, .none⟩
  online := some true
  readings := (∅ : Dict Text OutletReading).set ['1'] { on := some true }

/-- Two PDUs that feed one console, of which one feeds another console alone. -/
def twoRacks : Adapter where
  enabled := true
  isRunning := true
  pdus := ((∅ : Dict Text Nat).set ['a'] 0).set ['b'] 1
  heap := fun id => onePdu (if id = 0 then ['a'] else ['b'])
  fresh := 2
  ports := ((∅ : Dict Text ConsolePort).set ['t'] { power := ["a.1".toList, "b.1".toList] }).set ['u'] { power := ["a.1".toList] }

theorem twoRacks_wellNamed : twoRacks.WellNamed := by
  intro name id h
  have hmem := Dict.mem_entries.mpr h
  simp only [twoRacks, show ((((∅ : Dict Text Nat).set ['a'] 0).set ['b'] 1).entries) = [(['a'], 0), (['b'], 1)] from rfl,
    List.mem_cons, Prod.mk.injEq, List.not_mem_nil, or_false] at hmem
  rcases hmem with ⟨rfl, rfl⟩ | ⟨rfl, rfl⟩ <;> rfl

end OpenMux.Pdu.Adapter

namespace OpenMux.Pdu.Node

open Py Federation Transition

/-! ## Polling -/

/-- A PDU to be polled every ten seconds. -/
def rack (name : Text) : PduConf := { name := name, material := some ⟨"dummy".toList, 10, .none, .none⟩ }

/-- What a read of it finds. -/
def oneOn : ReadResult := .readings ((∅ : Dict Text OutletReading).set ['1'] { on := some true })

/-- Two PDUs are brought up and polled, and power is disabled and enabled again. -/
def steadyRun : List Act :=
  [.start [rack ['a'], rack ['b']], .listed (some [['1']]), .brought oneOn, .listed (some [['1']]), .brought oneOn, .begin 0, .begin 1,
    .wake 0, .polled 0 oneOn, .reconcile false [rack ['a'], rack ['b']], .unwind 0, .unwind 1,
    .reconcile true [rack ['a'], rack ['b']], .begin 2, .begin 3]

/-- Two PDUs are brought up, an outlet is switched off while its PDU is read, and the other PDU fails. -/
def toldRun : List Act :=
  [.start [rack ['a'], rack ['b']], .listed (some [['1']]), .brought oneOn, .listed (some [['1']]), .brought oneOn, .begin 0, .begin 1,
    .wake 0, .setOutlet "a.1".toList false none none, .switched 0 (some { on := some false }),
    .polled 0 (.readings ((∅ : Dict Text OutletReading).set ['1'] { on := some false })), .wake 1, .polled 1 (.raised "timeout".toList)]

end OpenMux.Pdu.Node
