import OpenMux.Pdu.Polling

/-!
# What a listener knows of the outlets

A listener takes the states of the outlets when it subscribes, and from then on only the changes that it is told. Here is what it
holds, and which steps tell it all it has to know of a ref.
-/

namespace OpenMux.Pdu

open Py Federation

/-- What a listener holds after it has applied the changes in turn. -/
def applyChanges (f : Text → Option Bool) (changes : List Change) : Text → Option Bool :=
  changes.foldl (fun f c r => if r = c.ref then c.on else f r) f

/-- The ref names an outlet of a PDU of that name. -/
def OfPdu (ref name : Text) : Prop := (parseRef ref).any (fun p => p.1 = name) = true

instance (ref name : Text) : Decidable (OfPdu ref name) := inferInstanceAs (Decidable (_ = _))

namespace Adapter

variable (s : Adapter)

/-- The names that a reconcile builds a PDU of before it next waits. -/
def builtNow : List Todo → List Text
  | .build c :: rest =>
      if Builds c then if s.enabled then [c.name] else c.name :: builtNow rest
      else if s.enabled && (s.pdus.get? c.name).isSome then [] else builtNow rest
  | _ => []

/-- Nothing is known of the ref, if it is of one of the PDUs. -/
def Forgettable (ref : Text) (names : List Text) : Prop := (∃ name ∈ names, OfPdu ref name) → s.outletOnState ref = none

instance (ref : Text) (names : List Text) : Decidable (s.Forgettable ref names) := inferInstanceAs (Decidable (_ → _))

/-- A read reports the outlet of the ref, if it is known to be on or off, and reports no outlet whose ref is none. It also reports
the outlets that were switched since it began as they are. -/
def ReadsWell (id : Nat) (ref : Text) (switched : List Text) : ReadResult → Prop
  | .readings readings =>
      (∀ p ∈ parseRef ref, p.1 = (s.heap id).name → s.outletOnState ref ≠ none → (readings.get? p.2).isSome = true) ∧
      (parseRef ref = none → ∀ e ∈ s.changedOutlets id readings, outletRef (s.heap id).name e.1 = ref → e.2 = none) ∧
      ∀ o ∈ switched, (readings.get? o).map (·.on) = ((s.heap id).readings.get? o).map (·.on)
  | _ => True

instance (id : Nat) (ref : Text) (switched : List Text) : (result : ReadResult) → Decidable (s.ReadsWell id ref switched result)
  | .readings _ => inferInstanceAs (Decidable (_ ∧ _ ∧ _))
  | .raised _ | .backoff => isTrue trivial

end Adapter

/-- The outlets that were switched since a read began. -/
def Phase.overtaken : Phase → List Text
  | .reading switched => switched
  | _ => []

def Wait.overtaken : Wait → List Text
  | .reading switched => switched
  | .listing => []

namespace Node

variable (n : Node)

/-- What a reconcile has to build. -/
def todoOf (pdus : List PduConf) : List Todo :=
  (n.addedNames (newByName pdus) ++ n.updatedNames (newByName pdus)).filterMap fun k => ((newByName pdus).get? k).map Todo.build

/-- The steps that tell of the ref what there is to tell. A PDU is removed or built again only when nothing is known of the ref,
a read reports it, and a switch returns while its PDU is in place. -/
def Faithful (ref : Text) : Act → Prop
  | .start pdus => n.adapter.Forgettable ref ((pdus.filter fun c => Builds c).map PduConf.name)
  | .stop => n.adapter.outletOnState ref = none
  | .reconcile enabled pdus =>
      n.adapter.Forgettable ref (n.removedNames (newByName pdus)) ∧
        n.adapter.Forgettable ref ({ n.adapter with enabled := enabled }.builtNow (n.todoOf pdus))
  | .listed none => ∀ o ∈ n.operation, n.adapter.Forgettable ref (n.adapter.builtNow o.rest)
  | .brought result => ∀ o ∈ n.operation,
      n.adapter.ReadsWell o.id ref o.wait.overtaken result ∧ n.adapter.Forgettable ref (n.adapter.builtNow o.rest) ∧
        (n.adapter.heap o.id).name ∉ n.adapter.builtNow o.rest
  | .polled t result => ∀ k ∈ n.tasks t, n.adapter.ReadsWell k.pdu ref k.phase.overtaken result
  | .switched i (some _) => ∀ w ∈ n.switches[i]?, ref = w.ref → n.adapter.pdus.get? w.pduName = some w.id
  | _ => True

instance (ref : Text) : (a : Act) → Decidable (n.Faithful ref a)
  | .start _ => inferInstanceAs (Decidable (_ → _))
  | .stop => inferInstanceAs (Decidable (_ = _))
  | .reconcile _ _ => inferInstanceAs (Decidable (_ ∧ _))
  | .listed none => inferInstanceAs (Decidable (∀ o ∈ n.operation, _ → _))
  | .brought _ => inferInstanceAs (Decidable (∀ o ∈ n.operation, _ ∧ _))
  | .polled t _ => inferInstanceAs (Decidable (∀ k ∈ n.tasks t, _))
  | .switched i (some _) => inferInstanceAs (Decidable (∀ w ∈ n.switches[i]?, _ → _))
  | .listed (some _) | .begin _ | .wake _ | .unwind _ | .setOutlet _ _ _ _ | .switched _ none | .register _ => isTrue trivial

/-- A read that a switch overtook leaves the outlet as it is. -/
def SwitchesStand (a : Act) (m : Node) : Prop :=
  match a with
  | .polled t (.readings _) => ∀ k ∈ n.tasks t, ∀ o ∈ k.phase.overtaken,
      ((m.adapter.heap k.pdu).readings.get? o).map (·.on) = ((n.adapter.heap k.pdu).readings.get? o).map (·.on)
  | .brought (.readings _) => ∀ p ∈ n.operation, ∀ o ∈ p.wait.overtaken,
      ((m.adapter.heap p.id).readings.get? o).map (·.on) = ((n.adapter.heap p.id).readings.get? o).map (·.on)
  | _ => True

end Node

end OpenMux.Pdu
