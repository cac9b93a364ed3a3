import OpenMux.Federation.Registry
import OpenMux.Origin.Port

/-!
# Access decisions

The outcome codes with their kinds, and the value that a request for access returns. The wording of a code is left out.
-/

namespace OpenMux.Access

open Py Federation Origin

inductive Kind
  | grant
  | refusal
  | unavailable
  | notice
deriving DecidableEq, Repr

inductive Code
  | attached
  | readOnlyStanding
  | capacityFull
  | capacityNone
  | granted
  | alreadyRw
  | released
  | noPermissions
  | deniedByGroupAcl
  | deniedByAccessDefault
  | notEntitled
  | invalidTarget
  | demoteFailed
  | portUnavailable
  | notAttached
  | portMissing
  | noHolder
  | victimNotCurrent
  | takeWithoutSlot
  | noWriteSlot
  | promoteFailed
  | federationDenied
  | internal
  | unsupportedRequest
  | demoted
  | actionSelfDemoted
  | actionRestored
  | actionRestoreDenied
deriving DecidableEq, Repr

namespace Code

/-- The kind that `_ROWS` gives a code. -/
def kind : Code → Kind
  | attached | readOnlyStanding | capacityFull | capacityNone | granted | alreadyRw | released => .grant
  | noPermissions | deniedByGroupAcl | deniedByAccessDefault | notEntitled | invalidTarget | demoteFailed => .refusal
  | portUnavailable | notAttached | portMissing | noHolder | victimNotCurrent | takeWithoutSlot | noWriteSlot
  | promoteFailed | federationDenied | internal | unsupportedRequest => .unavailable
  | demoted | actionSelfDemoted | actionRestored | actionRestoreDenied => .notice

/-- The `ok` of a row: a grant, and the one notice that gives access back. -/
def ok (c : Code) : Bool := c.kind = .grant || c = actionRestored

/-- The code of a denied entitlement. -/
def ofDenied : Federation.Code → Code
  | .deniedByGroupAcl => deniedByGroupAcl
  | .deniedByAccessDefault => deniedByAccessDefault

/-- `Entitlement.denied` refuses to be built from any other kind of code. -/
theorem kind_ofDenied (c : Federation.Code) : (ofDenied c).kind = .refusal := by
  cases c <;> rfl

@[simp] theorem ok_ofDenied (c : Federation.Code) : (ofDenied c).ok = false := by
  cases c <;> rfl

end Code

/-- A client that holds a write slot. -/
structure Holder where
  clientId : Text
  username : String := "unknown"
  ip : String := "unknown"
deriving DecidableEq

/-- What `decide` builds. -/
structure AccessDecision where
  code : Code
  mode : Mode
  clientId : Text := []
  portName : Text := []
  victim : Option Holder := none
  holders : List Holder := []
  capacity : Option WriteMode := none
deriving DecidableEq

def AccessDecision.ok (d : AccessDecision) : Bool := d.code.ok

/-- `holders_of`. -/
def holdersOf (records : List Client) (ipOf : Text → String) : List Holder :=
  (records.filter (·.mode = .readWrite)).map fun c =>
    ⟨c.clientId, if c.username = "" then "unknown" else c.username, ipOf c.clientId⟩

/-- `holder_id_short`. -/
def holderIdShort (clientId : Text) : Text :=
  if Streams.fedPrefix <+: clientId then clientId
  else if 8 < clientId.length then clientId.drop (clientId.length - 8) else clientId

/-- `_match_take_target`. -/
def matchTakeTarget (holders : List Client) (target : Text) : Option Client :=
  match holders.find? (·.clientId = target) with
  | some c => some c
  | none =>
      match holders.filter (holderIdShort ·.clientId = target) with
      | [c] => some c
      | _ => none

/-- `_resolve_take_target`: the holder to demote, or the code that says why there is none. -/
def resolveTakeTarget (p : Port) (taker : Text) (target : Option Text) : Except Code Client :=
  let holders := p.connectedClients.filter fun c => c.mode = .readWrite ∧ c.clientId ≠ taker
  match holders, target with
  | [], _ => .error .noHolder
  | c :: cs, some t => match matchTakeTarget (c :: cs) t with
    | some chosen => .ok chosen
    | none => .error .invalidTarget
  | c :: cs, none => match latestClient (c :: cs) with
    | some chosen => .ok chosen
    | none => .error .noHolder

end OpenMux.Access
