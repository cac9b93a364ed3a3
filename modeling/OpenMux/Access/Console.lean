import OpenMux.Access.Decision
import OpenMux.Lib.Coroutine
import OpenMux.Origin.Sessions

/-!
# The console manager over the local ports

The operations of the console manager and of the port manager that change who is attached to a local port and in which
mode, as coroutines. They are suspended where a frame goes out to clients; the port manager itself never suspends them on a
local port. Ports of other nodes are not in `ports`.
-/

namespace OpenMux.Access

open Py Federation Origin

/-- What the console manager looks up outside itself. `getUserPermissions` is `none` also when the lookup raises;
`clientUsername` and `clientIp` are the metadata of the adapter that owns a client; `lists` are the group lists that a port
declares. -/
structure Policy where
  access : AccessPolicy
  getUserPermissions : String → Option String
  clientUsername : Text → Option String := fun _ => none
  clientIp : Text → Option String := fun _ => none
  lists : Text → GroupLists := fun _ => ⟨[], []⟩

structure Console where
  policy : Policy
  ports : Dict Text Port := ∅
  clientPortMap : Dict Text Text := ∅
  /-- Streams of peers and the ports they are open to. -/
  localSessionMap : Dict Slot Text := ∅
  clock : Nat := 0
  /-- Bytes that were forwarded to a port, and for whom. -/
  written : List (Text × Text × List UInt8) := []

namespace Console

/-! ## The port manager -/

def updatePort (s : Console) (name : Text) (f : Port → Port) : Console :=
  { s with ports := match s.ports.get? name with
      | some p => s.ports.set name (f p)
      | none => s.ports }

/-- The result of an attempt at the port, `false` when there is none. -/
def askPort (s : Console) (name : Text) (f : Port → Bool) : Bool :=
  match s.ports.get? name with
  | some p => f p
  | none => false

/-- `add_client_to_port`. -/
def addClientToPort (name clientId : Text) (username : String) (mode : Mode) (s : Console) : Console × Bool :=
  let c : Client := ⟨clientId, username, mode, s.clock⟩
  (s.updatePort name (·.addClient c), s.askPort name fun p => !(mode = .readWrite && p.full (p.rwCount clientId)))

/-- `remove_client_from_port`. -/
def removeClientFromPort (name clientId : Text) (s : Console) : Console × Bool :=
  (s.updatePort name (·.removeClient clientId), s.askPort name (·.connectedClients.any (·.clientId = clientId)))

/-- `promote_client`. -/
def promoteClient (name clientId : Text) (s : Console) : Console × Bool :=
  (s.updatePort name fun p => (p.promoteClient clientId).1, s.askPort name fun p => (p.promoteClient clientId).2)

/-- `demote_client`. -/
def demoteClient (name clientId : Text) (s : Console) : Console × Bool :=
  (s.updatePort name (·.demoteClient clientId), s.askPort name (·.connectedClients.any (·.clientId = clientId)))

/-- `write_to_port` up to the adapter. -/
def writeToPort (name clientId : Text) (data : List UInt8) (s : Console) : Console × Bool :=
  let allowed := s.askPort name (·.clientHasWrite clientId)
  ({ s with written := if allowed then s.written ++ [(name, clientId, data)] else s.written }, allowed)

/-! ## Who may do what -/

/-- `_resolve_client_ip`. -/
def ipOf (s : Console) (clientId : Text) : String := (strOrNone (s.policy.clientIp clientId)).getD "unknown"

/-- `_holders_for`. -/
def holdersFor (s : Console) (name : Text) : List Holder :=
  match s.ports.get? name with
  | some p => holdersOf p.connectedClients s.ipOf
  | none => []

/-- `_port_capacity`. -/
def portCapacity (s : Console) (name : Text) : Option WriteMode := (s.ports.get? name).map (·.maxReadWriteUsers)

/-- `_client_permissions`. -/
def clientPermissions (s : Console) (clientId : Text) : Option String :=
  (strOrNone (s.policy.clientUsername clientId)).bind s.policy.getUserPermissions

/-- The account name of the first record of the client. -/
def recordUsername (p : Port) (clientId : Text) : String :=
  ((p.connectedClients.find? (·.clientId = clientId)).map (·.username)).getD ""

/-- `_take_write_slot_permissions`, without the account name. -/
def takeWriteSlotPermissions (s : Console) (p : Port) (clientId : Text) : Option String :=
  let username := recordUsername p clientId
  match if username = "" then none else s.policy.getUserPermissions username with
  | some permissions => some permissions
  | none => s.clientPermissions clientId

/-- `_taker_entitled` over the lists of the port. -/
def entitlement (s : Console) (name : Text) (permissions : Option String) (username : String) : Entitlement :=
  takerEntitled s.policy.access (s.policy.lists name) permissions username

/-- The account that the ladder is asked about for an attached client. -/
def takerUsername (p : Port) (clientId : Text) : String :=
  if recordUsername p clientId = "" then String.ofList clientId else recordUsername p clientId

/-- Why the client may not drive the port, if it may not. -/
def driveRefusal (s : Console) (name : Text) (p : Port) (clientId : Text) : Option Code :=
  match s.takeWriteSlotPermissions p clientId with
  | none => some .notEntitled
  | some permissions =>
      let e := s.entitlement name (some permissions) (takerUsername p clientId)
      if e.grant = .write then none else some ((e.code.map Code.ofDenied).getD .notEntitled)

/-- `_has_write_slots`. -/
def hasWriteSlots (s : Console) (name : Text) : Bool :=
  s.askPort name fun p => !p.full (p.connectedClients.filter (·.mode = .readWrite)).length

/-- `_rw_mode_or_demote`. -/
def rwModeOrDemote (s : Console) (name : Text) : Mode × Code :=
  if s.hasWriteSlots name then (.readWrite, .attached)
  else (.readOnly, if s.portCapacity name = some .none then .capacityNone else .capacityFull)

/-- `_resolve_access_mode`. -/
def resolveAccessMode (s : Console) (name : Text) (permissions : String) (username : String) : Mode × Code :=
  let e := s.entitlement name (some permissions) username
  if e.grant = .write then s.rwModeOrDemote name
  else (.readOnly, (e.code.map Code.ofDenied).getD .readOnlyStanding)

/-! ## Decisions -/

/-- A decision without a snapshot of the port. -/
def decided (code : Code) (mode : Mode) (clientId name : Text) : AccessDecision :=
  { code := code, mode := mode, clientId := clientId, portName := name }

/-- A decision with the capacity of the port. -/
def decidedOn (s : Console) (code : Code) (mode : Mode) (clientId name : Text) : AccessDecision :=
  { decided code mode clientId name with capacity := s.portCapacity name }

/-- A decision with the holders and the capacity of the port. -/
def decidedWith (s : Console) (code : Code) (mode : Mode) (clientId name : Text) : AccessDecision :=
  { s.decidedOn code mode clientId name with holders := s.holdersFor name }

/-- `_seat_refusal`. A port that is gone counts as one with a single slot. -/
def seatRefusal (s : Console) (clientId name : Text) : AccessDecision :=
  s.decidedWith (match s.portCapacity name with
    | some .none => .noWriteSlot
    | some .multiple => .takeWithoutSlot
    | _ => .promoteFailed) .readOnly clientId name

/-! ## The console manager -/

/-- `disconnect_client_from_port`; `none` when `del` raises. The teardown of a port of another node is suspended. -/
def disconnectClientFromPort (clientId name : Text) : Coro Console (Option Bool) := do
  let s ← Coro.get
  if s.clientPortMap.get? clientId ≠ some name then
    return some false
  else
    let _ ← Coro.lift (removeClientFromPort name clientId)
    if (s.ports.get? name).isNone then Coro.yield
    let s ← Coro.get
    if (s.clientPortMap.get? clientId).isNone then
      return none
    else
      Coro.modify fun s => { s with clientPortMap := s.clientPortMap.pop clientId }
      Coro.yield
      return some true

/-- `_attach_client_to_port`. -/
def attachClientToPort (name clientId : Text) (username : String) (mode : Mode) (code : Code) :
    Coro Console (Option Mode × Code) := do
  let success ← Coro.lift (addClientToPort name clientId username mode)
  if success then
    Coro.modify fun s => { s with clientPortMap := s.clientPortMap.set clientId name }
    return (some mode, code)
  else if mode = .readWrite then
    let success ← Coro.lift (addClientToPort name clientId username .readOnly)
    if success then
      Coro.modify fun s => { s with clientPortMap := s.clientPortMap.set clientId name }
      return (some .readOnly, .capacityFull)
    else
      return (none, .portUnavailable)
  else
    return (none, .portUnavailable)

/-- `connect_client_to_port` once the client has left its old port. -/
def attachPhase (clientId name : Text) (username : String) : Coro Console AccessDecision := do
  let s ← Coro.get
  match s.policy.getUserPermissions username with
  | none => return decided .noPermissions .readOnly clientId name
  | some permissions =>
      let (mode, code) := s.resolveAccessMode name permissions username
      if code.ok then
        let (attached, code) ← attachClientToPort name clientId username mode code
        match attached with
        | none =>
            let s ← Coro.get
            return s.decidedWith .portUnavailable .readOnly clientId name
        | some mode =>
            Coro.yield
            let s ← Coro.get
            return s.decidedWith code mode clientId name
      else
        return s.decidedOn code .readOnly clientId name

/-- `connect_client_to_port`; `none` when it raises. -/
def connectClientToPort (clientId name : Text) (username : String) : Coro Console (Option AccessDecision) := do
  let s ← Coro.get
  match s.clientPortMap.get? clientId with
  | none => some <$> attachPhase clientId name username
  | some old =>
      match ← disconnectClientFromPort clientId old with
      | none => return none
      | some _ => some <$> attachPhase clientId name username

/-- The promote of `promote_client_to_read_write` after the checks. -/
def promoteChecked (clientId name : Text) : Coro Console AccessDecision := do
  let success ← Coro.lift (promoteClient name clientId)
  if success then
    Coro.yield
    let s ← Coro.get
    return s.decidedOn .granted .readWrite clientId name
  else
    let s ← Coro.get
    return s.seatRefusal clientId name

/-- `promote_client_to_read_write`. -/
def promoteClientToReadWrite (clientId name : Text) : Coro Console AccessDecision := do
  let s ← Coro.get
  if s.clientPortMap.get? clientId ≠ some name then
    return decided .notAttached .readOnly clientId name
  else
    match (s.ports.get? name).bind fun p => s.driveRefusal name p clientId with
    | some refusal => return s.decidedWith refusal .readOnly clientId name
    | none => promoteChecked clientId name

/-- `demote_client_to_read_only`. -/
def demoteClientToReadOnly (clientId name : Text) : Coro Console AccessDecision := do
  let s ← Coro.get
  if s.clientPortMap.get? clientId ≠ some name then
    return decided .notAttached .readWrite clientId name
  else
    let success ← Coro.lift (demoteClient name clientId)
    if success then
      Coro.yield
      let s ← Coro.get
      return s.decidedOn .released .readOnly clientId name
    else
      let s ← Coro.get
      return s.decidedWith .demoteFailed .readWrite clientId name

/-- `_take_slot_local`. -/
def takeSlotLocal (name taker : Text) (victim : Client) : Coro Console AccessDecision := do
  let s ← Coro.get
  let holder : Holder := ⟨victim.clientId, if victim.username = "" then "unknown" else victim.username, s.ipOf victim.clientId⟩
  let demoted ← demoteClientToReadOnly victim.clientId name
  if demoted.ok then
    let promoted ← promoteClientToReadWrite taker name
    if promoted.ok then
      -- The notice to the victim.
      Coro.yield
      let s ← Coro.get
      return { s.decidedOn .granted .readWrite taker name with victim := some holder }
    else
      let _ ← Coro.lift (promoteClient name victim.clientId)
      let s ← Coro.get
      return s.seatRefusal taker name
  else
    return decided .victimNotCurrent .readOnly taker name

/-- `_take_write_slot_local`. -/
def takeWriteSlotLocal (taker name : Text) (target : Option Text) (p : Port) : Coro Console AccessDecision := do
  let s ← Coro.get
  match p.maxReadWriteUsers with
  | .multiple =>
      if p.isReadWrite taker then return s.decidedOn .alreadyRw .readWrite taker name
      else return s.seatRefusal taker name
  | .none => return s.seatRefusal taker name
  | .one =>
      match resolveTakeTarget p taker target with
      | .ok victim => takeSlotLocal name taker victim
      | .error reason =>
          if target.isSome ∨ reason ≠ .noHolder then
            return s.decidedWith reason .readOnly taker name
          else if p.isReadWrite taker then
            return s.decidedOn .alreadyRw .readWrite taker name
          else
            let promoted ← promoteClientToReadWrite taker name
            let s ← Coro.get
            if promoted.ok then return s.decidedOn .granted .readWrite taker name
            else return s.seatRefusal taker name

/-- `take_write_slot`. -/
def takeWriteSlot (taker name : Text) (target : Option Text) : Coro Console AccessDecision := do
  let s ← Coro.get
  if s.clientPortMap.get? taker ≠ some name then
    return decided .notAttached .readOnly taker name
  else
    match s.ports.get? name with
    | none => return decided .portMissing .readOnly taker name
    | some p =>
        if (s.takeWriteSlotPermissions p taker).isNone then
          return decided .notEntitled .readOnly taker name
        else match s.driveRefusal name p taker with
        | some refusal => return s.decidedWith refusal .readOnly taker name
        | none => takeWriteSlotLocal taker name target p

/-! ## The arbiter for peers -/

/-- `_handle_fedrw_take`. A holder of this node is demoted through the console manager. -/
def handleFedrwTake (slot : Slot) (name : Text) (spec : TakeSpec) : Coro Console Unit := do
  let taker := Streams.fedClientId slot.1 slot.2
  let s ← Coro.get
  match (s.ports.get? name).bind fun p => resolveFedrwTakeTarget p slot spec with
  | none =>
      if spec = .latest then
        let _ ← Coro.lift (promoteClient name taker)
        return ()
      else
        return ()
  | some victim =>
      if Streams.fedPrefix <+: victim.clientId then
        let _ ← Coro.lift (demoteClient name victim.clientId)
      else
        let _ ← demoteClientToReadOnly victim.clientId name
      -- The notice to the victim.
      Coro.yield
      let promoted ← Coro.lift (promoteClient name taker)
      if promoted then
        return ()
      else
        let _ ← Coro.lift (promoteClient name victim.clientId)
        return ()

/-- `_connected_client_mode`. -/
def connectedClientMode (s : Console) (name clientId : Text) : Mode :=
  match (s.ports.get? name).bind fun p => p.connectedClients.find? (·.clientId = clientId) with
  | some c => c.mode
  | none => .readOnly

/-- `_handle_fedrw_request`: the mode of the FEDRWACK, `none` when there is no reply. -/
def handleFedrwRequest (slot : Slot) (name : Text) (action : FedrwAction) : Coro Console (Option Mode) := do
  let s ← Coro.get
  let clientId := Streams.fedClientId slot.1 slot.2
  if s.localSessionMap.get? slot ≠ some name then
    return none
  else if action = .unknown then
    return none
  else
    match action with
    | .request =>
        let _ ← Coro.lift (promoteClient name clientId)
    | .release =>
        let _ ← Coro.lift (demoteClient name clientId)
    | .take spec => handleFedrwTake slot name spec
    | .force => handleFedrwTake slot name .latest
    | .unknown => pure ()
    let s ← Coro.get
    return some (s.connectedClientMode name clientId)

end Console

/-! ## The system -/

inductive Op
  | addClientToPort (name clientId : Text) (username : String) (mode : Mode)
  | removeClientFromPort (name clientId : Text)
  | promoteClient (name clientId : Text)
  | demoteClient (name clientId : Text)
  | writeToPort (name clientId : Text) (data : List UInt8)
  | disconnect (clientId name : Text)
  | connect (clientId name : Text) (username : String)
  | promote (clientId name : Text)
  | demote (clientId name : Text)
  | take (taker name : Text) (target : Option Text)
  | fedrw (slot : Slot) (name : Text) (action : FedrwAction)
deriving DecidableEq

inductive Reply
  | done (success : Bool)
  | raised
  | decision (d : AccessDecision)
  | ack (mode : Option Mode)
deriving DecidableEq

/-- What an operation runs. -/
def Op.body : Op → Coro Console Reply
  | .addClientToPort name clientId username mode =>
      Reply.done <$> Coro.lift (Console.addClientToPort name clientId username mode)
  | .removeClientFromPort name clientId => Reply.done <$> Coro.lift (Console.removeClientFromPort name clientId)
  | .promoteClient name clientId => Reply.done <$> Coro.lift (Console.promoteClient name clientId)
  | .demoteClient name clientId => Reply.done <$> Coro.lift (Console.demoteClient name clientId)
  | .writeToPort name clientId data => Reply.done <$> Coro.lift (Console.writeToPort name clientId data)
  | .disconnect clientId name => (·.elim .raised .done) <$> Console.disconnectClientFromPort clientId name
  | .connect clientId name username => (·.elim .raised .decision) <$> Console.connectClientToPort clientId name username
  | .promote clientId name => Reply.decision <$> Console.promoteClientToReadWrite clientId name
  | .demote clientId name => Reply.decision <$> Console.demoteClientToReadOnly clientId name
  | .take taker name target => Reply.decision <$> Console.takeWriteSlot taker name target
  | .fedrw slot name action => Reply.ack <$> Console.handleFedrwRequest slot name action

/-- What changes outside the operations. `register` and `unregister` are `register_client_port` and its inverse;
`openStream` and `closeStream` are the session map of the adapter. -/
inductive Change
  | policy (policy : Policy)
  | clock (now : Nat)
  | register (clientId name : Text)
  | unregister (clientId : Text)
  | openStream (slot : Slot) (name : Text)
  | closeStream (slot : Slot)

def Console.change (s : Console) : Change → Option Console
  | .policy policy => some { s with policy := policy }
  | .clock now => some { s with clock := now }
  | .register clientId name => some { s with clientPortMap := s.clientPortMap.set clientId name }
  | .unregister clientId => some { s with clientPortMap := s.clientPortMap.pop clientId }
  | .openStream slot name => some { s with localSessionMap := s.localSessionMap.set slot name }
  | .closeStream slot => some { s with localSessionMap := s.localSessionMap.pop slot }

/-- The console manager with the operations that are suspended. -/
abbrev Consoles := Coro.Pool Console Op Reply

abbrev ConsoleAct := Coro.PoolAct Op Change

def Consoles.step : Consoles → ConsoleAct → Option Consoles := Coro.Pool.step Op.body Console.change

end OpenMux.Access
