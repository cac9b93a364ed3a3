import OpenMux.Access.Console

/-!
# Entitlement to write

What it means that a record is read-write, that its account may drive the port, and that a segment of an operation gave it
the mode.
-/

/-- A takeover by a peer. -/
def OpenMux.Origin.FedrwAction.Takes : OpenMux.Origin.FedrwAction → Prop
  | .take _ | .force => True
  | _ => False

namespace OpenMux.Access

open Py Federation Origin

namespace Console

/-- The client has a read-write record on the port. -/
def IsWriter (s : Console) (name clientId : Text) : Prop := ∃ p, s.ports.get? name = some p ∧ p.isReadWrite clientId

/-- The ladder answers write for the account with its own permission. -/
def ByAccount (s : Console) (name : Text) (username : String) : Prop :=
  ∃ permissions, s.policy.getUserPermissions username = some permissions ∧
    (s.entitlement name (some permissions) username).grant = .write

/-- The record has no account with a permission, and the ladder answers write with the permission of the account that the
adapter of the client names. -/
def ByAdapter (s : Console) (name clientId : Text) (username : String) : Prop :=
  (username = "" ∨ s.policy.getUserPermissions username = none) ∧ ∃ permissions,
    s.clientPermissions clientId = some permissions ∧
    (s.entitlement name (some permissions) (if username = "" then String.ofList clientId else username)).grant = .write

/-- The account of a record may drive the port. -/
def MayDrive (s : Console) (name clientId : Text) (username : String) : Prop :=
  s.ByAccount name username ∨ s.ByAdapter name clientId username

/-- The client has a read-write record in `s'` whose account may drive the port in `s`. -/
def Entitled (s s' : Console) (name clientId : Text) : Prop :=
  ∃ p c, s'.ports.get? name = some p ∧ c ∈ p.connectedClients ∧ c.clientId = clientId ∧ c.mode = .readWrite ∧
    s.MayDrive name clientId c.username

/-- The adapter of the client knows no other account for it. -/
def Agrees (s : Console) (clientId : Text) (username : String) : Prop :=
  s.policy.clientUsername clientId = none ∨ s.policy.clientUsername clientId = some username

variable {s : Console} {name clientId : Text} {username : String}

/-- An adapter that knows no other account adds nothing. -/
theorem MayDrive.byAccount (h : s.MayDrive name clientId username) (ha : s.Agrees clientId username) :
    s.ByAccount name username := by
  rcases h with h | ⟨hnone, permissions, hperm, -⟩
  · exact h
  · unfold clientPermissions at hperm
    rcases ha with ha | ha
    · rw [ha] at hperm; cases hperm
    · rw [ha] at hperm
      by_cases hu : username = ""
      · simp [strOrNone, hu] at hperm
      · rcases hnone with hnone | hnone
        · exact absurd hnone hu
        · simp [strOrNone, hu, hnone] at hperm

/-- Who may drive a port: an administrator, a user in a group that may write where the port has group lists, and elsewhere a
user with the global permission unless the server denies by default. -/
theorem byAccount_iff : s.ByAccount name username ↔ ∃ permissions,
    s.policy.getUserPermissions username = some permissions ∧ (permissions = "admin" ∨
      if (s.policy.lists name).readWrite ≠ [] ∨ (s.policy.lists name).readOnly ≠ [] then
        ∃ g ∈ s.policy.access.getUserGroups username, g ∈ (s.policy.lists name).readWrite
      else (strOrNone s.policy.access.accessDefault).getD "allow" ≠ "deny" ∧ permissions = "read-write") := by
  refine exists_congr fun permissions => and_congr_right fun _ => ?_
  unfold entitlement takerEntitled
  by_cases hadmin : permissions = "admin"
  · simp [hadmin, Entitlement.write]
  · simp only [hadmin, Option.some.injEq, ↓reduceIte, false_or]
    split
    · split
      · rename_i hany
        simpa [Entitlement.write] using hany
      · rename_i hany
        have : ¬ ∃ g ∈ s.policy.access.getUserGroups username, g ∈ (s.policy.lists name).readWrite := by simpa using hany
        split <;> simp [Entitlement.readOnly, Entitlement.denied, this]
    · split
      · rename_i hdeny
        simp [Entitlement.denied, hdeny]
      · rename_i hallow
        by_cases hrw : permissions = "read-write" <;> simp [hrw, hallow, Entitlement.write, Entitlement.readOnly]

end Console

/-- The client that asks for access. -/
def Op.client : Op → Option Text
  | .connect clientId _ _ | .promote clientId _ | .take clientId _ _ => some clientId
  | _ => none

/-- A mode is given through the console manager or the arbiter only. -/
def Op.Checked : Op → Prop
  | .addClientToPort _ _ _ mode => mode = .readOnly
  | .promoteClient _ _ => False
  | _ => True

/-- A takeover. -/
def Op.Takes : Op → Prop
  | .take _ _ _ => True
  | .fedrw _ _ action => action.Takes
  | _ => False

def Reply.Failed : Reply → Prop
  | .decision d => d.ok = false
  | .ack mode => mode ≠ some .readWrite
  | .done success => success = false
  | .raised => True

end OpenMux.Access

/-!
## The mode that a decision reports

The mode in a decision against the mode of the record, and the calls for which the two agree.
-/

namespace OpenMux.Access

open Py Federation Origin

namespace Console

/-- Every record of the client on the port has the mode. -/
def Shows (s : Console) (name clientId : Text) (mode : Mode) : Prop :=
  ∀ p, s.ports.get? name = some p → ∀ c ∈ p.connectedClients, c.clientId = clientId → c.mode = mode

/-- Access control lets the user attach. -/
def Admits (s : Console) (name : Text) (username : String) : Prop :=
  ∃ permissions, s.policy.getUserPermissions username = some permissions ∧
    (s.entitlement name (some permissions) username).code = none

/-- The client is attached and may drive the port. -/
def Driver (s : Console) (name clientId : Text) : Prop :=
  s.clientPortMap.get? clientId = some name ∧ ∀ p, s.ports.get? name = some p → s.driveRefusal name p clientId = none

/-- A take by the client is decided by its seat: it may drive the port, there are slots, and on a port with one slot its
target is a holder that is attached, or there is none to name. -/
def Takeable (s : Console) (name clientId : Text) (target : Option Text) : Prop :=
  s.Driver name clientId ∧ ∀ p, s.ports.get? name = some p → match p.maxReadWriteUsers with
    | .none => False
    | .multiple => True
    | .one => match resolveTakeTarget p clientId target with
      | .ok victim => s.clientPortMap.get? victim.clientId = some name
      | .error _ => target = none

end Console

/-- The client and the port that a request for access is about. -/
def Op.seat : Op → Option (Text × Text)
  | .connect clientId name _ | .promote clientId name | .demote clientId name | .take clientId name _ => some (clientId, name)
  | _ => none

/-- The call reports the mode that the record really has. -/
def Op.Reports (op : Op) (s : Console) : Prop :=
  ∀ clientId name d, op.seat = some (clientId, name) → (op.body.run s).2 = .decision d →
    (op.body.run s).1.Shows name clientId d.mode

/-- When a call reports the mode of the record. A refusal reports read-only whatever the record says, but that of a demote
reports read-write. -/
def Op.Honest (op : Op) (s : Console) : Prop :=
  match op with
  | .connect clientId name username =>
      s.clientPortMap.get? clientId = some name ∨ s.Admits name username ∨ ¬ s.IsWriter name clientId
  | .promote clientId name => s.Driver name clientId ∨ ¬ s.IsWriter name clientId
  | .demote clientId name => s.clientPortMap.get? clientId = some name ∨ s.Shows name clientId .readWrite
  | .take clientId name target => s.Takeable name clientId target ∨ ¬ s.IsWriter name clientId
  | _ => True

end OpenMux.Access

/-!
## Takeovers on a port

A takeover by a client of this node and one by the mirror of a peer, as changes of the port alone, and what it means that
they agree.
-/

/-- A spec of a peer names the target: nobody, a mirror by its id, or a client of this node by no spec that is known. -/
def OpenMux.Origin.TakeSpec.Names (slot : OpenMux.Origin.Slot) : OpenMux.Origin.TakeSpec → Option Py.Text → Prop
  | .latest, none => True
  | .own rest, some t => t = OpenMux.Streams.fedPrefix ++ (slot.1 ++ ':' :: rest)
  | .fed id, some t => t = id ∧ OpenMux.Streams.fedPrefix <+: t
  | .unknown, some t => ¬ OpenMux.Streams.fedPrefix <+: t
  | _, _ => False

namespace OpenMux.Origin.Port

open Py Federation Access

/-- No client twice. -/
def Distinct (p : Port) : Prop := (p.connectedClients.map (·.clientId)).Nodup

/-- The client is attached. -/
def Has (p : Port) (id : Text) : Prop := ∃ c ∈ p.connectedClients, c.clientId = id

/-- The id is nobody's. -/
def Free (p : Port) (id : Text) : Prop := ∀ c ∈ p.connectedClients, c.clientId ≠ id

instance (p : Port) : Decidable p.Distinct := inferInstanceAs (Decidable (List.Nodup _))

instance (p : Port) (id : Text) : Decidable (p.Free id) :=
  inferInstanceAs (Decidable (∀ c ∈ p.connectedClients, c.clientId ≠ id))

/-- Demotes the victim and promotes the taker; a victim whose taker is refused gets the slot back. -/
def transfer (p : Port) (victim taker : Text) : Port :=
  let (p', promoted) := (p.demoteClient victim).promoteClient taker
  if promoted then p' else (p'.promoteClient victim).1

/-- What `_take_write_slot_local` does to the port for a taker that may drive it. -/
def takeLocal (p : Port) (taker : Text) (target : Option Text) : Port :=
  match p.maxReadWriteUsers with
  | .none | .multiple => p
  | .one => match resolveTakeTarget p taker target with
    | .ok victim => p.transfer victim.clientId taker
    | .error _ => if target.isSome ∨ p.isReadWrite taker then p else (p.promoteClient taker).1

/-- The clients that hold a write slot. -/
def holderIds (p : Port) : List Text := (p.connectedClients.filter (·.mode = .readWrite)).map (·.clientId)

/-- The id of a client under a renaming. -/
def renameId (old new id : Text) : Text := if id = old then new else id

/-- The seat of a client under another id. -/
def rename (p : Port) (old new : Text) : Port :=
  { p with connectedClients := p.connectedClients.map fun c => { c with clientId := renameId old new c.clientId } }

/-- The holders that a take by the client may demote. -/
def candidates (p : Port) (taker : Text) : List Client :=
  p.connectedClients.filter fun c => c.mode = .readWrite ∧ c.clientId ≠ taker

/-- The holder that the spec of the target names. -/
def namedHolder (p : Port) (taker : Text) : Option Text → Option Client
  | none => latestClient (p.candidates taker)
  | some t => if Streams.fedPrefix <+: t then (p.candidates taker).find? (·.clientId = t) else none

/-- Some holder other than the taker is one that the spec of the target names. -/
def Contested (p : Port) (taker : Text) (target : Option Text) : Prop :=
  ∃ c ∈ p.connectedClients, c.mode = .readWrite ∧ c.clientId ≠ taker ∧
    ∀ t, target = some t → Streams.fedPrefix <+: t ∧ c.clientId = t

/-- When a take by a client and one by a mirror in its seat leave the same holders. With one slot, whomever the console
manager demotes is whom the spec names. Without, the arbiter finds nobody to demote and no slot to give. -/
def SameTake (p : Port) (taker : Text) (target : Option Text) : Prop :=
  match p.maxReadWriteUsers with
  | .one => ∀ victim, resolveTakeTarget p taker target = .ok victim →
      ∀ t, target = some t → Streams.fedPrefix <+: t ∧ victim.clientId = t
  | .none => ¬ p.Contested taker target
  | .multiple => ¬ p.Contested taker target ∧ (target = none → p.isReadWrite taker)

/-- The holder whom a take by the client demotes. Only a port with one slot has any. -/
def victimOf (p : Port) (taker : Text) (target : Option Text) : Option Text :=
  match p.maxReadWriteUsers with
  | .one => match resolveTakeTarget p taker target with
    | .ok victim => some victim.clientId
    | .error _ => none
  | _ => none

/-- The taker is a writer and the victim, if there is one, a reader; every other record is as it was. -/
def reseat (p : Port) (taker : Text) (victim : Option Text) : Port :=
  { p with connectedClients := p.connectedClients.map fun c =>
      if c.clientId = taker then { c with mode := .readWrite }
      else if some c.clientId = victim then { c with mode := .readOnly }
      else c }

end OpenMux.Origin.Port

namespace OpenMux.Access.Console

open Py Federation Origin

/-- The clients that hold a write slot of the port. -/
def holderIds (s : Console) (name : Text) : List Text := ((s.ports.get? name).map (·.holderIds)).getD []

/-- The state in which the seat of the client is that of a mirror, with the same mode and attach time. -/
def asMirror (s : Console) (name clientId : Text) (slot : Slot) : Console :=
  { s.updatePort name (·.rename clientId (Streams.fedClientId slot.1 slot.2)) with
    clientPortMap := (s.clientPortMap.pop clientId).set (Streams.fedClientId slot.1 slot.2) name
    localSessionMap := s.localSessionMap.set slot name }

/-- Every record of the port is that of an attached client. -/
def Attached (s : Console) (name : Text) : Prop :=
  ∀ p, s.ports.get? name = some p → ∀ c ∈ p.connectedClients, s.clientPortMap.get? c.clientId = some name

/-- Who is attached where is the same, and so are the ports but for one. -/
def Becomes (s s' : Console) (name : Text) (p : Port) : Prop :=
  s'.clientPortMap = s.clientPortMap ∧ ∀ other, s'.ports.get? other = if other = name then some p else s.ports.get? other

/-- The clients of every port, their modes and who is attached where are the same. -/
def Unchanged (s s' : Console) : Prop :=
  s'.clientPortMap = s.clientPortMap ∧ ∀ name, s'.ports.get? name = s.ports.get? name

end OpenMux.Access.Console
