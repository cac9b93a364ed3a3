import OpenMux.Lib.Dict
import OpenMux.Lib.PyText
import OpenMux.Lib.Run

/-!
# The reload of the web console

`POST /api/reload` with the port objects that the adapters register and the clients that come and go between its waits. A port object has a
number of its own, so that a port that is built anew under the old name is told from the old one.
-/

namespace OpenMux.Web

open Py

variable {α : Type}

/-! ## The ports and their clients -/

structure PortWrapper where
  id : ℕ
  connectedClients : List Text := []
deriving DecidableEq

/-- The port manager and the console manager. -/
structure Consoles where
  ports : Dict Text PortWrapper := ∅
  clientPortMap : Dict Text Text := ∅
  /-- The port object that a client was attached to. -/
  attachedTo : Dict Text ℕ := ∅
  next : ℕ := 0
deriving DecidableEq

inductive ConsolesAct
  | attach (client name : Text)
  | detach (client : Text)
  | register (name : Text)
  | unregister (name : Text)

namespace Consoles

/-- `remove_client_from_port`. -/
def removeClientFromPort (s : Consoles) (name client : Text) : Consoles :=
  match s.ports.get? name with
  | some w => { s with ports := s.ports.set name { w with connectedClients := w.connectedClients.erase client } }
  | none => s

/-- `disconnect_client_from_port`. -/
def disconnectClientFromPort (s : Consoles) (client name : Text) : Consoles :=
  if s.clientPortMap.get? client = some name then
    { s.removeClientFromPort name client with
      clientPortMap := s.clientPortMap.pop client
      attachedTo := s.attachedTo.pop client }
  else s

/-- The client leaves the port that it is at, if it is at one. -/
def leave (s : Consoles) (client : Text) : Consoles :=
  match s.clientPortMap.get? client with
  | some name => s.disconnectClientFromPort client name
  | none => s

/-- The client is put into the list of the port object that is there. -/
def addClientToPort (s : Consoles) (client name : Text) : Consoles :=
  match s.ports.get? name with
  | some w => { s with
      ports := s.ports.set name { w with connectedClients := w.connectedClients ++ [client] }
      clientPortMap := s.clientPortMap.set client name
      attachedTo := s.attachedTo.set client w.id }
  | none => s

/-- `connect_client_to_port`. -/
def connectClientToPort (s : Consoles) (client name : Text) : Consoles := (s.leave client).addClientToPort client name

/-- `register_unified_port`; a port object that is there is dropped. -/
def registerUnifiedPort (s : Consoles) (name : Text) : Consoles :=
  { s with ports := s.ports.set name { id := s.next }, next := s.next + 1 }

/-- `unregister_unified_port`. -/
def unregisterUnifiedPort (s : Consoles) (name : Text) : Consoles := { s with ports := s.ports.pop name }

def step (s : Consoles) : ConsolesAct → Option Consoles
  | .attach client name => some (s.connectClientToPort client name)
  | .detach client => some (s.leave client)
  | .register name => some (s.registerUnifiedPort name)
  | .unregister name => some (s.unregisterUnifiedPort name)

end Consoles

/-! ## The request -/

inductive Section
  | serialPorts
  | loopbackPorts
  | commandPorts
  | tcpInitiatorPorts
deriving DecidableEq

namespace Section

def kind : Section → Text
  | serialPorts => "serial".toList
  | loopbackPorts => "loopback".toList
  | commandPorts => "command".toList
  | tcpInitiatorPorts => "tcp_initiator".toList

def key (k : Section) : Text := k.kind ++ "_ports".toList

def all : List Section := [serialPorts, loopbackPorts, commandPorts, tcpInitiatorPorts]

end Section

/-- An item of the list of a section: a dict, with its name where that is a text, or something else. -/
inductive PortItem (α : Type)
  | port (name : Option Text) (rest : α)
  | other (value : α)
deriving DecidableEq

def PortItem.name? : PortItem α → Option (Option Text)
  | .port name _ => some name
  | .other _ => none

/-- The names of the ports of a list. -/
def declared (lst : List (PortItem α)) : List Text := lst.filterMap fun p => p.name?.join

/-- `_api_reload_names_ok`. -/
def namesOk (lst : List (PortItem α)) : Bool :=
  let names := lst.filterMap PortItem.name?
  names.all (fun n => n.any fun name => strip name ≠ []) && decide names.Nodup

/-- The lists of the sections, of a configuration or of a request. -/
abbrev Sections (α : Type) := Dict Section (List (PortItem α))

/-- The body of a request; `none` is a value that is not a list. -/
inductive Body (α : Type)
  | malformed
  | notObject
  | object (payload : Dict Text (Option (List (PortItem α))))

/-- The user of a request, and what `get_user_permissions` says of it. -/
structure Caller where
  username : Option Text
  permissions : Option Text

structure Refusal where
  status : ℕ
  text : Text
deriving DecidableEq

/-- `_api_reload_forbidden`. -/
def forbidden (caller : Caller) : Option Refusal :=
  if caller.username.getD [] = [] then some ⟨401, "Unauthorized\n".toList⟩
  else if caller.permissions = some "admin".toList ∨ caller.permissions = some "read-write".toList then none
  else some ⟨403, "Forbidden\n".toList⟩

/-- The lists of a payload. -/
def collectWants (payload : Dict Text (Option (List (PortItem α)))) : List Section → Sections α → Except Refusal (Sections α)
  | [], wants => .ok wants
  | k :: ks, wants =>
      match payload.get? k.key with
      | none => collectWants payload ks wants
      | some none => .error ⟨400, k.key ++ " must be a list".toList⟩
      | some (some lst) => collectWants payload ks (wants.set k lst)

/-- `_api_reload_load_wants`. -/
def loadWants : Body α → Except Refusal (Sections α)
  | .malformed => .error ⟨400, "Invalid JSON".toList⟩
  | .notObject => .error ⟨400, "Invalid body".toList⟩
  | .object payload =>
      match collectWants payload Section.all ∅ with
      | .error e => .error e
      | .ok wants => if wants.entries = [] then .error ⟨400, "No supported sections to reload".toList⟩ else .ok wants

/-- What a request asks for. -/
def wantsOf (caller : Caller) (body : Body α) : Except Refusal (Sections α) :=
  match forbidden caller with
  | some refusal => .error refusal
  | none => loadWants body

/-! ## The sections -/

/-- The adapter of a section: whether its `validate_config` takes the list, as it does where it raises, and whether it has a
`reconcile_ports`. -/
structure SectionAdapter where
  validates : Bool
  reconciles : Bool

/-- What the reload of a section says. -/
structure Summary where
  error : Option Text := none
  removed : List Text := []
  updated : List Text := []
  failed : List Text := []
deriving DecidableEq

/-- The adapter applied the list that it was given. -/
def Summary.Applied (r : Summary) : Prop := r.error = none ∧ r.failed = []

instance (r : Summary) : Decidable r.Applied := inferInstanceAs (Decidable (_ ∧ _))

def Summary.failure (text : Text) : Summary := { error := some text }

/-- `_api_reload_apply_one` up to the call of `reconcile_ports`: why it is not called. -/
def applyOne (aobj : Option SectionAdapter) (k : Section) (lst : List (PortItem α)) : Option Summary :=
  match aobj with
  | none => some (.failure (k.kind ++ " adapter not active".toList))
  | some a =>
      if ! a.validates then some (.failure ("Invalid ".toList ++ k.key ++ " configuration".toList))
      else if ! namesOk lst then some (.failure ("Invalid or duplicate names in ".toList ++ k.key))
      else if ! a.reconciles then some (.failure "Adapter does not support live reconcile".toList)
      else none

/-- `_api_reload_affected_ports`. -/
def affectedPorts (results : Dict Section Summary) : List Text := results.entries.flatMap fun e => e.2.removed ++ e.2.updated

/-- Where a reload is; in the disconnect phase there are the clients that were found at the port in turn, and the ports that follow. -/
inductive ReloadPhase (α : Type)
  | received (caller : Caller) (body : Body α)
  | applying (todo : List (Section × List (PortItem α))) (reconciling : Bool)
  | disconnecting (clients : List (Text × Text)) (names : List Text)
  | done

structure Reload (α : Type) where
  consoles : Consoles
  config : Sections α
  phase : ReloadPhase α
  refusal : Option Refusal := none
  wants : Sections α := ∅
  results : Dict Section Summary := ∅
  /-- The port objects that were removed or replaced. -/
  gone : List ℕ := []
  /-- The clients that the reload disconnected, with their port objects. -/
  disconnected : List (Text × ℕ) := []

/-- What happens: a client or an adapter acts; the request is read; the next section is taken up; its reconcile ends, or raises; the next
client is disconnected; the reload goes on. -/
inductive ReloadAct
  | console (a : ConsolesAct)
  | read
  | apply (aobj : Option SectionAdapter)
  | reconciled (result : Option Summary)
  | disconnect
  | proceed

namespace Reload

/-- The request comes in. -/
def start (consoles : Consoles) (config : Sections α) (caller : Caller) (body : Body α) : Reload α where
  consoles := consoles
  config := config
  phase := .received caller body

/-- Adapters register and unregister ports while a section is reconciled; clients come and go until the reload is over. -/
def Allows (s : Reload α) : ConsolesAct → Bool
  | .register _ | .unregister _ =>
      match s.phase with
      | .applying _ reconciling => reconciling
      | _ => false
  | .attach .. | .detach _ =>
      match s.phase with
      | .done => false
      | _ => true

/-- The port object that an act removes. -/
def removedBy (s : Consoles) : ConsolesAct → List ℕ
  | .register name | .unregister name => ((s.ports.get? name).map PortWrapper.id).toList
  | .attach .. | .detach _ => []

/-- The clients that are found at a port. -/
def clientsOf (s : Consoles) (name : Text) : List (Text × Text) :=
  match s.ports.get? name with
  | some w => w.connectedClients.map fun client => (client, name)
  | none => []

def step (s : Reload α) : ReloadAct → Option (Reload α)
  | .console a =>
      if s.Allows a then (s.consoles.step a).map fun c => { s with consoles := c, gone := s.gone ++ removedBy s.consoles a } else none
  | .read =>
      match s.phase with
      | .received caller body =>
          match wantsOf caller body with
          | .error refusal => some { s with phase := .done, refusal := some refusal }
          | .ok wants => some { s with phase := .applying wants.entries false, wants := wants }
      | _ => none
  | .apply aobj =>
      match s.phase with
      | .applying ((k, lst) :: todo) false =>
          match applyOne aobj k lst with
          | some result => some { s with phase := .applying todo false, results := s.results.set k result }
          | none => some { s with phase := .applying ((k, lst) :: todo) true }
      | _ => none
  | .reconciled result =>
      match s.phase with
      | .applying ((k, _) :: todo) true =>
          some { s with phase := .applying todo false, results := s.results.set k (result.getD (.failure "Apply failed".toList)) }
      | _ => none
  | .disconnect =>
      match s.phase with
      | .disconnecting ((client, name) :: clients) names => some { s with
          consoles := s.consoles.disconnectClientFromPort client name
          disconnected := s.disconnected ++
            if s.consoles.clientPortMap.get? client = some name then
              ((s.consoles.attachedTo.get? client).map fun id => (client, id)).toList
            else []
          phase := .disconnecting clients names }
      | _ => none
  | .proceed =>
      match s.phase with
      | .applying [] false => some { s with phase := .disconnecting [] (affectedPorts s.results) }
      | .disconnecting [] (name :: names) => some { s with phase := .disconnecting (clientsOf s.consoles name) names }
      | .disconnecting [] [] => some { s with config := s.config.update s.wants, phase := .done }
      | _ => none

/-- The adapter of a section applied the list that was asked for. -/
def Applied (s : Reload α) (k : Section) : Prop := (s.results.get? k).any (fun r => r.Applied) = true

instance (s : Reload α) (k : Section) : Decidable (s.Applied k) := inferInstanceAs (Decidable (_ = true))

end Reload

/-- No port is declared by two sections. -/
def NamesOnce (config : Sections α) : Prop :=
  ∀ e ∈ config.entries, ∀ e' ∈ config.entries, ∀ name ∈ declared e.2, name ∈ declared e'.2 → e.1 = e'.1

instance (config : Sections α) : Decidable (NamesOnce config) := inferInstanceAs (Decidable (∀ _ ∈ _, ∀ _ ∈ _, ∀ _ ∈ _, _ → _))

namespace Reload

/-- A section has the list that was asked for if that was applied, and is otherwise as before; no client is left at a port object that was
removed or replaced, and no other was disconnected; and no port is declared twice. -/
structure Truthful (before : Sections α) (s : Reload α) : Prop where
  config : ∀ k, s.config.get? k = if s.Applied k then s.wants.get? k else before.get? k
  left : ∀ client id, s.consoles.attachedTo.get? client = some id → id ∉ s.gone
  only : ∀ d ∈ s.disconnected, d.2 ∈ s.gone
  names : NamesOnce s.config

/-- When the snapshot is written each section asked for was applied or is asked for as it is; the clients of the port objects that are gone
have left of themselves; and the lists asked for and those that stay share no name. -/
def Settled (s : Reload α) : Prop :=
  (∀ e ∈ s.wants.entries, s.Applied e.1 ∨ s.config.get? e.1 = some e.2) ∧
    (∀ e ∈ s.consoles.attachedTo.entries, e.2 ∉ s.gone) ∧ NamesOnce (s.config.update s.wants)

/-- No client that the disconnect phase comes to is at the port with the name, and the snapshot is right when it is written. -/
def Clean (s : Reload α) : ReloadAct → Prop
  | .read =>
      match s.phase with
      | .received caller body => (wantsOf caller body).isOk = false → NamesOnce s.config
      | _ => True
  | .disconnect =>
      match s.phase with
      | .disconnecting ((client, name) :: _) _ => s.consoles.clientPortMap.get? client ≠ some name
      | _ => True
  | .proceed =>
      match s.phase with
      | .disconnecting [] [] => s.Settled
      | _ => True
  | _ => True

end Reload

end OpenMux.Web
