import OpenMux.Initiator.Port

/-!
# Reloads of the adapter

The TCP initiator adapter with its part of the port manager, and the reload of its ports. The constructor, the start and the
registration of a port may each fail, as `Steps` says for each name.
-/

namespace OpenMux.Initiator

open Py Federation

/-- A port object, which a reload may keep or replace. -/
structure Running where
  oid : Nat
  port : Port

/-- A `UnifiedPortWrapper` with the clients attached to it; it may be one of another adapter. -/
structure Wrapper where
  own : Bool
  oid : Nat
  connectedClients : List Text
deriving DecidableEq

/-- How the steps of `create_port` go: the constructor does not fail for reasons of its own, `start()` returns or raises, and
`register_unified_port` returns. -/
structure Steps where
  create : Bool := true
  start : Option Bool := some true
  register : Bool := true

structure Adapter where
  config : Tree
  ports : Dict Key Running
  /-- `main_port_manager.ports`. -/
  registry : Dict Key Wrapper
  configGaps : Dict Key Refusal
  configGapsKept : List Key
  nextOid : Nat

/-- The summary of a reload. The last three stay empty unless an entry did not apply. -/
structure Summary where
  added : List Key
  removed : List Key
  updated : List Key
  unchanged : List Key
  failed : List Key
  failedDetail : List (Key × Refusal × Bool)
  keptPrevious : List Key

variable (B : Builtins)

namespace Adapter

/-! ## Config gaps -/

/-- `record_config_gap`. -/
def recordConfigGap (s : Adapter) (portName : Key) (error : Refusal) (keptPrevious : Bool) : Adapter :=
  { s with
    configGaps := s.configGaps.set portName error
    configGapsKept := if keptPrevious ∧ portName ∉ s.configGapsKept then s.configGapsKept ++ [portName]
      else s.configGapsKept }

/-- `clear_config_gap`. -/
def clearConfigGap (s : Adapter) (portName : Key) : Adapter :=
  { s with configGaps := s.configGaps.pop portName, configGapsKept := s.configGapsKept.erase portName }

/-- The label of the entry at a position of the list. -/
def entryLabel (index : Nat) (entry : Mapping) : Option Key :=
  let label := (Mapping.get "name".toList entry).orElse (Mapping.get "port".toList entry)
  if label.truthy then (B.str label).map .str else some (.str ("<unnamed #".toList ++ Nat.toDigits 10 (index + 1) ++ ['>']))

def listedLabels (index : Nat) : List Tree → Option (List Key)
  | [] => some []
  | .dict entry :: items => do
      let label ← entryLabel B index entry
      let labels ← listedLabels (index + 1) items
      some (label :: labels)
  | _ :: items => listedLabels (index + 1) items

/-- `prune_config_gaps`. -/
def pruneConfigGaps (s : Adapter) (items : List Tree) : Option Adapter :=
  (listedLabels B 0 items).map fun listed => (s.configGaps.keys.filter fun label => label ∉ listed).foldl clearConfigGap s

/-! ## Single ports -/

/-- `create_port`. The result of the registration is not looked at. -/
def createPort (s : Adapter) (f : Steps) (portName : Key) (config : Mapping) : Adapter × Option Port :=
  match Port.init B config with
  | .error _ => (s, none)
  | .ok tcpPort =>
      if !f.create then (s, none)
      else match f.start with
        | some true =>
            let s := { s with ports := s.ports.set portName ⟨s.nextOid, tcpPort⟩, nextOid := s.nextOid + 1 }
            let s := if f.register then { s with registry := s.registry.set portName ⟨true, s.nextOid - 1, []⟩ } else s
            (s.clearConfigGap portName, some tcpPort)
        | _ => (s, none)

/-- `destroy_port`. -/
def destroyPort (s : Adapter) (portName : Key) : Adapter :=
  match s.ports.get? portName with
  | some _ => { s with registry := s.registry.pop portName, ports := s.ports.pop portName }
  | none => s

/-! ## The steps of a reload -/

/-- `_reconcile_normalize`. -/
def reconcileNormalize : Tree → List Tree
  | .dict m => match Mapping.find "tcp_initiator_ports".toList m with
      | some (.list items) => items
      | _ => []
  | .list items => items
  | _ => []

/-- `new_by_name`: a later entry takes the place of an earlier one. -/
def indexByName (newByName : Dict Key Mapping) : List Tree → Option (Dict Key Mapping)
  | [] => some newByName
  | .dict p :: items =>
      if (Mapping.get "name".toList p).truthy then
        match B.str (Mapping.get "name".toList p) with
        | some name => indexByName (newByName.set (.str name) p) items
        | none => none
      else indexByName newByName items
  | _ :: items => indexByName newByName items

/-- `_reconcile_common`: the names to update and those left as they are. -/
def reconcileCommon (newByName : Dict Key Mapping) : List Key → Adapter → Adapter × Option (List Key × List Key)
  | [], s => (s, some ([], []))
  | n :: common, s =>
      match newByName.get? n with
      | none => (s, none)
      | some cfg =>
          match materialCfg B cfg with
          | none => (s, none)
          | some newMat =>
              match s.ports.get? n with
              | some r =>
                  if (r.port.material B).eq newMat then
                    let s := { s with ports := s.ports.set n { r with port := r.port.inplaceUpdate B cfg } }
                    let (s, out) := reconcileCommon newByName common s
                    (s, out.map fun (updated, unchanged) => (updated, n :: unchanged))
                  else
                    let (s, out) := reconcileCommon newByName common s
                    (s, out.map fun (updated, unchanged) => (n :: updated, unchanged))
              | none =>
                  let (s, out) := reconcileCommon newByName common s
                  (s, out.map fun (updated, unchanged) => (n :: updated, unchanged))

/-- The loop of `prepare_reconcile_candidates`. -/
def prepareReconcileCandidates (newByName : Dict Key Mapping) :
    List Key → Adapter → Dict Key Refusal → Adapter × Dict Key Refusal
  | [], s, refused => (s, refused)
  | name :: names, s, refused =>
      match newByName.get? name with
      | none => prepareReconcileCandidates newByName names s refused
      | some cfg =>
          match Port.init B cfg with
          | .ok _ => prepareReconcileCandidates newByName names s refused
          | .error e =>
              prepareReconcileCandidates newByName names (s.recordConfigGap name e (s.ports.get? name).isSome)
                (refused.set name e)

/-- `_reconcile_destroy`. -/
def reconcileDestroy (names : List Key) (s : Adapter) : Adapter := names.foldl destroyPort s

/-- The loop of `_reconcile_rebuild`. -/
def reconcileRebuild (f : Key → Steps) (newByName : Dict Key Mapping) :
    List Key → Adapter → Dict Key Refusal → Adapter × Dict Key Refusal
  | [], s, refused => (s, refused)
  | n :: names, s, refused =>
      match newByName.get? n with
      | none => reconcileRebuild f newByName names s refused
      | some cfg =>
          match s.createPort B (f n) n cfg with
          | (s, some _) => reconcileRebuild f newByName names s refused
          | (s, none) =>
              reconcileRebuild f newByName names (s.recordConfigGap n .notStarted false) (refused.set n .notStarted)

/-- `sorted` of names that are text. -/
def sortedNames (names : List Key) : List Key := (B.sorted names).getD []

/-- `_reconcile_snapshot`. -/
def reconcileSnapshot (newByName : Dict Key Mapping) (refused : List Key) (s : Adapter) : Adapter :=
  match s.config with
  | .dict config =>
      let kept := sortedNames B (newByName.keys.filter fun n => n ∉ refused)
      { s with config :=
          .dict (Mapping.assign "tcp_initiator_ports".toList (.list (kept.filterMap fun n => (newByName.get? n).map .dict)) config) }
  | _ => s

/-- `reconcile_summary`. -/
def reconcileSummary (added removed updated unchanged : List Key) (refused : Dict Key Refusal) (keptPrevious : List Key) :
    Summary :=
  let failed := sortedNames B refused.keys
  { removed, unchanged, failed
    added := added.filter fun n => n ∉ refused.keys
    updated := updated.filter fun n => n ∉ refused.keys
    failedDetail := failed.filterMap fun n => (refused.get? n).map fun e => (n, e, n ∈ keptPrevious)
    keptPrevious := keptPrevious.filter fun n => n ∈ refused.keys }

/-- `reconcile_ports` once the changed names are known. -/
def reconcileChanges (s : Adapter) (f : Key → Steps) (newByName : Dict Key Mapping)
    (added removed updated unchanged : List Key) : Adapter × Summary :=
  let (s, refused) := prepareReconcileCandidates B newByName (added ++ updated) s ∅
  let keptPrevious := sortedNames B (refused.keys.filter fun n => n ∈ updated)
  let added := added.filter fun n => n ∉ refused.keys
  let updated := updated.filter fun n => n ∉ refused.keys
  let s := reconcileDestroy (removed ++ updated) s
  let (s, notStarted) := reconcileRebuild B f newByName (added ++ updated) s ∅
  let refused := refused.update notStarted
  (reconcileSnapshot B newByName refused.keys s, reconcileSummary B added removed updated unchanged refused keptPrevious)

/-- `reconcile_ports`; no summary when it raises. -/
def reconcilePorts (s : Adapter) (f : Key → Steps) (newConfig : Tree) : Adapter × Option Summary :=
  let items := reconcileNormalize newConfig
  match s.pruneConfigGaps B items with
  | none => (s, none)
  | some s =>
      match indexByName B ∅ items with
      | none => (s, none)
      | some newByName =>
          match B.sorted (s.ports.keys.filter fun n => n ∉ newByName.keys),
              B.sorted (newByName.keys.filter fun n => n ∉ s.ports.keys),
              B.sorted (s.ports.keys.filter fun n => n ∈ newByName.keys) with
          | some removed, some added, some common =>
              match reconcileCommon B newByName common s with
              | (s, none) => (s, none)
              | (s, some (updated, unchanged)) =>
                  let (s, summary) := s.reconcileChanges B f newByName added removed updated unchanged
                  (s, some summary)
          | _, _, _ => (s, none)

end Adapter

end OpenMux.Initiator

/-!
## What a reload owes each port

The outcome of a reload for one name, from its running port, its entry and its own steps alone, and when a reload gives every
name that outcome.
-/

namespace OpenMux.Initiator

open Py

inductive Verdict
  | absent
  | removed
  | unchanged (port : Port)
  | refused (error : Refusal) (running : Bool)
  | created (port : Port) (running : Bool)
  | notStarted (running : Bool)

/-- Where the summary lists a name. -/
inductive Listing
  | added
  | removed
  | updated
  | unchanged
  | failed (error : Refusal) (keptPrevious : Bool)
deriving DecidableEq

variable (B : Builtins)

/-- An entry that asks for a new port. -/
def rebuilt (entry : Mapping) (f : Steps) (running : Bool) : Verdict :=
  match Port.init B entry with
  | .error e => .refused e running
  | .ok port => if f.create = true ∧ f.start = some true then .created port running else .notStarted running

/-- The outcome for one name. -/
def verdict (running : Option Running) (entry : Option Mapping) (f : Steps) : Verdict :=
  match running, entry with
  | none, none => .absent
  | some _, none => .removed
  | none, some entry => rebuilt B entry f false
  | some r, some entry =>
      match materialCfg B entry with
      | some m => if (r.port.material B).eq m then .unchanged (r.port.inplaceUpdate B entry) else rebuilt B entry f true
      | none => rebuilt B entry f true

namespace Verdict

def listing : Verdict → Option Listing
  | absent => none
  | removed => some .removed
  | unchanged _ => some .unchanged
  | refused e running => some (.failed e running)
  | created _ true => some .updated
  | created _ false => some .added
  | notStarted _ => some (.failed .notStarted false)

/-- The name gets a port of its own or loses the one it had. -/
def touches : Verdict → Bool
  | removed | created _ _ | notStarted true => true
  | absent | unchanged _ | refused _ _ | notStarted false => false

end Verdict

/-- The summary lists the name there and nowhere else. -/
structure Summary.Lists (summary : Summary) (k : Key) (l : Option Listing) : Prop where
  added : k ∈ summary.added ↔ l = some .added
  removed : k ∈ summary.removed ↔ l = some .removed
  updated : k ∈ summary.updated ↔ l = some .updated
  unchanged : k ∈ summary.unchanged ↔ l = some .unchanged
  failed : k ∈ summary.failed ↔ ∃ e kept, l = some (.failed e kept)
  failedDetail : ∀ e kept, (k, e, kept) ∈ summary.failedDetail ↔ l = some (.failed e kept)
  keptPrevious : k ∈ summary.keptPrevious ↔ ∃ e, l = some (.failed e true)

namespace Adapter

variable (s s' : Adapter) (k : Key)

/-- The port of the name after the reload. A port that stays is the same object under the same wrapper. -/
def Leads (register : Bool) : Verdict → Prop
  | .absent | .refused _ _ | .notStarted false => s'.ports.get? k = s.ports.get? k ∧ s'.registry.get? k = s.registry.get? k
  | .removed | .notStarted true => s'.ports.get? k = none ∧ s'.registry.get? k = none
  | .unchanged port =>
      (∃ r, s.ports.get? k = some r ∧ s'.ports.get? k = some ⟨r.oid, port⟩) ∧ s'.registry.get? k = s.registry.get? k
  | .created port running => ∃ oid, s.nextOid ≤ oid ∧ s'.ports.get? k = some ⟨oid, port⟩ ∧
      s'.registry.get? k = if register then some ⟨true, oid, []⟩ else if running then none else s.registry.get? k

/-- The port manager has a wrapper of the adapter for exactly the port that runs under the name. -/
def SyncedAt : Prop := (s.ports.get? k).map Running.oid = ((s.registry.get? k).filter Wrapper.own).map Wrapper.oid

/-- The entry that a port runs with stands in the new list. -/
def StandsIn (newByName : Dict Key Mapping) (r : Running) : Prop :=
  ∃ t, B.str (Mapping.get "name".toList r.port.config) = some t ∧ newByName.get? (.str t) = some r.port.config

/-- A running set: each port was built from its entry and holds its name, and objects are told apart by their numbers. -/
structure Coherent (s : Adapter) : Prop where
  built : ∀ k r, s.ports.get? k = some r → ∃ p, Port.init B r.port.config = .ok p ∧ p.material B = r.port.material B
  named : ∀ t r, s.ports.get? (.str t) = some r → B.str (Mapping.get "name".toList r.port.config) = some t
  fresh : ∀ k r, s.ports.get? k = some r → r.oid < s.nextOid
  freshWrapper : ∀ k w, s.registry.get? k = some w → w.oid < s.nextOid

/-- A second reload of the same list finds every port that was applied unchanged. -/
def Converged (newConfig : Tree) (summary : Summary) : Prop :=
  ∀ f, ∃ s'' summary', s'.reconcilePorts B f newConfig = (s'', some summary') ∧
    ∀ k, k ∈ summary.added ∨ k ∈ summary.updated ∨ k ∈ summary.unchanged → k ∈ summary'.unchanged

/-- The reload ends with a summary, gives each name its own outcome, keeps the ports whose entries stand and their clients,
leaves ports and registrations in step, and converges. -/
def ReloadsApart (f : Key → Steps) (newConfig : Tree) : Prop :=
  ∃ s' summary newByName, s.reconcilePorts B f newConfig = (s', some summary) ∧
    indexByName B ∅ (reconcileNormalize newConfig) = some newByName ∧
    (∀ k, s.Leads s' k (f k).register (verdict B (s.ports.get? k) (newByName.get? k) (f k)) ∧
      summary.Lists k (verdict B (s.ports.get? k) (newByName.get? k) (f k)).listing) ∧
    (∀ k r, s.ports.get? k = some r → StandsIn B newByName r →
      (∃ r', s'.ports.get? k = some r' ∧ r'.oid = r.oid) ∧ s'.registry.get? k = s.registry.get? k) ∧
    (∀ k, s'.SyncedAt k) ∧ s'.Converged B newConfig summary

/-- The condition under which that holds. -/
structure Reloadable (s : Adapter) (f : Key → Steps) (newConfig : Tree) (newByName : Dict Key Mapping) : Prop where
  /-- Names have a text, and so have the labels of entries without a name. -/
  index : indexByName B ∅ (reconcileNormalize newConfig) = some newByName
  labels : (listedLabels B 0 (reconcileNormalize newConfig)).isSome = true
  removed : (B.sorted (s.ports.keys.filter fun n => n ∉ newByName.keys)).isSome = true
  /-- The comparison can read every entry of a running port. -/
  readable : ∀ k r e, s.ports.get? k = some r → newByName.get? k = some e → (materialCfg B e).isSome = true
  /-- A port whose entry stands runs under a text, and its fields equal themselves. -/
  stands : ∀ k r, s.ports.get? k = some r → StandsIn B newByName r → (∃ t, k = .str t) ∧ (r.port.material B).eq (r.port.material B)
  /-- The registration of a port that started does not fail, and its fields equal themselves. -/
  created : ∀ k p running, verdict B (s.ports.get? k) (newByName.get? k) (f k) = .created p running →
    (f k).register = true ∧ (p.material B).eq (p.material B)
  /-- Names whose port is neither replaced nor removed were in step before. -/
  synced : ∀ k, (verdict B (s.ports.get? k) (newByName.get? k) (f k)).touches = false → s.SyncedAt k

end Adapter

end OpenMux.Initiator
