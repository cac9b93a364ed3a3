import Mathlib
import OpenMux.Lib.PyValue
import OpenMux.Lib.Run

/-!
# The listeners of the federation adapter

The listener sockets of the adapter under `start` and `reconcile_ports`. Whether the certificate of a listener can be generated,
its TLS context built and its socket bound is told with every start of one.
-/

namespace OpenMux.Listeners

open Py

/-- The host and the port. -/
abbrev Key := Text × Int

/-- What `_normalize_listener_conf` makes of an entry. -/
structure Conf where
  enabled : Bool
  host : Text
  port : Int
  useTls : Bool
  sslCert : Tree
  sslKey : Tree
  sslCaCert : Tree
  requireClientCert : Bool
  tlsAutogen : Bool
  pathPref : Tree
  pathGroup : Tree
  tags : Tree
  interface : Tree
  fwmark : Tree

namespace Conf

def key (c : Conf) : Key := (c.host, c.port)

/-- `c == d`. -/
def eq (c d : Conf) : Bool :=
  c.enabled == d.enabled && c.host == d.host && c.port == d.port && c.useTls == d.useTls && c.sslCert.eq d.sslCert &&
    c.sslKey.eq d.sslKey && c.sslCaCert.eq d.sslCaCert && c.requireClientCert == d.requireClientCert &&
    c.tlsAutogen == d.tlsAutogen && c.pathPref.eq d.pathPref && c.pathGroup.eq d.pathGroup && c.tags.eq d.tags &&
    c.interface.eq d.interface && c.fwmark.eq d.fwmark

/-- The certificate has to be generated. -/
def needsCert (c : Conf) : Bool := c.useTls && c.tlsAutogen && (!c.sslCert.truthy || !c.sslKey.truthy)

end Conf

/-- `int(v)`; `none` where it raises. -/
def intOf : Tree → Option Int
  | .bool b => some (if b then 1 else 0)
  | .int n => some n
  | .float (.fin q) => some (q.num.tdiv q.den)
  | .str t => Py.int t
  | _ => none

/-- `lst.get(k, default)`. -/
def getOr (k : String) (default : Tree) (m : Mapping) : Tree := (Mapping.find k.toList m).getD default

/-- `_normalize_listener_conf` of an entry whose host is a text; `none` where it raises. -/
def normalizeListenerConf (lst : Mapping) : Option Conf :=
  match getOr "host" (.str "0.0.0.0".toList) lst, intOf (getOr "port" (.int 7822) lst) with
  | .str host, some port => some {
      enabled := (getOr "enabled" (.bool true) lst).truthy
      host, port
      useTls := (getOr "use_tls" (.bool true) lst).truthy
      sslCert := getOr "ssl_cert" .none lst
      sslKey := getOr "ssl_key" .none lst
      sslCaCert := getOr "ssl_ca_cert" .none lst
      requireClientCert := (getOr "require_client_cert" (.bool false) lst).truthy
      tlsAutogen := (getOr "tls_autogen" (.bool true) lst).truthy
      pathPref := getOr "path_pref" .none lst
      pathGroup := getOr "path_group" .none lst
      tags := getOr "tags" (.dict []) lst
      interface := (getOr "interface" .none lst).orElse (getOr "bind_interface" .none lst)
      fwmark := ((getOr "fwmark" .none lst).orElse (getOr "routing_mark" .none lst)).orElse (getOr "so_mark" .none lst) }
  | _, _ => none

/-- Where generated certificates are kept. -/
structure CertPaths where
  cert : Text
  key : Text
  cert_ne : cert ≠ []
  key_ne : key ≠ []

/-- What goes through when a listener is started. -/
structure Attempt where
  certificate : Bool
  context : Bool
  bind : Bool

/-- The summary of a reload, with `host:port` names. -/
structure Summary where
  added : List Text := []
  removed : List Text := []
  updated : List Text := []
  unchanged : List Text := []
  startFailed : List Text := []

def name (k : Key) : Text := k.1 ++ ':' :: decimal k.2

/-- `listeners_conf` by host and port: of several entries the last one counts. -/
def byKey (cs : List Conf) : Dict Key Conf := cs.foldl (fun d c => d.set c.key c) ∅

/-- `sorted` of a set of keys. -/
def sortKeys (ks : List Key) : List Key := ks.insertionSort fun k l => k.1 < l.1 ∨ k.1 = l.1 ∧ k.2 ≤ l.2

structure Adapter where
  listenersConf : List Conf := []
  /-- `_servers`, by a number of the server. -/
  servers : Dict Key Nat := ∅
  /-- The servers that were started and not closed. -/
  running : Dict Nat Key := ∅
  made : Nat := 0
  summary : Summary := {}

namespace Adapter

variable (paths : CertPaths) (s : Adapter)

/-- `_prepare_listener_tls`: the entry after it, and whether it went through. -/
def prepareListenerTls (a : Attempt) (c : Conf) : Conf × Bool :=
  if c.needsCert && !a.certificate then (c, false)
  else
    let c := if c.needsCert then { c with sslCert := .str paths.cert, sslKey := .str paths.key } else c
    if c.useTls && (!c.sslCert.truthy || !c.sslKey.truthy) then (c, false)
    else (c, !c.useTls || a.context)

/-- `_start_single_listener`. -/
def startSingleListener (k : Key) (a : Attempt) (c : Conf) : Adapter × Conf × Bool :=
  let (c, ok) := prepareListenerTls paths a c
  if ok && a.bind then
    ({ s with servers := s.servers.set k s.made, running := s.running.set s.made k, made := s.made + 1 }, c, true)
  else (s, c, false)

/-- `_stop_single_listener`. -/
def stopSingleListener (k : Key) : Adapter :=
  match s.servers.get? k with
  | none => s
  | some n => { s with servers := s.servers.pop k, running := s.running.pop n }

/-- One turn of the loop of `_do_start`. -/
def startListener (e : Conf × Attempt) : Adapter :=
  if e.1.enabled then
    let (s, c, _) := s.startSingleListener paths e.1.key e.2 e.1
    { s with listenersConf := s.listenersConf ++ [c] }
  else { s with listenersConf := s.listenersConf ++ [e.1] }

/-- `__init__` and `start`. -/
def start (entries : List (Conf × Attempt)) : Adapter := entries.foldl (startListener paths) {}

/-- One turn of the loop over the listeners that are added or updated; the entry is changed in place. -/
def applyListener (attempt : Key → Attempt) (acc : Adapter × Dict Key Conf × List Text) (k : Key) :
    Adapter × Dict Key Conf × List Text :=
  let (s, confs, failed) := acc
  match confs.get? k with
  | none => acc
  | some c =>
      if c.enabled then
        let (s, c, ok) := s.startSingleListener paths k (attempt k) c
        (s, confs.set k c, if ok then failed else failed ++ [name k])
      else acc

/-- The keys that both have, with other entries. -/
def changed (old new : Dict Key Conf) (k : Key) : Bool :=
  match old.get? k, new.get? k with
  | some c, some d => !c.eq d
  | _, _ => false

/-- `_reconcile_listeners`. -/
def reconcileListeners (attempt : Key → Attempt) (new : Dict Key Conf) : Adapter :=
  let old := byKey s.listenersConf
  let removed := sortKeys (old.keys.filter fun k => (new.get? k).isNone)
  let added := sortKeys (new.keys.filter fun k => (old.get? k).isNone)
  let common := sortKeys (old.keys.filter fun k => (new.get? k).isSome)
  let updated := common.filter (changed old new)
  let unchanged := common.filter fun k => !updated.contains k
  let stopped := (removed ++ updated).foldl stopSingleListener s
  let (s, confs, failed) := (added ++ updated).foldl (applyListener paths attempt) (stopped, new, [])
  { s with
    listenersConf := (sortKeys new.keys).filterMap confs.get?
    summary := ⟨added.map name, removed.map name, updated.map name, unchanged.map name, failed⟩ }

/-- A reload with the listeners of a configuration. -/
structure Reload where
  listeners : List Mapping
  attempt : Key → Attempt

/-- `reconcile_ports`; `none` where a port is no number. -/
def step (r : Reload) : Option Adapter :=
  (r.listeners.mapM normalizeListenerConf).map fun cs => s.reconcileListeners paths r.attempt (byKey cs)

/-! ## Convergence -/

/-- The listener has a server, and that is running. -/
def Live (k : Key) : Prop := ∃ n, s.servers.get? k = some n ∧ s.running.get? n = some k

/-- Every enabled listener is live or was reported, and no server runs for another. -/
structure Served (new : Dict Key Conf) : Prop where
  live : ∀ k c, new.get? k = some c → c.enabled = true → s.Live k ∨ name k ∈ s.summary.startFailed
  only : ∀ n k, s.running.get? n = some k → ∃ c, new.get? k = some c ∧ c.enabled = true

/-- `d == e`. -/
def SameConf (d e : Dict Key Conf) : Prop :=
  ∀ k, d.get? k = none ∧ e.get? k = none ∨ ∃ c c', d.get? k = some c ∧ e.get? k = some c' ∧ c.eq c' = true

/-- A reload with an equal configuration, when all listeners are up, changes nothing and reports every listener unchanged. -/
def Idempotent (new : Dict Key Conf) : Prop :=
  ∀ r cs, r.listeners.mapM normalizeListenerConf = some cs → SameConf new (byKey cs) →
    (∀ k c, new.get? k = some c → c.enabled = true → s.Live k) →
    ∃ s', s.step paths r = some s' ∧ s'.servers = s.servers ∧ s'.running = s.running ∧
      s'.summary = { unchanged := (sortKeys (byKey s.listenersConf).keys).map name } ∧
      ∀ k, (new.get? k).isSome → name k ∈ s'.summary.unchanged

/-- The listener of an entry comes up at the start. -/
def comesUp (e : Conf × Attempt) : Bool := e.1.enabled && (prepareListenerTls paths e.2 e.1).2 && e.2.bind

/-- No entry comes up before another one with the same host and port. -/
def Distinct (entries : List (Conf × Attempt)) : Prop :=
  entries.Pairwise fun e e' => comesUp paths e = true → e'.1.key ≠ e.1.key

/-- The reload has no enabled listener that is down and has the entry that it went down with. -/
def Retried (r : Reload) : Prop :=
  ∀ cs, r.listeners.mapM normalizeListenerConf = some cs → ∀ k c d, (byKey s.listenersConf).get? k = some c →
    (byKey cs).get? k = some d → c.eq d = true → d.enabled = true → (s.servers.get? k).isSome

end Adapter

end OpenMux.Listeners
