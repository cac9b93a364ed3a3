import OpenMux.Lib.Dict
import OpenMux.Lib.PyText
import OpenMux.Lib.Run

/-!
# The streams of a remote port

The proxy of a port of a peer opens a stream there for each of its clients. Which ids it remembers, while its operations are
suspended in a send and the link comes and goes. The ids that the origin has open are kept beside the state of the proxy.
-/

namespace OpenMux.Remote

open Py

inductive Link
  /-- No path is selected, and a send returns at once. -/
  | gone
  /-- A path is selected, but what is written to it does not arrive. -/
  | dead
  | live
deriving DecidableEq

structure Proxy where
  clientSessions : Dict Text ℕ := ∅
  staleSessions : Dict Text ℕ := ∅
  /-- `_peer_next_stream_id` of the peer. -/
  nextStreamId : ℕ := 0
  link : Link := .gone
  /-- The clients of the calls of `_ensure_session` that are suspended in an OPEN, by the id in it. -/
  opening : Dict ℕ Text := ∅
  /-- The ids that the suspended calls of `close_all_streams` have still to close. -/
  closingAll : List (List ℕ) := []
  /-- The ids that the suspended calls of `_close_stale_proxy_sessions` have still to close. -/
  closingStale : List (List ℕ) := []
  /-- The ids whose OPEN has gone out on a live path. -/
  opened : List ℕ := []
  /-- The ids of which a CLOSE has gone out on a live path. -/
  closed : List ℕ := []
deriving DecidableEq

namespace Proxy

variable (n : Proxy)

def sendStreamOpen (sid : ℕ) : Proxy := { n with opened := if n.link = .live then sid :: n.opened else n.opened }

def sendStreamClose (sid : ℕ) : Proxy := { n with closed := if n.link = .live then sid :: n.closed else n.closed }

/-- `_ensure_session`, for a client or for `default:` and the name of the port, with whether the OPEN suspends it. -/
def ensureSession (key : Text) (suspends : Bool) : Proxy :=
  match n.clientSessions.get? key with
  | some _ => n
  | none =>
      let sid := n.nextStreamId + 1
      let n := { n with nextStreamId := sid }.sendStreamOpen sid
      if n.link ≠ .gone ∧ suspends then { n with opening := n.opening.set sid key }
      else { n with clientSessions := n.clientSessions.set key sid }

/-- `_ensure_session`, once the OPEN is through. -/
def recordSession (sid : ℕ) : Option Proxy :=
  (n.opening.get? sid).map fun key =>
    { n with clientSessions := n.clientSessions.set key sid, opening := n.opening.pop sid }

/-- `close_stream_for_client`; what the send returns is not looked at. -/
def closeStreamForClient (key : Text) : Proxy :=
  match n.clientSessions.get? key with
  | none => n
  | some sid => { n with clientSessions := n.clientSessions.pop key }.sendStreamClose sid

/-- `close_all_streams`, up to its first send. -/
def closeAllStreams : Proxy :=
  match n.clientSessions.entries.map Prod.snd with
  | [] => n
  | sid :: sids => { n with closingAll := n.closingAll ++ [sids] }.sendStreamClose sid

/-- `close_all_streams`, from one send to the next or to its end. -/
def closeAllNext (i : ℕ) : Option Proxy :=
  match n.closingAll[i]? with
  | none => none
  | some [] => some { n with clientSessions := ∅, closingAll := n.closingAll.eraseIdx i }
  | some (sid :: sids) => some ({ n with closingAll := n.closingAll.set i sids }.sendStreamClose sid)

/-- `disconnect`. -/
def disconnect : Proxy := { n with staleSessions := n.staleSessions.update n.clientSessions }.closeAllStreams

/-- `_close_stale_proxy_sessions`, up to its first send. -/
def closeStaleProxySessions : Proxy :=
  match n.staleSessions.entries.map Prod.snd with
  | [] => n
  | sid :: sids => { n with closingStale := n.closingStale ++ [sids] }.sendStreamClose sid

/-- `_close_stale_proxy_sessions`, from one send to the next or to its end. -/
def closeStaleNext (i : ℕ) : Option Proxy :=
  match n.closingStale[i]? with
  | none => none
  | some [] => some { n with staleSessions := ∅, closingStale := n.closingStale.eraseIdx i }
  | some (sid :: sids) => some ({ n with closingStale := n.closingStale.set i sids }.sendStreamClose sid)

end Proxy

inductive ProxyAct
  | ensure (key : Text) (suspends : Bool)
  | record (sid : ℕ)
  | closeClient (key : Text)
  | closeAll
  | closeAllNext (i : ℕ)
  | disconnect
  | closeStale
  | closeStaleNext (i : ℕ)
  | link (link : Link)
  /-- Another port of the peer takes an id. -/
  | otherPort

namespace Proxy

def step (n : Proxy) : ProxyAct → Option Proxy
  | .ensure key suspends => some (n.ensureSession key suspends)
  | .record sid => n.recordSession sid
  | .closeClient key => some (n.closeStreamForClient key)
  | .closeAll => some n.closeAllStreams
  | .closeAllNext i => n.closeAllNext i
  | .disconnect => some n.disconnect
  | .closeStale => some n.closeStaleProxySessions
  | .closeStaleNext i => n.closeStaleNext i
  | .link link => some { n with link := link }
  | .otherPort => some { n with nextStreamId := n.nextStreamId + 1 }

variable (n : Proxy)

/-! ## What should be remembered -/

/-- The origin has the stream open. -/
def Live (sid : ℕ) : Prop := sid ∈ n.opened ∧ sid ∉ n.closed

instance Live.decidable (sid : ℕ) : Decidable (n.Live sid) := inferInstanceAs (Decidable (_ ∧ _))

def Recorded (sid : ℕ) : Prop :=
  (∃ key, n.clientSessions.get? key = some sid) ∨ ∃ key, n.staleSessions.get? key = some sid

instance Recorded.decidable (sid : ℕ) : Decidable (n.Recorded sid) :=
  decidable_of_iff ((∃ e ∈ n.clientSessions.entries, e.2 = sid) ∨ ∃ e ∈ n.staleSessions.entries, e.2 = sid)
    (by simp [Recorded, ← Dict.mem_entries])

/-- Every stream that the origin has open is recorded. -/
def NoOrphans : Prop := ∀ sid, n.Live sid → n.Recorded sid

instance NoOrphans.decidable : Decidable n.NoOrphans :=
  decidable_of_iff (∀ sid ∈ n.opened, sid ∉ n.closed → n.Recorded sid) (by simp [NoOrphans, Live])

/-- No operation is suspended. -/
def Quiet : Prop := n.opening = ∅ ∧ n.closingAll = [] ∧ n.closingStale = []

instance Quiet.decidable : Decidable n.Quiet := inferInstanceAs (Decidable (_ ∧ _))

/-- Every stream that the origin has open is recorded, or is about to be. -/
def Accounted : Prop := ∀ sid, n.Live sid → n.Recorded sid ∨ (n.opening.get? sid).isSome

/-- No step forgets a stream that the origin has open: a client has no other session when its new one is recorded; the link is
live when a client goes; everything has been closed by the time that it is cleared; and a session that was left stale by an
outage is closed before the next one leaves another of its client. -/
def Careful : ProxyAct → Prop
  | .record sid => ∀ key, n.opening.get? sid = some key → ∀ old, n.clientSessions.get? key = some old → n.Live old →
      ∃ key', n.staleSessions.get? key' = some old
  | .closeClient key => ∀ sid, n.clientSessions.get? key = some sid → n.Live sid → n.link ≠ .live →
      ∃ key', n.staleSessions.get? key' = some sid
  | .closeAllNext i => n.closingAll[i]? = some [] → ∀ key sid, n.clientSessions.get? key = some sid → n.Live sid →
      ∃ key', n.staleSessions.get? key' = some sid
  | .disconnect => ∀ key stale sid, n.staleSessions.get? key = some stale → n.clientSessions.get? key = some sid →
      n.Live stale → stale = sid
  | .closeStaleNext i => n.closingStale[i]? = some [] → ∀ key sid, n.staleSessions.get? key = some sid → n.Live sid →
      ∃ key', n.clientSessions.get? key' = some sid
  | _ => True

/-- The same, with no OPEN that suspends on a live path. -/
def Prompt : ProxyAct → Prop
  | .ensure key suspends => n.clientSessions.get? key = none → n.link = .live → suspends = false
  | a => n.Careful a

/-- `_rp_close_streams_and_stale` once the peer is back, with nothing in between. -/
def reconnect : List ProxyAct :=
  .closeAll :: List.replicate n.clientSessions.entries.length (.closeAllNext 0) ++
    .closeStale :: List.replicate n.staleSessions.entries.length (.closeStaleNext 0)

end Proxy

end OpenMux.Remote
