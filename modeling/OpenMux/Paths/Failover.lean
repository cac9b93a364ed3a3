import OpenMux.Lib.Run
import OpenMux.Paths.Groups

/-!
# The primary path of a peer

Which path is selected for what goes out to a peer, and the sweep that looks after the primaries. A path is stale by one
window and by its frames alone for the selector, and by a wider window and by its heartbeat ACKs as well for the sweep.
-/

namespace OpenMux.Paths

open Py

/-- What the selector and the sweep read outside the group. -/
structure Env where
  now : ℚ
  lastAck : Text → ℚ≥0
  frozen : Text → Bool

abbrev Member := Text × PathMeta

/-- The first member of highest preference, the one opened latest among equals. -/
def preferred : List Member → Option Member := List.argmax fun m => toLex ((m.2.pref : ℚ), m.2.openedAt)

namespace Group

variable (cfg : Config) (env : Env) (g : Group)

/-! ## The selector -/

/-- The window of the selector. -/
def selectCutoff : Option ℚ :=
  if 0 < cfg.mpathPrimaryStaleSec then some (env.now - cfg.mpathPrimaryStaleSec) else none

/-- `_mpath_conn_stale`. -/
def mpathConnStale (m : Member) : Bool :=
  (match selectCutoff cfg env with
    | some cutoff => decide (m.2.lastRxSeen < cutoff)
    | none => false) || env.frozen m.1

/-- The primary with what the group keeps of it. -/
def primaryMember : Option Member := g.primary.bind fun connId => (g.conns.get? connId).map fun info => (connId, info)

/-- `_mpath_clear_stale_primary`. -/
def mpathClearStalePrimary : Option Member := g.primaryMember.filter fun m => !mpathConnStale cfg env m

/-- The members that the selector does not take for stale. -/
def selectable : List Member := g.conns.entries.filter fun m => !mpathConnStale cfg env m

/-- The members that `_mpath_promote_primary` chooses from. -/
def promotable : List Member := if g.selectable cfg env = [] then g.conns.entries else g.selectable cfg env

/-- `_mpath_promote_primary`. -/
def mpathPromotePrimary : Group := { g with primary := (preferred (g.promotable cfg env)).map Prod.fst }

/-- `_mpath_try_preempt`. -/
def mpathTryPreempt (current : Member) : Group :=
  match preferred ((g.selectable cfg env).filter fun m => current.2.pref < m.2.pref) with
  | none => g
  | some m => { g with primary := some m.1 }

/-- `_select_mpath_connection`; the connection that it returns is the primary afterwards. -/
def selectMpathConnection : Group :=
  match g.mpathClearStalePrimary cfg env with
  | none => g.mpathPromotePrimary cfg env
  | some current => if cfg.mpathPreemptivePromote ∧ cfg.bestPref then g.mpathTryPreempt cfg env current else g

/-! ## The sweep -/

/-- The effective window of the sweep. -/
def effectiveStaleSec : ℚ := max cfg.mpathPrimaryStaleSec (5 / 2 * cfg.heartbeatInterval)

/-- `_mfl_stale_window`. -/
def mflStaleWindow : Option ℚ :=
  if 0 < effectiveStaleSec cfg then some (env.now - effectiveStaleSec cfg) else none

/-- The last activity of a member by its frames and its heartbeat ACKs. -/
def lastActivity (m : Member) : ℚ :=
  max (if m.2.lastRxSeen ≠ 0 then m.2.lastRxSeen else m.2.lastSeen) (env.lastAck m.1)

/-- The sweep takes the member for stale. -/
def sweepStale (m : Member) : Bool :=
  match mflStaleWindow cfg env with
  | some cutoff => decide (lastActivity env m < cutoff)
  | none => false

/-- The members other than the primary that the sweep does not take for stale. -/
def alternatives (primary : Text) : List Member :=
  g.conns.entries.filter fun m => m.1 ≠ primary && !sweepStale cfg env m

/-- The time of the last change of the primary, as the sweep initialises it. -/
def lastChange (info : PathMeta) : ℚ := g.lastPrimaryChange.getD (if info.openedAt ≠ 0 then info.openedAt else env.now)

/-- `_mfl_stale_promote`. -/
def mflStalePromote (primary : Text) : Group :=
  if g.alternatives cfg env primary = [] then g
  else if env.now - g.lastPrimaryChange.getD 0 < 3 / 2 * cfg.mpathFailoverCheckSec then g
  else
    let g' := g.selectMpathConnection cfg env
    match g'.primary with
    | some new => if new ≠ primary then { g' with lastPrimaryChange := some env.now } else g'
    | none => g'

/-- `_mfl_preemptive_scan`. -/
def mflPreemptiveScan (primary : Text) (info : PathMeta) : Group :=
  match preferred ((g.alternatives cfg env primary).filter fun m => info.pref < m.2.pref) with
  | none => g
  | some m =>
      if cfg.mpathFailoverCheckSec ≤ env.now - g.lastPrimaryChange.getD 0 then
        { g with primary := some m.1, lastPrimaryChange := some env.now }
      else g

/-- `_mfl_eval_primary`. -/
def mflEvalPrimary (primary : Text) (info : PathMeta) : Group :=
  let g := { g with lastPrimaryChange := some (g.lastChange env info) }
  if sweepStale cfg env (primary, info) then g.mflStalePromote cfg env primary
  else if cfg.mpathPreemptivePromote ∧ cfg.bestPref then g.mflPreemptiveScan cfg env primary info
  else g

/-- What the sweep does to a group after pruning. -/
def sweepPrimary : Group :=
  match g.primaryMember with
  | none => g.selectMpathConnection cfg env
  | some m => g.mflEvalPrimary cfg env m.1 m.2

/-- The member is idle beyond the TTL. -/
def idle (m : Member) : Bool :=
  lastActivity env m ≠ 0 && cfg.mpathNeighborIdleDropSec ≤ env.now - lastActivity env m

/-- `_mfl_prune_idle`, with the connections whose close it schedules. -/
def mflPruneIdle : Group × List Text :=
  if 0 < cfg.mpathNeighborIdleDropSec then
    (g.conns.entries.filter (idle cfg env)).foldl (fun (g, closing) m => (g.remove m.1, closing ++ [m.1])) (g, [])
  else (g, [])

end Group

namespace Node

variable (cfg : Config) (now : ℚ) (n : Node)

def env : Env := ⟨now, fun connId => (n.lastAck.get? connId).getD 0, fun connId => n.frozen.contains connId⟩

/-- `_select_mpath_connection`. -/
def selectMpathConnection (key : Text) : Node :=
  match n.groups.get? key with
  | none => n
  | some g => { n with groups := n.groups.set key (g.selectMpathConnection cfg (n.env now)) }

/-- One group of the sweep. A group that is empty after pruning is gone. -/
def sweepGroup (key : Text) : Node :=
  match n.groups.get? key with
  | none => n
  | some g =>
      let pruned := (g.mflPruneIdle cfg (n.env now)).1
      if pruned.conns.entries = [] then n.putGroup key pruned
      else n.putGroup key (pruned.sweepPrimary cfg (n.env now))

/-- `_mfl_sweep_once`. -/
def mflSweepOnce : Node := n.groups.keys.foldl (fun n key => n.sweepGroup cfg now key) n

end Node

end OpenMux.Paths

/-!
## A usable primary

What the sweep and the selector should achieve for a group, and when they do. A member is fresh by the window of the sweep.
-/

namespace OpenMux.Paths.Group

open Py

variable (cfg : Config) (env : Env) (g : Group)

/-- What the sweep leaves of a group. -/
def swept : Option Group :=
  let pruned := (g.mflPruneIdle cfg env).1
  if pruned.conns.entries = [] then none else some (pruned.sweepPrimary cfg env)

/-- Neither stale under the effective window nor frozen. -/
def Fresh (m : Member) : Prop := sweepStale cfg env m = false ∧ env.frozen m.1 = false

instance Fresh.decidable (m : Member) : Decidable (Fresh cfg env m) := inferInstanceAs (Decidable (_ ∧ _))

/-- If there is a fresh member, the primary is one. -/
def Usable : Prop := (∃ m ∈ g.conns.entries, Fresh cfg env m) → ∃ m, g.primaryMember = some m ∧ Fresh cfg env m

/-- A primary that is fresh stays, or a fresh member of higher preference takes its place. -/
def Steady (g' : Group) : Prop :=
  ∀ p, g.primaryMember = some p → Fresh cfg env p →
    ∃ m, g'.primaryMember = some m ∧ (m = p ∨ Fresh cfg env m ∧ p.2.pref < m.2.pref)

/-- The primary is frozen only if every member is. -/
def Unfrozen : Prop := ∀ p, g.primaryMember = some p → env.frozen p.1 = true → ∀ m ∈ g.conns.entries, env.frozen m.1 = true

/-- The last change of the primary is long enough ago for the sweep to change it again. -/
def OutOfThrottle : Prop :=
  ∀ p, g.primaryMember = some p → 3 / 2 * cfg.mpathFailoverCheckSec ≤ env.now - g.lastChange env p.2

/-- Preemption is on. -/
def Preempts : Prop := cfg.mpathPreemptivePromote = true ∧ cfg.bestPref = true

instance Preempts.decidable : Decidable (Preempts cfg) := inferInstanceAs (Decidable (_ ∧ _))

/-- The preferred member is there and has the property. -/
def PreferredIs (ms : List Member) (P : Member → Prop) : Prop := ∃ m, preferred ms = some m ∧ P m

/-- The group has a usable primary after a promotion: by its own window the selector knows a usable member, or the one that it
prefers without one is fresh. -/
def PromotesFresh : Prop :=
  (0 < cfg.mpathPrimaryStaleSec ∧ g.selectable cfg env ≠ []) ∨ PreferredIs (g.promotable cfg env) (Fresh cfg env)

/-- When the sweep leaves a usable primary. -/
def Recoverable : Prop :=
  (∀ m ∈ g.conns.entries, ¬ Fresh cfg env m) ∨
    match g.primaryMember with
    | none => g.PromotesFresh cfg env
    | some p =>
        if sweepStale cfg env p then
          if mpathConnStale cfg env p then g.PromotesFresh cfg env
          -- The selector keeps a primary that is stale for the sweep only, unless it is preempted.
          else Preempts cfg ∧ PreferredIs ((g.selectable cfg env).filter fun m => p.2.pref < m.2.pref) fun m =>
            sweepStale cfg env m = false
        else
          -- The scan does not look whether a member is frozen.
          if Preempts cfg ∧ ∃ m ∈ g.alternatives cfg env p.1, p.2.pref < m.2.pref then
            PreferredIs ((g.alternatives cfg env p.1).filter fun m => p.2.pref < m.2.pref) fun m => env.frozen m.1 = false
          else env.frozen p.1 = false

/-- When the selector leaves a fresh primary in its place or finds a better one. -/
def KeepsFresh : Prop :=
  ∀ p, g.primaryMember = some p → Fresh cfg env p →
    if mpathConnStale cfg env p then
      if g.selectable cfg env = [] then PreferredIs g.conns.entries fun m => m = p ∨ Fresh cfg env m ∧ p.2.pref < m.2.pref
      else ∃ m ∈ g.selectable cfg env, p.2.pref < m.2.pref
    else
      -- Without a window of its own the selector also preempts by stale members.
      0 < cfg.mpathPrimaryStaleSec ∨ ¬ Preempts cfg ∨
        ∀ m, preferred ((g.selectable cfg env).filter fun m => p.2.pref < m.2.pref) = some m → sweepStale cfg env m = false

/-- When the selector avoids frozen members. -/
def AvoidsFrozen : Prop :=
  g.selectable cfg env ≠ [] ∨ (∀ m ∈ g.conns.entries, env.frozen m.1 = true) ∨
    ∀ m, preferred g.conns.entries = some m → env.frozen m.1 = false

end OpenMux.Paths.Group
