import OpenMux.Paths.Lemmas.Generations
import OpenMux.Paths.Lemmas.Health
import OpenMux.Paths.Lemmas.Peers

/-!
# The paths to a peer, over whole runs
-/

namespace OpenMux.Paths

open Py

/-! ## The shape of the groups -/

/-- From a node whose groups have their shape, they have it all along a run exactly if every step of it is timely. -/
theorem Node.Shape.along_iff {cfg : Config} {n : Node} (h : n.Shape) (as : List Act) :
    (∀ as' m, as' <+: as → Transition.exec (Node.step cfg) n as' = some m → m.WellShaped) ↔
      Transition.Along (Node.step cfg) Node.Timely n as := by
  exact Transition.forall_prefix_iff_along (fun _ hs => hs.wellShaped) (fun _ _ _ hs hc hstep => hs.step hc hstep)
    (fun _ _ _ hs hstep => hs.timely hstep) (fun n a _ hnone => by cases a <;> cases hnone) h as

theorem Node.Shape.start : ({} : Node).Shape where
  nonempty := nofun
  led := nofun
  home := nofun

/-- The groups have their shape in every state of a run, and a connection is in no group once it is closed, exactly if no
connection is registered that has been closed, and no record is stored for a member of another group. -/
theorem Node.groups_shaped_iff (cfg : Config) (as : List Act) :
    (∀ as' n, as' <+: as → Transition.exec (Node.step cfg) {} as' = some n →
      n.WellShaped ∧ ∀ connId key, ¬ (n.closeConnection connId).InGroup key connId) ↔
    Transition.Along (Node.step cfg) Node.Timely {} as := by
  rw [← Node.Shape.start.along_iff as]
  refine ⟨fun h as' n hpre hrun => (h as' n hpre hrun).1, fun h as' n hpre hrun => ⟨h as' n hpre hrun, fun connId key => ?_⟩⟩
  have htimely := (Node.Shape.start.along_iff as').mp fun bs m hbs => h bs m (hbs.trans hpre)
  have hshape : n.Shape :=
    Transition.exec_invariant (fun _ _ _ hs hc hstep => hs.step hc hstep) Node.Shape.start htimely hrun
  rintro ⟨g, hg, hhas⟩
  exact hshape.not_has_unregister hg hhas

/-- Paths of one preference, without windows. -/
def Config.plain : Config := ⟨fun _ => 0, 0, 0, 0, 0, false, false⟩

/-- The connection is closed while its challenge goes out, and registered afterwards. -/
def closedEarly : List Act :=
  [.store "in:h:1:2".toList { serverId := some ['s'], openedAt := 0 }, .close "in:h:1:2".toList, .register 0 "in:h:1:2".toList]

/-- A connection that is closed before it is registered is in a group for good. -/
theorem Node.groups_shaped_fails : ∃ n, Transition.exec (Node.step Config.plain) {} closedEarly = some n ∧
    n.connections.get? "in:h:1:2".toList = none ∧ n.InGroup "host:h".toList "in:h:1:2".toList ∧ ¬ n.WellShaped := by
  have hin : ∀ n, Transition.exec (Node.step Config.plain) {} closedEarly = some n →
      n.connections.get? "in:h:1:2".toList = none ∧ n.InGroup "host:h".toList "in:h:1:2".toList := by decide
  obtain ⟨n, hn⟩ := Option.isSome_iff_exists.mp
    (by decide : (Transition.exec (Node.step Config.plain) {} closedEarly).isSome)
  obtain ⟨hnone, hmember⟩ := hin n hn
  exact ⟨n, hn, hnone, hmember, fun h => h.closed _ _ hnone hmember⟩

/-! ## Generations -/

/-- When every handshake is through and every scheduled close has run, one generation is left of each peer; a connection was
retired only for one of another generation that was opened no earlier; and if each was compared before its own close was
scheduled, one is left, or was closed for another reason, that is as new as any that was retired. -/
theorem Peers.generations_succeed {as : List PeerAct} {n : Peers} (hrun : Transition.exec Peers.step {} as = some n)
    (hsettled : n.Settled) :
    (∀ c ∈ n.connections.entries, ∀ d ∈ n.connections.entries, ¬ c.2.Rivals d.2) ∧ n.Superseded ∧
      (Transition.Along Peers.step Peers.Prompt {} as → n.Outlived) := by
  have hinv : n.Inv := Transition.exec_invariant' (fun _ _ _ h hstep => h.step hstep) Peers.Inv.start hrun
  refine ⟨fun c hc d hd => ?_, fun c hc => hinv.superseded c (.inl hc), fun hprompt c hc s i hgen => ?_⟩
  · apply hinv.same c hc d hd <;> simp [hsettled.1, hsettled.2]
  · have hboth : n.Inv ∧ n.Outlives :=
      Transition.exec_invariant (I := fun n => n.Inv ∧ n.Outlives)
        (fun _ _ _ h hp hstep => ⟨h.1.step hstep, h.1.outlives h.2 hp hstep⟩)
        ⟨Peers.Inv.start, Peers.Outlives.start⟩ hprompt hrun
    obtain ⟨d, hd, hr⟩ := hboth.2 c (.inl hc) s i hgen
    exact ⟨d, List.mem_append.mpr (hd.symm.imp_left And.left), hr⟩

def ofGeneration (instanceId : Char) (openedAt : ℚ) : ConnRecord :=
  { serverId := some ['s'], instanceId := some [instanceId], openedAt := openedAt }

/-- A handshake that nothing interrupts. -/
def handshake (connId : Char) (instanceId : Char) (openedAt : ℚ) : List PeerAct :=
  [.greet [connId] (ofGeneration instanceId openedAt), .compare [connId]]

/-- A peer restarts once. -/
def restart : List PeerAct := handshake 'a' '1' 1 ++ handshake 'b' '2' 2 ++ [.retire ['a']]

theorem Peers.generations_succeed_restart : ∃ n, Transition.exec Peers.step {} restart = some n ∧
    (∀ c ∈ n.connections.entries, ∀ d ∈ n.connections.entries, ¬ c.2.Rivals d.2) ∧ n.Superseded ∧
      (Transition.Along Peers.step Peers.Prompt {} restart → n.Outlived) := by
  have hsettled : ∀ n, Transition.exec Peers.step {} restart = some n → n.Settled := by decide
  obtain ⟨n, hn⟩ := Option.isSome_iff_exists.mp (by decide : (Transition.exec Peers.step {} restart).isSome)
  exact ⟨n, hn, Peers.generations_succeed hn (hsettled n hn)⟩

/-- A connection of the generation that wins in the end is compared while an older one of it is not there yet. -/
def tooEarly : List PeerAct :=
  handshake 'd' '1' 3 ++ handshake 'c' '2' 2 ++ [.retire ['c']] ++ handshake 'f' '2' 5 ++ [.retire ['d']]

/-- The connection that another one was retired for is closed for another reason. -/
def forNothing : List PeerAct :=
  handshake 'x' '2' 3 ++ handshake 'm' '1' 5 ++ [.retire ['x'], .close ['m']] ++ handshake 'z' '3' 1

/-- Two connections that were opened at the same time retire each other. -/
def eachOther : List PeerAct :=
  [.greet ['w'] (ofGeneration '2' 4), .greet ['e'] (ofGeneration '1' 4), .compare ['w'], .compare ['e'], .retire ['e'],
    .retire ['w']] ++ handshake 'z' '3' 1

/-- The run settles with `z` alone left, and `xs` retired. -/
def Peers.EndsWith (as : List PeerAct) (z : Entry) (xs : List Entry) : Prop :=
  (Transition.exec Peers.step {} as).map (fun n => (n.connections.entries, n.retired)) = some ([z], xs) ∧
    ∀ n, Transition.exec Peers.step {} as = some n → n.Settled

instance Peers.EndsWith.decidable (as : List PeerAct) (z : Entry) (xs : List Entry) : Decidable (Peers.EndsWith as z xs) :=
  inferInstanceAs (Decidable (_ ∧ _))

theorem Peers.EndsWith.exists {as : List PeerAct} {z : Entry} {xs : List Entry} (h : Peers.EndsWith as z xs) :
    ∃ n, Transition.exec Peers.step {} as = some n ∧ n.Settled ∧ n.connections.entries = [z] ∧ n.retired = xs := by
  obtain ⟨n, hn, hend⟩ := Option.map_eq_some_iff.mp h.1
  rw [Prod.mk.injEq] at hend
  exact ⟨n, hn, h.2 n hn, hend.1, hend.2⟩

theorem Peers.generations_succeed_fails : [tooEarly, forNothing, eachOther].Forall fun as => ∃ n,
    Transition.exec Peers.step {} as = some n ∧ n.Settled ∧ ¬ n.OneGeneration := by
  -- A connection of a later generation than the one that is left was retired, and it was newer.
  have hnewest {n : Peers} {xs : List Entry} (hleft : n.connections.entries = [(['z'], ofGeneration '3' 1)])
      (hretired : n.retired = xs) (hx : ∃ x ∈ xs, x.2.generation.map Prod.fst = some ['s'] ∧ 1 < x.2.openedAt)
      (hxs : ∀ x ∈ xs, x.2.generation ≠ some (['s'], ['3'])) : ¬ n.OneGeneration := by
    intro h
    obtain ⟨d, hd, hgen, hmax⟩ := h.newest _ (hleft ▸ List.mem_singleton_self _) ['s'] ['3'] rfl
    obtain ⟨x, hx, hs, hlt⟩ := hx
    rw [hleft, hretired] at hd hmax
    obtain ⟨g, hg, hserver⟩ := Option.map_eq_some_iff.mp hs
    have hle := hmax x (List.mem_append_right _ hx) g.2 (by rw [hg, ← hserver])
    rcases List.mem_append.mp hd with hd | hd
    · cases List.mem_singleton.mp hd
      exact absurd hle (not_le.mpr hlt)
    · exact hxs d hd hgen
  refine ⟨?_, ?_, ?_⟩
  · have hend : Peers.EndsWith tooEarly (['f'], ofGeneration '2' 5)
      [(['c'], ofGeneration '2' 2), (['d'], ofGeneration '1' 3)] := by decide
    obtain ⟨n, hn, hsettled, hleft, hretired⟩ := hend.exists
    refine ⟨n, hn, hsettled, fun h => ?_⟩
    exact h.spared (['f'], ofGeneration '2' 5) (by simp [hleft]) rfl (['c'], ofGeneration '2' 2) (by simp [hretired]) rfl
  · have hend : Peers.EndsWith forNothing (['z'], ofGeneration '3' 1) [(['x'], ofGeneration '2' 3)] := by
      decide
    obtain ⟨n, hn, hsettled, hleft, hretired⟩ := hend.exists
    exact ⟨n, hn, hsettled, hnewest hleft hretired (by decide) (by decide)⟩
  · have hend : Peers.EndsWith eachOther (['z'], ofGeneration '3' 1)
      [(['e'], ofGeneration '1' 4), (['w'], ofGeneration '2' 4)] := by decide
    obtain ⟨n, hn, hsettled, hleft, hretired⟩ := hend.exists
    exact ⟨n, hn, hsettled, hnewest hleft hretired (by decide) (by decide)⟩

/-! ## Failover -/

/-- After a sweep out of the throttle the primary of a group is usable, if there is a fresh member, exactly if the group was
recoverable once the idle members were pruned; the selector keeps a fresh primary or finds a better one, and avoids frozen
members, exactly under conditions of its own. -/
theorem Node.failover_iff {cfg : Config} {now : ℚ} {n : Node} {key : Text} {g : Group} (hg : n.groups.get? key = some g) :
    (0 < cfg.mpathFailoverCheckSec → (g.mflPruneIdle cfg (n.env now)).1.OutOfThrottle cfg (n.env now) →
      ((∀ g', (n.mflSweepOnce cfg now).groups.get? key = some g' → g'.Usable cfg (n.env now)) ↔
        (g.mflPruneIdle cfg (n.env now)).1.Recoverable cfg (n.env now))) ∧
    ((∀ g', (n.selectMpathConnection cfg now key).groups.get? key = some g' → g.Steady cfg (n.env now) g') ↔
      g.KeepsFresh cfg (n.env now)) ∧
    ((∀ g', (n.selectMpathConnection cfg now key).groups.get? key = some g' → g'.Unfrozen (n.env now)) ↔
      g.AvoidsFrozen cfg (n.env now)) := by
  rw [Node.get?_mflSweepOnce, Node.get?_selectMpathConnection, hg]
  simp only [Option.bind_some, Option.map_some, Option.some.injEq, forall_eq']
  refine ⟨fun hcheck hcalm => ?_, Group.steady_select, Group.unfrozen_select⟩
  unfold Group.swept
  dsimp only
  split
  · rename_i hempty
    exact iff_of_true nofun (.inl (by simp [hempty]))
  · simp only [Option.some.injEq, forall_eq']
    exact Group.usable_sweepPrimary hcheck hcalm

/-- A stale window of 10 s, with a heartbeat every 30 s. -/
def Config.slowBeat : Config := ⟨fun _ => 0, 10, 30, 1, 0, false, false⟩

/-- A path with its preference, opened at the start and last heard of then. -/
def path (connId : Char) (pref : ℤ) (lastRxSeen : ℚ) : Dict Text PathMeta → Dict Text PathMeta :=
  fun conns => conns.set [connId] ⟨1, pref, lastRxSeen, lastRxSeen⟩

/-- The preferred path is frozen, and for the selector both are stale. -/
def frozenPrimary : Group := { conns := path 'b' 0 50 (path 'a' 1 50 ∅), primary := some ['a'] }

/-- The preferred path is stale for the selector only. -/
def quietPrimary : Group := { conns := path 'q' 0 95 (path 'p' 1 50 ∅), primary := some ['p'] }

def slowPaths : Node where
  groups := ((∅ : Dict Text Group).set ['g'] frozenPrimary).set ['h'] quietPrimary
  frozen := [['a']]

theorem frozenPrimary_outOfThrottle : frozenPrimary.OutOfThrottle Config.slowBeat (slowPaths.env 100) := by
  intro p hp
  cases hp
  decide +kernel

/-- The sweep leaves a frozen primary beside a usable path, and the selector selects it; and it gives up a fresh primary for a
path of lower preference. -/
theorem Node.failover_fails :
    (frozenPrimary.mflPruneIdle Config.slowBeat (slowPaths.env 100)).1.OutOfThrottle Config.slowBeat (slowPaths.env 100) ∧
    (∃ g', (slowPaths.mflSweepOnce Config.slowBeat 100).groups.get? ['g'] = some g' ∧
      ¬ g'.Usable Config.slowBeat (slowPaths.env 100)) ∧
    (∃ g', (slowPaths.selectMpathConnection Config.slowBeat 100 ['h']).groups.get? ['h'] = some g' ∧
      ¬ quietPrimary.Steady Config.slowBeat (slowPaths.env 100) g') ∧
    ∃ g', (slowPaths.selectMpathConnection Config.slowBeat 100 ['g']).groups.get? ['g'] = some g' ∧
      ¬ g'.Unfrozen (slowPaths.env 100) := by
  refine ⟨frozenPrimary_outOfThrottle, ⟨{ frozenPrimary with lastPrimaryChange := some 1 }, by decide +kernel, fun h => ?_⟩,
    ⟨{ quietPrimary with primary := some ['q'] }, by decide +kernel, fun h => ?_⟩, ⟨frozenPrimary, by decide +kernel, fun h => ?_⟩⟩
  · obtain ⟨m, hm, hfresh⟩ := h ⟨(['b'], ⟨1, 0, 50, 50⟩), by decide +kernel, by decide +kernel⟩
    cases hm
    exact absurd hfresh.2 (by decide)
  · obtain ⟨m, hm, hbetter⟩ := h (['p'], ⟨1, 1, 50, 50⟩) rfl (by decide +kernel)
    cases hm
    rcases hbetter with he | ⟨_, hlt⟩
    · exact absurd (congrArg Prod.fst he) (by decide)
    · exact absurd hlt (by decide)
  · exact absurd (h (['a'], ⟨1, 1, 50, 50⟩) rfl (by decide) (['b'], ⟨1, 0, 50, 50⟩) (by decide +kernel)) (by decide)

/-- With one window of 10 s for both. -/
def Config.fastBeat : Config := { Config.slowBeat with heartbeatInterval := 1 }

/-- The fresh path is promoted past the stale one. -/
theorem Node.failover_promoted :
    (∀ g', (slowPaths.mflSweepOnce Config.fastBeat 100).groups.get? ['h'] = some g' →
      g'.Usable Config.fastBeat (slowPaths.env 100)) ∧
    (∀ g', (slowPaths.selectMpathConnection Config.fastBeat 100 ['h']).groups.get? ['h'] = some g' →
      quietPrimary.Steady Config.fastBeat (slowPaths.env 100) g') ∧
    ∀ g', (slowPaths.selectMpathConnection Config.fastBeat 100 ['h']).groups.get? ['h'] = some g' →
      g'.Unfrozen (slowPaths.env 100) := by
  have hiff := @Node.failover_iff Config.fastBeat 100 slowPaths ['h'] quietPrimary rfl
  have hselectable : quietPrimary.selectable Config.fastBeat (slowPaths.env 100) ≠ [] := by decide +kernel
  refine ⟨(hiff.1 (by decide +kernel) ?_).mpr (.inr ?_), hiff.2.1.mpr ?_, hiff.2.2.mpr (.inl hselectable)⟩
  · intro p hp
    cases hp
    decide +kernel
  · rw [show (quietPrimary.mflPruneIdle Config.fastBeat (slowPaths.env 100)).1.primaryMember = some (['p'], ⟨1, 1, 50, 50⟩)
      from rfl]
    dsimp only
    rw [if_pos (by decide +kernel), if_pos (by decide +kernel)]
    exact .inl ⟨by decide +kernel, hselectable⟩
  · intro p hp hfresh
    cases hp
    exact absurd hfresh (by decide +kernel)

/-! ## Keys and addresses -/

/-- Exactly the hosts without a colon come back out of an id; the keys agree for all of them. -/
theorem onePeerOneKey_iff (host : Text) (port : UInt16) (now : ℕ) : OnePeerOneKey host port now ↔ ':' ∉ host := by
  constructor
  · intro h
    exact notMem_of_dialled h.address
  · intro h
    constructor
    case keys =>
      intro connId connId' conn conn' serverId serverId' hid hid'
      exact keyOf_congr hid hid'
    case address => exact dialled_outboundId h
    case rekeyed =>
      intro n connId conn serverId before hconn _ hbefore key
      have hkey : n.derivePeerKey connId = Node.keyOf connId (some conn) := by rw [Node.derivePeerKey, hconn]
      rw [inGroup_rekey hbefore, hkey]

/-- The preference that is configured for a peer is not found by its IPv6 address. -/
theorem onePeerOneKey_fails :
    ¬ OnePeerOneKey "2001:db8::1".toList 7822 1000 ∧
    mpathDerivePref [⟨"2001:db8::1".toList, 7822, 5⟩] none (outboundId "2001:db8::1".toList 7822 1000) = 0 ∧
    mpathDerivePref [⟨"192.0.2.1".toList, 7822, 5⟩] none (outboundId "192.0.2.1".toList 7822 1000) = 5 := by
  refine ⟨?_, by decide +kernel, by decide +kernel⟩
  intro h
  exact notMem_of_dialled h.address (by decide)

end OpenMux.Paths
