import OpenMux.Remote.Lemmas.Sessions
import OpenMux.Remote.Lemmas.Regrant

/-!
# The proxies of remote ports, over whole runs
-/

namespace OpenMux.Remote

open Py

/-! ## Streams -/

/-- Every stream that the origin has open is recorded in every state of a run exactly if every step of it is careful and no
OPEN suspends on a live path; recorded, or about to be, exactly if every step is careful. Then a reconnect in a quiet state
closes them all. -/
theorem Proxy.streams_recorded_iff (as : List ProxyAct) :
    ((∀ bs n, bs <+: as → Transition.exec Proxy.step {} bs = some n → n.NoOrphans) ↔
      Transition.Along Proxy.step Proxy.Prompt {} as) ∧
    ((∀ bs n, bs <+: as → Transition.exec Proxy.step {} bs = some n → n.Accounted) ↔
      Transition.Along Proxy.step Proxy.Careful {} as) ∧
    (Transition.Along Proxy.step Proxy.Careful {} as → ∀ n, Transition.exec Proxy.step {} as = some n → n.link = .live →
      n.Quiet → ∃ n', Transition.exec Proxy.step n n.reconnect = some n' ∧ ∀ sid, ¬ n'.Live sid) := by
  have hnone : ({} : Proxy).NoOrphans := fun _ hs => nomatch hs.1
  have hcareful : (∀ bs n, bs <+: as → Transition.exec Proxy.step {} bs = some n → n.Accounted) ↔
      Transition.Along Proxy.step Proxy.Careful {} as :=
    Transition.forall_prefix_iff_along (I := fun n => n.Inv ∧ n.Accounted) (P := Proxy.Accounted) (fun _ h => h.2)
      (fun _ _ _ h hc hstep => ⟨h.1.step hstep, (Proxy.accounted_step h.1 h.2 hstep).mpr hc⟩)
      (fun _ _ _ h hstep hacc => (Proxy.accounted_step h.1 h.2 hstep).mp hacc) (fun _ _ _ => Proxy.careful_of_none)
      ⟨Proxy.Inv.start, fun s hs => .inl (hnone s hs)⟩ as
  refine ⟨?_, hcareful, fun hc n hrun hlive hquiet => ?_⟩
  · exact Transition.forall_prefix_iff_along (I := fun n => n.Inv ∧ n.NoOrphans) (P := Proxy.NoOrphans) (fun _ h => h.2)
      (fun _ _ _ h hc hstep => ⟨h.1.step hstep, (Proxy.noOrphans_step h.1 h.2 hstep).mpr hc⟩)
      (fun _ _ _ h hstep hno => (Proxy.noOrphans_step h.1 h.2 hstep).mp hno) (fun _ _ _ => Proxy.prompt_of_none)
      ⟨Proxy.Inv.start, hnone⟩ as
  · have hinv : n.Inv := Transition.exec_invariant' (fun _ _ _ h hstep => h.step hstep) Proxy.Inv.start hrun
    have hacc : n.Accounted := hcareful.mpr hc as n List.prefix_rfl hrun
    refine ((Proxy.noOrphans_iff hinv).mpr ⟨hacc, fun sid ho => ?_⟩).reconnect hlive hquiet
    rw [hquiet.1] at ho
    cases ho

/-- A client loses its session in an outage. -/
def outage : List ProxyAct := [.link .live, .ensure ['c'] false, .link .gone, .disconnect, .closeAllNext 0]

theorem Proxy.streams_recorded_outage : ∃ n, Transition.exec Proxy.step {} (outage ++ [.link .live]) = some n ∧
    ∃ n', Transition.exec Proxy.step n n.reconnect = some n' ∧ ∀ sid, ¬ n'.Live sid := by
  have hcareful : Transition.Along Proxy.step Proxy.Careful {} (outage ++ [.link .live]) := by
    refine ⟨trivial, trivial, trivial, fun _ _ _ h => (by cases h), fun _ key sid hkey _ => ⟨key, ?_⟩, trivial, trivial⟩
    exact hkey
  exact ⟨_, rfl, (Proxy.streams_recorded_iff (outage ++ [.link .live])).2.2 hcareful _ rfl rfl (by decide)⟩

/-- Two calls for one client overlap. -/
def atOnce : List ProxyAct := [.link .live, .ensure ['c'] true, .ensure ['c'] true, .record 1, .record 2]

/-- A client goes while the link is down. -/
def whileDown : List ProxyAct := [.link .live, .ensure ['c'] false, .link .gone, .closeClient ['c']]

/-- A client comes while the others are closed. -/
def meanwhile : List ProxyAct := [.link .live, .ensure ['c'] false, .closeAll, .ensure ['d'] false, .closeAllNext 0]

/-- The CLOSE of a stale session is lost. -/
def lostClose : List ProxyAct := outage ++ [.link .dead, .closeStale, .closeStaleNext 0]

/-- The next outage comes before the stale session is closed. -/
def secondOutage : List ProxyAct :=
  outage ++ [.link .live, .ensure ['c'] false, .link .gone, .disconnect, .closeAllNext 0]

theorem Proxy.streams_recorded_fails : [atOnce, whileDown, meanwhile, lostClose, secondOutage].Forall fun as => ∃ n,
    Transition.exec Proxy.step {} as = some n ∧ n.Quiet ∧ ¬ n.NoOrphans := by
  have hforgets : ∀ as ∈ [atOnce, whileDown, meanwhile, lostClose, secondOutage],
      (Transition.exec Proxy.step {} as).isSome ∧ ∀ n, Transition.exec Proxy.step {} as = some n → n.Quiet ∧ ¬ n.NoOrphans := by
    decide
  refine List.forall_iff_forall_mem.mpr fun as has => ?_
  obtain ⟨hsome, hall⟩ := hforgets as has
  obtain ⟨n, hn⟩ := Option.isSome_iff_exists.mp hsome
  exact ⟨n, hn, hall n hn⟩

/-! ## The re-grant -/

/-- Every request of a re-grant returns read-only, whatever the origin answers: the answer is behind the advertisement whose
handler awaits it. So every request whose answer is there in time returns the mode in it exactly if every such answer is a
refusal. -/
theorem Pair.regrant_honored_iff {n : Pair} (hidle : n.Idle) (as : List PairAct) :
    ((∀ bs m, bs <+: as → Transition.exec Pair.step n bs = some m → m.Honored) ↔
      Transition.Along Pair.step Pair.Refused n as) ∧
    ∀ m, Transition.exec Pair.step n as = some m → ∀ o ∈ m.outcomes, o.returned = .readOnly := by
  constructor
  · refine Transition.forall_prefix_iff_along (I := fun m => m.Blocked ∧ m.Honored) (P := Pair.Honored) (fun _ h => h.2)
      (fun m a m' h hrefused hstep => ?_) (fun m a m' h hstep hhonored => ?_) (fun m a h hnone => ?_)
      ⟨hidle.blocked, fun o ho => by rw [hidle.2.2.2] at ho; cases ho⟩ as
    · obtain ⟨hblocked, ⟨ho, -⟩ | ⟨rfl, w, hw, ho⟩⟩ := Pair.blocked_step h.1 hstep
      · exact ⟨hblocked, by unfold Pair.Honored; rw [ho]; exact h.2⟩
      · refine ⟨hblocked, fun o hmem mode hcarried => ?_⟩
        rw [ho] at hmem
        rcases List.mem_cons.mp hmem with rfl | hmem
        · exact (hrefused w hw mode hcarried).symm
        · exact h.2 o hmem mode hcarried
    · obtain ⟨-, ⟨-, hne⟩ | ⟨rfl, w, hw, ho⟩⟩ := Pair.blocked_step h.1 hstep
      · cases a with
        | timeout => exact absurd rfl hne
        | _ => trivial
      · intro w' hw' mode hack
        cases hw.symm.trans hw'
        exact (hhonored ⟨w.clientId, .readOnly, m.ackOf w.sid⟩ (ho ▸ List.mem_cons_self) mode hack).symm
    · cases a with
      | timeout =>
          intro w hw
          simp [Pair.step, Pair.timeout, hw, h.1.1] at hnone
      | _ => trivial
  · intro m hrun
    have hinv : m.Blocked ∧ ∀ o ∈ m.outcomes, o.returned = .readOnly := by
      refine Transition.exec_invariant' (I := fun m => m.Blocked ∧ ∀ o ∈ m.outcomes, o.returned = .readOnly)
        (fun m a m' h hstep => ?_) ⟨hidle.blocked, fun o ho => by rw [hidle.2.2.2] at ho; cases ho⟩ hrun
      obtain ⟨hblocked, ⟨ho, -⟩ | ⟨-, w, -, ho⟩⟩ := Pair.blocked_step h.1 hstep
      · exact ⟨hblocked, ho ▸ h.2⟩
      · refine ⟨hblocked, fun o hmem => ?_⟩
        rw [ho] at hmem
        rcases List.mem_cons.mp hmem with rfl | hmem
        · rfl
        · exact h.2 o hmem
    exact hinv.2

/-- One client drives the port, and the origin still has its stream from before the outage. -/
def afterOutage : Pair where
  peerKey := ['p']
  connectedClients := [⟨['c'], .readWrite⟩]
  staleSessions := (∅ : Dict Text ℕ).set ['c'] 1
  nextStreamId := 1
  originSessions := [1]
  originPort := { adapterType := [], connectedClients := [⟨Streams.fedClientId ['p'] 1, "federation:p", .readWrite, 0⟩] }

/-- The origin handles the CLOSE, the OPEN and the request before the request gives up. -/
def answeredInTime : List PairAct :=
  [.originSends .portsFederated, .readLoop, .originReads 1, .originReads 1, .originReads 1, .timeout, .readLoop]

theorem Pair.regrant_honored_afterOutage :
    ((∀ bs m, bs <+: answeredInTime → Transition.exec Pair.step afterOutage bs = some m → m.Honored) ↔
      Transition.Along Pair.step Pair.Refused afterOutage answeredInTime) ∧
    ∀ m, Transition.exec Pair.step afterOutage answeredInTime = some m → ∀ o ∈ m.outcomes, o.returned = .readOnly :=
  Pair.regrant_honored_iff ⟨rfl, rfl, rfl, rfl⟩ answeredInTime

/-- The slot is free once the old stream is closed and the origin grants the request, but the client is demoted; its mirror
keeps the slot. -/
theorem Pair.regrant_honored_fails : ∃ m, Transition.exec Pair.step afterOutage answeredInTime = some m ∧
    m.inbox = [] ∧ m.outbox = [] ∧ m.handler = none ∧ ¬ m.Honored ∧
    m.modeOf ['c'] = .readOnly ∧ m.originPort.isReadWrite (m.mirror 2) = true := by
  have hend : (Transition.exec Pair.step afterOutage answeredInTime).map (fun m => (m.inbox, m.outbox, m.handler, m.outcomes)) =
      some ([], [], none, [⟨['c'], .readOnly, some .readWrite⟩]) := by
    decide
  have hmodes : (Transition.exec Pair.step afterOutage answeredInTime).map
      (fun m => (m.modeOf ['c'], m.originPort.isReadWrite (m.mirror 2))) = some (.readOnly, true) := by
    decide
  obtain ⟨m, hm, hstate⟩ := Option.map_eq_some_iff.mp hend
  rw [hm, Option.map_some, Option.some.injEq, Prod.mk.injEq] at hmodes
  simp only [Prod.mk.injEq] at hstate
  obtain ⟨hinbox, houtbox, hhandler, houtcomes⟩ := hstate
  refine ⟨m, hm, hinbox, houtbox, hhandler, fun h => ?_, hmodes⟩
  have hno := h ⟨['c'], .readOnly, some .readWrite⟩ (houtcomes ▸ List.mem_cons_self) .readWrite rfl
  cases hno

end OpenMux.Remote
