import OpenMux.Access.Lemmas.Transfers

/-!
# Who writes to a local port
-/

namespace OpenMux.Access

open Py Federation Origin

/-! ## Seats -/

/-- Nobody is attached. -/
def Console.Idle (s : Console) : Prop := ∀ name p, s.ports.get? name = some p → p.connectedClients = []

theorem Console.Idle.seated {s : Console} (h : s.Idle) : s.Seated := by
  intro name p hp
  have hnone := h name p hp
  refine ⟨by simp [hnone], ?_⟩
  simp only [Port.writers, hnone]
  cases p.maxReadWriteUsers <;> simp [Port.Within]

theorem Consoles.safe_exec {s : Console} (hs : s.Idle) {as : List ConsoleAct} {n : Consoles}
    (hrun : Transition.exec Consoles.step { state := s } as = some n) :
    n.Safe Console.Seated (fun _ _ => Fair) (fun _ _ s s' _ => Fair s s') :=
  Coro.Pool.Safe.exec (C := fun _ => True) (fun _ _ _ _ _ h => h.1) (fun _ _ _ _ _ _ h => h.1)
    (fun _ _ _ h hc => seated_change h hc) (fun op s _ h => safe_body op s h) (fun _ _ => trivial)
    (Coro.Pool.safe_of_state hs.seated) hrun

/-- A node with one port and nobody on it; every user may write. -/
def Console.fresh : Console where
  policy := { access := ⟨fun _ => [], none⟩, getUserPermissions := fun _ => some "read-write" }
  ports := (∅ : Dict Text Port).set ['t'] { adapterType := ['x'] }

theorem Console.fresh_idle : Console.fresh.Idle := by
  intro name p hp
  rw [Console.fresh, Dict.get?_set] at hp
  split at hp
  · cases hp; rfl
  · cases hp

/-- In every interleaving a port has no client twice and no more writers than its capacity, and bytes are forwarded only for
a client that is a writer then. -/
theorem Consoles.write_slots (int : Text → Option Int) {s : Console} (hs : s.Idle) {as : List ConsoleAct} {n : Consoles}
    (hrun : Transition.exec Consoles.step { state := s } as = some n) :
    (∀ name p, n.state.ports.get? name = some p →
      (writeCapacity int p.maxReadWriteUsers.value).Bounds (p.connectedClients.filter (·.mode = .readWrite)).length ∧
        (p.connectedClients.map (·.clientId)).Nodup) ∧
      ∀ a n', n.step a = some n' → Forwards n.state n'.state := by
  have hsafe := Consoles.safe_exec hs hrun
  refine ⟨fun name p hp => ⟨Port.within_iff.mp (hsafe.1 name p hp).within, (hsafe.1 name p hp).nodup⟩, fun a n' ha => ?_⟩
  obtain ⟨-, hmoved⟩ := hsafe.step (fun _ _ _ _ _ h => h.1) (fun _ _ _ _ _ _ h => h.1)
    (fun _ _ _ h hc => seated_change h hc) (fun op s _ h => safe_body op s h) ha
  unfold Coro.Pool.Moved at hmoved
  split at hmoved
  · rcases hmoved with h | ⟨r, -, h⟩ <;> exact h.2
  · rcases hmoved with h | ⟨e, he⟩
    · exact .inl (by rw [h])
    · exact .inl (change_eq he).2

theorem Consoles.write_slots_attached : ∃ n,
    Transition.exec Consoles.step { state := Console.fresh } [.start (.connect ['a'] ['t'] "ann"), .resume 0] = some n ∧
      (∀ name p, n.state.ports.get? name = some p →
        (writeCapacity (fun _ => none) p.maxReadWriteUsers.value).Bounds
            (p.connectedClients.filter (·.mode = .readWrite)).length ∧
          (p.connectedClients.map (·.clientId)).Nodup) ∧
        ∀ a n', n.step a = some n' → Forwards n.state n'.state :=
  ⟨_, rfl, Consoles.write_slots (fun _ => none) Console.fresh_idle (rfl : Transition.exec Consoles.step
    { state := Console.fresh } [.start (.connect ['a'] ['t'] "ann"), .resume 0] = some _)⟩

/-! ## Entitlement -/

/-- A client of this node becomes a writer only in a segment of its own request, in which its account may drive the port, or
as the victim of a takeover that fails, if it was a writer when the takeover began. -/
theorem Consoles.writers_entitled {s : Console} (hs : s.Idle) {as : List ConsoleAct} {n n' : Consoles} {a : ConsoleAct}
    (hops : ∀ op, .start op ∈ as ++ [a] → op.Checked) (hrun : Transition.exec Consoles.step { state := s } as = some n)
    (hstep : n.step a = some n') {name clientId : Text} (hfed : ¬ Streams.fedPrefix <+: clientId)
    (hbefore : ¬ n.state.IsWriter name clientId) (hafter : n'.state.IsWriter name clientId) :
    ∃ t, n.segment Op.body a = some t ∧
      ((t.op.client = some clientId ∧ ∃ p c, n'.state.ports.get? name = some p ∧ c ∈ p.connectedClients ∧
          c.clientId = clientId ∧ c.mode = .readWrite ∧ n.state.MayDrive name clientId c.username ∧
          (n.state.Agrees clientId c.username → n.state.ByAccount name c.username)) ∨
        (t.op.Takes ∧ t.began.IsWriter name clientId ∧
          ∃ r, t.rest.resume n.state = (n'.state, .finished r) ∧ r.Failed)) := by
  have hexec : Transition.exec (Coro.Pool.step Op.body Console.change) { state := s } as = some n := hrun
  have hsafe : n.Safe Console.Seated (fun op _ => op.Held) fun op began => op.Ended began :=
    Coro.Pool.Safe.exec (C := Op.Checked) (fun _ _ _ _ _ h => h.1) (fun _ _ _ _ _ _ h => h.1)
      (fun _ _ _ h hc => seated_change h hc) (fun op s hop h => safe_checked op hop h)
      (fun op hop => hops op (List.mem_append_left _ hop)) (Coro.Pool.safe_of_state hs.seated) hexec
  obtain ⟨-, hmoved⟩ := hsafe.step (fun _ _ _ _ _ h => h.1) (fun _ _ _ _ _ _ h => h.1)
    (fun _ _ _ h hc => seated_change h hc)
    (fun op s ha h => safe_checked op (hops op (ha ▸ List.mem_append_right _ List.mem_cons_self)) h) hstep
  have hgranted {op : Op} (h : op.Granted n.state n'.state name clientId) :
      op.client = some clientId ∧ n.state.Entitled n'.state name clientId := by
    rcases h with h | ⟨slot, _, _, _, hid⟩
    · exact h
    · exact absurd (hid ▸ fedPrefix_fedClientId slot.1 slot.2) hfed
  have hask {t : Coro.Task Console Op Reply} (h : t.op.client = some clientId ∧ n.state.Entitled n'.state name clientId) :
      t.op.client = some clientId ∧ ∃ p c, n'.state.ports.get? name = some p ∧ c ∈ p.connectedClients ∧
        c.clientId = clientId ∧ c.mode = .readWrite ∧ n.state.MayDrive name clientId c.username ∧
        (n.state.Agrees clientId c.username → n.state.ByAccount name c.username) := by
    obtain ⟨hc, p, c, hp, hmem, hid, hm, hmay⟩ := h
    exact ⟨hc, p, c, hp, hmem, hid, hm, hmay, hmay.byAccount⟩
  unfold Coro.Pool.Moved at hmoved
  split at hmoved
  · rename_i t ht
    refine ⟨t, ht, ?_⟩
    rcases hmoved with h | ⟨r, hr, h⟩
    · rcases h.2 name clientId hafter with hw | hg
      · exact absurd hw hbefore
      · exact .inl (hask (hgranted hg))
    · rcases h.2 name clientId hafter with hw | hg | ⟨htakes, hfailed, hbegan⟩
      · exact absurd hw hbefore
      · exact .inl (hask (hgranted hg))
      · exact .inr ⟨htakes, hbegan, r, hr, hfailed⟩
  · rcases hmoved with h | ⟨e, he⟩
    · exact absurd (h ▸ hafter) hbefore
    · exact absurd (Console.NoGrant.of_eq (change_eq he).1 _ _ hafter) hbefore

theorem Consoles.writers_entitled_attach : ∃ n' : Consoles,
    Consoles.step { state := Console.fresh } (.start (.connect ['a'] ['t'] "ann")) = some n' ∧
      ∃ t, Coro.Pool.segment Op.body { state := Console.fresh } (.start (.connect ['a'] ['t'] "ann") : ConsoleAct) = some t ∧
        ((t.op.client = some ['a'] ∧ ∃ p c, n'.state.ports.get? ['t'] = some p ∧ c ∈ p.connectedClients ∧
            c.clientId = ['a'] ∧ c.mode = .readWrite ∧ Console.fresh.MayDrive ['t'] ['a'] c.username ∧
            (Console.fresh.Agrees ['a'] c.username → Console.fresh.ByAccount ['t'] c.username)) ∨
          (t.op.Takes ∧ t.began.IsWriter ['t'] ['a'] ∧
            ∃ r, t.rest.resume Console.fresh = (n'.state, .finished r) ∧ r.Failed)) :=
  ⟨_, rfl, Consoles.writers_entitled Console.fresh_idle
    (fun op hop => by cases List.mem_singleton.mp hop; trivial)
    (rfl : Transition.exec Consoles.step { state := Console.fresh } [] = some _) rfl (by decide)
    (by rintro ⟨p, hp, hw⟩; cases hp; revert hw; decide) ⟨_, rfl, by decide⟩⟩

/-! ## Decisions -/

theorem Console.run_connect (s : Console) (clientId name : Text) (username : String) :
    ∃ d, ((Console.connectClientToPort clientId name username).run s).2 = some d := by
  cases hmap : s.clientPortMap.get? clientId with
  | none => exact ⟨((Console.attachPhase clientId name username).run s).2, by simp [Console.connectClientToPort, hmap]⟩
  | some old =>
      have hd := Console.run_disconnect hmap
      refine ⟨((Console.attachPhase clientId name username).run
        ((Console.disconnectClientFromPort clientId old).run s).1).2, ?_⟩
      simp [Console.connectClientToPort, hmap, hd]

/-- In every reachable state a call that runs alone reports the mode of the record exactly when it is an honest one. -/
theorem Consoles.reports_iff_honest {s : Console} (hs : s.Idle) {as : List ConsoleAct} {n : Consoles}
    (hrun : Transition.exec Consoles.step { state := s } as = some n) (op : Op) :
    op.Reports n.state ↔ op.Honest n.state := by
  have hseated : n.state.Seated := (Consoles.safe_exec hs hrun).1
  cases op with
  | connect clientId name username =>
      obtain ⟨d, hd⟩ := n.state.run_connect clientId name username
      refine Iff.trans ?_ (Console.reports_connect hseated hd)
      simp [Op.Reports, Op.seat, Op.body, hd]
  | promote clientId name =>
      refine Iff.trans ?_ (Console.reports_promote hseated)
      simp [Op.Reports, Op.seat, Op.body]
  | demote clientId name =>
      refine Iff.trans ?_ (Console.reports_demote hseated)
      simp [Op.Reports, Op.seat, Op.body]
  | take clientId name target =>
      refine Iff.trans ?_ (Console.reports_take hseated)
      simp [Op.Reports, Op.seat, Op.body]
  | addClientToPort | removeClientFromPort | promoteClient | demoteClient | writeToPort | disconnect | fedrw =>
      exact iff_of_true (fun _ _ _ h => by cases h) trivial

/-- The run after which `ann` holds the slot. -/
def annAttached : List ConsoleAct := [.start (.connect ['a'] ['t'] "ann"), .resume 0]

theorem Consoles.reports_iff_honest_attached : ∃ n,
    Transition.exec Consoles.step { state := Console.fresh } annAttached = some n ∧
      ((Op.demote ['a'] ['t']).Reports n.state ↔ (Op.demote ['a'] ['t']).Honest n.state) :=
  ⟨_, rfl, Consoles.reports_iff_honest Console.fresh_idle
    (rfl : Transition.exec Consoles.step { state := Console.fresh } annAttached = some _) _⟩

/-- A holder that names a target which holds no slot is told that it is read-only. -/
theorem Consoles.holder_reported_readOnly : ∃ n,
    Transition.exec Consoles.step { state := Console.fresh } annAttached = some n ∧
      ((Op.take ['a'] ['t'] (some ['z'])).body.run n.state).2 =
        .decision (n.state.decidedWith .noHolder .readOnly ['a'] ['t']) ∧
      ((Op.take ['a'] ['t'] (some ['z'])).body.run n.state).1.IsWriter ['t'] ['a'] ∧
      ¬ (Op.take ['a'] ['t'] (some ['z'])).Reports n.state := by
  refine ⟨_, rfl, by decide, ⟨_, rfl, by decide⟩, fun h => ?_⟩
  have hmode := h ['a'] ['t'] _ rfl rfl _ rfl ⟨['a'], "ann", .readWrite, 0⟩ (by decide) rfl
  revert hmode
  decide

/-! ## Takeovers -/

/-- The console manager and the arbiter for peers leave the same holders, up to the id of the taker, exactly on the takes that
are the same for both. -/
theorem Console.takes_agree_iff {s : Console} {name taker : Text} {p : Port} {slot : Slot} {spec : TakeSpec}
    {target : Option Text} (hp : s.ports.get? name = some p) (hdistinct : p.Distinct) (hattached : s.Attached name)
    (hhas : p.Has taker) (hd : s.Driver name taker) (hfree : p.Free (Streams.fedClientId slot.1 slot.2))
    (hspec : spec.Names slot target) :
    ((((Console.takeWriteSlotLocal taker name target p).run s).1.holderIds name).map
        (Port.renameId taker (Streams.fedClientId slot.1 slot.2))).Perm
      (((Console.handleFedrwRequest slot name (.take spec)).run (s.asMirror name taker slot)).1.holderIds name) ↔
      p.SameTake taker target := by
  have hopen : (s.asMirror name taker slot).localSessionMap.get? slot = some name := Dict.get?_set_self ..
  have hlocal := Console.get?_takeWriteSlotLocal target hp hd hattached
  have hfed := Console.get?_handleFedrwTake slot spec (Console.get?_asMirror taker slot hp)
    (Console.attached_asMirror hp hattached hfree)
  rw [Console.run_fedrwTake hopen]
  simp only [Console.holderIds, hlocal, hfed, Option.map_some, Option.getD_some]
  refine (Port.perm_holderIds_iff ?_ ?_ ?_).trans (Port.matches_take_iff hspec hdistinct hfree hhas)
  · unfold Port.Distinct
    rwa [Port.ids_takeLocal]
  · unfold Port.Distinct
    rw [Port.ids_handleFedrwTake]
    exact hdistinct.rename hfree
  · rw [Port.free_iff] at hfree ⊢
    rwa [Port.ids_takeLocal]

/-- A node with two clients on a port without a limit, of which one writes. -/
def Console.shared : Console where
  policy := { access := ⟨fun _ => [], none⟩, getUserPermissions := fun _ => some "read-write" }
  ports := (∅ : Dict Text Port).set ['t'] {
    adapterType := ['x']
    maxReadWriteUsers := .multiple
    connectedClients := [⟨['a'], "ann", .readWrite, 0⟩, ⟨['b'], "bob", .readOnly, 1⟩] }
  clientPortMap := ((∅ : Dict Text Text).set ['a'] ['t']).set ['b'] ['t']

theorem Console.shared_driver : Console.shared.Driver ['t'] ['b'] := by
  refine ⟨by decide, fun p hp => ?_⟩
  cases hp
  decide

theorem Console.shared_attached : Console.shared.Attached ['t'] := by
  intro p hp c hc
  cases hp
  revert c
  decide

theorem Console.takes_agree_iff_shared : ∃ p, Console.shared.ports.get? ['t'] = some p ∧
    (((((Console.takeWriteSlotLocal ['b'] ['t'] none p).run Console.shared).1.holderIds ['t']).map
        (Port.renameId ['b'] (Streams.fedClientId ['p'] 1))).Perm
      (((Console.handleFedrwRequest (['p'], 1) ['t'] (.take .latest)).run
        (Console.shared.asMirror ['t'] ['b'] (['p'], 1))).1.holderIds ['t']) ↔ p.SameTake ['b'] none) :=
  ⟨_, rfl, Console.takes_agree_iff rfl (by decide) Console.shared_attached ⟨_, List.mem_cons_of_mem _ List.mem_cons_self, rfl⟩
    Console.shared_driver (by decide) (show TakeSpec.Names (['p'], 1) .latest none from trivial)⟩

/-- Where everyone may write, the console manager refuses a take and the arbiter for peers demotes a writer. -/
theorem Console.takes_disagree : Console.shared.Driver ['t'] ['b'] ∧
    ((Console.takeWriteSlot ['b'] ['t'] none).run Console.shared).1.holderIds ['t'] = [['a']] ∧
    ((Console.handleFedrwRequest (['p'], 1) ['t'] (.take .latest)).run
      (Console.shared.asMirror ['t'] ['b'] (['p'], 1))).1.holderIds ['t'] = [Streams.fedClientId ['p'] 1] ∧
    ∀ p, Console.shared.ports.get? ['t'] = some p →
      ¬ ((((Console.takeWriteSlotLocal ['b'] ['t'] none p).run Console.shared).1.holderIds ['t']).map
          (Port.renameId ['b'] (Streams.fedClientId ['p'] 1))).Perm
        (((Console.handleFedrwRequest (['p'], 1) ['t'] (.take .latest)).run
          (Console.shared.asMirror ['t'] ['b'] (['p'], 1))).1.holderIds ['t']) := by
  refine ⟨Console.shared_driver, by decide, by decide, fun p hp => ?_⟩
  cases hp
  decide

/-- In every reachable state a take that runs alone either seats the taker in the place of the holder that it resolved to,
with all else as before and as many writers, but for an empty slot that is filled; or it is refused and nothing has
changed. -/
theorem Consoles.take_all_or_nothing {s : Console} (hs : s.Idle) {as : List ConsoleAct} {n : Consoles}
    (hrun : Transition.exec Consoles.step { state := s } as = some n) (taker name : Text) (target : Option Text) :
    let r := (Console.takeWriteSlot taker name target).run n.state
    (r.2.ok = true → ∃ p, n.state.ports.get? name = some p ∧
      n.state.Becomes r.1 name (p.reseat taker (p.victimOf taker target)) ∧
      (p.reseat taker (p.victimOf taker target)).isReadWrite taker ∧
      ((p.reseat taker (p.victimOf taker target)).writers.length = p.writers.length ∨
        p.writers.length = 0 ∧ (p.reseat taker (p.victimOf taker target)).writers.length = 1)) ∧
    (r.2.ok = false → n.state.Unchanged r.1) := by
  have hseated : n.state.Seated := (Consoles.safe_exec hs hrun).1
  intro r
  cases hp : n.state.ports.get? name with
  | none =>
      obtain ⟨hok, hsame⟩ := @Console.take_missing n.state name taker target hp
      exact ⟨fun h => absurd (hok.symm.trans h) (by simp), fun _ => hsame⟩
  | some p =>
      obtain ⟨hdone, hrefused⟩ := @Console.takes_take n.state name taker p target hseated hp
      refine ⟨fun h => ?_, hrefused⟩
      exact ⟨p, rfl, hdone h⟩

theorem Consoles.take_all_or_nothing_attached : ∃ n,
    Transition.exec Consoles.step { state := Console.fresh } annAttached = some n ∧
      let r := (Console.takeWriteSlot ['a'] ['t'] none).run n.state
      (r.2.ok = true → ∃ p, n.state.ports.get? ['t'] = some p ∧
        n.state.Becomes r.1 ['t'] (p.reseat ['a'] (p.victimOf ['a'] none)) ∧
        (p.reseat ['a'] (p.victimOf ['a'] none)).isReadWrite ['a'] ∧
        ((p.reseat ['a'] (p.victimOf ['a'] none)).writers.length = p.writers.length ∨
          p.writers.length = 0 ∧ (p.reseat ['a'] (p.victimOf ['a'] none)).writers.length = 1)) ∧
      (r.2.ok = false → n.state.Unchanged r.1) :=
  ⟨_, rfl, Consoles.take_all_or_nothing Console.fresh_idle
    (rfl : Transition.exec Consoles.step { state := Console.fresh } annAttached = some _) _ _ _⟩

end OpenMux.Access
