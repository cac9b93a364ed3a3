import OpenMux.Pdu.Lemmas.Polling

/-!
# What an operation still owes to the PDUs
-/

namespace OpenMux.Pdu.Node

open Py Federation

variable {n m : Node} {t u id : Nat} {k : PollTask} {old : Option Bool} {todo : List Todo}

/-! ## Operations and the places of PDUs -/

theorem Built.current {c : PduConf} (hb : Built n m c) (hp : n.Placed) (h : m.adapter.Current id) :
    id = n.adapter.fresh ∨
      n.adapter.Current id ∧ (n.adapter.heap id).name ≠ c.name ∧ m.adapter.heap id = n.adapter.heap id := by
  by_cases hid : id = n.adapter.fresh
  · exact .inl hid
  · have hname : (m.adapter.heap id).name = (n.adapter.heap id).name := by
      rw [hb.heap id hid]
      split <;> rfl
    rw [Adapter.Current, hname, hb.pdus] at h
    have hne : (n.adapter.heap id).name ≠ c.name := by
      intro he
      rw [he, Dict.get?_set_self] at h
      exact hid (Option.some.inj h).symm
    rw [Dict.get?_set_ne _ _ hne] at h
    refine .inr ⟨h, hne, ?_⟩
    rw [hb.heap id hid]
    apply if_neg
    intro hget
    exact hne (hp.named _ _ hget).1

theorem Sound.of (h : m.Placed) (hop : m.operation = none) : m.Sound where
  toPlaced := h
  head o ho := by rw [hop] at ho; cases ho

theorem TodoOf.tail {s : Adapter} {x : Todo} (h : TodoOf s (x :: todo)) : TodoOf s todo :=
  h.imp (fun h y hy => h y (List.mem_cons_of_mem x hy)) fun h y hy => h y (List.mem_cons_of_mem x hy)

theorem TodoOf.head {s : Adapter} (h : TodoOf s (.bring id :: todo)) : s.Current id := by
  rcases h with h | h
  · obtain ⟨i, hi, hcur⟩ := h _ List.mem_cons_self
    cases hi
    exact hcur
  · obtain ⟨c, hc⟩ := h _ List.mem_cons_self
    cases hc

theorem TodoOf.builds {s : Adapter} {c : PduConf} (h : TodoOf s (.build c :: todo)) : ∀ x ∈ todo, ∃ c, x = .build c := by
  rcases h with h | h
  · obtain ⟨i, hi, -⟩ := h _ List.mem_cons_self
    cases hi
  · exact fun x hx => h x (List.mem_cons_of_mem _ hx)

theorem placed_starts (cond : Node → Nat → Prop) [∀ n id, Decidable (cond n id)] (ids : List Nat) :
    ∀ n : Node, n.Placed → (∀ id ∈ ids, n.adapter.Current id) →
      (ids.foldl (fun n id => if cond n id then n.startPollTask id else n) n).Placed := by
  induction ids with
  | nil => exact fun _ h _ => h
  | cons id ids ih =>
      intro n h hcur
      have hid := hcur id List.mem_cons_self
      have hrest := fun i hi => hcur i (List.mem_cons_of_mem id hi)
      rw [List.foldl_cons]
      split
      · refine ih _ (h.start hid) fun i hi => ?_
        obtain ⟨he, -⟩ | ⟨-, -, he⟩ := start_cases n id
        · rw [he]
          exact hrest i hi
        · rw [he]
          exact Adapter.current_setObj rfl (hrest i hi)
      · exact ih _ h hrest

theorem Placed.flip (h : n.Placed) (b : Bool) : (n.reconcilePollFlip b).Placed := by
  unfold reconcilePollFlip
  split
  · exact placed_starts _ _ n h fun id hid => h.current_of_mem hid
  · split
    · exact (stopped_foldl n.adapter.objects n).placed h
    · exact h

theorem Placed.congr (h : n.Placed) (hpdus : m.adapter.pdus = n.adapter.pdus) (hfresh : m.adapter.fresh = n.adapter.fresh)
    (hheap : m.adapter.heap = n.adapter.heap) (htasks : m.tasks = n.tasks) (hnext : m.nextTask = n.nextTask) : m.Placed := by
  refine h.of hpdus hfresh (fun i => by rw [hheap]) (fun t k hk => ⟨k, ?_, rfl, by rw [hheap]⟩) fun t k hk => ?_
  · rwa [Live, ← htasks]
  · rw [htasks] at hk
    rw [hnext]
    exact h.bound t k hk

theorem sound_finish (h : n.Placed) : (n.finish old).Sound := by
  cases old with
  | none => exact .of (h.congr rfl rfl rfl rfl rfl) rfl
  | some b => exact .of ((h.flip b).congr rfl rfl rfl rfl rfl) rfl

theorem sound_advance (old : Option Bool) (todo : List Todo) :
    ∀ n : Node, n.Placed → TodoOf n.adapter todo → (advance old todo n).Sound := by
  induction todo with
  | nil => exact fun n h _ => sound_finish h
  | cons x rest ih =>
      intro n h htodo
      cases x with
      | bring id =>
          refine ⟨h.congr rfl rfl rfl rfl rfl, fun o ho => ?_⟩
          cases ho
          exact ⟨htodo.head, htodo.tail⟩
      | build c =>
          have hplaced := h.build c
          unfold advance
          dsimp only
          cases hget : (n.buildPdu c).adapter.pdus.get? c.name with
          | none => exact ih _ hplaced (.inr htodo.builds)
          | some id =>
              dsimp only
              split
              · refine ⟨hplaced.congr rfl rfl rfl rfl rfl, fun o ho => ?_⟩
                cases ho
                exact ⟨hplaced.current_of_get hget, .inr htodo.builds⟩
              · exact ih _ hplaced (.inr htodo.builds)

theorem placed_builds (pdus : List PduConf) : ∀ n : Node, n.Placed → (pdus.foldl buildPdu n).Placed := by
  induction pdus with
  | nil => exact fun _ h => h
  | cons c pdus ih => exact fun n h => ih _ (h.build c)

theorem sound_start (h : n.Placed) (pdus : List PduConf) : (n.start pdus).Sound := by
  have hplaced := placed_builds pdus n h
  unfold start
  dsimp only
  split
  · refine sound_advance _ _ _ hplaced (.inl fun x hx => ?_)
    obtain ⟨id, hid, rfl⟩ := List.mem_map.mp hx
    exact ⟨id, rfl, hplaced.current_of_mem hid⟩
  · exact sound_finish hplaced

theorem placed_removes (names : List Text) : ∀ n : Node, n.Placed → (names.foldl reconcileRemove n).Placed := by
  induction names with
  | nil => exact fun _ h => h
  | cons name names ih => exact fun n h => ih _ (h.remove name)

theorem mem_builds {names : List Text} {conf : Dict Text PduConf} {x : Todo}
    (hx : x ∈ names.filterMap fun k => (conf.get? k).map Todo.build) : ∃ c, x = .build c := by
  obtain ⟨name, -, hc⟩ := List.mem_filterMap.mp hx
  obtain ⟨c, -, rfl⟩ := Option.map_eq_some_iff.mp hc
  exact ⟨c, rfl⟩

theorem sound_reconcile (h : n.Placed) (enabled : Bool) (pdus : List PduConf) : (n.reconcilePorts enabled pdus).Sound := by
  refine sound_advance _ _ _ (placed_removes _ _ (h.congr rfl rfl rfl rfl rfl)) (.inr fun x hx => ?_)
  exact mem_builds hx

theorem sound_stop (h : n.Placed) (hop : n.operation = none) : n.stop.Sound := by
  have hstop := stopped_foldl n.adapter.objects { n with adapter := { n.adapter with isRunning := false } }
  refine .of ⟨fun name id hget => ?_, fun t k hk => ?_, fun t k hk => ?_⟩ (hstop.operation.trans hop)
  · cases hget
  · have hlive : ({ n with adapter := { n.adapter with isRunning := false } } : Node).Live t k := (hstop.live t k hk).1
    exact absurd hk (hstop.none_live (h.congr rfl rfl rfl rfl rfl))
  · exact (hstop.placed (h.congr rfl rfl rfl rfl rfl)).bound t k hk

theorem Sound.of_same (h : n.Sound) (hp : m.Placed) (hs : n.adapter.SameButReadings m.adapter)
    (hop : ∀ o, m.operation = some o → ∃ o', n.operation = some o' ∧ o'.id = o.id ∧ o'.rest = o.rest) : m.Sound where
  toPlaced := hp
  head o ho := by
    have hcur : ∀ id, n.adapter.Current id → m.adapter.Current id := fun id => (Adapter.current_congr hs.pdus hs.name).mpr
    obtain ⟨o', ho', hid, hrest⟩ := hop o ho
    obtain ⟨h₁, h₂⟩ := h.head o' ho'
    rw [hid] at h₁
    rw [hrest] at h₂
    exact ⟨hcur _ h₁, h₂.congr hcur⟩

theorem operation_setTask {k' : Option PollTask} : (n.setTask t k').operation = n.operation := rfl

theorem Sound.setTask (h : n.Sound) {k' : Option PollTask}
    (hk : ∀ k, k' = some k → ∃ k₀, n.tasks t = some k₀ ∧ k₀.pdu = k.pdu ∧ (k.cancelled = false → k₀.cancelled = false)) :
    (n.setTask t k').Sound :=
  h.of_same (h.toPlaced.setTask hk) (.refl _) fun o ho => ⟨o, ho, rfl, rfl⟩

theorem Sound.adapter (h : n.Sound) {s : Adapter} (hs : n.adapter.SameButReadings s) : ({ n with adapter := s } : Node).Sound :=
  h.of_same (h.toPlaced.adapter hs) hs fun o ho => ⟨o, ho, rfl, rfl⟩

/-- The loops of the PDU that was switched note it, and nothing else of them changes. -/
theorem live_note {outletId : Text} (h : (n.noteSwitched id outletId).tasks t = some k) :
    ∃ k', n.tasks t = some k' ∧ k'.pdu = k.pdu ∧ k'.cancelled = k.cancelled ∧ (k'.phase = .fresh ↔ k.phase = .fresh) := by
  obtain ⟨k', hk', rfl⟩ := Option.map_eq_some_iff.mp h
  refine ⟨k', hk', ?_⟩
  split
  · split
    · simp_all
    · simp
  · simp

theorem operation_note {outletId : Text} {o : Operation} (h : (n.noteSwitched id outletId).operation = some o) :
    ∃ o', n.operation = some o' ∧ o'.id = o.id ∧ o'.rest = o.rest ∧ o'.oldEnabled = o.oldEnabled := by
  obtain ⟨o', ho', rfl⟩ := Option.map_eq_some_iff.mp h
  refine ⟨o', ho', ?_⟩
  split
  · split <;> exact ⟨rfl, rfl, rfl⟩
  · exact ⟨rfl, rfl, rfl⟩

theorem Sound.note (h : n.Sound) (id : Nat) (outletId : Text) : (n.noteSwitched id outletId).Sound := by
  refine h.of_same (h.toPlaced.of rfl rfl (fun _ => rfl) (fun t k hk => ?_) fun t k hk => ?_) (.refl _) fun o ho => ?_
  · obtain ⟨k', hk', hpdu, hc, -⟩ := live_note hk.1
    exact ⟨k', ⟨hk', hc.trans hk.2⟩, hpdu, rfl⟩
  · obtain ⟨k', hk', -⟩ := live_note hk
    exact h.bound t k' hk'
  · obtain ⟨o', ho', hid, hrest, -⟩ := operation_note ho
    exact ⟨o', ho', hid, hrest⟩

theorem Sound.loopOn (h : n.Sound) {k₀ : PollTask} (hk₀ : n.tasks t = some k₀) (hid : k₀.pdu = id) (hc : k₀.cancelled = false) :
    (n.loopOn t id).Sound := by
  refine h.setTask fun k hk => ⟨k₀, hk₀, ?_, fun _ => hc⟩
  split at hk
  · cases hk
    exact hid
  · cases hk

/-! ## Steps -/

/-- What a step can do. -/
inductive Step (n : Node) : Act → Node → Prop
  | start (pdus : List PduConf) (hop : n.operation = none) : Step n (.start pdus) (n.start pdus)
  | stop (hop : n.operation = none) : Step n .stop n.stop
  | reconcile (enabled : Bool) (pdus : List PduConf) (hop : n.operation = none) :
      Step n (.reconcile enabled pdus) (n.reconcilePorts enabled pdus)
  | lost {old : Option Bool} {id : Nat} {rest : List Todo} (hop : n.operation = some ⟨old, id, .listing, rest⟩) :
      Step n (.listed none) (advance old rest
        { n with adapter := n.adapter.setObj id { n.adapter.heap id with online := some false } })
  | found {old : Option Bool} {id : Nat} {rest : List Todo} (ids : List Text) (hop : n.operation = some ⟨old, id, .listing, rest⟩) :
      Step n (.listed (some ids)) { n with
        adapter := n.adapter.discover id ids
        operation := some ⟨old, id, .reading [], rest⟩ }
  | brought {old : Option Bool} {id : Nat} {switched : List Text} {rest : List Todo} (result : ReadResult) (hop : n.operation = some ⟨old, id, .reading switched, rest⟩) :
      Step n (.brought result) (advance old rest
        (({ n with adapter := n.adapter.refreshReadings id result } : Node).startPollTask id))
  | begin {t id : Nat} (ht : n.tasks t = some ⟨id, .fresh, false⟩) : Step n (.begin t) (n.loopOn t id)
  | wake {t id : Nat} (ht : n.tasks t = some ⟨id, .sleeping, false⟩) :
      Step n (.wake t) (n.setTask t (if n.adapter.Current id then some ⟨id, .reading [], false⟩ else none))
  | polled {t id : Nat} {switched : List Text} (result : ReadResult) (ht : n.tasks t = some ⟨id, .reading switched, false⟩) :
      Step n (.polled t result) (({ n with adapter := n.adapter.refreshReadings id result } : Node).loopOn t id)
  | unwind {t id : Nat} {phase : Phase} (ht : n.tasks t = some ⟨id, phase, true⟩) : Step n (.unwind t) (n.setTask t none)
  | setOutlet {ref : Text} {on : Bool} {user clientId : Option Text} {w : Switch} (hw : n.setOutlet ref on user clientId = some w) :
      Step n (.setOutlet ref on user clientId) { n with switches := n.switches ++ [w] }
  | refused {i : Nat} {w : Switch} (hw : n.switches[i]? = some w) : Step n (.switched i none) { n with switches := n.switches.eraseIdx i }
  | switched {i : Nat} {w : Switch} (r : OutletReading) (hw : n.switches[i]? = some w) :
      Step n (.switched i (some r)) (({ n with switches := n.switches.eraseIdx i } : Node).finishSwitch w r)
  | register (ports : Dict Text ConsolePort) : Step n (.register ports) { n with adapter := { n.adapter with ports := ports } }

theorem step_cases {a : Act} (h : n.step a = some m) : Step n a m := by
  cases a with
  | start | stop | reconcile =>
      simp only [step, Option.ite_none_right_eq_some, Option.some.injEq, Option.isNone_iff_eq_none] at h
      obtain ⟨hop, rfl⟩ := h
      first
        | exact .start _ hop
        | exact .stop hop
        | exact .reconcile _ _ hop
  | listed result =>
      simp only [step] at h
      split at h
      · cases h
        cases result with
        | none => exact .lost ‹_›
        | some ids => exact .found ids ‹_›
      · cases h
  | brought result =>
      simp only [step] at h
      split at h
      · cases h
        exact .brought result ‹_›
      · cases h
  | begin t =>
      simp only [step] at h
      split at h
      · cases h
        exact .begin ‹_›
      · cases h
  | wake t =>
      simp only [step] at h
      split at h
      · cases h
        exact .wake ‹_›
      · cases h
  | polled t result =>
      simp only [step] at h
      split at h
      · cases h
        exact .polled result ‹_›
      · cases h
  | unwind t =>
      simp only [step] at h
      split at h
      · cases h
        exact .unwind ‹_›
      · cases h
  | setOutlet ref on user clientId =>
      obtain ⟨w, hw, rfl⟩ := Option.map_eq_some_iff.mp h
      exact .setOutlet hw
  | switched i reading =>
      simp only [step] at h
      split at h
      · cases h
      · cases h
        cases reading with
        | none => exact .refused ‹_›
        | some r => exact .switched r ‹_›
  | register ports =>
      cases h
      exact .register ports

/-- Names stand for the PDUs that were built under them, and no loop is lost from sight, in every run. -/
theorem sound_step {a : Act} (h : n.Sound) (hstep : n.step a = some m) : m.Sound := by
  cases step_cases hstep with
  | start pdus => exact sound_start h.toPlaced pdus
  | stop hop => exact sound_stop h.toPlaced hop
  | reconcile enabled pdus => exact sound_reconcile h.toPlaced enabled pdus
  | @lost old id rest hop =>
      have hs : n.adapter.SameButReadings (n.adapter.setObj id { n.adapter.heap id with online := some false }) := .setObj rfl rfl rfl
      exact sound_advance _ _ _ (h.toPlaced.adapter hs)
        ((h.head _ hop).2.congr fun i => (Adapter.current_congr hs.pdus hs.name).mpr)
  | @found old id rest ids hop =>
      have hs := Adapter.sameButReadings_discover n.adapter id ids
      refine h.of_same ((h.toPlaced.adapter hs).congr rfl rfl rfl rfl rfl) hs fun o ho => ?_
      cases ho
      exact ⟨_, hop, rfl, rfl⟩
  | @brought old id switched rest result hop =>
      obtain ⟨hcur, hrest⟩ := h.head _ hop
      have hs := Adapter.sameButReadings_refresh n.adapter id result
      have hcur' : ∀ i, n.adapter.Current i → (n.adapter.refreshReadings id result).Current i := fun i =>
        (Adapter.current_congr hs.pdus hs.name).mpr
      refine sound_advance _ _ _ ((h.toPlaced.adapter hs).start (hcur' id hcur)) (hrest.congr fun i hi => ?_)
      obtain ⟨he, -⟩ | ⟨-, -, he⟩ := start_cases ({ n with adapter := n.adapter.refreshReadings id result } : Node) id
      · rw [he]
        exact hcur' i hi
      · rw [he]
        exact Adapter.current_setObj rfl (hcur' i hi)
  | begin ht => exact h.loopOn ht rfl rfl
  | wake ht =>
      refine h.setTask fun k hk => ⟨_, ht, ?_, fun _ => rfl⟩
      split at hk
      · cases hk
        rfl
      · cases hk
  | polled result ht => exact (h.adapter (Adapter.sameButReadings_refresh _ _ _)).loopOn ht rfl rfl
  | unwind ht => exact h.setTask fun k hk => by cases hk
  | setOutlet hw => exact h.of_same (h.toPlaced.congr rfl rfl rfl rfl rfl) (.refl _) fun o ho => ⟨o, ho, rfl, rfl⟩
  | refused hw => exact h.of_same (h.toPlaced.congr rfl rfl rfl rfl rfl) (.refl _) fun o ho => ⟨o, ho, rfl, rfl⟩
  | @switched i w r hw =>
      have hdone : ({ n with switches := n.switches.eraseIdx i } : Node).Sound :=
        h.of_same (h.toPlaced.congr rfl rfl rfl rfl rfl) (.refl _) fun o ho => ⟨o, ho, rfl, rfl⟩
      exact (hdone.adapter (Adapter.sameButReadings_finish _ _ _ _ _ _ _ _ _ r)).note _ _
  | register ports =>
      have hs : n.adapter.SameButReadings { n.adapter with ports := ports } :=
        ⟨rfl, rfl, rfl, rfl, fun _ => rfl, fun _ => rfl, fun _ => rfl⟩
      exact h.adapter hs

end OpenMux.Pdu.Node
