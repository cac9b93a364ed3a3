import OpenMux.Pdu.Polling

/-!
# What the operations of the adapter do to its poll loops
-/

namespace OpenMux.Pdu

open Py Federation

namespace Adapter

variable {s : Adapter} {id i : Nat} {p : PduState}

theorem mem_objects : id ∈ s.objects ↔ ∃ name, s.pdus.get? name = some id := by
  unfold objects
  constructor
  · intro h
    obtain ⟨e, he, rfl⟩ := List.mem_map.mp h
    exact ⟨e.1, Dict.mem_entries.mp he⟩
  · rintro ⟨name, h⟩
    exact List.mem_map.mpr ⟨(name, id), Dict.mem_entries.mpr h, rfl⟩

@[simp] theorem heap_setObj : (s.setObj id p).heap i = if i = id then p else s.heap i := rfl

@[simp] theorem pdus_setObj : (s.setObj id p).pdus = s.pdus := rfl

@[simp] theorem fresh_setObj : (s.setObj id p).fresh = s.fresh := rfl

theorem setObj_self : s.setObj id (s.heap id) = s := by
  unfold setObj
  congr 1
  funext i
  split
  · rename_i h; rw [h]
  · rfl

theorem current_congr {s' : Adapter} (hpdus : s'.pdus = s.pdus) (hname : ∀ i, (s'.heap i).name = (s.heap i).name) :
    s'.Current id ↔ s.Current id := by
  rw [Current, Current, hpdus, hname]

theorem name_setObj (s : Adapter) (id : Nat) (p : PduState) (hp : p.name = (s.heap id).name) (i : Nat) : ((s.setObj id p).heap i).name = (s.heap i).name := by
  by_cases hi : i = id <;> simp [hi, hp]

theorem current_setObj (hp : p.name = (s.heap id).name) (h : s.Current i) : (s.setObj id p).Current i := by
  rw [Current, name_setObj s id p hp]
  exact h

/-- A read changes readings, and who is online, and nothing else of the PDUs. -/
structure SameButReadings (s s' : Adapter) : Prop where
  pdus : s'.pdus = s.pdus
  enabled : s'.enabled = s.enabled
  isRunning : s'.isRunning = s.isRunning
  fresh : s'.fresh = s.fresh
  name : ∀ i, (s'.heap i).name = (s.heap i).name
  material : ∀ i, (s'.heap i).material = (s.heap i).material
  task : ∀ i, (s'.heap i).task = (s.heap i).task

theorem SameButReadings.refl (s : Adapter) : s.SameButReadings s :=
  ⟨rfl, rfl, rfl, rfl, fun _ => rfl, fun _ => rfl, fun _ => rfl⟩

theorem SameButReadings.trans {s' s'' : Adapter} (h : s.SameButReadings s') (h' : s'.SameButReadings s'') : s.SameButReadings s'' :=
  ⟨h'.pdus.trans h.pdus, h'.enabled.trans h.enabled, h'.isRunning.trans h.isRunning, h'.fresh.trans h.fresh,
    fun i => (h'.name i).trans (h.name i), fun i => (h'.material i).trans (h.material i), fun i => (h'.task i).trans (h.task i)⟩

theorem SameButReadings.setObj (hn : p.name = (s.heap id).name) (hm : p.material = (s.heap id).material)
    (ht : p.task = (s.heap id).task) : s.SameButReadings (s.setObj id p) := by
  refine ⟨rfl, rfl, rfl, rfl, fun i => ?_, fun i => ?_, fun i => ?_⟩ <;> by_cases hi : i = id <;> simp [hi, hn, hm, ht]

theorem SameButReadings.emit {pduName outletId : Text} {on : Option Bool} :
    s.SameButReadings (s.emitOutletChange pduName outletId on) :=
  ⟨rfl, rfl, rfl, rfl, fun _ => rfl, fun _ => rfl, fun _ => rfl⟩

theorem SameButReadings.foldl {α : Type} {f : Adapter → α → Adapter} (hf : ∀ s a, SameButReadings s (f s a)) (as : List α) :
    ∀ s : Adapter, s.SameButReadings (as.foldl f s) := by
  induction as with
  | nil => exact refl
  | cons a as ih => exact fun s => (hf s a).trans (ih (f s a))

theorem sameButReadings_mark (s : Adapter) (id : Nat) (error outletId : Text) :
    s.SameButReadings (s.markOutletOffline id error outletId) := by
  unfold markOutletOffline
  split
  · exact .refl s
  · split
    · exact .setObj rfl rfl rfl
    · have hemit : s.SameButReadings (s.emitOutletChange (s.heap id).name outletId none) := .emit
      exact hemit.trans (.setObj rfl rfl rfl)

theorem sameButReadings_refresh (s : Adapter) (id : Nat) (result : ReadResult) : s.SameButReadings (s.refreshReadings id result) := by
  cases result with
  | backoff => exact .refl s
  | readings readings =>
      have hmerge : s.SameButReadings (s.mergeReadings id readings) := .setObj rfl rfl rfl
      exact hmerge.trans (.foldl (fun _ _ => .emit) _ _)
  | raised error =>
      have honline : s.SameButReadings (s.setObj id { s.heap id with online := some false }) := .setObj rfl rfl rfl
      exact honline.trans (.foldl (fun t outletId => sameButReadings_mark t id error outletId) _ _)

theorem sameButReadings_discover (s : Adapter) (id : Nat) (ids : List Text) : s.SameButReadings (s.discover id ids) :=
  .setObj rfl rfl rfl

theorem sameButReadings_finish (s : Adapter) (id : Nat) (pduName outletId ref : Text) (on : Bool) (user clientId : Option Text)
    (impact : Impact) (reading : OutletReading) :
    s.SameButReadings (s.finishSetOutlet id pduName outletId ref on user clientId impact reading) := by
  have haudit : ∀ u : Adapter, u.SameButReadings (u.auditControl ref on user clientId impact) := fun u =>
    ⟨rfl, rfl, rfl, rfl, fun _ => rfl, fun _ => rfl, fun _ => rfl⟩
  have hstore : ∀ (r : OutletReading), s.SameButReadings (s.store id outletId r) := fun r => .setObj rfl rfl rfl
  unfold finishSetOutlet
  dsimp only
  refine SameButReadings.trans ?_ (haudit _)
  split
  · refine SameButReadings.trans ?_ .emit
    split
    · exact (hstore _).trans (.setObj rfl rfl rfl)
    · exact hstore _
  · split
    · exact (hstore _).trans (.setObj rfl rfl rfl)
    · exact hstore _

end Adapter

namespace Node

variable {n m : Node} {t u id : Nat} {k : PollTask}

/-- A startup has PDUs to bring up, and a reconcile has entries to build. -/
def TodoOf (s : Adapter) (todo : List Todo) : Prop :=
  (∀ x ∈ todo, ∃ id, x = .bring id ∧ s.Current id) ∨ ∀ x ∈ todo, ∃ c, x = .build c

/-- Names stand for PDUs that were built under them, and a live loop is the one that its PDU knows. -/
structure Placed (n : Node) : Prop where
  named : ∀ name id, n.adapter.pdus.get? name = some id →
    (n.adapter.heap id).name = name ∧ validRefToken name = true ∧ id < n.adapter.fresh
  live : ∀ t k, n.Live t k → n.adapter.Current k.pdu ∧ (n.adapter.heap k.pdu).task = some t
  bound : ∀ t k, n.tasks t = some k → t < n.nextTask

/-- And the PDU that an operation waits for is in place. -/
structure Sound (n : Node) : Prop extends Placed n where
  head : ∀ o, n.operation = some o → n.adapter.Current o.id ∧ TodoOf n.adapter o.rest

/-! ## Poll tasks -/

theorem live_setTask {k' : Option PollTask} : (n.setTask t k').Live u k ↔
    if u = t then k' = some k ∧ k.cancelled = false else n.Live u k := by
  unfold Live setTask
  by_cases hu : u = t <;> simp [hu]

theorem adapter_stop (n : Node) (id : Nat) :
    (n.stopPollTask id).adapter = n.adapter.setObj id { n.adapter.heap id with task := none } := by
  unfold stopPollTask
  split
  · rename_i h
    rw [← h]
    exact Adapter.setObj_self.symm
  · rfl

theorem operation_stop (n : Node) (id : Nat) : (n.stopPollTask id).operation = n.operation := by
  unfold stopPollTask
  split <;> rfl

theorem nextTask_stop (n : Node) (id : Nat) : (n.stopPollTask id).nextTask = n.nextTask := by
  unfold stopPollTask
  split <;> rfl

theorem live_stop : (n.stopPollTask id).Live t k ↔ n.Live t k ∧ (n.adapter.heap id).task ≠ some t := by
  unfold stopPollTask
  split
  · rename_i h
    simp [h]
  · rename_i u h
    unfold Live setTask
    by_cases ht : t = u
    · subst ht
      cases hk : n.tasks t with
      | none => simp
      | some k' =>
          simp only [h, ↓reduceIte, Option.map_some, Option.some.injEq, ne_eq, not_true_eq_false, and_false, iff_false,
            not_and, Bool.not_eq_false]
          rintro rfl
          rfl
    · have hne : (n.adapter.heap id).task ≠ some t := by
        rw [h]
        exact fun he => ht (Option.some.inj he).symm
      simp [ht, hne]

theorem tasks_stop (h : (n.stopPollTask id).tasks t = some k) : ∃ k', n.tasks t = some k' := by
  unfold stopPollTask at h
  split at h
  · exact ⟨k, h⟩
  · rename_i u _
    by_cases ht : t = u
    · subst ht
      obtain ⟨k', hk', -⟩ := Option.map_eq_some_iff.mp (show (n.tasks t).map _ = some k by simpa [setTask] using h)
      exact ⟨k', hk'⟩
    · exact ⟨k, by simpa [setTask, ht] using h⟩

theorem Placed.current_of_get (h : n.Placed) {name : Text} (hget : n.adapter.pdus.get? name = some id) : n.adapter.Current id := by
  rw [Adapter.Current, (h.named name id hget).1, hget]

theorem Placed.current_of_mem (h : n.Placed) (hid : id ∈ n.adapter.objects) : n.adapter.Current id :=
  let ⟨_, hget⟩ := Adapter.mem_objects.mp hid
  h.current_of_get hget

theorem mem_objects_of_current (h : n.adapter.Current id) : id ∈ n.adapter.objects := Adapter.mem_objects.mpr ⟨_, h⟩

theorem TodoOf.congr {s s' : Adapter} {todo : List Todo} (h : TodoOf s todo) (hcur : ∀ id, s.Current id → s'.Current id) :
    TodoOf s' todo := by
  rcases h with h | h
  · left
    intro x hx
    obtain ⟨id, rfl, hid⟩ := h x hx
    exact ⟨id, rfl, hcur id hid⟩
  · exact .inr h

/-! ## Where the PDUs are -/

/-- What changes neither names nor where loops belong keeps them in place. -/
theorem Placed.of (h : n.Placed) (hpdus : m.adapter.pdus = n.adapter.pdus) (hfresh : m.adapter.fresh = n.adapter.fresh)
    (hname : ∀ i, (m.adapter.heap i).name = (n.adapter.heap i).name)
    (hlive : ∀ t k, m.Live t k → ∃ k', n.Live t k' ∧ k'.pdu = k.pdu ∧ (m.adapter.heap k.pdu).task = (n.adapter.heap k.pdu).task)
    (hbound : ∀ t k, m.tasks t = some k → t < m.nextTask) : m.Placed where
  named name id hget := by
    rw [hpdus] at hget
    rw [hname, hfresh]
    exact h.named name id hget
  live t k hk := by
    obtain ⟨k', hk', hpdu, htask⟩ := hlive t k hk
    obtain ⟨hcur, ht⟩ := h.live t k' hk'
    rw [hpdu] at hcur ht
    exact ⟨(Adapter.current_congr hpdus hname).mpr hcur, htask.trans ht⟩
  bound := hbound

theorem Placed.adapter (h : n.Placed) {s : Adapter} (hs : n.adapter.SameButReadings s) : ({ n with adapter := s } : Node).Placed :=
  h.of hs.pdus hs.fresh hs.name (fun _ k hk => ⟨k, hk, rfl, hs.task _⟩) h.bound

theorem Placed.stop (h : n.Placed) (id : Nat) : (n.stopPollTask id).Placed := by
  refine h.of (by rw [adapter_stop]; rfl) (by rw [adapter_stop]; rfl) (fun i => ?_) (fun t k hk => ?_) (fun t k hk => ?_)
  · rw [adapter_stop]
    by_cases hi : i = id <;> simp [hi]
  · obtain ⟨hlive, hne⟩ := live_stop.mp hk
    have hother : k.pdu ≠ id := by
      intro he
      exact hne (he ▸ (h.live t k hlive).2)
    exact ⟨k, hlive, rfl, by rw [adapter_stop]; simp [hother]⟩
  · obtain ⟨k', hk'⟩ := tasks_stop hk
    rw [nextTask_stop]
    exact h.bound t k' hk'

/-- A loop of its own, in another phase. -/
theorem Placed.setTask (h : n.Placed) {k' : Option PollTask}
    (hk : ∀ k, k' = some k → ∃ k₀, n.tasks t = some k₀ ∧ k₀.pdu = k.pdu ∧ (k.cancelled = false → k₀.cancelled = false)) :
    (n.setTask t k').Placed := by
  refine h.of rfl rfl (fun _ => rfl) (fun u k hu => ?_) (fun u k hu => ?_)
  · rw [live_setTask] at hu
    split at hu
    · rename_i hut
      subst hut
      obtain ⟨k₀, h₀, hpdu, hc⟩ := hk k hu.1
      exact ⟨k₀, ⟨h₀, hc hu.2⟩, hpdu, rfl⟩
    · exact ⟨k, hu, rfl, rfl⟩
  · by_cases hut : u = t
    · subst hut
      obtain ⟨k₀, h₀, -⟩ := hk k (by simpa [Node.setTask] using hu)
      exact h.bound u k₀ h₀
    · exact h.bound u k (by simpa [Node.setTask, hut] using hu)

/-- A loop is started for a PDU that has none, or nothing changes. -/
theorem start_cases (n : Node) (id : Nat) :
    (n.startPollTask id = n ∧ ((n.adapter.heap id).material.pollInterval ≤ 0 ∨ (n.adapter.heap id).task ≠ none)) ∨
      (0 < (n.adapter.heap id).material.pollInterval ∧ (n.adapter.heap id).task = none ∧
        n.startPollTask id = { n.setTask n.nextTask (some { pdu := id }) with
          nextTask := n.nextTask + 1
          adapter := n.adapter.setObj id { n.adapter.heap id with task := some n.nextTask } }) := by
  unfold startPollTask
  split
  · exact .inl ⟨rfl, ‹_›⟩
  · rename_i h
    rw [not_or, not_le, not_not] at h
    exact .inr ⟨h.1, h.2, rfl⟩

theorem Placed.start (h : n.Placed) (hcur : n.adapter.Current id) : (n.startPollTask id).Placed := by
  obtain ⟨he, -⟩ | ⟨-, hnone, he⟩ := start_cases n id
  · rwa [he]
  · rw [he]
    refine ⟨fun name i hget => ?_, fun t k hk => ?_, fun t k hk => ?_⟩
    · refine ⟨?_, (h.named name i hget).2⟩
      exact (Adapter.name_setObj n.adapter id { n.adapter.heap id with task := some n.nextTask } rfl i).trans (h.named name i hget).1
    · have hk' := live_setTask.mp (show (n.setTask n.nextTask (some { pdu := id })).Live t k from hk)
      split at hk'
      · rename_i ht
        obtain ⟨hk', -⟩ := hk'
        cases hk'
        refine ⟨?_, by simp [ht]⟩
        show (n.adapter.setObj id { n.adapter.heap id with task := some n.nextTask }).Current id
        exact Adapter.current_setObj rfl hcur
      · obtain ⟨hk₁, hk₂⟩ := h.live t k hk'
        have hother : k.pdu ≠ id := by
          rintro rfl
          rw [hnone] at hk₂
          cases hk₂
        refine ⟨?_, by simpa [hother] using hk₂⟩
        show (n.adapter.setObj id { n.adapter.heap id with task := some n.nextTask }).Current k.pdu
        exact Adapter.current_setObj rfl hk₁
    · show t < n.nextTask + 1
      by_cases ht : t = n.nextTask
      · omega
      · have := h.bound t k (by simpa [Node.setTask, ht] using hk)
        omega

/-- What is left of a name once its PDU is no longer in place. -/
theorem Placed.drop (h : n.Placed) {name : Text} (hnone : ∀ id, n.adapter.pdus.get? name = some id → (n.adapter.heap id).task = none) :
    ({ n with adapter := { n.adapter with pdus := n.adapter.pdus.pop name } } : Node).Placed := by
  refine ⟨fun name' id hget => h.named name' id (Dict.get?_of_get?_pop hget), fun t k hk => ?_, h.bound⟩
  obtain ⟨hcur, htask⟩ := h.live t k hk
  refine ⟨?_, htask⟩
  have hne : (n.adapter.heap k.pdu).name ≠ name := by
    rintro rfl
    rw [hnone k.pdu hcur] at htask
    cases htask
  exact (Dict.get?_pop_ne _ hne).trans hcur

/-- A PDU is built under a name that has none in place. -/
theorem Placed.put (h : n.Placed) {name : Text} (hvalid : validRefToken name = true) {p : PduState} (hp : p.name = name)
    (hnone : ∀ id, n.adapter.pdus.get? name = some id → (n.adapter.heap id).task = none) :
    ({ n with adapter := { n.adapter.setObj n.adapter.fresh p with
        pdus := n.adapter.pdus.set name n.adapter.fresh
        fresh := n.adapter.fresh + 1 } } : Node).Placed := by
  have hold : ∀ i, n.adapter.Current i → i ≠ n.adapter.fresh := by
    rintro i hi rfl
    exact absurd (h.named _ _ hi).2.2 (lt_irrefl _)
  refine ⟨fun name' id hget => ?_, fun t k hk => ?_, h.bound⟩
  · change (n.adapter.pdus.set name n.adapter.fresh).get? name' = some id at hget
    show ((n.adapter.setObj n.adapter.fresh p).heap id).name = name' ∧ validRefToken name' = true ∧ id < n.adapter.fresh + 1
    by_cases hname : name' = name
    · subst hname
      rw [Dict.get?_set_self] at hget
      cases hget
      exact ⟨by simpa using hp, hvalid, Nat.lt_succ_self _⟩
    · rw [Dict.get?_set_ne _ _ hname] at hget
      obtain ⟨h₁, h₂, h₃⟩ := h.named name' id hget
      exact ⟨by simpa [h₃.ne] using h₁, h₂, h₃.trans (Nat.lt_succ_self _)⟩
  · obtain ⟨hcur, htask⟩ := h.live t k hk
    have hne := hold _ hcur
    have hname : (n.adapter.heap k.pdu).name ≠ name := by
      rintro rfl
      rw [hnone k.pdu hcur] at htask
      cases htask
    refine ⟨?_, by simpa [hne] using htask⟩
    show (n.adapter.pdus.set name n.adapter.fresh).get? ((n.adapter.setObj n.adapter.fresh p).heap k.pdu).name = some k.pdu
    rw [Adapter.heap_setObj, if_neg hne, Dict.get?_set_ne _ _ hname]
    exact hcur

/-! ## Building and stopping -/

theorem pdus_stop (n : Node) (id : Nat) : (n.stopPollTask id).adapter.pdus = n.adapter.pdus := by rw [adapter_stop]; rfl

/-- What `_build_pdu` does with an entry that it takes. -/
structure Built (n m : Node) (c : PduConf) : Prop where
  valid : validRefToken c.name = true
  pdus : m.adapter.pdus = n.adapter.pdus.set c.name n.adapter.fresh
  name : (m.adapter.heap n.adapter.fresh).name = c.name
  material : c.material = some (m.adapter.heap n.adapter.fresh).material
  empty : (m.adapter.heap n.adapter.fresh).readings = ∅
  task : (m.adapter.heap n.adapter.fresh).task = none
  heap : ∀ i, i ≠ n.adapter.fresh → m.adapter.heap i =
    if n.adapter.pdus.get? c.name = some i then { n.adapter.heap i with task := none } else n.adapter.heap i
  live : ∀ t k, m.Live t k ↔ n.Live t k ∧ ∀ i, n.adapter.pdus.get? c.name = some i → (n.adapter.heap i).task ≠ some t
  enabled : m.adapter.enabled = n.adapter.enabled
  isRunning : m.adapter.isRunning = n.adapter.isRunning
  changes : m.adapter.changes = n.adapter.changes

theorem buildPdu_of_not {c : PduConf} (h : ¬ Builds c) : n.buildPdu c = n := by
  unfold buildPdu
  cases hm : c.material with
  | none => rfl
  | some m =>
      have : ¬ (c.accepted && validRefToken c.name) = true := by simpa [Builds, hm] using h
      exact if_neg this

theorem operation_build (n : Node) (c : PduConf) : (n.buildPdu c).operation = n.operation := by
  unfold buildPdu
  split
  · rfl
  · split
    · dsimp only
      split
      · exact operation_stop _ _
      · rfl
    · rfl

theorem built {c : PduConf} (hp : n.Placed) (h : Builds c) : Built n (n.buildPdu c) c := by
  obtain ⟨hsome, haccepted, hvalid⟩ := h
  obtain ⟨m, hm⟩ := Option.isSome_iff_exists.mp hsome
  have hfresh : ∀ i, n.adapter.pdus.get? c.name = some i → n.adapter.fresh ≠ i := fun i hi => ((hp.named _ _ hi).2.2).ne'
  unfold buildPdu
  simp only [hm, haccepted, hvalid, Bool.and_true, ↓reduceIte]
  cases hget : n.adapter.pdus.get? c.name with
  | none =>
      exact ⟨hvalid, rfl, by simp, by simp [hm], by simp, by simp, fun i hi => by simp [hi, hget], fun t k => by simp [Live, hget], rfl, rfl, rfl⟩
  | some id =>
      have hne := hfresh id hget
      refine ⟨hvalid, by simp [adapter_stop], by simp [adapter_stop], by simp [adapter_stop, hm], by simp [adapter_stop],
        by simp [adapter_stop],
        fun i hi => ?_, fun t k => ?_, by simp [adapter_stop, Adapter.setObj], by simp [adapter_stop, Adapter.setObj],
        by simp [adapter_stop, Adapter.setObj]⟩
      · by_cases hid : i = id
        · subst hid
          simp [adapter_stop, hi, hget]
        · simp [adapter_stop, hi, hget, hid, Ne.symm hid]
      · show (n.stopPollTask id).Live t k ↔ _
        rw [live_stop, hget]
        simp

theorem Placed.build (h : n.Placed) (c : PduConf) : (n.buildPdu c).Placed := by
  by_cases hb : Builds c
  · obtain ⟨hsome, haccepted, hvalid⟩ := hb
    obtain ⟨m, hm⟩ := Option.isSome_iff_exists.mp hsome
    unfold buildPdu
    simp only [hm, haccepted, hvalid, Bool.and_true, ↓reduceIte]
    cases hget : n.adapter.pdus.get? c.name with
    | none => exact h.put hvalid rfl fun id hid => by rw [hget] at hid; cases hid
    | some id =>
        refine (h.stop id).put hvalid rfl fun i hi => ?_
        rw [pdus_stop, hget] at hi
        cases hi
        simp [adapter_stop]
  · rwa [buildPdu_of_not hb]

/-- The PDU of a name is no longer in place, and its loop is cancelled. -/
theorem Placed.remove (h : n.Placed) (name : Text) : (n.reconcileRemove name).Placed := by
  unfold reconcileRemove
  cases hget : n.adapter.pdus.get? name with
  | none => exact h
  | some id =>
      have hswap : ({ n with adapter := { n.adapter with pdus := n.adapter.pdus.pop name } } : Node).stopPollTask id =
          { n.stopPollTask id with adapter := { (n.stopPollTask id).adapter with pdus := (n.stopPollTask id).adapter.pdus.pop name } } := by
        unfold stopPollTask
        dsimp only
        cases (n.adapter.heap id).task <;> rfl
      dsimp only
      rw [hswap]
      refine (h.stop id).drop fun i hi => ?_
      rw [pdus_stop, hget] at hi
      cases hi
      simp [adapter_stop]

/-- All loops of the PDUs are cancelled. -/
structure Stopped (n m : Node) (ids : List Nat) : Prop where
  adapter : ∃ heap, m.adapter = { n.adapter with heap := heap } ∧
    ∀ i, heap i = if i ∈ ids then { n.adapter.heap i with task := none } else n.adapter.heap i
  live : ∀ t k, m.Live t k → n.Live t k ∧ ∀ i ∈ ids, (n.adapter.heap i).task ≠ some t
  placed : n.Placed → m.Placed
  operation : m.operation = n.operation

theorem stopped_foldl (ids : List Nat) : ∀ n : Node, Stopped n (ids.foldl (fun n id => n.stopPollTask id) n) ids := by
  induction ids with
  | nil => exact fun n => ⟨⟨n.adapter.heap, rfl, fun i => by simp⟩, fun t k h => ⟨h, by simp⟩, id, rfl⟩
  | cons id ids ih =>
      intro n
      obtain ⟨⟨heap, hadapter, hheap⟩, hlive, hplaced, hop⟩ := ih (n.stopPollTask id)
      refine ⟨⟨heap, ?_, fun i => ?_⟩, fun t k h => ?_, fun h => hplaced (h.stop id), hop.trans (operation_stop n id)⟩
      · rw [List.foldl_cons, hadapter, adapter_stop]
        rfl
      · rw [hheap, adapter_stop]
        by_cases hi : i = id <;> by_cases hm : i ∈ ids <;> simp [hi, hm]
      · obtain ⟨h₁, h₂⟩ := hlive t k h
        obtain ⟨h₁, h₃⟩ := live_stop.mp h₁
        refine ⟨h₁, fun i hi => ?_⟩
        by_cases hid : i = id
        · rwa [hid]
        · have := h₂ i ((List.mem_cons.mp hi).resolve_left hid)
          simpa [adapter_stop, hid] using this

/-- Nothing is left alive once the PDUs in place are stopped. -/
theorem Stopped.none_live (h : Stopped n m n.adapter.objects) (hp : n.Placed) : ¬ m.Live t k := by
  intro hk
  obtain ⟨hlive, hne⟩ := h.live t k hk
  obtain ⟨hcur, htask⟩ := hp.live t k hlive
  exact hne k.pdu (mem_objects_of_current hcur) htask

end Node

end OpenMux.Pdu
