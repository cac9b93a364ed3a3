import OpenMux.Pdu.Lemmas.Loops
import OpenMux.Pdu.Lemmas.Readings

/-!
# Every PDU keeps its loop
-/

namespace OpenMux.Pdu.Node

open Py Federation

variable {n m : Node} {t u id : Nat} {k : PollTask} {mode : Option (Option Bool)} {todo : List Todo}

/-- The operation still comes to the PDU. -/
def Awaited (n : Node) (mode : Option (Option Bool)) (todo : List Todo) (id : Nat) : Prop :=
  .bring id ∈ todo ∨ (∃ c, .build c ∈ todo ∧ c.name = (n.adapter.heap id).name) ∨
    mode = some (some false) ∧ (n.adapter.heap id).readings.entries ≠ []

/-- A PDU knows a loop only while that is alive. -/
def Backed (n : Node) : Prop :=
  ∀ id t, n.adapter.Current id → (n.adapter.heap id).task = some t → ∃ k, n.Live t k ∧ k.pdu = id

/-- No PDU knows a loop that has ended, a loop runs only while there is something to poll, and a PDU that has to be polled
has a loop or is still to be brought up. `mode` is the operation in progress: none, a startup, or a reconcile with what was enabled
before it. -/
structure Covered (n : Node) (mode : Option (Option Bool)) (todo : List Todo) : Prop where
  backed : n.Backed
  running : ∀ t k, n.Live t k → n.adapter.enabled = true ∧ (n.adapter.isRunning = true ∨ mode = some none ∧ k.phase = .fresh)
  waiting : ∀ id, .bring id ∈ todo → n.adapter.enabled = true
  awaited : n.adapter.enabled = true → (n.adapter.isRunning = true ∨ mode = some none) →
    ∀ id, n.adapter.Current id → 0 < n.interval id → (n.adapter.heap id).task = none → n.Awaited mode todo id
  idle : mode = some (some false) → n.adapter.enabled = true → n.adapter.isRunning = true ∨
    (∀ id, n.adapter.Current id → n.interval id ≤ 0) ∧ ∀ c, .build c ∈ todo → ∀ m ∈ c.material, m.pollInterval ≤ 0

/-- What is in place between two steps. -/
structure Kept (n : Node) : Prop where
  sound : n.Sound
  covered : n.Covered (n.operation.map Operation.oldEnabled) (n.operation.elim [] fun o => .bring o.id :: o.rest)

theorem Kept.polled (h : n.Kept) (hop : n.operation = none) : n.Polled := by
  have hc := h.covered
  rw [hop] at hc
  constructor
  · intro hrunning henabled id hid hinterval
    have hcur := h.sound.current_of_mem hid
    cases htask : (n.adapter.heap id).task with
    | none => simpa [Awaited] using hc.awaited henabled (.inl hrunning) id hcur hinterval htask
    | some t =>
        refine ⟨t, hc.backed id t hcur htask, fun u hu => ?_⟩
        obtain ⟨k, hk, rfl⟩ := hu
        exact Option.some.inj ((h.sound.live u k hk).2.symm.trans htask)
  · intro t k hk
    obtain ⟨henabled, hrunning⟩ := hc.running t k hk
    refine ⟨hrunning.resolve_right ?_, henabled, mem_objects_of_current (h.sound.live t k hk).1⟩
    simp

/-! ## What keeps the loops in place -/

/-- What changes neither the PDUs nor which of them have loops. -/
theorem Covered.of (h : n.Covered mode todo) (hs : n.adapter.SameButReadings m.adapter)
    (hreadings : ∀ id, .bring id ∉ todo → (n.adapter.heap id).task = none →
      (n.adapter.heap id).readings.entries ≠ [] → (m.adapter.heap id).readings.entries ≠ [])
    (hlive : ∀ t k, m.Live t k → ∃ k', n.Live t k' ∧ k'.pdu = k.pdu ∧
      (k'.phase = .fresh → k.phase = .fresh ∨ n.adapter.isRunning = true))
    (hback : ∀ t k, n.Live t k → ∃ k', m.Live t k' ∧ k'.pdu = k.pdu) : m.Covered mode todo := by
  have hcur : ∀ id, m.adapter.Current id → n.adapter.Current id := fun id => (Adapter.current_congr hs.pdus hs.name).mp
  have hinterval : ∀ id, m.interval id = n.interval id := fun id => by rw [interval, hs.material, interval]
  constructor
  · intro id t hid htask
    rw [hs.task] at htask
    obtain ⟨k, hk, hpdu⟩ := h.backed id t (hcur id hid) htask
    obtain ⟨k', hk', hpdu'⟩ := hback t k hk
    exact ⟨k', hk', hpdu'.trans hpdu⟩
  · intro t k hk
    obtain ⟨k', hk', -, hphase⟩ := hlive t k hk
    obtain ⟨henabled, hrunning⟩ := h.running t k' hk'
    rw [hs.enabled, hs.isRunning]
    refine ⟨henabled, ?_⟩
    rcases hrunning with hrunning | ⟨hmode, hfresh⟩
    · exact .inl hrunning
    · exact (hphase hfresh).symm.imp_right fun hf => ⟨hmode, hf⟩
  · intro id hid
    rw [hs.enabled]
    exact h.waiting id hid
  · intro henabled hrunning id hid hpos htask
    rw [hs.enabled] at henabled
    rw [hs.isRunning] at hrunning
    rw [hinterval] at hpos
    rw [hs.task] at htask
    by_cases hbring : Todo.bring id ∈ todo
    · exact .inl hbring
    · refine (h.awaited henabled hrunning id (hcur id hid) hpos htask).imp_right ?_
      rw [hs.name]
      exact Or.imp_right (And.imp_right (hreadings id hbring htask))
  · intro hmode henabled
    rw [hs.enabled] at henabled
    rw [hs.isRunning]
    refine (h.idle hmode henabled).imp_right fun ⟨hpdus, hconf⟩ => ⟨fun id hid => ?_, hconf⟩
    rw [hinterval]
    exact hpdus id (hcur id hid)

/-- Where the PDU at the head need not be polled, or is, the operation goes on without it. -/
theorem Covered.drop (h : n.Covered mode (.bring id :: todo))
    (hid : n.adapter.isRunning = true ∨ mode = some none → 0 < n.interval id → (n.adapter.heap id).task = none →
      n.Awaited mode todo id) : n.Covered mode todo where
  backed := h.backed
  running := h.running
  waiting i hi := h.waiting i (List.mem_cons_of_mem _ hi)
  awaited henabled hrunning i hcur hpos htask := by
    by_cases hi : i = id
    · subst hi
      exact hid hrunning hpos htask
    · exact (h.awaited henabled hrunning i hcur hpos htask).imp (fun hm => (List.mem_cons.mp hm).resolve_left (by simpa using hi))
        (Or.imp_left fun ⟨c, hc, hname⟩ => ⟨c, (List.mem_cons.mp hc).resolve_left (by simp), hname⟩)
  idle hmode henabled :=
    (h.idle hmode henabled).imp_right (And.imp_right fun hconf c hc => hconf c (List.mem_cons_of_mem _ hc))

/-- The loop of the PDU at the head starts. -/
theorem Covered.start (h : n.Covered mode (.bring id :: todo)) (hp : n.Placed) (hcur : n.adapter.Current id)
    (hstart : mode = some none ∨ n.adapter.isRunning = true ∨ n.interval id ≤ 0 ∨ (n.adapter.heap id).task ≠ none) :
    (n.startPollTask id).Covered mode todo := by
  obtain ⟨he, hspared⟩ | ⟨hpos, hnone, he⟩ := start_cases n id
  · rw [he]
    refine h.drop fun _ hpos hnone => ?_
    rcases hspared with hle | hne
    · exact absurd hpos (not_lt.mpr hle)
    · exact absurd hnone hne
  · have hlive : ∀ u k, (n.startPollTask id).Live u k ↔
        if u = n.nextTask then some ({ pdu := id } : PollTask) = some k ∧ k.cancelled = false else n.Live u k := by
      intro u k
      rw [he]
      exact live_setTask
    have hold : ∀ i, (n.startPollTask id).adapter.Current i ↔ n.adapter.Current i := by
      intro i
      rw [he]
      exact Adapter.current_congr rfl (Adapter.name_setObj n.adapter id _ rfl)
    have hheap : ∀ i, (n.startPollTask id).adapter.heap i =
        if i = id then { n.adapter.heap id with task := some n.nextTask } else n.adapter.heap i := by
      intro i
      rw [he]
      rfl
    have hinterval : ∀ i, (n.startPollTask id).interval i = n.interval i := by
      intro i
      rw [interval, hheap]
      by_cases hi : i = id <;> simp [hi, interval]
    have hflags : (n.startPollTask id).adapter.enabled = n.adapter.enabled ∧
        (n.startPollTask id).adapter.isRunning = n.adapter.isRunning := by
      rw [he]
      exact ⟨rfl, rfl⟩
    constructor
    · intro i t hi htask
      rw [hheap] at htask
      by_cases hid : i = id
      · subst hid
        rw [if_pos rfl] at htask
        cases htask
        exact ⟨{ pdu := i }, (hlive _ _).mpr (by simp), rfl⟩
      · rw [if_neg hid] at htask
        obtain ⟨k, hk, hpdu⟩ := h.backed i t ((hold i).mp hi) htask
        have ht : t ≠ n.nextTask := (hp.bound t k hk.1).ne
        exact ⟨k, (hlive t k).mpr (by rwa [if_neg ht]), hpdu⟩
    · intro u k hk
      rw [hlive] at hk
      rw [hflags.1, hflags.2]
      split at hk
      · obtain ⟨hk, -⟩ := hk
        cases hk
        refine ⟨h.waiting id List.mem_cons_self, ?_⟩
        rcases hstart with hmode | hrunning | hle | hne
        · exact .inr ⟨hmode, rfl⟩
        · exact .inl hrunning
        · exact absurd hpos (not_lt.mpr hle)
        · exact absurd hnone hne
      · exact h.running u k hk
    · intro i hi
      rw [hflags.1]
      exact h.waiting i (List.mem_cons_of_mem _ hi)
    · intro henabled hrunning i hi hpos' htask
      rw [hflags.1] at henabled
      rw [hflags.2] at hrunning
      rw [hinterval] at hpos'
      rw [hheap] at htask
      have hid : i ≠ id := by
        rintro rfl
        simp at htask
      rw [if_neg hid] at htask
      unfold Awaited
      rw [hheap, if_neg hid]
      refine (h.awaited henabled hrunning i ((hold i).mp hi) hpos' htask).imp (fun hm => ?_) (Or.imp_left fun hm => ?_)
      · exact (List.mem_cons.mp hm).resolve_left (by simpa using hid)
      · obtain ⟨c, hc, hname⟩ := hm
        exact ⟨c, (List.mem_cons.mp hc).resolve_left (by simp), hname⟩
    · intro hmode henabled
      rw [hflags.1] at henabled
      rw [hflags.2]
      refine (h.idle hmode henabled).imp_right fun ⟨hpdus, hconf⟩ => ⟨fun i hi => ?_, fun c hc => ?_⟩
      · rw [hinterval]
        exact hpdus i ((hold i).mp hi)
      · exact hconf c (List.mem_cons_of_mem _ hc)

theorem Awaited.mono {todo' : List Todo} (h : n.Awaited mode todo id) (hsub : ∀ x ∈ todo, x ∈ todo') : n.Awaited mode todo' id :=
  h.imp (hsub _) (Or.imp_left fun ⟨c, hc, hname⟩ => ⟨c, hsub _ hc, hname⟩)

theorem enabled_build (n : Node) (c : PduConf) (hp : n.Placed) : (n.buildPdu c).adapter.enabled = n.adapter.enabled := by
  by_cases hb : Builds c
  · exact (built hp hb).enabled
  · rw [buildPdu_of_not hb]

theorem isRunning_build (n : Node) (c : PduConf) (hp : n.Placed) : (n.buildPdu c).adapter.isRunning = n.adapter.isRunning := by
  by_cases hb : Builds c
  · exact (built hp hb).isRunning
  · rw [buildPdu_of_not hb]

theorem live_build {c : PduConf} (hp : n.Placed) (h : (n.buildPdu c).Live t k) : n.Live t k := by
  by_cases hb : Builds c
  · exact ((built hp hb).live t k |>.mp h).1
  · rwa [buildPdu_of_not hb] at h

/-- Two PDUs do not know the same loop. -/
theorem Backed.inj (h : n.Backed) {i j : Nat} (hi : n.adapter.Current i) (hti : (n.adapter.heap i).task = some t)
    (hj : n.adapter.Current j) (htj : (n.adapter.heap j).task = some t) : i = j := by
  obtain ⟨k, hk, rfl⟩ := h i t hi hti
  obtain ⟨k', hk', rfl⟩ := h j t hj htj
  rw [Option.some.inj (hk.1.symm.trans hk'.1)]

theorem Backed.build (h : n.Backed) (hp : n.Placed) (c : PduConf) : (n.buildPdu c).Backed := by
  by_cases hb : Builds c
  · have hbuilt := built hp hb
    intro i t hi htask
    rcases hbuilt.current hp hi with rfl | ⟨hcur, hne, hheap⟩
    · rw [hbuilt.task] at htask
      cases htask
    · rw [hheap] at htask
      obtain ⟨k, hk, hpdu⟩ := h i t hcur htask
      refine ⟨k, (hbuilt.live t k).mpr ⟨hk, fun j hj hjt => ?_⟩, hpdu⟩
      have hij : j = i := h.inj (hp.current_of_get hj) hjt hcur htask
      subst hij
      exact hne (hp.named _ _ hj).1
  · rwa [buildPdu_of_not hb]

/-- A PDU is built of the entry at the head, which comes next if power is enabled. -/
theorem Covered.build {c : PduConf} {todo' : List Todo} (h : n.Covered mode (.build c :: todo)) (hp : n.Placed)
    (hsub : ∀ x ∈ todo, x ∈ todo') (hbring : ∀ id, .bring id ∈ todo' → n.adapter.enabled = true)
    (hbuild : ∀ c', .build c' ∈ todo' → .build c' ∈ todo)
    (hnext : n.adapter.enabled = true → ∀ id, (n.buildPdu c).adapter.pdus.get? c.name = some id → .bring id ∈ todo') :
    (n.buildPdu c).Covered mode todo' := by
  have hawaited : ∀ i, n.Awaited mode (.build c :: todo) i → (n.adapter.heap i).name ≠ c.name → n.Awaited mode todo' i := by
    rintro i (hi | ⟨c', hc', hname⟩ | hread) hne
    · exact .inl (hsub _ ((List.mem_cons.mp hi).resolve_left (by simp)))
    · refine .inr (.inl ⟨c', hsub _ ((List.mem_cons.mp hc').resolve_left ?_), hname⟩)
      rintro ⟨⟩
      exact hne hname.symm
    · exact .inr (.inr hread)
  by_cases hb : Builds c
  · have hbuilt := built hp hb
    have hinterval : ∀ i, (n.buildPdu c).adapter.heap i = n.adapter.heap i → (n.buildPdu c).interval i = n.interval i := by
      intro i hi
      rw [interval, hi, interval]
    refine ⟨h.backed.build hp c, fun t k hk => ?_, fun i hi => ?_, ?_, ?_⟩
    · rw [hbuilt.enabled, hbuilt.isRunning]
      exact h.running t k (live_build hp hk)
    · rw [hbuilt.enabled]
      exact hbring i hi
    · intro henabled hrunning i hi hpos htask
      rw [hbuilt.enabled] at henabled
      rw [hbuilt.isRunning] at hrunning
      rcases hbuilt.current hp hi with rfl | ⟨hcur, hne, hheap⟩
      · refine .inl (hnext henabled _ ?_)
        rw [hbuilt.pdus, Dict.get?_set_self]
      · rw [hinterval i hheap] at hpos
        rw [hheap] at htask
        have := hawaited i (h.awaited henabled hrunning i hcur hpos htask) hne
        rwa [Awaited, hheap]
    · intro hmode henabled
      rw [hbuilt.enabled] at henabled
      rw [hbuilt.isRunning]
      refine (h.idle hmode henabled).imp_right fun ⟨hpdus, hconf⟩ => ⟨fun i hi => ?_, fun c' hc' => ?_⟩
      · rcases hbuilt.current hp hi with rfl | ⟨hcur, -, hheap⟩
        · exact hconf c List.mem_cons_self _ hbuilt.material
        · rw [hinterval i hheap]
          exact hpdus i hcur
      · exact hconf c' (List.mem_cons_of_mem _ (hbuild c' hc'))
  · rw [buildPdu_of_not hb] at hnext ⊢
    refine ⟨h.backed, h.running, hbring, fun henabled hrunning i hi hpos htask => ?_, fun hmode henabled => ?_⟩
    · by_cases hname : (n.adapter.heap i).name = c.name
      · exact .inl (hnext henabled i (by rw [← hname]; exact hi))
      · exact hawaited i (h.awaited henabled hrunning i hi hpos htask) hname
    · exact (h.idle hmode henabled).imp_right (And.imp_right fun hconf c' hc' =>
        hconf c' (List.mem_cons_of_mem _ (hbuild c' hc')))

/-! ## The end of an operation -/

/-- A reconcile that enabled power starts the loops of the PDUs that have readings. -/
theorem covered_flip (ids : List Nat) :
    ∀ n : Node, n.Placed → n.Covered (some (some true)) (ids.map .bring) → (∀ id ∈ ids, n.adapter.Current id) →
      (n.adapter.isRunning = true ∨ ∀ id ∈ ids, n.interval id ≤ 0) →
      (n.adapter.isRunning = true → ∀ id ∈ ids, 0 < n.interval id → (n.adapter.heap id).task = none →
        (n.adapter.heap id).readings.entries ≠ []) →
      (ids.foldl (fun n id => if (n.adapter.heap id).task = none ∧ (n.adapter.heap id).readings.entries ≠ [] then n.startPollTask id
        else n) n).Covered (some (some true)) [] := by
  induction ids with
  | nil => exact fun _ _ h _ _ _ => h
  | cons id ids ih =>
      intro n hp h hcur hidle hread
      have hid := hcur id List.mem_cons_self
      rw [List.foldl_cons]
      split
      · have hstart : (some (some true) : Option (Option Bool)) = some none ∨ n.adapter.isRunning = true ∨
            n.interval id ≤ 0 ∨ (n.adapter.heap id).task ≠ none := by
          rcases hidle with hrunning | hle
          · exact .inr (.inl hrunning)
          · exact .inr (.inr (.inl (hle id List.mem_cons_self)))
        have hnext := h.start hp hid hstart
        obtain ⟨he, -⟩ | ⟨-, -, he⟩ := start_cases n id
        · rw [he] at hnext ⊢
          exact ih n hp hnext (fun i hi => hcur i (List.mem_cons_of_mem _ hi))
            (hidle.imp_right fun hle i hi => hle i (List.mem_cons_of_mem _ hi))
            fun hrunning i hi => hread hrunning i (List.mem_cons_of_mem _ hi)
        · have hplaced := hp.start hid
          rw [he] at hnext hplaced ⊢
          have hheap : ∀ i, ((n.adapter.setObj id { n.adapter.heap id with task := some n.nextTask }).heap i).material =
                (n.adapter.heap i).material ∧
              ((n.adapter.setObj id { n.adapter.heap id with task := some n.nextTask }).heap i).readings =
                (n.adapter.heap i).readings := by
            intro i
            by_cases hi : i = id <;> simp [hi]
          refine ih _ hplaced hnext (fun i hi => ?_) (hidle.imp_right fun hle i hi => ?_) fun hrunning i hi hpos htask => ?_
          · exact Adapter.current_setObj rfl (hcur i (List.mem_cons_of_mem _ hi))
          · rw [interval, (hheap i).1]
            exact hle i (List.mem_cons_of_mem _ hi)
          · rw [interval, (hheap i).1] at hpos
            rw [(hheap i).2]
            refine hread hrunning i (List.mem_cons_of_mem _ hi) hpos ?_
            by_cases hid : i = id
            · simp [hid] at htask
            · simpa [hid] using htask
      · rename_i hnot
        refine ih n hp (h.drop fun hrunning hpos hnone => ?_) (fun i hi => hcur i (List.mem_cons_of_mem _ hi))
            (hidle.imp_right fun hle i hi => hle i (List.mem_cons_of_mem _ hi))
            fun hrunning i hi => hread hrunning i (List.mem_cons_of_mem _ hi)
        exact absurd ⟨hnone, hread (hrunning.resolve_right (by simp)) id List.mem_cons_self hpos hnone⟩ hnot

theorem Covered.none_left (h : n.Covered (some (some true)) []) : n.Covered none [] where
  backed := h.backed
  running t k hk := by simpa using h.running t k hk
  waiting := h.waiting
  awaited henabled hrunning i hi hpos htask := by
    have := h.awaited henabled (.inl (hrunning.resolve_right (by simp))) i hi hpos htask
    simp [Awaited] at this
  idle hmode := by cases hmode

theorem Covered.congr (h : n.Covered mode todo) (hadapter : m.adapter = n.adapter) (htasks : m.tasks = n.tasks) :
    m.Covered mode todo := by
  refine h.of (hadapter ▸ .refl _) (fun id _ _ hr => by rwa [hadapter]) (fun t k hk => ?_) fun t k hk => ?_
  · rw [Live, htasks] at hk
    exact ⟨k, hk, rfl, .inl⟩
  · rw [Live, ← htasks] at hk
    exact ⟨k, hk, rfl⟩

/-- Where power is disabled and all loops are stopped, nothing is owed. -/
theorem Stopped.covered (h : Stopped n m n.adapter.objects) (hp : n.Placed) (hoff : n.adapter.enabled = false) :
    m.Covered mode [] := by
  obtain ⟨heap, hadapter, hheap⟩ := h.adapter
  have hoff' : m.adapter.enabled ≠ true := by simp [hadapter, hoff]
  refine ⟨fun id t hid htask => ?_, fun t k hk => absurd hk (h.none_live hp), fun id hid => absurd hid List.not_mem_nil,
    fun henabled => absurd henabled hoff', fun _ henabled => absurd henabled hoff'⟩
  have hmem : id ∈ n.adapter.objects := by
    obtain ⟨name, hname⟩ := Adapter.mem_objects.mp (mem_objects_of_current hid)
    exact Adapter.mem_objects.mpr ⟨name, by rw [hadapter] at hname; exact hname⟩
  rw [hadapter] at htask
  simp [hheap, hmem] at htask

theorem kept_finish {old : Option Bool} (hp : n.Placed) (h : n.Covered (some old) []) : (n.finish old).Kept := by
  refine ⟨sound_finish hp, ?_⟩
  cases old with
  | none =>
      refine ⟨h.backed, fun t k hk => ⟨(h.running t k hk).1, .inl rfl⟩, h.waiting, fun henabled _ i hi hpos htask => ?_,
        fun hmode => by cases hmode⟩
      have := h.awaited henabled (.inr rfl) i hi hpos htask
      simp [Awaited] at this
  | some b =>
      suffices (n.reconcilePollFlip b).Covered (some (some true)) [] from this.none_left.congr rfl rfl
      unfold reconcilePollFlip
      split
      · rename_i hb
        obtain ⟨henabled, rfl⟩ : n.adapter.enabled = true ∧ b = false := by simpa using hb
        have hread : n.adapter.isRunning = true → ∀ id ∈ n.adapter.objects, 0 < n.interval id → (n.adapter.heap id).task = none →
            (n.adapter.heap id).readings.entries ≠ [] := by
          intro hrunning id hid hpos htask
          simpa [Awaited] using h.awaited henabled (.inl hrunning) id (hp.current_of_mem hid) hpos htask
        refine covered_flip _ n hp ⟨h.backed, fun t k hk => ?_, fun _ _ => henabled, fun _ _ i hi _ _ => ?_, fun hmode => ?_⟩
          (fun id hid => hp.current_of_mem hid) ?_ hread
        · exact ⟨(h.running t k hk).1, .inl ((h.running t k hk).2.resolve_right (by simp))⟩
        · exact .inl (List.mem_map.mpr ⟨i, mem_objects_of_current hi, rfl⟩)
        · simp at hmode
        · exact (h.idle rfl henabled).imp_right fun hle id hid => hle.1 id (hp.current_of_mem hid)
      · rename_i hb
        split
        · rename_i henabled
          exact (stopped_foldl n.adapter.objects n).covered hp (by simpa using henabled)
        · rename_i henabled
          have hon : n.adapter.enabled = true := by simpa using henabled
          have htrue : b = true := by simpa [hon] using hb
          exact htrue ▸ h

/-- An operation comes to each PDU that it owes a loop. -/
theorem kept_advance {old : Option Bool} (todo : List Todo) :
    ∀ n : Node, n.Placed → TodoOf n.adapter todo → n.Covered (some old) todo → (advance old todo n).Kept := by
  induction todo with
  | nil => exact fun n hp _ h => kept_finish hp h
  | cons x rest ih =>
      intro n hp htodo h
      cases x with
      | bring id => exact ⟨sound_advance _ _ n hp htodo, h.congr rfl rfl⟩
      | build c =>
          have hbuilds := htodo.builds
          have hplaced := hp.build c
          have hnone : ∀ id, Todo.bring id ∉ rest := by
            intro id hid
            obtain ⟨c', hc'⟩ := hbuilds _ hid
            cases hc'
          unfold advance
          dsimp only
          cases hget : (n.buildPdu c).adapter.pdus.get? c.name with
          | none =>
              refine ih _ hplaced (.inr hbuilds) (h.build hp (fun _ hx => hx) (fun id hid => absurd hid (hnone id)) (fun _ hc => hc) ?_)
              intro _ id hid
              rw [hget] at hid
              cases hid
          | some id =>
              dsimp only
              split
              · rename_i henabled
                rw [enabled_build n c hp] at henabled
                refine ⟨⟨hplaced.congr rfl rfl rfl rfl rfl, fun o ho => ?_⟩, Covered.congr (n := n.buildPdu c) ?_ rfl rfl⟩
                · cases ho
                  exact ⟨hplaced.current_of_get hget, .inr hbuilds⟩
                · refine h.build hp (fun x hx => List.mem_cons_of_mem _ hx) (fun _ _ => henabled) (fun c' hc' => ?_) fun _ i hi => ?_
                  · exact (List.mem_cons.mp hc').resolve_left (by simp)
                  · rw [hget] at hi
                    cases hi
                    exact List.mem_cons_self
              · rename_i hoff
                rw [enabled_build n c hp] at hoff
                exact ih _ hplaced (.inr hbuilds) (h.build hp (fun _ hx => hx) (fun i hi => absurd hi (hnone i)) (fun _ hc => hc)
                  fun hon => absurd hon hoff)

/-- A reconcile with power disabled waits for nothing, and stops every loop. -/
theorem kept_disabled {old : Bool} (todo : List Todo) (htodo : ∀ x ∈ todo, ∃ c, x = .build c) :
    ∀ n : Node, n.Placed → n.adapter.enabled = false → (advance (some old) todo n).Kept := by
  induction todo with
  | nil =>
      intro n hp hoff
      refine ⟨sound_finish hp, ?_⟩
      have hflip : n.reconcilePollFlip old = n.adapter.objects.foldl (fun n id => n.stopPollTask id) n := by
        simp [reconcilePollFlip, hoff]
      show Covered { n.reconcilePollFlip old with operation := none } none []
      rw [hflip]
      exact ((stopped_foldl n.adapter.objects n).covered hp hoff).congr rfl rfl
  | cons x rest ih =>
      intro n hp hoff
      obtain ⟨c, rfl⟩ := htodo x List.mem_cons_self
      have hrest := ih (fun y hy => htodo y (List.mem_cons_of_mem _ hy)) (n.buildPdu c) (hp.build c)
        ((enabled_build n c hp).trans hoff)
      have hoff' : ¬ (n.buildPdu c).adapter.enabled = true := by simp [enabled_build n c hp, hoff]
      unfold advance
      dsimp only
      cases (n.buildPdu c).adapter.pdus.get? c.name with
      | none => exact hrest
      | some id => simpa [hoff'] using hrest

/-! ## Startup, reconcile, stop -/

theorem kept_builds (pdus : List PduConf) : ∀ n : Node, n.Placed → n.Backed →
    (pdus.foldl buildPdu n).Backed ∧ (∀ t k, (pdus.foldl buildPdu n).Live t k → n.Live t k) ∧
      (pdus.foldl buildPdu n).adapter.enabled = n.adapter.enabled ∧
        (pdus.foldl buildPdu n).adapter.isRunning = n.adapter.isRunning := by
  induction pdus with
  | nil => exact fun n _ h => ⟨h, fun _ _ hk => hk, rfl, rfl⟩
  | cons c pdus ih =>
      intro n hp h
      obtain ⟨hbacked, hlive, henabled, hrunning⟩ := ih (n.buildPdu c) (hp.build c) (h.build hp c)
      exact ⟨hbacked, fun t k hk => live_build hp (hlive t k hk), henabled.trans (enabled_build n c hp),
        hrunning.trans (isRunning_build n c hp)⟩

theorem Kept.rest (h : n.Kept) (hop : n.operation = none) : n.Covered none [] := by
  have := h.covered
  rwa [hop] at this

theorem Kept.start (h : n.Kept) (hop : n.operation = none) (pdus : List PduConf) : (n.start pdus).Kept := by
  have hc := h.rest hop
  have hplaced := placed_builds pdus n h.sound.toPlaced
  obtain ⟨hbacked, hlive, henabled, hrunning⟩ := kept_builds pdus n h.sound.toPlaced hc.backed
  have hrun : ∀ t k, (pdus.foldl buildPdu n).Live t k → (pdus.foldl buildPdu n).adapter.enabled = true ∧
      ((pdus.foldl buildPdu n).adapter.isRunning = true ∨ (some none : Option (Option Bool)) = some none ∧ k.phase = .fresh) := by
    intro t k hk
    rw [henabled, hrunning]
    obtain ⟨h₁, h₂⟩ := hc.running t k (hlive t k hk)
    exact ⟨h₁, .inl (h₂.resolve_right (by simp))⟩
  unfold Node.start
  dsimp only
  split
  · rename_i hon
    refine kept_advance _ _ hplaced (.inl fun x hx => ?_) ⟨hbacked, hrun, fun _ _ => hon, fun _ _ id hid _ _ => ?_, fun hmode => ?_⟩
    · obtain ⟨id, hid, rfl⟩ := List.mem_map.mp hx
      exact ⟨id, rfl, hplaced.current_of_mem hid⟩
    · exact .inl (List.mem_map.mpr ⟨id, mem_objects_of_current hid, rfl⟩)
    · cases hmode
  · rename_i hoff
    exact kept_finish hplaced ⟨hbacked, hrun, fun _ hid => absurd hid List.not_mem_nil, fun hon => absurd hon hoff,
      fun hmode => by cases hmode⟩

theorem Kept.stop (h : n.Kept) (hop : n.operation = none) : n.stop.Kept := by
  have hstop := stopped_foldl n.adapter.objects { n with adapter := { n.adapter with isRunning := false } }
  have hsound := sound_stop h.sound.toPlaced hop
  refine ⟨hsound, ?_⟩
  have hnone : n.stop.operation = none := hstop.operation.trans hop
  rw [hnone]
  have hcur : ∀ id, ¬ n.stop.adapter.Current id := by
    intro id hid
    cases hid
  refine ⟨fun id t hid => absurd hid (hcur id), fun t k hk => absurd hk ?_, fun _ hid => absurd hid List.not_mem_nil,
    fun _ _ id hid => absurd hid (hcur id), fun hmode => by cases hmode⟩
  exact hstop.none_live (h.sound.toPlaced.congr rfl rfl rfl rfl rfl)

/-- What a reconcile leaves in place is as it was. -/
structure Removed (n m : Node) (names : List Text) : Prop where
  get : ∀ name id, m.adapter.pdus.get? name = some id →
    n.adapter.pdus.get? name = some id ∧ name ∉ names ∧ m.adapter.heap id = n.adapter.heap id
  backed : n.Backed → m.Backed
  live : ∀ t k, m.Live t k → n.Live t k
  enabled : m.adapter.enabled = n.adapter.enabled
  isRunning : m.adapter.isRunning = n.adapter.isRunning

theorem removed_one (hp : n.Placed) (name : Text) : Removed n (n.reconcileRemove name) [name] := by
  unfold reconcileRemove
  cases hget : n.adapter.pdus.get? name with
  | none =>
      refine ⟨fun name' id h => ⟨h, ?_, rfl⟩, id, fun _ _ h => h, rfl, rfl⟩
      intro hname
      rw [List.mem_singleton.mp hname, hget] at h
      cases h
  | some id =>
      have hkeep : ∀ name' i, (n.adapter.pdus.pop name).get? name' = some i →
          n.adapter.pdus.get? name' = some i ∧ name' ≠ name ∧ i ≠ id := by
        intro name' i h
        have h' := Dict.get?_of_get?_pop h
        have hne : name' ≠ name := by
          rintro rfl
          rw [Dict.get?_pop_self] at h
          cases h
        refine ⟨h', hne, ?_⟩
        rintro rfl
        exact hne ((hp.named _ _ h').1.symm.trans (hp.named _ _ hget).1)
      have hheap : ∀ i, i ≠ id → (({ n with adapter := { n.adapter with pdus := n.adapter.pdus.pop name } } : Node).stopPollTask
          id).adapter.heap i = n.adapter.heap i := by
        intro i hi
        rw [adapter_stop]
        exact if_neg hi
      refine ⟨fun name' i h => ?_, fun hb i t hi htask => ?_, fun t k hk => (live_stop.mp hk).1, by rw [adapter_stop]; rfl,
        by rw [adapter_stop]; rfl⟩
      · rw [pdus_stop] at h
        obtain ⟨h', hne, hi⟩ := hkeep name' i h
        exact ⟨h', by simpa using hne, hheap i hi⟩
      · rw [Adapter.Current, pdus_stop] at hi
        obtain ⟨h', -, hne⟩ := hkeep _ i hi
        rw [hheap i hne] at htask h'
        obtain ⟨k, hk, hpdu⟩ := hb i t h' htask
        refine ⟨k, live_stop.mpr ⟨hk, fun hid => ?_⟩, hpdu⟩
        exact hne (hb.inj h' htask (hp.current_of_get hget) hid)

theorem removed_foldl (names : List Text) : ∀ n : Node, n.Placed → Removed n (names.foldl reconcileRemove n) names := by
  induction names with
  | nil => exact fun n _ => ⟨fun _ _ h => ⟨h, List.not_mem_nil, rfl⟩, id, fun _ _ h => h, rfl, rfl⟩
  | cons name names ih =>
      intro n hp
      have h₁ := removed_one hp name
      have h₂ := ih (n.reconcileRemove name) (hp.remove name)
      refine ⟨fun name' id h => ?_, fun hb => h₂.backed (h₁.backed hb), fun t k hk => h₁.live t k (h₂.live t k hk),
        h₂.enabled.trans h₁.enabled, h₂.isRunning.trans h₁.isRunning⟩
      obtain ⟨hget, hnot, hheap⟩ := h₂.get name' id h
      obtain ⟨hget', hnot', hheap'⟩ := h₁.get name' id hget
      exact ⟨hget', by simpa using ⟨by simpa using hnot', hnot⟩, hheap.trans hheap'⟩

theorem newByName_get {pdus : List PduConf} {name : Text} {c : PduConf} (h : (newByName pdus).get? name = some c) :
    c.name = name ∧ c ∈ pdus := by
  suffices ∀ d : Dict Text PduConf, (pdus.foldl (fun d c => if validRefToken c.name then d.set c.name c else d) d).get? name = some c →
      d.get? name = some c ∨ c.name = name ∧ c ∈ pdus from (this ∅ h).resolve_left (by simp)
  clear h
  induction pdus with
  | nil => exact fun d h => .inl h
  | cons c' pdus ih =>
      intro d h
      rw [List.foldl_cons] at h
      rcases ih _ h with h | ⟨hname, hmem⟩
      · split at h
        · by_cases hname : name = c'.name
          · subst hname
            rw [Dict.get?_set_self] at h
            cases h
            exact .inr ⟨rfl, List.mem_cons_self⟩
          · rw [Dict.get?_set_ne _ _ hname] at h
            exact .inl h
        · exact .inl h
      · exact .inr ⟨hname, List.mem_cons_of_mem _ hmem⟩

@[simp] theorem mem_sortNames {names : List Text} {name : Text} : name ∈ sortNames names ↔ name ∈ names :=
  List.mem_insertionSort _

theorem Kept.reconcile (h : n.Kept) (hop : n.operation = none) (enabled : Bool) (pdus : List PduConf)
    (hclean : n.Clean (.reconcile enabled pdus)) : (n.reconcilePorts enabled pdus).Kept := by
  have hc := h.rest hop
  have hp : ({ n with adapter := { n.adapter with enabled := enabled } } : Node).Placed := h.sound.toPlaced.congr rfl rfl rfl rfl rfl
  have hr := removed_foldl (n.removedNames (newByName pdus)) _ hp
  have hplaced := placed_removes (n.removedNames (newByName pdus)) _ hp
  cases enabled with
  | false => exact kept_disabled _ (fun x hx => mem_builds hx) _ hplaced hr.enabled
  | true =>
      have hobjects : ∀ {name : Text} {id : Nat}, n.adapter.pdus.get? name = some id → id ∈ n.adapter.objects := fun hget =>
        mem_objects_of_current (h.sound.current_of_get hget)
      refine kept_advance _ _ hplaced (.inr fun x hx => mem_builds hx) ⟨hr.backed hc.backed, fun t k hk => ?_, fun _ _ => hr.enabled,
        fun _ hrunning id hid hpos htask => ?_, fun hmode _ => ?_⟩
      · obtain ⟨-, hrunning⟩ := hc.running t k (hr.live t k hk)
        rw [hr.enabled, hr.isRunning]
        exact ⟨rfl, .inl (hrunning.resolve_right (by simp))⟩
      · obtain ⟨hget, hnot, hheap⟩ := hr.get _ id hid
        replace hrunning : n.adapter.isRunning = true := by
          have := hrunning.resolve_right (by simp)
          rwa [hr.isRunning] at this
        rw [interval, hheap] at hpos
        rw [hheap] at htask
        rw [Awaited, hheap]
        rw [hheap] at hget hnot
        have hcur : n.adapter.Current id := hget
        cases hon : n.adapter.enabled with
        | true => simpa [Awaited] using hc.awaited hon (.inl hrunning) id hcur hpos htask
        | false =>
            have hread : n.KeptRead pdus := by simpa [Clean, hon, hrunning] using hclean
            have hkey : (n.adapter.heap id).name ∈ n.adapter.pdus.keys := Dict.mem_keys.mpr ⟨id, hget⟩
            have hconf : (n.adapter.heap id).name ∈ (newByName pdus).keys := by
              by_contra hno
              exact hnot (mem_sortNames.mpr (List.mem_filter.mpr ⟨hkey, by simpa using hno⟩))
            obtain ⟨c, hc'⟩ := Dict.mem_keys.mp hconf
            cases hup : n.updatedBy c id with
            | false =>
                right; right
                refine ⟨rfl, ?_⟩
                exact (hread id (hobjects hget) c hc' hup).resolve_left (not_le.mpr hpos)
            | true =>
                right; left
                refine ⟨c, List.mem_filterMap.mpr ⟨_, List.mem_append_right _ ?_, by rw [hc']; rfl⟩, (newByName_get hc').1⟩
                refine List.mem_filter.mpr ⟨mem_sortNames.mpr (List.mem_filter.mpr ⟨hkey, by simpa using hconf⟩), ?_⟩
                simp only [hc', Option.any_some]
                rw [hget]
                exact hup
      · have hoff : n.adapter.enabled = false := by simpa using hmode
        rw [hr.isRunning]
        cases hrunning : n.adapter.isRunning with
        | true => exact .inl rfl
        | false =>
            have hun : n.Unpolled pdus := by simpa [Clean, hoff, hrunning] using hclean
            refine .inr ⟨fun id hid => ?_, fun c hc' => ?_⟩
            · obtain ⟨hget, -, hheap⟩ := hr.get _ id hid
              rw [interval, hheap]
              exact hun.1 id (hobjects hget)
            · obtain ⟨name, -, hname⟩ := List.mem_filterMap.mp hc'
              obtain ⟨c', hget, hcc⟩ := Option.map_eq_some_iff.mp hname
              cases hcc
              exact hun.2 c (newByName_get hget).2

/-! ## Steps -/

theorem Kept.of_same (h : n.Kept) (hsound : m.Sound) (hs : n.adapter.SameButReadings m.adapter)
    (hop : m.operation.map (fun o => (o.oldEnabled, o.id, o.rest)) = n.operation.map fun o => (o.oldEnabled, o.id, o.rest))
    (hreadings : ∀ id, (n.adapter.heap id).task = none →
      (n.adapter.heap id).readings.entries ≠ [] → (m.adapter.heap id).readings.entries ≠ [])
    (hlive : ∀ t k, m.Live t k → ∃ k', n.Live t k' ∧ k'.pdu = k.pdu ∧
      (k'.phase = .fresh → k.phase = .fresh ∨ n.adapter.isRunning = true))
    (hback : ∀ t k, n.Live t k → ∃ k', m.Live t k' ∧ k'.pdu = k.pdu) : m.Kept := by
  have hmode : m.operation.map Operation.oldEnabled = n.operation.map Operation.oldEnabled := by
    simpa [Option.map_map, Function.comp_def] using congrArg (Option.map Prod.fst) hop
  have htodo : (m.operation.elim [] fun o => .bring o.id :: o.rest) = n.operation.elim [] fun o => Todo.bring o.id :: o.rest := by
    have := congrArg (fun x : Option (Option Bool × Nat × List Todo) => x.elim [] fun o => Todo.bring o.2.1 :: o.2.2) hop
    simpa only [Option.elim_map, Function.comp_def] using this
  refine ⟨hsound, ?_⟩
  rw [hmode, htodo]
  exact h.covered.of hs (fun id _ => hreadings id) hlive hback

/-- A live loop goes on in another phase. -/
theorem Kept.setTask (h : n.Kept) {k : PollTask} (k' : PollTask) (hk : n.tasks t = some k) (hc : k.cancelled = false)
    (hk' : k'.pdu = k.pdu ∧ k'.cancelled = false) (hrunning : k.phase = .fresh → n.adapter.isRunning = true)
    {s : Adapter} (hs : n.adapter.SameButReadings s)
    (hreadings : ∀ id, (n.adapter.heap id).task = none → (n.adapter.heap id).readings.entries ≠ [] → (s.heap id).readings.entries ≠ []) :
    (({ n with adapter := s } : Node).setTask t (some k')).Kept := by
  have hsound : (({ n with adapter := s } : Node).setTask t (some k')).Sound := by
    apply (h.sound.adapter hs).setTask
    rintro _ ⟨⟩
    exact ⟨k, hk, hk'.1.symm, fun _ => hc⟩
  refine h.of_same hsound hs rfl hreadings (fun u j hj => ?_) fun u j hj => ?_
  · rw [live_setTask] at hj
    split at hj
    · rename_i hut
      subst hut
      obtain ⟨hj, -⟩ := hj
      cases hj
      exact ⟨k, ⟨hk, hc⟩, hk'.1.symm, fun hfresh => .inr (hrunning hfresh)⟩
    · exact ⟨j, hj, rfl, .inl⟩
  · by_cases hut : u = t
    · subst hut
      refine ⟨k', live_setTask.mpr (by simp [hk'.2]), hk'.1.trans ?_⟩
      rw [Option.some.inj (hk.symm.trans hj.1)]
    · exact ⟨j, live_setTask.mpr (by rw [if_neg hut]; exact hj), rfl⟩

theorem entries_ne_nil {d : Dict Text OutletReading} : d.entries ≠ [] ↔ ∃ o, d.get? o ≠ none := by
  constructor
  · intro h
    obtain ⟨e, he⟩ := List.exists_mem_of_ne_nil _ h
    exact ⟨e.1, by rw [Dict.mem_entries.mp he]; simp⟩
  · rintro ⟨o, ho⟩ hnil
    obtain ⟨r, hr⟩ := Option.ne_none_iff_exists'.mp ho
    have := Dict.mem_entries.mpr hr
    rw [hnil] at this
    cases this

theorem readings_discover {ids : List Text} {i : Nat} (h : (n.adapter.heap i).readings.entries ≠ []) :
    ((n.adapter.discover id ids).heap i).readings.entries ≠ [] := by
  obtain ⟨o, ho⟩ := entries_ne_nil.mp h
  refine entries_ne_nil.mpr ⟨o, ?_⟩
  by_cases hi : i = id
  · subst hi
    simp [Adapter.discover, Adapter.get?_discover, ho]
  · rwa [Adapter.discover, Adapter.heap_setObj_ne hi]

theorem readings_finish {pduName outletId ref : Text} {on : Bool} {user clientId : Option Text} {impact : Adapter.Impact}
    {reading : OutletReading} {i : Nat} (h : (n.adapter.heap i).readings.entries ≠ []) :
    ((n.adapter.finishSetOutlet id pduName outletId ref on user clientId impact reading).heap i).readings.entries ≠ [] := by
  rw [Adapter.heap_finish]
  split
  · exact entries_ne_nil.mpr ⟨outletId, by simp⟩
  · exact h

theorem noted_of_task (id : Nat) (outletId : Text) (h : n.tasks t = some k) :
    ∃ k', (n.noteSwitched id outletId).tasks t = some k' ∧ k'.pdu = k.pdu ∧ k'.cancelled = k.cancelled := by
  refine ⟨_, Option.map_eq_some_iff.mpr ⟨k, h, rfl⟩, ?_⟩
  split
  · split <;> exact ⟨rfl, rfl⟩
  · exact ⟨rfl, rfl⟩

theorem operation_noted {outletId : Text} : (n.noteSwitched id outletId).operation.map (fun o => (o.oldEnabled, o.id, o.rest)) =
    n.operation.map fun o => (o.oldEnabled, o.id, o.rest) := by
  unfold noteSwitched
  rw [Option.map_map]
  refine Option.map_congr fun o _ => ?_
  dsimp only [Function.comp_apply]
  split
  · split <;> rfl
  · rfl

/-- A step that meets the condition leaves every PDU with its loop. -/
theorem kept_step {a : Act} (h : n.Kept) (hclean : n.Clean a) (hstep : n.step a = some m) : m.Kept := by
  have hsound : m.Sound := sound_step h.sound hstep
  cases step_cases hstep with
  | start pdus hop => exact h.start hop pdus
  | stop hop => exact h.stop hop
  | reconcile enabled pdus hop => exact h.reconcile hop enabled pdus hclean
  | @lost old id rest hop =>
      have hs : n.adapter.SameButReadings (n.adapter.setObj id { n.adapter.heap id with online := some false }) := .setObj rfl rfl rfl
      obtain ⟨-, hrest⟩ := h.sound.head _ hop
      have hc : n.Covered (some old) (.bring id :: rest) := by
        have := h.covered
        rwa [hop] at this
      have hdrop : n.Covered (some old) rest := by
        refine hc.drop fun hrunning hpos hnone => ?_
        have hspared : n.interval id ≤ 0 ∨ (n.adapter.heap id).task ≠ none ∨ old.isSome = true ∧ n.adapter.isRunning = false :=
          hclean _ hop
        rcases hspared with hle | hne | ⟨hsome, hoff⟩
        · exact absurd hpos (not_lt.mpr hle)
        · exact absurd hnone hne
        · rcases hrunning with hrunning | hmode
          · simp [hoff] at hrunning
          · cases hmode
            cases hsome
      refine kept_advance _ _ (h.sound.toPlaced.adapter hs) (hrest.congr fun i => (Adapter.current_congr hs.pdus hs.name).mpr) ?_
      refine hdrop.of hs (fun i _ _ hr => ?_) (fun t k hk => ⟨k, hk, rfl, .inl⟩) fun t k hk => ⟨k, hk, rfl⟩
      by_cases hi : i = id <;> simpa [hi] using hr
  | @found old id rest ids hop =>
      refine h.of_same hsound (Adapter.sameButReadings_discover n.adapter id ids) (by rw [hop]; rfl)
        (fun i _ hr => readings_discover hr) (fun t k hk => ⟨k, hk, rfl, .inl⟩) fun t k hk => ⟨k, hk, rfl⟩
  | @brought old id switched rest result hop =>
      obtain ⟨hcur, hrest⟩ := h.sound.head _ hop
      have hc : n.Covered (some old) (.bring id :: rest) := by
        have := h.covered
        rwa [hop] at this
      have hs := Adapter.sameButReadings_refresh n.adapter id result
      have hcur' : ∀ i, n.adapter.Current i → (n.adapter.refreshReadings id result).Current i := fun i =>
        (Adapter.current_congr hs.pdus hs.name).mpr
      have hp := h.sound.toPlaced.adapter hs
      have hread : ({ n with adapter := n.adapter.refreshReadings id result } : Node).Covered (some old) (.bring id :: rest) := by
        refine hc.of hs (fun i hi _ hr => ?_) (fun t k hk => ⟨k, hk, rfl, .inl⟩) fun t k hk => ⟨k, hk, rfl⟩
        have hne : i ≠ id := by
          rintro rfl
          exact hi List.mem_cons_self
        rwa [Adapter.heap_refresh_ne result hne]
      have hstart : old = none ∨ n.adapter.isRunning = true ∨ n.interval id ≤ 0 ∨ (n.adapter.heap id).task ≠ none := hclean _ hop
      refine kept_advance _ _ (hp.start (hcur' id hcur)) (hrest.congr fun i hi => ?_) (hread.start hp (hcur' id hcur) ?_)
      · obtain ⟨he, -⟩ | ⟨-, -, he⟩ := start_cases ({ n with adapter := n.adapter.refreshReadings id result } : Node) id
        · rw [he]
          exact hcur' i hi
        · rw [he]
          exact Adapter.current_setObj rfl (hcur' i hi)
      · rw [hs.isRunning, hs.task, interval, hs.material]
        exact hstart.imp_left (congrArg some)
  | @begin t id ht =>
      obtain ⟨hcur, -⟩ := h.sound.live t _ ⟨ht, rfl⟩
      have hrunning : n.adapter.isRunning = true := hclean
      rw [loopOn, if_pos ⟨hrunning, hcur⟩]
      exact h.setTask ⟨id, .sleeping, false⟩ ht rfl ⟨rfl, rfl⟩ (fun _ => hrunning) (.refl _) fun _ _ hr => hr
  | @wake t id ht =>
      obtain ⟨hcur, -⟩ := h.sound.live t _ ⟨ht, rfl⟩
      rw [if_pos hcur]
      exact h.setTask ⟨id, .reading [], false⟩ ht rfl ⟨rfl, rfl⟩ (fun hfresh => by cases hfresh) (.refl _) fun _ _ hr => hr
  | @polled t id switched result ht =>
      obtain ⟨hcur, htask⟩ := h.sound.live t _ ⟨ht, rfl⟩
      have hs := Adapter.sameButReadings_refresh n.adapter id result
      have hrunning : n.adapter.isRunning = true := by
        obtain ⟨-, hrunning⟩ := h.covered.running t _ ⟨ht, rfl⟩
        refine hrunning.resolve_right ?_
        rintro ⟨-, hfresh⟩
        cases hfresh
      rw [loopOn, if_pos ⟨hs.isRunning.trans hrunning, (Adapter.current_congr hs.pdus hs.name).mpr hcur⟩]
      refine h.setTask ⟨id, .sleeping, false⟩ ht rfl ⟨rfl, rfl⟩ (fun hfresh => by cases hfresh) hs fun i hi hr => ?_
      have hne : i ≠ id := by
        rintro rfl
        rw [hi] at htask
        cases htask
      rwa [Adapter.heap_refresh_ne result hne]
  | @unwind t id phase ht =>
      have hdead : ∀ j, ¬ n.Live t j := by
        rintro j ⟨hj, hc⟩
        rw [ht] at hj
        cases hj
        cases hc
      refine h.of_same hsound (.refl _) rfl (fun _ _ hr => hr) (fun u j hj => ?_) fun u j hj => ?_
      · rw [live_setTask] at hj
        split at hj
        · exact absurd hj.1 (by simp)
        · exact ⟨j, hj, rfl, .inl⟩
      · have hut : u ≠ t := by
          rintro rfl
          exact hdead j hj
        exact ⟨j, live_setTask.mpr (by rwa [if_neg hut]), rfl⟩
  | setOutlet hw => exact h.of_same hsound (.refl _) rfl (fun _ _ hr => hr) (fun t k hk => ⟨k, hk, rfl, .inl⟩) fun t k hk => ⟨k, hk, rfl⟩
  | refused hw => exact h.of_same hsound (.refl _) rfl (fun _ _ hr => hr) (fun t k hk => ⟨k, hk, rfl, .inl⟩) fun t k hk => ⟨k, hk, rfl⟩
  | @switched i w r hw =>
      have hs := Adapter.sameButReadings_finish n.adapter w.id w.pduName w.outletId w.ref w.on w.user w.clientId w.impact r
      refine h.of_same hsound hs ?_ (fun j _ hr => ?_) (fun t k hk => ?_) fun t k hk => ?_
      · exact operation_noted
      · exact readings_finish hr
      · obtain ⟨k', hk', hpdu, hc, hphase⟩ := live_note hk.1
        exact ⟨k', ⟨hk', hc.trans hk.2⟩, hpdu, fun hf => .inl (hphase.mp hf)⟩
      · obtain ⟨k', hk', hpdu, hc⟩ := noted_of_task w.id w.outletId hk.1
        exact ⟨k', ⟨hk', hc.trans hk.2⟩, hpdu⟩
  | register ports =>
      have hs : n.adapter.SameButReadings { n.adapter with ports := ports } :=
        ⟨rfl, rfl, rfl, rfl, fun _ => rfl, fun _ => rfl, fun _ => rfl⟩
      exact h.of_same hsound hs rfl (fun _ _ hr => hr) (fun t k hk => ⟨k, hk, rfl, .inl⟩) fun t k hk => ⟨k, hk, rfl⟩

theorem sound_fresh {enabled : Bool} {ports : Dict Text ConsolePort} : (fresh enabled ports).Sound where
  named name id h := by cases h
  live t k h := by cases h.1
  bound t k h := by cases h
  head o h := by cases h

theorem kept_fresh {enabled : Bool} {ports : Dict Text ConsolePort} : (fresh enabled ports).Kept where
  sound := sound_fresh
  covered :=
    { backed := by intro id t h; cases h
      running := by intro t k h; cases h.1
      waiting := by intro id h; cases h
      awaited := by intro _ _ id h; cases h
      idle := by intro h; cases h }

end OpenMux.Pdu.Node
