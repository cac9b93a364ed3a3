import OpenMux.Initiator.Demand

/-!
# What the tasks of a port do
-/

namespace OpenMux.Initiator

namespace Demand

open Transition

variable {cfg : DemandConfig} {s t : Demand} {i k n : ℕ}

/-! ## Single runs -/

theorem mem_set_of_mem {α : Type} {l : List α} {x y z : α} (h : y ∈ l) (hk : l[k]? = some z) : y = z ∨ y ∈ l.set k x := by
  obtain ⟨j, hj⟩ := List.mem_iff_getElem?.mp h
  by_cases hjk : j = k
  · subst hjk
    exact .inl (Option.some.inj (hj.symm.trans hk))
  · right
    rw [List.mem_iff_getElem?]
    exact ⟨j, by rw [List.getElem?_set_ne (Ne.symm hjk), hj]⟩

theorem getElem?_setManager (phase : ManagerPhase) (hi : i < s.managers.length) (j : ℕ) :
    (s.setManager i phase).managers[j]? = if j = i then some ⟨phase, false⟩ else s.managers[j]? := by
  by_cases hj : j = i
  · subst hj
    rw [if_pos rfl]
    exact List.getElem?_set_self hi
  · rw [if_neg hj]
    exact List.getElem?_set_ne (Ne.symm hj)

theorem running_some (h : s.running = some i) : s.reconnectTask = some i ∧ ∃ m, s.managers[i]? = some m ∧ m.phase ≠ .done := by
  obtain ⟨hi, hm⟩ := Option.filter_eq_some_iff.mp h
  obtain ⟨m, hm, hphase⟩ := (Option.any_eq_true _ _).mp hm
  exact ⟨hi, m, hm, by simpa using hphase⟩

theorem running_none (h : s.running = none) (hi : s.reconnectTask = some i) {m : Task ManagerPhase} (hm : s.managers[i]? = some m) :
    m.phase = .done := by
  have h := Option.filter_eq_none_iff.mp h i hi
  simpa [hm] using h

/-- What a manager does when it is run, where lost connections are opened again. -/
theorem runManager_cases (hauto : cfg.autoReconnect = true) {connected : Bool} (h : s.runManager cfg i connected = some t) :
    ∃ m, s.managers[i]? = some m ∧ m.phase ≠ .done ∧
      (m.cancelled = true ∧ t = s.setManager i .done ∨ m.cancelled = false ∧
        ((∃ phase, phase ≠ .done ∧ t = s.setManager i phase) ∨
          (∃ retry, m.phase = .connecting retry) ∧ connected = true ∧ t = { s.setManager i .monitoring with isConnected := true } ∨
          t = s ∨
          m.phase = .monitoring ∧ s.isConnected = false ∧ cfg.connectOnDemand = true ∧ s.activeClients = 0 ∧ t = s.setManager i .done)) := by
  unfold runManager at h
  have hafter : afterConnect cfg = .monitoring := if_pos hauto
  split at h
  · cases h
  · cases h
  · rename_i phase hdone hm
    cases h
    exact ⟨_, hm, hdone, .inl ⟨rfl, rfl⟩⟩
  · rename_i hm
    cases h
    refine ⟨_, hm, nofun, .inr ⟨rfl, .inl ⟨_, ?_, rfl⟩⟩⟩
    rw [hafter]
    split <;> exact ManagerPhase.noConfusion
  · rename_i retry hm
    split at h <;> cases h
    · rw [hafter]
      exact ⟨_, hm, nofun, .inr ⟨rfl, .inr (.inl ⟨⟨retry, rfl⟩, ‹_›, rfl⟩)⟩⟩
    · refine ⟨_, hm, nofun, .inr ⟨rfl, .inl ⟨_, ?_, rfl⟩⟩⟩
      rw [hafter]
      split <;> exact ManagerPhase.noConfusion
  · rename_i hm
    split at h <;> cases h
    · exact ⟨_, hm, nofun, .inr ⟨rfl, .inr (.inr (.inl rfl))⟩⟩
    · rename_i hdown
      by_cases hleft : cfg.connectOnDemand && s.activeClients = 0
      · rw [if_pos hleft]
        obtain ⟨hon, hzero⟩ := Bool.and_eq_true_iff.mp hleft
        exact ⟨_, hm, nofun, .inr ⟨rfl, .inr (.inr (.inr ⟨rfl, Bool.not_eq_true _ ▸ hdown, hon, of_decide_eq_true hzero, rfl⟩))⟩⟩
      · rw [if_neg hleft]
        exact ⟨_, hm, nofun, .inr ⟨rfl, .inl ⟨.connecting true, nofun, rfl⟩⟩⟩
  · rename_i hm
    cases h
    exact ⟨_, hm, nofun, .inr ⟨rfl, .inl ⟨.monitoring, nofun, rfl⟩⟩⟩

/-- What an idle disconnect does when it is run. -/
theorem runIdle_cases (h : s.runIdle k = some t) : ∃ x, s.idles[k]? = some x ∧
    (x.phase = .sleeping ∧ (x.cancelled = true ∨ s.activeClients ≠ 0) ∧ t = s.setIdle k .done ∨
      x = ⟨.sleeping, false⟩ ∧ s.activeClients = 0 ∧ (∃ i, s.running = some i ∧
        t = { s.setIdle k (.stopping i) with managers := s.managers.modify i fun m => { m with cancelled := true } }) ∨
      x = ⟨.sleeping, false⟩ ∧ s.activeClients = 0 ∧ s.running = none ∧ t = s.beginDisconnect k ∨
      (∃ i m, x.phase = .stopping i ∧ s.managers[i]? = some m ∧ m.phase = .done ∧
        t = { s with reconnectTask := none }.beginDisconnect k) ∨
      x.phase = .closing ∧ t = { s.setIdle k .done with isConnected := false }) := by
  unfold runIdle at h
  split at h
  · cases h
  · cases h
  · rename_i hx
    cases h
    exact ⟨_, hx, .inl ⟨rfl, .inl rfl, rfl⟩⟩
  · rename_i hx
    split at h
    · cases h
      exact ⟨_, hx, .inl ⟨rfl, .inr ‹_›, rfl⟩⟩
    · rename_i hzero
      have hzero : s.activeClients = 0 := not_not.mp hzero
      split at h <;> cases h
      · exact ⟨_, hx, .inr (.inl ⟨rfl, hzero, _, ‹_›, rfl⟩)⟩
      · exact ⟨_, hx, .inr (.inr (.inl ⟨rfl, hzero, ‹_›, rfl⟩))⟩
  · rename_i i cancelled hx
    split at h
    · rename_i hdone
      cases h
      obtain ⟨m, hm, hphase⟩ := (Option.any_eq_true _ _).mp hdone
      exact ⟨_, hx, .inr (.inr (.inr (.inl ⟨i, m, rfl, hm, of_decide_eq_true hphase, rfl⟩)))⟩
    · cases h
  · rename_i hx
    cases h
    exact ⟨_, hx, .inr (.inr (.inr (.inr ⟨rfl, rfl⟩)))⟩

/-- A timer that is cancelled stays where it is. -/
theorem cancelIdle_cases (s : Demand) : s.cancelIdle = s ∨ ∃ k x, s.idles[k]? = some x ∧ x.phase ≠ .done ∧
    s.cancelIdle = { s with idles := s.idles.set k { x with cancelled := true }, idleDisconnectTask := none } := by
  unfold cancelIdle
  split
  · exact .inl rfl
  · split
    · exact .inl rfl
    · rename_i x hx
      split
      · exact .inl rfl
      · exact .inr ⟨_, x, hx, ‹_›, rfl⟩

@[simp] theorem managers_cancelIdle (s : Demand) : s.cancelIdle.managers = s.managers := by
  obtain h | ⟨_, _, -, -, h⟩ := s.cancelIdle_cases <;> rw [h]

@[simp] theorem reconnectTask_cancelIdle (s : Demand) : s.cancelIdle.reconnectTask = s.reconnectTask := by
  obtain h | ⟨_, _, -, -, h⟩ := s.cancelIdle_cases <;> rw [h]

@[simp] theorem isConnected_cancelIdle (s : Demand) : s.cancelIdle.isConnected = s.isConnected := by
  obtain h | ⟨_, _, -, -, h⟩ := s.cancelIdle_cases <;> rw [h]

@[simp] theorem activeClients_cancelIdle (s : Demand) : s.cancelIdle.activeClients = s.activeClients := by
  obtain h | ⟨_, _, -, -, h⟩ := s.cancelIdle_cases <;> rw [h]

@[simp] theorem running_cancelIdle (s : Demand) : s.cancelIdle.running = s.running := by simp [running]

theorem phase_cancelIdle {x : Task IdlePhase} (h : x ∈ s.cancelIdle.idles) : ∃ y ∈ s.idles, y.phase = x.phase := by
  obtain hs | ⟨k, y, hy, -, hs⟩ := s.cancelIdle_cases <;> rw [hs] at h
  · exact ⟨x, h, rfl⟩
  · obtain h | rfl := List.mem_or_eq_of_mem_set h
    · exact ⟨x, h, rfl⟩
    · exact ⟨y, List.mem_of_getElem? hy, rfl⟩

theorem cancelIdle_phase {x : Task IdlePhase} (h : x ∈ s.idles) : ∃ y ∈ s.cancelIdle.idles, y.phase = x.phase := by
  obtain hs | ⟨k, y, hy, -, hs⟩ := s.cancelIdle_cases <;> rw [hs]
  · exact ⟨x, h, rfl⟩
  · obtain rfl | h := mem_set_of_mem h hy
    · exact ⟨_, List.mem_set (List.getElem?_eq_some_iff.mp hy).1 _, rfl⟩
    · exact ⟨x, h, rfl⟩

theorem UnderWay.congr {x y : Task IdlePhase} (h : UnderWay x) (hphase : y.phase = x.phase) : UnderWay y := by
  rw [UnderWay, hphase]
  exact h

/-! ## Managers that are tended -/

/-- Where no client comes while an idle disconnect is under way: what the tasks have to do with each other. -/
structure Settled (cfg : DemandConfig) (s : Demand) : Prop where
  left : ∀ x ∈ s.idles, UnderWay x → s.activeClients = 0
  stopped : ∀ i m, s.managers[i]? = some m → m.cancelled = true → m.phase ≠ .done → ∃ x ∈ s.idles, x.phase = .stopping i
  single : ∀ i m, s.managers[i]? = some m → m.phase ≠ .done → s.reconnectTask = some i
  stopping : ∀ x ∈ s.idles, ∀ i, x.phase = .stopping i → s.reconnectTask = some i ∨ s.reconnectTask = none
  halted : ∀ x ∈ s.idles, ∀ i, x.phase = .stopping i → ∃ m, s.managers[i]? = some m ∧ (m.cancelled = true ∨ m.phase = .done)
  closing : ∀ x ∈ s.idles, x.phase = .closing → s.Over
  connected : s.isConnected = true → s.Managed ∨ ∃ x ∈ s.idles, UnderWay x
  always : cfg.connectOnDemand = false → s.idles = []

/-- And whoever is to have a connection has a manager. -/
structure Tended (cfg : DemandConfig) (s : Demand) : Prop extends Settled cfg s where
  wanted : s.Wanted cfg → s.Managed

theorem managed_startManager (s : Demand) : s.startManager.Managed :=
  ⟨_, ⟨.created, false⟩, rfl, List.getElem?_concat_length, nofun, rfl⟩

theorem getElem?_startManager {m : Task ManagerPhase} (hm : s.startManager.managers[i]? = some m) :
    s.managers[i]? = some m ∨ i = s.managers.length ∧ m = ⟨.created, false⟩ := by
  have hm : (s.managers ++ [⟨.created, false⟩])[i]? = some m := hm
  by_cases hi : i < s.managers.length
  · rw [List.getElem?_append_left hi] at hm
    exact .inl hm
  · rw [List.getElem?_append_right (Nat.le_of_not_lt hi)] at hm
    have hlt := (List.getElem?_eq_some_iff.mp hm).1
    have hi : i = s.managers.length := by
      simp only [List.length_singleton] at hlt
      omega
    subst hi
    simp only [Nat.sub_self, List.getElem?_cons_zero, Option.some.injEq] at hm
    exact .inr ⟨rfl, hm.symm⟩

theorem Managed.of_running (h : s.Settled cfg) (hidle : ∀ x ∈ s.idles, ¬ UnderWay x) (hi : s.running = some i) : s.Managed := by
  obtain ⟨hi, m, hm, hphase⟩ := running_some hi
  refine ⟨i, m, hi, hm, hphase, Bool.eq_false_iff.mpr fun hc => ?_⟩
  obtain ⟨x, hx, hstop⟩ := h.stopped i m hm hc hphase
  exact hidle x hx (by simp [UnderWay, hstop])

/-- A manager is started where none runs and no idle disconnect is under way. -/
theorem Settled.startManager (h : s.Settled cfg) (hidle : ∀ x ∈ s.idles, ¬ UnderWay x) (hnone : s.running = none) :
    s.startManager.Settled cfg where
  left := h.left
  stopped i m hm hc hphase := by
    obtain hm | ⟨-, rfl⟩ := getElem?_startManager hm
    · exact h.stopped i m hm hc hphase
    · cases hc
  single i m hm hphase := by
    obtain hm | ⟨rfl, -⟩ := getElem?_startManager hm
    · exact absurd (running_none hnone (h.single i m hm hphase) hm) hphase
    · rfl
  stopping x hx i hphase := absurd (by simp [UnderWay, hphase]) (hidle x hx)
  halted x hx i hphase := absurd (by simp [UnderWay, hphase]) (hidle x hx)
  closing x hx hphase := absurd (by simp [UnderWay, hphase]) (hidle x hx)
  connected _ := .inl s.managed_startManager
  always := h.always

theorem Settled.startIdle (h : s.Settled cfg) (hon : cfg.connectOnDemand = true) : s.startIdle.Settled cfg where
  left x hx hunder := by
    obtain hx | hx := List.mem_append.mp hx
    · exact h.left x hx hunder
    · cases List.mem_singleton.mp hx
      exact absurd rfl hunder.1
  stopped i m hm hc hphase := by
    obtain ⟨x, hx, hstop⟩ := h.stopped i m hm hc hphase
    exact ⟨x, List.mem_append_left _ hx, hstop⟩
  single := h.single
  stopping x hx i hphase := by
    obtain hx | hx := List.mem_append.mp hx
    · exact h.stopping x hx i hphase
    · cases List.mem_singleton.mp hx
      cases hphase
  halted x hx i hphase := by
    obtain hx | hx := List.mem_append.mp hx
    · exact h.halted x hx i hphase
    · cases List.mem_singleton.mp hx
      cases hphase
  closing x hx hphase := by
    obtain hx | hx := List.mem_append.mp hx
    · exact h.closing x hx hphase
    · cases List.mem_singleton.mp hx
      cases hphase
  connected hup := by
    obtain hm | ⟨x, hx, hunder⟩ := h.connected hup
    · exact .inl hm
    · exact .inr ⟨x, List.mem_append_left _ hx, hunder⟩
  always hoff := absurd (hon.symm.trans hoff) nofun

/-- The new count is noted and the timer is cancelled. -/
theorem Settled.recount (h : s.Settled cfg) (hmean : 0 < n → ∀ x ∈ s.idles, ¬ UnderWay x) :
    ({ s with activeClients := n } : Demand).cancelIdle.Settled cfg where
  left x hx hunder := by
    obtain ⟨y, hy, hphase⟩ := phase_cancelIdle hx
    rw [activeClients_cancelIdle]
    by_contra hne
    exact hmean (Nat.pos_of_ne_zero hne) y hy (hunder.congr hphase)
  stopped i m hm hc hphase := by
    obtain ⟨x, hx, hstop⟩ := h.stopped i m (by simpa using hm) hc hphase
    obtain ⟨y, hy, hyx⟩ := cancelIdle_phase (s := { s with activeClients := n }) hx
    exact ⟨y, hy, hyx.trans hstop⟩
  single i m hm hphase := by
    rw [reconnectTask_cancelIdle]
    exact h.single i m (by simpa using hm) hphase
  stopping x hx i hphase := by
    obtain ⟨y, hy, hyx⟩ := phase_cancelIdle hx
    rw [reconnectTask_cancelIdle]
    exact h.stopping y hy i (hyx.trans hphase)
  halted x hx i hphase := by
    obtain ⟨y, hy, hyx⟩ := phase_cancelIdle hx
    rw [managers_cancelIdle]
    exact h.halted y hy i (hyx.trans hphase)
  closing x hx hphase := by
    obtain ⟨y, hy, hyx⟩ := phase_cancelIdle hx
    rw [Over, managers_cancelIdle]
    exact h.closing y hy (hyx.trans hphase)
  connected hup := by
    obtain ⟨i, m, hi, hm, hlive⟩ | ⟨x, hx, hunder⟩ := h.connected (by simpa using hup)
    · exact .inl ⟨i, m, by simpa using hi, by simpa using hm, hlive⟩
    · obtain ⟨y, hy, hyx⟩ := cancelIdle_phase (s := { s with activeClients := n }) hx
      exact .inr ⟨y, hy, hunder.congr hyx⟩
  always hoff := by
    have hnil := h.always hoff
    obtain hs | ⟨k, x, hx, -⟩ := ({ s with activeClients := n } : Demand).cancelIdle_cases
    · rw [hs]
      exact hnil
    · have hx : s.idles[k]? = some x := hx
      rw [hnil, List.getElem?_nil] at hx
      cases hx

theorem tended_start (cfg : DemandConfig) : (start cfg).Tended cfg := by
  have hempty : ({} : Demand).Settled cfg := ⟨nofun, nofun, nofun, nofun, nofun, nofun, nofun, fun _ => rfl⟩
  unfold start
  split
  · exact ⟨hempty.startManager nofun rfl, fun _ => managed_startManager {}⟩
  · rename_i hoff
    refine ⟨hempty, fun hw => ?_⟩
    exfalso
    unfold Wanted at hw
    split at hw
    · cases hw
    · simp_all

theorem Tended.clientCount (h : s.Tended cfg) (hmean : 0 < n → ∀ x ∈ s.idles, ¬ UnderWay x) :
    (s.onClientCountChanged cfg n).Tended cfg := by
  unfold onClientCountChanged
  cases hon : cfg.connectOnDemand with
  | false =>
      have hnil := h.always hon
      have hw : s.Wanted cfg ↔ ({ s with activeClients := n } : Demand).Wanted cfg := by simp [Wanted, hon]
      refine ⟨⟨fun x hx => ?_, h.stopped, h.single, h.stopping, h.halted, h.closing, h.connected, h.always⟩,
        fun hw' => h.wanted (hw.mpr hw')⟩
      exact absurd (show x ∈ s.idles from hx) (by simp [hnil])
  | true =>
      have hs := h.toSettled.recount hmean
      have hwants : ∀ u : Demand, u.activeClients = n → (u.Wanted cfg ↔ 0 < n) := by
        intro u hu
        rw [Wanted, if_pos hon, hu]
      by_cases hpos : 0 < n
      · have hidle : ∀ x ∈ ({ s with activeClients := n } : Demand).cancelIdle.idles, ¬ UnderWay x := by
          intro x hx hunder
          obtain ⟨y, hy, hphase⟩ := phase_cancelIdle hx
          exact hmean hpos y hy (hunder.congr hphase)
        simp only [Bool.not_true, Bool.false_eq_true, ↓reduceIte, hpos]
        generalize ({ s with activeClients := n } : Demand).cancelIdle = u at hs hidle
        split
        · rename_i hdown
          obtain ⟨-, hnone⟩ := Bool.and_eq_true_iff.mp hdown
          exact ⟨hs.startManager hidle (Option.isNone_iff_eq_none.mp hnone), fun _ => u.managed_startManager⟩
        · rename_i hdown
          refine ⟨hs, fun _ => ?_⟩
          cases hup : u.isConnected with
          | true =>
              obtain hm | ⟨x, hx, hunder⟩ := hs.connected hup
              · exact hm
              · exact absurd hunder (hidle x hx)
          | false =>
              cases hrun : u.running with
              | none => simp [hup, hrun] at hdown
              | some i => exact Managed.of_running hs hidle hrun
      · have hcount : ({ s with activeClients := n } : Demand).cancelIdle.activeClients = n := activeClients_cancelIdle _
        simp only [Bool.not_true, Bool.false_eq_true, ↓reduceIte, hpos]
        generalize ({ s with activeClients := n } : Demand).cancelIdle = u at hs hcount
        split
        · exact ⟨hs.startIdle hon, fun hw => absurd ((hwants u.startIdle hcount).mp hw) hpos⟩
        · exact ⟨hs, fun hw => absurd ((hwants u hcount).mp hw) hpos⟩

/-- A manager that is run goes on or is done. -/
theorem Settled.setManager (h : s.Settled cfg) {m : Task ManagerPhase} (hm : s.managers[i]? = some m) (hlive : m.phase ≠ .done)
    {phase : ManagerPhase} (hcancel : m.cancelled = true → phase = .done)
    (hphase : phase ≠ .done ∨ m.cancelled = true ∨ s.isConnected = false) : (s.setManager i phase).Settled cfg := by
  have hi : i < s.managers.length := (List.getElem?_eq_some_iff.mp hm).1
  refine ⟨h.left, ?_, ?_, h.stopping, ?_, ?_, ?_, h.always⟩
  · intro j x hx hc hlive'
    rw [getElem?_setManager phase hi] at hx
    split at hx
    · cases hx
      cases hc
    · exact h.stopped j x hx hc hlive'
  · intro j x hx hlive'
    rw [getElem?_setManager phase hi] at hx
    split at hx
    · rename_i hj
      exact hj ▸ h.single i m hm hlive
    · exact h.single j x hx hlive'
  · intro x hx j hxj
    obtain ⟨m', hm', hhalted⟩ := h.halted x hx j hxj
    rw [getElem?_setManager phase hi]
    by_cases hji : j = i
    · subst hji
      rw [if_pos rfl]
      cases hm.symm.trans hm'
      obtain hc | hdone := hhalted
      · exact ⟨_, rfl, .inr (hcancel hc)⟩
      · exact absurd hdone hlive
    · rw [if_neg hji]
      exact ⟨m', hm', hhalted⟩
  · intro x hx hclose
    exact absurd (h.closing x hx hclose m (List.mem_of_getElem? hm)) hlive
  · intro hup
    obtain ⟨j, x, hj, hx, hxlive, hxc⟩ | hidle := h.connected hup
    · by_cases hji : j = i
      · subst hji
        cases hm.symm.trans hx
        obtain hphase | hc | hdown := hphase
        · exact .inl ⟨j, ⟨phase, false⟩, hj, by rw [getElem?_setManager phase hi, if_pos rfl], hphase, rfl⟩
        · cases hxc.symm.trans hc
        · cases hdown.symm.trans hup
      · exact .inl ⟨j, x, hj, by rw [getElem?_setManager phase hi, if_neg hji, hx], hxlive, hxc⟩
    · exact .inr hidle

theorem managed_setManager (h : s.Settled cfg) {m : Task ManagerPhase} (hm : s.managers[i]? = some m) (hlive : m.phase ≠ .done)
    {phase : ManagerPhase} (hphase : phase ≠ .done) : (s.setManager i phase).Managed :=
  ⟨i, ⟨phase, false⟩, h.single i m hm hlive,
    by rw [getElem?_setManager phase (List.getElem?_eq_some_iff.mp hm).1, if_pos rfl], hphase, rfl⟩

theorem Tended.runManager (h : s.Tended cfg) (hauto : cfg.autoReconnect = true) {connected : Bool}
    (hs : s.runManager cfg i connected = some t) : t.Tended cfg := by
  obtain ⟨m, hm, hlive, ⟨hc, rfl⟩ | ⟨hc, ⟨phase, hphase, rfl⟩ | ⟨-, -, rfl⟩ | rfl | ⟨-, hdown, hon, hzero, rfl⟩⟩⟩ := runManager_cases hauto hs
  · refine ⟨h.toSettled.setManager hm hlive (fun _ => rfl) (.inr (.inl hc)), fun hw => ?_⟩
    obtain ⟨j, x, hj, hx, hxlive, hxc⟩ := h.wanted hw
    cases (h.single i m hm hlive).symm.trans hj
    cases hm.symm.trans hx
    cases hxc.symm.trans hc
  · exact ⟨h.toSettled.setManager hm hlive (by simp [hc]) (.inl hphase), fun _ => managed_setManager h.toSettled hm hlive hphase⟩
  · have hmanaged : (s.setManager i .monitoring).Managed := managed_setManager h.toSettled hm hlive nofun
    have hset : (s.setManager i .monitoring).Settled cfg := h.toSettled.setManager hm hlive (by simp [hc]) (.inl nofun)
    exact ⟨⟨hset.left, hset.stopped, hset.single, hset.stopping, hset.halted, hset.closing, fun _ => .inl hmanaged, hset.always⟩,
      fun _ => hmanaged⟩
  · exact h
  · refine ⟨h.toSettled.setManager hm hlive (fun _ => rfl) (.inr (.inr hdown)), fun hw => ?_⟩
    have hpos : 0 < s.activeClients := by simpa [Wanted, hon, setManager] using hw
    omega

/-- An idle disconnect that is over, or goes on to close the connection. -/
theorem Settled.setIdle (h : s.Settled cfg) {x : Task IdlePhase} (hx : s.idles[k]? = some x)
    (hstop : ∀ i, x.phase = .stopping i → ∀ m, s.managers[i]? = some m → m.phase = .done) {phase : IdlePhase}
    (hphase : phase = .closing ∧ s.activeClients = 0 ∧ s.Over ∨
      phase = .done ∧ (x.phase = .sleeping ∨ s.isConnected = false)) : (s.setIdle k phase).Settled cfg := by
  have hk : k < s.idles.length := (List.getElem?_eq_some_iff.mp hx).1
  refine ⟨?_, ?_, h.single, ?_, ?_, ?_, ?_, ?_⟩
  · intro y hy hunder
    obtain hy | rfl := List.mem_or_eq_of_mem_set hy
    · exact h.left y hy hunder
    · obtain ⟨-, hzero, -⟩ | ⟨rfl, -⟩ := hphase
      · exact hzero
      · exact absurd rfl hunder.2
  · intro i m hm hc hlive
    obtain ⟨y, hy, hyi⟩ := h.stopped i m hm hc hlive
    obtain rfl | hy := mem_set_of_mem (x := ⟨phase, false⟩) hy hx
    · exact absurd (hstop i hyi m hm) hlive
    · exact ⟨y, hy, hyi⟩
  · intro y hy i hyi
    obtain hy | rfl := List.mem_or_eq_of_mem_set hy
    · exact h.stopping y hy i hyi
    · obtain ⟨rfl, -⟩ | ⟨rfl, -⟩ := hphase <;> cases hyi
  · intro y hy i hyi
    obtain hy | rfl := List.mem_or_eq_of_mem_set hy
    · exact h.halted y hy i hyi
    · obtain ⟨rfl, -⟩ | ⟨rfl, -⟩ := hphase <;> cases hyi
  · intro y hy hclose
    obtain hy | rfl := List.mem_or_eq_of_mem_set hy
    · exact h.closing y hy hclose
    · obtain ⟨-, -, hover⟩ | ⟨rfl, -⟩ := hphase
      · exact hover
      · cases hclose
  · intro hup
    obtain hm | ⟨y, hy, hunder⟩ := h.connected hup
    · exact .inl hm
    · obtain rfl | hy := mem_set_of_mem (x := ⟨phase, false⟩) hy hx
      · obtain ⟨rfl, -⟩ | ⟨-, hsleep | hdown⟩ := hphase
        · exact .inr ⟨_, List.mem_set hk _, ⟨nofun, nofun⟩⟩
        · exact absurd hsleep hunder.1
        · cases hdown.symm.trans hup
      · exact .inr ⟨y, hy, hunder⟩
  · intro hoff
    simp [h.always hoff] at hx

theorem Settled.lost (h : s.Settled cfg) : ({ s with isConnected := false } : Demand).Settled cfg :=
  ⟨h.left, h.stopped, h.single, h.stopping, h.halted, h.closing, nofun, h.always⟩

/-- An idle disconnect has cancelled the manager and waits for it. -/
theorem Settled.stopManager (h : s.Settled cfg) (hx : s.idles[k]? = some ⟨.sleeping, false⟩) (hzero : s.activeClients = 0)
    (hrun : s.running = some i) :
    ({ s.setIdle k (.stopping i) with managers := s.managers.modify i fun m => { m with cancelled := true } } : Demand).Settled cfg := by
  have hk : k < s.idles.length := (List.getElem?_eq_some_iff.mp hx).1
  obtain ⟨hi, m₀, hm₀, hlive₀⟩ := running_some hrun
  have hphase : ∀ {j : ℕ} {m : Task ManagerPhase}, (s.managers.modify i fun m => { m with cancelled := true })[j]? = some m →
      ∃ m', s.managers[j]? = some m' ∧ m'.phase = m.phase ∧ (j ≠ i → m' = m) := by
    intro j m hm
    rw [List.getElem?_modify] at hm
    obtain ⟨m', hm', rfl⟩ := Option.map_eq_some_iff.mp hm
    refine ⟨m', hm', ?_, fun hji => ?_⟩
    · split <;> rfl
    · rw [if_neg (Ne.symm hji)]
  have hmodified : ∀ {j : ℕ} {m : Task ManagerPhase}, s.managers[j]? = some m →
      (s.managers.modify i fun m => { m with cancelled := true })[j]? = some (if i = j then { m with cancelled := true } else m) := by
    intro j m hm
    rw [List.getElem?_modify, hm]
    rfl
  refine ⟨fun _ _ _ => hzero, ?_, ?_, ?_, ?_, ?_, fun _ => .inr ⟨_, List.mem_set hk _, ⟨nofun, nofun⟩⟩, ?_⟩
  · intro j m hm hc hlive
    obtain ⟨m', hm', hp, hsame⟩ := hphase hm
    by_cases hji : j = i
    · exact ⟨_, List.mem_set hk _, by rw [hji]⟩
    · cases hsame hji
      obtain ⟨y, hy, hyj⟩ := h.stopped j m hm' hc hlive
      obtain rfl | hy := mem_set_of_mem (x := ⟨.stopping i, false⟩) hy hx
      · cases hyj
      · exact ⟨y, hy, hyj⟩
  · intro j m hm hlive
    obtain ⟨m', hm', hp, -⟩ := hphase hm
    exact h.single j m' hm' (hp ▸ hlive)
  · intro y hy j hyj
    obtain hy | rfl := List.mem_or_eq_of_mem_set hy
    · exact h.stopping y hy j hyj
    · cases hyj
      exact .inl hi
  · intro y hy j hyj
    obtain hy | rfl := List.mem_or_eq_of_mem_set hy
    · obtain ⟨m, hm, hhalted⟩ := h.halted y hy j hyj
      refine ⟨_, hmodified hm, ?_⟩
      split
      · exact .inl rfl
      · exact hhalted
    · cases hyj
      exact ⟨_, hmodified hm₀, .inl (by rw [if_pos rfl])⟩
  · intro y hy hclose
    obtain hy | rfl := List.mem_or_eq_of_mem_set hy
    · exact absurd (h.closing y hy hclose m₀ (List.mem_of_getElem? hm₀)) hlive₀
    · cases hclose
  · intro hoff
    simp [h.always hoff] at hx

/-- No manager is left when none runs. -/
theorem Settled.over (h : s.Settled cfg) (hnone : s.running = none) : s.Over := by
  intro m hm
  obtain ⟨i, hi⟩ := List.mem_iff_getElem?.mp hm
  by_contra hlive
  exact hlive (running_none hnone (h.single i m hi hlive) hi)

theorem Settled.over_of_stopping (h : s.Settled cfg) {x : Task IdlePhase} (hx : x ∈ s.idles) (hstop : x.phase = .stopping i)
    {m : Task ManagerPhase} (hm : s.managers[i]? = some m) (hdone : m.phase = .done) : s.Over := by
  intro m' hm'
  obtain ⟨j, hj⟩ := List.mem_iff_getElem?.mp hm'
  by_contra hlive
  have hsingle := h.single j m' hj hlive
  obtain hi | hnone := h.stopping x hx i hstop
  · cases hi.symm.trans hsingle
    cases hm.symm.trans hj
    exact hlive hdone
  · cases hnone.symm.trans hsingle

theorem Tended.runIdle (h : s.Tended cfg) (hs : s.runIdle k = some t) : t.Tended cfg := by
  -- Once the delay is over there are no clients, so nobody is to have a connection.
  have hquiet : ∀ {u : Demand}, s.idles ≠ [] → s.activeClients = 0 → u.activeClients = s.activeClients → u.Wanted cfg → u.Managed := by
    intro u hne hzero hu hw
    have hon : cfg.connectOnDemand = true := Bool.eq_true_of_not_eq_false fun hoff => hne (h.always hoff)
    rw [Wanted, if_pos hon] at hw
    omega
  obtain ⟨x, hx, hcases⟩ := runIdle_cases hs
  have hne : s.idles ≠ [] := List.ne_nil_of_mem (List.mem_of_getElem? hx)
  have hmem := List.mem_of_getElem? hx
  obtain ⟨hsleep, -, rfl⟩ | ⟨rfl, hzero, i, hrun, rfl⟩ | ⟨rfl, hzero, hnone, rfl⟩ | ⟨i, m, hstop, hm, hdone, rfl⟩ | ⟨hclose, rfl⟩ := hcases
  · exact ⟨h.toSettled.setIdle hx (by simp [hsleep]) (.inr ⟨rfl, .inl hsleep⟩), h.wanted⟩
  · exact ⟨h.toSettled.stopManager hx hzero hrun, hquiet hne hzero rfl⟩
  · refine ⟨h.toSettled.setIdle hx nofun ?_, hquiet hne hzero rfl⟩
    cases hup : s.isConnected with
    | true => exact .inl ⟨by simp, hzero, h.toSettled.over hnone⟩
    | false => exact .inr ⟨by simp, .inl rfl⟩
  · have hzero := h.left x hmem ⟨by simp [hstop], by simp [hstop]⟩
    have hover := h.toSettled.over_of_stopping hmem hstop hm hdone
    have hset : ({ s with reconnectTask := none } : Demand).Settled cfg := by
      refine ⟨h.left, h.stopped, fun j m' hm' hlive => absurd (hover m' (List.mem_of_getElem? hm')) hlive, fun _ _ _ _ => .inr rfl, h.halted, h.closing,
        fun _ => ?_, h.always⟩
      exact .inr ⟨x, hmem, ⟨by simp [hstop], by simp [hstop]⟩⟩
    refine ⟨hset.setIdle hx (fun j _ m' hm' => hover m' (List.mem_of_getElem? hm')) ?_, hquiet hne hzero rfl⟩
    cases hup : s.isConnected with
    | true => exact .inl ⟨by simp, hzero, hover⟩
    | false => exact .inr ⟨by simp, .inr rfl⟩
  · have hzero := h.left x hmem ⟨by simp [hclose], by simp [hclose]⟩
    exact ⟨h.toSettled.lost.setIdle hx (by simp [hclose]) (.inr ⟨rfl, .inr rfl⟩), hquiet hne hzero rfl⟩

theorem Tended.step (h : s.Tended cfg) (hauto : cfg.autoReconnect = true) {a : DemandAct} (hmean : s.NotMeanwhile a)
    (hs : s.step cfg a = some t) : t.Tended cfg := by
  cases a with
  | clientCount n =>
      cases hs
      exact h.clientCount hmean
  | manager i connected => exact h.runManager hauto hs
  | idle k => exact h.runIdle hs
  | lost =>
      simp only [Demand.step] at hs
      split at hs
      · cases hs
        exact ⟨h.toSettled.lost, h.wanted⟩
      · cases hs

/-! ## Connections that are released -/

theorem released_start (cfg : DemandConfig) : (start cfg).Released := by
  intro _ hup
  unfold start at hup
  split at hup <;> cases hup

theorem Released.clientCount (hon : cfg.connectOnDemand = true) (hidle : cfg.disconnectWhenIdle = true) :
    (s.onClientCountChanged cfg n).Released := by
  unfold onClientCountChanged
  simp only [hon, hidle, Bool.not_true, Bool.false_eq_true, ↓reduceIte, Bool.true_and]
  have hcount : ({ s with activeClients := n } : Demand).cancelIdle.activeClients = n := activeClients_cancelIdle _
  generalize ({ s with activeClients := n } : Demand).cancelIdle = u at hcount
  by_cases hpos : 0 < n
  · have hne : ∀ v : Demand, v.activeClients = n → v.Released := fun v hv hzero => by omega
    rw [if_pos hpos]
    split <;> exact hne _ hcount
  · rw [if_neg hpos]
    split
    · exact fun _ _ => ⟨⟨.sleeping, false⟩, List.mem_append_right _ List.mem_cons_self, .inl ⟨rfl, rfl⟩⟩
    · rename_i hdown
      exact fun _ hup => absurd hup hdown

theorem Released.runManager (h : s.Released) {connected : Bool} (hauto : cfg.autoReconnect = true)
    (htime : s.InTime (.manager i connected)) (hs : s.runManager cfg i connected = some t) : t.Released := by
  obtain ⟨m, hm, -, ⟨-, rfl⟩ | ⟨hc, ⟨_, -, rfl⟩ | ⟨⟨retry, hphase⟩, rfl, rfl⟩ | rfl | ⟨-, -, -, -, rfl⟩⟩⟩ := runManager_cases hauto hs
  · exact h
  · exact h
  · intro hzero
    have hm : s.managers[i]? = some ⟨.connecting retry, false⟩ := by rw [hm, ← hphase, ← hc]
    have hpos := htime retry hm
    exact absurd hzero hpos.ne'
  · exact h
  · exact h

theorem Released.runIdle (h : s.Released) (hs : s.runIdle k = some t) : t.Released := by
  obtain ⟨x, hx, hcases⟩ := runIdle_cases hs
  have hk : k < s.idles.length := (List.getElem?_eq_some_iff.mp hx).1
  obtain ⟨hsleep, hover, rfl⟩ | ⟨-, -, i, -, rfl⟩ | ⟨-, -, -, rfl⟩ | ⟨i, m, -, -, -, rfl⟩ | ⟨-, rfl⟩ := hcases
  · intro hzero hup
    obtain ⟨y, hy, hpending⟩ := h hzero hup
    obtain rfl | hy := mem_set_of_mem (x := ⟨.done, false⟩) hy hx
    · obtain ⟨-, hc⟩ | hunder := hpending
      · obtain hc' | hne := hover
        · cases hc.symm.trans hc'
        · exact absurd hzero hne
      · exact absurd hsleep hunder.1
    · exact ⟨y, hy, hpending⟩
  · exact fun _ _ => ⟨_, List.mem_set hk _, .inr ⟨nofun, nofun⟩⟩
  · intro _ hup
    have hup : s.isConnected = true := hup
    unfold beginDisconnect
    rw [if_pos hup]
    exact ⟨_, List.mem_set hk _, .inr ⟨nofun, nofun⟩⟩
  · intro _ hup
    have hup : s.isConnected = true := hup
    unfold beginDisconnect
    rw [if_pos hup]
    exact ⟨_, List.mem_set hk _, .inr ⟨nofun, nofun⟩⟩
  · exact fun _ hup => nomatch hup

theorem Released.step (h : s.Released) (hon : cfg.connectOnDemand = true) (hidle : cfg.disconnectWhenIdle = true)
    (hauto : cfg.autoReconnect = true) {a : DemandAct} (htime : s.InTime a) (hs : s.step cfg a = some t) : t.Released := by
  cases a with
  | clientCount n =>
      cases hs
      exact Released.clientCount hon hidle
  | manager i connected => exact h.runManager hauto htime hs
  | idle k => exact h.runIdle hs
  | lost =>
      simp only [Demand.step] at hs
      split at hs <;> cases hs
      exact fun _ hup => nomatch hup

/-! ## Clients that come meanwhile -/

/-- Nothing but another client gets a stranded port out of it. -/
theorem Stranded.step (h : s.Stranded) {a : DemandAct} (ha : ∀ n, a ≠ .clientCount n) (hs : s.step cfg a = some t) : t.Stranded := by
  obtain ⟨hpos, hdown, hdone⟩ := h
  cases a with
  | clientCount n => exact absurd rfl (ha n)
  | manager i connected =>
      simp only [Demand.step, Demand.runManager] at hs
      split at hs
      · cases hs
      · cases hs
      all_goals
        rename_i hm
        have hphase := hdone _ (List.mem_of_getElem? hm)
        simp_all
  | idle k =>
      obtain ⟨x, -, ⟨-, -, rfl⟩ | ⟨-, hzero, -⟩ | ⟨-, hzero, -⟩ | ⟨i, m, -, -, -, rfl⟩ | ⟨-, rfl⟩⟩ := runIdle_cases hs
      · exact ⟨hpos, hdown, hdone⟩
      · exact absurd hzero hpos.ne'
      · exact absurd hzero hpos.ne'
      · exact ⟨hpos, hdown, hdone⟩
      · exact ⟨hpos, rfl, hdone⟩
  | lost => simp [Demand.step, hdown] at hs

/-- A client comes while the connection is about to be closed: nothing but the count changes. -/
theorem exists_recount (hon : cfg.connectOnDemand = true) (hup : s.isConnected = true) (hn : 0 < n) {x : Task IdlePhase}
    (hx : s.idles[k]? = some x) : ∃ u y, s.step cfg (.clientCount n) = some u ∧ u.idles[k]? = some y ∧ y.phase = x.phase ∧
      u.activeClients = n ∧ u.isConnected = true ∧ u.managers = s.managers ∧ u.reconnectTask = s.reconnectTask := by
  have hstep : s.step cfg (.clientCount n) = some ({ s with activeClients := n } : Demand).cancelIdle := by
    simp [Demand.step, onClientCountChanged, hon, hn, hup]
  obtain hs | ⟨j, z, hz, -, hs⟩ := ({ s with activeClients := n } : Demand).cancelIdle_cases
  · exact ⟨_, x, hstep, by rw [hs]; exact hx, rfl, by simp, by simpa using hup, by simp, by simp⟩
  · by_cases hjk : j = k
    · subst hjk
      cases hx.symm.trans hz
      refine ⟨_, { x with cancelled := true }, hstep, ?_, rfl, by simp, by simpa using hup, by simp, by simp⟩
      rw [hs]
      exact List.getElem?_set_self (List.getElem?_eq_some_iff.mp hx).1
    · refine ⟨_, x, hstep, ?_, rfl, by simp, by simpa using hup, by simp, by simp⟩
      rw [hs]
      exact (List.getElem?_set_ne hjk).trans hx

/-- The idle disconnect that closes the connection closes it for clients as well. -/
theorem stranded_of_closing (cfg : DemandConfig) {x : Task IdlePhase} (hx : s.idles[k]? = some x) (hclose : x.phase = .closing)
    (hpos : 0 < s.activeClients) (hover : s.Over) : ∃ t, s.step cfg (.idle k) = some t ∧ t.Stranded := by
  obtain ⟨phase, cancelled⟩ := x
  cases hclose
  refine ⟨{ s.setIdle k .done with isConnected := false }, ?_, hpos, rfl, hover⟩
  simp [Demand.step, Demand.runIdle, hx]

/-- The idle disconnect that waits for a manager closes the connection when that is done. -/
theorem stranded_of_stopping (cfg : DemandConfig) {x : Task IdlePhase} (hx : s.idles[k]? = some x) (hstop : x.phase = .stopping i)
    (hup : s.isConnected = true) (hpos : 0 < s.activeClients) (hover : s.Over) {m : Task ManagerPhase} (hm : s.managers[i]? = some m) :
    ∃ t, exec (step cfg) s [.idle k, .idle k] = some t ∧ t.Stranded := by
  have hdone := hover m (List.mem_of_getElem? hm)
  have hk : k < s.idles.length := (List.getElem?_eq_some_iff.mp hx).1
  obtain ⟨phase, cancelled⟩ := x
  cases hstop
  have hfirst : s.step cfg (.idle k) = some (({ s with reconnectTask := none } : Demand).setIdle k .closing) := by
    simp [Demand.step, Demand.runIdle, hx, hm, hdone, beginDisconnect, hup]
  have hnext : (({ s with reconnectTask := none } : Demand).setIdle k .closing).idles[k]? = some ⟨.closing, false⟩ :=
    List.getElem?_set_self hk
  obtain ⟨t, ht, hstranded⟩ := stranded_of_closing cfg hnext rfl hpos hover
  exact ⟨t, by rw [exec_cons hfirst, exec_cons ht, exec_nil], hstranded⟩

/-- The acts of tasks. -/
def IsTask : DemandAct → Prop
  | .manager .. | .idle _ => True
  | _ => False

/-- A client that comes while an idle disconnect is under way, and before the connection is closed, can be stranded. -/
theorem Tended.exists_stranded (h : s.Tended cfg) {x : Task IdlePhase} (hx : s.idles[k]? = some x) (hunder : UnderWay x)
    (hup : s.isConnected = true) (hn : 0 < n) :
    ∃ as t, (∀ a ∈ as, IsTask a) ∧ exec (Demand.step cfg) s (.clientCount n :: as) = some t ∧ t.Stranded := by
  have hmem := List.mem_of_getElem? hx
  have hon : cfg.connectOnDemand = true :=
    Bool.eq_true_of_not_eq_false fun hoff => List.ne_nil_of_mem hmem (h.always hoff)
  obtain ⟨u, y, hu, hy, hyx, hcount, huup, hmanagers, htask⟩ := exists_recount hon hup hn hx
  cases hphase : x.phase with
  | sleeping => exact absurd hphase hunder.1
  | done => exact absurd hphase hunder.2
  | closing =>
      have hover : u.Over := by
        rw [Over, hmanagers]
        exact h.closing x hmem hphase
      obtain ⟨t, ht, hstranded⟩ := stranded_of_closing cfg hy (hyx.trans hphase) (hcount ▸ hn) hover
      exact ⟨[.idle k], t, by simp [IsTask], by rw [exec_cons hu, exec_cons ht, exec_nil], hstranded⟩
  | stopping i =>
      obtain ⟨m, hm, hhalted⟩ := h.halted x hmem i hphase
      have hum : u.managers[i]? = some m := hmanagers ▸ hm
      by_cases hdone : m.phase = .done
      · have hover : u.Over := by
          rw [Over, hmanagers]
          exact h.toSettled.over_of_stopping hmem hphase hm hdone
        obtain ⟨t, ht, hstranded⟩ := stranded_of_stopping cfg hy (hyx.trans hphase) huup (hcount ▸ hn) hover hum
        exact ⟨[.idle k, .idle k], t, by simp [IsTask], by rw [exec_cons hu, ht], hstranded⟩
      · have hc : m.cancelled = true := hhalted.resolve_right hdone
        have hi : i < u.managers.length := (List.getElem?_eq_some_iff.mp hum).1
        have hrun : u.step cfg (.manager i false) = some (u.setManager i .done) := by
          obtain ⟨phase, cancelled⟩ := m
          cases hc
          simp only [Demand.step, Demand.runManager, hum]
        have hover : (u.setManager i .done).Over := by
          intro m' hm'
          obtain ⟨j, hj⟩ := List.mem_iff_getElem?.mp hm'
          rw [getElem?_setManager .done hi] at hj
          split at hj
          · cases hj
            rfl
          · rename_i hji
            by_contra hlive
            rw [hmanagers] at hj
            cases (h.single i m hm hdone).symm.trans (h.single j m' hj hlive)
            exact hji rfl
        obtain ⟨t, ht, hstranded⟩ := stranded_of_stopping cfg (s := u.setManager i .done) hy (hyx.trans hphase) huup (hcount ▸ hn)
          hover (getElem?_setManager .done hi i |>.trans (if_pos rfl))
        exact ⟨[.manager i false, .idle k, .idle k], t, by simp [IsTask], by rw [exec_cons hu, exec_cons hrun, ht], hstranded⟩

/-- A connection that is made when the clients have left, and that no timer is to close, stays until a client comes or it is lost. -/
theorem not_released_step (hnot : ¬ s.Released) {a : DemandAct} (ha : IsTask a) (hauto : cfg.autoReconnect = true)
    (hs : s.step cfg a = some t) : ¬ t.Released := by
  simp only [Released, not_forall, not_exists, not_and] at hnot
  obtain ⟨hzero, hup, hnone⟩ := hnot
  have hkeep : ∀ u : Demand, u.activeClients = 0 → u.isConnected = true → (∀ x ∈ u.idles, ¬ Pending x) → ¬ u.Released := by
    intro u hz hu hn hrel
    obtain ⟨x, hx, hpending⟩ := hrel hz hu
    exact hn x hx hpending
  cases a with
  | clientCount | lost => cases ha
  | manager i connected =>
      obtain ⟨m, -, -, ⟨-, rfl⟩ | ⟨-, ⟨_, -, rfl⟩ | ⟨-, -, rfl⟩ | rfl | ⟨-, -, -, -, rfl⟩⟩⟩ := runManager_cases hauto hs
      · exact hkeep _ hzero hup hnone
      · exact hkeep _ hzero hup hnone
      · exact hkeep _ hzero rfl hnone
      · exact hkeep _ hzero hup hnone
      · exact hkeep _ hzero hup hnone
  | idle k =>
      obtain ⟨x, hx, hcases⟩ := runIdle_cases hs
      have hx := hnone x (List.mem_of_getElem? hx)
      obtain ⟨-, -, rfl⟩ | ⟨rfl, -⟩ | ⟨rfl, -⟩ | ⟨i, m, hstop, -⟩ | ⟨hclose, -⟩ := hcases
      · refine hkeep _ hzero hup fun y hy => ?_
        obtain hy | rfl := List.mem_or_eq_of_mem_set hy
        · exact hnone y hy
        · simp [Pending, UnderWay]
      · exact absurd (.inl ⟨rfl, rfl⟩) hx
      · exact absurd (.inl ⟨rfl, rfl⟩) hx
      · exact absurd (.inr ⟨by simp [hstop], by simp [hstop]⟩) hx
      · exact absurd (.inr ⟨by simp [hclose], by simp [hclose]⟩) hx

theorem not_released_of_late (hnone : ∀ x ∈ s.idles, ¬ Pending x) {a : DemandAct}
    (hlate : ¬ s.InTime a) (hs : s.step cfg a = some t) : ¬ t.Released := by
  cases a with
  | clientCount | idle | lost => exact absurd trivial hlate
  | manager i connected =>
      cases connected with
      | false => exact absurd trivial hlate
      | true =>
          simp only [InTime, not_forall] at hlate
          obtain ⟨retry, hm, hzero⟩ := hlate
          simp only [Demand.step, Demand.runManager, hm, ↓reduceIte, Option.some.injEq] at hs
          subst hs
          intro hrel
          obtain ⟨x, hx, hpending⟩ := hrel (Nat.eq_zero_of_not_pos hzero) rfl
          exact hnone x hx hpending

end Demand

end OpenMux.Initiator
