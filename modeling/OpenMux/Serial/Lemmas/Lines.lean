import OpenMux.Serial.Lines

/-!
# Lines and handles
-/

namespace OpenMux.Serial

open Transition

namespace SerialPortWrapper

variable {policy : Lines LinePolicy} {s s' : SerialPortWrapper} {t : Transport} {line : Line} {level : Option Bool} {count : ℕ}

/-! ## One line -/

/-- The line is driven to a level on the transport of the writer, and remembered. -/
theorem applyLine_some (line : Line) (l : Bool) (h : s.serialDriver = some t) :
    s.applyLine line (some l) = s ∧ s.driven.get line = some l ∨
    s.driven.get line ≠ some l ∧ t.levels.get line = l ∧
      s.applyLine line (some l) = { s with driven := s.driven.set line (some l) } ∨
    s.driven.get line ≠ some l ∧
      s.applyLine line (some l) = { s with driven := s.driven.set line (some l), writer := some (t.drive line l) } := by
  simp only [applyLine, h]
  by_cases hdriven : s.driven.get line = some l
  · exact .inl ⟨by simp [hdriven], hdriven⟩
  · by_cases hlevel : t.levels.get line = l
    · exact .inr (.inl ⟨hdriven, hlevel, by simp [hdriven, hlevel]⟩)
    · exact .inr (.inr ⟨hdriven, by simp [hdriven, hlevel]⟩)

theorem applyLine_none : s.applyLine line none = s := rfl

theorem applyLine_of_driver (h : s.serialDriver = none) : s.applyLine line level = s := by
  cases level <;> simp [applyLine, h]

theorem serialDriver_eq : s.serialDriver = some t ↔ s.writer = some t ∧ t.serial = true := by
  simp [serialDriver, Option.filter_eq_some_iff]

/-- What driving a line keeps. -/
structure Kept (policy : Lines LinePolicy) (s s' : SerialPortWrapper) : Prop where
  isConnected : s'.isConnected = s.isConnected
  autoReconnect : s'.autoReconnect = s.autoReconnect
  lost : s'.lost = s.lost
  supervisor : s'.supervisor = s.supervisor
  writer : ∀ t' ∈ s'.writer, ∃ t ∈ s.writer, t'.closed = t.closed ∧ t'.serial = t.serial ∧
    ∀ line, resolveLinePolicy (policy.get line) = (none, none) → t'.touched.get line = t.touched.get line
  handle : s'.writer.map (·.closed) = s.writer.map (·.closed)

theorem Kept.refl (s : SerialPortWrapper) : Kept policy s s :=
  ⟨rfl, rfl, rfl, rfl, fun t ht => ⟨t, ht, rfl, rfl, fun _ _ => rfl⟩, rfl⟩

theorem Kept.trans {s'' : SerialPortWrapper} (h : Kept policy s s') (h' : Kept policy s' s'') : Kept policy s s'' where
  isConnected := h'.isConnected.trans h.isConnected
  autoReconnect := h'.autoReconnect.trans h.autoReconnect
  lost := h'.lost.trans h.lost
  supervisor := h'.supervisor.trans h.supervisor
  writer := by
    intro t'' ht''
    obtain ⟨t', ht', hclosed', hserial', htouched'⟩ := h'.writer t'' ht''
    obtain ⟨t, ht, hclosed, hserial, htouched⟩ := h.writer t' ht'
    exact ⟨t, ht, hclosed'.trans hclosed, hserial'.trans hserial,
      fun line hline => (htouched' line hline).trans (htouched line hline)⟩
  handle := h'.handle.trans h.handle

theorem kept_applyLine (h : resolveLinePolicy (policy.get line) = (none, none) → level = none) :
    Kept policy s (s.applyLine line level) := by
  cases level with
  | none => exact Kept.refl s
  | some l =>
      cases hdriver : s.serialDriver with
      | none =>
          rw [applyLine_of_driver hdriver]
          exact Kept.refl s
      | some t =>
          have hwriter := (serialDriver_eq.mp hdriver).1
          rcases applyLine_some line l hdriver with ⟨he, -⟩ | ⟨-, -, he⟩ | ⟨-, he⟩
          · rw [he]
            exact Kept.refl s
          · rw [he]
            exact ⟨rfl, rfl, rfl, rfl, fun t ht => ⟨t, ht, rfl, rfl, fun _ _ => rfl⟩, rfl⟩
          · rw [he]
            refine ⟨rfl, rfl, rfl, rfl, fun t' ht' => ?_, by simp [hwriter, Transport.drive]⟩
            cases ht'
            refine ⟨t, hwriter, rfl, rfl, fun line' hline' => ?_⟩
            have hne : line' ≠ line := by
              rintro rfl
              exact absurd (h hline') (by simp)
            simp [Transport.drive, hne]

/-! ## Both lines -/

theorem lineLevel_unmanaged (h : resolveLinePolicy (policy.get line) = (none, none)) : lineLevel policy count line = none := by
  simp [lineLevel, h]

theorem lineLevel_managed (count' : ℕ) {l : Bool} (h : lineLevel policy count line = some l) :
    ∃ l', lineLevel policy count' line = some l' := by
  unfold lineLevel at h ⊢
  cases hp : policy.get line <;> rw [hp] at h <;> simp only [resolveLinePolicy] at h ⊢ <;> split <;> simp_all

theorem kept_applyLineLevelsForCount (policy : Lines LinePolicy) (s : SerialPortWrapper) (count : ℕ) : Kept policy s (s.applyLineLevelsForCount policy count) := by
  unfold applyLineLevelsForCount
  split
  · exact (kept_applyLine lineLevel_unmanaged).trans (kept_applyLine lineLevel_unmanaged)
  · exact Kept.refl s

@[simp] theorem clientCount_applyLine : (s.applyLine line level).clientCount = s.clientCount := by
  unfold applyLine
  split
  · split
    · rfl
    · split <;> rfl
  · rfl

@[simp] theorem clientCount_applyLineLevelsForCount : (s.applyLineLevelsForCount policy count).clientCount = s.clientCount := by
  unfold applyLineLevelsForCount
  split <;> simp

theorem kept_resetSignalLinesSync : Kept policy s (s.resetSignalLinesSync policy) := by
  have hactive : ∀ line, resolveLinePolicy (policy.get line) = (none, none) → (resolveLinePolicy (policy.get line)).1 = none := by
    intro line h
    rw [h]
  exact (kept_applyLine (hactive .dtr)).trans (kept_applyLine (hactive .rts))

/-- What is known of a line after it was driven. -/
theorem applyLine_driver (line : Line) (level : Option Bool) (h : s.serialDriver = some t) : ∃ t', (s.applyLine line level).serialDriver = some t' ∧
    (∀ l ∈ level, (s.applyLine line level).driven.get line = some l ∧
      t'.levels.get line = if s.driven.get line = some l then t.levels.get line else l) ∧
    ∀ line', line' ≠ line ∨ level = none → (s.applyLine line level).driven.get line' = s.driven.get line' ∧
      t'.levels.get line' = t.levels.get line' := by
  obtain ⟨hwriter, hserial⟩ := serialDriver_eq.mp h
  cases level with
  | none => exact ⟨t, h, fun l hl => (by cases hl), fun _ _ => ⟨rfl, rfl⟩⟩
  | some l =>
      rcases applyLine_some line l h with ⟨he, hdriven⟩ | ⟨hdriven, hlevel, he⟩ | ⟨hdriven, he⟩
      · rw [he]
        refine ⟨t, h, fun l' hl' => ?_, fun _ _ => ⟨rfl, rfl⟩⟩
        cases hl'
        simp [hdriven]
      · rw [he]
        refine ⟨t, serialDriver_eq.mpr ⟨hwriter, hserial⟩, fun l' hl' => ?_, fun line' hline' => ?_⟩
        · cases hl'
          simp [hdriven, hlevel]
        · simp [hline'.resolve_right (by simp)]
      · rw [he]
        refine ⟨t.drive line l, serialDriver_eq.mpr ⟨rfl, hserial⟩, fun l' hl' => ?_, fun line' hline' => ?_⟩
        · cases hl'
          simp [Transport.drive, hdriven]
        · simp [Transport.drive, hline'.resolve_right (by simp)]

/-- A managed line has the level that is due, unless another one passes for it. -/
theorem applied (policy : Lines LinePolicy) (count : ℕ) (hconn : s.isConnected = true) (h : s.serialDriver = some t) :
    ∃ t', (s.applyLineLevelsForCount policy count).serialDriver = some t' ∧
      ∀ line, ∀ l ∈ lineLevel policy count line, (s.applyLineLevelsForCount policy count).driven.get line = some l ∧
        t'.levels.get line = if s.driven.get line = some l then t.levels.get line else l := by
  rw [applyLineLevelsForCount, if_pos hconn]
  obtain ⟨t₁, h₁, hset₁, hrest₁⟩ := applyLine_driver .dtr (lineLevel policy count .dtr) h
  obtain ⟨t₂, h₂, hset₂, hrest₂⟩ := applyLine_driver .rts (lineLevel policy count .rts) h₁
  refine ⟨t₂, h₂, fun line l hl => ?_⟩
  cases line with
  | dtr =>
      obtain ⟨hdriven, hlevels⟩ := hrest₂ .dtr (.inl (by decide))
      rw [hdriven, hlevels]
      exact hset₁ l hl
  | rts =>
      obtain ⟨hdriven, hlevels⟩ := hrest₁ .rts (.inl (by decide))
      rw [← hdriven, ← hlevels]
      exact hset₂ l hl

/-! ## Open handles -/

theorem openCount_eq : s.openCount = s.writer.toList.countP (!·.closed) + s.lost.countP (!·.closed) := by
  rw [openCount, transports, List.countP_append]

theorem openCount_congr (h : s'.writer.map (·.closed) = s.writer.map (·.closed)) (hlost : s'.lost = s.lost) :
    s'.openCount = s.openCount := by
  rw [openCount_eq, openCount_eq, hlost]
  cases hw : s.writer <;> cases hw' : s'.writer <;> simp_all

theorem openCount_eq_zero : s.openCount = 0 ↔ (∀ t ∈ s.writer, t.closed = true) ∧ ∀ t ∈ s.lost, t.closed = true := by
  rw [openCount_eq, Nat.add_eq_zero_iff, List.countP_eq_zero, List.countP_eq_zero]
  simp

theorem openCount_le_one (h : ∀ t ∈ s.lost, t.closed = true) : s.openCount ≤ 1 := by
  have hlost : s.lost.countP (!·.closed) = 0 := List.countP_eq_zero.mpr (by simpa using h)
  rw [openCount_eq, hlost]
  cases s.writer with
  | none => simp
  | some t => exact List.countP_le_length

/-! ## The invariant -/

/-- Where the supervisor reads, there is an open handle and the lines are remembered as they are due; where it closes, the handle is closed;
and where it rests, the port is not connected. No handle that was let go is open. -/
structure Inv (policy : Lines LinePolicy) (s : SerialPortWrapper) : Prop where
  reading : s.supervisor = .reading → s.isConnected = true ∧ ∃ t, s.serialDriver = some t ∧ t.closed = false ∧
    ∀ line, ∀ l ∈ lineLevel policy s.clientCount line, s.driven.get line = some l
  closing : s.supervisor = .closing → ∀ t ∈ s.writer, t.closed = true
  resting : s.supervisor = .waiting ∨ s.supervisor = .done → s.isConnected = false
  lost : ∀ t ∈ s.lost, t.closed = true

theorem Right.kept (h : Right policy s) (hk : Kept policy s s') {t' : Transport} (ht' : t' ∈ s'.transports) (line : Line)
    (hline : resolveLinePolicy (policy.get line) = (none, none)) : t'.touched.get line = false := by
  rcases List.mem_append.mp ht' with ht' | ht'
  · obtain ⟨t, ht, -, -, htouched⟩ := hk.writer t' (Option.mem_toList.mp ht')
    rw [htouched line hline]
    exact h.untouched t (List.mem_append_left _ (Option.mem_toList.mpr ht)) line hline
  · rw [hk.lost] at ht'
    exact h.untouched t' (List.mem_append_right _ ht') line hline

/-- The port is not connected, or the open device is as it should be. -/
theorem Right.of_kept (h : Right policy s) (hk : Kept policy s s')
    (hlevels : s'.isConnected → ∀ t ∈ s'.writer, t.closed = false → ∀ line level, lineLevel policy s'.clientCount line = some level →
      t.levels.get line = level) : Right policy s' where
  levels := hlevels
  untouched := fun _ ht' => h.kept hk ht'
  handles := by
    rw [openCount_congr hk.handle hk.lost]
    exact h.handles
  released := by
    rw [openCount_congr hk.handle hk.lost, hk.supervisor]
    exact h.released

/-! ## A device that opens -/

/-- The new transport before its lines are driven. -/
def opening (s : SerialPortWrapper) (levels : Lines Bool) : SerialPortWrapper :=
  { s with lost := s.writer.toList ++ s.lost, writer := some { levels := levels }, isConnected := true, supervisor := .reading }

theorem connect_eq (levels : Lines Bool) :
    s.connect policy levels = (s.opening levels).applyLineLevelsForCount policy s.clientCount := rfl

theorem clientCount_connect (levels : Lines Bool) : (s.connect policy levels).clientCount = s.clientCount :=
  clientCount_applyLineLevelsForCount

theorem openCount_opening (levels : Lines Bool) : (s.opening levels).openCount = 1 + s.openCount := by
  rw [openCount_eq, openCount_eq]
  simp [opening]

theorem openCount_connect (levels : Lines Bool) : (s.connect policy levels).openCount = 1 + s.openCount := by
  rw [connect_eq, openCount_congr (kept_applyLineLevelsForCount _ _ _).handle (kept_applyLineLevelsForCount _ _ _).lost, openCount_opening]

/-- The transport of a port that has just connected. -/
theorem connected (policy : Lines LinePolicy) (s : SerialPortWrapper) (levels : Lines Bool) : ∃ t, (s.connect policy levels).serialDriver = some t ∧ t.closed = false ∧
    ∀ line, ∀ l ∈ lineLevel policy s.clientCount line, (s.connect policy levels).driven.get line = some l ∧
      t.levels.get line = if s.driven.get line = some l then levels.get line else l := by
  have hdriver : (s.opening levels).serialDriver = some { levels := levels } := rfl
  obtain ⟨t, ht, hlines⟩ := applied policy s.clientCount (show (s.opening levels).isConnected = true from rfl) hdriver
  obtain ⟨t₀, ht₀, hclosed, -⟩ := (kept_applyLineLevelsForCount policy (s.opening levels) s.clientCount).writer t
    (serialDriver_eq.mp ht).1
  cases ht₀
  exact ⟨t, ht, hclosed, hlines⟩

theorem Inv.connect (hI : Inv policy s) (hR : Right policy s) (levels : Lines Bool) :
    (Right policy (s.connect policy levels) ↔ Clean policy s (.connect levels)) ∧
    (Right policy (s.connect policy levels) → Inv policy (s.connect policy levels)) := by
  have hk : Kept policy (s.opening levels) (s.connect policy levels) :=
    kept_applyLineLevelsForCount policy (s.opening levels) s.clientCount
  obtain ⟨t, ht, hclosed, hlines⟩ := connected policy s levels
  have hwriter := (serialDriver_eq.mp ht).1
  constructor
  · constructor
    · intro h
      have hcount := h.handles
      rw [openCount_connect] at hcount
      refine ⟨(openCount_eq_zero.mp (by omega)).1, fun line l hl hdriven => ?_⟩
      have hlevel := h.levels hk.isConnected t hwriter hclosed line l (by rw [clientCount_connect, hl])
      rw [(hlines line l hl).2, if_pos hdriven] at hlevel
      exact hlevel
    · rintro ⟨hhandle, hlevels⟩
      have hzero : s.openCount = 0 := openCount_eq_zero.mpr ⟨hhandle, hI.lost⟩
      constructor
      case levels =>
        intro _ t' ht' _ line l hl
        rw [hwriter] at ht'
        cases ht'
        rw [clientCount_connect] at hl
        rw [(hlines line l hl).2]
        split
        · exact hlevels line l hl (by assumption)
        · rfl
      case untouched =>
        intro t' ht' line hline
        rcases List.mem_append.mp ht' with ht' | ht'
        · obtain ⟨t₀, ht₀, -, -, htouched⟩ := hk.writer t' (Option.mem_toList.mp ht')
          cases ht₀
          rw [htouched line hline]
          cases line <;> rfl
        · rw [hk.lost] at ht'
          exact hR.untouched t' ht' line hline
      case handles =>
        rw [openCount_connect, hzero]
      case released =>
        intro hdone
        rw [hk.supervisor] at hdone
        cases hdone
  · intro h
    have hcount := h.handles
    rw [openCount_connect] at hcount
    obtain ⟨hhandle, hlost⟩ := openCount_eq_zero.mp (show s.openCount = 0 by omega)
    constructor
    case reading =>
      intro _
      refine ⟨hk.isConnected, t, ht, hclosed, fun line l hl => ?_⟩
      rw [clientCount_connect] at hl
      exact (hlines line l hl).1
    case closing =>
      intro hclosing
      rw [hk.supervisor] at hclosing
      cases hclosing
    case resting =>
      intro hrest
      rw [hk.supervisor] at hrest
      rcases hrest with hrest | hrest <;> cases hrest
    case lost =>
      intro t' ht'
      rw [hk.lost] at ht'
      rcases List.mem_append.mp ht' with ht' | ht'
      · exact hhandle t' (Option.mem_toList.mp ht')
      · exact hlost t' ht'

/-! ## Clients -/

theorem applyLineLevelsForCount_of_not (h : s.isConnected = false) : s.applyLineLevelsForCount policy count = s := by
  simp [applyLineLevelsForCount, h]

theorem Inv.clients (hI : Inv policy s) (hR : Right policy s) (count : ℕ) :
    Right policy (s.onClientCountChanged policy count) ∧ Inv policy (s.onClientCountChanged policy count) := by
  unfold onClientCountChanged
  split
  · exact ⟨hR, hI⟩
  · have htold : Kept policy s { s with clientCount := count } :=
      ⟨rfl, rfl, rfl, rfl, fun t ht => ⟨t, ht, rfl, rfl, fun _ _ => rfl⟩, rfl⟩
    have hk := htold.trans (kept_applyLineLevelsForCount policy _ count)
    have hclosing : s.supervisor = .closing →
        ∀ t ∈ ({ s with clientCount := count }.applyLineLevelsForCount policy count).writer, t.closed = true := by
      intro hs t' ht'
      obtain ⟨t, ht, hclosed, -⟩ := hk.writer t' ht'
      rw [hclosed]
      exact hI.closing hs t ht
    have hreading : s.supervisor = .reading →
        ∃ t, ({ s with clientCount := count }.applyLineLevelsForCount policy count).serialDriver = some t ∧ t.closed = false ∧
          ∀ line, ∀ l ∈ lineLevel policy count line,
            ({ s with clientCount := count }.applyLineLevelsForCount policy count).driven.get line = some l ∧
            t.levels.get line = l := by
      intro hs
      obtain ⟨hconn, t, ht, hclosed, hdriven⟩ := hI.reading hs
      obtain ⟨t', ht', hlines⟩ := applied policy count (show ({ s with clientCount := count } : SerialPortWrapper).isConnected = true from hconn) ht
      obtain ⟨t₀, ht₀, hclosed', -⟩ := hk.writer t' (serialDriver_eq.mp ht').1
      have hwriter := (serialDriver_eq.mp ht).1
      rw [hwriter] at ht₀
      cases ht₀
      refine ⟨t', ht', hclosed'.trans hclosed, fun line l hl => ⟨(hlines line l hl).1, ?_⟩⟩
      rw [(hlines line l hl).2]
      split
      · rename_i hsame
        obtain ⟨l₀, hl₀⟩ := lineLevel_managed s.clientCount hl
        have hlevel := hR.levels hconn t hwriter hclosed line l₀ hl₀
        rw [hdriven line l₀ hl₀] at hsame
        cases hsame
        exact hlevel
      · rfl
    constructor
    · apply hR.of_kept hk
      intro hconn t' ht' hopen line l hl
      rw [hk.isConnected] at hconn
      rw [clientCount_applyLineLevelsForCount] at hl
      cases hs : s.supervisor with
      | waiting => simp [hI.resting (.inl hs)] at hconn
      | done => simp [hI.resting (.inr hs)] at hconn
      | closing => simp [hclosing hs t' ht'] at hopen
      | reading =>
          obtain ⟨t, ht, -, hlines⟩ := hreading hs
          rw [(serialDriver_eq.mp ht).1] at ht'
          cases ht'
          exact (hlines line l hl).2
    · constructor
      case reading =>
        intro hs
        rw [hk.supervisor] at hs
        obtain ⟨t, ht, hclosed, hlines⟩ := hreading hs
        refine ⟨hk.isConnected.trans (hI.reading hs).1, t, ht, hclosed, fun line l hl => ?_⟩
        rw [clientCount_applyLineLevelsForCount] at hl
        exact (hlines line l hl).1
      case closing =>
        rw [hk.supervisor]
        exact hclosing
      case resting =>
        rw [hk.supervisor, hk.isConnected]
        exact hI.resting
      case lost =>
        rw [hk.lost]
        exact hI.lost

/-! ## The end of a connection -/

theorem Inv.drop (hI : Inv policy s) (hR : Right policy s) (hs : s.supervisor = .reading) (ended : Bool) :
    Right policy (s.markDisconnected ended) ∧ Inv policy (s.markDisconnected ended) := by
  obtain ⟨-, t, ht, -, -⟩ := hI.reading hs
  have hwriter := (serialDriver_eq.mp ht).1
  constructor
  · constructor
    case levels =>
      intro hconn
      cases hconn
    case untouched =>
      intro t' ht' line hline
      rcases List.mem_append.mp ht' with ht' | ht'
      · have htouched := hR.untouched t (List.mem_append_left _ (by simp [hwriter])) line hline
        simp only [markDisconnected, hwriter, Option.map_some, Option.toList_some, List.mem_singleton] at ht'
        rw [ht']
        split <;> exact htouched
      · exact hR.untouched t' (List.mem_append_right _ ht') line hline
    case handles => exact openCount_le_one hI.lost
    case released =>
      intro hdone
      cases hdone
  · constructor
    case reading =>
      intro h
      cases h
    case closing =>
      intro h
      cases h
    case resting => exact fun _ => rfl
    case lost => exact hI.lost

theorem Inv.beginDisconnect (hI : Inv policy s) (hR : Right policy s) :
    Right policy s.beginDisconnect ∧ Inv policy s.beginDisconnect := by
  have hclosed : ∀ t' ∈ s.beginDisconnect.writer, t'.closed = true := by
    intro t' ht'
    obtain ⟨t, -, rfl⟩ := Option.map_eq_some_iff.mp ht'
    rfl
  constructor
  · constructor
    case levels =>
      intro _ t' ht' hopen
      rw [hclosed t' ht'] at hopen
      cases hopen
    case untouched =>
      intro t' ht' line hline
      rcases List.mem_append.mp ht' with ht' | ht'
      · obtain ⟨t, ht, rfl⟩ := Option.map_eq_some_iff.mp (Option.mem_toList.mp ht')
        exact hR.untouched t (List.mem_append_left _ (Option.mem_toList.mpr ht)) line hline
      · exact hR.untouched t' (List.mem_append_right _ ht') line hline
    case handles => exact openCount_le_one hI.lost
    case released =>
      intro hdone
      cases hdone
  · constructor
    case reading =>
      intro h
      cases h
    case closing => exact fun _ => hclosed
    case resting =>
      intro h
      rcases h with h | h <;> cases h
    case lost => exact hI.lost

theorem Inv.finishDisconnect (hlost : ∀ t ∈ s.lost, t.closed = true) (hclosed : ∀ t ∈ s.writer, t.closed = true)
    (huntouched : ∀ t ∈ s.transports, ∀ line, resolveLinePolicy (policy.get line) = (none, none) → t.touched.get line = false) :
    Right policy (s.finishDisconnect policy) ∧ Inv policy (s.finishDisconnect policy) := by
  have hk : Kept policy s (s.resetSignalLinesSync policy) := kept_resetSignalLinesSync
  have hlost' : ∀ t ∈ (s.finishDisconnect policy).lost, t.closed = true := by
    intro t' ht'
    rcases List.mem_append.mp ht' with ht' | ht'
    · obtain ⟨t, ht, hsame, -⟩ := hk.writer t' (Option.mem_toList.mp ht')
      rw [hsame]
      exact hclosed t ht
    · rw [hk.lost] at ht'
      exact hlost t' ht'
  have hzero : (s.finishDisconnect policy).openCount = 0 := openCount_eq_zero.mpr ⟨fun t ht => (by cases ht), hlost'⟩
  constructor
  · constructor
    case levels =>
      intro hconn
      cases hconn
    case untouched =>
      intro t' ht' line hline
      rcases List.mem_append.mp (show t' ∈ (s.resetSignalLinesSync policy).writer.toList ++ (s.resetSignalLinesSync policy).lost from ht')
        with ht' | ht'
      · obtain ⟨t, ht, -, -, htouched⟩ := hk.writer t' (Option.mem_toList.mp ht')
        rw [htouched line hline]
        exact huntouched t (List.mem_append_left _ (Option.mem_toList.mpr ht)) line hline
      · rw [hk.lost] at ht'
        exact huntouched t' (List.mem_append_right _ ht') line hline
    case handles =>
      rw [hzero]
      exact Nat.zero_le 1
    case released => exact fun _ => hzero
  · constructor
    case reading =>
      intro h
      simp only [SerialPortWrapper.finishDisconnect] at h
      split at h <;> cases h
    case closing =>
      intro h t ht
      cases ht
    case resting => exact fun _ => rfl
    case lost => exact hlost'

theorem Inv.closed (hI : Inv policy s) (hR : Right policy s) (hs : s.supervisor = .closing) :
    Right policy (s.endTransport.finishDisconnect policy) ∧ Inv policy (s.endTransport.finishDisconnect policy) := by
  apply Inv.finishDisconnect
  · exact hI.lost
  · intro t' ht'
    obtain ⟨t, ht, rfl⟩ := Option.map_eq_some_iff.mp ht'
    exact hI.closing hs t ht
  · intro t' ht' line hline
    rcases List.mem_append.mp ht' with ht' | ht'
    · obtain ⟨t, ht, rfl⟩ := Option.map_eq_some_iff.mp (Option.mem_toList.mp ht')
      exact hR.untouched t (List.mem_append_left _ (Option.mem_toList.mpr ht)) line hline
    · exact hR.untouched t' (List.mem_append_right _ ht') line hline

/-! ## A stop -/

theorem right_autoReconnect {b : Bool} : Right policy { s with autoReconnect := b } ↔ Right policy s :=
  ⟨fun h => ⟨h.levels, h.untouched, h.handles, h.released⟩, fun h => ⟨h.levels, h.untouched, h.handles, h.released⟩⟩

theorem inv_autoReconnect {b : Bool} : Inv policy { s with autoReconnect := b } ↔ Inv policy s :=
  ⟨fun h => ⟨h.reading, h.closing, h.resting, h.lost⟩, fun h => ⟨h.reading, h.closing, h.resting, h.lost⟩⟩

/-- A port at rest is stopped as it should be if nothing is left open. -/
theorem right_done {b : Bool} (hI : Inv policy s) (hR : Right policy s) (hconn : s.isConnected = false) :
    Right policy { s with autoReconnect := b, supervisor := .done } ↔ ∀ t ∈ s.writer, t.closed = true := by
  constructor
  · intro h
    exact (openCount_eq_zero.mp (h.released rfl)).1
  · intro h
    have hzero : s.openCount = 0 := openCount_eq_zero.mpr ⟨h, hI.lost⟩
    constructor
    case levels =>
      intro hconn'
      rw [hconn] at hconn'
      cases hconn'
    case untouched => exact hR.untouched
    case handles => exact hR.handles
    case released => exact fun _ => hzero

theorem inv_done {b : Bool} (hI : Inv policy s) (hconn : s.isConnected = false) :
    Inv policy { s with autoReconnect := b, supervisor := .done } where
  reading := by
    intro h
    cases h
  closing := by
    intro h
    cases h
  resting := fun _ => hconn
  lost := hI.lost

theorem Inv.stop (hI : Inv policy s) (hR : Right policy s) :
    (Right policy (s.stop policy) ↔ Clean policy s .stop) ∧ Inv policy (s.stop policy) := by
  have hI' : Inv policy { s with autoReconnect := false } := inv_autoReconnect.mpr hI
  have hR' : Right policy { s with autoReconnect := false } := right_autoReconnect.mpr hR
  cases hs : s.supervisor with
  | waiting =>
      have hconn := hI.resting (.inl hs)
      have he : s.stop policy = { s with autoReconnect := false, supervisor := .done } := by simp [SerialPortWrapper.stop, hs]
      rw [he, right_done hI hR hconn]
      exact ⟨⟨fun h _ => h, fun h => h hs⟩, inv_done hI hconn⟩
  | done =>
      have hconn := hI.resting (.inr hs)
      have he : s.stop policy = { s with autoReconnect := false, supervisor := .done } := by simp [SerialPortWrapper.stop, hs]
      have hclosed := (openCount_eq_zero.mp (hR.released hs)).1
      rw [he, right_done hI hR hconn]
      exact ⟨⟨fun _ _ => hclosed, fun _ => hclosed⟩, inv_done hI hconn⟩
  | reading =>
      have he : s.stop policy = { s with autoReconnect := false }.beginDisconnect := by simp [SerialPortWrapper.stop, hs]
      obtain ⟨hright, hinv⟩ := hI'.beginDisconnect hR'
      rw [he]
      refine ⟨iff_of_true hright fun h => ?_, hinv⟩
      rw [hs] at h
      cases h
  | closing =>
      have he : s.stop policy = { s with autoReconnect := false }.finishDisconnect policy := by simp [SerialPortWrapper.stop, hs]
      obtain ⟨hright, hinv⟩ := Inv.finishDisconnect (s := { s with autoReconnect := false }) hI'.lost (hI.closing hs) hR'.untouched
      rw [he]
      refine ⟨iff_of_true hright fun h => ?_, hinv⟩
      rw [hs] at h
      cases h

/-! ## A step -/

theorem Inv.step {a : WrapperAct} (hI : Inv policy s) (hR : Right policy s) (h : SerialPortWrapper.step policy s a = some s') :
    (Right policy s' ↔ Clean policy s a) ∧ (Right policy s' → Inv policy s') := by
  cases a with
  | connect levels =>
      obtain ⟨-, h⟩ := Option.ite_none_right_eq_some.mp h
      cases h
      exact hI.connect hR levels
  | connectFails =>
      obtain ⟨-, h⟩ := Option.ite_none_right_eq_some.mp h
      cases h
      exact ⟨iff_of_true hR trivial, fun _ => hI⟩
  | clients count =>
      cases h
      obtain ⟨hright, hinv⟩ := hI.clients hR count
      exact ⟨iff_of_true hright trivial, fun _ => hinv⟩
  | drop ended =>
      obtain ⟨hs, h⟩ := Option.ite_none_right_eq_some.mp h
      cases h
      obtain ⟨hright, hinv⟩ := hI.drop hR hs ended
      exact ⟨iff_of_true hright trivial, fun _ => hinv⟩
  | disconnect =>
      obtain ⟨-, h⟩ := Option.ite_none_right_eq_some.mp h
      cases h
      obtain ⟨hright, hinv⟩ := hI.beginDisconnect hR
      exact ⟨iff_of_true hright trivial, fun _ => hinv⟩
  | closed =>
      obtain ⟨hs, h⟩ := Option.ite_none_right_eq_some.mp h
      cases h
      obtain ⟨hright, hinv⟩ := hI.closed hR hs
      exact ⟨iff_of_true hright trivial, fun _ => hinv⟩
  | stop =>
      cases h
      obtain ⟨hright, hinv⟩ := hI.stop hR
      exact ⟨hright, fun _ => hinv⟩

theorem inv_initial : Inv policy {} where
  reading := by
    intro h
    cases h
  closing := by
    intro h
    cases h
  resting := fun _ => rfl
  lost := fun t ht => (by cases ht)

theorem right_initial : Right policy {} where
  levels := by
    intro h
    cases h
  untouched := fun t ht => (by cases ht)
  handles := Nat.zero_le 1
  released := fun _ => rfl

end SerialPortWrapper

end OpenMux.Serial
