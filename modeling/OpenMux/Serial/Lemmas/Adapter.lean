import OpenMux.Serial.Adapter

/-!
# Devices and supervisors
-/

namespace OpenMux.Serial

open Py Transition

variable {α : Type} {ports : Dict Text (SerialPort α)} {name n device : Text} {p : SerialPort α} {entry : Entry α}

/-! ## Who holds a device -/

theorem holder_inv (h : holder ports device = some n) : ∃ p, ports.get? n = some p ∧ p.device = device := by
  obtain ⟨e, he, rfl⟩ := Option.map_eq_some_iff.mp h
  have hdevice := List.find?_some he
  exact ⟨e.2, Dict.mem_entries.mp (List.mem_of_find?_eq_some he), of_decide_eq_true hdevice⟩

theorem exists_holder (h : ports.get? n = some p) : ∃ m, holder ports p.device = some m := by
  cases hfind : ports.entries.find? fun e => e.2.device = p.device with
  | none =>
      have hnone := List.find?_eq_none.mp hfind (n, p) (Dict.mem_entries.mpr h)
      simp at hnone
  | some e => exact ⟨e.1, by rw [holder, hfind, Option.map_some]⟩

theorem holder_mapValues {f : Text → SerialPort α → SerialPort α} (hf : ∀ n p, (f n p).device = p.device) :
    holder (ports.mapValues f) device = holder ports device := by
  have hpred : (fun e : Text × SerialPort α => decide (e.2.device = device)) ∘ (fun e : Text × SerialPort α => (e.1, f e.1 e.2)) =
      fun e => decide (e.2.device = device) := by
    funext e
    simp [hf]
  simp only [holder, Dict.mapValues, List.find?_map, hpred, Option.map_map]
  rfl

/-- A port that comes is the last. -/
theorem holder_set (h : ports.get? name = none) (p : SerialPort α) :
    holder (ports.set name p) device = (holder ports device).or (if p.device = device then some name else none) := by
  rw [holder, Dict.entries_set_of_none h, List.find?_append, holder]
  cases ports.entries.find? fun e => e.2.device = device with
  | some e => simp
  | none => by_cases hd : p.device = device <;> simp [hd]

/-- What is found first is found first among fewer. -/
theorem find?_of_imp {β : Type} {q : β → Bool} (q' : β → Bool) {es : List β} {e : β} (h : es.find? q = some e) (he : q' e = true)
    (himp : ∀ x, q' x = true → q x = true) : es.find? q' = some e := by
  induction es with
  | nil => cases h
  | cons x xs ih =>
      rw [List.find?_cons] at h ⊢
      cases hx : q x with
      | true =>
          simp only [hx] at h
          cases h
          rw [he]
      | false =>
          simp only [hx] at h
          have hx' : q' x = false := by
            cases hq : q' x with
            | false => rfl
            | true => rw [himp x hq] at hx; cases hx
          rw [hx']
          exact ih h

/-- A port that goes does not take the place of another one. -/
theorem holder_pop (h : holder ports device = some n) (hne : n ≠ name) : holder (ports.pop name) device = some n := by
  obtain ⟨e, he, rfl⟩ := Option.map_eq_some_iff.mp h
  have hfound := List.find?_some he
  have hdevice : e.2.device = device := of_decide_eq_true hfound
  have hfirst := find?_of_imp (fun a => decide (decide (a.1 ≠ name) = true ∧ decide (a.2.device = device) = true)) he
    (by simp [hne, hdevice]) (fun x hx => (of_decide_eq_true hx).2)
  rw [holder, Dict.pop, List.find?_filter, hfirst, Option.map_some]

/-! ## What is known of a port -/

/-- A port that is flagged says so and is not live; one that is not says something only after it failed, and has a supervisor once it was
started, unless it is being stopped. -/
structure SerialPort.Sound (dup running busy : Prop) (p : SerialPort α) : Prop where
  flagged : dup → p.statusMessage ≠ [] ∧ p.supervisors = 0 ∧ p.isConnected = false
  said : ¬ dup → p.statusMessage ≠ [] → p.failed = true
  supervised : ¬ dup → ¬ busy → p.isConnected = true ∨ p.failed = true ∨ running → 0 < p.supervisors

theorem duplicateText_ne_nil (device holder : Text) : duplicateText device holder ≠ [] := by
  have hhead : "device ".toList ≠ [] := by decide
  unfold duplicateText
  simp only [ne_eq, List.append_eq_nil_iff, hhead, false_and, not_false_eq_true]

theorem Offline.text_ne_nil (device : Text) (why : Offline) : why.text device ≠ [] := by
  have hnotFound : "Serial device ".toList ≠ [] := by decide
  have hopen : "Failed to open ".toList ≠ [] := by decide
  have hdisconnected : "Disconnected from ".toList ≠ [] := by decide
  have hread : "Read error on ".toList ≠ [] := by decide
  have hlibrary : "pyserial-asyncio not installed".toList ≠ [] := by decide
  cases why <;> unfold Offline.text
  case notInstalled => exact hlibrary
  all_goals simp only [ne_eq, List.append_eq_nil_iff, hnotFound, hopen, hdisconnected, hread, false_and, not_false_eq_true]

@[simp] theorem device_resumeIfIdle : p.resumeIfIdle.device = p.device := by
  unfold SerialPort.resumeIfIdle
  split
  · rfl
  · split <;> rfl

@[simp] theorem device_start : p.start.device = p.device := by
  unfold SerialPort.start
  split
  · rfl
  · split <;> rfl

@[simp] theorem device_reflag {h : Option Text} : (reflag h n p).device = p.device := by
  unfold reflag
  split
  · split
    · exact device_resumeIfIdle
    · rfl
  · rfl

theorem resumeIfIdle_spec : p.resumeIfIdle.statusMessage = p.statusMessage ∧ p.resumeIfIdle.isConnected = p.isConnected ∧
    p.resumeIfIdle.failed = p.failed ∧ (p.isConnected = false → 0 < p.resumeIfIdle.supervisors) ∧
    p.supervisors ≤ p.resumeIfIdle.supervisors := by
  unfold SerialPort.resumeIfIdle
  split
  · rename_i hconn
    simp [hconn]
  · split
    · rename_i hlive
      simp [hlive]
    · simp_all

/-- After a recomputation a port that is not flagged says nothing. -/
theorem SerialPort.Sound.reflag {f running : Prop} {h : Option Text} (hs : p.Sound f running False) (hf : ¬ f → h = some n) :
    (reflag h n p).Sound (h ≠ some n) running False ∧ (h = some n → (reflag h n p).statusMessage = []) ∧
      (reflag h n p).failed = p.failed := by
  by_cases hh : h = some n
  · rw [OpenMux.Serial.reflag, if_pos hh]
    split
    · rename_i hsaid
      obtain ⟨hsay, hconn, hfail, hidle, hle⟩ := resumeIfIdle_spec (p := { p with statusMessage := [] })
      refine ⟨⟨fun hno => absurd hh hno, fun _ hne => absurd hsay hne, fun _ _ _ => ?_⟩, fun _ => hsay, hfail⟩
      by_cases hc : p.isConnected = true
      · have hno : ¬ f := by
          intro hflag
          rw [(hs.flagged hflag).2.2] at hc
          cases hc
        exact (hs.supervised hno id (.inl hc)).trans_le hle
      · exact hidle (Bool.not_eq_true _ ▸ hc)
    · rename_i hquiet
      have hno : ¬ f := fun hflag => hquiet (hs.flagged hflag).1
      exact ⟨⟨fun hno => absurd hh hno, fun _ => hs.said hno, fun _ => hs.supervised hno⟩, fun _ => not_not.mp hquiet, rfl⟩
  · have hflag : f := by
      by_contra hno
      exact hh (hf hno)
    obtain ⟨-, hsup, hconn⟩ := hs.flagged hflag
    have he : OpenMux.Serial.reflag h n p =
        { p with statusMessage := duplicateText p.device (h.getD []), state := .degraded } := by
      rw [OpenMux.Serial.reflag, if_neg hh]
    rw [he]
    refine ⟨⟨fun _ => ⟨duplicateText_ne_nil _ _, hsup, hconn⟩, fun hno => absurd hh hno, fun hno => absurd hh hno⟩,
      fun hyes => absurd hyes hh, rfl⟩

theorem SerialPort.Sound.mono {f r r' b b' : Prop} (h : p.Sound f r b) (hr : r' → r) (hb : b → b') : p.Sound f r' b' where
  flagged := h.flagged
  said := h.said
  supervised := fun hf hb' hlive => h.supervised hf (fun hbusy => hb' (hb hbusy)) (hlive.imp_right (.imp_right hr))

theorem SerialPort.Sound.idle {f r b : Prop} (h : p.Sound f r b) (hb : ¬ b) : p.Sound f r False := h.mono id hb

/-- A start leaves a port with a supervisor, or flagged. -/
theorem SerialPort.Sound.start {f r : Prop} (h : p.Sound f r False) :
    p.start.Sound f True False ∧ p.start.statusMessage = p.statusMessage ∧ p.start.failed = p.failed := by
  unfold SerialPort.start
  split
  · rename_i hconn
    exact ⟨⟨h.flagged, h.said, fun hf _ _ => h.supervised hf id (.inl hconn)⟩, rfl, rfl⟩
  · split
    · rename_i hsaid
      exact ⟨⟨h.flagged, h.said, fun hf _ _ => h.supervised hf id (.inr (.inl (h.said hf hsaid)))⟩, rfl, rfl⟩
    · rename_i hquiet
      refine ⟨⟨fun hf => absurd (h.flagged hf).1 hquiet, fun _ hsaid => absurd hsaid hquiet, fun _ _ _ => ?_⟩, rfl, rfl⟩
      exact Nat.succ_pos _

theorem sound_new (f b : Prop) [Decidable f] (entry : Entry α) (h : ¬ f) : ({ entry := entry } : SerialPort α).Sound f False b where
  flagged := fun hf => absurd hf h
  said := fun _ hne => absurd rfl hne
  supervised := fun _ _ hlive => by simp at hlive

namespace SerialAdapter

variable {cfg : Settings α} {s t : SerialAdapter α}

/-! ## The invariant -/

/-- The port is in its `stop`. -/
def Busy (s : SerialAdapter α) (n : Text) : Prop := s.stopping = true ∧ s.destroying.head? = some n

structure Inv (cfg : Settings α) (s : SerialAdapter α) : Prop where
  ports : ∀ n p, s.serialPorts.get? n = some p → p.Sound (Flagged s.serialPorts n p) (s.isRunning = true) (s.Busy n)
  nodup : s.destroying.Nodup
  present : ∀ n ∈ s.destroying, n ∈ s.serialPorts.keys
  fresh : ∀ e ∈ s.creating, e.1 ∈ s.serialPorts.keys → e.1 ∈ s.destroying
  distinct : (s.creating.map Prod.fst).Nodup
  accepted : ∀ e ∈ s.creating, e.1 ≠ [] ∧ cfg.accepts e.2 = true
  stopping : s.stopping = true → s.destroying ≠ []

theorem Inv.not_busy (h : Inv cfg s) (hs : s.stopping = false) (n : Text) : ¬ s.Busy n := by
  rintro ⟨hbusy, -⟩
  rw [hs] at hbusy
  cases hbusy

theorem Inv.not_stopping (h : Inv cfg s) (hidle : s.Idle) : s.stopping = false := by
  cases hs : s.stopping with
  | false => rfl
  | true => exact absurd hidle.1 (h.stopping hs)

/-- Between operations only the reason of a port that failed may be wrong. -/
theorem Inv.right_iff (h : Inv cfg s) (hidle : s.Idle) :
    s.Right ↔ ∀ n p, s.serialPorts.get? n = some p → ¬ Flagged s.serialPorts n p → p.failed = true → p.statusMessage ≠ [] := by
  have hunflagged : ∀ n p, s.serialPorts.get? n = some p → p.Live → ¬ Flagged s.serialPorts n p := by
    intro n p hp hlive hflag
    obtain ⟨-, hsup, hconn⟩ := (h.ports n p hp).flagged hflag
    rcases hlive with hlive | hlive
    · omega
    · rw [hconn] at hlive
      cases hlive
  constructor
  · intro hR n p hp _ hfailed
    exact (hR.reason n p hp).mpr (.inr hfailed)
  · intro hreason
    constructor
    case exclusive =>
      intro n n' p p' hp hp' hdevice hlive hlive'
      have hn := not_not.mp (hunflagged n p hp hlive)
      have hn' := not_not.mp (hunflagged n' p' hp' hlive')
      rw [hdevice, hn'] at hn
      exact (Option.some.inj hn).symm
    case supervised =>
      rintro hrun device ⟨n, p, hp, rfl⟩
      obtain ⟨m, hm⟩ := exists_holder hp
      obtain ⟨q, hq, hdevice⟩ := holder_inv hm
      have hflag : ¬ Flagged s.serialPorts m q := by
        rw [Flagged, hdevice, hm]
        simp
      refine ⟨m, ⟨q, hq, hdevice, hflag, (h.ports m q hq).supervised hflag (h.not_busy (h.not_stopping hidle) m) (.inr (.inr hrun))⟩, ?_⟩
      rintro m' ⟨q', hq', hdevice', hflag', -⟩
      have hm' := not_not.mp hflag'
      rw [hdevice', hm] at hm'
      exact (Option.some.inj hm').symm
    case reason =>
      intro n p hp
      by_cases hflag : Flagged s.serialPorts n p
      · exact iff_of_true ((h.ports n p hp).flagged hflag).1 (.inl hflag)
      · exact ⟨fun hsaid => .inr ((h.ports n p hp).said hflag hsaid), fun hor => hreason n p hp hflag (hor.resolve_left hflag)⟩

/-! ## Events of a port -/

theorem holder_update {f : SerialPort α → SerialPort α} (hf : ∀ p, (f p).device = p.device) :
    holder (ports.mapValues fun n p => if n = name then f p else p) device = holder ports device := by
  apply holder_mapValues
  intro n p
  split
  · exact hf p
  · rfl

theorem keys_mapValues {f : Text → SerialPort α → SerialPort α} : (ports.mapValues f).keys = ports.keys := by
  simp [Dict.keys, Dict.mapValues, Function.comp_def]

theorem update_inv {allowed : SerialPort α → Bool} {f : SerialPort α → SerialPort α} (h : s.update name allowed f = some t) :
    ∃ p, s.serialPorts.get? name = some p ∧ allowed p = true ∧
      t = { s with serialPorts := s.serialPorts.mapValues fun n p => if n = name then f p else p } := by
  unfold update at h
  split at h
  · rename_i hany
    obtain ⟨p, hp, hallowed⟩ := (Option.any_eq_true _ _).mp hany
    exact ⟨p, hp, hallowed, (Option.some.inj h).symm⟩
  · cases h

/-- An event keeps the invariant if it keeps what is known of its port. -/
theorem Inv.update (hI : Inv cfg s) {allowed : SerialPort α → Bool} {f : SerialPort α → SerialPort α}
    (h : s.update name allowed f = some t) (hdevice : ∀ p, (f p).device = p.device)
    (hsound : ∀ {dup running busy : Prop} {p : SerialPort α}, allowed p = true → p.Sound dup running busy → (f p).Sound dup running busy)
    (hreason : ∀ p, allowed p = true → (p.failed = true → p.statusMessage ≠ []) → (f p).failed = true → (f p).statusMessage ≠ []) :
    Inv cfg t ∧ ((s.Idle → s.Right) → t.Idle → t.Right) := by
  obtain ⟨q, hq, hallowed, rfl⟩ := update_inv h
  have hget : ∀ n p, (s.serialPorts.mapValues fun n p => if n = name then f p else p).get? n = some p →
      ∃ p₀, s.serialPorts.get? n = some p₀ ∧ p = if n = name then f p₀ else p₀ := by
    intro n p hp
    rw [Dict.get?_mapValues] at hp
    obtain ⟨p₀, hp₀, he⟩ := Option.map_eq_some_iff.mp hp
    exact ⟨p₀, hp₀, he.symm⟩
  have hflagged : ∀ n p, Flagged (s.serialPorts.mapValues fun n p => if n = name then f p else p) n (if n = name then f p else p) ↔
      Flagged s.serialPorts n p := by
    intro n p
    rw [Flagged, Flagged, holder_update hdevice]
    split
    · rw [hdevice]
    · rfl
  have hinv : Inv cfg { s with serialPorts := s.serialPorts.mapValues fun n p => if n = name then f p else p } := by
    constructor
    case ports =>
      intro n p hp
      obtain ⟨p₀, hp₀, rfl⟩ := hget n p hp
      rw [hflagged]
      have hs := hI.ports n p₀ hp₀
      split
      · rename_i hn
        rw [hn] at hp₀
        rw [hq] at hp₀
        cases hp₀
        exact hsound hallowed hs
      · exact hs
    case nodup => exact hI.nodup
    case present =>
      rw [keys_mapValues]
      exact hI.present
    case fresh =>
      rw [keys_mapValues]
      exact hI.fresh
    case distinct => exact hI.distinct
    case accepted => exact hI.accepted
    case stopping => exact hI.stopping
  refine ⟨hinv, fun hR hidle => ?_⟩
  rw [hinv.right_iff hidle]
  intro n p hp hno
  obtain ⟨p₀, hp₀, rfl⟩ := hget n p hp
  rw [hflagged] at hno
  have hold : p₀.failed = true → p₀.statusMessage ≠ [] := fun hfail => ((hR hidle).reason n p₀ hp₀).mpr (.inr hfail)
  split
  · rename_i hn
    rw [hn] at hp₀
    rw [hq] at hp₀
    cases hp₀
    exact hreason q hallowed hold
  · exact hold

theorem attempts_pos (h : attempts p = true) : 0 < p.supervisors := by
  unfold attempts at h
  exact of_decide_eq_true (Bool.and_eq_true_iff.mp h).1

/-- A port with a supervisor is not flagged. -/
theorem not_dup_of_pos {dup running busy : Prop} (hs : p.Sound dup running busy) (h : 0 < p.supervisors) : ¬ dup := by
  intro hdup
  obtain ⟨-, hsup, -⟩ := hs.flagged hdup
  omega

theorem not_dup_of_connected {dup running busy : Prop} (hs : p.Sound dup running busy) (h : p.isConnected = true) : ¬ dup := by
  intro hdup
  rw [(hs.flagged hdup).2.2] at h
  cases h

theorem Inv.connects (hI : Inv cfg s) (h : s.step cfg (.connects name) = some t) : Inv cfg t ∧ ((s.Idle → s.Right) → t.Idle → t.Right) := by
  apply hI.update h (fun _ => rfl)
  · intro dup running busy p hp hs
    have hpos := attempts_pos hp
    exact ⟨fun hdup => absurd hdup (not_dup_of_pos hs hpos), fun _ hne => absurd rfl hne, fun _ _ _ => hpos⟩
  · intro p _ _ hfailed
    cases hfailed

theorem Inv.fails (hI : Inv cfg s) {why : Offline} (h : s.step cfg (.fails name why) = some t) :
    Inv cfg t ∧ ((s.Idle → s.Right) → t.Idle → t.Right) := by
  apply hI.update h (fun _ => rfl)
  · intro dup running busy p hp hs
    have hpos := attempts_pos hp
    exact ⟨fun hdup => absurd hdup (not_dup_of_pos hs hpos), fun _ _ => rfl, fun _ _ _ => hpos⟩
  · intro p _ _ _
    exact why.text_ne_nil p.device

theorem Inv.drops (hI : Inv cfg s) {why : Offline} (h : s.step cfg (.drops name why) = some t) :
    Inv cfg t ∧ ((s.Idle → s.Right) → t.Idle → t.Right) := by
  apply hI.update h (fun _ => rfl)
  · intro dup running busy p hp hs
    have hdup := not_dup_of_connected hs hp
    exact ⟨fun hyes => absurd hyes hdup, fun _ _ => rfl, fun _ hbusy _ => hs.supervised hdup hbusy (.inl hp)⟩
  · intro p _ _ _
    exact why.text_ne_nil p.device

theorem Inv.ends (hI : Inv cfg s) (h : s.step cfg (.ends name) = some t) : Inv cfg t ∧ ((s.Idle → s.Right) → t.Idle → t.Right) := by
  apply hI.update h (fun _ => rfl)
  · intro dup running busy p hp hs
    have hdup := not_dup_of_connected hs hp
    exact ⟨fun hyes => absurd hyes hdup, hs.said, fun _ hbusy _ => hs.supervised hdup hbusy (.inl hp)⟩
  · intro p _ hold
    exact hold

/-! ## Operations -/

theorem Inv.start (hI : Inv cfg s) (hidle : s.Idle) : Inv cfg s.doStart ∧ (s.Right → s.doStart.Right) := by
  unfold doStart
  split
  · exact ⟨hI, id⟩
  · have hbusy := hI.not_busy (hI.not_stopping hidle)
    have hflagged : ∀ n p, Flagged (s.serialPorts.mapValues fun _ p => p.start) n p.start ↔ Flagged s.serialPorts n p := by
      intro n p
      rw [Flagged, Flagged, holder_mapValues (fun _ _ => device_start), device_start]
    have hget : ∀ n p, (s.serialPorts.mapValues fun _ p => p.start).get? n = some p →
        ∃ p₀, s.serialPorts.get? n = some p₀ ∧ p = p₀.start := by
      intro n p hp
      rw [Dict.get?_mapValues] at hp
      obtain ⟨p₀, hp₀, he⟩ := Option.map_eq_some_iff.mp hp
      exact ⟨p₀, hp₀, he.symm⟩
    have hinv : Inv cfg { s with serialPorts := s.serialPorts.mapValues fun _ p => p.start, isRunning := true } := by
      constructor
      case ports =>
        intro n p hp
        obtain ⟨p₀, hp₀, rfl⟩ := hget n p hp
        rw [hflagged]
        have hs := (hI.ports n p₀ hp₀).idle (hbusy n)
        exact hs.start.1.mono (fun _ => trivial) False.elim
      case nodup => exact hI.nodup
      case present =>
        rw [keys_mapValues]
        exact hI.present
      case fresh =>
        rw [keys_mapValues]
        exact hI.fresh
      case distinct => exact hI.distinct
      case accepted => exact hI.accepted
      case stopping => exact hI.stopping
    refine ⟨hinv, fun hR => ?_⟩
    rw [hinv.right_iff hidle]
    intro n p hp hno hfail
    obtain ⟨p₀, hp₀, rfl⟩ := hget n p hp
    have hs := (hI.ports n p₀ hp₀).idle (hbusy n)
    rw [hs.start.2.1]
    rw [hs.start.2.2] at hfail
    exact (hR.reason n p₀ hp₀).mpr (.inr hfail)

theorem device_new (entry : Entry α) : ({ entry := entry } : SerialPort α).device = entry.device := rfl

/-- The ports after a creation. -/
theorem get?_createPort (hname : name ≠ []) (haccepts : cfg.accepts entry = true) (n : Text) :
    (s.createPort cfg name entry).serialPorts.get? n =
      if n = name then
        some (reflag (holder (s.serialPorts.set name { entry := entry }) entry.device) name { entry := entry }).start
      else (s.serialPorts.get? n).map fun p => reflag (holder (s.serialPorts.set name { entry := entry }) p.device) n p := by
  rw [createPort, if_pos ⟨hname, haccepts⟩]
  simp only [Dict.get?_mapValues, recompute, Dict.get?_set]
  by_cases hn : n = name
  · subst hn
    simp [device_new]
  · simp [hn, Function.comp_def]

theorem holder_createPort (hname : name ≠ []) (haccepts : cfg.accepts entry = true) :
    holder (s.createPort cfg name entry).serialPorts device = holder (s.serialPorts.set name { entry := entry }) device := by
  rw [createPort, if_pos ⟨hname, haccepts⟩]
  simp only
  rw [holder_update (fun _ => device_start), recompute, holder_mapValues (fun _ _ => device_reflag)]

/-- The holders of the ports that were there stay. -/
theorem holder_set_iff (h : ports.get? name = none) (hp : ports.get? n = some p) (q : SerialPort α) :
    holder (ports.set name q) p.device = some n ↔ holder ports p.device = some n := by
  obtain ⟨m, hm⟩ := exists_holder hp
  rw [holder_set h, hm, Option.some_or]

theorem keys_createPort (hname : name ≠ []) (haccepts : cfg.accepts entry = true) {n : Text} :
    n ∈ (s.createPort cfg name entry).serialPorts.keys ↔ n = name ∨ n ∈ s.serialPorts.keys := by
  rw [createPort, if_pos ⟨hname, haccepts⟩]
  simp only [keys_mapValues, recompute, Dict.mem_keys_set]

theorem createPort_rest (cfg : Settings α) (s : SerialAdapter α) (name : Text) (entry : Entry α) :
    (s.createPort cfg name entry).isRunning = s.isRunning ∧ (s.createPort cfg name entry).destroying = s.destroying ∧
      (s.createPort cfg name entry).creating = s.creating ∧ (s.createPort cfg name entry).stopping = s.stopping := by
  unfold createPort
  split <;> exact ⟨rfl, rfl, rfl, rfl⟩

/-- A port that was there, after a creation. -/
theorem Inv.createPort_old (hI : Inv cfg s) (hstop : s.stopping = false) (hnew : s.serialPorts.get? name = none) (hname : name ≠ [])
    (haccepts : cfg.accepts entry = true) (hp : s.serialPorts.get? n = some p) :
    ∃ q, (s.createPort cfg name entry).serialPorts.get? n = some q ∧
      (Flagged (s.createPort cfg name entry).serialPorts n q ↔ Flagged s.serialPorts n p) ∧
      q.Sound (Flagged s.serialPorts n p) (s.isRunning = true) False ∧
      (¬ Flagged s.serialPorts n p → q.statusMessage = []) ∧ q.failed = p.failed := by
  have hne : n ≠ name := by
    rintro rfl
    rw [hnew] at hp
    cases hp
  have hholder := holder_set_iff hnew hp { entry := entry }
  have hs := (hI.ports n p hp).idle (hI.not_busy hstop n)
  obtain ⟨hsound, hquiet, hfailed⟩ := hs.reflag (n := n) (fun hno => hholder.mpr (not_not.mp hno))
  refine ⟨reflag (holder (s.serialPorts.set name { entry := entry }) p.device) n p, ?_, ?_, ?_, ?_, hfailed⟩
  · rw [get?_createPort hname haccepts, if_neg hne, hp, Option.map_some]
  · rw [Flagged, Flagged, holder_createPort hname haccepts, device_reflag]
    exact not_congr hholder
  · have hiff : (holder (s.serialPorts.set name { entry := entry }) p.device ≠ some n) = Flagged s.serialPorts n p :=
      propext (not_congr hholder)
    rw [hiff] at hsound
    exact hsound
  · intro hno
    exact hquiet (hholder.mpr (not_not.mp hno))

/-- A port that has just been built. -/
theorem sound_reflag_new (h : Option Text) (name : Text) (entry : Entry α) :
    (reflag h name ({ entry := entry } : SerialPort α)).Sound (h ≠ some name) False False ∧
      (reflag h name ({ entry := entry } : SerialPort α)).failed = false := by
  by_cases hh : h = some name
  · obtain ⟨hsound, -, hfailed⟩ := (sound_new False False entry id).reflag (n := name) (h := h) (fun _ => hh)
    exact ⟨hsound, hfailed⟩
  · rw [reflag, if_neg hh]
    exact ⟨⟨fun _ => ⟨duplicateText_ne_nil _ _, rfl, rfl⟩, fun hno => absurd hh hno, fun hno => absurd hh hno⟩, rfl⟩

/-- The port that is created. -/
theorem createPort_new (hname : name ≠ []) (haccepts : cfg.accepts entry = true) :
    ∃ q, (s.createPort cfg name entry).serialPorts.get? name = some q ∧
      q.Sound (Flagged (s.createPort cfg name entry).serialPorts name q) (s.isRunning = true) False ∧ q.failed = false := by
  obtain ⟨hsound, hfailed⟩ := sound_reflag_new (holder (s.serialPorts.set name { entry := entry }) entry.device) name entry
  obtain ⟨hstart, -, hfailed'⟩ := hsound.start
  refine ⟨_, by rw [get?_createPort hname haccepts, if_pos rfl], ?_, hfailed'.trans hfailed⟩
  rw [Flagged, holder_createPort hname haccepts, device_start, device_reflag]
  exact hstart.mono (fun _ => trivial) id

/-- The ports of a creation are what they should be, apart from a reason that is lost. -/
theorem Inv.createPort (hI : Inv cfg s) (hstop : s.stopping = false) (hnew : s.serialPorts.get? name = none) (hname : name ≠ [])
    (haccepts : cfg.accepts entry = true) (hp : (s.createPort cfg name entry).serialPorts.get? n = some p) :
    p.Sound (Flagged (s.createPort cfg name entry).serialPorts n p) (s.isRunning = true) False := by
  by_cases hn : n = name
  · subst hn
    obtain ⟨q, hq, hsound, -⟩ := createPort_new (s := s) hname haccepts
    rw [hq] at hp
    cases hp
    exact hsound
  · have hold := hp
    rw [get?_createPort hname haccepts, if_neg hn] at hold
    obtain ⟨p₀, hp₀, -⟩ := Option.map_eq_some_iff.mp hold
    obtain ⟨q, hq, hflag, hsound, -⟩ := hI.createPort_old hstop hnew hname haccepts hp₀
    rw [hq] at hp
    cases hp
    rw [hflag]
    exact hsound

/-- After a creation all is right exactly if no port had a reason to lose. -/
theorem Inv.right_createPort (hI : Inv cfg s) (hstop : s.stopping = false) (hnew : s.serialPorts.get? name = none) (hname : name ≠ [])
    (haccepts : cfg.accepts entry = true) (ht : Inv cfg t) (hidle : t.Idle)
    (hports : t.serialPorts = (s.createPort cfg name entry).serialPorts) : t.Right ↔ Quiet s.serialPorts := by
  rw [ht.right_iff hidle, hports]
  constructor
  · rintro hreason ⟨n, p⟩ he hno
    have hp := Dict.mem_entries.mp he
    obtain ⟨q, hq, hflag, -, hquiet, hfailed⟩ := hI.createPort_old hstop hnew hname haccepts hp
    rw [← hfailed]
    by_contra hfail
    exact hreason n q hq (by rw [hflag]; exact hno) (Bool.not_eq_false _ ▸ hfail) (hquiet hno)
  · intro hq n p hp hno hfail
    by_cases hn : n = name
    · subst hn
      obtain ⟨q, hq', -, hfailed⟩ := createPort_new (s := s) hname haccepts
      rw [hq'] at hp
      cases hp
      rw [hfailed] at hfail
      cases hfail
    · have hold := hp
      rw [get?_createPort hname haccepts, if_neg hn] at hold
      obtain ⟨p₀, hp₀, -⟩ := Option.map_eq_some_iff.mp hold
      obtain ⟨q, hq', hflag, -, -, hfailed⟩ := hI.createPort_old hstop hnew hname haccepts hp₀
      rw [hq'] at hp
      cases hp
      rw [hflag] at hno
      rw [hfailed, hq (n, p₀) (Dict.mem_entries.mpr hp₀) hno] at hfail
      cases hfail

/-! ## The end of a stop -/

/-- The port that goes frees its device: one that was not flagged stays so. -/
theorem get?_finishStop (hne : n ≠ name) : (s.finishStop name).serialPorts.get? n =
    (s.serialPorts.get? n).map fun p => reflag (holder (s.serialPorts.pop name) p.device) n p := by
  simp only [finishStop, recompute, Dict.get?_mapValues, Dict.get?_pop, if_neg hne]

theorem get?_finishStop_self : (s.finishStop name).serialPorts.get? name = none := by
  simp [finishStop, recompute, Dict.get?_mapValues]

theorem flagged_finishStop {q : SerialPort α} : Flagged (s.finishStop name).serialPorts n q ↔ Flagged (s.serialPorts.pop name) n q := by
  rw [Flagged, Flagged, finishStop]
  simp only
  rw [recompute, holder_mapValues (fun _ _ => device_reflag)]

theorem Inv.finishStop_old (hI : Inv cfg s) (hbusy : ¬ s.Busy n) (hne : n ≠ name) (hp : s.serialPorts.get? n = some p) :
    ∃ q, (s.finishStop name).serialPorts.get? n = some q ∧
      (Flagged (s.finishStop name).serialPorts n q ↔ Flagged (s.serialPorts.pop name) n p) ∧
      q.Sound (Flagged (s.serialPorts.pop name) n p) (s.isRunning = true) False ∧
      (¬ Flagged (s.serialPorts.pop name) n p → q.statusMessage = []) ∧ q.failed = p.failed := by
  have hs := (hI.ports n p hp).idle hbusy
  obtain ⟨hsound, hquiet, hfailed⟩ := hs.reflag (n := n) (h := holder (s.serialPorts.pop name) p.device)
    (fun hno => holder_pop (not_not.mp hno) hne)
  refine ⟨reflag (holder (s.serialPorts.pop name) p.device) n p, ?_, ?_, hsound, fun hno => hquiet (not_not.mp hno), hfailed⟩
  · rw [get?_finishStop hne, hp, Option.map_some]
  · rw [flagged_finishStop, Flagged, Flagged, device_reflag]

theorem finishStop_inv (hp : (s.finishStop name).serialPorts.get? n = some p) : n ≠ name ∧ ∃ p₀, s.serialPorts.get? n = some p₀ := by
  have hne : n ≠ name := by
    rintro rfl
    rw [get?_finishStop_self] at hp
    cases hp
  rw [get?_finishStop hne] at hp
  obtain ⟨p₀, hp₀, -⟩ := Option.map_eq_some_iff.mp hp
  exact ⟨hne, p₀, hp₀⟩

theorem Inv.finishStop (hI : Inv cfg s) (hbusy : ∀ n, n ≠ name → ¬ s.Busy n) (hp : (s.finishStop name).serialPorts.get? n = some p) :
    p.Sound (Flagged (s.finishStop name).serialPorts n p) (s.isRunning = true) False := by
  obtain ⟨hne, p₀, hp₀⟩ := finishStop_inv hp
  obtain ⟨q, hq, hflag, hsound, -⟩ := hI.finishStop_old (hbusy n hne) hne hp₀
  rw [hq] at hp
  cases hp
  rw [hflag]
  exact hsound

/-- After the end of a stop all is right exactly if no port had a reason to lose. -/
theorem Inv.right_finishStop (hI : Inv cfg s) (hbusy : ∀ n, n ≠ name → ¬ s.Busy n) (ht : Inv cfg t) (hidle : t.Idle)
    (hports : t.serialPorts = (s.finishStop name).serialPorts) : t.Right ↔ Quiet (s.serialPorts.pop name) := by
  rw [ht.right_iff hidle, hports]
  constructor
  · rintro hreason ⟨n, p⟩ he hno
    have hp := Dict.mem_entries.mp he
    rw [Dict.get?_pop] at hp
    split at hp
    · cases hp
    · rename_i hne
      obtain ⟨q, hq, hflag, -, hquiet, hfailed⟩ := hI.finishStop_old (hbusy n hne) hne hp
      rw [← hfailed]
      by_contra hfail
      exact hreason n q hq (by rw [hflag]; exact hno) (Bool.not_eq_false _ ▸ hfail) (hquiet hno)
  · intro hquiet n p hp hno hfail
    obtain ⟨hne, p₀, hp₀⟩ := finishStop_inv hp
    obtain ⟨q, hq, hflag, -, -, hfailed⟩ := hI.finishStop_old (hbusy n hne) hne hp₀
    rw [hq] at hp
    cases hp
    rw [hflag] at hno
    have hp₀' : (s.serialPorts.pop name).get? n = some p₀ := by rw [Dict.get?_pop_ne _ hne, hp₀]
    rw [hfailed, hquiet (n, p₀) (Dict.mem_entries.mpr hp₀') hno] at hfail
    cases hfail

/-! ## The pieces of an operation -/

theorem Inv.beginStop (hI : Inv cfg s) {rest : List Text} (hdestroying : s.destroying = name :: rest) (hstop : s.stopping = false) :
    Inv cfg (s.beginStop name) := by
  have hbusy : ∀ n, (s.beginStop name).Busy n ↔ n = name := by
    intro n
    simp only [Busy, SerialAdapter.beginStop, hdestroying, List.head?_cons, Option.some.injEq, true_and]
    exact eq_comm
  constructor
  case ports =>
    intro n p hp
    rw [SerialAdapter.beginStop, Dict.get?_mapValues] at hp
    obtain ⟨p₀, hp₀, rfl⟩ := Option.map_eq_some_iff.mp hp
    have hs := hI.ports n p₀ hp₀
    rw [hbusy]
    have hflag : ∀ q : SerialPort α, Flagged (s.beginStop name).serialPorts n q ↔ Flagged s.serialPorts n q := by
      intro q
      rw [Flagged, Flagged, SerialAdapter.beginStop, holder_update]
      exact fun _ => rfl
    rw [hflag]
    split
    · rename_i hn
      exact ⟨fun hdup => ⟨(hs.flagged hdup).1, rfl, (hs.flagged hdup).2.2⟩, hs.said, fun _ hno => absurd hn hno⟩
    · exact hs.mono id fun hb => absurd hb (hI.not_busy hstop n)
  case nodup => exact hI.nodup
  case present =>
    rw [SerialAdapter.beginStop, keys_mapValues]
    exact hI.present
  case fresh =>
    rw [SerialAdapter.beginStop, keys_mapValues]
    exact hI.fresh
  case distinct => exact hI.distinct
  case accepted => exact hI.accepted
  case stopping =>
    intro _
    rw [SerialAdapter.beginStop, hdestroying]
    exact List.cons_ne_nil name rest

theorem keys_finishStop {n : Text} : n ∈ (s.finishStop name).serialPorts.keys ↔ n ≠ name ∧ n ∈ s.serialPorts.keys := by
  rw [SerialAdapter.finishStop, recompute, keys_mapValues, Dict.mem_keys_pop]

theorem Inv.destroyed (hI : Inv cfg s) {rest : List Text} (hdestroying : s.destroying = name :: rest) :
    Inv cfg { s.finishStop name with destroying := rest } ∧
      (Idle { s.finishStop name with destroying := rest } →
        (Right { s.finishStop name with destroying := rest } ↔ Quiet (s.serialPorts.pop name))) := by
  have hnodup := hI.nodup
  rw [hdestroying, List.nodup_cons] at hnodup
  have hbusy : ∀ n, n ≠ name → ¬ s.Busy n := by
    rintro n hne ⟨-, hhead⟩
    rw [hdestroying, List.head?_cons] at hhead
    exact hne (Option.some.inj hhead).symm
  have ht : Inv cfg { s.finishStop name with destroying := rest } := by
    constructor
    case ports =>
      intro n p hp
      exact (hI.finishStop hbusy hp).mono id (fun hb => (by cases hb))
    case nodup => exact hnodup.2
    case present =>
      intro n hn
      refine keys_finishStop.mpr ⟨?_, hI.present n (by rw [hdestroying]; exact List.mem_cons_of_mem _ hn)⟩
      rintro rfl
      exact hnodup.1 hn
    case fresh =>
      intro e he hmem
      obtain ⟨hne, hmem⟩ := keys_finishStop.mp hmem
      have hold := hI.fresh e he hmem
      rw [hdestroying] at hold
      exact (List.mem_cons.mp hold).resolve_left hne
    case distinct => exact hI.distinct
    case accepted => exact hI.accepted
    case stopping =>
      intro hs
      cases hs
  exact ⟨ht, fun hidle => hI.right_finishStop hbusy ht hidle rfl⟩

theorem Inv.created (hI : Inv cfg s) {rest : List (Text × Entry α)} (hdestroying : s.destroying = [])
    (hcreating : s.creating = (name, entry) :: rest) : Inv cfg { s.createPort cfg name entry with creating := rest } ∧
      (Idle { s.createPort cfg name entry with creating := rest } →
        (Right { s.createPort cfg name entry with creating := rest } ↔ Quiet s.serialPorts)) := by
  have hstop : s.stopping = false := by
    cases hs : s.stopping with
    | false => rfl
    | true => exact absurd hdestroying (hI.stopping hs)
  obtain ⟨hname, haccepts⟩ := hI.accepted (name, entry) (by rw [hcreating]; exact List.mem_cons_self)
  have habsent : ∀ e ∈ s.creating, e.1 ∉ s.serialPorts.keys := by
    intro e he hmem
    have hold := hI.fresh e he hmem
    rw [hdestroying] at hold
    cases hold
  have hnew : s.serialPorts.get? name = none := by
    cases hget : s.serialPorts.get? name with
    | none => rfl
    | some p => exact absurd (Dict.mem_keys.mpr ⟨p, hget⟩) (habsent (name, entry) (by rw [hcreating]; exact List.mem_cons_self))
  have hdistinct := hI.distinct
  rw [hcreating, List.map_cons, List.nodup_cons] at hdistinct
  obtain ⟨hrun, hdest, -, hstop'⟩ := createPort_rest cfg s name entry
  have ht : Inv cfg { s.createPort cfg name entry with creating := rest } := by
    constructor
    case ports =>
      intro n p hp
      refine (hI.createPort hstop hnew hname haccepts hp).mono ?_ ?_
      · exact fun h => hrun ▸ h
      · exact False.elim
    case nodup => exact hdest ▸ hI.nodup
    case present =>
      intro n hn
      simp only [hdest, hdestroying] at hn
      cases hn
    case fresh =>
      intro e he hmem
      exfalso
      rcases (keys_createPort hname haccepts).mp hmem with hn | hold
      · exact hdistinct.1 (hn ▸ List.mem_map_of_mem he)
      · exact habsent e (by rw [hcreating]; exact List.mem_cons_of_mem _ he) hold
    case distinct => exact hdistinct.2
    case accepted => exact fun e he => hI.accepted e (by rw [hcreating]; exact List.mem_cons_of_mem _ he)
    case stopping =>
      intro hs
      simp only [hstop', hstop] at hs
      cases hs
  exact ⟨ht, fun hidle => hI.right_createPort hstop hnew hname haccepts ht hidle rfl⟩

theorem Inv.advance (hI : Inv cfg s) (h : s.advance cfg = some t) :
    Inv cfg t ∧ ((t.Idle → t.Right) ↔ Clean cfg s .advance) := by
  cases hdestroying : s.destroying with
  | cons name rest =>
      cases hstop : s.stopping with
      | true =>
          simp only [SerialAdapter.advance, hdestroying, hstop, if_true, Option.some.injEq] at h
          subst h
          obtain ⟨ht, hright⟩ := hI.destroyed hdestroying
          refine ⟨ht, ?_⟩
          have hidle : Idle { s.finishStop name with destroying := rest } ↔ rest = [] ∧ s.creating = [] := Iff.rfl
          cases rest with
          | nil =>
              cases hcreating : s.creating with
              | nil =>
                  simp only [Clean, hdestroying, hcreating, hstop, forall_const]
                  have hi := hidle.mpr ⟨rfl, hcreating⟩
                  rw [← hright hi]
                  exact ⟨fun hr => hr hi, fun hr _ => hr⟩
              | cons e es =>
                  simp only [Clean, hdestroying, hcreating, iff_true]
                  intro hi
                  rw [hidle, hcreating] at hi
                  cases hi.2
          | cons n ns =>
              simp only [Clean, hdestroying, iff_true]
              intro hi
              cases (hidle.mp hi).1
      | false =>
          have hmem : name ∈ s.serialPorts.keys := hI.present name (by rw [hdestroying]; exact List.mem_cons_self)
          simp only [SerialAdapter.advance, hdestroying, hstop, Bool.false_eq_true, if_false, if_pos hmem, Option.some.injEq] at h
          subst h
          refine ⟨hI.beginStop hdestroying hstop, iff_of_true (fun hi => ?_) ?_⟩
          · have hnil : s.destroying = [] := hi.1
            rw [hdestroying] at hnil
            cases hnil
          · simp only [Clean, hdestroying]
            split
            · intro hs
              rw [hstop] at hs
              cases hs
            · rename_i hd _
              cases hd
            · trivial
  | nil =>
      cases hcreating : s.creating with
      | nil =>
          simp only [SerialAdapter.advance, hdestroying, hcreating] at h
          cases h
      | cons e rest =>
          obtain ⟨name, entry⟩ := e
          simp only [SerialAdapter.advance, hdestroying, hcreating, Option.some.injEq] at h
          subst h
          obtain ⟨ht, hright⟩ := hI.created hdestroying hcreating
          refine ⟨ht, ?_⟩
          have hidle : Idle { s.createPort cfg name entry with creating := rest } ↔ rest = [] := by
            simp only [Idle, (createPort_rest cfg s name entry).2.1, hdestroying, true_and]
          cases rest with
          | nil =>
              simp only [Clean, hdestroying, hcreating]
              rw [← hright (hidle.mpr rfl)]
              exact ⟨fun hr => hr (hidle.mpr rfl), fun hr _ => hr⟩
          | cons e' es =>
              simp only [Clean, hdestroying, hcreating, iff_true]
              intro hi
              cases hidle.mp hi

/-! ## The calls -/

theorem Inv.create (hI : Inv cfg s) (entry : Entry α) (hidle : s.Idle) (hnew : name ∉ s.serialPorts.keys) :
    Inv cfg (s.createPort cfg name entry) ∧
      (s.Right → ((s.createPort cfg name entry).Right ↔ Clean cfg s (.create name entry))) := by
  by_cases haccepts : name ≠ [] ∧ cfg.accepts entry = true
  · let called : SerialAdapter α := { s with creating := [(name, entry)] }
    have hcalled : Inv cfg called := by
      constructor
      case ports => exact hI.ports
      case nodup => exact hI.nodup
      case present => exact hI.present
      case fresh =>
        intro e he hmem
        rw [List.mem_singleton.mp he] at hmem
        exact absurd hmem hnew
      case distinct => exact List.nodup_singleton name
      case accepted =>
        intro e he
        rw [List.mem_singleton.mp he]
        exact haccepts
      case stopping => exact hI.stopping
    obtain ⟨ht, hright⟩ := hcalled.created hidle.1 rfl
    have he : ({ called.createPort cfg name entry with creating := [] } : SerialAdapter α) = s.createPort cfg name entry := by
      simp only [SerialAdapter.createPort, if_pos haccepts, called, hidle.2]
    rw [he] at ht hright
    obtain ⟨-, hdestroying, hcreating, -⟩ := createPort_rest cfg s name entry
    have hidle' : (s.createPort cfg name entry).Idle := ⟨hdestroying.trans hidle.1, hcreating.trans hidle.2⟩
    refine ⟨ht, fun _ => ?_⟩
    rw [hright hidle']
    exact ⟨fun hq _ => hq, fun hq => hq haccepts⟩
  · rw [SerialAdapter.createPort, if_neg haccepts]
    exact ⟨hI, fun hR => iff_of_true hR fun h => absurd h haccepts⟩

theorem Inv.destroy (hI : Inv cfg s) (hidle : s.Idle) :
    Inv cfg { s with destroying := [name].filter (· ∈ s.serialPorts.keys) } where
  ports := fun n p hp => (hI.ports n p hp).mono id fun hb => absurd hb (hI.not_busy (hI.not_stopping hidle) n)
  nodup := List.Nodup.filter _ (List.nodup_singleton name)
  present := fun n hn => of_decide_eq_true (List.mem_filter.mp hn).2
  fresh := by
    intro e he
    rw [hidle.2] at he
    cases he
  distinct := hI.distinct
  accepted := hI.accepted
  stopping := by
    intro hs
    rw [hI.not_stopping hidle] at hs
    cases hs

theorem mem_sortNames {names : List Text} : n ∈ sortNames names ↔ n ∈ names := List.mem_insertionSort _

theorem nodup_sortNames {names : List Text} : (sortNames names).Nodup ↔ names.Nodup := (List.perm_insertionSort _ names).nodup_iff

theorem newByName_ne_nil (entries : List (Text × Entry α)) : ∀ n ∈ (newByName entries).keys, n ≠ [] := by
  have hfold : ∀ (entries : List (Text × Entry α)) (d : Dict Text (Entry α)), (∀ n ∈ d.keys, n ≠ []) →
      ∀ n ∈ (entries.foldl (fun d e => if e.1 ≠ [] then d.set e.1 e.2 else d) d).keys, n ≠ [] := by
    intro entries
    induction entries with
    | nil => exact fun d hd => hd
    | cons e es ih =>
        intro d hd
        apply ih
        dsimp only
        split
        · rename_i he
          intro n hn
          rcases Dict.mem_keys_set.mp hn with rfl | hn
          · exact he
          · exact hd n hn
        · exact hd
  exact hfold entries ∅ fun n hn => (by cases hn)

/-- What a reload has to create is in the new configuration, and the constructor takes it. -/
theorem mem_creating {names : List Text} {new : Dict Text (Entry α)} {e : Text × Entry α}
    (h : e ∈ names.filterMap fun n => (new.get? n).map fun e => (n, e)) : e.1 ∈ names ∧ new.get? e.1 = some e.2 := by
  obtain ⟨n, hn, he⟩ := List.mem_filterMap.mp h
  obtain ⟨entry, hentry, rfl⟩ := Option.map_eq_some_iff.mp he
  exact ⟨hn, hentry⟩

theorem nodup_creating {names : List Text} {new : Dict Text (Entry α)} (h : names.Nodup) :
    ((names.filterMap fun n => (new.get? n).map fun e => (n, e)).map Prod.fst).Nodup := by
  rw [List.map_filterMap]
  refine h.filterMap fun a b n ha hb => ?_
  simp only [Option.map_map, Option.mem_def, Option.map_eq_some_iff, Function.comp_apply] at ha hb
  obtain ⟨-, -, rfl⟩ := ha
  obtain ⟨-, -, hb⟩ := hb
  exact hb.symm

theorem Inv.reconcile (hI : Inv cfg s) (hidle : s.Idle) (entries : List (Text × Entry α)) : Inv cfg (s.reconcilePorts cfg entries) := by
  have hkeys : s.serialPorts.keys.Nodup := s.serialPorts.nodup
  have hnewKeys : (newByName entries).keys.Nodup := (newByName entries).nodup
  have hremoved : ∀ n ∈ s.removedNames (newByName entries), n ∈ s.serialPorts.keys ∧ n ∉ (newByName entries).keys := by
    intro n hn
    have hn' := List.mem_filter.mp (mem_sortNames.mp hn)
    exact ⟨hn'.1, of_decide_eq_true hn'.2⟩
  have hadded : ∀ n ∈ s.addedNames (newByName entries), n ∈ (newByName entries).keys ∧ n ∉ s.serialPorts.keys := by
    intro n hn
    have hn' := List.mem_filter.mp (mem_sortNames.mp hn)
    exact ⟨hn'.1, of_decide_eq_true hn'.2⟩
  have hupdated : ∀ n ∈ s.updatedNames cfg (newByName entries), n ∈ s.serialPorts.keys ∧ n ∈ (newByName entries).keys := by
    intro n hn
    have hn' := List.mem_filter.mp (mem_sortNames.mp (List.mem_filter.mp hn).1)
    exact ⟨hn'.1, of_decide_eq_true hn'.2⟩
  have hnodupRemoved : (s.removedNames (newByName entries)).Nodup := nodup_sortNames.mpr (hkeys.filter _)
  have hnodupAdded : (s.addedNames (newByName entries)).Nodup := nodup_sortNames.mpr (hnewKeys.filter _)
  have hnodupUpdated : (s.updatedNames cfg (newByName entries)).Nodup := (nodup_sortNames.mpr (hkeys.filter _)).filter _
  constructor
  case ports => exact fun n p hp => (hI.ports n p hp).mono id fun hb => absurd hb (hI.not_busy (hI.not_stopping hidle) n)
  case nodup =>
    refine List.nodup_append.mpr ⟨hnodupRemoved, hnodupUpdated.filter _, ?_⟩
    rintro n hn m hm rfl
    exact (hremoved n hn).2 (hupdated n (List.mem_filter.mp hm).1).2
  case present =>
    intro n hn
    rcases List.mem_append.mp hn with hn | hn
    · exact (hremoved n hn).1
    · exact (hupdated n (List.mem_filter.mp hn).1).1
  case fresh =>
    intro e he hmem
    rcases List.mem_append.mp (mem_creating he).1 with hn | hn
    · exact absurd hmem (hadded e.1 (List.mem_filter.mp hn).1).2
    · exact List.mem_append_right _ hn
  case distinct =>
    refine nodup_creating (List.nodup_append.mpr ⟨hnodupAdded.filter _, hnodupUpdated.filter _, ?_⟩)
    rintro n hn m hm rfl
    exact (hadded n (List.mem_filter.mp hn).1).2 (hupdated n (List.mem_filter.mp hm).1).1
  case accepted =>
    intro e he
    obtain ⟨hn, hentry⟩ := mem_creating he
    have haccepted : ((newByName entries).get? e.1).any cfg.accepts = true := by
      rcases List.mem_append.mp hn with hn | hn
      · exact (List.mem_filter.mp hn).2
      · exact (List.mem_filter.mp hn).2
    rw [hentry, Option.any_some] at haccepted
    exact ⟨newByName_ne_nil entries e.1 (Dict.mem_keys.mpr ⟨e.2, hentry⟩), haccepted⟩
  case stopping =>
    intro hs
    have hstop := hI.not_stopping hidle
    simp only [SerialAdapter.reconcilePorts, hstop] at hs
    cases hs

theorem right_of_ports (h : s.Right) (hports : t.serialPorts = s.serialPorts) (hrun : t.isRunning = s.isRunning) : t.Right where
  exclusive := by
    rw [hports]
    exact h.exclusive
  supervised := by
    rw [hports, hrun]
    exact h.supervised
  reason := by
    rw [hports]
    exact h.reason

/-! ## A step -/

theorem Inv.step {a : AdapterAct α} (hI : Inv cfg s) (hR : s.Idle → s.Right) (h : SerialAdapter.step cfg s a = some t) :
    ((t.Idle → t.Right) ↔ Clean cfg s a) ∧ Inv cfg t := by
  cases a with
  | start =>
      obtain ⟨hidle, h⟩ := Option.ite_none_right_eq_some.mp h
      cases h
      obtain ⟨ht, hright⟩ := hI.start hidle
      exact ⟨iff_of_true (fun _ => hright (hR hidle)) trivial, ht⟩
  | create name entry =>
      obtain ⟨⟨hidle, hnew⟩, h⟩ := Option.ite_none_right_eq_some.mp h
      cases h
      obtain ⟨ht, hright⟩ := hI.create entry hidle hnew
      obtain ⟨-, hdestroying, hcreating, -⟩ := createPort_rest cfg s name entry
      have hidle' : (s.createPort cfg name entry).Idle := ⟨hdestroying.trans hidle.1, hcreating.trans hidle.2⟩
      rw [← hright (hR hidle)]
      exact ⟨⟨fun hr => hr hidle', fun hr _ => hr⟩, ht⟩
  | destroy name =>
      obtain ⟨hidle, h⟩ := Option.ite_none_right_eq_some.mp h
      cases h
      exact ⟨iff_of_true (fun _ => right_of_ports (hR hidle) rfl rfl) trivial, hI.destroy hidle⟩
  | reconcile entries =>
      obtain ⟨hidle, h⟩ := Option.ite_none_right_eq_some.mp h
      cases h
      exact ⟨iff_of_true (fun _ => right_of_ports (hR hidle) rfl rfl) trivial, hI.reconcile hidle entries⟩
  | advance =>
      obtain ⟨ht, hiff⟩ := hI.advance h
      exact ⟨hiff, ht⟩
  | connects name =>
      obtain ⟨ht, hright⟩ := hI.connects h
      exact ⟨iff_of_true (hright hR) trivial, ht⟩
  | fails name why =>
      obtain ⟨ht, hright⟩ := hI.fails h
      exact ⟨iff_of_true (hright hR) trivial, ht⟩
  | drops name why =>
      obtain ⟨ht, hright⟩ := hI.drops h
      exact ⟨iff_of_true (hright hR) trivial, ht⟩
  | ends name =>
      obtain ⟨ht, hright⟩ := hI.ends h
      exact ⟨iff_of_true (hright hR) trivial, ht⟩

/-! ## The configuration at the start -/

theorem built_configured (entries : List (Text × Entry α)) : ∀ (ports : Dict Text (SerialPort α)),
    (∀ n p, ports.get? n = some p → p = { entry := p.entry }) →
    ∀ n p, (entries.foldl (fun ports e => if e.1 ≠ [] ∧ cfg.accepts e.2 then ports.set e.1 { entry := e.2 } else ports) ports).get? n =
      some p → p = { entry := p.entry } := by
  induction entries with
  | nil => exact fun ports h => h
  | cons e es ih =>
      intro ports h
      apply ih
      dsimp only
      split
      · intro n p hp
        rw [Dict.get?_set] at hp
        split at hp
        · cases hp
          rfl
        · exact h n p hp
      · exact h

/-- The ports of a configuration are new, and flagged or not. -/
theorem get?_configured {entries : List (Text × Entry α)} (hp : (configured cfg entries).serialPorts.get? n = some p) :
    p.Sound (Flagged (configured cfg entries).serialPorts n p) False False ∧ p.failed = false := by
  rw [configured, recompute, Dict.get?_mapValues] at hp
  obtain ⟨p₀, hp₀, rfl⟩ := Option.map_eq_some_iff.mp hp
  have hnew := built_configured entries ∅ (fun n p hp => by cases hp) n p₀ hp₀
  rw [hnew, Flagged, device_reflag, configured, recompute, holder_mapValues (fun _ _ => device_reflag)]
  exact sound_reflag_new _ n p₀.entry

theorem inv_configured (cfg : Settings α) (entries : List (Text × Entry α)) : Inv cfg (configured cfg entries) where
  ports := fun n p hp => (get?_configured hp).1.mono (fun hrun => (by cases hrun)) False.elim
  nodup := List.nodup_nil
  present := fun n hn => (by cases hn)
  fresh := fun e he => (by cases he)
  distinct := List.nodup_nil
  accepted := fun e he => (by cases he)
  stopping := fun hs => (by cases hs)

theorem right_configured (cfg : Settings α) (entries : List (Text × Entry α)) : (configured cfg entries).Right := by
  rw [(inv_configured cfg entries).right_iff ⟨rfl, rfl⟩]
  intro n p hp _ hfail
  rw [(get?_configured hp).2] at hfail
  cases hfail

end SerialAdapter

end OpenMux.Serial
