import OpenMux.Initiator.Writes

/-!
# What a port writes to its connections
-/

namespace OpenMux.Initiator

open Batch Transition

namespace Writes

variable {s t : Writes} {a : WritesAct} {conn : ℕ} {data : List UInt8}

/-- What the write buffer has to do with the connections. -/
structure Sound (s : Writes) : Prop where
  conserved : s.buffer.Conserved
  newest : ∀ conn, s.writer = some conn → conn + 1 = s.connections
  waiting : ∀ c ∈ s.buffer.pending, c.1 < s.connections
  sent : ∀ x ∈ s.buffer.batches, ∀ conn, x.via = some conn → conn < s.connections ∧ ∀ c ∈ x.data, c.1 ≤ conn
  direct : s.batchingEnabled = false → s.buffer.pending = []

theorem sound_start (batchingEnabled : Bool) : (start batchingEnabled).Sound where
  conserved := rfl
  newest := by simp [Writes.start]
  waiting := by simp [Writes.start]
  sent := by simp [Writes.start]
  direct := by simp [Writes.start]

theorem mem_mark {c : ℕ × UInt8} : c ∈ mark conn data ↔ c.1 = conn ∧ c.2 ∈ data := by
  obtain ⟨n, b⟩ := c
  simp only [mark, List.mem_map, Prod.mk.injEq]
  constructor
  · rintro ⟨b', hb, rfl, rfl⟩
    exact ⟨rfl, hb⟩
  · rintro ⟨rfl, hb⟩
    exact ⟨b, hb, rfl, rfl⟩

/-- A write is refused, put into the buffer, or written at once. -/
theorem writeData_cases (s : Writes) (data : List UInt8) : s.writeData data = s ∨
    ∃ conn, s.writer = some conn ∧
      (s.batchingEnabled = true ∧ s.writeData data = { s with buffer := s.buffer.accept (mark conn data) } ∨
        s.batchingEnabled = false ∧ s.writeData data = { s with buffer := s.buffer.through (mark conn data) conn }) := by
  unfold writeData
  split
  · rename_i conn _ hw
    right
    refine ⟨conn, hw, ?_⟩
    cases hb : s.batchingEnabled with
    | true => exact .inl ⟨rfl, by simp⟩
    | false => exact .inr ⟨rfl, by simp⟩
  · exact .inl rfl

/-- A flusher that wakes ends, or takes the buffer. -/
theorem flush_cases (h : s.flush = some t) : s.buffer.flusher = .waiting ∧
    (s.buffer.pending = [] ∧ t = { s with buffer := { s.buffer with flusher := .idle } } ∨
      t = { s with buffer := s.buffer.take s.writer, isConnected := s.isConnected && s.writer.isSome }) := by
  obtain ⟨b, hb, rfl⟩ := Option.map_eq_some_iff.mp h
  simp only [Buffer.step] at hb
  split at hb
  · rename_i hwait
    refine ⟨hwait, ?_⟩
    cases hp : s.buffer.pending with
    | nil =>
        left
        rw [hp] at hb
        cases hb
        simp [hp]
    | cons c cs =>
        right
        rw [hp] at hb
        cases hb
        simp
  · cases hb

theorem Sound.writeData (h : s.Sound) (data : List UInt8) : (s.writeData data).Sound := by
  obtain hs | ⟨conn, hw, ⟨hb, hs⟩ | ⟨hb, hs⟩⟩ := writeData_cases s data
  · rw [hs]
    exact h
  · rw [hs]
    refine ⟨h.conserved.accept, h.newest, ?_, h.sent, fun hf => absurd (hb.symm.trans hf) nofun⟩
    intro c hc
    obtain hc | hc := List.mem_append.mp hc
    · exact h.waiting c hc
    · rw [(mem_mark.mp hc).1]
      exact Nat.lt_of_succ_le (h.newest conn hw).le
  · rw [hs]
    refine ⟨h.conserved.through (h.direct hb), h.newest, h.waiting, ?_, h.direct⟩
    intro x hx conn' hvia
    obtain hx | hx := List.mem_append.mp hx
    · exact h.sent x hx conn' hvia
    · cases List.mem_singleton.mp hx
      cases hvia
      exact ⟨Nat.lt_of_succ_le (h.newest conn hw).le, fun c hc => (mem_mark.mp hc).1.le⟩

theorem Sound.flush (h : s.Sound) (hs : s.flush = some t) : t.Sound := by
  obtain ⟨-, ⟨hempty, rfl⟩ | rfl⟩ := flush_cases hs
  · exact ⟨h.conserved, h.newest, h.waiting, h.sent, h.direct⟩
  · refine ⟨h.conserved.take s.writer, h.newest, nofun, ?_, fun _ => rfl⟩
    intro x hx conn hvia
    obtain hx | hx := List.mem_append.mp hx
    · exact h.sent x hx conn hvia
    · cases List.mem_singleton.mp hx
      have hnew := h.newest conn hvia
      refine ⟨Nat.lt_of_succ_le hnew.le, fun c hc => ?_⟩
      have hc := h.waiting c hc
      omega

/-- The batch of a flusher ends without a change to the data. -/
theorem ended {act : Act (ℕ × UInt8) ℕ} (hact : act = .sent ∨ act = .failed) {b : Buffer (ℕ × UInt8) ℕ} (h : s.buffer.step act = some b) :
    b.pending = s.buffer.pending ∧ b.batches = s.buffer.batches ∧ b.accepted = s.buffer.accepted := by
  obtain rfl | rfl := hact <;> simp only [Buffer.step] at h <;> split at h <;> cases h <;> exact ⟨rfl, rfl, rfl⟩

theorem Sound.ended (h : s.Sound) {act : Act (ℕ × UInt8) ℕ} (hact : act = .sent ∨ act = .failed) {b : Buffer (ℕ × UInt8) ℕ}
    (hb : s.buffer.step act = some b) (up : Bool) : ({ s with buffer := b, isConnected := up } : Writes).Sound := by
  obtain ⟨hp, hx, -⟩ := Writes.ended hact hb
  exact ⟨h.conserved.step hb, h.newest, fun c hc => h.waiting c (hp ▸ hc), fun x hm => h.sent x (hx ▸ hm),
    fun hd => hp.trans (h.direct hd)⟩

theorem Sound.step (h : s.Sound) (hs : s.step a = some t) : t.Sound := by
  cases a with
  | connect =>
      simp only [Writes.step] at hs
      split at hs
      · cases hs
      · cases hs
        refine ⟨h.conserved, fun conn hconn => by cases hconn; rfl, fun c hc => Nat.lt_succ_of_lt (h.waiting c hc), ?_, h.direct⟩
        intro x hx conn hvia
        obtain ⟨hlt, hle⟩ := h.sent x hx conn hvia
        exact ⟨Nat.lt_succ_of_lt hlt, hle⟩
  | lost =>
      cases hs
      exact ⟨h.conserved, h.newest, h.waiting, h.sent, h.direct⟩
  | disconnect =>
      cases hs
      exact ⟨h.conserved, nofun, h.waiting, h.sent, h.direct⟩
  | writeData data =>
      cases hs
      exact h.writeData data
  | flush => exact h.flush hs
  | drained =>
      obtain ⟨b, hb, rfl⟩ := Option.map_eq_some_iff.mp hs
      exact h.ended (.inl rfl) hb s.isConnected
  | drainFailed =>
      obtain ⟨b, hb, rfl⟩ := Option.map_eq_some_iff.mp hs
      exact h.ended (.inr rfl) hb false

/-! ## Connections that are made when nothing is left -/

/-- Every byte is written to the connection that it was accepted on. -/
structure Own (s : Writes) : Prop where
  waiting : ∀ c ∈ s.buffer.pending, c.1 + 1 = s.connections
  sent : ∀ x ∈ s.buffer.batches, ∀ conn, x.via = some conn → ∀ c ∈ x.data, c.1 = conn

theorem own_start (batchingEnabled : Bool) : (start batchingEnabled).Own := ⟨by simp [Writes.start], by simp [Writes.start]⟩

theorem Own.step (h : s.Own) (hsound : s.Sound) (hfresh : s.Fresh a) (hs : s.step a = some t) : t.Own := by
  cases a with
  | connect =>
      simp only [Writes.step] at hs
      split at hs
      · cases hs
      · cases hs
        refine ⟨?_, h.sent⟩
        show ∀ c ∈ s.buffer.pending, c.1 + 1 = s.connections + 1
        simp [hfresh rfl]
  | lost | disconnect =>
      cases hs
      exact ⟨h.waiting, h.sent⟩
  | writeData data =>
      cases hs
      obtain hs | ⟨conn, hw, ⟨-, hs⟩ | ⟨-, hs⟩⟩ := writeData_cases s data
      · rw [hs]
        exact h
      · rw [hs]
        refine ⟨?_, h.sent⟩
        intro c hc
        obtain hc | hc := List.mem_append.mp hc
        · exact h.waiting c hc
        · rw [(mem_mark.mp hc).1]
          exact hsound.newest conn hw
      · rw [hs]
        refine ⟨h.waiting, ?_⟩
        intro x hx conn' hvia c hc
        obtain hx | hx := List.mem_append.mp hx
        · exact h.sent x hx conn' hvia c hc
        · cases List.mem_singleton.mp hx
          cases hvia
          exact (mem_mark.mp hc).1
  | flush =>
      obtain ⟨-, ⟨-, rfl⟩ | rfl⟩ := flush_cases hs
      · exact ⟨h.waiting, h.sent⟩
      · refine ⟨nofun, ?_⟩
        intro x hx conn hvia c hc
        obtain hx | hx := List.mem_append.mp hx
        · exact h.sent x hx conn hvia c hc
        · cases List.mem_singleton.mp hx
          have hnew := hsound.newest conn hvia
          have hc := h.waiting c hc
          omega
  | drained =>
      obtain ⟨b, hb, rfl⟩ := Option.map_eq_some_iff.mp hs
      obtain ⟨hp, hx, -⟩ := ended (.inl rfl) hb
      exact ⟨fun c hc => h.waiting c (hp ▸ hc), fun x hm => h.sent x (hx ▸ hm)⟩
  | drainFailed =>
      obtain ⟨b, hb, rfl⟩ := Option.map_eq_some_iff.mp hs
      obtain ⟨hp, hx, -⟩ := ended (.inr rfl) hb
      exact ⟨fun c hc => h.waiting c (hp ▸ hc), fun x hm => h.sent x (hx ▸ hm)⟩

/-! ## Flushers that do not fail -/

/-- No batch was dropped, and a byte that waits has a flusher. -/
structure Whole (s : Writes) : Prop where
  sent : ∀ x ∈ s.buffer.batches, x.via.isSome
  live : s.buffer.Live

theorem whole_start (batchingEnabled : Bool) : (start batchingEnabled).Whole := ⟨by simp [Writes.start], nofun⟩

theorem Whole.step (h : s.Whole) (hfault : ¬ s.Faults a) (hs : s.step a = some t) : t.Whole := by
  cases a with
  | connect =>
      simp only [Writes.step] at hs
      split at hs <;> cases hs
      exact ⟨h.sent, h.live⟩
  | lost | disconnect =>
      cases hs
      exact ⟨h.sent, h.live⟩
  | writeData data =>
      cases hs
      obtain hs | ⟨conn, -, ⟨-, hs⟩ | ⟨-, hs⟩⟩ := writeData_cases s data
      · rw [hs]
        exact h
      · rw [hs]
        exact ⟨h.sent, Buffer.Live.accept _ _⟩
      · rw [hs]
        refine ⟨?_, h.live⟩
        intro x hx
        obtain hx | hx := List.mem_append.mp hx
        · exact h.sent x hx
        · cases List.mem_singleton.mp hx
          rfl
  | flush =>
      have hw : s.writer ≠ none := fun hw => hfault (.inr ⟨rfl, hw⟩)
      obtain ⟨-, ⟨hempty, rfl⟩ | rfl⟩ := flush_cases hs
      · exact ⟨h.sent, Buffer.live_of_nil hempty⟩
      · refine ⟨?_, Buffer.live_of_nil rfl⟩
        intro x hx
        obtain hx | hx := List.mem_append.mp hx
        · exact h.sent x hx
        · cases List.mem_singleton.mp hx
          exact Option.isSome_iff_ne_none.mpr hw
  | drained =>
      obtain ⟨b, hb, rfl⟩ := Option.map_eq_some_iff.mp hs
      obtain ⟨-, hx, -⟩ := ended (.inl rfl) hb
      exact ⟨fun x hm => h.sent x (hx ▸ hm), h.live.step (by simp [Buffer.Faults]) hb⟩
  | drainFailed => exact absurd (.inl rfl) hfault

/-! ## The bytes of one connection -/

theorem bytesOf_append (bs cs : List (ℕ × UInt8)) : bytesOf conn (bs ++ cs) = bytesOf conn bs ++ bytesOf conn cs := by simp [bytesOf]

theorem bytesOf_of_own {bs : List (ℕ × UInt8)} (h : ∀ c ∈ bs, c.1 = conn) : bytesOf conn bs = bs.map Prod.snd := by
  rw [bytesOf, List.filter_eq_self.mpr fun c hc => decide_eq_true (h c hc)]

theorem bytesOf_of_other {bs : List (ℕ × UInt8)} (h : ∀ c ∈ bs, c.1 ≠ conn) : bytesOf conn bs = [] := by
  rw [bytesOf, List.filter_eq_nil_iff.mpr fun c hc => by simpa using h c hc, List.map_nil]

theorem written_eq (s : Writes) (conn : ℕ) : s.written conn = (s.batchesTo conn).flatMap fun x => x.data.map Prod.snd := by
  rw [written, List.map_flatMap]

/-- The bytes of a connection that were taken out of the buffer, batch by batch. -/
theorem bytesOf_taken (s : Writes) (conn : ℕ) : bytesOf conn s.buffer.taken = s.buffer.batches.flatMap fun x => bytesOf conn x.data := by
  rw [Buffer.taken]
  induction s.buffer.batches with
  | nil => rfl
  | cons x xs ih => rw [List.flatMap_cons, bytesOf_append, ih, List.flatMap_cons]

theorem Own.written_sublist (h : s.Own) (conn : ℕ) : (s.written conn).Sublist (bytesOf conn s.buffer.taken) := by
  rw [written_eq, bytesOf_taken, batchesTo]
  have hown := h.sent
  generalize s.buffer.batches = batches at hown
  induction batches with
  | nil => exact .slnil
  | cons x xs ih =>
      have hxs := ih fun y hy => hown y (List.mem_cons_of_mem x hy)
      rw [List.flatMap_cons]
      by_cases hvia : x.via = some conn
      · rw [List.filter_cons_of_pos (by simpa using hvia), List.flatMap_cons, bytesOf_of_own (hown x List.mem_cons_self conn hvia)]
        exact hxs.append_left _
      · rw [List.filter_cons_of_neg (by simpa using hvia)]
        exact hxs.trans (List.sublist_append_right _ _)

theorem Own.written_eq_bytesOf (h : s.Own) (hwhole : s.Whole) (conn : ℕ) : s.written conn = bytesOf conn s.buffer.taken := by
  rw [written_eq, bytesOf_taken, batchesTo]
  have hown := h.sent
  have hsent := hwhole.sent
  generalize s.buffer.batches = batches at hown hsent
  induction batches with
  | nil => rfl
  | cons x xs ih =>
      have hxs := ih (fun y hy => hown y (List.mem_cons_of_mem x hy)) (fun y hy => hsent y (List.mem_cons_of_mem x hy))
      obtain ⟨conn', hconn'⟩ := Option.isSome_iff_exists.mp (hsent x List.mem_cons_self)
      have hx := hown x List.mem_cons_self conn' hconn'
      rw [List.flatMap_cons, ← hxs]
      by_cases hvia : conn' = conn
      · subst hvia
        rw [List.filter_cons_of_pos (by simpa using hconn'), List.flatMap_cons, bytesOf_of_own hx]
      · rw [List.filter_cons_of_neg (by simpa [hconn'] using hvia), bytesOf_of_other fun c hc => by rw [hx c hc]; exact hvia,
          List.nil_append]

end Writes

end OpenMux.Initiator
