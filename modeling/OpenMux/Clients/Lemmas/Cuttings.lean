import Mathlib
import OpenMux.Clients.Lemmas.ControlMenu

/-!
# Ways of cutting a stream

The scanner accounts for every byte, and every stream can be cut into clean chunks.
-/

namespace OpenMux.Clients

variable {l : Listener} {telnet : Bool}

/-! ## Every byte is used -/

/-- An escape sequence is under way only where the scanner scans, and nothing is pending where an answer has just ended. -/
structure Scanner.Sound (σ : Scanner) : Prop where
  state : σ.escape.state ≤ 2
  scans : σ.phase ≠ .scan → σ.escape.state = 0
  settled : σ.skipLineFeed = true → σ.pending = []

namespace Scanner

variable {σ : Scanner} {c : Cell} {cs : List Cell}

/-- The bytes of a byte that is fed to the escape sequence. -/
theorem feedEscapeByte_bytes {e : EscapeState} (b : UInt8) (h : e.state ≤ 2) :
    match feedEscapeByte e b with
    | (e', extra, none) => extra ++ [e'.escapeChar1, e'.escapeChar2].take e'.state =
        [e.escapeChar1, e.escapeChar2].take e.state ++ [b] ∧ e'.state ≤ 2
    | (e', extra, some cmd) => extra = [] ∧ cmd = b ∧ e.state = 2 ∧ e'.state = 0 := by
  obtain ⟨char1, char2, state⟩ := e
  unfold feedEscapeByte
  by_cases h0 : state = 0
  · by_cases hb : b = char1 <;> simp [h0, hb]
  · by_cases h1 : state = 1
    · by_cases hb : b = char2 <;> simp [h1, hb]
    · simp only at h
      have h2 : state = 2 := by omega
      simp [h2]

theorem pending_begin (cmd : UInt8) {e : EscapeState} (h : e.state = 0) {skip : Bool} :
    pending { escape := e, phase := begin l cmd, skipLineFeed := skip } = [] := by
  have hscan : pending { escape := e, phase := .scan, skipLineFeed := skip } = [] := by simp [pending, h]
  unfold begin
  split
  · rfl
  · split
    · split
      · exact hscan
      · rfl
    · split
      · split
        · exact hscan
        · rfl
        · rfl
      · split
        · rfl
        · exact hscan

theorem pending_after (prompt : Prompt) (text : List UInt8) {e : EscapeState} (h : e.state = 0) {skip : Bool} :
    pending { escape := e, phase := after prompt text, skipLineFeed := skip } = [] := by
  have hscan : pending { escape := e, phase := .scan, skipLineFeed := skip } = [] := by simp [pending, h]
  cases prompt with
  | once => exact hscan
  | menu =>
      cases he : entryOf text with
      | exit => simpa [after, he] using hscan
      | again => simp [after, he, pending]
      | raises => simp [after, he, pending]

theorem flatMap_data (payload : List UInt8) : (payload.map Use.data).flatMap Use.bytes = payload := by
  induction payload with
  | nil => rfl
  | cons b payload ih => simpa [Use.bytes] using ih

theorem take_accounts (hσ : σ.Sound) (hrun : σ.phase ≠ .stopped) (hskip : σ.skipLineFeed = false) :
    (σ.take l telnet c).1.Sound ∧
      (σ.take l telnet c).2.flatMap Use.bytes ++ (σ.take l telnet c).1.pending = σ.pending ++ [c.val] := by
  obtain ⟨e, phase, skip⟩ := σ
  obtain ⟨hstate, hzero, -⟩ := hσ
  simp only at hstate hzero hrun hskip
  subst hskip
  have hfalse {P : Prop} : false = true → P := fun h => by cases h
  cases phase with
  | stopped => exact absurd rfl hrun
  | scan =>
      have h := feedEscapeByte_bytes c.val hstate
      unfold Scanner.take
      rcases hf : feedEscapeByte e c.val with ⟨e', extra, cmd⟩
      rw [hf] at h
      cases cmd with
      | none =>
          obtain ⟨hbytes, hle⟩ := h
          exact ⟨⟨hle, fun hne => absurd rfl hne, hfalse⟩, by simpa [flatMap_data, pending] using hbytes⟩
      | some cmd =>
          obtain ⟨rfl, rfl, htwo, hnil⟩ := h
          refine ⟨⟨by simp [hnil], fun _ => hnil, hfalse⟩, ?_⟩
          dsimp only
          rw [pending_begin _ hnil]
          simp [pending, htwo, Use.bytes]
  | escape first =>
      have h0 := hzero (by simp)
      cases first with
      | none => exact ⟨⟨hstate, fun _ => h0, hfalse⟩, rfl⟩
      | some x => exact ⟨⟨hstate, fun _ => h0, hfalse⟩, by simp [Scanner.take, pending, h0, Use.bytes]⟩
  | line prompt text =>
      have h0 := hzero (by simp)
      unfold Scanner.take
      dsimp only
      split
      · exact ⟨⟨hstate, fun _ => h0, fun _ => pending_after _ _ h0⟩, by dsimp only; rw [pending_after _ _ h0]; rfl⟩
      · split
        · exact ⟨⟨hstate, fun _ => h0, hfalse⟩, by dsimp only; rw [pending_after _ _ h0]; rfl⟩
        · split <;> exact ⟨⟨hstate, fun _ => h0, hfalse⟩, rfl⟩

/-- A scanner that has not stopped accounts for the byte. -/
theorem step_accounts (hσ : σ.Sound) (hrun : σ.phase ≠ .stopped) :
    (σ.step l telnet c).1.Sound ∧
      (σ.step l telnet c).2.flatMap Use.bytes ++ (σ.step l telnet c).1.pending = σ.pending ++ [c.val] := by
  have hfalse : ({ σ with skipLineFeed := false } : Scanner).Sound := ⟨hσ.state, hσ.scans, fun h => by cases h⟩
  unfold step
  split
  · rename_i h
    obtain ⟨-, hskip, hlf⟩ := h
    have hpending := hσ.settled hskip
    refine ⟨hfalse, ?_⟩
    rw [hpending, hlf, show ({ σ with skipLineFeed := false } : Scanner).pending = [] from hpending]
    rfl
  · exact take_accounts hfalse hrun rfl

/-- Every byte of a stream is used once, is pending, or comes after the end of the session. -/
theorem run_accounts (hσ : σ.Sound) : ∃ rest, (σ.run l telnet cs).2.flatMap Use.bytes ++ (σ.run l telnet cs).1.pending ++ rest =
    σ.pending ++ cs.map Cell.val ∧ ((σ.run l telnet cs).1.phase ≠ .stopped → rest = []) := by
  induction cs generalizing σ with
  | nil => exact ⟨[], by simp, fun _ => rfl⟩
  | cons c cs ih =>
      by_cases hstop : σ.phase = .stopped
      · refine ⟨(c :: cs).map Cell.val, ?_, fun h => absurd (run_stopped hstop).2 h⟩
        have hpending (τ : Scanner) (hτ : τ.phase = .stopped) : τ.pending = [] := by simp [pending, hτ]
        rw [(run_stopped hstop).1, hpending _ (run_stopped hstop).2, hpending _ hstop]
        rfl
      · obtain ⟨hsound, hstep⟩ : (σ.step l telnet c).1.Sound ∧ _ := step_accounts hσ hstop
        obtain ⟨rest, hrun, hrest⟩ := ih hsound
        refine ⟨rest, ?_, hrest⟩
        rw [run_cons, List.flatMap_append, List.append_assoc, List.append_assoc, ← List.append_assoc _ _ rest, hrun,
          ← List.append_assoc, hstep]
        simp

/-! ## Clean cuttings -/

/-- Every stream can be cut into clean chunks: single bytes, but for a new escape sequence that starts in one chunk with its
command. -/
theorem exists_clean (σ : Scanner) (cs : List Cell) : ∃ chunks, chunks.flatten = cs ∧ (∀ c ∈ chunks, c ≠ [] ∧ c.length ≤ 4096) ∧
    σ.Clean l telnet chunks := by
  induction hn : cs.length using Nat.strongRecOn generalizing σ cs with
  | ind n ih =>
      cases cs with
      | nil => exact ⟨[], rfl, by simp, trivial⟩
      | cons c cs =>
          simp only [List.length_cons] at hn
          by_cases hchanges : σ.Changes l telnet c
          · cases cs with
            | nil =>
                refine ⟨[[c]], rfl, by simp, ⟨⟨fun _ => rfl, fun _ _ _ _ _ h => (by cases h), trivial⟩, trivial⟩⟩
            | cons x cs =>
                simp only [List.length_cons] at hn
                obtain ⟨chunks, hflatten, hchunks, hclean⟩ := ih cs.length (by omega) (σ.run l telnet [c, x]).1 cs rfl
                have hne : (σ.step l telnet c).1.phase ≠ .scan := by simp [hchanges.2]
                refine ⟨[c, x] :: chunks, by simp [hflatten], by simpa using hchunks, ⟨⟨?_, fun _ _ h => (by cases h), ?_⟩, hclean⟩⟩
                · rintro ⟨-, prompt, text, hline⟩
                  rw [hchanges.2] at hline
                  cases hline
                · exact ⟨fun h => absurd h (not_asks hne), fun _ h => absurd h (not_changes hne), trivial⟩
          · obtain ⟨chunks, hflatten, hchunks, hclean⟩ := ih cs.length (by omega) (σ.run l telnet [c]).1 cs rfl
            exact ⟨[c] :: chunks, by simp [hflatten], by simpa using hchunks,
              ⟨⟨fun _ => rfl, fun _ h => absurd h hchanges, trivial⟩, hclean⟩⟩

end Scanner

/-! ## Sessions -/

theorem nodup_stream (bytes : List UInt8) : (stream bytes).Nodup := by
  have hpos : ((stream bytes).map Cell.pos).Nodup := by
    simp only [stream, List.map_map]
    exact (List.zipIdx_map_snd 0 bytes).symm ▸ List.nodup_range'
  exact List.Nodup.of_map _ hpos

theorem map_val_stream (bytes : List UInt8) : (stream bytes).map Cell.val = bytes := by
  simp only [stream, List.map_map]
  exact List.zipIdx_map_fst 0 bytes

variable {skip : Bool} {char1 char2 : UInt8} {bytes : List UInt8} {chunks : List (List Cell)}

/-- A session does what the stream means exactly when its chunks are clean. -/
theorem pump_start_iff (hcut : Cut bytes chunks) : ((Session.start telnet skip char1 char2 chunks).pump l).log =
    (Scanner.start skip char1 char2).meaning l telnet (stream bytes) ↔ (Scanner.start skip char1 char2).Clean l telnet chunks := by
  obtain ⟨hstream, hchunks⟩ := hcut
  have hnodup : chunks.flatten.Nodup := hstream ▸ nodup_stream bytes
  have h : Session.Serves l telnet (Scanner.start skip char1 char2) (Session.start telnet skip char1 char2 chunks) []
      ((Session.start telnet skip char1 char2 chunks).pump l) :=
    Session.pumpLoop_spec (Nat.lt_succ_self _) hnodup ⟨rfl, rfl, rfl, rfl, hchunks⟩
  unfold Session.Serves at h
  rw [← hstream]
  exact h

/-- All cuttings agree exactly when all are clean. -/
theorem cuttings_agree_iff : (∀ cs ds, Cut bytes cs → Cut bytes ds → ((Session.start telnet skip char1 char2 cs).pump l).log =
      ((Session.start telnet skip char1 char2 ds).pump l).log) ↔
    ∀ cs, Cut bytes cs → (Scanner.start skip char1 char2).Clean l telnet cs := by
  constructor
  · intro h cs hcs
    obtain ⟨ds, hstream, hds, hclean⟩ : ∃ ds, ds.flatten = stream bytes ∧ (∀ c ∈ ds, c ≠ [] ∧ c.length ≤ 4096) ∧
      (Scanner.start skip char1 char2).Clean l telnet ds := Scanner.exists_clean _ _
    rw [← pump_start_iff hcs, h cs ds hcs ⟨hstream, hds⟩]
    exact (pump_start_iff ⟨hstream, hds⟩).mpr hclean
  · intro h cs ds hcs hds
    rw [(pump_start_iff hcs).mpr (h cs hcs), (pump_start_iff hds).mpr (h ds hds)]

@[simp] theorem pending_start : (Scanner.start skip char1 char2).pending = [] := rfl

theorem sound_start : (Scanner.start skip char1 char2).Sound := ⟨Nat.zero_le _, fun _ => rfl, fun _ => rfl⟩

theorem start_accounts : ∃ rest, ((Scanner.start skip char1 char2).run l telnet (stream bytes)).2.flatMap Use.bytes ++
      ((Scanner.start skip char1 char2).run l telnet (stream bytes)).1.pending ++ rest = bytes ∧
    (((Scanner.start skip char1 char2).run l telnet (stream bytes)).1.phase ≠ .stopped → rest = []) := by
  obtain ⟨rest, hbytes, hrest⟩ : ∃ rest, _ ∧ (((Scanner.start skip char1 char2).run l telnet (stream bytes)).1.phase ≠
    .stopped → rest = []) := Scanner.run_accounts sound_start
  rw [map_val_stream, pending_start, List.nil_append] at hbytes
  exact ⟨rest, hbytes, hrest⟩

end OpenMux.Clients
