import OpenMux.Clients.ControlMenu

/-!
# The pump and the scanner

Reading from the transport is followed byte by byte. What a session has done and what the scanner still makes of the rest of
the stream is the same before and after every command, unless the command reads past bytes of its chunk.
-/

namespace OpenMux.Clients

variable {l : Listener} {telnet : Bool}

/-! ## The scanner -/

namespace Scanner

variable {σ : Scanner} {c x : Cell} {cs ds : List Cell} {chunks next : List (List Cell)}

@[simp] theorem run_nil : σ.run l telnet [] = (σ, []) := rfl

@[simp] theorem meaning_nil : σ.meaning l telnet [] = [] := rfl

theorem run_cons : σ.run l telnet (c :: cs) = (((σ.step l telnet c).1.run l telnet cs).1,
    (σ.step l telnet c).2 ++ ((σ.step l telnet c).1.run l telnet cs).2) := rfl

theorem run_append : σ.run l telnet (cs ++ ds) = (((σ.run l telnet cs).1.run l telnet ds).1,
    (σ.run l telnet cs).2 ++ ((σ.run l telnet cs).1.run l telnet ds).2) := by
  induction cs generalizing σ with
  | nil => simp
  | cons c cs ih => simp [run_cons, ih, List.append_assoc]

theorem meaning_cons : σ.meaning l telnet (c :: cs) =
    (σ.step l telnet c).2.filter (· ≠ .lineFeed) ++ (σ.step l telnet c).1.meaning l telnet cs := by
  simp [meaning, run_cons]

theorem step_of_not_skip (h : σ.skipLineFeed = false) : σ.step l telnet c = σ.take l telnet c := by
  cases σ
  cases h
  simp [step]

theorem step_lineFeed (hp : σ.phase ≠ .stopped) (hs : σ.skipLineFeed = true) (hc : c.val = Transport.lf) :
    σ.step l telnet c = ({ σ with skipLineFeed := false }, [.lineFeed]) := by
  simp [step, hp, hs, hc]

theorem step_other (hc : c.val ≠ Transport.lf) :
    σ.step l telnet c = ({ σ with skipLineFeed := false } : Scanner).step l telnet c := by
  simp [step, hc]

theorem run_stopped (h : σ.phase = .stopped) : (σ.run l telnet cs).2 = [] ∧ (σ.run l telnet cs).1.phase = .stopped := by
  induction cs generalizing σ with
  | nil => simp [h]
  | cons c cs ih =>
      have hstep : σ.step l telnet c = ({ σ with skipLineFeed := false }, []) := by
        simp [step, take, h]
      rw [run_cons, hstep]
      simpa using ih (σ := { σ with skipLineFeed := false }) h

theorem meaning_stopped (h : σ.phase = .stopped) : σ.meaning l telnet cs = [] := by
  simp [meaning, (run_stopped h).1]

/-! ## Clean chunks -/

/-- Puts a chunk before others if anything is left of it. -/
def push (c : List Cell) (cs : List (List Cell)) : List (List Cell) := if c = [] then cs else c :: cs

@[simp] theorem push_nil : push [] chunks = chunks := rfl

@[simp] theorem flatten_push : (push cs chunks).flatten = cs ++ chunks.flatten := by
  unfold push
  split <;> simp_all

theorem clean_push : σ.Clean l telnet (push cs chunks) ↔
    σ.CleanChunk l telnet chunks cs ∧ (σ.run l telnet cs).1.Clean l telnet chunks := by
  unfold push
  split
  · rename_i h
    simp [h, CleanChunk]
  · rfl

/-- A byte that neither asks nor changes the escape sequence may stand anywhere. -/
theorem clean_cons (ha : ¬ σ.Asks l telnet c) (hc : ¬ σ.Changes l telnet c) : σ.Clean l telnet ((c :: cs) :: chunks) ↔
    (σ.step l telnet c).1.Clean l telnet (push cs chunks) := by
  rw [clean_push]
  simp [Clean, CleanChunk, ha, hc, run_cons]

theorem cleanChunk_cons (ha : ¬ σ.Asks l telnet c) (hc : ¬ σ.Changes l telnet c) : σ.CleanChunk l telnet next (c :: cs) ↔
    (σ.step l telnet c).1.CleanChunk l telnet next cs := by
  simp [CleanChunk, ha, hc]

theorem not_asks (h : σ.phase ≠ .scan) : ¬ σ.Asks l telnet c := fun ha => h ha.1

theorem not_changes (h : σ.phase ≠ .scan) : ¬ σ.Changes l telnet c := fun hc => h hc.1

theorem cleanChunk_stopped (h : σ.phase = .stopped) : σ.CleanChunk l telnet next cs := by
  induction cs generalizing σ with
  | nil => trivial
  | cons c cs ih =>
      have hne : σ.phase ≠ .scan := by simp [h]
      rw [cleanChunk_cons (not_asks hne) (not_changes hne)]
      refine ih ?_
      simp [step, take, h]

theorem clean_stopped (h : σ.phase = .stopped) : σ.Clean l telnet chunks := by
  induction chunks generalizing σ with
  | nil => trivial
  | cons c chunks ih => exact ⟨cleanChunk_stopped h, ih (run_stopped h).2⟩

end Scanner

/-! ## Reading -/

namespace Transport

open Scanner

variable {t : Transport} {σ : Scanner} {c : Cell} {cs : List Cell} {chunks : List (List Cell)} {n : Nat}

/-- The chunks are what reads return. -/
structure Ok (telnet : Bool) (t : Transport) : Prop where
  kind : t.telnet = telnet
  chunks : ∀ c ∈ t.chunks, c ≠ [] ∧ c.length ≤ 4096

theorem unread_eq (t : Transport) (c : List Cell) : t.unread c = { t with chunks := push c t.chunks } := by
  unfold unread push
  split <;> rfl

theorem take_nil (h : t.chunks = []) : t.take n = ([], t) := by
  simp [take, h]

theorem take_cons (h : t.chunks = cs :: chunks) : t.take n = (cs.take n, { t with chunks := push (cs.drop n) chunks }) := by
  simp [take, h, unread_eq]

theorem read_of_not_skip (h : t.skipLineFeed = false) : t.read n = t.take n := by
  cases hc : t.chunks with
  | nil => cases t; simp_all [read, take_nil]
  | cons cs chunks =>
      unfold read
      rw [take_cons hc]
      cases hcs : cs.take n <;> simp [h]

theorem chunks_push (h : ∀ c ∈ chunks, c ≠ [] ∧ c.length ≤ 4096) (hcs : cs.length ≤ 4096) :
    ∀ c ∈ push cs chunks, c ≠ [] ∧ c.length ≤ 4096 := by
  unfold push
  split
  · exact h
  · rename_i hne
    simpa [hne, hcs] using h

/-- A line feed that is to be skipped is no part of what is ahead. -/
theorem settle (hok : t.Ok telnet) (hskip : σ.skipLineFeed = t.skipLineFeed) : ∃ chunks,
    ({ t with skipLineFeed := false, chunks := chunks } : Transport).Ok telnet ∧ chunks.flatten <:+ t.chunks.flatten ∧
      (∀ n, n = 1 ∨ n = 4096 → t.read n = ({ t with skipLineFeed := false, chunks := chunks } : Transport).take n) ∧
      σ.meaning l telnet t.chunks.flatten = ({ σ with skipLineFeed := false } : Scanner).meaning l telnet chunks.flatten ∧
      (σ.Clean l telnet t.chunks ↔ ({ σ with skipLineFeed := false } : Scanner).Clean l telnet chunks) := by
  by_cases hs : t.skipLineFeed = true
  swap
  · simp only [Bool.not_eq_true] at hs
    have ht : ({ t with skipLineFeed := false, chunks := t.chunks } : Transport) = t := by cases t; simp_all
    have hσ : ({ σ with skipLineFeed := false } : Scanner) = σ := by cases σ; simp_all
    refine ⟨t.chunks, ht.symm ▸ hok, List.suffix_rfl, fun n _ => ?_, by rw [hσ], by rw [hσ]⟩
    rw [ht, read_of_not_skip hs]
  rw [hs] at hskip
  cases hc : t.chunks with
  | nil =>
      refine ⟨[], ⟨hok.kind, fun c hc => by cases hc⟩, List.suffix_rfl, fun n _ => ?_, rfl, Iff.rfl⟩
      simp [read, take, hc]
  | cons d chunks =>
      obtain ⟨hne, hlen⟩ := hok.chunks d (hc ▸ List.mem_cons_self)
      obtain ⟨c, cs, rfl⟩ := List.exists_cons_of_ne_nil hne
      by_cases hlf : c.val = lf
      · refine ⟨push cs chunks, ⟨hok.kind, ?_⟩, ?_, fun n hn => ?_, ?_, ?_⟩
        · refine chunks_push (fun c hc' => hok.chunks c (hc ▸ List.mem_cons_of_mem _ hc')) ?_
          simp only [List.length_cons] at hlen
          omega
        · rw [flatten_push]
          exact List.suffix_cons c _
        · simp only [List.length_cons] at hlen
          rcases hn with rfl | rfl
          · simp [read, take_cons hc, hs, hlf, unread_eq]
          · have htake : (c :: cs).take 4096 = c :: cs := List.take_of_length_le (by simpa using hlen)
            have hdrop : (c :: cs).drop 4096 = [] := List.drop_of_length_le (by simpa using hlen)
            unfold read
            rw [take_cons hc, htake, hdrop]
            simp [hs, hlf, unread_eq]
        · rw [flatten_push, List.flatten_cons, List.cons_append]
          by_cases hp : σ.phase = .stopped
          · rw [meaning_stopped hp, meaning_stopped (σ := { σ with skipLineFeed := false }) hp]
          · rw [meaning_cons, step_lineFeed hp hskip hlf]
            simp
        · by_cases hp : σ.phase = .stopped
          · exact iff_of_true (clean_stopped hp) (clean_stopped (σ := { σ with skipLineFeed := false }) hp)
          · have hstep : σ.step l telnet c = _ := step_lineFeed hp hskip hlf
            have hasks : ¬ σ.Asks l telnet c := by
              rintro ⟨hscan, prompt, text, hline⟩
              rw [hstep] at hline
              simp [hscan] at hline
            have hchanges : ¬ σ.Changes l telnet c := by
              rintro ⟨hscan, hescape⟩
              rw [hstep] at hescape
              simp [hscan] at hescape
            rw [clean_cons hasks hchanges, hstep]
      · have hstep : σ.step l telnet c = _ := step_other hlf
        refine ⟨(c :: cs) :: chunks, ⟨hok.kind, hc ▸ hok.chunks⟩, List.suffix_rfl, fun n hn => ?_, ?_, ?_⟩
        · have htake : (c :: cs).take n = c :: cs.take (n - 1) := by
            rcases hn with rfl | rfl <;> rfl
          unfold read
          rw [take_cons hc, htake]
          simp [hlf, take, unread_eq, htake]
        · rw [List.flatten_cons, List.cons_append, meaning_cons, meaning_cons, hstep]
        · simp only [Clean, CleanChunk, Asks, Changes, run_cons, hstep]

@[simp] theorem chunks_dropLineFeed : t.dropLineFeed.chunks = t.chunks := by
  unfold dropLineFeed
  split <;> rfl

@[simp] theorem telnet_dropLineFeed : t.dropLineFeed.telnet = t.telnet := by
  unfold dropLineFeed
  split <;> rfl

theorem skip_dropLineFeed (h : t.skipLineFeed = false) : t.dropLineFeed.skipLineFeed = t.telnet := by
  unfold dropLineFeed
  cases ht : t.telnet <;> simp [h]

theorem Ok.dropLineFeed (h : t.Ok telnet) : t.dropLineFeed.Ok telnet :=
  ⟨telnet_dropLineFeed.trans h.kind, by simpa using h.chunks⟩

variable {x y : Cell} {ds : List Cell}

theorem readexactly_end (h : t.chunks = []) (hskip : t.skipLineFeed = false) (hn : 0 < n) : t.readexactly n = (none, t) := by
  have hread (m : Nat) : t.read m = ([], t) := by rw [read_of_not_skip hskip, take_nil h]
  obtain ⟨n, rfl⟩ : ∃ m, n = m + 1 := ⟨n - 1, by omega⟩
  unfold readexactly
  split
  · simp [readexactlyLoop, hread]
  · simp [hread]

/-- The bytes are at the front of one chunk. -/
theorem readexactly_front (h : t.chunks = (cs ++ ds) :: chunks) (hskip : t.skipLineFeed = false) (hne : cs ≠ []) :
    t.readexactly cs.length = (some cs, { t with chunks := push ds chunks }) := by
  have hread : t.read cs.length = (cs, { t with chunks := push ds chunks }) := by
    rw [read_of_not_skip hskip, take_cons h, List.take_left, List.drop_left]
  obtain ⟨n, hn⟩ : ∃ m, cs.length = m + 1 := ⟨cs.length - 1, by have := List.length_pos_of_ne_nil hne; omega⟩
  unfold readexactly
  split
  · rw [hn, readexactlyLoop, List.length_nil, if_neg (by omega), Nat.sub_zero, ← hn, hread]
    dsimp only
    rw [if_neg hne, List.nil_append]
    cases n <;> simp [readexactlyLoop, hn]
  · rw [hread]
    simp

/-- The telnet transport goes on to the next chunk. -/
theorem readexactly_telnet (ht : t.telnet = true) (h : t.chunks = [x] :: (y :: ds) :: chunks) (hskip : t.skipLineFeed = false) :
    t.readexactly 2 = (some [x, y], { t with chunks := push ds chunks }) := by
  have hread : t.read 2 = ([x], { t with chunks := (y :: ds) :: chunks }) := by
    rw [read_of_not_skip hskip, take_cons h]
    rfl
  have hread' : ({ t with chunks := (y :: ds) :: chunks } : Transport).read 1 = ([y], { t with chunks := push ds chunks }) :=
    (read_of_not_skip (t := { t with chunks := (y :: ds) :: chunks }) hskip).trans
      (take_cons (t := { t with chunks := (y :: ds) :: chunks }) rfl)
  unfold readexactly
  rw [if_pos ht]
  simp [readexactlyLoop, hread, hread']

/-- The SSH transport reads once. -/
theorem readexactly_ssh (ht : t.telnet = false) (h : t.chunks = [x] :: chunks) (hskip : t.skipLineFeed = false) :
    t.readexactly 2 = (none, { t with chunks := chunks }) := by
  have hread : t.read 2 = ([x], { t with chunks := chunks }) := by
    rw [read_of_not_skip hskip, take_cons h]
    rfl
  simp [readexactly, ht, hread]

theorem readexactly_last (h : t.chunks = [[x]]) (hskip : t.skipLineFeed = false) :
    t.readexactly 2 = (none, { t with chunks := [] }) := by
  by_cases ht : t.telnet = true
  · have hread : t.read 2 = ([x], { t with chunks := [] }) := by
      rw [read_of_not_skip hskip, take_cons h]
      rfl
    have hread' : ({ t with chunks := [] } : Transport).read 1 = ([], { t with chunks := [] }) :=
      (read_of_not_skip (t := { t with chunks := [] }) hskip).trans (take_nil rfl)
    unfold readexactly
    rw [if_pos ht]
    simp [readexactlyLoop, hread, hread']
  · exact readexactly_ssh (Bool.not_eq_true _ ▸ ht) h hskip

end Transport

/-! ## What is done and what is ahead -/

namespace Session

open Scanner

variable {s s' s'' : Session} {σ σ' σ'' : Scanner} {d d' d'' : List Cell} {prompt : Prompt} {text : List UInt8} {fuel : Nat}

/-- What is done together with what the scanner makes of the bytes ahead, `d` of them in hand, does not change, nor whether
the chunks ahead are clean. -/
structure Keeps (l : Listener) (telnet : Bool) (σ : Scanner) (s : Session) (d : List Cell) (σ' : Scanner) (s' : Session)
    (d' : List Cell) : Prop where
  ahead : s'.log ++ σ'.meaning l telnet (d' ++ s'.transport.chunks.flatten) =
    s.log ++ σ.meaning l telnet (d ++ s.transport.chunks.flatten)
  clean : σ.Clean l telnet (push d s.transport.chunks) ↔ σ'.Clean l telnet (push d' s'.transport.chunks)

theorem Keeps.trans (h : Keeps l telnet σ s d σ' s' d') (h' : Keeps l telnet σ' s' d' σ'' s'' d'') :
    Keeps l telnet σ s d σ'' s'' d'' :=
  ⟨h'.ahead.trans h.ahead, h.clean.trans h'.clean⟩

/-- A byte in hand is taken, unless it is a command that reads past the bytes in hand. -/
theorem Keeps.step {c : Cell} {us : List Use} (hstep : σ.step l telnet c = (σ', us)) (ha : σ.Asks l telnet c → d = [])
    (hc : telnet = false → σ.Changes l telnet c → d = [] → ∀ x rest, s.transport.chunks = [x] :: rest → rest = [])
    (hlog : s'.log = s.log ++ us.filter (· ≠ .lineFeed)) (ht : s'.transport.chunks = s.transport.chunks) :
    Keeps l telnet σ s (c :: d) σ' s' d := by
  constructor
  · rw [hlog, ht, List.cons_append, meaning_cons, hstep, List.append_assoc]
  · rw [clean_push, clean_push, ht, run_cons, hstep]
    simp only [CleanChunk, hstep]
    exact ⟨fun h => ⟨h.1.2.2, h.2⟩, fun h => ⟨⟨ha, hc, h.1⟩, h.2⟩⟩

/-- A byte that is read is in hand. -/
theorem Keeps.read {chunks : List (List Cell)} (hlog : s'.log = s.log) (hd : d = []) (hs : s.transport.chunks = d' :: chunks)
    (hne : d' ≠ []) (hs' : s'.transport.chunks = chunks) : Keeps l telnet σ s d σ s' d' := by
  subst hd
  constructor
  · rw [hlog, hs, hs']
    rfl
  · rw [hs, hs']
    simp [push, hne]

/-- A byte that is read from the front and neither asks nor changes the escape sequence is taken. -/
theorem Keeps.next {c : Cell} {cs : List Cell} {rest : List (List Cell)} {us : List Use}
    (hs : s.transport.chunks = (c :: cs) :: rest) (hs' : s'.transport.chunks = push cs rest)
    (hstep : σ.step l telnet c = (σ', us)) (ha : ¬ σ.Asks l telnet c) (hc : ¬ σ.Changes l telnet c)
    (hlog : s'.log = s.log ++ us.filter (· ≠ .lineFeed)) : Keeps l telnet σ s [] σ' s' [] := by
  constructor
  · rw [hlog, hs, hs', flatten_push, List.nil_append, List.nil_append, List.flatten_cons, List.cons_append, meaning_cons,
      hstep, List.append_assoc]
  · rw [push_nil, push_nil, hs, hs', clean_cons ha hc, hstep]

theorem Keeps.settle {chunks : List (List Cell)}
    (hmeaning : σ.meaning l telnet s.transport.chunks.flatten = σ'.meaning l telnet chunks.flatten)
    (hclean : σ.Clean l telnet s.transport.chunks ↔ σ'.Clean l telnet chunks) (hlog : s'.log = s.log)
    (hs' : s'.transport.chunks = chunks) : Keeps l telnet σ s [] σ' s' [] := by
  constructor
  · rw [hlog, hs']
    exact congrArg _ hmeaning.symm
  · rw [hs']
    exact hclean

/-- How a prompt ends: after a line the scanner is where the prompt leaves it, and without one the stream has ended. -/
structure Prompted (l : Listener) (telnet : Bool) (prompt : Prompt) (σ : Scanner) (s : Session)
    (r : (List UInt8 × Bool) × Session) : Prop where
  escape : r.2.escape = s.escape
  ok : r.2.transport.Ok telnet
  suffix : r.2.transport.chunks.flatten <:+ s.transport.chunks.flatten
  left : r.1.2 = false → r.2.transport.chunks = [] ∧ ∃ τ, Keeps l telnet σ s [] τ r.2 []
  line : r.1.2 = true → r.2.transport.size < s.transport.size ∧ ∃ τ : Scanner, τ.phase = after prompt r.1.1 ∧
    τ.escape = σ.escape ∧ τ.skipLineFeed = r.2.transport.skipLineFeed ∧ Keeps l telnet σ s [] τ r.2 []

theorem Prompted.trans {r : (List UInt8 × Bool) × Session} (h : Prompted l telnet prompt σ' s' r)
    (hkeeps : Keeps l telnet σ s [] σ' s' []) (hs : s'.escape = s.escape) (hσ : σ'.escape = σ.escape)
    (hsuffix : s'.transport.chunks.flatten <:+ s.transport.chunks.flatten) : Prompted l telnet prompt σ s r where
  escape := h.escape.trans hs
  ok := h.ok
  suffix := h.suffix.trans hsuffix
  left hk := by
    obtain ⟨hnil, τ, hτ⟩ := h.left hk
    exact ⟨hnil, τ, hkeeps.trans hτ⟩
  line hk := by
    obtain ⟨hsize, τ, hphase, hescape, hskip, hτ⟩ := h.line hk
    exact ⟨Nat.lt_of_lt_of_le hsize hsuffix.length_le, τ, hphase, hescape.trans hσ, hskip, hkeeps.trans hτ⟩

theorem readPromptLoop_spec (hfuel : s.transport.size < fuel) (hok : s.transport.Ok telnet)
    (hp : σ.phase = .line prompt text) (hskip : σ.skipLineFeed = s.transport.skipLineFeed) :
    Prompted l telnet prompt σ s (readPromptLoop fuel s text) := by
  induction fuel generalizing s σ text with
  | zero => omega
  | succ fuel ih =>
      obtain ⟨chunks, hok', hsuffix, hread, hmeaning, hclean⟩ := Transport.settle (l := l) hok hskip
      have hread := hread 1 (.inl rfl)
      cases hc : chunks with
      | nil =>
          subst hc
          have htake : s.transport.read 1 = ([], { s.transport with skipLineFeed := false, chunks := [] }) := by
            rw [hread]; rfl
          have hloop : readPromptLoop (fuel + 1) s text =
              ((text, false), { s with transport := { s.transport with skipLineFeed := false, chunks := [] } }) := by
            simp [readPromptLoop, htake]
          rw [hloop]
          exact ⟨rfl, hok', hsuffix, fun _ => ⟨rfl, _, Keeps.settle hmeaning hclean rfl rfl⟩, fun h => by cases h⟩
      | cons dd rest =>
          subst hc
          obtain ⟨hne, hlen⟩ := hok'.chunks dd List.mem_cons_self
          obtain ⟨c, cs, rfl⟩ := List.exists_cons_of_ne_nil hne
          have htake : s.transport.read 1 = ([c], { s.transport with skipLineFeed := false, chunks := push cs rest }) := by
            rw [hread, Transport.take_cons rfl]
            rfl
          have hsettle : Keeps l telnet σ s [] { σ with skipLineFeed := false }
              { s with transport := { s.transport with skipLineFeed := false, chunks := (c :: cs) :: rest } } [] :=
            Keeps.settle hmeaning hclean rfl rfl
          have hstep : ({ σ with skipLineFeed := false } : Scanner).step l telnet c =
              ({ σ with skipLineFeed := false } : Scanner).take l telnet c := step_of_not_skip rfl
          have hscan : ({ σ with skipLineFeed := false } : Scanner).phase ≠ .scan := by simp [hp]
          have hnext {τ : Scanner} {t : Transport} (hτ : ({ σ with skipLineFeed := false } : Scanner).take l telnet c = (τ, [.answer c]))
              (ht : t.chunks = push cs rest) :
              Keeps l telnet σ s [] τ (({ s with transport := t } : Session).use [.answer c]) [] :=
            hsettle.trans (Keeps.next rfl ht (hstep.trans hτ) (not_asks hscan) (not_changes hscan) rfl)
          have hsuffix' : (push cs rest).flatten <:+ s.transport.chunks.flatten := by
            rw [flatten_push]
            exact (List.suffix_cons c _).trans hsuffix
          have hsize : (push cs rest).flatten.length < s.transport.size := by
            have := hsuffix.length_le
            rw [flatten_push]
            simp only [List.flatten_cons, List.cons_append, List.length_cons] at this
            exact this
          have hchunks : ({ s.transport with skipLineFeed := false, chunks := push cs rest } : Transport).Ok telnet := by
            refine ⟨hok.kind, Transport.chunks_push (fun d hd => hok'.chunks d (List.mem_cons_of_mem _ hd)) ?_⟩
            simp only [List.length_cons] at hlen
            omega
          have hne' : Transport.lf ≠ Transport.cr := by decide
          rw [readPromptLoop, htake]
          dsimp only
          split
          · rename_i hcr
            -- The line ends at a CR, and a telnet transport skips the line feed after it.
            have hdrop := Transport.skip_dropLineFeed (t := { s.transport with skipLineFeed := false, chunks := push cs rest }) rfl
            refine ⟨rfl, hchunks.dropLineFeed, by simpa [use] using hsuffix', fun h => (by cases h), fun _ => ⟨?_, ?_⟩⟩
            · simpa [use, Transport.size] using hsize
            · exact ⟨{ σ with phase := after prompt text, skipLineFeed := telnet }, rfl, rfl,
                hok.kind.symm.trans hdrop.symm, hnext (by simp [Scanner.take, hp, hcr]) Transport.chunks_dropLineFeed⟩
          · rename_i hcr
            split
            · rename_i hlf
              refine ⟨rfl, hchunks, hsuffix', fun h => (by cases h), fun _ => ⟨hsize,
                { σ with phase := after prompt text, skipLineFeed := false }, rfl, rfl, rfl, ?_⟩⟩
              exact hnext (by simp [Scanner.take, hp, hlf, hne']) rfl
            · rename_i hlf
              have hsize' : (push cs rest).flatten.length < fuel := by omega
              split
              · rename_i hbs
                exact (ih (s := ({ s with transport := { s.transport with skipLineFeed := false, chunks := push cs rest } } :
                    Session).use [.answer c]) (σ := { σ with phase := .line prompt text.dropLast, skipLineFeed := false })
                  hsize' hchunks rfl rfl).trans (hnext (by simp [Scanner.take, hp, hcr, hlf, hbs]) rfl) rfl rfl hsuffix'
              · rename_i hbs
                exact (ih (s := ({ s with transport := { s.transport with skipLineFeed := false, chunks := push cs rest } } :
                    Session).use [.answer c]) (σ := { σ with phase := .line prompt (text ++ [c.val]), skipLineFeed := false })
                  hsize' hchunks rfl rfl).trans (hnext (by simp [Scanner.take, hp, hcr, hlf, hbs]) rfl) rfl rfl hsuffix'

theorem Keeps.refl (σ : Scanner) (s : Session) (d : List Cell) : Keeps l telnet σ s d σ s d := ⟨rfl, Iff.rfl⟩

/-! ## Commands -/

/-- How a command ends that may have asked for answers, with nothing in hand. -/
structure Answered (l : Listener) (telnet : Bool) (σ : Scanner) (s : Session) (r : Bool × Session) : Prop where
  escape : r.2.escape = s.escape
  ok : r.2.transport.Ok telnet
  suffix : r.2.transport.chunks.flatten <:+ s.transport.chunks.flatten
  stopped : r.1 = true → ∃ τ : Scanner, τ.phase = .stopped ∧ Keeps l telnet σ s [] τ r.2 []
  goes : r.1 = false → ∃ τ : Scanner, Keeps l telnet σ s [] τ r.2 [] ∧ (r.2.transport.chunks = [] ∨
    τ.phase = .scan ∧ τ.escape = σ.escape ∧ τ.skipLineFeed = r.2.transport.skipLineFeed)

theorem Answered.trans {r : Bool × Session} (h : Answered l telnet σ' s' r) (hkeeps : Keeps l telnet σ s [] σ' s' [])
    (hs : s'.escape = s.escape) (hσ : σ'.escape = σ.escape)
    (hsuffix : s'.transport.chunks.flatten <:+ s.transport.chunks.flatten) : Answered l telnet σ s r where
  escape := h.escape.trans hs
  ok := h.ok
  suffix := h.suffix.trans hsuffix
  stopped hr := by
    obtain ⟨τ, hphase, hτ⟩ := h.stopped hr
    exact ⟨τ, hphase, hkeeps.trans hτ⟩
  goes hr := by
    obtain ⟨τ, hτ, hphase⟩ := h.goes hr
    rw [hσ] at hphase
    exact ⟨τ, hkeeps.trans hτ, hphase⟩

theorem powerMenuLoop_spec (hfuel : s.transport.size < fuel) (hok : s.transport.Ok telnet) (hp : σ.phase = .line .menu [])
    (hskip : σ.skipLineFeed = s.transport.skipLineFeed) : Answered l telnet σ s (powerMenuLoop fuel s) := by
  induction fuel generalizing s σ with
  | zero => omega
  | succ fuel ih =>
      have h := readPromptLoop_spec (l := l) (Nat.lt_succ_self _) hok hp hskip
      rw [powerMenuLoop]
      rcases hr : s.readPromptLine with ⟨⟨line, kept⟩, s₁⟩
      have hprompted : Prompted l telnet .menu σ s ((line, kept), s₁) := hr ▸ h
      cases kept with
      | false =>
          obtain ⟨hnil, τ, hτ⟩ := hprompted.left rfl
          exact ⟨hprompted.escape, hprompted.ok, hprompted.suffix, fun h => (by cases h), fun _ => ⟨τ, hτ, .inl hnil⟩⟩
      | true =>
          obtain ⟨hsize, τ, hphase, hescape, hskip', hτ⟩ := hprompted.line rfl
          simp only [after] at hphase
          cases he : entryOf line with
          | exit =>
              rw [he] at hphase
              simp only [he]
              exact ⟨hprompted.escape, hprompted.ok, hprompted.suffix, fun h => (by cases h),
                fun _ => ⟨τ, hτ, .inr ⟨hphase, hescape, hskip'⟩⟩⟩
          | raises =>
              rw [he] at hphase
              simp only [he]
              exact ⟨hprompted.escape, hprompted.ok, hprompted.suffix, fun _ => ⟨τ, hphase, hτ⟩, fun h => by cases h⟩
          | again =>
              rw [he] at hphase
              simp only [he]
              exact (ih (by show s₁.transport.size < fuel; exact Nat.lt_of_lt_of_le hsize (Nat.lt_succ_iff.mp hfuel))
                hprompted.ok hphase hskip').trans hτ hprompted.escape hescape hprompted.suffix

/-- A prompt that asks once. -/
theorem Prompted.answered {r : (List UInt8 × Bool) × Session} (h : Prompted l telnet .once σ s r) :
    Answered l telnet σ s (false, r.2) := by
  refine ⟨h.escape, h.ok, h.suffix, fun h => (by cases h), fun _ => ?_⟩
  cases hk : r.1.2 with
  | false =>
      obtain ⟨hnil, τ, hτ⟩ := h.left hk
      exact ⟨τ, hτ, .inl hnil⟩
  | true =>
      obtain ⟨-, τ, hphase, hescape, hskip, hτ⟩ := h.line hk
      exact ⟨τ, hτ, .inr ⟨hphase, hescape, hskip⟩⟩

/-- A command that asks for nothing leaves the session as it is. -/
theorem handleControlCommand_quiet {cmd : UInt8} (hne : cmd ≠ 101) (hquiet : ∀ prompt text, begin l cmd ≠ .line prompt text) :
    s.handleControlCommand l cmd = (decide (begin l cmd = .stopped), s) ∧ (begin l cmd = .stopped ∨ begin l cmd = .scan) := by
  unfold begin at hquiet ⊢
  rw [if_neg hne] at hquiet ⊢
  unfold handleControlCommand
  by_cases hf : cmd = 102
  · cases hro : l.readOnly <;> simp_all
  · by_cases hpw : cmd = 112
    · cases hpower : l.power <;> simp_all [runPowerMenu]
    · by_cases hdot : cmd = 46 <;> simp_all

/-- A command with nothing in hand. -/
theorem handleControlCommand_spec {cmd : UInt8} (hne : cmd ≠ 101) (hok : s.transport.Ok telnet) (hp : σ.phase = begin l cmd)
    (hskip : σ.skipLineFeed = s.transport.skipLineFeed) : Answered l telnet σ s (s.handleControlCommand l cmd) := by
  by_cases hquiet : ∀ prompt text, begin l cmd ≠ .line prompt text
  · obtain ⟨hrun, hphase⟩ := handleControlCommand_quiet (s := s) hne hquiet
    rw [hrun]
    refine ⟨rfl, hok, List.suffix_rfl, fun h => ?_, fun h => ?_⟩
    · exact ⟨σ, hp.trans (by simpa using h), Keeps.refl ..⟩
    · rcases hphase with hphase | hphase
      · simp [hphase] at h
      · exact ⟨σ, Keeps.refl .., .inr ⟨hp.trans hphase, rfl, hskip⟩⟩
  · unfold begin at hquiet hp
    rw [if_neg hne] at hquiet hp
    unfold handleControlCommand
    by_cases hf : cmd = 102
    · cases hro : l.readOnly with
      | true => simp [hf, hro] at hquiet
      | false =>
          simp only [hf, hro, if_true, Bool.false_eq_true, if_false] at hp ⊢
          exact (readPromptLoop_spec (Nat.lt_succ_self _) hok hp hskip).answered
    · by_cases hpw : cmd = 112
      · cases hpower : l.power with
        | notConfigured => simp [hpw, hpower] at hquiet
        | noFeeds =>
            simp only [hpw, hpower, if_true] at hp ⊢
            exact (readPromptLoop_spec (Nat.lt_succ_self _) hok hp hskip).answered
        | feeds =>
            simp only [hpw, hpower, if_true] at hp ⊢
            exact powerMenuLoop_spec (Nat.lt_succ_self _) hok hp hskip
      · exfalso
        refine hquiet fun prompt text => ?_
        simp only [hf, hpw, if_false]
        split <;> simp

/-! ## Where answers come from -/

/-- Answers are read from the transport, and a new escape sequence from the bytes in hand or the transport. -/
def FromAhead (d : List Cell) (t : Transport) (us : List Use) : Prop :=
  ∀ u ∈ us, (∀ a, u = .answer a → a ∈ t.chunks.flatten) ∧
    ∀ x y, u = .escapePair x y → x ∈ d ∨ x ∈ t.chunks.flatten

/-- What is done later. -/
def Later (d : List Cell) (s s' : Session) : Prop :=
  (∃ us, s'.log = s.log ++ us ∧ FromAhead d s.transport us) ∧ s'.transport.chunks.flatten ⊆ s.transport.chunks.flatten

theorem Later.refl (d : List Cell) (s : Session) : Later d s s :=
  ⟨⟨[], by simp, fun u hu => by cases hu⟩, List.Subset.refl _⟩

theorem Later.trans (h : Later d s s') (h' : Later d' s' s'') (hd : ∀ x ∈ d', x ∈ d ∨ x ∈ s.transport.chunks.flatten) :
    Later d s s'' := by
  obtain ⟨⟨us, hlog, hus⟩, hsub⟩ := h
  obtain ⟨⟨us', hlog', hus'⟩, hsub'⟩ := h'
  refine ⟨⟨us ++ us', by rw [hlog', hlog, List.append_assoc], fun u hu => ?_⟩, fun x hx => hsub (hsub' hx)⟩
  rcases List.mem_append.mp hu with hu | hu
  · exact hus u hu
  · refine ⟨fun a ha => hsub ((hus' u hu).1 a ha), fun x y hxy => ?_⟩
    rcases (hus' u hu).2 x y hxy with hx | hx
    · exact hd x hx
    · exact .inr (hsub hx)

theorem Later.use (us : List Use) (hlog : s'.log = s.log ++ us) (ht : s'.transport.chunks.flatten ⊆ s.transport.chunks.flatten)
    (hus : FromAhead d s.transport us) : Later d s s' := ⟨⟨us, hlog, hus⟩, ht⟩

theorem read_subset (t : Transport) (n : Nat) :
    (t.read n).1 ⊆ t.chunks.flatten ∧ (t.read n).2.chunks.flatten ⊆ t.chunks.flatten := by
  have htake (t : Transport) (n : Nat) :
      (t.take n).1 ⊆ t.chunks.flatten ∧ (t.take n).2.chunks.flatten ⊆ t.chunks.flatten := by
    cases hc : t.chunks with
    | nil => simp [Transport.take_nil hc, hc]
    | cons cs chunks =>
        rw [Transport.take_cons hc]
        refine ⟨fun x hx => ?_, fun x hx => ?_⟩
        · exact List.mem_append_left _ (List.mem_of_mem_take hx)
        · rw [flatten_push] at hx
          rcases List.mem_append.mp hx with hx | hx
          · exact List.mem_append_left _ (List.mem_of_mem_drop hx)
          · exact List.mem_append_right _ hx
  obtain ⟨h₁, h₂⟩ := htake t n
  unfold Transport.read
  dsimp only
  split
  · rename_i c rest heq
    split
    · obtain ⟨h₃, h₄⟩ := htake (({ (t.take n).2 with skipLineFeed := false } : Transport).unread rest) n
      have hsub : (({ (t.take n).2 with skipLineFeed := false } : Transport).unread rest).chunks.flatten ⊆ t.chunks.flatten := by
        rw [Transport.unread_eq, flatten_push]
        refine List.append_subset.mpr ⟨fun x hx => h₁ ?_, h₂⟩
        rw [heq]
        exact List.mem_cons_of_mem _ hx
      exact ⟨fun x hx => hsub (h₃ hx), fun x hx => hsub (h₄ hx)⟩
    · exact ⟨h₁, h₂⟩
  · exact ⟨List.nil_subset _, h₂⟩

theorem readPromptLoop_later (d : List Cell) (fuel : Nat) (s : Session) (text : List UInt8) :
    Later d s (readPromptLoop fuel s text).2 := by
  induction fuel generalizing s text with
  | zero => exact Later.refl d s
  | succ fuel ih =>
      obtain ⟨h₁, h₂⟩ := read_subset s.transport 1
      rw [readPromptLoop]
      split
      · rename_i t ht
        rw [ht] at h₂
        exact Later.use [] (by simp) h₂ fun u hu => by cases hu
      · rename_i c rest t ht
        rw [ht] at h₁ h₂
        have hlater (t' : Transport) (ht' : t'.chunks = t.chunks) :
            Later d s (({ s with transport := t' } : Session).use [.answer c]) := by
          refine Later.use _ rfl (by show t'.chunks.flatten ⊆ _; rw [ht']; exact h₂) fun u hu => ?_
          cases List.mem_singleton.mp hu
          exact ⟨fun a ha => by cases ha; exact h₁ List.mem_cons_self, fun x y hxy => by cases hxy⟩
        dsimp only
        split
        · exact hlater _ Transport.chunks_dropLineFeed
        · split
          · exact hlater t rfl
          · split <;> exact (hlater t rfl).trans (ih _ _) fun x hx => .inl hx

theorem powerMenuLoop_later (d : List Cell) (fuel : Nat) (s : Session) : Later d s (powerMenuLoop fuel s).2 := by
  induction fuel generalizing s with
  | zero => exact Later.refl d s
  | succ fuel ih =>
      have h := readPromptLoop_later d (s.transport.size + 1) s []
      rw [powerMenuLoop]
      rcases hr : s.readPromptLine with ⟨⟨line, kept⟩, s₁⟩
      have hlater : Later d s s₁ := by
        have : (readPromptLoop (s.transport.size + 1) s []).2 = s₁ := congrArg Prod.snd hr
        exact this ▸ h
      cases kept with
      | false => exact hlater
      | true =>
          dsimp only
          split
          · exact hlater
          · exact hlater
          · exact hlater.trans (ih s₁) fun x hx => .inl hx

theorem handleControlCommand_later (d : List Cell) (s : Session) (cmd : UInt8) :
    Later d s (s.handleControlCommand l cmd).2 := by
  unfold handleControlCommand
  split
  · dsimp only
    split
    · exact Later.refl d s
    · exact readPromptLoop_later ..
  · split
    · unfold runPowerMenu
      split
      · exact Later.refl d s
      · exact readPromptLoop_later ..
      · exact powerMenuLoop_later ..
    · split <;> exact Later.refl d s

theorem readexactly_subset (t : Transport) (n : Nat) :
    (t.readexactly n).1.getD [] ⊆ t.chunks.flatten ∧ (t.readexactly n).2.chunks.flatten ⊆ t.chunks.flatten := by
  have hloop (fuel : Nat) (t' : Transport) (data : List Cell) (n : Nat) (hdata : data ⊆ t.chunks.flatten)
      (ht : t'.chunks.flatten ⊆ t.chunks.flatten) : (Transport.readexactlyLoop fuel t' data n).1.getD [] ⊆ t.chunks.flatten ∧
        (Transport.readexactlyLoop fuel t' data n).2.chunks.flatten ⊆ t.chunks.flatten := by
    induction fuel generalizing t' data with
    | zero =>
        rw [Transport.readexactlyLoop]
        split <;> simp [hdata, ht]
    | succ fuel ih =>
        obtain ⟨h₁, h₂⟩ := read_subset t' (n - data.length)
        rw [Transport.readexactlyLoop]
        split
        · exact ⟨hdata, ht⟩
        · dsimp only
          split
          · exact ⟨List.nil_subset _, fun x hx => ht (h₂ hx)⟩
          · exact ih _ _ (List.append_subset.mpr ⟨hdata, fun x hx => ht (h₁ hx)⟩) fun x hx => ht (h₂ hx)
  unfold Transport.readexactly
  split
  · exact hloop n t [] n (List.nil_subset _) (List.Subset.refl _)
  · obtain ⟨h₁, h₂⟩ := read_subset t n
    dsimp only
    split
    · exact ⟨List.nil_subset _, h₂⟩
    · exact ⟨h₁, h₂⟩

theorem changeEscapeSequence_later (s : Session) (d : List Cell) : Later d s (s.changeEscapeSequence d).2 ∧
    ∀ x ∈ (s.changeEscapeSequence d).1, x ∈ d ∨ x ∈ s.transport.chunks.flatten := by
  unfold changeEscapeSequence
  split
  · rename_i x y d
    refine ⟨Later.use _ rfl (List.Subset.refl _) fun u hu => ?_, fun z hz => .inl ?_⟩
    · cases List.mem_singleton.mp hu
      exact ⟨fun a ha => (by cases ha), fun a b hab => (by cases hab; exact .inl List.mem_cons_self)⟩
    · exact List.mem_cons_of_mem _ (List.mem_cons_of_mem _ hz)
  · obtain ⟨h₁, h₂⟩ := readexactly_subset s.transport (2 - d.length)
    dsimp only
    split
    · rename_i x y rest heq
      have hall : ∀ z ∈ x :: y :: rest, z ∈ d ∨ z ∈ s.transport.chunks.flatten := by
        intro z hz
        rw [← heq] at hz
        rcases List.mem_append.mp hz with hz | hz
        · exact .inl hz
        · exact .inr (h₁ hz)
      refine ⟨Later.use _ rfl h₂ fun u hu => ?_, fun z hz => hall z (List.mem_cons_of_mem _ (List.mem_cons_of_mem _ hz))⟩
      cases List.mem_singleton.mp hu
      exact ⟨fun a ha => (by cases ha), fun a b hab => (by cases hab; exact hall x List.mem_cons_self)⟩
    · exact ⟨Later.use [] (by simp) h₂ (fun u hu => by cases hu), fun z hz => by cases hz⟩

/-- Data and commands say nothing about later bytes. -/
theorem fromAhead_of_plain {us : List Use} {t : Transport} (h : ∀ u ∈ us, (∀ a, u ≠ .answer a) ∧ ∀ x y, u ≠ .escapePair x y) :
    FromAhead d t us :=
  fun u hu => ⟨fun a ha => absurd ha ((h u hu).1 a), fun x y hxy => absurd hxy ((h u hu).2 x y)⟩

theorem Later.plain (us : List Use) (hlog : s'.log = s.log ++ us) (ht : s'.transport = s.transport)
    (h : ∀ u ∈ us, (∀ a, u ≠ .answer a) ∧ ∀ x y, u ≠ .escapePair x y) : Later d s s' :=
  Later.use us hlog (by rw [ht]; exact List.Subset.refl _) (fromAhead_of_plain h)

/-- Forwarding what is left to forward. -/
theorem flush_eq (s : Session) (payload : List UInt8) :
    (if payload = [] then s else s.forwardPayload payload) = s.use (payload.map .data) := by
  split
  · rename_i h
    simp [h, Session.use]
  · rfl

theorem plain_data {payload : List UInt8} :
    ∀ u ∈ payload.map Use.data, (∀ a, u ≠ .answer a) ∧ ∀ x y, u ≠ .escapePair x y := by
  intro u hu
  obtain ⟨b, -, rfl⟩ := List.mem_map.mp hu
  simp

theorem processLoop_later (fuel : Nat) (s : Session) (payload : List UInt8) (d : List Cell) :
    Later d s (processLoop l fuel s payload d).2 := by
  induction fuel generalizing s payload d with
  | zero => exact Later.refl d s
  | succ fuel ih =>
      cases d with
      | nil =>
          simp only [processLoop, flush_eq]
          exact Later.plain _ rfl rfl plain_data
      | cons b d =>
          rcases hf : feedEscapeByte s.escape b.val with ⟨escape, extra, cmd⟩
          have hd : ∀ x ∈ d, x ∈ b :: d ∨ x ∈ s.transport.chunks.flatten := fun x hx => .inl (List.mem_cons_of_mem _ hx)
          cases cmd with
          | none =>
              simp only [processLoop, hf]
              have hescape : Later (b :: d) s { s with escape := escape } := Later.refl (b :: d) s
              exact hescape.trans (ih _ _ d) hd
          | some cmd =>
              simp only [processLoop, hf, flush_eq]
              have hcommand : Later (b :: d) s ((({ s with escape := escape } : Session).use ((payload ++ extra).map .data)).use
                  [.command s.escape.escapeChar1 s.escape.escapeChar2 cmd]) := by
                refine Later.plain ((payload ++ extra).map .data ++ [.command s.escape.escapeChar1 s.escape.escapeChar2 cmd])
                  (by simp [Session.use]) rfl fun u hu => ?_
                rcases List.mem_append.mp hu with hu | hu
                · exact plain_data u hu
                · cases List.mem_singleton.mp hu
                  simp
              split
              · obtain ⟨hchange, hsub⟩ := changeEscapeSequence_later ((({ s with escape := escape } : Session).use
                  ((payload ++ extra).map .data)).use [.command s.escape.escapeChar1 s.escape.escapeChar2 cmd]) d
                exact hcommand.trans (hchange.trans (ih _ _ _) hsub) hd
              · have hhandle := handleControlCommand_later (l := l) d ((({ s with escape := escape } : Session).use
                  ((payload ++ extra).map .data)).use [.command s.escape.escapeChar1 s.escape.escapeChar2 cmd]) cmd
                split
                · exact hcommand.trans hhandle hd
                · exact hcommand.trans (hhandle.trans (ih _ _ _) fun x hx => .inl hx) hd

theorem pumpLoop_later (fuel : Nat) (s : Session) : Later [] s (pumpLoop l fuel s) := by
  induction fuel generalizing s with
  | zero => exact Later.refl [] s
  | succ fuel ih =>
      obtain ⟨h₁, h₂⟩ := read_subset s.transport 4096
      have hread : Later [] s { s with transport := (s.transport.read 4096).2 } :=
        Later.use [] (by simp) h₂ fun u hu => by cases hu
      rw [pumpLoop]
      dsimp only
      split
      · exact hread
      · have hprocess := processLoop_later (l := l) ((s.transport.read 4096).1.length + 1)
          { s with transport := (s.transport.read 4096).2 } [] (s.transport.read 4096).1
        have hall := hread.trans hprocess fun x hx => .inr (h₁ hx)
        split
        · exact hall
        · exact hall.trans (ih _) fun x hx => by cases hx

/-! ## The pump -/

/-- The session ends up having done what the bytes ahead mean exactly when the chunks ahead are clean. -/
def Serves (l : Listener) (telnet : Bool) (σ : Scanner) (s : Session) (d : List Cell) (final : Session) : Prop :=
  final.log = s.log ++ σ.meaning l telnet (d ++ s.transport.chunks.flatten) ↔ σ.Clean l telnet (push d s.transport.chunks)

variable {final : Session}

theorem Keeps.serves (h : Keeps l telnet σ s d σ' s' d') (h' : Serves l telnet σ' s' d' final) :
    Serves l telnet σ s d final := by
  unfold Serves
  rw [← h.ahead, h.clean]
  exact h'

/-- Nothing is ahead that means anything. -/
theorem serves_of_nothing (hmeaning : σ.meaning l telnet (d ++ s.transport.chunks.flatten) = [])
    (hclean : σ.Clean l telnet (push d s.transport.chunks)) (hlog : final.log = s.log) : Serves l telnet σ s d final :=
  iff_of_true (by rw [hlog, hmeaning, List.append_nil]) hclean

theorem serves_end (ht : s.transport.chunks = []) (hlog : final.log = s.log) : Serves l telnet σ s [] final :=
  serves_of_nothing (by simp [ht]) (by simp [ht, Scanner.Clean]) hlog

theorem serves_stopped (hp : σ.phase = .stopped) (hlog : final.log = s.log) : Serves l telnet σ s d final :=
  serves_of_nothing (meaning_stopped hp) (clean_stopped hp) hlog

/-- The scanner has followed the session up to here. -/
structure Follows (telnet : Bool) (σ : Scanner) (s : Session) : Prop where
  phase : σ.phase = .scan
  escape : σ.escape = s.escape
  skip : σ.skipLineFeed = s.transport.skipLineFeed
  ok : s.transport.Ok telnet

/-- A use that was meant and cannot come any more. -/
theorem not_serves {u : Use} (hclean : ¬ σ.Clean l telnet (push d s.transport.chunks))
    (hu : u ∈ σ.meaning l telnet (d ++ s.transport.chunks.flatten)) {us : List Use} (hlog : final.log = s.log ++ us)
    (hus : u ∉ us) : Serves l telnet σ s d final := by
  refine iff_of_false (fun h => ?_) hclean
  rw [hlog, List.append_cancel_left_eq] at h
  exact hus (h ▸ hu)

/-- The rest of a chunk and then the rest of the stream. -/
def finish (l : Listener) (fuel : Nat) (r : Bool × Session) : Session := if r.1 then r.2 else pumpLoop l fuel r.2

theorem finish_later (fuel : Nat) {r : Bool × Session} (h : Later d s r.2) : Later d s (finish l fuel r) := by
  unfold finish
  split
  · exact h
  · exact h.trans (pumpLoop_later fuel r.2) fun x hx => by cases hx

theorem answer_mem_meaning {c : Cell} {cs : List Cell} (hp : σ.phase = .line prompt text) (hskip : σ.skipLineFeed = false) :
    .answer c ∈ σ.meaning l telnet (c :: cs) := by
  have hfirst : .answer c ∈ (σ.step l telnet c).2 := by
    rw [step_of_not_skip hskip]
    unfold Scanner.take
    rw [hp]
    dsimp only
    split
    · simp
    · split
      · simp
      · split <;> simp
  rw [meaning_cons]
  exact List.mem_append_left _ (List.mem_filter.mpr ⟨hfirst, by simp⟩)

theorem pumpLoop_end (fuel : Nat) (h : s.transport.chunks = []) : (pumpLoop l fuel s).log = s.log := by
  cases fuel with
  | zero => rfl
  | succ fuel =>
      have hread : (s.transport.read 4096).1 = [] := by simp [Transport.read, Transport.take, h]
      simp [pumpLoop, hread]

theorem filter_data {payload : List UInt8} :
    (payload.map Use.data).filter (fun u => decide (u ≠ .lineFeed)) = payload.map Use.data := by
  refine List.filter_eq_self.mpr fun u hu => ?_
  obtain ⟨b, -, rfl⟩ := List.mem_map.mp hu
  simp

theorem use_data_nil (s : Session) : s.use (([] : List UInt8).map .data) = s := by
  simp [Session.use]

theorem begin_escape {cmd : UInt8} {x : Option Cell} (h : begin l cmd = .escape x) : cmd = 101 := by
  unfold begin at h
  split at h
  · assumption
  · split at h
    · split at h <;> cases h
    · split at h
      · split at h <;> cases h
      · split at h <;> cases h

theorem step_first {x : Cell} (hp : σ.phase = .escape none) (hskip : σ.skipLineFeed = false) :
    σ.step l telnet x = ({ σ with phase := .escape (some x) }, []) := by
  simp [step_of_not_skip hskip, Scanner.take, hp]

theorem step_second {x y : Cell} (hp : σ.phase = .escape (some x)) (hskip : σ.skipLineFeed = false) :
    σ.step l telnet y = (⟨{ σ.escape with escapeChar1 := x.val, escapeChar2 := y.val }, .scan, σ.skipLineFeed⟩,
      [.escapePair x y]) := by
  simp [step_of_not_skip hskip, Scanner.take, hp]

theorem mem_meaning_cons {u : Use} {c : Cell} {cs : List Cell} (h : u ∈ (σ.step l telnet c).1.meaning l telnet cs) :
    u ∈ σ.meaning l telnet (c :: cs) := by
  rw [meaning_cons]
  exact List.mem_append_right _ h

theorem pair_mem_meaning {x y : Cell} {cs : List Cell} (hp : σ.phase = .escape none) (hskip : σ.skipLineFeed = false) :
    .escapePair x y ∈ σ.meaning l telnet (x :: y :: cs) := by
  refine mem_meaning_cons ?_
  rw [step_first hp hskip, meaning_cons, step_second (x := x) rfl (by exact hskip)]
  simp

/-- Both bytes of the new escape sequence, the first in hand and the second next, or both next. -/
theorem Keeps.pair {x y : Cell} (hskip : σ.skipLineFeed = false)
    (hfirst : Keeps l telnet σ s d { σ with phase := .escape (some x) } s' d')
    (hsecond : d' = y :: d'' ∧ s'' = s'.setEscape x y ∨ d' = [] ∧ d'' = [] ∧ ∃ cs rest,
      s'.transport.chunks = (y :: cs) :: rest ∧
        s'' = ({ s' with transport := { s'.transport with chunks := push cs rest } } : Session).setEscape x y) :
    Keeps l telnet σ s d ⟨{ σ.escape with escapeChar1 := x.val, escapeChar2 := y.val }, .scan, σ.skipLineFeed⟩ s'' d'' := by
  refine hfirst.trans ?_
  have hstep : ({ σ with phase := .escape (some x) } : Scanner).step l telnet y = _ := step_second rfl hskip
  have hne : ({ σ with phase := .escape (some x) } : Scanner).phase ≠ .scan := by simp
  rcases hsecond with ⟨rfl, rfl⟩ | ⟨rfl, rfl, cs, rest, hchunks, rfl⟩
  · exact Keeps.step hstep (fun ha => absurd ha (not_asks hne)) (fun _ hc => absurd hc (not_changes hne)) rfl rfl
  · exact Keeps.next hchunks rfl hstep (not_asks hne) (not_changes hne) rfl

/-- The escape sequence is changed, unless its bytes are not all in hand and a chunk of one byte follows over SSH. -/
theorem changeEscapeSequence_spec {n fuel : Nat}
    (ih : ∀ {σ : Scanner} {s : Session} {d : List Cell}, d.length < n → s.transport.size < fuel →
      (d ++ s.transport.chunks.flatten).Nodup → Follows telnet σ s → σ.skipLineFeed = false →
      Serves l telnet σ s d (finish l fuel (processLoop l n s [] d)))
    (hn : d.length < n) (hfuel : s.transport.size < fuel) (hnodup : (d ++ s.transport.chunks.flatten).Nodup)
    (hp : σ.phase = .escape none) (hescape : σ.escape = s.escape) (hok : s.transport.Ok telnet)
    (hskip : σ.skipLineFeed = false) (hskip' : s.transport.skipLineFeed = false)
    (hssh : telnet = false → d = [] → ∀ x rest, s.transport.chunks = [x] :: rest → rest = []) :
    Serves l telnet σ s d (finish l fuel (processLoop l n (s.changeEscapeSequence d).2 [] (s.changeEscapeSequence d).1)) := by
  have hne : σ.phase ≠ .scan := by simp [hp]
  -- With the pair, the session goes on after it.
  have hpair {x y : Cell} {t : Transport} {d' : List Cell} (hd : d'.length ≤ d.length)
      (hsub : (d' ++ t.chunks.flatten).Sublist (d ++ s.transport.chunks.flatten))
      (hsize : t.size ≤ s.transport.size) (ht : t.Ok telnet) (htskip : t.skipLineFeed = false)
      (hkeeps : Keeps l telnet σ s d ⟨{ σ.escape with escapeChar1 := x.val, escapeChar2 := y.val }, .scan, σ.skipLineFeed⟩
        (({ s with transport := t } : Session).setEscape x y) d') :
      Serves l telnet σ s d (finish l fuel (processLoop l n (({ s with transport := t } : Session).setEscape x y) [] d')) :=
    hkeeps.serves (ih (Nat.lt_of_le_of_lt hd hn) (Nat.lt_of_le_of_lt hsize hfuel) (hnodup.sublist hsub)
      ⟨rfl, by simp [setEscape, use, hescape], hskip.trans htskip.symm, ht⟩ hskip)
  -- Without it, the stream has ended.
  have hend {t : Transport} (hd : s.changeEscapeSequence d = ([], { s with transport := t })) (ht : t.chunks = [])
      (hmeaning : σ.meaning l telnet (d ++ s.transport.chunks.flatten) = [])
      (hclean : σ.Clean l telnet (push d s.transport.chunks)) :
      Serves l telnet σ s d (finish l fuel (processLoop l n (s.changeEscapeSequence d).2 [] (s.changeEscapeSequence d).1)) := by
    obtain ⟨n, rfl⟩ : ∃ m, n = m + 1 := ⟨n - 1, by omega⟩
    refine serves_of_nothing hmeaning hclean ?_
    rw [hd]
    exact pumpLoop_end fuel ht
  have hfirst {x : Cell} {cs : List Cell} : σ.meaning l telnet (x :: cs) =
      ({ σ with phase := .escape (some x) } : Scanner).meaning l telnet cs := by
    rw [meaning_cons, step_first hp hskip]
    rfl
  have hasks (c : Cell) : ¬ σ.Asks l telnet c := not_asks hne
  have hchanges (c : Cell) : ¬ σ.Changes l telnet c := not_changes hne
  have hchunks := hok.chunks
  have hok' {chunks : List (List Cell)} (h : ∀ c ∈ chunks, c ≠ [] ∧ c.length ≤ 4096) :
      ({ s.transport with chunks := chunks } : Transport).Ok telnet := ⟨hok.kind, h⟩
  match d, hc : s.transport.chunks with
  | x :: y :: d', _ =>
      have hx : Keeps l telnet σ s (x :: y :: d') { σ with phase := .escape (some x) } s (y :: d') :=
        Keeps.step (step_first hp hskip) (fun ha => absurd ha (hasks x)) (fun _ h => absurd h (hchanges x)) (by simp) rfl
      have hrun : s.changeEscapeSequence (x :: y :: d') = (d', s.setEscape x y) := rfl
      rw [hrun]
      refine hpair (by simp only [List.length_cons]; omega) ?_ (Nat.le_refl _) hok hskip' (hx.pair hskip (.inl ⟨rfl, rfl⟩))
      exact (List.sublist_cons_self ..).trans (List.sublist_cons_self ..)
  | [x], [] =>
      refine hend (t := s.transport) ?_ hc ?_ ?_
      · simp [changeEscapeSequence, Transport.readexactly_end hc hskip']
      · rw [hc]
        exact hfirst
      · rw [hc]
        exact (clean_cons (hasks x) (hchanges x)).mpr trivial
  | [x], c :: rest =>
      obtain ⟨hcne, hlen⟩ := hchunks c (hc ▸ List.mem_cons_self)
      obtain ⟨y, cs, rfl⟩ := List.exists_cons_of_ne_nil hcne
      have hx : Keeps l telnet σ s [x] { σ with phase := .escape (some x) } s [] := by
        refine Keeps.step (step_first hp hskip) (fun ha => absurd ha (hasks x)) (fun _ h => absurd h (hchanges x)) (by simp) rfl
      have hread : s.transport.readexactly [y].length = (some [y], { s.transport with chunks := push cs rest }) :=
        Transport.readexactly_front hc hskip' (by simp)
      have hrun : s.changeEscapeSequence [x] = ([], ({ s with transport := { s.transport with chunks := push cs rest } } :
          Session).setEscape x y) := by
        simp only [List.length_singleton] at hread
        simp [changeEscapeSequence, hread]
      rw [hrun]
      simp only [List.length_cons] at hlen
      refine hpair (by simp) ?_ ?_ (hok' (Transport.chunks_push (fun d hd => hchunks d (hc ▸ List.mem_cons_of_mem _ hd)) (by omega)))
        hskip' (hx.pair hskip (.inr ⟨rfl, rfl, cs, rest, hc, rfl⟩))
      · rw [flatten_push, hc, List.flatten_cons]
        exact (List.sublist_cons_self ..).trans (List.sublist_cons_self ..)
      · simp [Transport.size, hc]
  | [], [] =>
      refine hend (t := s.transport) ?_ hc (by simp [hc]) (by simp [hc, Scanner.Clean])
      simp [changeEscapeSequence, Transport.readexactly_end hc hskip']
  | [], (x :: y :: cs) :: rest =>
      have hlen := (hchunks _ (hc ▸ List.mem_cons_self)).2
      have hrest := fun c hd => hchunks c (hc ▸ List.mem_cons_of_mem _ hd)
      have hx : Keeps l telnet σ s [] { σ with phase := .escape (some x) }
          { s with transport := { s.transport with chunks := (y :: cs) :: rest } } [] :=
        Keeps.next hc rfl (step_first hp hskip) (hasks x) (hchanges x) (by simp)
      have hread : s.transport.readexactly [x, y].length = (some [x, y], { s.transport with chunks := push cs rest }) :=
        Transport.readexactly_front hc hskip' (by simp)
      have hrun : s.changeEscapeSequence [] = ([], ({ s with transport := { s.transport with chunks := push cs rest } } :
          Session).setEscape x y) := by
        simp only [List.length_cons, List.length_nil] at hread
        simp [changeEscapeSequence, hread]
      rw [hrun]
      simp only [List.length_cons] at hlen
      refine hpair (Nat.le_refl _) ?_ ?_ (hok' (Transport.chunks_push hrest (by omega))) hskip'
        (hx.pair hskip (.inr ⟨rfl, rfl, cs, rest, rfl, rfl⟩))
      · rw [flatten_push, hc, List.flatten_cons]
        exact (List.sublist_cons_self ..).trans (List.sublist_cons_self ..)
      · simp only [Transport.size, flatten_push, hc, List.flatten_cons, List.cons_append, List.length_cons]
        omega
  | [], [[x]] =>
      refine hend (t := { s.transport with chunks := [] }) ?_ rfl ?_ ?_
      · simp [changeEscapeSequence, Transport.readexactly_last hc hskip']
      · rw [hc]
        exact hfirst
      · rw [hc]
        exact (clean_cons (hasks x) (hchanges x)).mpr trivial
  | [], [x] :: (y :: cs) :: rest =>
      have htelnet : s.transport.telnet = true := by
        cases ht : telnet with
        | true => exact hok.kind.trans ht
        | false => exact absurd (hssh ht rfl x _ hc) (List.cons_ne_nil _ _)
      have hchunks' := fun c hd => hchunks c (hc ▸ List.mem_cons_of_mem _ hd)
      have hlen := (hchunks' (y :: cs) List.mem_cons_self).2
      have hx : Keeps l telnet σ s [] { σ with phase := .escape (some x) }
          { s with transport := { s.transport with chunks := (y :: cs) :: rest } } [] :=
        Keeps.next hc rfl (step_first hp hskip) (hasks x) (hchanges x) (by simp)
      have hrun : s.changeEscapeSequence [] = ([], ({ s with transport := { s.transport with chunks := push cs rest } } :
          Session).setEscape x y) := by
        simp [changeEscapeSequence, Transport.readexactly_telnet htelnet hc hskip']
      rw [hrun]
      simp only [List.length_cons] at hlen
      refine hpair (Nat.le_refl _) ?_ ?_ (hok' (Transport.chunks_push (fun d hd => hchunks' d (List.mem_cons_of_mem _ hd)) (by omega)))
        hskip' (hx.pair hskip (.inr ⟨rfl, rfl, cs, rest, rfl, rfl⟩))
      · rw [flatten_push, hc, List.flatten_cons]
        exact (List.sublist_cons_self ..).trans (List.sublist_cons_self ..)
      · simp only [Transport.size, flatten_push, hc, List.flatten_cons, List.cons_append, List.nil_append, List.length_cons]
        omega
  | [], [] :: rest => exact absurd rfl (hchunks [] (hc ▸ List.mem_cons_self)).1
  | [], [x] :: [] :: rest => exact absurd rfl (hchunks [] (hc ▸ List.mem_cons_of_mem _ List.mem_cons_self)).1

/-- A command that has been answered with nothing in hand. -/
theorem serves_answered {n fuel : Nat} {r : Bool × Session}
    (ih : ∀ {σ : Scanner} {s : Session}, s.transport.size < fuel → s.transport.chunks.flatten.Nodup →
      Follows telnet σ s → Serves l telnet σ s [] (pumpLoop l fuel s))
    (hn : 0 < n) (hfuel : s.transport.size < fuel) (hnodup : s.transport.chunks.flatten.Nodup) (hescape : σ.escape = s.escape)
    (h : Answered l telnet σ s r) :
    Serves l telnet σ s [] (finish l fuel (if r.1 then (true, r.2) else processLoop l n r.2 [] [])) := by
  obtain ⟨n, rfl⟩ : ∃ m, n = m + 1 := ⟨n - 1, by omega⟩
  cases hr : r.1 with
  | true =>
      obtain ⟨τ, hphase, hτ⟩ := h.stopped hr
      exact hτ.serves (serves_stopped hphase rfl)
  | false =>
      obtain ⟨τ, hτ, hgoes⟩ := h.goes hr
      have hrun : finish l fuel (if false = true then (true, r.2) else processLoop l (n + 1) r.2 [] []) = pumpLoop l fuel r.2 := by
        simp [processLoop, finish]
      rw [hrun]
      refine hτ.serves ?_
      rcases hgoes with hend | ⟨hphase, hescape', hskip⟩
      · exact serves_end hend (pumpLoop_end fuel hend)
      · exact ih (Nat.lt_of_le_of_lt h.suffix.length_le hfuel) (hnodup.sublist h.suffix.sublist)
          ⟨hphase, hescape'.trans (hescape.trans h.escape.symm), hskip, h.ok⟩

theorem processLoop_spec {fuel n : Nat}
    (ih : ∀ {σ : Scanner} {s : Session}, s.transport.size < fuel → s.transport.chunks.flatten.Nodup →
      Follows telnet σ s → Serves l telnet σ s [] (pumpLoop l fuel s))
    (payload : List UInt8) (hn : d.length < n) (hfuel : s.transport.size < fuel)
    (hnodup : (d ++ s.transport.chunks.flatten).Nodup) (hfollows : Follows telnet σ s) (hskip : d ≠ [] → σ.skipLineFeed = false) :
    Serves l telnet σ (s.use (payload.map .data)) d (finish l fuel (processLoop l n s payload d)) := by
  induction n generalizing s σ d payload with
  | zero => omega
  | succ n ihn =>
      cases d with
      | nil =>
          have hrun : finish l fuel (processLoop l (n + 1) s payload []) = pumpLoop l fuel (s.use (payload.map .data)) := by
            simp [processLoop, flush_eq, finish]
          rw [hrun]
          exact ih hfuel hnodup ⟨hfollows.phase, hfollows.escape, hfollows.skip, hfollows.ok⟩
      | cons b d =>
          have hstep : σ.step l telnet b = _ := step_of_not_skip (hskip (List.cons_ne_nil b d))
          have hnodup' : (d ++ s.transport.chunks.flatten).Nodup := (List.nodup_cons.mp hnodup).2
          simp only [List.length_cons, Nat.succ_lt_succ_iff] at hn
          unfold Scanner.take at hstep
          rw [hfollows.phase] at hstep
          rcases hf : feedEscapeByte s.escape b.val with ⟨escape, extra, cmd⟩
          simp only [hfollows.escape, hf] at hstep
          cases cmd with
          | none =>
              dsimp only at hstep
              have hkeeps : Keeps l telnet σ (s.use (payload.map .data)) (b :: d)
                  { escape := escape, skipLineFeed := σ.skipLineFeed }
                  (({ s with escape := escape } : Session).use ((payload ++ extra).map .data)) d := by
                refine Keeps.step hstep ?_ ?_ ?_ rfl
                · rintro ⟨-, p, t, hline⟩
                  rw [hstep] at hline
                  cases hline
                · rintro - ⟨-, hline⟩
                  rw [hstep] at hline
                  cases hline
                · rw [filter_data]
                  simp [Session.use]
              have hrun : processLoop l (n + 1) s payload (b :: d) =
                  processLoop l n { s with escape := escape } (payload ++ extra) d := by simp [processLoop, hf]
              rw [hrun]
              exact hkeeps.serves (ihn _ hn hfuel hnodup' ⟨rfl, rfl, hfollows.skip, hfollows.ok⟩
                fun _ => hskip (List.cons_ne_nil b d))
          | some cmd =>
              dsimp only at hstep
              have hskip₁ : σ.skipLineFeed = false := hskip (List.cons_ne_nil b d)
              -- The session and the scanner once the command is complete.
              obtain ⟨s₁, hs₁⟩ : ∃ s₁, s₁ = (({ s with escape := escape } : Session).use ((payload ++ extra).map .data)).use
                [.command s.escape.escapeChar1 s.escape.escapeChar2 cmd] := ⟨_, rfl⟩
              obtain ⟨σ₁, hσ₁⟩ : ∃ σ₁ : Scanner, σ₁ = ⟨escape, begin l cmd, σ.skipLineFeed⟩ := ⟨_, rfl⟩
              have hlog₁ : s₁.log = (s.use (payload.map .data)).log ++ (extra.map .data ++
                  [.command s.escape.escapeChar1 s.escape.escapeChar2 cmd]) := by
                simp [hs₁, Session.use]
              have ht₁ : s₁.transport = s.transport := by rw [hs₁]; rfl
              have he₁ : s₁.escape = escape := by rw [hs₁]; rfl
              rw [← hσ₁] at hstep
              have hkeeps (ha : (∃ p t, begin l cmd = .line p t) → d = [])
                  (hc : telnet = false → cmd = 101 → d = [] → ∀ x rest, s.transport.chunks = [x] :: rest → rest = []) :
                  Keeps l telnet σ (s.use (payload.map .data)) (b :: d) σ₁ s₁ d := by
                refine Keeps.step hstep ?_ ?_ ?_ (by rw [ht₁]; rfl)
                · rintro ⟨-, p, t, hline⟩
                  rw [hstep, hσ₁] at hline
                  exact ha ⟨p, t, hline⟩
                · rintro htelnet ⟨-, hline⟩ hd
                  rw [hstep, hσ₁] at hline
                  exact hc htelnet (begin_escape hline) hd
                · rw [List.filter_append, filter_data, hlog₁]
                  rfl
              by_cases h101 : cmd = 101
              · have hrun : processLoop l (n + 1) s payload (b :: d) =
                    processLoop l n (s₁.changeEscapeSequence d).2 [] (s₁.changeEscapeSequence d).1 := by
                  simp only [processLoop, hf, flush_eq, h101, if_true, hs₁]
                rw [hrun]
                by_cases hssh : telnet = false → d = [] → ∀ x rest, s.transport.chunks = [x] :: rest → rest = []
                · refine (hkeeps (by rintro ⟨p, t, hline⟩; rw [h101] at hline; cases hline) fun ht _ => hssh ht).serves ?_
                  refine changeEscapeSequence_spec (fun {_ s _} hd hsize hnodup hfollows hskip => ?_) hn (by rwa [ht₁])
                    (by rwa [ht₁]) (by rw [hσ₁, h101]; rfl) (by rw [hσ₁, he₁]) (by rw [ht₁]; exact hfollows.ok)
                    (by rw [hσ₁]; exact hskip₁) (by rw [ht₁, ← hfollows.skip]; exact hskip₁) (by rwa [ht₁])
                  have := ihn [] hd hsize hnodup hfollows fun _ => hskip
                  rwa [use_data_nil] at this
                · -- The first byte of the new escape sequence is read and lost.
                  simp only [Classical.not_imp, not_forall] at hssh
                  obtain ⟨htelnet, hd, x, rest, hc, hrest⟩ := hssh
                  subst hd
                  obtain ⟨c, rest, rfl⟩ := List.exists_cons_of_ne_nil hrest
                  obtain ⟨y, cs, rfl⟩ := List.exists_cons_of_ne_nil (hfollows.ok.chunks c (by simp [hc])).1
                  have hread : s₁.transport.readexactly 2 =
                      (none, { s₁.transport with chunks := (y :: cs) :: rest }) :=
                    Transport.readexactly_ssh (by rw [ht₁, hfollows.ok.kind, htelnet]) (by rw [ht₁, hc])
                      (by rw [ht₁, ← hfollows.skip, hskip₁])
                  have hlost : s₁.changeEscapeSequence [] =
                      ([], { s₁ with transport := { s₁.transport with chunks := (y :: cs) :: rest } }) := by
                    simp [changeEscapeSequence, hread]
                  rw [hlost]
                  obtain ⟨⟨us, hlog, hus⟩, -⟩ := finish_later (l := l) fuel (processLoop_later (l := l) n
                    { s₁ with transport := { s₁.transport with chunks := (y :: cs) :: rest } } [] [])
                  refine not_serves (u := .escapePair x y) ?_ ?_ (hlog.trans (congrArg (· ++ us) hlog₁ |>.trans
                    (List.append_assoc ..))) ?_
                  · intro hclean
                    have hchanges : σ.Changes l telnet b := ⟨hfollows.phase, by rw [hstep, hσ₁, h101]; rfl⟩
                    have hone := hclean.1.2.1 htelnet hchanges rfl x ((y :: cs) :: rest) hc
                    cases hone
                  · have hphase : σ₁.phase = .escape none := by rw [hσ₁, h101]; rfl
                    have hskip₂ : σ₁.skipLineFeed = false := by rw [hσ₁]; exact hskip₁
                    refine mem_meaning_cons ?_
                    rw [hstep, show (s.use (payload.map .data)).transport.chunks = _ from hc]
                    exact pair_mem_meaning hphase hskip₂
                  · have hx : x ∉ ((y :: cs) :: rest).flatten := by
                      rw [hc, List.nil_append, List.flatten_cons] at hnodup'
                      exact (List.nodup_cons.mp hnodup').1
                    simp only [List.mem_append, not_or]
                    refine ⟨⟨fun h => (plain_data _ h).2 x y rfl, by simp⟩, fun h => ?_⟩
                    rcases (hus _ h).2 x y rfl with hnil | hnil
                    · cases hnil
                    · exact hx hnil
              · have hrun : processLoop l (n + 1) s payload (b :: d) =
                    if (s₁.handleControlCommand l cmd).1 then (true, (s₁.handleControlCommand l cmd).2)
                    else processLoop l n (s₁.handleControlCommand l cmd).2 [] d := by
                  simp only [processLoop, hf, flush_eq, h101, if_false, hs₁]
                rw [hrun]
                by_cases hquiet : ∀ p t, begin l cmd ≠ .line p t
                · obtain ⟨hhandle, hphase⟩ := handleControlCommand_quiet (s := s₁) h101 hquiet
                  rw [hhandle]
                  refine (hkeeps (by rintro ⟨p, t, hline⟩; exact absurd hline (hquiet p t)) fun _ h => absurd h h101).serves ?_
                  rcases hphase with hphase | hphase
                  · simp only [hphase, decide_true, if_true]
                    exact serves_stopped (by rw [hσ₁]; exact hphase) rfl
                  · simp only [hphase, reduceCtorEq, decide_false, Bool.false_eq_true, if_false]
                    have := ihn (s := s₁) (σ := σ₁) [] hn (by rwa [ht₁]) (by rwa [ht₁])
                      ⟨by rw [hσ₁]; exact hphase, by rw [hσ₁, he₁], by rw [hσ₁, ht₁]; exact hfollows.skip, by rw [ht₁]; exact hfollows.ok⟩
                      fun _ => by rw [hσ₁]; exact hskip₁
                    rwa [use_data_nil] at this
                · simp only [ne_eq, not_forall, not_not] at hquiet
                  obtain ⟨p, t, hline⟩ := hquiet
                  cases d with
                  | nil =>
                      refine (hkeeps (fun _ => rfl) fun _ h => absurd h h101).serves ?_
                      have hanswered := handleControlCommand_spec (l := l) (σ := σ₁) (s := s₁) h101 (ht₁ ▸ hfollows.ok)
                        (by rw [hσ₁]) (by rw [hσ₁, ht₁]; exact hfollows.skip)
                      exact serves_answered ih hn (by rwa [ht₁]) (by rwa [ht₁]) (by rw [hσ₁, he₁]) hanswered
                  | cons c d =>
                      -- The answer is in hand, where the prompt does not look.
                      have hafter : Later (c :: d) s₁ (if (s₁.handleControlCommand l cmd).1 then
                          (true, (s₁.handleControlCommand l cmd).2)
                          else processLoop l n (s₁.handleControlCommand l cmd).2 [] (c :: d)).2 := by
                        have hhandle := handleControlCommand_later (l := l) (c :: d) s₁ cmd
                        split
                        · exact hhandle
                        · exact hhandle.trans (processLoop_later n _ [] (c :: d)) fun x hx => .inl hx
                      obtain ⟨⟨us, hlog, hus⟩, -⟩ := finish_later (l := l) fuel hafter
                      refine not_serves (u := .answer c) ?_ ?_ (hlog.trans (congrArg (· ++ us) hlog₁ |>.trans
                        (List.append_assoc ..))) ?_
                      · intro hclean
                        have hasks : σ.Asks l telnet b := ⟨hfollows.phase, p, t, by rw [hstep, hσ₁]; exact hline⟩
                        cases hclean.1.1 hasks
                      · refine mem_meaning_cons ?_
                        rw [hstep]
                        exact (answer_mem_meaning (by rw [hσ₁]; exact hline) (by rw [hσ₁]; exact hskip₁))
                      · have hc : c ∉ s.transport.chunks.flatten := fun hc =>
                          (List.nodup_cons.mp hnodup').1 (List.mem_append_right _ hc)
                        simp only [List.mem_append, not_or]
                        refine ⟨⟨fun h => (plain_data _ h).1 c rfl, by simp⟩, fun h => hc ?_⟩
                        rw [← ht₁]
                        exact (hus _ h).1 c rfl

theorem pumpLoop_spec {fuel : Nat} (hfuel : s.transport.size < fuel) (hnodup : s.transport.chunks.flatten.Nodup)
    (hfollows : Follows telnet σ s) : Serves l telnet σ s [] (pumpLoop l fuel s) := by
  induction fuel generalizing s σ with
  | zero => omega
  | succ fuel ih =>
      obtain ⟨chunks, hok', hsuffix, hread, hmeaning, hclean⟩ := Transport.settle (l := l) hfollows.ok hfollows.skip
      have hread := hread 4096 (.inr rfl)
      have hsettle : Keeps l telnet σ s [] { σ with skipLineFeed := false }
          { s with transport := { s.transport with skipLineFeed := false, chunks := chunks } } [] :=
        Keeps.settle hmeaning hclean rfl rfl
      refine hsettle.serves ?_
      cases hc : chunks with
      | nil =>
          subst hc
          refine serves_end rfl ?_
          simp [pumpLoop, hread, Transport.take]
      | cons c rest =>
          subst hc
          obtain ⟨hne, hlen⟩ := hok'.chunks c List.mem_cons_self
          have htake : s.transport.read 4096 = (c, { s.transport with skipLineFeed := false, chunks := rest }) := by
            rw [hread, Transport.take_cons rfl, List.take_of_length_le hlen, List.drop_of_length_le hlen]
            rfl
          have hpump : pumpLoop l (fuel + 1) s = finish l fuel (processLoop l (c.length + 1)
              { s with transport := { s.transport with skipLineFeed := false, chunks := rest } } [] c) := by
            simp only [pumpLoop, htake, hne, if_false]
            rfl
          rw [hpump]
          have hrest : Keeps l telnet { σ with skipLineFeed := false }
              { s with transport := { s.transport with skipLineFeed := false, chunks := c :: rest } } []
              { σ with skipLineFeed := false }
              { s with transport := { s.transport with skipLineFeed := false, chunks := rest } } c :=
            Keeps.read rfl rfl rfl hne rfl
          have hsize := hsuffix.length_le
          have hpos := List.length_pos_of_ne_nil hne
          have hnodup' : (c ++ rest.flatten).Nodup := hnodup.sublist hsuffix.sublist
          have hfollows' : Follows telnet { σ with skipLineFeed := false }
              { s with transport := { s.transport with skipLineFeed := false, chunks := rest } } :=
            ⟨hfollows.phase, hfollows.escape, rfl, hok'.kind, fun c hc => hok'.chunks c (List.mem_cons_of_mem _ hc)⟩
          have hprocess := processLoop_spec (fun {_ _} => ih) [] (Nat.lt_succ_self c.length)
            (by
              show rest.flatten.length < fuel
              simp only [List.flatten_cons, List.length_append] at hsize
              have : s.transport.chunks.flatten.length < fuel + 1 := hfuel
              omega) hnodup' hfollows' fun _ => rfl
          rw [use_data_nil] at hprocess
          exact hrest.serves hprocess

end Session

end OpenMux.Clients
