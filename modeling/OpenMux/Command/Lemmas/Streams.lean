import OpenMux.Command.Streams

/-!
# Reads and batches
-/

namespace OpenMux.Command

variable {p : CommandPort} {s t : Child} {data x : List UInt8} {ok : List Bool}

/-! ## Newlines and queries -/

theorem separators : Brackets.Separators startSeq endSeq := by decide

theorem cr_ne_lf : CR ≠ LF := by decide

/-- The table of a mode. -/
def newline (pty : Bool) (b : UInt8) : List UInt8 := if pty then if b = LF then [CR, LF] else [b] else [if b = CR then LF else b]

theorem newline_ne_nil (pty : Bool) (b : UInt8) : newline pty b ≠ [] := by
  cases pty with
  | true =>
      show (if b = LF then [CR, LF] else [b]) ≠ []
      split <;> simp
  | false => simp [newline]

theorem normalize_eq (p : CommandPort) (data : List UInt8) : p.normalize data = Newlines.rewrite CR LF (newline p.usePty) data := by
  unfold CommandPort.normalize
  split
  · rename_i h
    rw [h]
    rfl
  · rename_i h
    rw [Bool.not_eq_true] at h
    rw [h]
    rfl

theorem toLf_eq (data : List UInt8) : toLf data = Newlines.rewrite CR LF (newline false) data := rfl

theorem normalize_ne_nil (h : data ≠ []) : p.normalize data ≠ [] := by
  rw [normalize_eq]
  exact mt (Newlines.rewrite_eq_nil_iff (newline_ne_nil p.usePty)).mp h

/-- A cut in a query shows: its first part is text of the first half, and that is not the end of a pair. -/
theorem length_normalize_of_cuts (h : Brackets.Cuts startSeq endSeq data x) :
    (p.normalize (intercepted (data ++ x))).length <
      (p.normalize (intercepted data)).length + (p.normalize (intercepted x)).length := by
  obtain ⟨b, q, z, r, hdata, hhead, hx, hwhole, -⟩ := Brackets.append_of_cuts separators h
  have hsplit : ¬ Newlines.Splits CR LF b q := by
    rintro ⟨-, hq⟩
    rw [hhead] at hq
    cases hq
  have hq : q ≠ [] := by
    rintro rfl
    cases hhead
  have hpos := List.length_pos_of_ne_nil (normalize_ne_nil (p := p) hq)
  rw [normalize_eq] at hpos
  have hle := Newlines.length_rewrite_append_le cr_ne_lf (newline_ne_nil p.usePty CR) b r
  have hsuffix := Newlines.length_rewrite_suffix_le (f := newline p.usePty) cr_ne_lf z r
  simp only [normalize_eq, intercepted, hdata, hx, hwhole, Newlines.rewrite_append hsplit, List.length_append]
  omega

/-- The condition on what two reads make of a stream. -/
def Joins (data x : List UInt8) : Prop :=
  ¬ Brackets.Cuts startSeq endSeq data x ∧ ¬ Newlines.Splits CR LF (intercepted data) (intercepted x)

theorem normalize_of_joins (h : Joins data x) :
    p.normalize (intercepted (data ++ x)) = p.normalize (intercepted data) ++ p.normalize (intercepted x) ∧
      queries (data ++ x) = queries data ++ queries x := by
  obtain ⟨htext, hheld⟩ := Brackets.append_of_not_cuts separators h.1
  constructor
  · rw [normalize_eq, normalize_eq, normalize_eq, ← Newlines.rewrite_append h.2, intercepted, htext]
    rfl
  · exact hheld

/-- Reads that do not join give more than the whole. -/
theorem length_normalize_of_not_joins (h : ¬ Joins data x) :
    (p.normalize (intercepted (data ++ x))).length <
      (p.normalize (intercepted data)).length + (p.normalize (intercepted x)).length := by
  by_cases hcuts : Brackets.Cuts startSeq endSeq data x
  · exact length_normalize_of_cuts hcuts
  · have hsplits : Newlines.Splits CR LF (intercepted data) (intercepted x) := by
      by_contra hns
      exact h ⟨hcuts, hns⟩
    have htext := (Brackets.append_of_not_cuts separators hcuts).1
    rw [normalize_eq, normalize_eq, normalize_eq, intercepted, htext]
    exact Newlines.length_rewrite_of_splits cr_ne_lf (newline_ne_nil p.usePty CR) hsplits

theorem length_normalize_append_le (data x : List UInt8) :
    (p.normalize (intercepted (data ++ x))).length ≤
      (p.normalize (intercepted data)).length + (p.normalize (intercepted x)).length := by
  by_cases h : Joins data x
  · rw [(normalize_of_joins h).1, List.length_append]
  · exact (length_normalize_of_not_joins h).le

theorem length_queries_append_le (data x : List UInt8) :
    (queries data).length + (queries x).length ≤ (queries (data ++ x)).length := by
  by_cases h : Brackets.Cuts startSeq endSeq data x
  · obtain ⟨-, -, -, -, -, -, -, -, hlen⟩ := Brackets.append_of_cuts separators h
    exact hlen
  · have hheld := (Brackets.append_of_not_cuts separators h).2
    simp only [queries, hheld, List.length_append, le_refl]

/-- Data without a query is left as it is. -/
theorem intercepted_of_queries (h : queries x = []) : intercepted x = x :=
  Brackets.text_of_held_nil separators h

/-! ## Responses -/

theorem length_responses_le (payloads : List (List UInt8)) (ok : List Bool) : (responses payloads ok).length ≤ payloads.length := by
  fun_induction responses payloads ok with
  | case1 payload payloads writes ih => simpa using ih
  | case2 payload payloads ok writes hok ih =>
      rw [List.length_cons]
      omega
  | case3 => simp

/-- All queries are answered exactly if all writes succeed. -/
theorem responses_eq_iff (payloads : List (List UInt8)) (ok : List Bool) :
    (responses payloads ok).length = payloads.length ↔ ok.take payloads.length = List.replicate payloads.length true := by
  fun_induction responses payloads ok with
  | case1 payload payloads writes ih => simpa [List.replicate_succ] using ih
  | case2 payload payloads ok writes hok ih =>
      have hle := length_responses_le payloads writes
      simp only [List.length_cons, List.take_succ_cons, List.replicate_succ, List.cons.injEq, hok, false_and, iff_false, Bool.false_eq_true]
      omega
  | case3 payloads ok hne =>
      cases payloads with
      | nil => simp
      | cons payload payloads =>
          cases ok with
          | nil => simp [List.replicate_succ]
          | cons ok writes => exact absurd rfl (hne payload payloads ok writes rfl)

theorem responses_of_taken {payloads : List (List UInt8)} {ok : List Bool}
    (h : ok.take payloads.length = List.replicate payloads.length true) : responses payloads ok = payloads.map response := by
  fun_induction responses payloads ok with
  | case1 payload payloads writes ih =>
      rw [List.map_cons, ih (by simpa [List.replicate_succ] using h)]
  | case2 payload payloads ok writes hok ih => simp [List.replicate_succ, hok] at h
  | case3 payloads ok hne =>
      cases payloads with
      | nil => rfl
      | cons payload payloads =>
          cases ok with
          | nil => simp [List.replicate_succ] at h
          | cons ok writes => exact absurd rfl (hne payload payloads ok writes rfl)

/-! ## What is handed over -/

/-- The streams so far. -/
structure Streams (p : CommandPort) (s : Child) : Prop where
  stream : s.sent ++ s.pending = p.normalize (intercepted s.seen)
  answered : s.answers = (queries s.seen).map response
  input : p.usePty = false → p.normalizeNewlines = true → s.stdin = toLf s.taken

/-- The end of the output. -/
structure Ends (s : Child) : Prop where
  told : ∀ sent, s.told = some sent → sent = s.sent ∧ s.Through
  rested : s.rested = true → s.Through

theorem faithful_iff : s.Faithful p ↔ Streams p s ∧ Ends s :=
  ⟨fun h => ⟨⟨h.stream, h.answered, h.input⟩, ⟨h.told, h.rested⟩⟩,
    fun h => ⟨h.1.stream, h.1.answered, h.2.told, h.2.rested, h.1.input⟩⟩

/-- The output of the port is never shorter than it should be. -/
structure Counts (p : CommandPort) (s : Child) : Prop where
  stream : (p.normalize (intercepted s.seen)).length ≤ (s.sent ++ s.pending).length
  answered : s.answers.length ≤ (queries s.seen).length
  input : p.usePty = false → p.normalizeNewlines = true → (toLf s.taken).length ≤ s.stdin.length

/-- How far the child is. -/
structure Stage (p : CommandPort) (s : Child) : Prop where
  closed : s.monitor ≠ .watching → s.closed = true
  stopped : s.monitor = .reported → s.isRunning = false
  notice : s.notice = true → s.monitor = .reported ∧ s.told = none
  told : ∀ sent, s.told = some sent → s.monitor = .reported ∧ sent.length ≤ s.sent.length
  rested : s.rested = true → s.isOver p = true
  direct : p.usePty = false → s.outputBuffer = [] ∧ s.chunks = []

structure Inv (p : CommandPort) (s : Child) : Prop where
  counts : Counts p s
  stage : Stage p s

theorem inv_spawned (p : CommandPort) : Inv p p.spawned where
  counts := {
    stream := by simp [normalize_eq, Newlines.rewrite, Newlines.joinPairs, CommandPort.spawned, intercepted, Brackets.text, Brackets.cut, Brackets.cutFor]
    answered := by simp [CommandPort.spawned]
    input := fun _ _ => by simp [CommandPort.spawned, toLf, Newlines.rewrite, Newlines.joinPairs] }
  stage := {
    closed := fun h => absurd rfl h
    stopped := fun h => by cases h
    notice := fun h => by cases h
    told := fun sent h => by cases h
    rested := fun h => by cases h
    direct := fun _ => ⟨rfl, rfl⟩ }

theorem streams_spawned (p : CommandPort) : Streams p p.spawned where
  stream := by
    simp [normalize_eq, Newlines.rewrite, Newlines.joinPairs, CommandPort.spawned, Child.pending, intercepted, Brackets.text,
      Brackets.cut, Brackets.cutFor]
  answered := rfl
  input _ _ := rfl

/-- Nothing that was read, answered or typed changes, and the output only moves on. -/
structure Frame (s t : Child) : Prop where
  stream : t.sent ++ t.pending = s.sent ++ s.pending
  seen : t.seen = s.seen
  answers : t.answers = s.answers
  stdin : t.stdin = s.stdin
  taken : t.taken = s.taken

theorem Frame.streams_iff (h : Frame s t) : Streams p t ↔ Streams p s := by
  constructor
  · rintro ⟨hstream, hans, hin⟩
    rw [h.stream, h.seen] at hstream
    rw [h.answers, h.seen] at hans
    rw [h.stdin, h.taken] at hin
    exact ⟨hstream, hans, hin⟩
  · rintro ⟨hstream, hans, hin⟩
    rw [← h.stream, ← h.seen] at hstream
    rw [← h.answers, ← h.seen] at hans
    rw [← h.stdin, ← h.taken] at hin
    exact ⟨hstream, hans, hin⟩

theorem Frame.counts (h : Frame s t) (hs : Counts p s) : Counts p t where
  stream := by
    rw [h.stream, h.seen]
    exact hs.stream
  answered := by
    rw [h.answers, h.seen]
    exact hs.answered
  input := by
    rw [h.stdin, h.taken]
    exact hs.input

theorem frame_emitBuffer (s : Child) : Frame s s.emitBuffer :=
  ⟨by simp [Child.emitBuffer, Child.pending], rfl, rfl, rfl, rfl⟩

theorem frame_drain (s : Child) (looks : ℕ) (clients : Bool) : Frame s (s.drain looks clients) := by
  unfold Child.drain
  split
  · exact ⟨(frame_emitBuffer s).stream, rfl, rfl, rfl, rfl⟩
  · exact ⟨rfl, rfl, rfl, rfl, rfl⟩

/-! ## A chunk from the reader -/

theorem seen_receive (p : CommandPort) (s : Child) (x : List UInt8) (ok : List Bool) : (s.receive p x ok).seen = s.seen ++ x := by
  unfold Child.receive
  split <;> rfl

theorem answers_receive (p : CommandPort) (s : Child) (x : List UInt8) (ok : List Bool) :
    (s.receive p x ok).answers = s.answers ++ responses (queries x) (p.writes ok) := by
  unfold Child.receive
  split <;> rfl

theorem input_receive (p : CommandPort) (s : Child) (x : List UInt8) (ok : List Bool) :
    (s.receive p x ok).stdin = s.stdin ∧ (s.receive p x ok).taken = s.taken := by
  unfold Child.receive
  split <;> exact ⟨rfl, rfl⟩

theorem stream_receive (hs : p.usePty = false → s.outputBuffer = [] ∧ s.chunks = []) (x : List UInt8) (ok : List Bool) :
    (s.receive p x ok).sent ++ (s.receive p x ok).pending = s.sent ++ s.pending ++ p.normalize (intercepted x) := by
  unfold Child.receive
  split
  · simp [Child.pending]
  · rename_i hpty
    obtain ⟨hbuf, hchunks⟩ := hs (by simpa using hpty)
    simp [Child.pending, hbuf, hchunks]

theorem counts_receive (hs : Inv p s) (x : List UInt8) (ok : List Bool) : Counts p (s.receive p x ok) where
  stream := by
    have hle := length_normalize_append_le (p := p) s.seen x
    have hcount := hs.counts.stream
    rw [seen_receive, stream_receive hs.stage.direct, List.length_append]
    omega
  answered := by
    have hle := length_queries_append_le s.seen x
    have hcount := hs.counts.answered
    have hresp := length_responses_le (queries x) (p.writes ok)
    rw [seen_receive, answers_receive, List.length_append]
    omega
  input := by
    rw [(input_receive p s x ok).1, (input_receive p s x ok).2]
    exact hs.counts.input

/-- One chunk is all right exactly if it joins what was read before, and its queries are answered. -/
theorem streams_receive (hs : Inv p s) (x : List UInt8) (ok : List Bool) :
    Streams p (s.receive p x ok) ↔ Streams p s ∧ Joins s.seen x ∧
      (p.writes ok).take (queries x).length = List.replicate (queries x).length true := by
  have hstream := stream_receive hs.stage.direct x ok
  constructor
  · intro h
    have hjoins : Joins s.seen x := by
      by_contra hnot
      have hlt := length_normalize_of_not_joins (p := p) hnot
      have hcount := hs.counts.stream
      have hlen := congrArg List.length h.stream
      rw [hstream, seen_receive, List.length_append] at hlen
      omega
    obtain ⟨hnorm, hqueries⟩ := normalize_of_joins (p := p) hjoins
    have hans := h.answered
    rw [answers_receive, seen_receive, hqueries, List.map_append] at hans
    have hlen := congrArg List.length hans
    have hcount := hs.counts.answered
    have hresp := length_responses_le (queries x) (p.writes ok)
    simp only [List.length_append, List.length_map] at hlen
    have hstr := h.stream
    rw [hstream, seen_receive, hnorm] at hstr
    refine ⟨⟨List.append_cancel_right hstr, (List.append_inj hans (by simp; omega)).1, ?_⟩, hjoins, ?_⟩
    · have hin := h.input
      rwa [(input_receive p s x ok).1, (input_receive p s x ok).2] at hin
    · exact (responses_eq_iff _ _).mp (by omega)
  · rintro ⟨⟨hstr, hans, hin⟩, hjoins, htaken⟩
    obtain ⟨hnorm, hqueries⟩ := normalize_of_joins (p := p) hjoins
    refine ⟨?_, ?_, ?_⟩
    · rw [hstream, seen_receive, hnorm, hstr]
    · rw [answers_receive, seen_receive, hqueries, List.map_append, hans, responses_of_taken htaken]
    · rwa [(input_receive p s x ok).1, (input_receive p s x ok).2]

/-- After the report only a chunk that is read from a pipe is handed over, and it is not empty unless it is a query. -/
theorem grows_of_told {sent : List UInt8} (hs : Inv p s) (hread : s.canRead p = true) (htold : s.told = some sent) (hx : x ≠ [])
    (htaken : (p.writes ok).take (queries x).length = List.replicate (queries x).length true) :
    sent.length < (s.receive p x ok).sent.length := by
  obtain ⟨hrep, hle⟩ := hs.stage.told sent htold
  have hstop := hs.stage.stopped hrep
  have hpty : p.usePty = false := by
    simp only [Child.canRead, hstop, Bool.false_or, Bool.and_eq_true, Bool.not_eq_true'] at hread
    exact hread.2
  have hnone : queries x = [] := by
    have hlen := congrArg List.length htaken
    simp only [CommandPort.writes, hpty, Bool.false_eq_true, if_false, List.take_nil, List.length_nil, List.length_replicate] at hlen
    exact List.length_eq_zero_iff.mp hlen.symm
  have hpos := List.length_pos_of_ne_nil
    (normalize_ne_nil (p := p) hx)
  have hsent : (s.receive p x ok).sent = s.sent ++ p.normalize x := by
    simp [Child.receive, hpty, intercepted_of_queries hnone]
  rw [hsent, List.length_append]
  omega

/-! ## The end of the output -/

/-- What the end of the output is about does not change. -/
structure Still (s t : Child) : Prop where
  told : t.told = s.told
  rested : t.rested = s.rested
  sent : t.sent = s.sent
  unread : t.unread = s.unread
  pending : t.pending = s.pending

theorem Still.ends_iff (h : Still s t) : Ends t ↔ Ends s := by
  have hthrough : t.Through ↔ s.Through := by rw [Child.Through, Child.Through, h.unread, h.pending]
  constructor
  · rintro ⟨htold, hrested⟩
    refine ⟨fun sent hsent => ?_, fun hr => hthrough.mp (hrested (h.rested ▸ hr))⟩
    obtain ⟨hs, ht⟩ := htold sent (h.told ▸ hsent)
    exact ⟨hs.trans h.sent, hthrough.mp ht⟩
  · rintro ⟨htold, hrested⟩
    refine ⟨fun sent hsent => ?_, fun hr => hthrough.mpr (hrested (h.rested ▸ hr))⟩
    obtain ⟨hs, ht⟩ := htold sent (h.told ▸ hsent)
    exact ⟨hs.trans h.sent.symm, hthrough.mpr ht⟩

/-- Before the report there is no end. -/
theorem ends_of_early (hs : Stage p s) (h : s.monitor ≠ .reported) : s.told = none ∧ s.rested = false := by
  constructor
  · cases htold : s.told with
    | none => rfl
    | some sent => exact absurd (hs.told sent htold).1 h
  · cases hr : s.rested with
    | false => rfl
    | true =>
        have hover := hs.rested hr
        simp only [Child.isOver, Bool.and_eq_true, decide_eq_true_eq] at hover
        exact absurd hover.1.1.1.1 h

theorem ends_of_none (htold : s.told = none) (hrested : s.rested = false) : Ends s :=
  ⟨fun _ h => (nomatch htold.symm.trans h), fun h => (nomatch hrested.symm.trans h)⟩

/-- A step is right if what it does to the streams and to the end is. -/
structure StepSpec (p : CommandPort) (s t : Child) (clean : Prop) : Prop where
  inv : Inv p t
  faithful : t.Faithful p ↔ s.Faithful p ∧ clean

theorem StepSpec.of_still (hframe : Frame s t) (hstill : Still s t) (hs : Inv p s) (hstage : Stage p t) :
    StepSpec p s t True where
  inv := ⟨hframe.counts hs.counts, hstage⟩
  faithful := by rw [faithful_iff, faithful_iff, hframe.streams_iff, hstill.ends_iff, and_true]

/-- A step before the report that leaves the streams as they are. -/
theorem StepSpec.of_early (hframe : Frame s t) (htold : t.told = s.told) (hrested : t.rested = s.rested) (hs : Inv p s)
    (hearly : s.told = none ∧ s.rested = false) (hstage : Stage p t) : StepSpec p s t True where
  inv := ⟨hframe.counts hs.counts, hstage⟩
  faithful := by
    have hends := ends_of_none hearly.1 hearly.2
    have hendt := ends_of_none (htold.trans hearly.1) (hrested.trans hearly.2)
    rw [faithful_iff, faithful_iff, hframe.streams_iff, and_true]
    exact and_congr_right fun _ => ⟨fun _ => hends, fun _ => hendt⟩

/-! ## Steps -/

theorem not_rested_of_canRead (hs : Stage p s) (hread : s.canRead p = true) : s.rested = false := by
  cases hr : s.rested with
  | false => rfl
  | true =>
      have hover := hs.rested hr
      simp only [Child.isOver, Bool.and_eq_true, decide_eq_true_eq] at hover
      obtain ⟨⟨⟨⟨hrep, -⟩, -⟩, -⟩, hreader⟩ := hover
      have hstop := hs.stopped hrep
      simp only [Child.canRead, hstop, Bool.false_or, Bool.and_eq_true, Bool.not_eq_true'] at hread
      simp [hread.1, hread.2] at hreader

theorem stage_receive (hs : Stage p s) (hread : s.canRead p = true) (x : List UInt8) (ok : List Bool) :
    Stage p (s.receive p x ok) := by
  have hrested := not_rested_of_canRead hs hread
  unfold Child.receive
  split
  · rename_i hpty
    exact ⟨hs.closed, hs.stopped, hs.notice, hs.told, fun h => (nomatch hrested.symm.trans h), fun h => (nomatch hpty.symm.trans h)⟩
  · refine ⟨hs.closed, hs.stopped, hs.notice, fun sent h => ?_, fun h => (nomatch hrested.symm.trans h), hs.direct⟩
    obtain ⟨hrep, hle⟩ := hs.told sent h
    exact ⟨hrep, hle.trans (List.sublist_append_left _ _).length_le⟩

theorem told_receive (p : CommandPort) (s : Child) (x : List UInt8) (ok : List Bool) :
    (s.receive p x ok).told = s.told ∧ (s.receive p x ok).rested = s.rested := by
  unfold Child.receive
  split <;> exact ⟨rfl, rfl⟩

theorem stepSpec_read {n : ℕ} (hs : Inv p s) (hread : s.canRead p = true) (hne : s.unread ≠ []) (hn : 0 < n) :
    StepSpec p s ({ s with unread := s.unread.drop n }.receive p (s.unread.take n) ok) (Child.Clean p s (.read n ok)) := by
  have hs' : Inv p { s with unread := s.unread.drop n } := ⟨⟨hs.counts.stream, hs.counts.answered, hs.counts.input⟩,
    ⟨hs.stage.closed, hs.stage.stopped, hs.stage.notice, hs.stage.told, hs.stage.rested, hs.stage.direct⟩⟩
  have hstreams := streams_receive hs' (s.unread.take n) ok
  have hsame : Streams p { s with unread := s.unread.drop n } ↔ Streams p s :=
    Frame.streams_iff ⟨rfl, rfl, rfl, rfl, rfl⟩
  rw [hsame] at hstreams
  have hrested := not_rested_of_canRead hs.stage hread
  obtain ⟨ht, hr⟩ := told_receive p { s with unread := s.unread.drop n } (s.unread.take n) ok
  refine ⟨⟨counts_receive hs' _ _, stage_receive hs'.stage hread _ _⟩, ?_⟩
  rw [faithful_iff, faithful_iff, hstreams]
  have hclean : Child.Clean p s (.read n ok) ↔ Joins s.seen (s.unread.take n) ∧
      (p.writes ok).take (queries (s.unread.take n)).length = List.replicate (queries (s.unread.take n)).length true := by
    rw [Joins, and_assoc]
    rfl
  rw [hclean]
  rcases Option.eq_none_or_eq_some s.told with htold | ⟨sent, htold⟩
  · have hends := ends_of_none htold hrested
    have hendt := ends_of_none (ht.trans htold) (hr.trans hrested)
    constructor
    · rintro ⟨⟨hstr, hc⟩, -⟩
      exact ⟨⟨hstr, hends⟩, hc⟩
    · rintro ⟨⟨hstr, -⟩, hc⟩
      exact ⟨⟨hstr, hc⟩, hendt⟩
  · -- a chunk after the notice: it was not all handed over, and more is
    constructor
    · rintro ⟨⟨-, -, htaken⟩, hend⟩
      have hx : s.unread.take n ≠ [] := by
        rw [ne_eq, List.take_eq_nil_iff]
        rintro (h | h)
        · omega
        · exact hne h
      have hgrows := grows_of_told hs' hread htold hx htaken
      have heq := (hend.told sent (ht.trans htold)).1
      exact absurd (congrArg List.length heq) hgrows.ne
    · rintro ⟨⟨-, hend⟩, -⟩
      exact absurd (hend.told sent htold).2.1 hne

theorem stage_report {clients : Bool} (hs : Stage p s) (hearly : s.monitor ≠ .reported) (hclosed : s.closed = true) :
    Stage p (s.report clients) := by
  obtain ⟨htold, hrested⟩ := ends_of_early hs hearly
  exact ⟨fun _ => hclosed, fun _ => rfl, fun _ => ⟨rfl, htold⟩, fun _ h => (nomatch htold.symm.trans h),
    fun h => (nomatch hrested.symm.trans h), hs.direct⟩

theorem stage_emitBuffer (hs : Stage p s) (hrested : s.rested = false) : Stage p s.emitBuffer := by
  refine ⟨hs.closed, hs.stopped, hs.notice, fun sent ht => ?_, fun hr => (nomatch hrested.symm.trans hr),
    fun hd => ⟨rfl, (hs.direct hd).2⟩⟩
  obtain ⟨hrep, hle⟩ := hs.told sent ht
  exact ⟨hrep, hle.trans (List.sublist_append_left _ _).length_le⟩

theorem stage_drain {looks : ℕ} {clients : Bool} (hs : Stage p s) (hearly : s.monitor ≠ .reported) (hclosed : s.closed = true) :
    Stage p (s.drain looks clients) := by
  obtain ⟨htold, hrested⟩ := ends_of_early hs hearly
  unfold Child.drain
  split
  · exact stage_report (stage_emitBuffer hs hrested) hearly hclosed
  · exact ⟨fun _ => hclosed, nofun, fun h => absurd (hs.notice h).1 hearly, fun _ h => (nomatch htold.symm.trans h),
      fun h => (nomatch hrested.symm.trans h), hs.direct⟩

theorem stepSpec_drain {looks : ℕ} {clients : Bool} (hs : Inv p s) (hearly : s.monitor ≠ .reported) (hclosed : s.closed = true) :
    StepSpec p s (s.drain looks clients) True := by
  apply StepSpec.of_early (frame_drain s looks clients) _ _ hs (ends_of_early hs.stage hearly) (stage_drain hs.stage hearly hclosed)
  · unfold Child.drain
    split <;> rfl
  · unfold Child.drain
    split <;> rfl

theorem stage_loopFlusher (hs : Stage p s) (h : s.flusher ≠ .ended) : Stage p s.loopFlusher := by
  refine ⟨hs.closed, hs.stopped, hs.notice, hs.told, fun hr => ?_, hs.direct⟩
  have hover := hs.rested hr
  simp only [Child.isOver, Bool.and_eq_true, decide_eq_true_eq] at hover
  exact absurd hover.1.2 h

theorem stepSpec_loopFlusher (hs : Inv p s) (h : s.flusher ≠ .ended) : StepSpec p s s.loopFlusher True :=
  .of_still ⟨rfl, rfl, rfl, rfl, rfl⟩ ⟨rfl, rfl, rfl, rfl, rfl⟩ hs (stage_loopFlusher hs.stage h)

theorem StepSpec.trans {u : Child} (h : StepSpec p s t True) (h' : StepSpec p t u True) : StepSpec p s u True where
  inv := h'.inv
  faithful := by rw [h'.faithful, h.faithful, and_true]

/-- After the notice nothing may be in the buffer, and a batch takes it too late. -/
theorem stepSpec_emitBuffer (hs : Inv p s) (h : s.flusher ≠ .ended) : StepSpec p s s.emitBuffer True := by
  have hrested : s.rested = false := by
    cases hr : s.rested with
    | false => rfl
    | true =>
        have hover := hs.stage.rested hr
        simp only [Child.isOver, Bool.and_eq_true, decide_eq_true_eq] at hover
        exact absurd hover.1.2 h
  refine ⟨⟨(frame_emitBuffer s).counts hs.counts, stage_emitBuffer hs.stage hrested⟩, ?_⟩
  rw [faithful_iff, faithful_iff, (frame_emitBuffer s).streams_iff, and_true]
  apply and_congr_right
  intro _
  by_cases hbuf : s.outputBuffer = []
  · have hsame : s.emitBuffer = s := by
      rw [Child.emitBuffer, hbuf, List.append_nil, ← hbuf]
    rw [hsame]
  · rcases Option.eq_none_or_eq_some s.told with htold | ⟨sent, htold⟩
    · exact ⟨fun _ => ends_of_none htold hrested, fun _ => ends_of_none htold hrested⟩
    · constructor
      · intro hend
        have hle := (hs.stage.told sent htold).2
        have hlen := congrArg List.length (hend.told sent htold).1
        have hpos := List.length_pos_of_ne_nil hbuf
        simp only [Child.emitBuffer, List.length_append] at hlen
        omega
      · intro hend
        exact absurd (List.append_eq_nil_iff.mp (hend.told sent htold).2.2).1 hbuf

theorem stepSpec_chunk {c : List UInt8} {cs : List (List UInt8)} (hs : Inv p s) (h : s.chunks = c :: cs) :
    StepSpec p s { s with outputBuffer := s.outputBuffer ++ c, chunks := cs } True := by
  have hpending : s.outputBuffer ++ c ++ cs.flatten = s.pending := by simp [Child.pending, h]
  have hframe : Frame s { s with outputBuffer := s.outputBuffer ++ c, chunks := cs } :=
    ⟨congrArg (s.sent ++ ·) hpending, rfl, rfl, rfl, rfl⟩
  apply StepSpec.of_still hframe ⟨rfl, rfl, rfl, rfl, hpending⟩ hs
  refine ⟨hs.stage.closed, hs.stage.stopped, hs.stage.notice, hs.stage.told, fun hr => ?_, fun hd => ?_⟩
  · have hover := hs.stage.rested hr
    simp [Child.isOver, h] at hover
  · have hnil := (hs.stage.direct hd).2
    rw [h] at hnil
    cases hnil

theorem stepSpec_tell (hs : Inv p s) (h : s.notice = true) :
    StepSpec p s { s with notice := false, told := some s.sent } s.Through := by
  obtain ⟨hrep, htold⟩ := hs.stage.notice h
  have hrested : s.rested = false := by
    cases hr : s.rested with
    | false => rfl
    | true =>
        have hover := hs.stage.rested hr
        simp [Child.isOver, h] at hover
  have hframe : Frame s { s with notice := false, told := some s.sent } := ⟨rfl, rfl, rfl, rfl, rfl⟩
  have hstage : Stage p { s with notice := false, told := some s.sent } := by
    refine ⟨hs.stage.closed, hs.stage.stopped, nofun, fun sent hsent => ?_, fun hr => (nomatch hrested.symm.trans hr), hs.stage.direct⟩
    cases hsent
    exact ⟨hrep, le_rfl⟩
  refine ⟨⟨hframe.counts hs.counts, hstage⟩, ?_⟩
  rw [faithful_iff, faithful_iff, hframe.streams_iff]
  constructor
  · rintro ⟨hstr, hend⟩
    exact ⟨⟨hstr, ends_of_none htold hrested⟩, (hend.told s.sent rfl).2⟩
  · rintro ⟨⟨hstr, -⟩, hthrough⟩
    refine ⟨hstr, fun sent hsent => ?_, fun hr => (nomatch hrested.symm.trans hr)⟩
    cases hsent
    exact ⟨rfl, hthrough⟩

theorem stepSpec_rest (hs : Inv p s) (h : s.isOver p = true) : StepSpec p s { s with rested := true } s.Through := by
  have hframe : Frame s { s with rested := true } := ⟨rfl, rfl, rfl, rfl, rfl⟩
  have hstage : Stage p { s with rested := true } :=
    ⟨hs.stage.closed, hs.stage.stopped, hs.stage.notice, hs.stage.told, fun _ => h, hs.stage.direct⟩
  refine ⟨⟨hframe.counts hs.counts, hstage⟩, ?_⟩
  rw [faithful_iff, faithful_iff, hframe.streams_iff]
  constructor
  · rintro ⟨hstr, hend⟩
    have hthrough : s.Through := hend.rested rfl
    exact ⟨⟨hstr, hend.told, fun _ => hthrough⟩, hthrough⟩
  · rintro ⟨⟨hstr, hend⟩, hthrough⟩
    exact ⟨hstr, hend.told, fun _ => hthrough⟩

/-- A batch of input is all right exactly if no pair lies between it and the batches before. -/
theorem stepSpec_flush (hs : Inv p s) :
    StepSpec p s { s with stdin := s.stdin ++ p.normalizeInput s.writeBuffer, taken := s.taken ++ s.writeBuffer, writeBuffer := [] }
      (Child.Clean p s .flush) := by
  have hclean : Child.Clean p s .flush ↔
      (p.usePty = false → p.normalizeNewlines = true → ¬ Newlines.Splits CR LF s.taken s.writeBuffer) := Iff.rfl
  have hinput : p.usePty = false → p.normalizeNewlines = true → p.normalizeInput s.writeBuffer = toLf s.writeBuffer :=
    fun hp hn => by simp [CommandPort.normalizeInput, hp, hn]
  refine ⟨⟨⟨hs.counts.stream, hs.counts.answered, fun hp hn => ?_⟩,
    ⟨hs.stage.closed, hs.stage.stopped, hs.stage.notice, hs.stage.told, hs.stage.rested, hs.stage.direct⟩⟩, ?_⟩
  · have hle := Newlines.length_rewrite_append_le cr_ne_lf (newline_ne_nil false CR) s.taken s.writeBuffer
    have hcount := hs.counts.input hp hn
    simp only [toLf_eq] at hcount hinput ⊢
    rw [hinput hp hn, List.length_append]
    omega
  · rw [hclean]
    constructor
    · intro h
      have hboth : ∀ (_ : p.usePty = false) (_ : p.normalizeNewlines = true),
          s.stdin = toLf s.taken ∧ ¬ Newlines.Splits CR LF s.taken s.writeBuffer := by
        intro hp hn
        have hin : s.stdin ++ p.normalizeInput s.writeBuffer = toLf (s.taken ++ s.writeBuffer) := h.input hp hn
        have hcount := hs.counts.input hp hn
        rw [hinput hp hn] at hin
        have hsplit : ¬ Newlines.Splits CR LF s.taken s.writeBuffer := by
          intro hsplits
          have hlt := Newlines.length_rewrite_of_splits cr_ne_lf (newline_ne_nil false CR) hsplits
          have hlen := congrArg List.length hin
          simp only [toLf_eq, List.length_append] at hlen hcount
          omega
        rw [toLf_eq (s.taken ++ _), Newlines.rewrite_append hsplit] at hin
        exact ⟨List.append_cancel_right hin, hsplit⟩
      exact ⟨⟨h.stream, h.answered, h.told, h.rested, fun hp hn => (hboth hp hn).1⟩, fun hp hn => (hboth hp hn).2⟩
    · rintro ⟨h, hc⟩
      refine ⟨h.stream, h.answered, h.told, h.rested, fun hp hn => ?_⟩
      show s.stdin ++ p.normalizeInput s.writeBuffer = toLf (s.taken ++ s.writeBuffer)
      rw [hinput hp hn, h.input hp hn, toLf_eq, toLf_eq, toLf_eq, Newlines.rewrite_append (hc hp hn)]

/-- What only reads, closes or types leaves the output as it is. -/
theorem Stage.of_eq (hs : Stage p s) (hmon : t.monitor = s.monitor) (hclosed : s.closed = true → t.closed = true)
    (hrun : t.isRunning = s.isRunning) (hnotice : t.notice = s.notice) (htold : t.told = s.told) (hsent : t.sent = s.sent)
    (hrested : t.rested = true → t.isOver p = true) (hdirect : t.outputBuffer = s.outputBuffer ∧ t.chunks = s.chunks) : Stage p t where
  closed h := hclosed (hs.closed (hmon ▸ h))
  stopped h := hrun ▸ hs.stopped (hmon ▸ h)
  notice h := by
    rw [hmon, htold]
    exact hs.notice (hnotice ▸ h)
  told sent h := by
    rw [hmon, hsent]
    exact hs.told sent (htold ▸ h)
  rested := hrested
  direct h := by
    rw [hdirect.1, hdirect.2]
    exact hs.direct h

/-- Any step keeps the invariant, and keeps the streams right exactly if it is clean. -/
theorem stepSpec (a : ChildAct) (hs : Inv p s) (h : s.step p a = some t) : StepSpec p s t (Child.Clean p s a) := by
  cases a with
  | write bs =>
      simp only [Child.step] at h
      split at h
      · cases h
      · rename_i hopen
        cases h
        have hmon : s.monitor ≠ .reported := fun hm => hopen (hs.stage.closed (by rw [hm]; exact nofun))
        exact .of_early ⟨rfl, rfl, rfl, rfl, rfl⟩ rfl rfl hs (ends_of_early hs.stage hmon)
          (hs.stage.of_eq rfl id rfl rfl rfl rfl hs.stage.rested ⟨rfl, rfl⟩)
  | close =>
      cases h
      exact .of_still ⟨rfl, rfl, rfl, rfl, rfl⟩ ⟨rfl, rfl, rfl, rfl, rfl⟩ hs
        (hs.stage.of_eq rfl (fun _ => rfl) rfl rfl rfl rfl hs.stage.rested ⟨rfl, rfl⟩)
  | read n ok =>
      simp only [Child.step] at h
      split at h
      · rename_i hcan
        cases h
        simp only [Bool.and_eq_true, decide_eq_true_eq] at hcan
        exact stepSpec_read hs hcan.1.1.1 hcan.1.1.2 hcan.1.2
      · cases h
  | eof =>
      simp only [Child.step] at h
      split at h
      · rename_i hcan
        cases h
        simp only [Bool.and_eq_true] at hcan
        have hrested := not_rested_of_canRead hs.stage hcan.1.1
        exact .of_still ⟨rfl, rfl, rfl, rfl, rfl⟩ ⟨rfl, rfl, rfl, rfl, rfl⟩ hs
          (hs.stage.of_eq rfl id rfl rfl rfl rfl (fun hr => (nomatch hrested.symm.trans hr)) ⟨rfl, rfl⟩)
      · cases h
  | chunk =>
      simp only [Child.step] at h
      split at h
      · cases h
      · rename_i c cs hchunks
        cases h
        exact stepSpec_chunk hs hchunks
  | batch due =>
      simp only [Child.step] at h
      split at h
      · rename_i hfl
        cases h
        exact stepSpec_loopFlusher hs (by rw [hfl]; exact nofun)
      · rename_i hfl
        have hne : s.flusher ≠ .ended := by
          rw [hfl]
          exact nofun
        cases h
        split
        · have hemit := stepSpec_emitBuffer hs hne
          exact hemit.trans (stepSpec_loopFlusher hemit.inv hne)
        · exact stepSpec_loopFlusher hs hne
      · cases h
  | exit clients =>
      simp only [Child.step] at h
      split at h
      · rename_i hmon
        cases h
        have hmark : StepSpec p s { s with closed := true, processActive := false } True :=
          .of_still ⟨rfl, rfl, rfl, rfl, rfl⟩ ⟨rfl, rfl, rfl, rfl, rfl⟩ hs
            (hs.stage.of_eq rfl (fun _ => rfl) rfl rfl rfl rfl hs.stage.rested ⟨rfl, rfl⟩)
        have hearly : s.monitor ≠ .reported := by
          rw [hmon]
          exact nofun
        exact hmark.trans (stepSpec_drain hmark.inv hearly rfl)
      · cases h
  | look clients =>
      simp only [Child.step] at h
      split at h
      · rename_i hmon
        cases h
        have hne : s.monitor ≠ .watching ∧ s.monitor ≠ .reported := by
          rw [hmon]
          exact ⟨nofun, nofun⟩
        exact .of_early ⟨rfl, rfl, rfl, rfl, rfl⟩ rfl rfl hs (ends_of_early hs.stage hne.2)
          (stage_report hs.stage hne.2 (hs.stage.closed hne.1))
      · rename_i looks hmon
        cases h
        have hne : s.monitor ≠ .watching ∧ s.monitor ≠ .reported := by
          rw [hmon]
          exact ⟨nofun, nofun⟩
        exact stepSpec_drain hs hne.2 (hs.stage.closed hne.1)
      · cases h
  | tell =>
      simp only [Child.step] at h
      split at h
      · rename_i hnotice
        cases h
        exact stepSpec_tell hs hnotice
      · cases h
  | rest =>
      simp only [Child.step] at h
      split at h
      · rename_i hover
        cases h
        exact stepSpec_rest hs hover
      · cases h
  | type bs =>
      simp only [Child.step] at h
      split at h
      · cases h
        exact .of_still ⟨rfl, rfl, rfl, rfl, rfl⟩ ⟨rfl, rfl, rfl, rfl, rfl⟩ hs
          (hs.stage.of_eq rfl id rfl rfl rfl rfl hs.stage.rested ⟨rfl, rfl⟩)
      · cases h
  | flush =>
      simp only [Child.step] at h
      split at h
      · cases h
      · cases h
        exact stepSpec_flush hs

end OpenMux.Command
