import OpenMux.Actions.Viewers

/-!
# The stream of a viewer
-/

namespace OpenMux.Actions

open Py

variable {e : Event} {q es : List Event} {v w : Viewer}

/-! ## The queue -/

theorem upToFinish_eq (h : ∀ e ∈ q, e.isFinished = false) : upToFinish q = q := by
  induction q with
  | nil => rfl
  | cons e q ih => simp_all [upToFinish]

theorem upToFinish_append_of_not (h : ∀ e ∈ q, e.isFinished = false) : upToFinish (q ++ [e]) = upToFinish q ++ [e] := by
  induction q with
  | nil => cases he : e.isFinished <;> simp [upToFinish, he]
  | cons d q ih =>
      obtain ⟨hd, hq⟩ := List.forall_mem_cons.mp h
      simp [upToFinish, hd, ih hq]

theorem upToFinish_append_of_mem {d : Event} (hd : d ∈ q) (hf : d.isFinished = true) : upToFinish (q ++ [e]) = upToFinish q := by
  induction q with
  | nil => cases hd
  | cons c q ih =>
      cases hc : c.isFinished with
      | true => simp [upToFinish, hc]
      | false =>
          have hne : d ≠ c := by
            rintro rfl
            rw [hf] at hc
            cases hc
          simp [upToFinish, hc, ih ((List.mem_cons.mp hd).resolve_left hne)]

theorem mem_of_mem_upToFinish (h : e ∈ upToFinish q) : e ∈ q := by
  induction q with
  | nil => cases h
  | cons d q ih =>
      rw [upToFinish] at h
      split at h
      · rw [List.mem_singleton.mp h]
        exact List.mem_cons_self
      · exact (List.mem_cons.mp h).elim (fun h => h ▸ List.mem_cons_self) fun h => List.mem_cons_of_mem _ (ih h)

/-! ## What the steps do to a viewer -/

/-- What is sent, and what is still to be sent. -/
def Viewer.stream (v : Viewer) : List Event := v.sent ++ v.rest

theorem Viewer.stream_send (h : v.send = some w) : w.stream = v.stream := by
  unfold send at h
  split at h
  · rename_i hh
    cases h
    simp [stream, rest, hh]
  · rename_i e q hh hq
    cases h
    cases he : e.isFinished <;> simp [stream, rest, hh, hq, he, upToFinish]
  · cases h

theorem Viewer.queue_send (h : v.send = some w) :
    w.queue = v.queue ∧ w.sent ++ w.history = v.sent ++ v.history ∨ ∃ e q, v.queue = some (e :: q) ∧ v.history = [] ∧ w.history = [] ∧ w.sent = v.sent ++ [e] ∧
      w.queue = if e.isFinished then none else some q := by
  unfold send at h
  split at h
  · rename_i hh
    cases h
    exact .inl ⟨rfl, by simp [hh]⟩
  · rename_i e q hh hq
    cases h
    exact .inr ⟨e, q, hq, hh, hh, rfl, rfl⟩
  · cases h

/-- A stream whose queue holds the last event comes to its end. -/
theorem Viewer.sends_rest (h : ∀ q, v.queue = some q → ∃ e ∈ q, e.isFinished = true) : ∃ w, v.sends v.rest.length = some w ∧ w.Ended := by
  obtain ⟨history, queue, sent⟩ := v
  induction history generalizing sent with
  | cons e es ih =>
      obtain ⟨w, hw, hended⟩ := ih (sent ++ [e]) h
      exact ⟨w, by simpa [rest, sends, send] using hw, hended⟩
  | nil =>
      cases queue with
      | none => exact ⟨_, rfl, rfl, rfl⟩
      | some q =>
          obtain ⟨d, hd, hf⟩ := h q rfl
          induction q generalizing sent with
          | nil => cases hd
          | cons e q ih =>
              cases he : e.isFinished with
              | true =>
                  refine ⟨⟨[], none, sent ++ [e]⟩, ?_, rfl, rfl⟩
                  simp [rest, upToFinish, he, sends, send]
              | false =>
                  have hmem : d ∈ q := by
                    refine (List.mem_cons.mp hd).resolve_left fun heq => ?_
                    rw [heq, he] at hf
                    cases hf
                  obtain ⟨w, hw, hended⟩ := ih (sent ++ [e]) (fun q' hq' => by cases hq'; exact ⟨d, hmem, hf⟩) hmem
                  exact ⟨w, by simpa [rest, upToFinish, he, sends, send] using hw, hended⟩

theorem Viewer.put_of_room (hq : v.queue = some q) (hroom : q.length < queueSize) : v.put e = { v with queue := some (q ++ [e]) } := by
  simp [put, hq, hroom]

theorem Viewer.put_of_full (hq : v.queue = some q) (hfull : ¬ q.length < queueSize) : v.put e = v := by
  simp [put, hq, hfull]

theorem Viewer.put_of_none (hq : v.queue = none) : v.put e = v := by
  simp [put, hq]

namespace EventRun

variable {s t : EventRun} {a : ViewAct}

/-- An event goes to the end of the queue of a viewer, unless there is none, or it is full, or forgotten. -/
theorem deliver_cases : v.queue = none ∧ s.deliver e v = v ∨
    ∃ q, v.queue = some q ∧ (s.deliver e v = v ∧ (q.length < queueSize → s.phase = .forgotten) ∨
      s.deliver e v = { v with queue := some (q ++ [e]) } ∧ q.length < queueSize ∧ s.phase ≠ .forgotten) := by
  unfold deliver
  cases hq : v.queue with
  | none =>
      apply Or.inl
      rw [Viewer.put_of_none hq, ite_self]
      exact ⟨rfl, rfl⟩
  | some q =>
      refine .inr ⟨q, rfl, ?_⟩
      by_cases hphase : s.phase = .forgotten
      · exact .inl ⟨if_pos hphase, fun _ => hphase⟩
      · rw [if_neg hphase]
        by_cases hroom : q.length < queueSize
        · exact .inr ⟨Viewer.put_of_room hq hroom, hroom, hphase⟩
        · exact .inl ⟨Viewer.put_of_full hq hroom, fun h => absurd h hroom⟩

structure Inv (s : EventRun) : Prop where
  phase_over : (∃ e ∈ s.events, e.isFinished = true) ↔ s.phase.isOver = true
  short : ∀ v, s.viewer = some v → v.stream = s.events ∨ v.stream.length < s.events.length
  live : ∀ v q, s.viewer = some v → v.queue = some q → ∀ e ∈ v.sent ++ v.history, e.isFinished = false
  queued : ∀ v q, s.viewer = some v → v.queue = some q → ∀ e ∈ q, e ∈ s.events

/-- What has to be kept for a stream to be complete. -/
structure Kept (s : EventRun) (v : Viewer) : Prop where
  all : v.stream = s.events
  goesOn : v.queue = none → s.phase.isOver = true
  ends : s.phase.isOver = true → v.stream.getLast?.any (·.isFinished) = true

/-- A stream that has all events of a run that is over ends. -/
theorem complete_iff (hs : s.Inv) (hv : s.viewer = some v) : s.Complete v ↔ s.Kept v := by
  refine ⟨fun h => ⟨h.all, h.goesOn, h.ends⟩, fun h => ⟨h.all, h.goesOn, h.ends, fun hover => Viewer.sends_rest fun q hq => ?_⟩⟩
  obtain ⟨e, he, hfinished⟩ := hs.phase_over.mpr hover
  rw [← h.all, Viewer.stream, Viewer.rest, hq, Option.elim_some, ← List.append_assoc] at he
  rcases List.mem_append.mp he with he | he
  · have hnot := hs.live v q hv hq e he
    rw [hfinished] at hnot
    cases hnot
  · exact ⟨e, mem_of_mem_upToFinish he, hfinished⟩

theorem told_iff (hs : s.Inv) : s.Told ↔ ∀ v, s.viewer = some v → s.Kept v := by
  constructor
  · intro h v hv
    exact (complete_iff hs hv).mp (h v hv)
  · intro h v hv
    exact (complete_iff hs hv).mpr (h v hv)

/-! ## Published events -/

/-- No event of the queue is the last one while the run is not over. -/
theorem Inv.queue_open (hs : s.Inv) (hv : s.viewer = some v) (hq : v.queue = some q) (hover : s.phase.isOver = false) :
    ∀ e ∈ q, e.isFinished = false := by
  intro e he
  by_contra hfinished
  have hphase := hs.phase_over.mp ⟨e, hs.queued v q hv hq e he, by simpa using hfinished⟩
  rw [hover] at hphase
  cases hphase

theorem stream_queue_append (hq : v.queue = some q) (hopen : ∀ e ∈ q, e.isFinished = false) :
    Viewer.stream { v with queue := some (q ++ [e]) } = v.stream ++ [e] := by
  simp [Viewer.stream, Viewer.rest, hq, upToFinish_append_of_not hopen]

theorem stream_queue_append_of_mem {d : Event} (hq : v.queue = some q) (hd : d ∈ q) (hf : d.isFinished = true) :
    Viewer.stream { v with queue := some (q ++ [e]) } = v.stream := by
  simp [Viewer.stream, Viewer.rest, hq, upToFinish_append_of_mem hd hf]

/-- What is published goes to the end of the stream of a viewer, or not into it. -/
theorem stream_deliver : (s.deliver e v).stream = v.stream ++ [e] ∨ (s.deliver e v).stream = v.stream := by
  rcases deliver_cases (s := s) (e := e) (v := v) with ⟨-, hd⟩ | ⟨q, hq, ⟨hd, -⟩ | ⟨hd, -, -⟩⟩
  · exact .inr (congrArg _ hd)
  · exact .inr (congrArg _ hd)
  · rw [hd]
    by_cases hopen : ∀ e ∈ q, e.isFinished = false
    · exact .inl (stream_queue_append hq hopen)
    · push Not at hopen
      obtain ⟨d, hmem, hf⟩ := hopen
      exact .inr (stream_queue_append_of_mem hq hmem (by simpa using hf))

theorem queue_deliver (h : (s.deliver e v).queue = some es) : ∃ q, v.queue = some q ∧ ∀ d ∈ es, d ∈ q ∨ d = e := by
  rcases deliver_cases (s := s) (e := e) (v := v) with ⟨-, hd⟩ | ⟨q, hq, ⟨hd, -⟩ | ⟨hd, -, -⟩⟩
  · rw [hd] at h
    exact ⟨es, h, fun d hd => .inl hd⟩
  · rw [hd] at h
    exact ⟨es, h, fun d hd => .inl hd⟩
  · rw [hd] at h
    cases h
    exact ⟨q, hq, fun d hd => by simpa using hd⟩

theorem sent_deliver : (s.deliver e v).sent ++ (s.deliver e v).history = v.sent ++ v.history := by
  rcases deliver_cases (s := s) (e := e) (v := v) with ⟨-, hd⟩ | ⟨q, hq, ⟨hd, -⟩ | ⟨hd, -, -⟩⟩ <;> rw [hd]

theorem Inv.publish (hs : s.Inv) (phase : RunPhase)
    (hover : (e.isFinished = true ∨ s.phase.isOver = true) ↔ phase.isOver = true) :
    Inv { s.publish e with phase := phase } where
  phase_over := by
    rw [← hover, ← hs.phase_over]
    simp only [EventRun.publish, List.mem_append, List.mem_singleton]
    constructor
    · rintro ⟨d, hd | rfl, hf⟩
      · exact .inr ⟨d, hd, hf⟩
      · exact .inl hf
    · rintro (hf | ⟨d, hd, hf⟩)
      · exact ⟨e, .inr rfl, hf⟩
      · exact ⟨d, .inl hd, hf⟩
  short w hw := by
    obtain ⟨v, hv, rfl⟩ := Option.map_eq_some_iff.mp hw
    simp only [EventRun.publish, List.length_append, List.length_singleton]
    rcases stream_deliver (s := s) (e := e) (v := v) with hd | hd <;> rw [hd] <;> rcases hs.short v hv with h | h
    · exact .inl (by rw [h])
    · apply Or.inr
      rw [List.length_append, List.length_singleton]
      omega
    · apply Or.inr
      rw [h]
      omega
    · apply Or.inr
      omega
  live w q hw hq d hd := by
    obtain ⟨v, hv, rfl⟩ := Option.map_eq_some_iff.mp hw
    obtain ⟨q', hq', -⟩ := queue_deliver hq
    rw [sent_deliver] at hd
    exact hs.live v q' hv hq' d hd
  queued w q hw hq d hd := by
    obtain ⟨v, hv, rfl⟩ := Option.map_eq_some_iff.mp hw
    obtain ⟨q', hq', hmem⟩ := queue_deliver hq
    rcases hmem d hd with hd | rfl
    · exact List.mem_append_left _ (hs.queued v q' hv hq' d hd)
    · exact List.mem_append_right _ (List.mem_singleton_self _)

/-- A stream that does not get an event is not that of the run. -/
theorem Inv.not_all (hs : s.Inv) (hv : s.viewer = some v) : v.stream ≠ s.events ++ [e] := by
  intro h
  have hlen := congrArg List.length h
  rw [List.length_append, List.length_singleton] at hlen
  rcases hs.short v hv with h | h
  · rw [h] at hlen
    omega
  · omega

/-- The stream of a viewer gets an event exactly if it subscribes to the run, its queue has room, and the run is not over. -/
theorem Inv.all_publish (hs : s.Inv) (hv : s.viewer = some v) (hover : s.phase.isOver = false) :
    (s.deliver e v).stream = s.events ++ [e] ↔ v.stream = s.events ∧ ∃ q, v.queue = some q ∧ q.length < queueSize := by
  rcases deliver_cases (s := s) (e := e) (v := v) with ⟨hq, hd⟩ | ⟨q, hq, ⟨hd, hroom⟩ | ⟨hd, hroom, -⟩⟩
  · rw [hd]
    exact iff_of_false (hs.not_all hv) fun h => by simp [hq] at h
  · rw [hd]
    refine iff_of_false (hs.not_all hv) ?_
    rintro ⟨-, q', hq', hlt⟩
    rw [hq] at hq'
    cases hq'
    rw [hroom hlt] at hover
    cases hover
  · rw [hd, stream_queue_append hq (hs.queue_open hv hq hover), List.append_cancel_right_eq]
    exact (and_iff_left ⟨q, hq, hroom⟩).symm

/-- Nothing is kept of what is published once the run is over. -/
theorem Inv.not_kept_of_over (hs : s.Inv) (hv : s.viewer = some v) (he : e.isFinished = false) (hover : s.phase.isOver = true) :
    (s.deliver e v).stream ≠ s.events ++ [e] := by
  intro hall
  obtain ⟨d, hd, hf⟩ := hs.phase_over.mpr hover
  rcases deliver_cases (s := s) (e := e) (v := v) with ⟨hq, hw⟩ | ⟨q, hq, ⟨hw, -⟩ | ⟨hw, -, -⟩⟩
  · rw [hw] at hall
    exact hs.not_all hv hall
  · rw [hw] at hall
    exact hs.not_all hv hall
  · rw [hw] at hall
    by_cases hopen : ∀ e ∈ q, e.isFinished = false
    · rw [stream_queue_append hq hopen, List.append_cancel_right_eq] at hall
      rw [← hall, Viewer.stream, Viewer.rest, hq] at hd
      simp only [Option.elim_some, ← List.append_assoc] at hd
      have hnot : d.isFinished = false := by
        rcases List.mem_append.mp hd with hd | hd
        · exact hs.live v q hv hq d hd
        · exact hopen d (mem_of_mem_upToFinish hd)
      rw [hf] at hnot
      cases hnot
    · push Not at hopen
      obtain ⟨c, hmem, hc⟩ := hopen
      rw [stream_queue_append_of_mem hq hmem (by simpa using hc)] at hall
      exact hs.not_all hv hall

theorem Inv.kept_publish (hs : s.Inv) (hv : s.viewer = some v) (he : e.isFinished = false) :
    (s.publish e).Kept (s.deliver e v) ↔
      s.Kept v ∧ s.phase.isOver = false ∧ ∀ q, v.queue = some q → q.length < queueSize := by
  cases hover : s.phase.isOver with
  | true => exact iff_of_false (fun h => hs.not_kept_of_over hv he hover h.all) fun h => by simp at h
  | false =>
      have hall := hs.all_publish (e := e) hv hover
      constructor
      · intro h
        obtain ⟨hstream, q, hq, hroom⟩ := hall.mp h.all
        refine ⟨⟨hstream, fun hnone => ?_, fun hphase => ?_⟩, rfl, fun q' hq' => ?_⟩
        · rw [hq] at hnone
          cases hnone
        · rw [hover] at hphase
          cases hphase
        · rw [hq] at hq'
          cases hq'
          exact hroom
      · rintro ⟨h, -, hroom⟩
        cases hq : v.queue with
        | none =>
            have hphase := h.goesOn hq
            rw [hover] at hphase
            cases hphase
        | some q =>
            refine ⟨hall.mpr ⟨h.all, q, hq, hroom q hq⟩, fun hnone => ?_, fun hphase => ?_⟩
            · rcases deliver_cases (s := s) (e := e) (v := v) with ⟨hq', -⟩ | ⟨q', -, ⟨hd, -⟩ | ⟨hd, -, -⟩⟩
              · rw [hq] at hq'
                cases hq'
              · rw [hd, hq] at hnone
                cases hnone
              · rw [hd] at hnone
                cases hnone
            · have hphase : s.phase.isOver = true := hphase
              rw [hover] at hphase
              cases hphase

theorem Inv.kept_finish (hs : s.Inv) (hv : s.viewer = some v) (he : e.isFinished = true) (hsettled : s.phase = .settled) :
    Kept { s.publish e with phase := .finished } (s.deliver e v) ↔
      s.Kept v ∧ ∀ q, v.queue = some q → q.length < queueSize := by
  have hover : s.phase.isOver = false := by rw [hsettled]; rfl
  have hall := hs.all_publish (e := e) hv hover
  constructor
  · intro h
    obtain ⟨hstream, q, hq, hroom⟩ := hall.mp h.all
    refine ⟨⟨hstream, fun hnone => ?_, fun hphase => ?_⟩, fun q' hq' => ?_⟩
    · rw [hq] at hnone
      cases hnone
    · rw [hover] at hphase
      cases hphase
    · rw [hq] at hq'
      cases hq'
      exact hroom
  · rintro ⟨h, hroom⟩
    cases hq : v.queue with
    | none =>
        have hphase := h.goesOn hq
        rw [hover] at hphase
        cases hphase
    | some q =>
        have hstream := hall.mpr ⟨h.all, q, hq, hroom q hq⟩
        refine ⟨hstream, fun _ => rfl, fun _ => ?_⟩
        rw [hstream]
        simpa using he

/-! ## Steps -/

theorem Inv.forward (hs : s.Inv) {phase : RunPhase} (h : phase.isOver = s.phase.isOver) : Inv { s with phase := phase } where
  phase_over := by rw [h]; exact hs.phase_over
  short := hs.short
  live := hs.live
  queued := hs.queued

theorem kept_forward {phase : RunPhase} (h : phase.isOver = s.phase.isOver) : Kept { s with phase := phase } v ↔ s.Kept v := by
  constructor
  · intro hk
    exact ⟨hk.all, fun hq => h ▸ hk.goesOn hq, fun hover => hk.ends (h.trans hover)⟩
  · intro hk
    exact ⟨hk.all, fun hq => h.trans (hk.goesOn hq), fun hover => hk.ends (h ▸ hover)⟩

theorem Inv.join (hs : s.Inv) : s.join.Inv where
  phase_over := hs.phase_over
  short v hv := by
    cases hv
    apply Or.inl
    simp only [Viewer.stream, Viewer.rest, List.nil_append]
    split <;> simp [upToFinish, EventRun.join]
  live v q hv hq e he := by
    cases hv
    have hrunning : s.phase = .running := by
      by_contra hne
      rw [if_neg hne] at hq
      cases hq
    by_contra hf
    have hover := hs.phase_over.mp ⟨e, he, by simpa using hf⟩
    rw [hrunning] at hover
    cases hover
  queued v q hv hq e he := by
    cases hv
    simp only at hq
    split at hq
    · cases hq
      cases he
    · cases hq

theorem kept_join : (∀ v, s.join.viewer = some v → s.join.Kept v) ↔
    s.phase = .running ∨ s.phase.isOver = true ∧ s.events.getLast?.any (·.isFinished) = true := by
  have hstream : Viewer.stream { history := s.events, queue := if s.phase = .running then some [] else none } = s.events := by
    simp only [Viewer.stream, Viewer.rest, List.nil_append]
    split <;> simp [upToFinish]
  constructor
  · intro h
    have hk := h _ rfl
    by_cases hrunning : s.phase = .running
    · exact .inl hrunning
    · have hover := hk.goesOn (if_neg hrunning)
      exact .inr ⟨hover, by rw [← hstream]; exact hk.ends hover⟩
  · intro h v hv
    cases hv
    refine ⟨hstream, fun hq => ?_, fun hover => ?_⟩
    · by_cases hrunning : s.phase = .running
      · simp only at hq
        rw [if_pos hrunning] at hq
        cases hq
      · exact (h.resolve_left hrunning).1
    · rw [hstream]
      rcases h with h | h
      · have hover : s.phase.isOver = true := hover
        rw [h] at hover
        cases hover
      · exact h.2

theorem Inv.send (hs : s.Inv) (hv : s.viewer = some v) (h : v.send = some w) : Inv { s with viewer := some w } where
  phase_over := hs.phase_over
  short u hu := by
    cases hu
    rw [Viewer.stream_send h]
    exact hs.short v hv
  live u q hu hq e he := by
    cases hu
    rcases Viewer.queue_send h with ⟨hqueue, hsent⟩ | ⟨d, q', hq', hh, hh', hsent, hqueue⟩
    · rw [hsent] at he
      exact hs.live v q hv (hqueue ▸ hq) e he
    · rw [hqueue] at hq
      rw [hsent, hh', List.append_nil] at he
      split at hq
      · cases hq
      · rename_i hd
        rcases List.mem_append.mp he with he | he
        · exact hs.live v _ hv hq' e (List.mem_append_left _ he)
        · rw [List.mem_singleton.mp he]
          simpa using hd
  queued u q hu hq e he := by
    cases hu
    rcases Viewer.queue_send h with ⟨hqueue, -⟩ | ⟨d, q', hq', -, -, -, hqueue⟩
    · exact hs.queued v q hv (hqueue ▸ hq) e he
    · rw [hqueue] at hq
      split at hq
      · cases hq
      · cases hq
        exact hs.queued v _ hv hq' e (List.mem_cons_of_mem _ he)

theorem Inv.kept_send (hs : s.Inv) (hv : s.viewer = some v) (h : v.send = some w) :
    Kept { s with viewer := some w } w ↔ s.Kept v := by
  have hstream := Viewer.stream_send h
  have hgoesOn : (w.queue = none → s.phase.isOver = true) ↔ (v.queue = none → s.phase.isOver = true) := by
    rcases Viewer.queue_send h with ⟨hqueue, -⟩ | ⟨d, q, hq, -, -, -, hqueue⟩
    · rw [hqueue]
    · rw [hqueue, hq]
      apply iff_of_true
      · intro hnone
        split at hnone
        · rename_i hd
          exact hs.phase_over.mp ⟨d, hs.queued v _ hv hq d List.mem_cons_self, hd⟩
        · cases hnone
      · exact fun hnone => by cases hnone
  constructor
  · intro hk
    exact ⟨hstream ▸ hk.all, hgoesOn.mp hk.goesOn, hstream ▸ hk.ends⟩
  · intro hk
    exact ⟨hstream ▸ hk.all, hgoesOn.mpr hk.goesOn, hstream ▸ hk.ends⟩

theorem told_step (hs : s.Inv) (h : s.step a = some t) : t.Inv ∧ (t.Told ↔ s.Told ∧ s.Clean a) := by
  cases a with
  | publish e =>
      simp only [step] at h
      split at h
      · cases h
      · rename_i he
        have he : e.isFinished = false := by simpa using he
        cases h
        have ht : (s.publish e).Inv := hs.publish s.phase (by simp [he])
        refine ⟨ht, ?_⟩
        rw [told_iff ht, told_iff hs]
        constructor
        · intro hk
          constructor
          · intro v hv
            exact ((hs.kept_publish hv he).mp (hk _ (by rw [EventRun.publish, hv]; rfl))).1
          · intro v hv
            exact ((hs.kept_publish hv he).mp (hk _ (by rw [EventRun.publish, hv]; rfl))).2
        · rintro ⟨hk, hclean⟩ w hw
          obtain ⟨v, hv, rfl⟩ := Option.map_eq_some_iff.mp hw
          exact (hs.kept_publish hv he).mpr ⟨hk v hv, hclean v hv⟩
  | settle =>
      simp only [step, Option.ite_none_right_eq_some, Option.some.injEq] at h
      obtain ⟨hphase, rfl⟩ := h
      have hover : RunPhase.settled.isOver = s.phase.isOver := by rw [hphase]; rfl
      have ht := hs.forward hover
      refine ⟨ht, ?_⟩
      rw [told_iff ht, told_iff hs]
      simp only [kept_forward hover, Clean, and_true]
  | finish status error =>
      simp only [step, Option.ite_none_right_eq_some, Option.some.injEq] at h
      obtain ⟨hphase, rfl⟩ := h
      have he : (Event.actionFinished status error).isFinished = true := rfl
      have ht : Inv { s.publish (.actionFinished status error) with phase := .finished } :=
        hs.publish .finished (by simp [he, RunPhase.isOver])
      refine ⟨ht, ?_⟩
      rw [told_iff ht, told_iff hs]
      constructor
      · intro hk
        constructor
        · intro v hv
          exact ((hs.kept_finish hv he hphase).mp (hk _ (by rw [EventRun.publish, hv]; rfl))).1
        · intro v hv q hq
          exact ((hs.kept_finish hv he hphase).mp (hk _ (by rw [EventRun.publish, hv]; rfl))).2 q hq
      · rintro ⟨hk, hclean⟩ w hw
        obtain ⟨v, hv, rfl⟩ := Option.map_eq_some_iff.mp hw
        exact (hs.kept_finish hv he hphase).mpr ⟨hk v hv, fun q hq => hclean v hv q hq⟩
  | forget =>
      simp only [step, Option.ite_none_right_eq_some, Option.some.injEq] at h
      obtain ⟨hphase, rfl⟩ := h
      have hover : RunPhase.forgotten.isOver = s.phase.isOver := by rw [hphase]; rfl
      have ht := hs.forward hover
      refine ⟨ht, ?_⟩
      rw [told_iff ht, told_iff hs]
      simp only [kept_forward hover, Clean, and_true]
  | join =>
      simp only [step, Option.ite_none_right_eq_some, Option.some.injEq] at h
      obtain ⟨hnone, rfl⟩ := h
      refine ⟨hs.join, ?_⟩
      rw [told_iff hs.join, told_iff hs, kept_join]
      refine (and_iff_right fun v hv => ?_).symm
      rw [Option.isNone_iff_eq_none.mp hnone] at hv
      cases hv
  | send =>
      obtain ⟨v, hv, hsend⟩ := Option.bind_eq_some_iff.mp h
      obtain ⟨w, hw, rfl⟩ := Option.map_eq_some_iff.mp hsend
      have ht := hs.send hv hw
      refine ⟨ht, ?_⟩
      rw [told_iff ht, told_iff hs]
      simp only [hv, Option.some.injEq, forall_eq', hs.kept_send hv hw, Clean, and_true]

theorem inv_start : Inv {} where
  phase_over := by simp [RunPhase.isOver]
  short v hv := by cases hv
  live v q hv := by cases hv
  queued v q hv := by cases hv

end EventRun

end OpenMux.Actions
