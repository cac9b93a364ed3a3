import Mathlib
import OpenMux.Clients.Uplink

/-!
# What a chunk does

A chunk with what is held from before it is a run of whole tokens and a part of the next one. The extraction is followed token
by token, and what it serves is compared with what the tokens mean.
-/

namespace OpenMux.Clients

open Py

variable {requestType : List UInt8 → Option Text} {port : Text}

namespace ClientSession

variable {s : ClientSession} {out data before rest line after body d : List UInt8} {b : UInt8}

/-! ## Extraction -/

theorem extractLoop_none (h : find ctrlMarker data = none) : s.extractLoop requestType out data = (s, out ++ data) := by
  rw [extractLoop]
  split <;> simp_all

theorem extractLoop_part (h : find ctrlMarker data = some (before, rest)) (hn : find [newline] rest = none) :
    s.extractLoop requestType out data =
      if rest.length ≤ ctrlFrameMax then ({ s with ctrlRxFrag := rest }, out ++ before)
      else (s, out ++ before ++ rest) := by
  rw [extractLoop]
  split
  · simp_all
  · rename_i h'
    rw [h] at h'
    cases h'
    split <;> simp_all

theorem extractLoop_line (h : find ctrlMarker data = some (before, rest)) (hn : find [newline] rest = some (line, after)) :
    s.extractLoop requestType out data =
      (s.handleControlFrame requestType (line ++ [newline])).extractLoop requestType (out ++ before) after.tail := by
  rw [extractLoop]
  split
  · simp_all
  · rename_i h'
    rw [h] at h'
    cases h'
    split <;> simp_all

/-- A byte at which no marker begins is port data. -/
theorem extractLoop_key (h : ¬ ctrlMarker <+: b :: d) :
    s.extractLoop requestType out (b :: d) = s.extractLoop requestType (out ++ [b]) d := by
  have hfind := find_cons_of_not h
  cases hd : find ctrlMarker d with
  | none =>
      rw [hd] at hfind
      rw [extractLoop_none hfind, extractLoop_none hd]
      simp
  | some r =>
      obtain ⟨before, rest⟩ := r
      rw [hd] at hfind
      cases hn : find [newline] rest with
      | none =>
          rw [extractLoop_part hfind hn, extractLoop_part hd hn]
          simp
      | some l =>
          obtain ⟨line, after⟩ := l
          rw [extractLoop_line hfind hn, extractLoop_line hd hn]
          simp

theorem newline_not_mem_marker : newline ∉ ctrlMarker := by decide

/-- A whole frame is handled. -/
theorem extractLoop_frame (h : newline ∉ body) :
    s.extractLoop requestType out ((Token.frame body).encode ++ d) =
      (s.handleControlFrame requestType (Token.frame body).encode).extractLoop requestType out d := by
  have hdata : (Token.frame body).encode ++ d = (ctrlMarker ++ body) ++ newline :: d := by simp [Token.encode]
  have hnot : newline ∉ ctrlMarker ++ body := by simp [h, newline_not_mem_marker]
  have hfind : find ctrlMarker ((Token.frame body).encode ++ d) = some ([], (Token.frame body).encode ++ d) :=
    find_of_prefix (by rw [hdata, List.append_assoc]; exact List.prefix_append _ _) (by simp [hdata])
  have hline : find [newline] ((Token.frame body).encode ++ d) = some (ctrlMarker ++ body, newline :: d) := by
    rw [hdata]
    exact find_singleton hnot
  rw [extractLoop_line hfind hline]
  simp [Token.encode]

/-! ## Control frames -/

theorem ctrlParseRequest_encode (h : newline ∉ body) :
    ctrlParseRequest requestType (Token.frame body).encode = requestType body := by
  unfold ctrlParseRequest Token.encode
  rw [List.drop_left, List.takeWhile_append_of_pos]
  · simp
  · intro c hc
    have : c ≠ newline := fun he => h (he ▸ hc)
    simpa using this

/-- A frame is served, and detaches when it asks for it. -/
theorem handleControlFrame_encode (h : newline ∉ body) :
    s.handleControlFrame requestType (Token.frame body).encode =
      if (Token.frame body).detaches requestType then
        ({ s with served := s.served ++ [.control (Token.frame body).encode] } : ClientSession).ctrlDetachReply
      else { s with served := s.served ++ [.control (Token.frame body).encode] } := by
  unfold handleControlFrame
  rw [ctrlParseRequest_encode h]
  unfold Token.detaches
  cases hr : requestType body with
  | none => simp [hr]
  | some t => by_cases ht : t = ['d', 'e', 't', 'a', 'c', 'h'] <;> simp [hr, ctrlDispatch, ht]

end ClientSession

/-! ## Whole tokens -/

namespace Token

variable {t : Token} {ts w r : List Token} {data part : List UInt8} {n held : Nat}

@[simp] theorem encodeAll_nil : encodeAll [] = [] := rfl

@[simp] theorem encodeAll_cons : encodeAll (t :: ts) = t.encode ++ encodeAll ts := rfl

@[simp] theorem encodeAll_append : encodeAll (w ++ r) = encodeAll w ++ encodeAll r := List.flatMap_append

@[simp] theorem detaches_key {b : UInt8} : (key b).detaches requestType = false := rfl

theorem encode_ne_nil : t.encode ≠ [] := by
  cases t <;> simp [encode]

theorem whole_append (ts : List Token) (n : Nat) : (whole ts n).1 ++ (whole ts n).2.1 = ts := by
  induction ts generalizing n with
  | nil => rfl
  | cons t ts ih =>
      rw [whole]
      split
      · simp [ih]
      · simp

/-- Data at the front of a stream is its whole tokens and a proper part of the next. -/
theorem whole_cut (h : data <+: encodeAll ts) : ∃ part, data = encodeAll (whole ts data.length).1 ++ part ∧
    part <+: encodeAll (whole ts data.length).2.1 ∧ part.length = (whole ts data.length).2.2 ∧
    ∀ t ts', (whole ts data.length).2.1 = t :: ts' → part.length < t.encode.length := by
  induction ts generalizing data with
  | nil =>
      have hnil : data = [] := List.prefix_nil.mp h
      subst hnil
      exact ⟨[], rfl, List.prefix_rfl, rfl, fun t ts' ht => by cases ht⟩
  | cons t ts ih =>
      rw [encodeAll_cons] at h
      by_cases hlen : t.encode.length ≤ data.length
      · obtain ⟨d, rfl⟩ : t.encode <+: data :=
          List.prefix_of_prefix_length_le (List.prefix_append _ _) h hlen
        obtain ⟨part, hd, hpart, hheld, hlt⟩ := ih ((List.prefix_append_right_inj _).mp h)
        have hsub : (t.encode ++ d).length - t.encode.length = d.length := by simp
        refine ⟨part, ?_⟩
        rw [whole, if_pos hlen, hsub]
        refine ⟨?_, hpart, hheld, hlt⟩
        rw [encodeAll_cons, List.append_assoc, ← hd]
      · refine ⟨data, ?_⟩
        rw [whole, if_neg hlen]
        refine ⟨rfl, h, rfl, fun t' ts' ht => ?_⟩
        cases ht
        omega

theorem WellFormed.right (h : WellFormed (w ++ r)) : WellFormed r := by
  induction w with
  | nil => exact h
  | cons t w ih => cases t <;> exact ih h.2

/-- A part of the next token that is not empty is the front of a frame. -/
theorem part_of_frame (hr : WellFormed r) (h : part <+: encodeAll r) (hne : part ≠ [])
    (hlt : ∀ t ts', r = t :: ts' → part.length < t.encode.length) :
    newline ∉ part ∧ (ctrlMarker.length ≤ part.length → ctrlMarker <+: part) ∧ ∃ body ts', r = frame body :: ts' := by
  cases r with
  | nil => exact absurd (List.prefix_nil.mp h) hne
  | cons t ts =>
      have hlen := hlt t ts rfl
      cases t with
      | key b =>
          simp [encode] at hlen
          exact absurd hlen hne
      | frame body =>
          have hfront : part <+: ctrlMarker ++ body := by
            refine List.prefix_of_prefix_length_le h ?_ ?_
            · simp [encode]
            · simp [encode] at hlen
              simp
              omega
          refine ⟨fun hmem => ?_, fun hm => ?_, body, ts, rfl⟩
          · have := hfront.subset hmem
            simp [hr.1, ClientSession.newline_not_mem_marker] at this
          · exact List.prefix_of_prefix_length_le (List.prefix_append _ _) hfront hm

/-! ## What is written and what is handled -/

/-- The frames among the tokens, as they are handled. -/
def controls (w : List Token) : List Served := (w.filter isFrame).map fun t => .control t.encode

/-- The keystrokes among the tokens. -/
def keys (w : List Token) : List UInt8 := (w.filter fun t => !t.isFrame).flatMap encode

@[simp] theorem controls_nil : controls [] = [] := rfl

@[simp] theorem keys_nil : keys [] = [] := rfl

@[simp] theorem serve_key {b : UInt8} : (key b).serve port = .byte port b := rfl

@[simp] theorem serve_frame {body : List UInt8} : (frame body).serve port = .control (frame body).encode := rfl

@[simp] theorem controls_key {b : UInt8} : controls (key b :: w) = controls w := rfl

@[simp] theorem controls_frame {body : List UInt8} :
    controls (frame body :: w) = .control (frame body).encode :: controls w := rfl

@[simp] theorem keys_key {b : UInt8} : keys (key b :: w) = b :: keys w := rfl

@[simp] theorem keys_frame {body : List UInt8} : keys (frame body :: w) = keys w := rfl

end Token

namespace ClientSession

open Token

variable {s : ClientSession} {out part : List UInt8} {w r : List Token}

/-- Some token asks for a detach. -/
abbrev detachesAny (requestType : List UInt8 → Option Text) (w : List Token) : Bool := w.any (·.detaches requestType)

/-- The session after the frames among the tokens. -/
def handled (requestType : List UInt8 → Option Text) (s : ClientSession) : List Token → ClientSession
  | [] => s
  | .key _ :: w => s.handled requestType w
  | .frame body :: w => (s.handleControlFrame requestType (Token.frame body).encode).handled requestType w

theorem extractLoop_whole (hw : WellFormed (w ++ r)) (hpart : part <+: encodeAll r) :
    s.extractLoop requestType out (encodeAll w ++ part) =
      (s.handled requestType w).extractLoop requestType (out ++ keys w) part := by
  induction w generalizing s out with
  | nil => simp [handled]
  | cons t w ih =>
      cases t with
      | key b =>
          have hno : ¬ ctrlMarker <+: b :: (encodeAll w ++ part) := fun h =>
            hw.1 (h.trans (by simpa using hpart))
          rw [encodeAll_cons, List.append_assoc]
          show s.extractLoop requestType out (b :: (encodeAll w ++ part)) = _
          rw [extractLoop_key hno, ih hw.2]
          simp [handled]
      | frame body =>
          rw [encodeAll_cons, List.append_assoc, extractLoop_frame hw.1, ih hw.2]
          simp [handled]

theorem served_ctrlDetachReply : s.ctrlDetachReply = { s with
    connectedPort := none
    detachRequested := s.detachRequested || s.connectedPort.isSome } := by
  unfold ctrlDetachReply
  cases hp : s.connectedPort with
  | none => cases s; simp_all
  | some p => simp

/-- Frames are served in order, and the first detach among them takes the port away. -/
theorem handled_eq (hw : WellFormed (w ++ r)) : s.handled requestType w = { s with
    connectedPort := if detachesAny requestType w then none else s.connectedPort
    detachRequested := s.detachRequested || (s.connectedPort.isSome && detachesAny requestType w)
    served := s.served ++ controls w } := by
  induction w generalizing s with
  | nil => simp [handled]
  | cons t w ih =>
      cases t with
      | key b =>
          rw [handled, ih hw.2]
          simp
      | frame body =>
          rw [handled, ih hw.2, handleControlFrame_encode hw.1]
          by_cases hd : (Token.frame body).detaches requestType = true
          · simp [hd, served_ctrlDetachReply]
          · simp [hd]

/-- What happens to a part of a frame. -/
theorem extractLoop_end (requestType : List UInt8 → Option Text) (out : List UInt8) (hr : WellFormed r) (hpart : part <+: encodeAll r)
    (hlt : ∀ t ts', r = t :: ts' → part.length < t.encode.length) (hs : s.ctrlRxFrag = []) :
    (CutWell part.length → s.extractLoop requestType out part = ({ s with ctrlRxFrag := part }, out)) ∧
      (¬ CutWell part.length → s.extractLoop requestType out part = (s, out ++ part)) := by
  by_cases hne : part = []
  · subst hne
    refine ⟨fun _ => ?_, fun h => absurd (.inl rfl) h⟩
    rw [extractLoop_none rfl, List.append_nil, ← hs]
  · obtain ⟨hnl, hmark, -⟩ := part_of_frame hr hpart hne hlt
    by_cases hlen : ctrlMarker.length ≤ part.length
    · have hfind := find_of_prefix (hmark hlen) hne
      have hn := find_singleton_none hnl
      rw [extractLoop_part hfind hn]
      by_cases hmax : part.length ≤ ctrlFrameMax
      · simp [hmax, CutWell, hlen]
      · simp [hmax, CutWell, hlen, hne]
    · have hlen' : part.length < ctrlMarker.length := by omega
      rw [extractLoop_none (find_of_short hlen')]
      refine ⟨fun h => ?_, fun _ => rfl⟩
      rcases h with h | h
      · exact absurd (List.length_eq_zero_iff.mp h) hne
      · omega

@[simp] theorem writeToPort_nil : s.writeToPort [] = s := by
  unfold writeToPort
  split <;> simp

/-- A chunk is always run through the extraction. -/
theorem forwardBytesToPort_eq {c : List UInt8} (hs : s.connectedPort = some port) :
    s.forwardBytesToPort requestType c =
      (s.extractControlFrames requestType c).1.writeToPort (s.extractControlFrames requestType c).2 := by
  unfold forwardBytesToPort
  rw [if_neg (by simp [hs])]
  split
  · dsimp only
    split
    · rename_i hnil
      rw [hnil, writeToPort_nil]
    · rfl
  · rename_i hno
    simp only [not_or, Bool.not_eq_true, Option.isSome_eq_false_iff, Option.isNone_iff_eq_none, not_not] at hno
    have hself : ({ s with ctrlRxFrag := [] } : ClientSession) = s := by
      rw [← hno.2]
    simp only [extractControlFrames, hno.2, List.nil_append, extractLoop_none hno.1, hself]

/-- What a chunk with what is held does to an attached session. -/
theorem forwardBytesToPort_spec (requestType : List UInt8 → Option Text) {c : List UInt8} (hs : s.connectedPort = some port) (hw : WellFormed (w ++ r))
    (hdata : s.ctrlRxFrag ++ c = encodeAll w ++ part) (hpart : part <+: encodeAll r)
    (hlt : ∀ t ts', r = t :: ts' → part.length < t.encode.length) :
    ∃ leak, (CutWell part.length → leak = []) ∧ (¬ CutWell part.length → leak = part) ∧
      s.forwardBytesToPort requestType c = { s with
        connectedPort := if detachesAny requestType w then none else some port
        detachRequested := s.detachRequested || detachesAny requestType w
        ctrlRxFrag := part.drop leak.length
        served := s.served ++ (controls w ++
          if detachesAny requestType w then [] else (keys w ++ leak).map (.byte port)) } := by
  have hextract : s.extractControlFrames requestType c =
      (({ s with ctrlRxFrag := [] } : ClientSession).handled requestType w).extractLoop requestType (keys w) part := by
    unfold extractControlFrames
    rw [hdata, extractLoop_whole hw hpart]
    rfl
  have hend := extractLoop_end requestType (keys w)
    (s := ({ s with ctrlRxFrag := [] } : ClientSession).handled requestType w) hw.right hpart hlt
    (by rw [handled_eq hw])
  rw [forwardBytesToPort_eq hs, hextract]
  by_cases hcut : CutWell part.length
  · refine ⟨[], fun _ => rfl, fun h => absurd hcut h, ?_⟩
    rw [hend.1 hcut, handled_eq hw]
    by_cases hd : detachesAny requestType w = true <;> simp [writeToPort, hd, hs]
  · refine ⟨part, fun h => absurd h hcut, fun _ => rfl, ?_⟩
    rw [hend.2 hcut, handled_eq hw]
    by_cases hd : detachesAny requestType w = true <;> simp [writeToPort, hd, hs]

end ClientSession

/-! ## Tidy chunks -/

namespace Token

variable {t : Token} {ts w r : List Token} {part : List UInt8} {n held : Nat}

/-- What a chunk of whole tokens and a part serves. -/
def served (requestType : List UInt8 → Option Text) (port : Text) (w : List Token) (leak : List UInt8) : List Served :=
  controls w ++ if w.any (·.detaches requestType) then [] else (keys w ++ leak).map (.byte port)

theorem keys_of_no_frame (requestType : List UInt8 → Option Text) (port : Text) (h : ∀ t ∈ w, ¬ t.isFrame) : controls w = [] ∧ (w.any (·.detaches requestType)) = false ∧
    ∀ r, (meaning requestType port (w ++ r)) =
      ((keys w).map (.byte port) ++ (meaning requestType port r).1, (meaning requestType port r).2) := by
  induction w with
  | nil => simp
  | cons t w ih =>
      obtain ⟨hc, hd, hm⟩ := ih fun t ht => h t (List.mem_cons_of_mem _ ht)
      cases t with
      | key b => simp [hc, hd, hm, meaning]
      | frame body => exact absurd rfl (h _ List.mem_cons_self)

/-- A tidy chunk without a detach serves what its tokens mean. -/
theorem served_tidy (port : Text) (h : Tidy requestType w held) (hd : ∀ t ∈ w, ¬ t.detaches requestType) (r : List Token) :
    meaning requestType port (w ++ r) =
      (served requestType port w [] ++ (meaning requestType port r).1, (meaning requestType port r).2) := by
  induction w with
  | nil => simp [served]
  | cons t w ih =>
      cases t with
      | key b =>
          obtain ⟨hc, hdet, hm⟩ := keys_of_no_frame requestType port h.1
          simp [meaning, served, hc, hdet, hm]
      | frame body =>
          have hno : (frame body).detaches requestType = false := by simpa using hd _ List.mem_cons_self
          have htidy : Tidy requestType w held := by simpa [Tidy, hno] using h
          have hrest := ih htidy fun t ht => hd t (List.mem_cons_of_mem _ ht)
          simp [meaning, served, hno, hrest]

theorem Tidy.cutWell (h : Tidy requestType w held) (hd : ∀ t ∈ w, ¬ t.detaches requestType) : CutWell held := by
  induction w with
  | nil => exact h
  | cons t w ih =>
      cases t with
      | key b => exact h.2
      | frame body =>
          have hno : (frame body).detaches requestType = false := by simpa using hd _ List.mem_cons_self
          exact ih (by simpa [Tidy, hno] using h) fun t ht => hd t (List.mem_cons_of_mem _ ht)

/-- A tidy chunk with a detach ends with it. -/
theorem served_detach (port : Text) (h : Tidy requestType w held) (hd : w.any (·.detaches requestType)) (r : List Token) :
    held = 0 ∧ meaning requestType port (w ++ r) = (served requestType port w [], some (encodeAll r)) := by
  induction w with
  | nil => simp at hd
  | cons t w ih =>
      cases t with
      | key b =>
          obtain ⟨-, hdet, -⟩ := keys_of_no_frame requestType port h.1
          simp [hdet] at hd
      | frame body =>
          by_cases hdet : (frame body).detaches requestType = true
          · simp only [Tidy, hdet, if_true] at h
            obtain ⟨rfl, rfl⟩ := h
            simp [meaning, served, hdet]
          · have htidy : Tidy requestType w held := by simpa [Tidy, hdet] using h
            obtain ⟨hheld, hrest⟩ := ih htidy (by simpa [hdet] using hd)
            simp only [Bool.not_eq_true] at hdet
            refine ⟨hheld, ?_⟩
            simp only [List.any_eq_true] at hd
            simp [meaning, served, hdet, hrest]

theorem encodeAll_eq_nil (h : encodeAll w = []) : w = [] := by
  cases w with
  | nil => rfl
  | cons t w => exact absurd (List.append_eq_nil_iff.mp h).1 encode_ne_nil

theorem controls_of_frame (h : ¬ ∀ t ∈ w, ¬ t.isFrame) : ∃ f rest, controls w = .control f :: rest := by
  cases hc : controls w with
  | nil =>
      refine absurd (fun t ht hf => ?_) h
      have hmem : t ∈ w.filter isFrame := List.mem_filter.mpr ⟨ht, hf⟩
      rw [List.map_eq_nil_iff.mp hc] at hmem
      cases hmem
  | cons c rest =>
      obtain ⟨t, -, rfl⟩ := List.mem_map.mp (hc ▸ List.mem_cons_self : c ∈ controls w)
      exact ⟨_, _, rfl⟩

/-- A chunk that is not tidy serves something else, or hands over too little. -/
theorem served_untidy (port : Text) {leak : List UInt8} (h : ¬ Tidy requestType w part.length) (hr : WellFormed r)
    (hpart : part <+: encodeAll r) (hlt : ∀ t ts', r = t :: ts' → part.length < t.encode.length)
    (hleak : ¬ CutWell part.length → leak = part) :
    (∀ more, served requestType port w leak ++ more ≠ (meaning requestType port (w ++ r)).1) ∨
      (w.any (·.detaches requestType) ∧ ∀ d, part ++ d = encodeAll r → (meaning requestType port (w ++ r)).2 ≠ some d) := by
  have hbad : ¬ CutWell part.length → ∀ more, part.map (Served.byte port) ++ more ≠ (meaning requestType port r).1 := by
    intro hcut more
    have hne : part ≠ [] := fun h => hcut (.inl (by simp [h]))
    obtain ⟨-, -, body, ts', rfl⟩ := part_of_frame hr hpart hne hlt
    obtain ⟨b, part, rfl⟩ := List.exists_cons_of_ne_nil hne
    rw [meaning]
    split <;> simp
  induction w with
  | nil =>
      refine .inl ?_
      simpa [served, hleak h] using hbad h
  | cons t w ih =>
      cases t with
      | key b =>
          refine .inl ?_
          by_cases hf : ∀ t ∈ w, ¬ t.isFrame
          · have hcut : ¬ CutWell part.length := fun hc => h ⟨hf, hc⟩
            obtain ⟨hc, hdet, hm⟩ := keys_of_no_frame requestType port hf
            simpa [served, meaning, hc, hdet, hm, hleak hcut] using hbad hcut
          · -- A frame is handled first, and a keystroke was meant to be.
            intro more
            obtain ⟨f, rest, hfr⟩ := controls_of_frame hf
            simp [served, meaning, hfr]
      | frame body =>
          by_cases hdet : (frame body).detaches requestType = true
          · refine .inr ⟨by simp [hdet], fun d hd => ?_⟩
            simp only [Tidy, hdet, if_true, not_and] at h
            simp only [List.cons_append, meaning, hdet, if_true, encodeAll_append, ← hd]
            intro he
            have hlen := congrArg List.length (Option.some.inj he)
            simp only [List.length_append] at hlen
            have hw : w = [] := by
              refine encodeAll_eq_nil (List.length_eq_zero_iff.mp ?_)
              omega
            exact h hw (by omega)
          · have htidy : ¬ Tidy requestType w part.length := by simpa [Tidy, hdet] using h
            simp only [Bool.not_eq_true] at hdet
            rcases ih htidy with hserved | ⟨hd, hrest⟩
            · refine .inl fun more => ?_
              simpa [served, meaning, hdet] using hserved more
            · refine .inr ⟨by simp [hdet, hd], fun d hd => ?_⟩
              simpa [meaning, hdet] using hrest d hd

end Token

/-! ## The whole stream -/

namespace ClientSession

open Token

variable {s : ClientSession} {ts : List Token}

theorem handleControlFrame_mono (requestType : List UInt8 → Option Text) (data : List UInt8) :
    ∃ more, (s.handleControlFrame requestType data).served = s.served ++ more := by
  refine ⟨[.control data], ?_⟩
  unfold handleControlFrame
  dsimp only
  split
  · rfl
  · unfold ctrlDispatch
    split
    · rw [served_ctrlDetachReply]
    · rfl

theorem extractLoop_mono (requestType : List UInt8 → Option Text) (out data : List UInt8) :
    ∃ more, (s.extractLoop requestType out data).1.served = s.served ++ more := by
  induction s, out, data using extractLoop.induct requestType with
  | case1 s out data h => exact ⟨[], by rw [extractLoop_none h, List.append_nil]⟩
  | case2 s out data before rest h hn hle => exact ⟨[], by rw [extractLoop_part h hn, if_pos hle, List.append_nil]⟩
  | case3 s out data before rest h hn hle => exact ⟨[], by rw [extractLoop_part h hn, if_neg hle, List.append_nil]⟩
  | case4 s out data before rest h line after hn hlt ih =>
      obtain ⟨more, hm⟩ := handleControlFrame_mono requestType (line ++ [newline])
      obtain ⟨more', hm'⟩ := ih
      exact ⟨more ++ more', by rw [extractLoop_line h hn, hm', hm, List.append_assoc]⟩

theorem writeToPort_mono (data : List UInt8) : ∃ more, (s.writeToPort data).served = s.served ++ more := by
  unfold writeToPort
  split
  · exact ⟨_, rfl⟩
  · exact ⟨[], (List.append_nil _).symm⟩

theorem forwardBytesToPort_mono (requestType : List UInt8 → Option Text) (c : List UInt8) :
    ∃ more, (s.forwardBytesToPort requestType c).served = s.served ++ more := by
  cases hp : s.connectedPort with
  | none => exact ⟨[], by simp [forwardBytesToPort, hp]⟩
  | some port =>
      rw [forwardBytesToPort_eq hp]
      obtain ⟨more, hm⟩ := writeToPort_mono (s := (s.extractControlFrames requestType c).1) (s.extractControlFrames requestType c).2
      obtain ⟨more', hm'⟩ := extractLoop_mono requestType (s := { s with ctrlRxFrag := [] }) [] (s.ctrlRxFrag ++ c)
      exact ⟨more' ++ more, by rw [hm, ← List.append_assoc]; exact congrArg (· ++ more) hm'⟩

/-- What was served stays served. -/
theorem handleCharacterMode_mono (requestType : List UInt8 → Option Text) (cs : List (List UInt8)) :
    ∃ more, (s.handleCharacterMode requestType cs).1.served = s.served ++ more := by
  induction cs generalizing s with
  | nil =>
      refine ⟨[], ?_⟩
      unfold handleCharacterMode
      split <;> simp
  | cons c cs ih =>
      rw [handleCharacterMode]
      split
      · obtain ⟨more, hm⟩ := forwardBytesToPort_mono requestType c
        obtain ⟨more', hm'⟩ := ih (s := s.forwardBytesToPort requestType c)
        exact ⟨more ++ more', by rw [hm', hm, List.append_assoc]⟩
      · exact ⟨[], (List.append_nil _).symm⟩

theorem handleCharacterMode_stop (cs : List (List UInt8)) (hp : s.connectedPort = none) :
    s.handleCharacterMode requestType cs = (s, cs) := by
  cases cs <;> simp [handleCharacterMode, hp]

/-- An attached session serves the rest of the stream as meant exactly when its chunks are clean. -/
theorem handleCharacterMode_iff (cs : List (List UInt8)) (hp : s.connectedPort = some port) (hc : s.connected = true)
    (hd : s.detachRequested = false) (hts : WellFormed ts) (hstream : encodeAll ts = s.ctrlRxFrag ++ cs.flatten)
    (hlt : ∀ t ts', ts = t :: ts' → s.ctrlRxFrag.length < t.encode.length) :
    ((s.handleCharacterMode requestType cs).1.served = s.served ++ (meaning requestType port ts).1 ∧
      (if (s.handleCharacterMode requestType cs).1.connected && (s.handleCharacterMode requestType cs).1.detachRequested then
        some (s.handleCharacterMode requestType cs).2.flatten else none) = (meaning requestType port ts).2) ↔
      Clean requestType ts s.ctrlRxFrag.length cs := by
  induction cs generalizing s ts with
  | nil =>
      have hnil : ts = [] := by
        cases ts with
        | nil => rfl
        | cons t ts' =>
            have := hlt t ts' rfl
            simp only [encodeAll_cons, List.flatten_nil, List.append_nil] at hstream
            rw [← hstream, List.length_append] at this
            omega
      subst hnil
      simp [handleCharacterMode, hc, hp, meaning, Clean]
  | cons c cs ih =>
      rw [List.flatten_cons, ← List.append_assoc] at hstream
      obtain ⟨part, hdata, hpart, hheld, hlt'⟩ := whole_cut (hstream ▸ List.prefix_append (s.ctrlRxFrag ++ c) cs.flatten)
      have hwhole := whole_append ts (s.ctrlRxFrag ++ c).length
      have hclean : Clean requestType ts s.ctrlRxFrag.length (c :: cs) ↔
          Tidy requestType (whole ts (s.ctrlRxFrag ++ c).length).1 part.length ∧
            ((∀ t ∈ (whole ts (s.ctrlRxFrag ++ c).length).1, ¬ t.detaches requestType) →
              Clean requestType (whole ts (s.ctrlRxFrag ++ c).length).2.1 part.length cs) := by
        rw [hheld, List.length_append]
        rfl
      rw [hclean]
      generalize (whole ts (s.ctrlRxFrag ++ c).length).1 = w, (whole ts (s.ctrlRxFrag ++ c).length).2.1 = r at *
      subst hwhole
      have hr := hts.right
      have hrest : encodeAll r = part ++ cs.flatten := by
        rw [encodeAll_append, hdata, List.append_assoc] at hstream
        exact List.append_cancel_left hstream
      obtain ⟨leak, hwell, hleak, hforward⟩ := forwardBytesToPort_spec requestType hp hts hdata hpart hlt'
      have hstep : s.handleCharacterMode requestType (c :: cs) =
          (s.forwardBytesToPort requestType c).handleCharacterMode requestType cs := by
        simp [handleCharacterMode, hc, hp]
      rw [hstep]
      by_cases hany : detachesAny requestType w = true
      · rw [handleCharacterMode_stop cs (by simp [hforward, hany])]
        have hserved : (s.forwardBytesToPort requestType c).served = s.served ++ Token.served requestType port w leak := by
          simp [hforward, Token.served]
        have hconn : (s.forwardBytesToPort requestType c).connected = true := by simp [hforward, hc]
        have hreq : (s.forwardBytesToPort requestType c).detachRequested = true := by simp [hforward, hany]
        simp only [hserved, hconn, hreq, Bool.and_self, if_true, List.append_cancel_left_eq]
        by_cases htidy : Tidy requestType w part.length
        · obtain ⟨hzero, hm⟩ := served_detach port htidy hany r
          rw [hwell (.inl hzero), hm, hrest, List.length_eq_zero_iff.mp hzero]
          refine iff_of_true ⟨rfl, rfl⟩ ⟨?_, fun hno => ?_⟩
          · simpa [List.length_eq_zero_iff.mp hzero] using htidy
          · obtain ⟨t, ht, hdet⟩ := List.any_eq_true.mp hany
            exact absurd hdet (hno t ht)
        · refine iff_of_false ?_ fun h => htidy h.1
          rintro ⟨hs, ho⟩
          rcases served_untidy port htidy hr hpart hlt' hleak with hbad | ⟨-, hbad⟩
          · exact hbad [] (by rw [List.append_nil, hs])
          · exact hbad _ hrest.symm ho.symm
      · have hno : ∀ t ∈ w, ¬ t.detaches requestType := fun t ht hdet => hany (List.any_eq_true.mpr ⟨t, ht, hdet⟩)
        simp only [Bool.not_eq_true] at hany
        by_cases htidy : Tidy requestType w part.length
        · have hcut : CutWell part.length := htidy.cutWell hno
          rw [hwell hcut] at hforward
          have hserved : (s.forwardBytesToPort requestType c).served = s.served ++ Token.served requestType port w [] := by
            simp [hforward, Token.served]
          have hfrag : (s.forwardBytesToPort requestType c).ctrlRxFrag = part := by simp [hforward]
          have hnext := ih (s := s.forwardBytesToPort requestType c) (by simp [hforward, hany])
            (by simp [hforward, hc]) (by simp [hforward, hany, hd]) hr (by rw [hfrag, hrest]) (by rwa [hfrag])
          rw [hserved, hfrag, List.append_assoc] at hnext
          rw [served_tidy port htidy hno r]
          exact hnext.trans ⟨fun h => ⟨htidy, fun _ => h⟩, fun h => h.2 hno⟩
        · refine iff_of_false ?_ fun h => htidy h.1
          rintro ⟨hs, -⟩
          obtain ⟨more, hm⟩ := handleCharacterMode_mono requestType
            (s := s.forwardBytesToPort requestType c) cs
          have hserved : (s.forwardBytesToPort requestType c).served = s.served ++ Token.served requestType port w leak := by
            simp [hforward, Token.served]
          rw [hm, hserved, List.append_assoc, List.append_cancel_left_eq] at hs
          rcases served_untidy port htidy hr hpart hlt' hleak with hbad | ⟨hdet, -⟩
          · exact hbad more hs
          · exact Bool.false_ne_true (hany.symm.trans hdet)

end ClientSession

end OpenMux.Clients
