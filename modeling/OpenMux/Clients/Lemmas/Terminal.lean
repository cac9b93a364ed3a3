import OpenMux.Clients.Terminal

/-!
# What the reads of a stream give

The adapter cuts what it has at the whole frames and holds back the rest from a marker on, so what its reads give is what the chunks of
the stream give as a bracketed one.
-/

namespace OpenMux.Clients

open Py JsonText Brackets
open OpenMux.Wire (Conversions bodyGet)

variable {V : Conversions} {data out body text before rest line after c : List UInt8} {cs : List (List UInt8)}
  {is js : List (Item UInt8)}

theorem frameSeparators : Separators ctrlMarker [newline] := by decide

namespace Adapter

variable {a : Adapter}

/-! ## One frame -/

/-- What no frame looks at. -/
abbrev around (a : Adapter) (connected : Bool) (frag : List UInt8) (port : Option Text) (mode : Option Bool) : Adapter :=
  { a with isConnected := connected, ctrlRxFrag := frag, currentPort := port, accessMode := mode }

variable {connected : Bool} {frag : List UInt8} {port : Option Text} {mode : Option Bool}

theorem processControlFrame_around (V : Conversions) (a : Adapter) (connected : Bool) (frag : List UInt8) (port : Option Text)
    (mode : Option Bool) (data : List UInt8) : ∃ mode', (a.around connected frag port mode).processControlFrame V data =
      ((a.processControlFrame V data).1.around connected frag port mode', (a.processControlFrame V data).2) := by
  unfold processControlFrame
  dsimp only
  repeat' split
  all_goals exact ⟨_, rfl⟩

/-- A frame goes on record, and what is held back and the connection stay. -/
theorem processControlFrame_keeps (V : Conversions) (a : Adapter) (data : List UInt8) :
    (a.processControlFrame V data).1.frames = a.frames ++ [data] ∧ (a.processControlFrame V data).1.ctrlRxFrag = a.ctrlRxFrag ∧
      (a.processControlFrame V data).1.isConnected = a.isConnected := by
  unfold processControlFrame
  dsimp only
  repeat' split
  all_goals exact ⟨rfl, rfl, rfl⟩

/-! ## Texts and frames -/

theorem take_inl (t : List UInt8) : a.take V (t.map .inl) = (a, some t) := by
  induction t with
  | nil => rfl
  | cons b t ih => simp [take, ih]

theorem take_append : a.take V (is ++ js) = match a.take V is with
    | (a, none) => (a, none)
    | (a, some text) => ((a.take V js).1, (a.take V js).2.map (text ++ ·)) := by
  induction is generalizing a with
  | nil => simp [take]
  | cons i is ih =>
      cases i with
      | inl b =>
          rw [List.cons_append, take, take, ih]
          cases h : a.take V is with
          | mk a' text => cases text <;> simp [Function.comp_def]
      | inr body =>
          rw [List.cons_append, take, take]
          cases hp : a.processControlFrame V (frameOf body) with
          | mk a' message =>
              cases message with
              | none => rfl
              | some message =>
                  dsimp only
                  rw [ih]
                  cases h : a'.take V is with
                  | mk a'' text => cases text <;> simp [Function.comp_def]

/-- Texts and frames change neither what is held back nor the connection, and the frames go on record until a reply raises. -/
theorem take_keeps (V : Conversions) (a : Adapter) (is : List (Item UInt8)) :
    (a.take V is).1.ctrlRxFrag = a.ctrlRxFrag ∧ (a.take V is).1.isConnected = a.isConnected ∧
      (a.take V is).1.frames <+: a.frames ++ (segments is).map frameOf ∧
      ((a.take V is).2.isSome → (a.take V is).1.frames = a.frames ++ (segments is).map frameOf) := by
  induction is generalizing a with
  | nil => simp [take, segments]
  | cons i is ih =>
      cases i with
      | inl b => simpa [take] using ih a
      | inr body =>
          rw [take]
          obtain ⟨hframes, hfrag, hconnected⟩ := processControlFrame_keeps V a (frameOf body)
          cases hp : a.processControlFrame V (frameOf body) with
          | mk a' message =>
              rw [hp] at hframes hfrag hconnected
              dsimp only at hframes hfrag hconnected
              cases message with
              | none => simp [hframes, hfrag, hconnected]
              | some message => simpa [hframes, hfrag, hconnected] using ih a'

/-- When no reply raises, all frames are on record. -/
theorem take_done {V : Conversions} {a a' : Adapter} {is : List (Item UInt8)} {text : List UInt8} (ht : a.take V is = (a', some text)) :
    a'.ctrlRxFrag = a.ctrlRxFrag ∧ a'.frames = a.frames ++ (segments is).map frameOf := by
  obtain ⟨hfrag, -, -, hframes⟩ := take_keeps V a is
  rw [ht] at hfrag hframes
  exact ⟨hfrag, hframes rfl⟩

theorem take_around (V : Conversions) (a : Adapter) (connected : Bool) (frag : List UInt8) (port : Option Text)
    (mode : Option Bool) (is : List (Item UInt8)) : ∃ mode', (a.around connected frag port mode).take V is =
      ((a.take V is).1.around connected frag port mode', (a.take V is).2) := by
  induction is generalizing a mode with
  | nil => exact ⟨mode, rfl⟩
  | cons i is ih =>
      cases i with
      | inl b =>
          obtain ⟨mode', h⟩ := ih a mode
          exact ⟨mode', by simp [take, h]⟩
      | inr body =>
          obtain ⟨mode', h⟩ := processControlFrame_around V a connected frag port mode (frameOf body)
          rw [take, take, h]
          cases hp : a.processControlFrame V (frameOf body) with
          | mk a' message =>
              cases message with
              | none => exact ⟨mode', rfl⟩
              | some message =>
                  obtain ⟨mode'', h'⟩ := ih a' mode'
                  exact ⟨mode'', by simp [h']⟩

/-! ## One read -/

theorem splitLoop_none (h : find ctrlMarker data = none) : a.splitLoop V out data = (a, some (out ++ data)) := by
  rw [splitLoop]
  split <;> simp_all

theorem splitLoop_part (h : find ctrlMarker data = some (before, rest)) (hn : find [newline] rest = none) :
    a.splitLoop V out data =
      if rest.length ≤ ctrlFrameMax then ({ a with ctrlRxFrag := rest }, some (out ++ before))
      else (a, some (out ++ before ++ rest)) := by
  rw [splitLoop]
  split
  · simp_all
  · rename_i h'
    rw [h] at h'
    cases h'
    split <;> simp_all

theorem splitLoop_line (h : find ctrlMarker data = some (before, rest)) (hn : find [newline] rest = some (line, after)) :
    a.splitLoop V out data = match a.processControlFrame V (line ++ [newline]) with
      | (a, none) => (a, none)
      | (a, some message) => a.splitLoop V (out ++ before ++ message) after.tail := by
  rw [splitLoop]
  split
  · simp_all
  · rename_i h'
    rw [h] at h'
    cases h'
    split
    · simp_all
    · rename_i hn'
      rw [hn] at hn'
      cases hn'
      rfl

/-- The line that a frame is cut at is the frame but for its newline. -/
theorem line_of_find (h : find ctrlMarker data = some (before, rest)) (hn : find [newline] rest = some (line, after)) :
    first ctrlMarker [newline] data = some (before, line.drop ctrlMarker.length, after.tail) ∧
      line ++ [newline] = frameOf (line.drop ctrlMarker.length) := by
  have hfirst : first ctrlMarker [newline] data = some (before, line.drop ctrlMarker.length, after.tail) := by
    simp [first, h, hn]
  obtain ⟨hdata, -, -⟩ := find_some h
  obtain ⟨hrest, ⟨t, ht⟩, -⟩ := find_some hn
  have hwhole := append_of_first frameSeparators hfirst
  subst hdata hrest ht
  refine ⟨hfirst, ?_⟩
  have hcut := List.append_cancel_left hwhole
  simp only [List.singleton_append, List.tail_cons] at hcut
  have hboth : line ++ [newline] ++ t = frameOf (line.drop ctrlMarker.length) ++ t := by simpa [frameOf] using hcut
  exact List.append_cancel_right hboth

/-- The loop cuts the data at its whole frames. -/
theorem splitLoop_eq (hfrag : a.ctrlRxFrag = []) : a.splitLoop V out data = match a.take V (given ctrlMarker [newline] ctrlFrameMax data) with
    | (a, none) => (a, none)
    | (a, some text) => ({ a with ctrlRxFrag := heldBack ctrlMarker [newline] ctrlFrameMax data }, some (out ++ text)) := by
  induction hn : data.length using Nat.strong_induction_on generalizing a out data with
  | _ n ih =>
      cases h : find ctrlMarker data with
      | none =>
          have hfirst : first ctrlMarker [newline] data = none := by simp [first, h]
          have hhold : hold ctrlMarker ctrlFrameMax data = (data, []) := by simp [hold, h]
          have hself : ({ a with ctrlRxFrag := [] } : Adapter) = a := by rw [← hfrag]
          rw [splitLoop_none h]
          simp [given, heldBack, cut_of_none hfirst, hhold, take_inl, hself]
      | some r =>
          obtain ⟨before, rest⟩ := r
          cases hline : find [newline] rest with
          | none =>
              have hfirst : first ctrlMarker [newline] data = none := by simp [first, h, hline]
              have hself : ({ a with ctrlRxFrag := [] } : Adapter) = a := by rw [← hfrag]
              obtain ⟨hdata, -, -⟩ := find_some h
              rw [splitLoop_part h hline]
              by_cases hmax : rest.length ≤ ctrlFrameMax
              · have hhold : hold ctrlMarker ctrlFrameMax data = (before, rest) := by simp [hold, h, hmax]
                simp [given, heldBack, cut_of_none hfirst, hhold, take_inl, hmax]
              · have hhold : hold ctrlMarker ctrlFrameMax data = (data, []) := by simp [hold, h, hmax]
                rw [if_neg hmax, List.append_assoc, ← hdata]
                simp [given, heldBack, cut_of_none hfirst, hhold, take_inl, hself]
          | some l =>
              obtain ⟨line, after⟩ := l
              obtain ⟨hfirst, hframe⟩ := line_of_find h hline
              have hlt := length_lt_of_first frameSeparators hfirst
              have hgiven : given ctrlMarker [newline] ctrlFrameMax data =
                  before.map .inl ++ (.inr (line.drop ctrlMarker.length) :: given ctrlMarker [newline] ctrlFrameMax after.tail) := by
                simp [given, cut_of_some frameSeparators hfirst]
              have hheld : heldBack ctrlMarker [newline] ctrlFrameMax data = heldBack ctrlMarker [newline] ctrlFrameMax after.tail := by
                simp [heldBack, cut_of_some frameSeparators hfirst]
              rw [splitLoop_line h hline, hframe, hgiven, hheld, take_append, take_inl]
              dsimp only
              rw [take]
              have hkeeps := processControlFrame_keeps V a (frameOf (line.drop ctrlMarker.length))
              cases hp : a.processControlFrame V (frameOf (line.drop ctrlMarker.length)) with
              | mk a' message =>
                  cases message with
                  | none => rfl
                  | some message =>
                      rw [hp] at hkeeps
                      dsimp only
                      rw [ih _ (hn ▸ hlt) (hkeeps.2.1.trans hfrag) rfl]
                      cases ht : a'.take V (given ctrlMarker [newline] ctrlFrameMax after.tail) with
                      | mk a'' text => cases text <;> simp

/-- A read gives what its bytes with what was held back before them give. -/
theorem readData_eq (V : Conversions) (a : Adapter) (c : List UInt8) :
    a.readData V c = match ({ a with ctrlRxFrag := [] } : Adapter).take V (given ctrlMarker [newline] ctrlFrameMax (a.ctrlRxFrag ++ c)) with
      | (a, none) => ({ a with isConnected := false }, [])
      | (a', some text) => ({ a' with ctrlRxFrag := heldBack ctrlMarker [newline] ctrlFrameMax (a.ctrlRxFrag ++ c) }, text) := by
  by_cases hfrag : a.ctrlRxFrag = []
  · have hself : ({ a with ctrlRxFrag := [] } : Adapter) = a := by rw [← hfrag]
    cases h : find ctrlMarker c with
    | none =>
        have hfirst : first ctrlMarker [newline] c = none := by simp [first, h]
        have hhold : hold ctrlMarker ctrlFrameMax c = (c, []) := by simp [hold, h]
        simp [readData, h, hfrag, hself, given, heldBack, cut_of_none hfirst, hhold, take_inl]
    | some r =>
        rw [readData, if_pos (by simp [h]), splitControlFrames, if_neg (by simp [hfrag]), if_neg (by simp [h]),
          splitLoop_eq hfrag, hself, hfrag, List.nil_append]
        cases ht : a.take V (given ctrlMarker [newline] ctrlFrameMax c) with
        | mk a' text => cases text <;> simp
  · rw [readData, if_pos (.inr hfrag), splitControlFrames, if_pos hfrag, splitLoop_eq rfl]
    cases ht : ({ a with ctrlRxFrag := [] } : Adapter).take V (given ctrlMarker [newline] ctrlFrameMax (a.ctrlRxFrag ++ c)) with
    | mk a' text => cases text <;> simp

/-! ## All reads -/

theorem frameOf_injective : Function.Injective frameOf := by
  intro b c h
  simpa [frameOf] using h

theorem take_isSome (h : ∀ body ∈ segments is, Answered V body) (a : Adapter) : (a.take V is).2.isSome := by
  induction is generalizing a with
  | nil => rfl
  | cons i is ih =>
      cases i with
      | inl b => simpa [take] using ih h a
      | inr body =>
          have hbody := h body (by simp)
          rw [take]
          cases hp : a.processControlFrame V (frameOf body) with
          | mk a' message =>
              have hsome := hbody a
              rw [hp] at hsome
              cases message with
              | none => cases hsome
              | some message => simpa using ih (fun b hb => h b (by simp [hb])) a'

/-- What is on record is what the chunks give, until a reply raises. -/
theorem reads_frames_front (V : Conversions) (a : Adapter) (cs : List (List UInt8)) :
    (a.reads V cs).1.frames <+:
      a.frames ++ (segments (itemsOfChunks ctrlMarker [newline] ctrlFrameMax a.ctrlRxFrag cs).1.flatten).map frameOf := by
  induction cs generalizing a with
  | nil => exact List.prefix_append _ _
  | cons c cs ih =>
      rw [reads]
      split
      · have hkeeps := take_keeps V { a with ctrlRxFrag := [] } (given ctrlMarker [newline] ctrlFrameMax (a.ctrlRxFrag ++ c))
        rw [readData_eq]
        cases ht : ({ a with ctrlRxFrag := [] } : Adapter).take V (given ctrlMarker [newline] ctrlFrameMax (a.ctrlRxFrag ++ c)) with
        | mk a' text =>
            rw [ht] at hkeeps
            cases text with
            | none =>
                have hstop : ∀ cs, reads V { a' with isConnected := false } cs = ({ a' with isConnected := false }, []) := by
                  intro cs
                  cases cs <;> rfl
                dsimp only
                rw [hstop]
                refine hkeeps.2.2.1.trans ?_
                simp [itemsOfChunks]
            | some text =>
                have hframes := hkeeps.2.2.2 rfl
                refine (ih _).trans ?_
                dsimp only at hframes ⊢
                rw [hframes]
                simp [itemsOfChunks]
      · exact List.prefix_append _ _

/-- The reads do what the items of the chunks do. -/
theorem reads_eq (hconnected : a.isConnected = true) {a' : Adapter}
    (ht : ({ a with ctrlRxFrag := [] } : Adapter).take V (itemsOfChunks ctrlMarker [newline] ctrlFrameMax a.ctrlRxFrag cs).1.flatten = (a', some text)) :
    (a.reads V cs).1 = { a' with ctrlRxFrag := (itemsOfChunks ctrlMarker [newline] ctrlFrameMax a.ctrlRxFrag cs).2 } ∧
      (a.reads V cs).2.flatten = text := by
  induction cs generalizing a a' text with
  | nil =>
      simp only [itemsOfChunks, List.flatten_nil, take, Prod.mk.injEq, Option.some.injEq] at ht
      obtain ⟨rfl, rfl⟩ := ht
      exact ⟨rfl, rfl⟩
  | cons c cs ih =>
      simp only [itemsOfChunks, List.flatten_cons, take_append] at ht
      have hkeeps := take_keeps V { a with ctrlRxFrag := [] } (given ctrlMarker [newline] ctrlFrameMax (a.ctrlRxFrag ++ c))
      rw [reads, if_pos hconnected, readData_eq]
      cases h : ({ a with ctrlRxFrag := [] } : Adapter).take V (given ctrlMarker [newline] ctrlFrameMax (a.ctrlRxFrag ++ c)) with
      | mk a₁ text₁ =>
          rw [h] at ht hkeeps
          cases text₁ with
          | none => cases ht
          | some text₁ =>
              obtain ⟨rfl, hrest⟩ := Prod.mk.inj ht
              obtain ⟨text₂, htext, rfl⟩ := Option.map_eq_some_iff.mp hrest
              have hnil : a₁.ctrlRxFrag = [] := hkeeps.1
              have hself : ({ a₁ with ctrlRxFrag := [] } : Adapter) = a₁ := by rw [← hnil]
              have hmore : ({ a₁ with ctrlRxFrag := [] } : Adapter).take V (itemsOfChunks ctrlMarker [newline] ctrlFrameMax
                  (heldBack ctrlMarker [newline] ctrlFrameMax (a.ctrlRxFrag ++ c)) cs).1.flatten =
                ((a₁.take V (itemsOfChunks ctrlMarker [newline] ctrlFrameMax
                  (heldBack ctrlMarker [newline] ctrlFrameMax (a.ctrlRxFrag ++ c)) cs).1.flatten).1, some text₂) := by
                rw [hself, ← htext]
              have hnext := ih (a := { a₁ with ctrlRxFrag := heldBack ctrlMarker [newline] ctrlFrameMax (a.ctrlRxFrag ++ c) })
                (hkeeps.2.1.trans hconnected) hmore
              simpa [itemsOfChunks] using hnext

end Adapter

/-! ## The text from a port -/

namespace Console

variable {p tail pending : List UInt8} {ps lines after' : List (List UInt8)} {raw : List UInt8}

theorem count_joinPairs (data : List UInt8) :
    (Newlines.joinPairs carriageReturn newline data).count newline = data.count newline := by
  fun_induction Newlines.joinPairs carriageReturn newline data with
  | case1 b c l hpair ih =>
      obtain ⟨rfl, rfl⟩ := hpair
      rw [List.count_cons_self, ih, List.count_cons_of_ne (by decide), List.count_cons_self]
  | case2 b c l hne ih => rw [List.count_cons, List.count_cons, ih]
  | case3 l hshort => rfl

/-- Every newline is shown. -/
theorem count_normalized (data : List UInt8) : (normalized data).count newline = data.count newline := by
  rw [← count_joinPairs data, normalized, Newlines.rewrite]
  induction Newlines.joinPairs carriageReturn newline data with
  | nil => rfl
  | cons b l ih =>
      rw [List.flatMap_cons, List.count_append, ih, List.count_cons]
      by_cases hb : b = newline
      · simp [hb, crlf, carriageReturn, newline]
        omega
      · simp [hb]

theorem length_normalized_le (ps : List (List UInt8)) : (normalized ps.flatten).length ≤ (ps.flatMap normalized).length := by
  induction ps with
  | nil => rfl
  | cons p ps ih =>
      have hle : (normalized (p ++ ps.flatten)).length ≤ (normalized p).length + (normalized ps.flatten).length :=
        Newlines.length_rewrite_append_le (by decide) (by decide) p ps.flatten
      rw [List.flatten_cons, List.flatMap_cons, List.length_append]
      omega

/-- Pieces are shown as the whole is exactly if no pair lies across two of them. -/
theorem flatMap_normalized_iff (ps : List (List UInt8)) : ps.flatMap normalized = normalized ps.flatten ↔ Unparted ps := by
  induction ps with
  | nil => simp [Unparted, normalized, Newlines.rewrite, Newlines.joinPairs]
  | cons p ps ih =>
      rw [List.flatMap_cons, List.flatten_cons, Unparted, ← ih]
      by_cases hsplits : Newlines.Splits carriageReturn newline p ps.flatten
      · have hlt : (normalized (p ++ ps.flatten)).length < (normalized p).length + (normalized ps.flatten).length :=
          Newlines.length_rewrite_of_splits (by decide) (by decide) hsplits
        have hle := length_normalized_le ps
        have hne : normalized p ++ ps.flatMap normalized ≠ normalized (p ++ ps.flatten) := by
          intro heq
          have hlength := congrArg List.length heq
          rw [List.length_append] at hlength
          omega
        simp [hsplits, hne]
      · have happ : normalized (p ++ ps.flatten) = normalized p ++ normalized ps.flatten := Newlines.rewrite_append hsplits
        rw [happ]
        simp [hsplits]

/-! ## The line of an attach -/

theorem intercalate_append_of_ne_nil (h : tail ≠ []) (lines : List (List UInt8)) :
    [newline].intercalate (lines ++ [tail]) = lines.flatMap (· ++ [newline]) ++ tail := by
  induction lines with
  | nil => simp
  | cons l lines ih => rw [List.cons_append, List.intercalate_cons_of_ne_nil (by simp), ih]; simp

theorem intercalate_of_ne_nil (h : lines ≠ []) : [newline].intercalate lines ++ [newline] = lines.flatMap (· ++ [newline]) := by
  induction lines with
  | nil => exact absurd rfl h
  | cons l lines ih =>
      cases lines with
      | nil => simp
      | cons l' lines =>
          have hih := ih (by simp)
          rw [List.intercalate_cons_of_ne_nil (by simp), List.append_assoc, hih]
          simp

/-- What the console renders of the data after the line of an attach, by its whole lines and the rest. -/
def rawTail (lines : List (List UInt8)) (tail : List UInt8) : List UInt8 :=
  [newline].intercalate (lines ++ if tail = [] then [] else [tail])

/-- The last newline is lost. -/
theorem rawTail_eq (lines : List (List UInt8)) (tail : List UInt8) :
    (lines = [] ∨ tail ≠ [] → rawTail lines tail = lines.flatMap (· ++ [newline]) ++ tail) ∧
      (¬ (lines = [] ∨ tail ≠ []) → rawTail lines tail ++ [newline] = lines.flatMap (· ++ [newline]) ++ tail) := by
  by_cases htail : tail = []
  · subst htail
    refine ⟨fun h => ?_, fun h => ?_⟩
    · obtain rfl : lines = [] := by simpa using h
      rfl
    · have hne : lines ≠ [] := by simpa using h
      simpa [rawTail] using intercalate_of_ne_nil hne
  · refine ⟨fun _ => ?_, fun h => absurd (.inr htail) h⟩
    simpa [rawTail, htail] using intercalate_append_of_ne_nil htail lines

/-- What the pieces show after those of which `pending` is left. -/
def shownBy (V : Conversions) : Bool → List UInt8 → List (List UInt8) → List Shown
  | _, _, [] => []
  | false, _, p :: ps => (normalized p).map .byte ++ shownBy V false [] ps
  | true, pending, p :: ps =>
      let (lines, tail) := Lines.cut (· = newline) (pending ++ p)
      match lines.dropWhile (!Attaches ·) with
      | [] => (lines.flatMap (reply V)).map .byte ++ shownBy V true tail ps
      | raw :: after => ((lines.takeWhile (!Attaches ·)).flatMap (reply V)).map .byte ++
          attached raw :: ((normalized (rawTail after tail)).map .byte ++ shownBy V false [] ps)

theorem shownBy_port (V : Conversions) (pending : List UInt8) (ps : List (List UInt8)) :
    shownBy V false pending ps = (ps.flatMap normalized).map .byte := by
  induction ps generalizing pending with
  | nil => rfl
  | cons p ps ih => simp [shownBy, ih]

theorem byte_injective : Function.Injective Shown.byte := fun _ _ h => by cases h; rfl

/-- The data that comes from the port is shown as it is meant exactly if no newline is lost and no pair is parted. -/
theorem port_iff (lines : List (List UInt8)) (tail : List UInt8) (ps : List (List UInt8)) :
    normalized (rawTail lines tail) ++ ps.flatMap normalized = normalized (lines.flatMap (· ++ [newline]) ++ tail ++ ps.flatten) ↔
      (lines = [] ∨ tail ≠ []) ∧ Unparted ((lines.flatMap (· ++ [newline]) ++ tail) :: ps) := by
  obtain ⟨hkept, hlost⟩ := rawTail_eq lines tail
  by_cases h : lines = [] ∨ tail ≠ []
  · rw [hkept h]
    simpa [h] using flatMap_normalized_iff ((lines.flatMap (· ++ [newline]) ++ tail) :: ps)
  · have hcount : ∀ ps : List (List UInt8), (ps.flatMap normalized).count newline = ps.flatten.count newline := by
      intro ps
      induction ps with
      | nil => rfl
      | cons p ps ih => rw [List.flatMap_cons, List.flatten_cons, List.count_append, List.count_append, count_normalized, ih]
    refine ⟨fun heq => ?_, fun hboth => absurd hboth.1 h⟩
    have hnewlines := congrArg (List.count newline) heq
    rw [← hlost h, List.count_append, count_normalized, count_normalized, hcount] at hnewlines
    simp at hnewlines

/-- A text is meant as its whole lines are, and then what is left of them with the rest. -/
theorem meaning_append (V : Conversions) (text more : List UInt8) :
    meaning V true (text ++ more) =
      match (Lines.cut (· = newline) text).1.dropWhile (!Attaches ·) with
      | [] => ((Lines.cut (· = newline) text).1.flatMap (reply V)).map .byte ++
          meaning V true ((Lines.cut (· = newline) text).2 ++ more)
      | raw :: after => (((Lines.cut (· = newline) text).1.takeWhile (!Attaches ·)).flatMap (reply V)).map .byte ++
          attached raw :: (normalized (after.flatMap (· ++ [newline]) ++ (Lines.cut (· = newline) text).2 ++ more)).map .byte := by
  have hcut : Lines.cut (· = newline) (text ++ more) = _ := Lines.cut_append text more
  simp only [meaning, hcut, if_true]
  cases hdrop : (Lines.cut (· = newline) text).1.dropWhile (!Attaches ·) with
  | nil =>
      have hall := List.dropWhile_eq_nil_iff.mp hdrop
      rw [List.dropWhile_append_of_pos hall, List.takeWhile_append_of_pos hall]
      split <;> simp
  | cons raw after =>
      have hjoin := Lines.join_cut newline ((Lines.cut (· = newline) text).2 ++ more)
      have htake : ((Lines.cut (· = newline) text).1 ++ (Lines.cut (· = newline) ((Lines.cut (· = newline) text).2 ++ more)).1).takeWhile
          (!Attaches ·) = (Lines.cut (· = newline) text).1.takeWhile (!Attaches ·) := by
        have hsplit := congrArg List.length
          (List.takeWhile_append_dropWhile (p := (!Attaches ·)) (l := (Lines.cut (· = newline) text).1))
        rw [hdrop, List.length_append, List.length_cons] at hsplit
        rw [List.takeWhile_append, if_neg (by omega)]
      have hdrop' : ((Lines.cut (· = newline) text).1 ++ (Lines.cut (· = newline) ((Lines.cut (· = newline) text).2 ++ more)).1).dropWhile
          (!Attaches ·) = raw :: (after ++ (Lines.cut (· = newline) ((Lines.cut (· = newline) text).2 ++ more)).1) := by
        rw [List.dropWhile_append, hdrop]
        rfl
      rw [hdrop', htake]
      simp only [List.flatMap_append, List.append_assoc]
      rw [hjoin]

/-- In the command phase the pieces show what their text means exactly if they are smooth. -/
theorem shownBy_iff (V : Conversions) (hpending : Lines.Open (· = newline) pending) :
    shownBy V true pending ps = meaning V true (pending ++ ps.flatten) ↔ Smooth pending ps := by
  induction ps generalizing pending with
  | nil =>
      have hcut := Lines.cut_of_open hpending
      simp [shownBy, meaning, Smooth, hcut]
  | cons p ps ih =>
      have hopen : Lines.Open (· = newline) (Lines.cut (· = newline) (pending ++ p)).2 := Lines.open_rest _
      rw [List.flatten_cons, ← List.append_assoc, meaning_append]
      simp only [shownBy, Smooth]
      cases hdrop : (Lines.cut (· = newline) (pending ++ p)).1.dropWhile (!Attaches ·) with
      | nil =>
          dsimp only
          rw [List.append_cancel_left_eq]
          exact ih hopen
      | cons raw after =>
          dsimp only
          rw [shownBy_port, List.append_cancel_left_eq, List.cons.injEq, ← List.map_append]
          simp only [true_and]
          rw [byte_injective.list_map.eq_iff]
          exact port_iff after _ ps

/-! ## One piece -/

variable {s : Console}

@[simp] theorem visible_append (xs ys : List Shown) : visible (xs ++ ys) = visible xs ++ visible ys := List.filter_append ..

@[simp] theorem visible_bytes (data : List UInt8) : visible (data.map .byte) = data.map .byte := by
  simp [visible]

/-- What a console keeps when the client speaks on its own account. -/
structure Quiet (s s' : Console) : Prop where
  adapter : s'.adapter = s.adapter
  isRunning : s'.isRunning = s.isRunning
  commandMode : s'.commandMode = s.commandMode
  cmdRx : s'.cmdRx = s.cmdRx
  visible : Console.visible s'.shown = Console.visible s.shown

theorem syncAccessMode_quiet (s : Console) : Quiet s s.syncAccessMode := by
  unfold syncAccessMode
  split
  · exact ⟨rfl, rfl, rfl, rfl, rfl⟩
  · dsimp only
    split
    · exact ⟨rfl, rfl, rfl, rfl, rfl⟩
    · split
      · exact ⟨rfl, rfl, rfl, rfl, rfl⟩
      · exact ⟨rfl, rfl, rfl, rfl, by simp [note, visible]⟩

theorem commandReplySettle_quiet (s : Console) : Quiet s s.commandReplySettle := by
  unfold commandReplySettle
  dsimp only
  split
  · split
    · exact ⟨rfl, rfl, rfl, rfl, by simp [note, visible]⟩
    · exact ⟨rfl, rfl, rfl, rfl, rfl⟩
  · exact ⟨rfl, rfl, rfl, rfl, rfl⟩

/-- A console after a piece: it shows what the piece shows, and goes on with what is left. -/
structure Fed (V : Conversions) (s s' : Console) (p : List UInt8) : Prop where
  adapter : ∃ port mode, s'.adapter = { s.adapter with currentPort := port, accessMode := mode }
  isRunning : s'.isRunning = s.isRunning
  shown : ∃ x, visible s'.shown = visible s.shown ++ x ∧
    ∀ ps, shownBy V s.commandMode s.cmdRx (p :: ps) = x ++ shownBy V s'.commandMode s'.cmdRx ps
  pending : Lines.Open (· = newline) s'.cmdRx

theorem find_none_within {sep x d : List UInt8} (hne : sep ≠ []) (h : find sep d = none) (hx : x <:+: d) : find sep x = none := by
  obtain ⟨u, v, rfl⟩ := hx
  rw [find_eq_none_iff hne] at h ⊢
  intro i hat
  apply h (u.length + i)
  rw [List.append_assoc]
  exact at_append_right_iff.mpr (hat.append_left v)

/-- What follows the line of an attach is of the piece that ends the line. -/
theorem rawTail_within {pending p : List UInt8} (hpending : Lines.Open (· = newline) pending) {lines after : List (List UInt8)} {tail raw : List UInt8}
    (hcut : Lines.cut (· = newline) (pending ++ p) = (lines, tail)) (hdrop : lines.dropWhile (!Attaches ·) = raw :: after) :
    rawTail after tail <:+: p := by
  have hjoin := Lines.join_cut newline (pending ++ p)
  have hlines := List.takeWhile_append_dropWhile (p := (!Attaches ·)) (l := lines)
  rw [hcut] at hjoin
  dsimp only at hjoin
  rw [← hlines, hdrop] at hjoin
  obtain ⟨x, hx⟩ : ∃ x, x ++ [newline] ++ (after.flatMap (· ++ [newline]) ++ tail) = pending ++ p := by
    refine ⟨(lines.takeWhile (!Attaches ·)).flatMap (· ++ [newline]) ++ raw, ?_⟩
    rw [← hjoin]
    simp
  have hsuffix : (after.flatMap (· ++ [newline]) ++ tail) <:+ p := by
    rcases List.append_eq_append_iff.mp hx with ⟨c, hc, hp⟩ | ⟨c, hc, hp⟩
    · have hmem : newline ∈ pending := by rw [hc]; simp
      simpa using hpending newline hmem
    · exact ⟨c, hp.symm⟩
  have hfront : rawTail after tail <+: after.flatMap (· ++ [newline]) ++ tail := by
    obtain ⟨hkept, hlost⟩ := rawTail_eq after tail
    by_cases h : after = [] ∨ tail ≠ []
    · rw [hkept h]
    · exact ⟨_, hlost h⟩
  exact hfront.isInfix.trans hsuffix.isInfix

theorem readRenderPort_eq (h : find shutdownText p = none) : s.readRenderPort p = s.write (normalized p) := by
  simp [readRenderPort, h]

/-- The loop shows the lines up to that of an attach. -/
theorem renderLoop_eq (V : Conversions) (s : Console) (out : List UInt8) (lines : List (List UInt8)) :
    s.renderLoop V out lines = match lines.dropWhile (!Attaches ·) with
      | [] => (s.write (out ++ lines.flatMap (reply V)), none)
      | raw :: after => (({ s with cmdRx := [] }.write (out ++ (lines.takeWhile (!Attaches ·)).flatMap (reply V))).commandAttached (rstripCr raw),
          some (rawTail after s.cmdRx)) := by
  induction lines generalizing out with
  | nil => simp [renderLoop]
  | cons raw lines ih =>
      rw [renderLoop]
      by_cases h : Attaches raw
      · have h' : connectedText <+: rstripCr raw := by simpa [Attaches] using h
        simp [h, h', rawTail]
      · have h' : ¬ connectedText <+: rstripCr raw := by simpa [Attaches] using h
        dsimp only
        rw [if_neg h', ih]
        simp [h, reply]

theorem commandAttached_fed (s : Console) (raw : List UInt8) :
    (s.commandAttached (rstripCr raw)).isRunning = s.isRunning ∧ (s.commandAttached (rstripCr raw)).commandMode = false ∧
      (s.commandAttached (rstripCr raw)).cmdRx = [] ∧
      visible (s.commandAttached (rstripCr raw)).shown = visible s.shown ++ [attached raw] ∧
      ∃ port mode, (s.commandAttached (rstripCr raw)).adapter = { s.adapter with currentPort := port, accessMode := mode } := by
  unfold commandAttached
  dsimp only
  obtain ⟨hadapter, hrunning, hmode, hrx, hvisible⟩ := syncAccessMode_quiet { s with
    commandMode := false
    cmdAwaitingReply := false
    cmdRx := []
    adapter := { s.adapter with
      currentPort := some ((splitAll ':' (Utf8.decodeIgnore (rstripCr raw)))[1]?.getD [])
      accessMode := some (decide ((splitAll ':' (Utf8.decodeIgnore (rstripCr raw)))[2]? = some "READ_WRITE".toList)) } }
  refine ⟨hrunning, hmode, hrx, ?_, _, _, hadapter⟩
  rw [note, visible_append, hvisible]
  rfl

/-- A piece without the notice of a shutdown is shown as it is meant. -/
theorem readRender_fed (V : Conversions) (hpending : Lines.Open (· = newline) s.cmdRx) (h : find shutdownText p = none) :
    Fed V s (s.readRender V p) p := by
  unfold readRender
  by_cases hmode : s.commandMode = true
  · rw [if_pos hmode, readRenderCommand, if_neg (by simp [h])]
    cases hcut : Lines.cut (· = newline) (s.cmdRx ++ p) with
    | mk lines tail =>
        have hopen : Lines.Open (· = newline) tail := by
          have hrest : Lines.Open (· = newline) (Lines.cut (· = newline) (s.cmdRx ++ p)).2 := Lines.open_rest _
          rwa [hcut] at hrest
        dsimp only
        rw [renderLoop_eq]
        cases hdrop : lines.dropWhile (!Attaches ·) with
        | nil =>
            refine ⟨⟨_, _, rfl⟩, rfl, ⟨(lines.flatMap (reply V)).map .byte, by simp [write], fun ps => ?_⟩, hopen⟩
            simp [shownBy, hmode, hcut, hdrop, write]
        | cons raw after =>
            have hwithin := find_none_within (by decide) h (rawTail_within hpending hcut hdrop)
            obtain ⟨hrunning, hcommand, hrx, hvisible, port, mode, hadapter⟩ := commandAttached_fed
              ({ s with cmdRx := [] }.write ([] ++ (lines.takeWhile (!Attaches ·)).flatMap (reply V))) raw
            have hbefore : visible ({ s with cmdRx := [] }.write ([] ++ (lines.takeWhile (!Attaches ·)).flatMap (reply V))).shown =
                visible s.shown ++ ((lines.takeWhile (!Attaches ·)).flatMap (reply V)).map .byte := by simp [write]
            rw [hbefore] at hvisible
            dsimp only
            generalize Console.commandAttached _ (rstripCr raw) = s' at *
            have hopen' : Lines.Open (· = newline) s'.cmdRx := by simp [hrx, Lines.Open]
            rw [readRenderPort_eq hwithin]
            split
            · rename_i hnil
              refine ⟨⟨port, mode, hadapter⟩, hrunning,
                ⟨((lines.takeWhile (!Attaches ·)).flatMap (reply V)).map .byte ++ [attached raw], by simp [hvisible], fun ps => ?_⟩, hopen'⟩
              rw [hcommand, hrx]
              simp [shownBy, hmode, hcut, hdrop, hnil, normalized, Newlines.rewrite, Newlines.joinPairs]
            · refine ⟨⟨port, mode, hadapter⟩, hrunning, ⟨((lines.takeWhile (!Attaches ·)).flatMap (reply V)).map .byte ++
                attached raw :: (normalized (rawTail after tail)).map .byte, by simp [write, hvisible], fun ps => ?_⟩, hopen'⟩
              simp only [write, hcommand, hrx]
              simp [shownBy, hmode, hcut, hdrop]
  · rw [if_neg hmode, readRenderPort_eq h]
    refine ⟨⟨_, _, rfl⟩, rfl, ⟨(normalized p).map .byte, by simp [write], fun ps => ?_⟩, hpending⟩
    have hfalse : s.commandMode = false := by simpa using hmode
    simp [shownBy_port, write, hfalse]

end Console

/-! ## All pieces -/

namespace Adapter

variable {a : Adapter}

theorem readData_mode (V : Conversions) (a : Adapter) (port : Option Text) (mode : Option Bool) (c : List UInt8) :
    ∃ mode', ({ a with currentPort := port, accessMode := mode } : Adapter).readData V c =
      ({ (a.readData V c).1 with currentPort := port, accessMode := mode' }, (a.readData V c).2) := by
  rw [readData_eq, readData_eq]
  obtain ⟨mode', h⟩ := take_around V { a with ctrlRxFrag := [] } a.isConnected [] port mode
    (given ctrlMarker [newline] ctrlFrameMax (a.ctrlRxFrag ++ c))
  have hkeeps := take_keeps V { a with ctrlRxFrag := [] } (given ctrlMarker [newline] ctrlFrameMax (a.ctrlRxFrag ++ c))
  dsimp only [around] at h ⊢
  rw [h]
  cases ht : ({ a with ctrlRxFrag := [] } : Adapter).take V (given ctrlMarker [newline] ctrlFrameMax (a.ctrlRxFrag ++ c)) with
  | mk a' text =>
      rw [ht] at hkeeps
      have hfrag : a'.ctrlRxFrag = [] := hkeeps.1
      have hsame : a'.isConnected = a.isConnected := hkeeps.2.1
      cases text with
      | none => exact ⟨mode', by simp [hfrag]⟩
      | some text => exact ⟨mode', by simp [hsame]⟩

/-- What the reads give does not depend on the port and the mode. -/
theorem reads_mode (V : Conversions) (a : Adapter) (port : Option Text) (mode : Option Bool) (cs : List (List UInt8)) :
    (({ a with currentPort := port, accessMode := mode } : Adapter).reads V cs).2 = (a.reads V cs).2 := by
  induction cs generalizing a mode with
  | nil => rfl
  | cons c cs ih =>
      obtain ⟨mode', h⟩ := readData_mode V a port mode c
      rw [reads, reads, h]
      split
      · dsimp only
        rw [ih]
      · rfl

end Adapter

namespace Console

theorem shownBy_nil (V : Conversions) (mode : Bool) {pending : List UInt8} (hpending : Lines.Open (· = newline) pending) (ps : List (List UInt8)) :
    shownBy V mode pending ([] :: ps) = shownBy V mode pending ps := by
  cases mode with
  | false => simp [shownBy_port, normalized, Newlines.rewrite, Newlines.joinPairs]
  | true => simp [shownBy, Lines.cut_of_open hpending]

theorem reads_of_not_connected {a : Adapter} (h : a.isConnected = false) (cs : List (List UInt8)) : a.reads V cs = (a, []) := by
  cases cs with
  | nil => rfl
  | cons c cs => simp [Adapter.reads, h]

/-- A console shows what its reads give, as it is rendered piece by piece. -/
theorem readFromServer_shown (V : Conversions) (s : Console) (reads : List (Option (List UInt8))) (hrunning : s.isRunning = true)
    (hpending : Lines.Open (· = newline) s.cmdRx)
    (h : ∀ p ∈ (s.adapter.reads V reads.reduceOption).2, find shutdownText p = none) :
    visible (s.readFromServer V reads).shown =
      visible s.shown ++ shownBy V s.commandMode s.cmdRx (s.adapter.reads V reads.reduceOption).2 := by
  induction reads generalizing s with
  | nil => simp [readFromServer, Adapter.reads, shownBy]
  | cons read reads ih =>
      have hfold : s.readFromServer V (read :: reads) = (s.readStep V read).readFromServer V reads := rfl
      rw [hfold]
      by_cases hconnected : s.adapter.isConnected = true
      · cases read with
        | none =>
            have hstep : s.readStep V none = s.commandReplySettle := by simp [readStep, hrunning, hconnected]
            obtain ⟨hadapter, hrun, hmode, hrx, hvisible⟩ := commandReplySettle_quiet s
            have hnext := ih s.commandReplySettle (hrun.trans hrunning) (hrx ▸ hpending) (by rw [hadapter]; simpa using h)
            rw [hstep, hnext, hvisible, hmode, hrx, hadapter]
            simp
        | some c =>
            cases hread : s.adapter.readData V c with
            | mk a data =>
                have hreads : (s.adapter.reads V (c :: reads.reduceOption)).2 = data :: (a.reads V reads.reduceOption).2 := by
                  simp [Adapter.reads, hconnected, hread]
                rw [List.reduceOption_cons_of_some, hreads] at h ⊢
                obtain ⟨hdata, hrest⟩ := List.forall_mem_cons.mp h
                have hstep : s.readStep V (some c) = if data = [] then ({ s with adapter := a } : Console).commandReplySettle
                    else (({ s with adapter := a, cmdQuietPolls := 0 } : Console).syncAccessMode).readRender V data := by
                  simp [readStep, hrunning, hconnected, hread]
                rw [hstep]
                split
                · rename_i hnil
                  obtain ⟨hadapter, hrun, hmode, hrx, hvisible⟩ := commandReplySettle_quiet { s with adapter := a }
                  dsimp only at hadapter hrun hmode hrx hvisible
                  have hnext := ih ({ s with adapter := a } : Console).commandReplySettle (hrun.trans hrunning) (by rwa [hrx])
                    (by rwa [hadapter])
                  rw [hnext, hvisible, hmode, hrx, hadapter, hnil, shownBy_nil V _ hpending]
                · obtain ⟨hadapter, hrun, hmode, hrx, hvisible⟩ := syncAccessMode_quiet { s with adapter := a, cmdQuietPolls := 0 }
                  dsimp only at hadapter hrun hmode hrx hvisible
                  obtain ⟨⟨port, mode, hadapter'⟩, hrun', ⟨x, hx, hshown⟩, hopen⟩ :=
                    readRender_fed V (s := ({ s with adapter := a, cmdQuietPolls := 0 } : Console).syncAccessMode) (by rwa [hrx]) hdata
                  rw [hadapter] at hadapter'
                  have hsame := Adapter.reads_mode V a port mode reads.reduceOption
                  have hnext := ih _ (hrun'.trans (hrun.trans hrunning)) hopen (by rw [hadapter', hsame]; exact hrest)
                  rw [hmode, hrx] at hshown
                  rw [hnext, hx, hvisible, hadapter', hsame, hshown, List.append_assoc]
      · have hoff : s.adapter.isConnected = false := by simpa using hconnected
        have hstep : s.readStep V read = s := by simp [readStep, hoff]
        have hnone : ∀ cs, (s.adapter.reads V cs).2 = [] := fun cs => by rw [reads_of_not_connected hoff]
        have hnext := ih s hrunning hpending (by simp [hnone])
        rw [hstep, hnext, hnone, hnone]

end Console

end OpenMux.Clients
