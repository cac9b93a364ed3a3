import OpenMux.Clients.Lemmas.Cuttings
import OpenMux.Clients.Lemmas.Terminal
import OpenMux.Clients.Lemmas.Uplink

/-!
# What becomes of the bytes between a client and the server
-/

namespace OpenMux.Clients

open Py

/-! ## TCP clients -/

/-- A client is served as it means, with every byte after a detach left to the command phase, exactly when its chunks are
clean. -/
theorem handleClientProtocol_iff (requestType : List UInt8 → Option Text) (port : Text) {ts : List Token}
    {chunks : List (List UInt8)} (hts : Token.WellFormed ts) (hchunks : chunks.flatten = Token.encodeAll ts) :
    handleClientProtocol requestType port chunks = Token.meaning requestType port ts ↔
      Token.Clean requestType ts 0 chunks := by
  refine Iff.trans ?_ (ClientSession.handleCharacterMode_iff (s := { connectedPort := some port }) chunks rfl rfl rfl hts
    hchunks.symm fun t ts' _ => List.length_pos_of_ne_nil t.encode_ne_nil)
  simp [handleClientProtocol, Prod.ext_iff]

/-- The body `{"type":"detach"}`. -/
def detachBody : List UInt8 := [123, 34, 116, 121, 112, 101, 34, 58, 34, 100, 101, 116, 97, 99, 104, 34, 125]

/-- A JSON reader for the one request. -/
def detachOnly (body : List UInt8) : Option Text :=
  if body = detachBody then some ['d', 'e', 't', 'a', 'c', 'h'] else none

theorem handleClientProtocol_iff_detach :
    handleClientProtocol detachOnly ['t'] [[97], (Token.frame detachBody).encode] =
        Token.meaning detachOnly ['t'] [.key 97, .frame detachBody] ↔
      Token.Clean detachOnly [.key 97, .frame detachBody] 0 [[97], (Token.frame detachBody).encode] :=
  handleClientProtocol_iff detachOnly ['t'] ⟨by decide, by decide, trivial⟩ (by decide)

/-- A keystroke in one chunk with the detach after it is lost. -/
theorem handleClientProtocol_detach_fails :
    Token.WellFormed [.key 97, .frame detachBody] ∧
      handleClientProtocol detachOnly ['t'] [Token.encodeAll [.key 97, .frame detachBody]] =
        ([.control (Token.frame detachBody).encode], some []) ∧
      Token.meaning detachOnly ['t'] [.key 97, .frame detachBody] =
        ([.byte ['t'] 97, .control (Token.frame detachBody).encode], some []) := by
  have hloop : ClientSession.extractLoop detachOnly { connectedPort := some ['t'] } []
      (97 :: ((Token.frame detachBody).encode ++ [])) =
        (({ connectedPort := some ['t'] } : ClientSession).handleControlFrame detachOnly (Token.frame detachBody).encode, [97]) := by
    rw [ClientSession.extractLoop_key (by decide), ClientSession.extractLoop_frame (by decide),
      ClientSession.extractLoop_none rfl]
    rfl
  refine ⟨⟨by decide, by decide, trivial⟩, ?_, by decide⟩
  unfold handleClientProtocol ClientSession.handleCharacterMode
  rw [if_pos (by rfl), ClientSession.forwardBytesToPort_eq rfl]
  have hextract : ({ connectedPort := some ['t'] } : ClientSession).extractControlFrames detachOnly
      (Token.encodeAll [.key 97, .frame detachBody]) = _ := hloop
  rw [hextract]
  decide

/-! ## Telnet and SSH sessions -/

/-- A session does what its stream means exactly when the chunks are clean, so the ways of cutting a stream agree exactly when
all of them are clean. The uses of the stream take every byte once, but for those after the end of the session. -/
theorem pump_iff (l : Listener) (telnet skip : Bool) (char1 char2 : UInt8) {bytes : List UInt8} {chunks : List (List Cell)}
    (hcut : Cut bytes chunks) :
    (((Session.start telnet skip char1 char2 chunks).pump l).log =
        (Scanner.start skip char1 char2).meaning l telnet (stream bytes) ↔
      (Scanner.start skip char1 char2).Clean l telnet chunks) ∧
    ((∀ cs ds, Cut bytes cs → Cut bytes ds → ((Session.start telnet skip char1 char2 cs).pump l).log =
        ((Session.start telnet skip char1 char2 ds).pump l).log) ↔
      ∀ cs, Cut bytes cs → (Scanner.start skip char1 char2).Clean l telnet cs) ∧
    ∃ rest, ((Scanner.start skip char1 char2).run l telnet (stream bytes)).2.flatMap Use.bytes ++
        ((Scanner.start skip char1 char2).run l telnet (stream bytes)).1.pending ++ rest = bytes ∧
      (((Scanner.start skip char1 char2).run l telnet (stream bytes)).1.phase ≠ .stopped → rest = []) := by
  exact ⟨pump_start_iff hcut, cuttings_agree_iff, start_accounts⟩

/-- The bytes `\x05 c f x \r`, which promote the session after the answer `x`. -/
def promoteStream : List UInt8 := [5, 99, 102, 120, 13]

theorem pump_iff_promote : Cut promoteStream [(stream promoteStream).take 3, (stream promoteStream).drop 3] ∧
    (((Session.start true false 5 99 [(stream promoteStream).take 3, (stream promoteStream).drop 3]).pump
        { readOnly := false, power := .notConfigured }).log =
        (Scanner.start false 5 99).meaning { readOnly := false, power := .notConfigured } true (stream promoteStream) ↔
      (Scanner.start false 5 99).Clean { readOnly := false, power := .notConfigured } true
        [(stream promoteStream).take 3, (stream promoteStream).drop 3]) :=
  ⟨by decide, (pump_iff { readOnly := false, power := .notConfigured } true false 5 99 (by decide)).1⟩

/-- The answer is taken for an answer or goes to the port, as it is read. -/
theorem pump_depends_on_chunks : Cut promoteStream [(stream promoteStream).take 3, (stream promoteStream).drop 3] ∧
    Cut promoteStream [stream promoteStream] ∧
    ((Session.start true false 5 99 [(stream promoteStream).take 3, (stream promoteStream).drop 3]).pump
      { readOnly := false, power := .notConfigured }).log = [.command 5 99 102, .answer ⟨3, 120⟩, .answer ⟨4, 13⟩] ∧
    ((Session.start true false 5 99 [stream promoteStream]).pump
      { readOnly := false, power := .notConfigured }).log = [.command 5 99 102, .data 120, .data 13] := by
  decide

/-! ## The terminal of the console client -/

section Terminal

variable {V : OpenMux.Wire.Conversions} {a : Adapter} {chunks : List (List UInt8)}

/-- However the bytes from the server are cut into reads, the client processes the frames that it sent, one after the other, exactly if no
read ends within a frame of which nothing is held back, in its marker or too far behind it; and then the reads give what the texts and the
frames of the stream give in order, but for what is held back at the end. -/
theorem reads_iff (hconnected : a.isConnected = true) (hfrag : a.ctrlRxFrag = []) (hframes : a.frames = [])
    (hanswered : ∀ body ∈ Brackets.held ctrlMarker [newline] chunks.flatten, Adapter.Answered V body) :
    ((a.reads V chunks).1.frames = (Brackets.held ctrlMarker [newline] chunks.flatten).map Adapter.frameOf ↔
        Brackets.Unbroken ctrlMarker [newline] ctrlFrameMax [] chunks) ∧
      (Brackets.Unbroken ctrlMarker [newline] ctrlFrameMax [] chunks → ∃ is,
        Brackets.items ctrlMarker [newline] chunks.flatten = is ++ (a.reads V chunks).1.ctrlRxFrag.map .inl ∧
          a.take V is = ({ (a.reads V chunks).1 with ctrlRxFrag := [] }, some (a.reads V chunks).2.flatten)) := by
  have hnil : Brackets.first ctrlMarker [newline] [] = none := rfl
  have hself : ({ a with ctrlRxFrag := [] } : Adapter) = a := by rw [← hfrag]
  have hwhole : Brackets.Unbroken ctrlMarker [newline] ctrlFrameMax [] chunks → ∃ a' text,
      a.take V (Brackets.itemsOfChunks ctrlMarker [newline] ctrlFrameMax [] chunks).1.flatten = (a', some text) ∧
        (a.reads V chunks).1 = { a' with ctrlRxFrag := (Brackets.itemsOfChunks ctrlMarker [newline] ctrlFrameMax [] chunks).2 } ∧
        (a.reads V chunks).2.flatten = text := by
    intro hu
    have hsegments := Brackets.segments_of_unbroken frameSeparators hnil hu
    have hsome : (a.take V (Brackets.itemsOfChunks ctrlMarker [newline] ctrlFrameMax [] chunks).1.flatten).2.isSome :=
      Adapter.take_isSome (by rw [hsegments]; exact hanswered) a
    obtain ⟨text, htext⟩ := Option.isSome_iff_exists.mp hsome
    have ht : ({ a with ctrlRxFrag := [] } : Adapter).take V (Brackets.itemsOfChunks ctrlMarker [newline] ctrlFrameMax a.ctrlRxFrag chunks).1.flatten =
        ((a.take V (Brackets.itemsOfChunks ctrlMarker [newline] ctrlFrameMax [] chunks).1.flatten).1, some text) := by
      rw [hself, hfrag, ← htext]
    have hreads := Adapter.reads_eq hconnected ht
    rw [hfrag] at hreads
    exact ⟨_, text, by rw [← htext], hreads.1, hreads.2⟩
  refine ⟨⟨fun heq => ?_, fun hu => ?_⟩, fun hu => ?_⟩
  · have hfront := Adapter.reads_frames_front V a chunks
    rw [heq, hframes, hfrag, List.nil_append, List.prefix_map_iff_of_injective Adapter.frameOf_injective] at hfront
    exact Brackets.unbroken_of_segments frameSeparators hnil hfront
  · obtain ⟨a', text, ht, ha, -⟩ := hwhole hu
    rw [ha]
    dsimp only
    rw [(Adapter.take_done ht).2, hframes, List.nil_append, Brackets.segments_of_unbroken frameSeparators hnil hu, List.nil_append]
  · obtain ⟨a', text, ht, ha, hout⟩ := hwhole hu
    have hrest : a'.ctrlRxFrag = [] := by rw [(Adapter.take_done ht).1, hfrag]
    refine ⟨(Brackets.itemsOfChunks ctrlMarker [newline] ctrlFrameMax [] chunks).1.flatten, ?_, ?_⟩
    · rw [ha]
      exact (Brackets.itemsOfChunks_of_unbroken frameSeparators hnil hu).symm
    · rw [ht, hout, ha, ← hrest]

/-- However the server's bytes are cut into reads, with timeouts between them, the terminal shows what the text of the reads means exactly if
the text is smooth: no pair of CR and LF from the port lies across two reads, and the read with the line of the attach does not end with a
newline from the port. -/
theorem readFromServer_iff {s : Console} {reads : List (Option (List UInt8))} (hrunning : s.isRunning = true) (hrx : s.cmdRx = [])
    (hshutdown : find Console.shutdownText (s.adapter.reads V reads.reduceOption).2.flatten = none) :
    Console.visible (s.readFromServer V reads).shown =
        Console.visible s.shown ++ Console.meaning V s.commandMode (s.adapter.reads V reads.reduceOption).2.flatten ↔
      if s.commandMode then Console.Smooth [] (s.adapter.reads V reads.reduceOption).2
      else Console.Unparted (s.adapter.reads V reads.reduceOption).2 := by
  have hopen : Lines.Open (· = newline) s.cmdRx := by simp [hrx, Lines.Open]
  have hpieces : ∀ p ∈ (s.adapter.reads V reads.reduceOption).2, find Console.shutdownText p = none := fun p hp =>
    Console.find_none_within (by decide) hshutdown (List.infix_of_mem_flatten hp)
  rw [Console.readFromServer_shown V s reads hrunning hopen hpieces, List.append_cancel_left_eq, hrx]
  cases hmode : s.commandMode with
  | true =>
      have hnone : Lines.Open (· = newline) ([] : List UInt8) := fun _ h => by cases h
      simpa using Console.shownBy_iff V hnone
  | false =>
      rw [Console.shownBy_port, ← Console.flatMap_normalized_iff]
      simp [Console.meaning, Console.byte_injective.list_map.eq_iff]

/-- Conversions that are right where every value of a frame is a string, as in the reads below. -/
def stringsOnly : OpenMux.Wire.Conversions where
  floatTruthy _ := true
  str
    | .str t => t
    | _ => []

/-- A reply of the command phase, the line of an attach with the first bytes from the port, and more of them after a timeout. -/
def attachReads : List (Option (List UInt8)) :=
  [some [111, 107, 13], some ([10] ++ Console.connectedText ++ [112, 10, 97, 13]), none, some [10, 98]]

/-- The newline after the first bytes is shown with a second CR. -/
theorem readFromServer_iff_attachReads :
    Console.visible (({ adapter := {}, commandMode := true } : Console).readFromServer stringsOnly attachReads).shown =
        Console.visible [] ++ Console.meaning stringsOnly true (({} : Adapter).reads stringsOnly attachReads.reduceOption).2.flatten ↔
      if true then Console.Smooth [] (({} : Adapter).reads stringsOnly attachReads.reduceOption).2
      else Console.Unparted (({} : Adapter).reads stringsOnly attachReads.reduceOption).2 :=
  readFromServer_iff (s := { adapter := {}, commandMode := true }) rfl rfl rfl

/-- A read that ends behind the marker of a frame, and one with the rest of it. -/
def twoReads : List (List UInt8) := [97 :: ctrlMarker, [123, 125, 10, 98]]

theorem reads_iff_twoReads :
    ((({} : Adapter).reads stringsOnly twoReads).1.frames = (Brackets.held ctrlMarker [newline] twoReads.flatten).map Adapter.frameOf ↔
        Brackets.Unbroken ctrlMarker [newline] ctrlFrameMax [] twoReads) ∧
      (Brackets.Unbroken ctrlMarker [newline] ctrlFrameMax [] twoReads → ∃ is,
        Brackets.items ctrlMarker [newline] twoReads.flatten = is ++ (({} : Adapter).reads stringsOnly twoReads).1.ctrlRxFrag.map .inl ∧
          ({} : Adapter).take stringsOnly is =
            ({ (({} : Adapter).reads stringsOnly twoReads).1 with ctrlRxFrag := [] },
              some (({} : Adapter).reads stringsOnly twoReads).2.flatten)) := by
  refine reads_iff rfl rfl rfl fun body hbody a => ?_
  have hheld : Brackets.held ctrlMarker [newline] twoReads.flatten = [[123, 125]] := by decide
  rw [hheld, List.mem_singleton] at hbody
  subst hbody
  rfl

end Terminal

end OpenMux.Clients
