import OpenMux.Lib.PyBytes
import OpenMux.Lib.PyText

/-!
# The uplink of a TCP client

What the client listener does with the bytes that an attached client sends: control frames are cut out of each chunk and
the rest is written to the port, until a detach hands the stream back to the command phase. What a control frame asks of
the console manager, and the replies, are left out, as is the notice after a write that was refused. No send fails.
-/

namespace OpenMux.Clients

open Py

/-- `CTRL_MARKER`: a NUL and `OMXCTRL `. -/
def ctrlMarker : List UInt8 := [0, 79, 77, 88, 67, 84, 82, 76, 32]

/-- `_CTRL_FRAME_MAX`. -/
def ctrlFrameMax : Nat := 65536

def newline : UInt8 := 10

/-- A byte that was written to a port, or a control frame that was handled. -/
inductive Served
  | byte (port : Text) (b : UInt8)
  | control (frame : List UInt8)
deriving DecidableEq

structure ClientSession where
  connected : Bool := true
  connectedPort : Option Text := none
  detachRequested : Bool := false
  ctrlRxFrag : List UInt8 := []
  /-- What was served, in order. -/
  served : List Served := []
deriving DecidableEq

section Requests

-- The `type` of the request in the body of a frame, `none` when the body is no JSON object.
variable (requestType : List UInt8 → Option Text)

namespace ClientSession

/-- `_ctrl_detach_reply`. -/
def ctrlDetachReply (s : ClientSession) : ClientSession :=
  if s.connectedPort.isSome then { s with detachRequested := true, connectedPort := none } else s

/-- `_ctrl_dispatch`. -/
def ctrlDispatch (s : ClientSession) (type : Text) : ClientSession :=
  if type = ['d', 'e', 't', 'a', 'c', 'h'] then s.ctrlDetachReply else s

/-- `_ctrl_parse_request`. -/
def ctrlParseRequest (data : List UInt8) : Option Text :=
  requestType ((data.drop ctrlMarker.length).takeWhile (· ≠ newline))

/-- `_handle_control_frame` for data that begins with the marker. -/
def handleControlFrame (s : ClientSession) (data : List UInt8) : ClientSession :=
  let s := { s with served := s.served ++ [.control data] }
  match ctrlParseRequest requestType data with
  | none => s
  | some type => s.ctrlDispatch type

/-- The loop of `_extract_control_frames` over the data from `i` on. -/
def extractLoop (s : ClientSession) (out data : List UInt8) : ClientSession × List UInt8 :=
  match h : find ctrlMarker data with
  | none => (s, out ++ data)
  | some (before, rest) =>
      match hn : find [newline] rest with
      | none =>
          if rest.length ≤ ctrlFrameMax then ({ s with ctrlRxFrag := rest }, out ++ before)
          else (s, out ++ before ++ rest)
      | some (line, after) =>
          have : after.tail.length < data.length := by
            obtain ⟨rfl, -, -⟩ := find_some h
            obtain ⟨rfl, -, hne⟩ := find_some hn
            have := List.length_pos_of_ne_nil hne
            simp
            omega
          extractLoop (s.handleControlFrame requestType (line ++ [newline])) (out ++ before) after.tail
termination_by data.length
decreasing_by simpa using this

/-- `_extract_control_frames`. -/
def extractControlFrames (s : ClientSession) (data : List UInt8) : ClientSession × List UInt8 :=
  extractLoop requestType { s with ctrlRxFrag := [] } [] (s.ctrlRxFrag ++ data)

/-- `write_to_port` for the attached port. -/
def writeToPort (s : ClientSession) (data : List UInt8) : ClientSession :=
  match s.connectedPort with
  | some port => { s with served := s.served ++ data.map (.byte port) }
  | none => s

/-- `forward_bytes_to_port`. -/
def forwardBytesToPort (s : ClientSession) (data : List UInt8) : ClientSession :=
  if s.connectedPort.isNone then s
  else if (find ctrlMarker data).isSome ∨ s.ctrlRxFrag ≠ [] then
    let (s, data) := s.extractControlFrames requestType data
    if data = [] then s else s.writeToPort data
  else s.writeToPort data

/-- `handle_character_mode` over the chunks that the reads return, and the chunks that it leaves unread. -/
def handleCharacterMode (s : ClientSession) : List (List UInt8) → ClientSession × List (List UInt8)
  | [] => if s.connected && s.connectedPort.isSome then ({ s with connected := false }, []) else (s, [])
  | c :: cs =>
      if s.connected && s.connectedPort.isSome then (s.forwardBytesToPort requestType c).handleCharacterMode cs
      else (s, c :: cs)

end ClientSession

/-- One round of `handle_client_protocol` for a client that has just attached: what was served, and the bytes that are left
to the command phase if the session returns to it. -/
def handleClientProtocol (port : Text) (chunks : List (List UInt8)) : List Served × Option (List UInt8) :=
  let (s, unread) := ClientSession.handleCharacterMode requestType { connectedPort := some port } chunks
  (s.served, if s.connected && s.detachRequested then some unread.flatten else none)

/-! ## What a client means -/

/-- A keystroke byte, or a control frame with its body. -/
inductive Token
  | key (b : UInt8)
  | frame (body : List UInt8)
deriving DecidableEq

namespace Token

def encode : Token → List UInt8
  | key b => [b]
  | frame body => ctrlMarker ++ (body ++ [newline])

def encodeAll (ts : List Token) : List UInt8 := ts.flatMap encode

def isFrame : Token → Bool
  | key _ => false
  | frame _ => true

/-- A frame that asks for a detach. -/
def detaches : Token → Bool
  | key _ => false
  | frame body => requestType body = some ['d', 'e', 't', 'a', 'c', 'h']

/-- Frames are single lines, and no marker begins at a keystroke. -/
def WellFormed : List Token → Prop
  | [] => True
  | key b :: ts => ¬ ctrlMarker <+: b :: encodeAll ts ∧ WellFormed ts
  | frame body :: ts => newline ∉ body ∧ WellFormed ts

/-- What is to be served for a token. -/
def serve (port : Text) : Token → Served
  | key b => .byte port b
  | frame body => .control (ctrlMarker ++ (body ++ [newline]))

/-- Everything up to the first detach is served in order, and what follows it is left to the command phase. -/
def meaning (port : Text) : List Token → List Served × Option (List UInt8)
  | [] => ([], none)
  | t :: ts =>
      if t.detaches requestType then ([t.serve port], some (encodeAll ts))
      else (t.serve port :: (meaning port ts).1, (meaning port ts).2)

/-! ## Chunks that are served as meant -/

/-- The tokens that end within the first `n` bytes, those that do not, and how many of the bytes belong to the latter. -/
def whole : List Token → Nat → List Token × List Token × Nat
  | [], n => ([], [], n)
  | t :: ts, n =>
      if t.encode.length ≤ n then
        let (w, r, h) := whole ts (n - t.encode.length)
        (t :: w, r, h)
      else ([], t :: ts, n)

/-- A frame that is cut is not cut in its marker and is not too long so far. -/
def CutWell (held : Nat) : Prop := held = 0 ∨ ctrlMarker.length ≤ held ∧ held ≤ ctrlFrameMax

/-- In a chunk no keystroke comes before the end of a frame, and a detach is the last thing. `held` bytes of a frame that
does not end in the chunk are at its end. -/
def Tidy : List Token → Nat → Prop
  | [], held => CutWell held
  | key _ :: w, held => (∀ t ∈ w, ¬ t.isFrame) ∧ CutWell held
  | t :: w, held => if t.detaches requestType then w = [] ∧ held = 0 else Tidy w held

/-- Every chunk up to the first detach is tidy, where `held` bytes of the first frame came with the chunks before. -/
def Clean : List Token → Nat → List (List UInt8) → Prop
  | _, _, [] => True
  | ts, held, c :: cs =>
      let (w, r, h) := whole ts (held + c.length)
      Tidy requestType w h ∧ ((∀ t ∈ w, ¬ t.detaches requestType) → Clean r h cs)

end Token

end Requests

end OpenMux.Clients
