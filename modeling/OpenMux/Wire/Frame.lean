import OpenMux.Lib.PyText
import OpenMux.Lib.StreamReader

/-!
# MuxCon frames

`#stream_id:TYPE:length:seq:` in ASCII, the payload, and a newline. The `create_*` functions write this form and
`parse_frame_header` reads its header.
-/

namespace OpenMux.Wire

open Py

abbrev Bytes := List UInt8

/-- A frame as `_read_frame_raw` returns it. -/
structure Frame where
  streamId : Int
  frameType : Text
  payloadLength : Int
  payload : Bytes
  seq : Int
deriving DecidableEq, Repr

/-- `f"#{stream_id}:{frame_type}:{length}:{seq}:"`. -/
def header (streamId : Int) (frameType : Text) (length : Nat) (seq : Int) : Option Text := do
  let sid ← str streamId
  let len ← str length
  let s ← str seq
  return '#' :: (sid ++ ':' :: (frameType ++ ':' :: (len ++ ':' :: (s ++ [':']))))

/-- The header in ASCII, the payload and the newline; `none` when a conversion raises. -/
def createFrame (streamId : Int) (frameType : Text) (seq : Int) (payload : Bytes) : Option Bytes := do
  let h ← header streamId frameType payload.length seq
  let b ← encodeAscii h
  return b ++ payload ++ [10]

def createControlFrame (streamId seq : Int) (payload : Text) : Option Bytes :=
  createFrame streamId ['C'] seq (encodeUtf8 payload)

/-- `upper` is `str.upper`. -/
def createCommandFrame (upper : Text → Text) (command : Text) (streamId seq : Int) (payload : Text) : Option Bytes :=
  createFrame streamId (upper command) seq (encodeUtf8 payload)

def createDataFrame (streamId seq : Int) (data : Bytes) : Option Bytes :=
  createFrame streamId ['D'] seq data

def createStreamOpenFrame (streamId seq : Int) (portName : Text) : Option Bytes :=
  createFrame streamId ['O'] seq (encodeUtf8 portName)

def createStreamCloseFrame (streamId seq : Int) (reason : Text) : Option Bytes :=
  createFrame streamId ['E'] seq (encodeUtf8 reason)

/-- The payload of an ACK is the decimal form of the acknowledged number. -/
def createAckFrame (ackedSeq seq : Int) : Option Bytes := do
  let payload ← str ackedSeq
  createFrame 0 ['A'] seq (encodeUtf8 payload)

/-- `parse_frame_header`: stream id, frame type, payload length and sequence number. -/
def parseFrameHeader (line : Bytes) : Option (Int × Text × Int × Int) := do
  let text ← decodeAscii line
  match strip text with
  | '#' :: rest =>
      match split ':' 4 rest with
      | sid :: frameType :: len :: s :: _ =>
          let streamId ← int sid
          let payloadLength ← int len
          let seq ← int s
          return (streamId, frameType, payloadLength, seq)
      | _ => none
  | _ => none

/-- One call of a `create_*` function. The heartbeat and port list functions call these. -/
inductive Call
  | control (streamId seq : Int) (payload : Text)
  | command (command : Text) (streamId seq : Int) (payload : Text)
  | data (streamId seq : Int) (payload : Bytes)
  | streamOpen (streamId seq : Int) (portName : Text)
  | streamClose (streamId seq : Int) (reason : Text)
  | ack (ackedSeq seq : Int)

namespace Call

variable (upper : Text → Text)

def encode : Call → Option Bytes
  | .control sid seq payload => createControlFrame sid seq payload
  | .command cmd sid seq payload => createCommandFrame upper cmd sid seq payload
  | .data sid seq payload => createDataFrame sid seq payload
  | .streamOpen sid seq portName => createStreamOpenFrame sid seq portName
  | .streamClose sid seq reason => createStreamCloseFrame sid seq reason
  | .ack acked seq => createAckFrame acked seq

/-- The stream id, frame type, payload and number that the call is about. -/
def sent : Call → Int × Text × Bytes × Int
  | .control sid seq payload => (sid, ['C'], encodeUtf8 payload, seq)
  | .command cmd sid seq payload => (sid, upper cmd, encodeUtf8 payload, seq)
  | .data sid seq payload => (sid, ['D'], payload, seq)
  | .streamOpen sid seq portName => (sid, ['O'], encodeUtf8 portName, seq)
  | .streamClose sid seq reason => (sid, ['E'], encodeUtf8 reason, seq)
  | .ack acked seq => (0, ['A'], encodeUtf8 ((str acked).getD []), seq)

/-- The frame type has no colon. -/
def NoColon : Call → Prop
  | .command cmd _ _ _ => ':' ∉ upper cmd
  | _ => True

end Call

end OpenMux.Wire

/-!
## Reading frames off a stream

`_read_frame_raw`: seek `#`, read on to the fourth colon, parse the header, read the payload and the newline.
-/

namespace OpenMux.Wire

/-- What a call of `_read_frame_raw` ends with: a frame, `None` for a header that does not parse, or
`IncompleteReadError`. -/
inductive ReadResult
  | frame (f : Frame)
  | invalid
  | incomplete
deriving DecidableEq, Repr

/-- Skips bytes up to and with `#`. Blank bytes and unexpected ones are passed over alike. -/
def seekStart (r : StreamReader) : Option StreamReader :=
  match h : r.readexactly 1 with
  | (none, _) => none
  | (some b, r') => if b = [35] then some r' else seekStart r'
termination_by r.rest.length
decreasing_by exact r.rest_length_of_readexactly h (by decide)

/-- Reads until four colons are in the header. -/
def readHeader (colonCount : Nat) (headerBytes : Bytes) (r : StreamReader) : Option (Bytes × StreamReader) :=
  if colonCount < 4 then
    match h : r.readexactly 1 with
    | (none, _) => none
    | (some b, r') => readHeader (if b = [58] then colonCount + 1 else colonCount) (headerBytes ++ b) r'
  else some (headerBytes, r)
termination_by r.rest.length
decreasing_by exact r.rest_length_of_readexactly h (by decide)

/-- A reader whose input ended. -/
def atEnd : StreamReader := ⟨[], []⟩

/-- `_read_frame_raw`. -/
def readFrameRaw (r : StreamReader) : ReadResult × StreamReader :=
  match seekStart r with
  | none => (.incomplete, atEnd)
  | some r₁ =>
      match readHeader 0 [35] r₁ with
      | none => (.incomplete, atEnd)
      | some (headerBytes, r₂) =>
          match parseFrameHeader headerBytes with
          | none => (.invalid, r₂)
          | some (streamId, frameType, payloadLen, seq) =>
              let (payload, r₃) := if 0 < payloadLen then r₂.readexactly payloadLen.toNat else (some [], r₂)
              match payload with
              | none => (.incomplete, r₃)
              | some payload =>
                  match r₃.readexactly 1 with
                  | (none, r₄) => (.incomplete, r₄)
                  | (some _, r₄) => (.frame ⟨streamId, frameType, payloadLen, payload, seq⟩, r₄)

/-- The results of `n` calls in a row. -/
def readFrames : Nat → StreamReader → List ReadResult
  | 0, _ => []
  | n + 1, r => (readFrameRaw r).1 :: readFrames n (readFrameRaw r).2

end OpenMux.Wire
