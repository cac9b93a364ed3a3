import OpenMux.Lib.PyText
import OpenMux.Lib.Run
import OpenMux.Lib.Utf8

/-!
# What a script reads

The buffer of the session of a script: `expect` waits for a pattern in its text and drops what it matched. A ledger of the bytes
stands beside it.
-/

namespace OpenMux.Actions

open Py

/-- A compiled pattern: where its first match in a text starts and ends. -/
structure Regex where
  search : Text → Option (Nat × Nat)
  bounds : ∀ t start stop, search t = some (start, stop) → start ≤ stop ∧ stop ≤ t.length

structure ActionSession where
  buffer : List UInt8 := []
  /-- The chunks that the port has delivered. -/
  queue : List (List UInt8) := []
  /-- The client of the run is attached to the port. -/
  attached : Bool := true
  /-- The pattern of an `expect` that waits. -/
  waiting : Option Regex := none

namespace ActionSession

/-- `_consume`. -/
def consume (s : ActionSession) (text : Text) (stop : Nat) : ActionSession :=
  { s with buffer := s.buffer.drop (encodeUtf8 (text.take stop)).length }

/-- Searches the buffer; the text of the match is what `expect` returns. -/
def search (s : ActionSession) (r : Regex) : ActionSession × Option Text :=
  let text := Utf8.decode s.buffer
  match r.search text with
  | some (start, stop) => ({ s.consume text stop with waiting := none }, some ((text.take stop).drop start))
  | none => (s, none)

/-- `expect` up to its first wait. It raises where it neither matches nor has a queue. -/
def expect (s : ActionSession) (r : Regex) : ActionSession × Option Text :=
  match s.search r with
  | (t, some text) => (t, some text)
  | (t, none) => if t.attached then ({ t with waiting := some r }, none) else (t, none)

/-- An `expect` that waits gets a chunk. -/
def receive (s : ActionSession) (r : Regex) (chunk : List UInt8) (chunks : List (List UInt8)) : ActionSession × Option Text :=
  search { s with buffer := s.buffer ++ chunk, queue := chunks } r

/-- What `read_buffer` takes from the queue. -/
def queued (s : ActionSession) : List UInt8 := if s.attached then s.queue.flatten else []

/-- `read_buffer`. -/
def readBuffer (s : ActionSession) (consume : Bool) : ActionSession × Text :=
  let buffer := s.buffer ++ s.queued
  ({ s with buffer := if consume then [] else buffer, queue := if s.attached then [] else s.queue }, Utf8.decode buffer)

/-- `clear_buffer`. -/
def clearBuffer (s : ActionSession) : ActionSession := { s with buffer := [] }

end ActionSession

inductive ReadAct
  /-- The port delivers a chunk. -/
  | deliver (chunk : List UInt8)
  | detach
  | expect (r : Regex)
  /-- The `expect` that waits gets the first chunk of the queue. -/
  | receive
  | timeout
  | readBuffer (consume : Bool)
  | clearBuffer

/-- A session with the bytes that it has taken from its queue, and those that were read into text which the script has consumed. -/
structure Ledger where
  session : ActionSession := {}
  taken : List UInt8 := []
  used : List UInt8 := []

/-- The bytes that the text up to the end of the match was decoded from. -/
def Regex.matchedBytes (r : Regex) (buffer : List UInt8) : List UInt8 :=
  match r.search (Utf8.decode buffer) with
  | some (_, stop) => ((Utf8.pieces buffer).take stop).flatMap Utf8.Piece.bytes
  | none => []

/-- Nothing is matched; or each byte sequence before the end of the match that is replaced is as long as what replaces it, three bytes;
or the match ends at the end of the buffer. -/
def Regex.Exact (r : Regex) (buffer : List UInt8) : Prop :=
  match r.search (Utf8.decode buffer) with
  | some (_, stop) => (∀ p ∈ (Utf8.pieces buffer).take stop, p.SameLength) ∨ (Utf8.pieces buffer).length ≤ stop
  | none => True

namespace Ledger

def step (s : Ledger) : ReadAct → Option Ledger
  | .deliver chunk =>
      if s.session.attached then some { s with session := { s.session with queue := s.session.queue ++ [chunk] } } else none
  | .detach => some { s with session := { s.session with attached := false } }
  | .expect r =>
      if s.session.waiting.isNone then
        some { s with session := (s.session.expect r).1, used := s.used ++ r.matchedBytes s.session.buffer }
      else none
  | .receive =>
      match s.session.waiting, s.session.queue with
      | some r, chunk :: chunks =>
          some {
            session := (s.session.receive r chunk chunks).1
            taken := s.taken ++ chunk
            used := s.used ++ r.matchedBytes (s.session.buffer ++ chunk) }
      | _, _ => none
  | .timeout => if s.session.waiting.isSome then some { s with session := { s.session with waiting := none } } else none
  | .readBuffer consume =>
      if s.session.waiting.isNone then
        some {
          session := (s.session.readBuffer consume).1
          taken := s.taken ++ s.session.queued
          used := s.used ++ if consume then s.session.buffer ++ s.session.queued else [] }
      else none
  | .clearBuffer =>
      if s.session.waiting.isNone then
        some { s with session := s.session.clearBuffer, used := s.used ++ s.session.buffer }
      else none

/-- The buffer holds exactly the bytes that come after those that were consumed. -/
def Whole (s : Ledger) : Prop := s.used ++ s.session.buffer = s.taken

/-- A match is exact where it is made. -/
def Clean (s : Ledger) : ReadAct → Prop
  | .expect r => r.Exact s.session.buffer
  | .receive => ∀ r chunk chunks, s.session.waiting = some r → s.session.queue = chunk :: chunks → r.Exact (s.session.buffer ++ chunk)
  | _ => True

end Ledger

end OpenMux.Actions
