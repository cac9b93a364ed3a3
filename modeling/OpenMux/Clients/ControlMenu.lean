import OpenMux.Lib.PyText

/-!
# The Control menu of a telnet or SSH session

How a listener session scans what its client sends: bytes for the port, the escape sequence, and the commands, some of which
read answers from the transport themselves. Each byte carries its place in the stream, which only the log shows. What a
command asks of the console manager and what it prints are left out; writes to the port do not raise.
-/

namespace OpenMux.Clients

open Py

/-- A byte of a stream. -/
structure Cell where
  pos : Nat
  val : UInt8
deriving DecidableEq

/-- What was done with a byte. -/
inductive Use
  | data (b : UInt8)
  | command (char1 char2 cmd : UInt8)
  | escapePair (x y : Cell)
  | answer (c : Cell)
  | lineFeed
deriving DecidableEq

/-! ## Transports -/

/-- The transport of a session. The chunks are what the reads of the stream return, and bytes that are pushed back are a chunk
before them. -/
structure Transport where
  telnet : Bool
  chunks : List (List Cell)
  skipLineFeed : Bool := false
deriving DecidableEq

namespace Transport

def lf : UInt8 := 10

def cr : UInt8 := 13

/-- Puts a chunk back if anything is left of it. -/
def unread (t : Transport) (data : List Cell) : Transport :=
  if data = [] then t else { t with chunks := data :: t.chunks }

/-- `_take`. -/
def take (t : Transport) (n : Nat) : List Cell × Transport :=
  match t.chunks with
  | [] => ([], t)
  | c :: cs => (c.take n, ({ t with chunks := cs } : Transport).unread (c.drop n))

/-- `read`. Only a telnet transport is ever told to skip a line feed. -/
def read (t : Transport) (n : Nat) : List Cell × Transport :=
  let (chunk, t') := t.take n
  match chunk with
  | c :: rest =>
      if t.skipLineFeed && c.val = lf then (({ t' with skipLineFeed := false } : Transport).unread rest).take n
      else (chunk, { t' with skipLineFeed := false })
  | [] => ([], { t' with skipLineFeed := false })

/-- The bytes still to be read. -/
def size (t : Transport) : Nat := t.chunks.flatten.length

/-- The loop of the telnet `readexactly`, with what it has; `none` at the end of input. Every round reads a byte. -/
def readexactlyLoop : Nat → Transport → List Cell → Nat → Option (List Cell) × Transport
  | 0, t, data, n => (if n ≤ data.length then some data else none, t)
  | fuel + 1, t, data, n =>
      if n ≤ data.length then (some data, t)
      else
        let (chunk, t) := t.read (n - data.length)
        if chunk = [] then (none, t) else readexactlyLoop fuel t (data ++ chunk) n

/-- `readexactly`; `none` when it raises. The SSH transport reads once. -/
def readexactly (t : Transport) (n : Nat) : Option (List Cell) × Transport :=
  if t.telnet then readexactlyLoop n t [] n
  else
    let (data, t) := t.read n
    if data.length < n then (none, t) else (some data, t)

/-- `drop_line_feed`, which only the telnet transport has. -/
def dropLineFeed (t : Transport) : Transport := if t.telnet then { t with skipLineFeed := true } else t

end Transport

/-! ## Escape sequences -/

structure EscapeState where
  escapeChar1 : UInt8 := 5
  escapeChar2 : UInt8 := 99
  state : Nat := 0
deriving DecidableEq

/-- `feed_escape_byte`: the bytes to forward and the command that is complete. -/
def feedEscapeByte (s : EscapeState) (b : UInt8) : EscapeState × List UInt8 × Option UInt8 :=
  if s.state = 0 then
    if b = s.escapeChar1 then ({ s with state := 1 }, [], none) else (s, [b], none)
  else if s.state = 1 then
    if b = s.escapeChar2 then ({ s with state := 2 }, [], none) else ({ s with state := 0 }, [s.escapeChar1, b], none)
  else ({ s with state := 0 }, [], some b)

/-! ## Sessions -/

/-- The power management of a port: none, or an adapter and whether the port has feeds. -/
inductive Power
  | notConfigured
  | noFeeds
  | feeds
deriving DecidableEq

structure Listener where
  readOnly : Bool
  power : Power
deriving DecidableEq

structure Session where
  escape : EscapeState
  transport : Transport
  log : List Use := []
deriving DecidableEq

/-- What a line means to the power menu. `raises` is a digit that `int` does not take. -/
inductive Entry
  | exit
  | again
  | raises
deriving DecidableEq

/-- The text of bytes in latin1. -/
def latin1 (line : List UInt8) : Text := line.map fun b => Char.ofNat b.toNat

/-- The latin1 digits that are not decimal: the superscripts. -/
def isSuperscript (c : Char) : Bool := c = '²' || c = '³' || c = '¹'

/-- The entry of a line: `isdigit` takes superscripts and `int` does not. -/
def entryOf (line : List UInt8) : Entry :=
  let text := strip (latin1 line)
  if text = [] then .exit
  else if (text.all fun c => c.isDigit || isSuperscript c) && text.any isSuperscript then .raises
  else .again

namespace Session

def use (s : Session) (us : List Use) : Session := { s with log := s.log ++ us }

/-- The loop of `read_prompt_line`: the line, and whether the client is still there. Every round reads a byte. -/
def readPromptLoop : Nat → Session → List UInt8 → (List UInt8 × Bool) × Session
  | 0, s, line => ((line, false), s)
  | fuel + 1, s, line =>
      match s.transport.read 1 with
      | ([], t) => ((line, false), { s with transport := t })
      | (c :: _, t) =>
          let s := ({ s with transport := t } : Session).use [.answer c]
          if c.val = Transport.cr then ((line, true), { s with transport := s.transport.dropLineFeed })
          else if c.val = Transport.lf then ((line, true), s)
          else if c.val = 127 ∨ c.val = 8 then readPromptLoop fuel s line.dropLast
          else readPromptLoop fuel s (line ++ [c.val])

/-- `read_prompt_line`. -/
def readPromptLine (s : Session) : (List UInt8 × Bool) × Session := readPromptLoop (s.transport.size + 1) s []

/-- The loop of `run_power_menu` over the feeds of the port; `true` when it raises. Every round reads a byte. -/
def powerMenuLoop : Nat → Session → Bool × Session
  | 0, s => (false, s)
  | fuel + 1, s =>
      match s.readPromptLine with
      | ((_, false), s) => (false, s)
      | ((line, true), s) =>
          match entryOf line with
          | .exit => (false, s)
          | .raises => (true, s)
          | .again => powerMenuLoop fuel s

/-- `run_power_menu`; `true` when it raises. -/
def runPowerMenu (s : Session) : Power → Bool × Session
  | .notConfigured => (false, s)
  | .noFeeds => (false, s.readPromptLine.2)
  | .feeds => powerMenuLoop (s.transport.size + 1) s

/-- `_handle_control_command`; `true` when the session stops pumping. -/
def handleControlCommand (l : Listener) (s : Session) (cmd : UInt8) : Bool × Session :=
  if cmd = 102 then (false, if l.readOnly then s else s.readPromptLine.2)
  else if cmd = 112 then s.runPowerMenu l.power
  else if cmd = 46 then (true, s)
  else (false, s)

/-- Sets the escape sequence. -/
def setEscape (s : Session) (x y : Cell) : Session :=
  { s with escape := { s.escape with escapeChar1 := x.val, escapeChar2 := y.val } }.use [.escapePair x y]

/-- `_change_escape_sequence` with the bytes of the chunk that are left: the bytes to go on with. -/
def changeEscapeSequence (s : Session) (data : List Cell) : List Cell × Session :=
  match data with
  | x :: y :: data => (data, s.setEscape x y)
  | _ =>
      let (more, t) := s.transport.readexactly (2 - data.length)
      let s := { s with transport := t }
      match data ++ more.getD [] with
      | x :: y :: data => (data, s.setEscape x y)
      | _ => ([], s)

/-- `_forward_payload`. -/
def forwardPayload (s : Session) (payload : List UInt8) : Session := s.use (payload.map .data)

/-- The loop of `_process_input_chunk` over what is left of the chunk; `true` when the session stops pumping. Every round takes
a byte of it. -/
def processLoop (l : Listener) : Nat → Session → List UInt8 → List Cell → Bool × Session
  | 0, s, _, _ => (true, s)
  | fuel + 1, s, payload, data =>
      match data with
      | [] => (false, if payload = [] then s else s.forwardPayload payload)
      | b :: data =>
          let (escape, extra, cmd) := feedEscapeByte s.escape b.val
          let s' := { s with escape := escape }
          let payload := payload ++ extra
          match cmd with
          | none => processLoop l fuel s' payload data
          | some cmd =>
              let s' := if payload = [] then s' else s'.forwardPayload payload
              let s' := s'.use [.command s.escape.escapeChar1 s.escape.escapeChar2 cmd]
              if cmd = 101 then
                let (data, s') := s'.changeEscapeSequence data
                processLoop l fuel s' [] data
              else
                let (stop, s') := s'.handleControlCommand l cmd
                if stop then (true, s') else processLoop l fuel s' [] data

/-- `_process_input_chunk`. -/
def processInputChunk (l : Listener) (s : Session) (data : List Cell) : Bool × Session :=
  processLoop l (data.length + 1) s [] data

/-- The loop of `pump`. Every round reads a byte. -/
def pumpLoop (l : Listener) : Nat → Session → Session
  | 0, s => s
  | fuel + 1, s =>
      let (data, t) := s.transport.read 4096
      let s := { s with transport := t }
      if data = [] then s
      else
        let (stop, s) := s.processInputChunk l data
        if stop then s else pumpLoop l fuel s

/-- `pump`. -/
def pump (l : Listener) (s : Session) : Session := pumpLoop l (s.transport.size + 1) s

end Session

end OpenMux.Clients

/-!
## Scanning byte by byte

What the bytes of a telnet or SSH session mean, as an automaton over the stream that knows nothing of chunks, and the chunks
for which the pump does what they mean.
-/

namespace OpenMux.Clients

/-- A prompt that asks once, and the power menu, which asks again. -/
inductive Prompt
  | once
  | menu
deriving DecidableEq

/-- What the next byte is taken for. -/
inductive Phase
  | scan
  /-- A byte of the new escape sequence, of which the first may have come. -/
  | escape (first : Option Cell)
  | line (prompt : Prompt) (text : List UInt8)
  | stopped
deriving DecidableEq

structure Scanner where
  escape : EscapeState
  phase : Phase := .scan
  skipLineFeed : Bool := false
deriving DecidableEq

namespace Scanner

variable (l : Listener) (telnet : Bool)

/-- What follows a command. -/
def begin (cmd : UInt8) : Phase :=
  if cmd = 101 then .escape none
  else if cmd = 102 then if l.readOnly then .scan else .line .once []
  else if cmd = 112 then
    match l.power with
    | .notConfigured => .scan
    | .noFeeds => .line .once []
    | .feeds => .line .menu []
  else if cmd = 46 then .stopped
  else .scan

/-- What follows an answer. -/
def after : Prompt → List UInt8 → Phase
  | .once, _ => .scan
  | .menu, text =>
      match entryOf text with
      | .exit => .scan
      | .again => .line .menu []
      | .raises => .stopped

/-- Takes a byte that is not the line feed of an answer. -/
def take (σ : Scanner) (c : Cell) : Scanner × List Use :=
  match σ.phase with
  | .stopped => (σ, [])
  | .scan =>
      let (escape, extra, cmd) := feedEscapeByte σ.escape c.val
      match cmd with
      | none => ({ σ with escape := escape }, extra.map .data)
      | some cmd => ({ σ with escape := escape, phase := begin l cmd },
          extra.map .data ++ [.command σ.escape.escapeChar1 σ.escape.escapeChar2 cmd])
  | .escape none => ({ σ with phase := .escape (some c) }, [])
  | .escape (some x) => ({ σ with
      escape := { σ.escape with escapeChar1 := x.val, escapeChar2 := c.val }
      phase := .scan }, [.escapePair x c])
  | .line prompt text =>
      if c.val = Transport.cr then ({ σ with phase := after prompt text, skipLineFeed := telnet }, [.answer c])
      else if c.val = Transport.lf then ({ σ with phase := after prompt text }, [.answer c])
      else if c.val = 127 ∨ c.val = 8 then ({ σ with phase := .line prompt text.dropLast }, [.answer c])
      else ({ σ with phase := .line prompt (text ++ [c.val]) }, [.answer c])

def step (σ : Scanner) (c : Cell) : Scanner × List Use :=
  if σ.phase ≠ .stopped ∧ σ.skipLineFeed ∧ c.val = Transport.lf then ({ σ with skipLineFeed := false }, [.lineFeed])
  else ({ σ with skipLineFeed := false } : Scanner).take l telnet c

def run (σ : Scanner) : List Cell → Scanner × List Use
  | [] => (σ, [])
  | c :: cs =>
      let (τ, us) := (σ.step l telnet c).1.run cs
      (τ, (σ.step l telnet c).2 ++ us)

/-- What a stream means: the uses of its bytes but for the line feeds that belong to an answer. -/
def meaning (σ : Scanner) (cs : List Cell) : List Use := (σ.run l telnet cs).2.filter (· ≠ .lineFeed)

/-! ## Chunks that are scanned as meant -/

/-- The byte is a command that asks for an answer. -/
def Asks (σ : Scanner) (c : Cell) : Prop := σ.phase = .scan ∧ ∃ prompt text, (σ.step l telnet c).1.phase = .line prompt text

/-- The byte is the command that changes the escape sequence. -/
def Changes (σ : Scanner) (c : Cell) : Prop := σ.phase = .scan ∧ (σ.step l telnet c).1.phase = .escape none

/-- In a chunk, a command that asks for an answer is the last byte. Over SSH, no chunk of one byte follows the command that
changes the escape sequence where that is the last byte, but for the last chunk of all. -/
def CleanChunk (next : List (List Cell)) : Scanner → List Cell → Prop
  | _, [] => True
  | σ, c :: cs => (σ.Asks l telnet c → cs = []) ∧
      (telnet = false → σ.Changes l telnet c → cs = [] → ∀ x rest, next = [x] :: rest → rest = []) ∧
      CleanChunk next (σ.step l telnet c).1 cs

def Clean : Scanner → List (List Cell) → Prop
  | _, [] => True
  | σ, c :: cs => σ.CleanChunk l telnet cs c ∧ Clean (σ.run l telnet c).1 cs

/-! ## Bytes that are used -/

/-- The bytes that have been taken for something that is not complete yet. -/
def pending (σ : Scanner) : List UInt8 :=
  match σ.phase with
  | .scan => [σ.escape.escapeChar1, σ.escape.escapeChar2].take σ.escape.state
  | .escape (some x) => [x.val]
  | _ => []

end Scanner

/-- The bytes of a use. -/
def Use.bytes : Use → List UInt8
  | .data b => [b]
  | .command char1 char2 cmd => [char1, char2, cmd]
  | .escapePair x y => [x.val, y.val]
  | .answer c => [c.val]
  | .lineFeed => [Transport.lf]

/-! ## Streams -/

/-- A stream with the place of each byte. -/
def stream (bytes : List UInt8) : List Cell := bytes.zipIdx.map fun b => ⟨b.2, b.1⟩

/-- The chunks that the reads of a stream may return. -/
def Cut (bytes : List UInt8) (chunks : List (List Cell)) : Prop :=
  chunks.flatten = stream bytes ∧ ∀ c ∈ chunks, c ≠ [] ∧ c.length ≤ 4096

instance (bytes : List UInt8) (chunks : List (List Cell)) : Decidable (Cut bytes chunks) := inferInstanceAs (Decidable (_ ∧ _))

/-- A session that begins to pump. -/
def Session.start (telnet skipLineFeed : Bool) (char1 char2 : UInt8) (chunks : List (List Cell)) : Session where
  escape := { escapeChar1 := char1, escapeChar2 := char2 }
  transport := { telnet := telnet, chunks := chunks, skipLineFeed := skipLineFeed }

/-- The scanner of such a session. -/
def Scanner.start (skipLineFeed : Bool) (char1 char2 : UInt8) : Scanner where
  escape := { escapeChar1 := char1, escapeChar2 := char2 }
  skipLineFeed := skipLineFeed

end OpenMux.Clients
