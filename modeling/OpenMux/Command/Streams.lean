import OpenMux.Lib.Brackets
import OpenMux.Lib.Lines
import OpenMux.Lib.Run

/-!
# The streams of a command port

One child of a command port: what it writes, how the port reads, buffers and hands that over until the notice of its exit, and what
clients type. The record of what was read, what was there when the notice was handed over and what was typed is only looked at.
-/

namespace OpenMux.Command

def CR : UInt8 := 0x0D

def LF : UInt8 := 0x0A

/-- `ESC P + q`. -/
def startSeq : List UInt8 := [0x1B, 0x50, 0x2B, 0x71]

/-- `ESC \`. -/
def endSeq : List UInt8 := [0x1B, 0x5C]

/-- What `_intercept_xtgettcap_queries` leaves of the data. -/
def intercepted (data : List UInt8) : List UInt8 := Brackets.text startSeq endSeq data

/-- The payloads of its queries. -/
def queries (data : List UInt8) : List (List UInt8) := Brackets.held startSeq endSeq data

def response (payload : List UInt8) : List UInt8 := [0x1B, 0x50, 0x30, 0x2B, 0x72] ++ payload ++ [0x1B, 0x5C]

/-- The responses that are written, where a write can fail. -/
def responses : List (List UInt8) → List Bool → List (List UInt8)
  | payload :: payloads, ok :: writes => if ok then response payload :: responses payloads writes else responses payloads writes
  | _, _ => []

/-- `data.replace(b"\r\n", b"\n").replace(b"\r", b"\n")`. -/
def toLf (data : List UInt8) : List UInt8 := Newlines.rewrite CR LF (fun b => [if b = CR then LF else b]) data

/-- `data.replace(b"\r\n", b"\n").replace(b"\n", b"\r\n")`. -/
def toCrlf (data : List UInt8) : List UInt8 := Newlines.rewrite CR LF (fun b => if b = LF then [CR, LF] else [b]) data

structure CommandPort where
  usePty : Bool
  normalizeNewlines : Bool

namespace CommandPort

/-- The newlines of output. -/
def normalize (p : CommandPort) (data : List UInt8) : List UInt8 := if p.usePty then toCrlf data else toLf data

/-- The newlines of input. -/
def normalizeInput (p : CommandPort) (data : List UInt8) : List UInt8 :=
  if p.normalizeNewlines && !p.usePty then toLf data else data

/-- The writes of responses: on pipes there is no descriptor for them. -/
def writes (p : CommandPort) (ok : List Bool) : List Bool := if p.usePty then ok else []

end CommandPort

/-- `_output_flush_buffer_loop`. -/
inductive Flusher
  | fresh
  | waiting
  | ended
deriving DecidableEq

/-- `_monitor_loop`, with the looks that the drain has left. -/
inductive Monitor
  | watching
  | draining (looks : Nat)
  | reported
deriving DecidableEq

structure Child where
  /-- What it has written and nobody has read. -/
  unread : List UInt8 := []
  closed : Bool := false
  /-- The reader of its output is registered or runs. -/
  reading : Bool := true
  /-- The tasks of `_pty_buffer_chunk`. -/
  chunks : List (List UInt8) := []
  outputBuffer : List UInt8 := []
  flusher : Flusher
  isRunning : Bool := true
  processActive : Bool := true
  monitor : Monitor := .watching
  /-- The task of the `PROCESS_EXITED` notice. -/
  notice : Bool := false
  /-- The bytes handed to `data_callback`. -/
  sent : List UInt8 := []
  answers : List (List UInt8) := []
  writeBuffer : List UInt8 := []
  stdin : List UInt8 := []
  /-- What has been read. -/
  seen : List UInt8 := []
  /-- What had been handed over when the notice was. -/
  told : Option (List UInt8) := none
  /-- Nothing of the child is left that could run. -/
  rested : Bool := false
  /-- The input of the batches so far. -/
  taken : List UInt8 := []
deriving DecidableEq

/-- A port with a fresh child; only on a terminal is output batched. -/
def CommandPort.spawned (p : CommandPort) : Child := { flusher := if p.usePty then .fresh else .ended }

/-- What happens: the child writes, closes its output and exits; a read gets at most `n` bytes, the writes of responses succeed or not;
a task buffers its chunk; the flusher wakes up, with a time threshold passed or not; the drain wakes up; the notice is handed over; all
is over; a client types; the writer takes a batch. An exit is reported with clients attached or not. -/
inductive ChildAct
  | write (bs : List UInt8)
  | close
  | read (n : Nat) (ok : List Bool)
  | eof
  | chunk
  | batch (due : Bool)
  | exit (clients : Bool)
  | look (clients : Bool)
  | tell
  | rest
  | type (bs : List UInt8)
  | flush

namespace Child

/-- One chunk from the reader. -/
def receive (p : CommandPort) (s : Child) (data : List UInt8) (ok : List Bool) : Child :=
  let out := p.normalize (intercepted data)
  let s := { s with seen := s.seen ++ data, answers := s.answers ++ responses (queries data) (p.writes ok) }
  if p.usePty then { s with chunks := s.chunks ++ [out] } else { s with sent := s.sent ++ out, reading := s.isRunning }

/-- The buffer goes to `data_callback`. -/
def emitBuffer (s : Child) : Child := { s with sent := s.sent ++ s.outputBuffer, outputBuffer := [] }

/-- The condition of the loop of the flusher. -/
def loopFlusher (s : Child) : Child := { s with flusher := if s.isRunning && s.processActive then .waiting else .ended }

/-- What the monitor does after the drain. -/
def report (s : Child) (clients : Bool) : Child := { s with monitor := .reported, isRunning := false, notice := clients }

/-- An attempt of the drain, with `looks` more after it. -/
def drain (s : Child) (looks : Nat) (clients : Bool) : Child :=
  if s.outputBuffer ≠ [] then s.emitBuffer.report clients else { s with monitor := .draining looks }

/-- The reader can run. -/
def canRead (p : CommandPort) (s : Child) : Bool := s.reading && (s.isRunning || !p.usePty)

/-- Nothing of the child can run. -/
def isOver (p : CommandPort) (s : Child) : Bool :=
  s.monitor = .reported && !s.notice && s.chunks.isEmpty && s.flusher = .ended && (p.usePty || !s.reading)

def step (p : CommandPort) (s : Child) : ChildAct → Option Child
  | .write bs => if s.closed then none else some { s with unread := s.unread ++ bs }
  | .close => some { s with closed := true }
  | .read n ok =>
      if s.canRead p && s.unread ≠ [] && 0 < n && n ≤ 1024 then
        some ({ s with unread := s.unread.drop n }.receive p (s.unread.take n) ok)
      else none
  | .eof =>
      if s.canRead p && s.closed && s.unread = [] then some { s with reading := false, processActive := false } else none
  | .chunk => match s.chunks with
    | [] => none
    | c :: cs => some { s with outputBuffer := s.outputBuffer ++ c, chunks := cs }
  | .batch due => match s.flusher with
    | .fresh => some s.loopFlusher
    | .waiting => some (if 1024 ≤ s.outputBuffer.length || due then s.emitBuffer.loopFlusher else s.loopFlusher)
    | .ended => none
  | .exit clients => match s.monitor with
    | .watching => some ({ s with closed := true, processActive := false }.drain 9 clients)
    | _ => none
  | .look clients => match s.monitor with
    | .draining 0 => some (s.report clients)
    | .draining (k + 1) => some (s.drain k clients)
    | _ => none
  | .tell => if s.notice then some { s with notice := false, told := some s.sent } else none
  | .rest => if s.isOver p then some { s with rested := true } else none
  | .type bs => if s.processActive then some { s with writeBuffer := s.writeBuffer ++ bs } else none
  | .flush =>
      if s.writeBuffer = [] then none
      else some { s with stdin := s.stdin ++ p.normalizeInput s.writeBuffer, taken := s.taken ++ s.writeBuffer, writeBuffer := [] }

/-- What is on its way to `data_callback`. -/
def pending (s : Child) : List UInt8 := s.outputBuffer ++ s.chunks.flatten

/-- All that the child has written went all the way. -/
def Through (s : Child) : Prop := s.unread = [] ∧ s.pending = []

instance {s : Child} : Decidable s.Through := inferInstanceAs (Decidable (_ ∧ _))

/-- The streams are those of the child and of the clients, whatever the reads, the writes and the batches. -/
structure Faithful (p : CommandPort) (s : Child) : Prop where
  stream : s.sent ++ s.pending = p.normalize (intercepted s.seen)
  answered : s.answers = (queries s.seen).map response
  told : ∀ sent, s.told = some sent → sent = s.sent ∧ s.Through
  rested : s.rested = true → s.Through
  input : p.usePty = false → p.normalizeNewlines = true → s.stdin = toLf s.taken

/-- The condition on a step: a read ends neither in a query nor between the two of `\r\n`, and its queries are answered; nothing is left
of the output when the notice is handed over, or when all is over; no batch ends between the two of `\r\n`. -/
def Clean (p : CommandPort) (s : Child) : ChildAct → Prop
  | .read n ok =>
      ¬ Brackets.Cuts startSeq endSeq s.seen (s.unread.take n) ∧
        ¬ Newlines.Splits CR LF (intercepted s.seen) (intercepted (s.unread.take n)) ∧
        (p.writes ok).take (queries (s.unread.take n)).length = List.replicate (queries (s.unread.take n)).length true
  | .tell => s.Through
  | .rest => s.Through
  | .flush => p.usePty = false → p.normalizeNewlines = true → ¬ Newlines.Splits CR LF s.taken s.writeBuffer
  | _ => True

instance {p : CommandPort} {s : Child} : (a : ChildAct) → Decidable (Clean p s a)
  | .read _ _ => inferInstanceAs (Decidable (_ ∧ _ ∧ _))
  | .tell => inferInstanceAs (Decidable s.Through)
  | .rest => inferInstanceAs (Decidable s.Through)
  | .flush => inferInstanceAs (Decidable (_ → _ → _))
  | .write _ => isTrue trivial
  | .close => isTrue trivial
  | .eof => isTrue trivial
  | .chunk => isTrue trivial
  | .batch _ => isTrue trivial
  | .exit _ => isTrue trivial
  | .look _ => isTrue trivial
  | .type _ => isTrue trivial

end Child

end OpenMux.Command
