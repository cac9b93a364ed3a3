import OpenMux.Lib.Dict
import OpenMux.Lib.FilePath
import OpenMux.Lib.Lines
import OpenMux.Lib.PyText
import OpenMux.Lib.Run
import OpenMux.Lib.Utf8

/-!
# The line log

What the writer of the log makes of the events in its queue, which is never full here. A byte in a buffer keeps the port and the direction
that it was recorded for. Beside the logger stands a log that keeps the unfinished line of every port and direction apart, and that
finishes it when its file is closed or swapped.
-/

namespace OpenMux.Logging

open Py

/-- `in`, `out` and `meta`. -/
inductive Direction
  | inbound
  | outbound
  | lifecycle
deriving DecidableEq

/-- What the lines of a log are labelled with. -/
structure LogStream where
  port : Text
  dir : Direction
deriving DecidableEq

abbrev Tagged := UInt8 × LogStream

def isLineFeed (b : UInt8) : Bool := b = 0x0A

/-- The log settings of a port object. -/
structure PortObj where
  logFile : Option Text := none
  jsonl : Bool := false
  logDirections : List Text := []
deriving DecidableEq

structure LogEvent where
  stream : LogStream
  clientId : Text
  data : List UInt8
  /-- A copy for a mirror has none. -/
  portObj : Option PortObj
deriving DecidableEq

/-- A line of data in a file. -/
structure Line where
  path : Text
  stream : LogStream
  clientId : Text
  bytes : List Tagged
deriving DecidableEq

/-- The `text` slot of a line. -/
def lineText (bytes : List UInt8) : Text := Utf8.decode (if bytes.getLast? = some 0x0D then bytes.dropLast else bytes)

/-- The texts of the paths: the default one of a port below a base directory, and whether a path is inside the directory of the logs of
a base directory. -/
structure Layout where
  defaultPath : Option Text → Text → Text
  under : Option Text → Text → Bool

structure DataLogger where
  baseDir : Option Text := none
  queue : List LogEvent := []
  lineBuffers : Dict Text (List Tagged) := ∅
  directionCache : Dict Text (List Direction) := ∅
  mirrorMap : Dict Text Text := ∅
  /-- The data lines of all files. -/
  written : List Line := []

def parseDirection (v : Text) : Option Direction :=
  let v := (strip v).map Char.toLower
  if v = "in".toList then some .inbound else if v = "out".toList then some .outbound else none

/-- `_resolve_direction_set`. -/
def resolveDirectionSet (portObj : Option PortObj) : List Direction :=
  match (portObj.elim [] (·.logDirections)).filterMap parseDirection with
  | [] => [.inbound]
  | dirs => dirs

/-- `_resolve_path_for_port`, with the text of an explicit `log_file`. -/
def LogEvent.path (ev : LogEvent) (layout : Layout) (baseDir : Option Text) : Text :=
  match ev.portObj.bind (·.logFile) with
  | some p => p
  | none => layout.defaultPath baseDir ev.stream.port

def LogEvent.isLine (ev : LogEvent) : Bool := ev.stream.dir ≠ .lifecycle && !ev.portObj.any (·.jsonl)

namespace DataLogger

/-- `_direction_allowed`. -/
def directionAllowed (s : DataLogger) (k : LogStream) (portObj : Option PortObj) : DataLogger × Bool :=
  if k.dir = .lifecycle then (s, true)
  else match s.directionCache.get? k.port with
    | some dirs => (s, dirs.contains k.dir)
    | none =>
        ({ s with directionCache := s.directionCache.set k.port (resolveDirectionSet portObj) },
          (resolveDirectionSet portObj).contains k.dir)

/-- The events that a record puts into the queue. -/
def enqueued (s : DataLogger) (ev : LogEvent) : List LogEvent :=
  ev :: (s.mirrorMap.get? ev.stream.port).toList.map fun dst =>
    { ev with stream := { ev.stream with port := dst }, portObj := none }

/-- `record` and `record_meta`. -/
def record (s : DataLogger) (ev : LogEvent) : DataLogger :=
  match s.directionAllowed ev.stream ev.portObj with
  | (s, false) => s
  | (s, true) => if ev.stream.dir ≠ .lifecycle ∧ ev.data = [] then s else { s with queue := s.queue ++ s.enqueued ev }

def buffer (s : DataLogger) (path : Text) : List Tagged := (s.lineBuffers.get? path).getD []

/-- The bytes of the buffer and of a chunk, at their line ends. -/
def cutChunk (s : DataLogger) (path : Text) (ev : LogEvent) : List (List Tagged) × List Tagged :=
  Lines.cut (fun b => isLineFeed b.1) (s.buffer path ++ ev.data.map fun b => (b, ev.stream))

/-- `_write_line_record`. A meta event writes its line without a look at the buffer. -/
def writeLineRecord (s : DataLogger) (path : Text) (ev : LogEvent) : DataLogger :=
  if ev.stream.dir = .lifecycle then { s with lineBuffers := s.lineBuffers.set path (s.buffer path) }
  else
    { s with
      lineBuffers := s.lineBuffers.set path (s.cutChunk path ev).2
      written := s.written ++ (s.cutChunk path ev).1.map fun bytes => ⟨path, ev.stream, ev.clientId, bytes⟩ }

/-- What the writer does with an event that it has taken. -/
def write (layout : Layout) (s : DataLogger) (ev : LogEvent) : DataLogger :=
  if ev.portObj.any (·.jsonl) then s else s.writeLineRecord (ev.path layout s.baseDir) ev

/-- An empty base directory is none. -/
def normalBase (base : Option Text) : Option Text := (base.map strip).filter (· ≠ [])

/-- `set_base_dir`. -/
def setBaseDir (layout : Layout) (s : DataLogger) (base : Option Text) : DataLogger :=
  if normalBase base = s.baseDir then s
  else { s with baseDir := normalBase base, lineBuffers := s.lineBuffers.filterKeys fun path => !layout.under s.baseDir path }

/-- `close`. -/
def close (s : DataLogger) : DataLogger := { s with queue := [], lineBuffers := ∅ }

def setMirror (s : DataLogger) (src dst : Text) : DataLogger := { s with mirrorMap := s.mirrorMap.set src dst }

def clearMirror (s : DataLogger) (src : Text) (dst : Option Text) : DataLogger :=
  if dst.isSome ∧ s.mirrorMap.get? src ≠ dst then s else { s with mirrorMap := s.mirrorMap.pop src }

def invalidatePortCache (s : DataLogger) (port : Text) : DataLogger := { s with directionCache := s.directionCache.pop port }

end DataLogger

/-! ## The log as it should be -/

/-- For every port and direction the lines, the line that has no end yet, and the explicit file of its last chunk. -/
structure LineLog where
  lines : LogStream → List (List UInt8) := fun _ => []
  unfinished : LogStream → List UInt8 := fun _ => []
  logFile : LogStream → Option Text := fun _ => none

namespace LineLog

def take (l : LineLog) (ev : LogEvent) : LineLog where
  lines k := if k = ev.stream then l.lines k ++ (Lines.cut isLineFeed (l.unfinished k ++ ev.data)).1 else l.lines k
  unfinished k := if k = ev.stream then (Lines.cut isLineFeed (l.unfinished k ++ ev.data)).2 else l.unfinished k
  logFile k := if k = ev.stream then ev.portObj.bind (·.logFile) else l.logFile k

/-- The last line of some streams comes to its end, unless it is empty. -/
def finish (l : LineLog) (streams : LogStream → Bool) : LineLog :=
  { l with
    lines := fun k => if streams k ∧ l.unfinished k ≠ [] then l.lines k ++ [l.unfinished k] else l.lines k
    unfinished := fun k => if streams k then [] else l.unfinished k }

/-- The streams whose files a change of the base directory swaps or closes. -/
def swapped (l : LineLog) (layout : Layout) (baseDir : Option Text) (k : LogStream) : Bool :=
  (l.logFile k).elim true (layout.under baseDir)

end LineLog

/-- The bytes of a stream that wait in the queue for a line log. -/
def queued (queue : List LogEvent) (k : LogStream) : List UInt8 := (queue.filter fun ev => ev.isLine && ev.stream = k).flatMap (·.data)

/-- A logger and the log that it should write. -/
structure Recording where
  logger : DataLogger := {}
  log : LineLog := {}

inductive LogAct
  | record (ev : LogEvent)
  /-- The writer takes its next event. -/
  | write
  | setBaseDir (base : Option Text)
  | close
  | setMirror (src dst : Text)
  | clearMirror (src : Text) (dst : Option Text)
  | invalidatePortCache (port : Text)

namespace Recording

variable (layout : Layout)

def takeAll (l : LineLog) (queue : List LogEvent) : LineLog :=
  queue.foldl (fun l ev => if ev.isLine then l.take ev else l) l

def step (s : Recording) : LogAct → Option Recording
  | .record ev => some { s with logger := s.logger.record ev }
  | .write =>
      match s.logger.queue with
      | [] => none
      | ev :: queue => some ⟨{ s.logger with queue := queue }.write layout ev, if ev.isLine then s.log.take ev else s.log⟩
  | .setBaseDir base =>
      some ⟨s.logger.setBaseDir layout base,
        if DataLogger.normalBase base = s.logger.baseDir then s.log
        else s.log.finish (s.log.swapped layout s.logger.baseDir)⟩
  | .close => some ⟨s.logger.close, (takeAll s.log s.logger.queue).finish fun _ => true⟩
  | .setMirror src dst => some { s with logger := s.logger.setMirror src dst }
  | .clearMirror src dst => some { s with logger := s.logger.clearMirror src dst }
  | .invalidatePortCache port => some { s with logger := s.logger.invalidatePortCache port }

/-- The lines that are labelled with a stream are its lines, and all their bytes are its own. -/
def Logged (s : Recording) : Prop :=
  ∀ k, (s.logger.written.filter (·.stream = k)).map (·.bytes) = (s.log.lines k).map (List.map (·, k))

/-- A chunk with a line end meets in the buffer of its file the unfinished line of its stream and nothing else; and no line is unfinished
when its file is closed or swapped, and no data waits when the logger is closed. -/
def Clean (s : Recording) : LogAct → Prop
  | .write => ∀ ev ∈ s.logger.queue.head?, ev.isLine = true →
      Lines.Open isLineFeed ev.data ∨
        s.logger.buffer (ev.path layout s.logger.baseDir) = (s.log.unfinished ev.stream).map (·, ev.stream)
  | .setBaseDir base => DataLogger.normalBase base = s.logger.baseDir ∨
      ∀ k, s.log.swapped layout s.logger.baseDir k = true → s.log.unfinished k = []
  | .close => ∀ k, s.log.unfinished k = [] ∧ queued s.logger.queue k = []
  | _ => True

end Recording

end OpenMux.Logging

/-!
## Where the data of a port is logged

The path of a log as the file system resolves it, where no component is a link. Names come from a configuration, from a peer, from a
run of an action or from a request for the page of a log.
-/

namespace OpenMux.Logging

open Py FilePath

def ports : Text := "ports".toList

/-- `_default_path` below the base directory. -/
def defaultPath (base : Directory) (portName : Text) : Directory := resolve (base ++ [ports]) (portName ++ ".log".toList)

/-- `_resolve_path_for_port`; an explicit `log_file` is relative to the working directory. -/
def resolvePathForPort (cwd base : Directory) (logFile : Option Text) (portName : Text) : Directory :=
  match logFile with
  | some (c :: path) => resolve cwd (c :: path)
  | _ => defaultPath base portName

/-- The name that `_register_remote_port_from_dict` takes from an advertisement. -/
def advertisedName (name originalName : Option Text) : Text :=
  match name, originalName with
  | some (c :: t), _ => c :: t
  | _, some (c :: t) => c :: t
  | _, _ => "remote_port".toList

/-- `log_port_name` of a run. -/
def logPortName (portName actionId started runId : Text) : Text :=
  portName ++ "_action_".toList ++ actionId ++ ['_'] ++ started ++ ['_'] ++ runId

/-- The file that `handle_logs` reads for the name of a request; an empty name selects none. -/
def requestedPath (base : Directory) (portName : Text) : Option Directory :=
  if strip portName = [] then none else some (defaultPath base (strip portName))

/-- The log is inside the directory of the logs. -/
def Inside (base : Directory) (portName : Text) : Prop := ∃ p, p ≠ [] ∧ defaultPath base portName = base ++ ports :: p

/-- The logs of two names are inside the directory, and different ones if the names are. -/
structure Private (base : Directory) (n m : Text) : Prop where
  left : Inside base n
  right : Inside base m
  apart : n ≠ m → defaultPath base n ≠ defaultPath base m

/-- The place of a log below the base directory; `none` where the path is absolute or leaves that directory. -/
def place (portName : Text) : Option Directory :=
  if isAbsolute (portName ++ ".log".toList) then none else descend [ports] (components (portName ++ ".log".toList))

/-- The path of the log neither leaves the base directory nor ends elsewhere than below its `ports`. -/
def Stays (portName : Text) : Prop := ∃ p, p ≠ [] ∧ place portName = some (ports :: p)

end OpenMux.Logging
