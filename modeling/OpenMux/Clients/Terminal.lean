import OpenMux.Clients.Uplink
import OpenMux.Lib.Brackets
import OpenMux.Lib.Lines
import OpenMux.Lib.Utf8
import OpenMux.Wire.Control

/-!
# The terminal of the console client

What the console client makes of the bytes that the server sends: the TCP adapter takes the control frames out of every read, and the
console writes the rest to the terminal, line by line in the command phase and as it comes from an attached port.
-/

namespace OpenMux.Clients

open Py JsonText
open OpenMux.Wire (Conversions bodyGet)

/-! ## The adapter -/

structure Adapter where
  isConnected : Bool := true
  ctrlRxFrag : List UInt8 := []
  currentPort : Option Text := none
  /-- Whether the access mode is read-write, when it is known. -/
  accessMode : Option Bool := none
  rwHolders : Doc := .arr []
  maxRwUsers : Doc := .null
  lastPowerReply : Option Doc := none
  lastDetachReply : Option Doc := none
  /-- The frames that were processed, in order. -/
  frames : List (List UInt8) := []

section Values

variable (V : Conversions)

/-- `str(x)`. -/
def strOf : Doc → Text
  | .str t => t
  | d => V.str d

/-- `x or []`, where `none` is what `get` gives for a key that is not there. -/
def orEmpty : Option Doc → Doc
  | some d => if V.truthy d then d else .arr []
  | none => .arr []

/-- What `for x in d` goes through, `none` when it raises. -/
def iterate : Doc → Option (List Doc)
  | .arr xs => some xs
  | .str t => some (t.map fun c => .str [c])
  | .obj es => some (es.map fun e => .str e.1)
  | _ => none

/-- `x == 0`. -/
def equalsZero : Doc → Bool
  | .int n => n = 0
  | .bool b => !b
  | .float literal => !V.floatTruthy literal
  | _ => false

/-- `render_terminal_text`. -/
def renderTerminalText (lines : Option Doc) : Option Text := do
  let lines ← iterate (orEmpty V lines)
  let text := (lines.map (strOf V)).filter (· ≠ [])
  return if text = [] then [] else "\r\n".toList ++ "\r\n".toList.intercalate text ++ "\r\n".toList

/-- `holders_text`. -/
def holdersText (holders capacity : Doc) : Option Text :=
  if equalsZero V capacity then some "Read-write is not available on this port (it has no write slot)".toList
  else if V.truthy holders then (iterate holders).map fun hs => "Read-write held by: ".toList ++ ", ".toList.intercalate (hs.map (strOf V))
  else some "No client currently holds read-write access".toList

namespace Adapter

/-- `apply_client_mode_response`. The message is `none` when the reply raises. -/
def applyClientModeResponse (a : Adapter) (payload : Doc) : Adapter × Option Text :=
  let get := fun key => (bodyGet payload key).join
  ({ a with
      accessMode := some (match get "mode".toList with | some (.str t) => t = "read-write".toList | _ => false)
      rwHolders := if (get "rw_holders".toList).isSome then orEmpty V (get "rw_holders".toList) else a.rwHolders
      maxRwUsers := (get "max_rw_users".toList).getD a.maxRwUsers },
    renderTerminalText V (get "lines".toList))

/-- `apply_rw_holders_response`. -/
def applyRwHoldersResponse (a : Adapter) (payload : Doc) : Adapter × Option Text :=
  let get := fun key => (bodyGet payload key).join
  let holders := orEmpty V (get "holders".toList)
  let a := { a with rwHolders := holders, maxRwUsers := (get "max_rw_users".toList).getD a.maxRwUsers }
  (a, (holdersText V holders a.maxRwUsers).bind fun text => renderTerminalText V (some (.arr [.str ('[' :: (text ++ [']']))])))

/-- `_process_control_frame`: what is shown, or `none` when the reply raises. -/
def processControlFrame (a : Adapter) (data : List UInt8) : Adapter × Option (List UInt8) :=
  let line := (data.drop ctrlMarker.length).takeWhile (· ≠ newline)
  let a := { a with frames := a.frames ++ [data] }
  match loads (Utf8.decodeIgnore line) with
  | some (.obj es) =>
      match (bodyGet (.obj es) "type".toList).join with
      | some (.str t) =>
          if t = "power_feeds".toList ∨ t = "power_switch".toList then ({ a with lastPowerReply := some (.obj es) }, some [])
          else if t = "detached".toList then ({ a with lastDetachReply := some (.obj es) }, some [])
          else if t = "client_mode".toList then
            let (a, message) := a.applyClientModeResponse V (.obj es)
            (a, message.map encodeUtf8)
          else if t = "rw_holders".toList then
            let (a, message) := a.applyRwHoldersResponse V (.obj es)
            (a, message.map encodeUtf8)
          else (a, some [])
      | _ => (a, some [])
  | _ => (a, some [])

/-- The frame that holds a body. -/
def frameOf (body : List UInt8) : List UInt8 := ctrlMarker ++ (body ++ [newline])

/-- What the texts and the frames of a stream do, one after the other. -/
def take (a : Adapter) : List (Brackets.Item UInt8) → Adapter × Option (List UInt8)
  | [] => (a, some [])
  | .inl b :: is =>
      let (a, text) := a.take is
      (a, text.map (b :: ·))
  | .inr body :: is =>
      match a.processControlFrame V (frameOf body) with
      | (a, none) => (a, none)
      | (a, some message) =>
          let (a, text) := a.take is
          (a, text.map (message ++ ·))

/-- The loop of `_split_control_frames` over the data from `i` on. -/
def splitLoop (a : Adapter) (out data : List UInt8) : Adapter × Option (List UInt8) :=
  match h : find ctrlMarker data with
  | none => (a, some (out ++ data))
  | some (before, rest) =>
      match hn : find [newline] rest with
      | none =>
          if rest.length ≤ ctrlFrameMax then ({ a with ctrlRxFrag := rest }, some (out ++ before))
          else (a, some (out ++ before ++ rest))
      | some (line, after) =>
          have : after.tail.length < data.length := by
            obtain ⟨rfl, -, -⟩ := find_some h
            obtain ⟨rfl, -, hne⟩ := find_some hn
            have := List.length_pos_of_ne_nil hne
            simp
            omega
          match a.processControlFrame V (line ++ [newline]) with
          | (a, none) => (a, none)
          | (a, some text) => splitLoop a (out ++ before ++ text) after.tail
termination_by data.length
decreasing_by simpa using this

/-- `_split_control_frames`. -/
def splitControlFrames (a : Adapter) (data : List UInt8) : Adapter × Option (List UInt8) :=
  if a.ctrlRxFrag ≠ [] then { a with ctrlRxFrag := [] }.splitLoop V [] (a.ctrlRxFrag ++ data)
  else if (find ctrlMarker data).isNone then (a, some data)
  else a.splitLoop V [] data

/-- `read_data` once the bytes have come. A reply that raises takes the connection down. -/
def readData (a : Adapter) (data : List UInt8) : Adapter × List UInt8 :=
  if (find ctrlMarker data).isSome ∨ a.ctrlRxFrag ≠ [] then
    match a.splitControlFrames V data with
    | (a, some out) => (a, out)
    | (a, none) => ({ a with isConnected := false }, [])
  else (a, data)

/-- The reads of a stream, as long as the connection is up. -/
def reads (a : Adapter) : List (List UInt8) → Adapter × List (List UInt8)
  | [] => (a, [])
  | c :: cs =>
      if a.isConnected then
        let (a, out) := a.readData V c
        let (a, outs) := a.reads cs
        (a, out :: outs)
      else (a, [])

/-- The reply to a frame does not raise. -/
def Answered (body : List UInt8) : Prop := ∀ a : Adapter, (a.processControlFrame V (frameOf body)).2.isSome

end Adapter

end Values

/-! ## The console -/

/-- What the terminal shows. -/
inductive Shown
  | byte (b : UInt8)
  | connected (port : Text) (readWrite : Bool)
  | readOnlyWarning
  | prompt
  | serverShutdown

structure Console where
  adapter : Adapter
  isRunning : Bool := true
  commandMode : Bool
  cmdRx : List UInt8 := []
  cmdAwaitingReply : Bool := false
  cmdQuietPolls : Nat := 0
  readOnlyMode : Bool := false
  lastSyncedAccessMode : Option Bool := none
  shown : List Shown := []

namespace Console

def carriageReturn : UInt8 := 13

def crlf : List UInt8 := [carriageReturn, newline]

/-- `data.replace(b"\r\n", b"\n").replace(b"\n", b"\r\n")`. -/
def normalized (data : List UInt8) : List UInt8 :=
  Newlines.rewrite carriageReturn newline (fun b => if b = newline then crlf else [b]) data

/-- `SERVER:SHUTDOWN`. -/
def shutdownText : List UInt8 := [83, 69, 82, 86, 69, 82, 58, 83, 72, 85, 84, 68, 79, 87, 78]

/-- `CONNECTED:`. -/
def connectedText : List UInt8 := [67, 79, 78, 78, 69, 67, 84, 69, 68, 58]

/-- `LIST:\x7b`. -/
def listText : List UInt8 := [76, 73, 83, 84, 58, 123]

def write (s : Console) (data : List UInt8) : Console := { s with shown := s.shown ++ data.map .byte }

def note (s : Console) (x : Shown) : Console := { s with shown := s.shown ++ [x] }

/-- `_sync_access_mode`. -/
def syncAccessMode (s : Console) : Console :=
  match s.adapter.accessMode with
  | none => s
  | some rw =>
      if s.lastSyncedAccessMode = some rw then s
      else
        let s := { s with lastSyncedAccessMode := some rw, readOnlyMode := !rw }
        if rw then s else s.note .readOnlyWarning

/-- `_command_attached`. -/
def commandAttached (s : Console) (line : List UInt8) : Console :=
  let parts := splitAll ':' (Utf8.decodeIgnore line)
  let port := parts[1]?.getD []
  let rw := decide (parts[2]? = some "READ_WRITE".toList)
  let s := { s with
    commandMode := false
    cmdAwaitingReply := false
    cmdRx := []
    adapter := { s.adapter with currentPort := some port, accessMode := some rw } }
  s.syncAccessMode.note (.connected port rw)

/-- `_command_reply_settle`. -/
def commandReplySettle (s : Console) : Console :=
  if s.commandMode && s.cmdAwaitingReply then
    let s := { s with cmdQuietPolls := s.cmdQuietPolls + 1 }
    if 3 ≤ s.cmdQuietPolls then { s with cmdAwaitingReply := false }.note .prompt else s
  else s

section Rendering

variable (V : Conversions)

/-- The row of `_format_list_line` for one port. -/
def listRow (p : Doc) : Option Text :=
  match p with
  | .obj es =>
      let name := V.strOr (bodyGet (.obj es) "name".toList).join
      let desc := V.strOr (bodyGet (.obj es) "description".toList).join
      if name = [] then none else some (if desc = [] then "  ".toList ++ name else "  ".toList ++ name ++ "  -  ".toList ++ desc)
  | p => some ("  ".toList ++ strOf V p)

/-- `_format_list_line`. -/
def formatListLine (line : List UInt8) : List UInt8 :=
  match loads (Utf8.decodeIgnore (line.drop 5)) with
  | some (.obj es) =>
      match iterate (orEmpty V (bodyGet (.obj es) "ports".toList).join) with
      | some ports =>
          let rows := ports.filterMap (listRow V)
          if rows = [] then encodeUtf8 "(no ports)".toList else encodeUtf8 ("\r\n".toList.intercalate rows)
      | none => line
  | _ => line

/-- `_format_command_reply_line`. -/
def formatCommandReplyLine (line : List UInt8) : List UInt8 := if listText <+: line then formatListLine V line else line

/-- `raw.rstrip(b"\r")`. -/
def rstripCr (raw : List UInt8) : List UInt8 := raw.rdropWhile (· = carriageReturn)

/-- The loop of `_read_render_command` over the whole lines, and what follows the line of an attach. -/
def renderLoop (s : Console) (out : List UInt8) : List (List UInt8) → Console × Option (List UInt8)
  | [] => (s.write out, none)
  | raw :: lines =>
      let line := rstripCr raw
      if connectedText <+: line then
        let rest := lines ++ if s.cmdRx = [] then [] else [s.cmdRx]
        (({ s with cmdRx := [] }.write out).commandAttached line, some ([newline].intercalate rest))
      else s.renderLoop (out ++ (formatCommandReplyLine V line ++ crlf)) lines

/-- `_read_render` of an attached console. -/
def readRenderPort (s : Console) (data : List UInt8) : Console :=
  if (find shutdownText data).isSome then { s with isRunning := false }.note .serverShutdown else s.write (normalized data)

/-- `_read_render_command`. -/
def readRenderCommand (s : Console) (data : List UInt8) : Console :=
  if (find shutdownText data).isSome then { s with isRunning := false }.note .serverShutdown
  else
    let (lines, tail) := Lines.cut (· = newline) (s.cmdRx ++ data)
    match { s with cmdRx := tail }.renderLoop V [] lines with
    | (s, some rawTail) => if rawTail = [] then s else s.readRenderPort rawTail
    | (s, none) => s

/-- `_read_render`. -/
def readRender (s : Console) (data : List UInt8) : Console :=
  if s.commandMode then s.readRenderCommand V data else s.readRenderPort data

/-- `_read_step` when the bytes have come, or nothing has until the timeout. -/
def readStep (s : Console) (read : Option (List UInt8)) : Console :=
  if s.isRunning && s.adapter.isConnected then
    match read with
    | none => s.commandReplySettle
    | some c =>
        let (a, data) := s.adapter.readData V c
        let s := { s with adapter := a }
        if data = [] then s.commandReplySettle else { s with cmdQuietPolls := 0 }.syncAccessMode.readRender V data
  else s

/-- `_read_from_server`. -/
def readFromServer (s : Console) (reads : List (Option (List UInt8))) : Console := reads.foldl (readStep V) s

/-! ### What the server means -/

/-- A line of the command phase that ends it. -/
def Attaches (raw : List UInt8) : Bool := connectedText <+: rstripCr raw

/-- The port and the mode of an attach. -/
def attached (raw : List UInt8) : Shown :=
  let parts := splitAll ':' (Utf8.decodeIgnore (rstripCr raw))
  .connected (parts[1]?.getD []) (parts[2]? = some "READ_WRITE".toList)

/-- How a line of the command phase is shown. -/
def reply (raw : List UInt8) : List UInt8 := formatCommandReplyLine V (rstripCr raw) ++ crlf

/-- What is to be shown of a text: in the command phase its whole lines up to that of an attach, and what follows that line as it comes
from the port. -/
def meaning (commandMode : Bool) (text : List UInt8) : List Shown :=
  if commandMode then
    let (lines, tail) := Lines.cut (· = newline) text
    match lines.dropWhile (!Attaches ·) with
    | [] => (lines.flatMap (reply V)).map .byte
    | raw :: after => ((lines.takeWhile (!Attaches ·)).flatMap (reply V)).map .byte ++
        attached raw :: (normalized (after.flatMap (· ++ [newline]) ++ tail)).map .byte
  else (normalized text).map .byte

/-- No pair of CR and LF lies across two pieces. -/
def Unparted : List (List UInt8) → Prop
  | [] => True
  | p :: ps => ¬ Newlines.Splits carriageReturn newline p ps.flatten ∧ Unparted ps

/-- The pieces of a text of which `pending` is the beginning: what comes from the port is unparted, and of the piece with the line of the
attach it does not end with a newline. -/
def Smooth (pending : List UInt8) : List (List UInt8) → Prop
  | [] => True
  | p :: ps =>
      let (lines, tail) := Lines.cut (· = newline) (pending ++ p)
      match lines.dropWhile (!Attaches ·) with
      | [] => Smooth tail ps
      | _ :: after => (after = [] ∨ tail ≠ []) ∧ Unparted ((after.flatMap (· ++ [newline]) ++ tail) :: ps)

end Rendering

/-- The terminal without what the client says on its own account. -/
def visible (xs : List Shown) : List Shown :=
  xs.filter fun
    | .readOnlyWarning => false
    | .prompt => false
    | _ => true

end Console

end OpenMux.Clients
