import OpenMux.Lib.JsonText
import OpenMux.Lib.Utf8
import OpenMux.Wire.Frame

/-!
# Control messages

What one node tells another in control frames: the text each sender writes, and what `_process_control_command` makes of a text.
-/

namespace Py

/-- `t.split(sep)`. -/
def splitAll (sep : Char) (t : Text) : List Text := split sep t.length t

/-- `t.rstrip()`. -/
def rstrip (t : Text) : Text := t.rdropWhile isSpace

/-- The text does not end with a blank. -/
def Kept (t : Text) : Prop := rstrip t = t

end Py

namespace OpenMux.Wire

open Py JsonText

/-- A dictionary that JSON can write, by its items. -/
abbrev JsonDict := { es : List (Text × Doc) // Doc.SoundEntries es }

/-- One entry of a presence snapshot. -/
structure Viewer where
  serverId : Text
  username : Text
  mode : Text
  ip : Text
deriving DecidableEq, Repr

inductive Control
  | authChallenge (keyId nonce : Text)
  | authResponse (keyId signature : Text)
  | authOk
  | authError (code : Text)
  | shutdownBegin (reason : Text)
  | mpathEnd
  | heartbeatRequest (ts : Int)
  | heartbeatAck (ts : Int)
  | portsFederated (ports : List JsonDict)
  | viewers (portName : Text) (entries : List Viewer)
  | portStatus (portName statusMessage readiness : Text)
  | powerState (portName ref : Text) (on : Option Bool)
  | powerSwitch (portName : Text) (sid : Int) (ref : Text) (on : Bool) (claims : List Text)
  | powerResult (sid : Int) (ok : Bool) (error : Option Text) (on : Option Bool)
  | fedrw (portName : Text) (sid : Int) (action : Text)
  | fedrwAck (portName : Text) (sid : Int) (mode : Text)

/-! ## Writing -/

def Viewer.body (v : Viewer) : List (Text × Doc) :=
  [("server_id".toList, .str v.serverId), ("username".toList, .str v.username), ("mode".toList, .str v.mode), ("ip".toList, .str v.ip)]

/-- `json.dumps` of `None`, `True` or `False`. -/
def onDoc : Option Bool → Doc
  | none => .null
  | some b => .bool b

def statusBody (statusMessage readiness : Text) : List (Text × Doc) :=
  [("status_message".toList, .str statusMessage), ("readiness".toList, .str readiness)]

def stateBody (ref : Text) (on : Option Bool) : List (Text × Doc) := [("ref".toList, .str ref), ("on".toList, onDoc on)]

/-- Empty claims are not sent. -/
def switchBody (ref : Text) (on : Bool) (claims : List Text) : List (Text × Doc) :=
  [("ref".toList, .str ref), ("on".toList, .bool on), ("claims".toList, .arr ((claims.filter (· ≠ [])).map .str))]

def resultBody (ok : Bool) (error : Option Text) (on : Option Bool) : List (Text × Doc) :=
  ("ok".toList, .bool ok) :: ((error.filter (· ≠ [])).toList.map fun e => ("error".toList, .str e)) ++
    on.toList.map fun b => ("on".toList, .bool b)

namespace Control

/-- What the text of a message begins with. -/
def marker : Control → Text
  | authChallenge .. => "AUTH:PK:CHALLENGE:".toList
  | authResponse .. => "AUTH:PK:RESPONSE:".toList
  | authOk => "AUTH:OK".toList
  | authError _ => "AUTH:ERROR".toList
  | shutdownBegin _ => "MPATH:SHUTDOWN:BEGIN".toList
  | mpathEnd => "MPATH:END".toList
  | heartbeatRequest _ => "REQ:".toList
  | heartbeatAck _ => "ACK:".toList
  | portsFederated _ => "PORTS:FEDERATED:".toList
  | viewers .. => "VIEWERS:".toList
  | portStatus .. => "PORT_STATUS:".toList
  | powerState .. => "POWER:STATE:".toList
  | powerSwitch .. => "POWER:SWITCH:".toList
  | powerResult .. => "POWER:RESULT:".toList
  | fedrw .. => "FEDRW:".toList
  | fedrwAck .. => "FEDRWACK:".toList

/-- What comes after the marker; `none` when a number cannot be printed. -/
def rest : Control → Option Text
  | authChallenge keyId nonce => some (keyId ++ ':' :: nonce)
  | authResponse keyId signature => some (keyId ++ ':' :: signature)
  | authOk | mpathEnd => some []
  | authError code => some (':' :: code)
  | shutdownBegin reason => some (if reason = [] then [] else ':' :: reason)
  | heartbeatRequest ts | heartbeatAck ts => str ts
  | portsFederated ports => do
      let count ← str ports.length
      return count ++ '\n' :: (['\n'].intercalate (ports.map fun p => (Doc.obj p.1).text) ++ "\nEND:PORTS".toList)
  | viewers portName entries =>
      some (portName ++ '\n' :: (['\n'].intercalate (entries.map fun v => (Doc.obj v.body).text) ++ "\nEND:VIEWERS".toList))
  | portStatus portName statusMessage readiness => some (portName ++ '\n' :: (Doc.obj (statusBody statusMessage readiness)).text)
  | powerState portName ref on => some (portName ++ '\n' :: (Doc.obj (stateBody ref on)).text)
  | powerSwitch portName sid ref on claims => do
      let sid ← str sid
      return portName ++ ':' :: (sid ++ '\n' :: (Doc.obj (switchBody ref on claims)).text)
  | powerResult sid ok error on => do
      let sid ← str sid
      return sid ++ '\n' :: (Doc.obj (resultBody ok error on)).text
  | fedrw portName sid action => do
      let sid ← str sid
      return portName ++ ':' :: (sid ++ ':' :: action)
  | fedrwAck portName sid mode => do
      let sid ← str sid
      return portName ++ ':' :: (sid ++ ':' :: mode)

/-- The payload that the sender writes. -/
def payload (m : Control) : Option Text := m.rest.map (m.marker ++ ·)

/-- The heartbeats travel in frames of their own. -/
def frame (m : Control) (seq : Int) : Option Bytes := do
  let payload ← m.payload
  match m with
  | heartbeatRequest _ | heartbeatAck _ => createCommandFrame (List.map Char.toUpper) "HB".toList 0 seq payload
  | _ => createControlFrame 0 seq payload

/-- What is written to a connection for messages and their sequence numbers. -/
def stream : List (Control × Int) → Option Bytes
  | [] => some []
  | (m, seq) :: ms => do
      let enc ← m.frame seq
      let rest ← stream ms
      return enc ++ rest

end Control

/-! ## Reading -/

/-- What a node acts on. The body of a power switch is judged by the handler, and of a power result the value is the state after a switch
that succeeded, or the error. -/
inductive Received
  | authChallenge (keyId nonce : Text)
  | authResponse (keyId signature : Text)
  | authOk
  | authError (code : Text)
  | shutdownBegin
  | mpathEnd
  | heartbeatRequest (raw : Text)
  | heartbeatAck (raw : Text)
  | portsFederated (ports : List (List (Text × Doc)))
  | viewers (portName : Text) (entries : List Doc)
  | portStatus (portName statusMessage readiness : Text)
  | powerState (portName ref : Text) (on : Option Bool)
  | powerSwitch (portName : Text) (sid : Int) (body : Doc)
  | powerResult (sid : Int) (ok : Bool) (value : Option Doc)
  | fedrw (portName : Text) (sid : Int) (action : Text)
  | fedrwAck (portName : Text) (sid : Int) (mode : Text)

/-- What Python makes of values that no sender here writes: `bool` of a float by its literal, and `str` of what is no string. -/
structure Conversions where
  floatTruthy : Text → Bool
  str : Doc → Text

namespace Conversions

/-- `bool(x)`. -/
def truthy (V : Conversions) : Doc → Bool
  | .null => false
  | .bool b => b
  | .int n => n ≠ 0
  | .float literal => V.floatTruthy literal
  | .str t => t ≠ []
  | .arr xs => !xs.isEmpty
  | .obj es => !es.isEmpty

/-- `str(x or "")` of what `body.get` gives. -/
def strOr (V : Conversions) : Option Doc → Text
  | none => []
  | some (.str t) => t
  | some d => if V.truthy d then V.str d else []

end Conversions

/-- `body.get(key)`; the outer `none` when the body is no dictionary. -/
def bodyGet (body : Doc) (key : Text) : Option (Option Doc) :=
  match body with
  | .obj es => some ((es.reverse.find? fun e => e.1 = key).map Prod.snd)
  | _ => none

/-- The lines of a payload, the first one without the marker it has to begin with. -/
def linesAfter (marker payload : Text) : Option (Text × List Text) :=
  match splitAll '\n' payload with
  | first :: lines => (first.dropPrefix? marker).map fun name => (name, lines)
  | [] => none

/-- The lines up to the end marker that are not blank, without the blanks around them. -/
def linesUntil (endMarker : Text) (lines : List Text) : List Text :=
  ((lines.map strip).takeWhile (· ≠ endMarker)).filter (· ≠ [])

def loadsObject (line : Text) : Option (List (Text × Doc)) :=
  match loads line with
  | some (.obj es) => some es
  | _ => none

/-- `_ports_federated_payload_ports`: a line that is no JSON object is skipped. -/
def parsePortsFederated (payload : Text) : Option (List (List (Text × Doc))) :=
  (linesAfter "PORTS:FEDERATED:".toList payload).map fun (_, lines) => (linesUntil "END:PORTS".toList lines).filterMap loadsObject

/-- `_parse_viewers_frame`. -/
def parseViewersFrame (payload : Text) : Option (Text × List Doc) := do
  let (portName, lines) ← linesAfter "VIEWERS:".toList payload
  let entries ← (linesUntil "END:VIEWERS".toList lines).mapM loads
  return (portName, entries)

/-- The JSON body in the second line. -/
def lineBody (lines : List Text) : Option Doc := do
  let line ← lines.head?
  if strip line = [] then none else loads line

/-- `_parse_port_status_frame`. -/
def parsePortStatusFrame (V : Conversions) (payload : Text) : Option (Text × Text × Text) := do
  let (portName, lines) ← linesAfter "PORT_STATUS:".toList payload
  let body ← lineBody lines
  let statusMessage ← bodyGet body "status_message".toList
  let readiness ← bodyGet body "readiness".toList
  return (portName, V.strOr statusMessage, V.strOr readiness)

/-- `_parse_power_state_frame`. -/
def parsePowerStateFrame (V : Conversions) (payload : Text) : Option (Text × Text × Option Bool) := do
  let (portName, lines) ← linesAfter "POWER:STATE:".toList payload
  let body ← lineBody lines
  let ref := V.strOr (← bodyGet body "ref".toList)
  if ref = [] then none
  else
    let on ← bodyGet body "on".toList
    return (portName, ref, match on with
      | some (.bool b) => some b
      | _ => none)

/-- The first line, and the JSON body in all that follows it. -/
def headerBody (payload : Text) : Option (Text × Doc) :=
  match split '\n' 1 payload with
  | [header, rest] => if strip rest = [] then some (header, .obj []) else (loads rest).map fun body => (header, body)
  | [header] => some (header, .obj [])
  | _ => none

/-- `_parse_power_switch_frame`. -/
def parsePowerSwitchFrame (payload : Text) : Option (Text × Int × Doc) := do
  let (header, body) ← headerBody payload
  match split ':' 1 (header.drop "POWER:SWITCH:".toList.length) with
  | [portName, sid] =>
      let sid ← int sid
      return (portName, sid, body)
  | _ => none

/-- What `_handle_power_result_frame` reads. -/
def parsePowerResultFrame (V : Conversions) (payload : Text) : Option (Int × Bool × Option Doc) := do
  let (header, body) ← headerBody payload
  let sid ← int (header.drop "POWER:RESULT:".toList.length)
  let ok ← bodyGet body "ok".toList
  if (ok.map V.truthy).getD false then
    let on ← bodyGet body "on".toList
    return (sid, true, on)
  else
    let error ← bodyGet body "error".toList
    return (sid, false, error)

/-- The port, the stream and the last part of a `FEDRW:` or `FEDRWACK:` payload. -/
def parseFedrw (payload : Text) : Option (Text × Int × Text) :=
  match split ':' 3 payload with
  | [_, portName, sid, last] => (int sid).map fun sid => (portName, sid, last)
  | _ => none

/-- `_ctl_auth`; `none` for a form that it does not know. -/
def ctlAuth (payload : Text) : Option Received :=
  let parts := splitAll ':' payload
  let part := fun i => (parts[i]?).getD []
  if part 1 = "PK".toList ∧ 5 ≤ parts.length ∧ part 2 = "CHALLENGE".toList then some (.authChallenge (part 3) (part 4))
  else if part 1 = "PK".toList ∧ 5 ≤ parts.length ∧ part 2 = "RESPONSE".toList then some (.authResponse (part 3) (part 4))
  else if payload = "AUTH:OK".toList then some .authOk
  else if "AUTH:ERROR".toList.isPrefixOf payload then some (.authError (if 3 ≤ parts.length then part 2 else "unknown".toList))
  else none

/-- What follows the `n`-th colon. -/
def afterColon (n : Nat) (payload : Text) : Text := ((split ':' n payload)[n]?).getD []

/-- `_ctl_dispatch` for an authenticated peer. -/
def ctlDispatch (V : Conversions) (payload : Text) : Option Received :=
  if "MPATH:SHUTDOWN:BEGIN".toList.isPrefixOf payload then some .shutdownBegin
  else if payload = "MPATH:END".toList then some .mpathEnd
  else if "REQ:".toList.isPrefixOf payload then some (.heartbeatRequest (afterColon 1 payload))
  else if "HB:REQ:".toList.isPrefixOf payload then some (.heartbeatRequest (afterColon 2 payload))
  else if "ACK:".toList.isPrefixOf payload then some (.heartbeatAck (afterColon 1 payload))
  else if "HB:ACK:".toList.isPrefixOf payload then some (.heartbeatAck (afterColon 2 payload))
  else if payload = "PORTS:LIST:FEDERATED".toList then none
  else if "PORTS:FEDERATED:".toList.isPrefixOf payload then (parsePortsFederated payload).map .portsFederated
  else if "VIEWERS:".toList.isPrefixOf payload then (parseViewersFrame payload).map fun (name, entries) => .viewers name entries
  else if "PORT_STATUS:".toList.isPrefixOf payload then
    (parsePortStatusFrame V payload).map fun (name, statusMessage, readiness) => .portStatus name statusMessage readiness
  else if "POWER:STATE:".toList.isPrefixOf payload then (parsePowerStateFrame V payload).map fun (name, ref, on) => .powerState name ref on
  else if "POWER:SWITCH:".toList.isPrefixOf payload then (parsePowerSwitchFrame payload).map fun (name, sid, body) => .powerSwitch name sid body
  else if "POWER:RESULT:".toList.isPrefixOf payload then (parsePowerResultFrame V payload).map fun (sid, ok, value) => .powerResult sid ok value
  else if "FEDRW:".toList.isPrefixOf payload then (parseFedrw payload).map fun (name, sid, action) => .fedrw name sid action
  else if "FEDRWACK:".toList.isPrefixOf payload then (parseFedrw payload).map fun (name, sid, mode) => .fedrwAck name sid mode
  else none

/-- `_process_control_command`. -/
def processControlCommand (V : Conversions) (text : Text) : Option Received :=
  let payload := strip text
  if "AUTH:".toList.isPrefixOf payload then
    match ctlAuth payload with
    | some received => some received
    | none => ctlDispatch V payload
  else ctlDispatch V payload

/-- What a node acts on when it reads a frame that is no data, stream or ACK frame. -/
def receive (V : Conversions) : ReadResult → Option Received
  | .frame f => if f.frameType = ['C'] ∨ f.frameType = "HB".toList then processControlCommand V (Utf8.decodeIgnore f.payload) else none
  | _ => none

/-! ## What is carried -/

namespace Control

/-- What the other node is to act on. -/
def received : Control → Received
  | authChallenge keyId nonce => .authChallenge keyId nonce
  | authResponse keyId signature => .authResponse keyId signature
  | authOk => .authOk
  | authError code => .authError code
  | shutdownBegin _ => .shutdownBegin
  | mpathEnd => .mpathEnd
  | heartbeatRequest ts => .heartbeatRequest (decimal ts)
  | heartbeatAck ts => .heartbeatAck (decimal ts)
  | portsFederated ports => .portsFederated (ports.map Subtype.val)
  | viewers portName entries => .viewers portName (entries.map fun v => .obj v.body)
  | portStatus portName statusMessage readiness => .portStatus portName statusMessage readiness
  | powerState portName ref on => .powerState portName ref on
  | powerSwitch portName sid ref on claims => .powerSwitch portName sid (.obj (switchBody ref on claims))
  | powerResult sid ok error on => .powerResult sid ok (if ok then on.map .bool else (error.filter (· ≠ [])).map .str)
  | fedrw portName sid action => .fedrw portName sid action
  | fedrwAck portName sid mode => .fedrwAck portName sid mode

/-- No part of the message holds what ends the part. -/
def Carried : Control → Prop
  | authChallenge keyId value | authResponse keyId value => ':' ∉ keyId ∧ ':' ∉ value ∧ Kept value
  | authError code => ':' ∉ code ∧ Kept code
  | viewers portName _ | portStatus portName _ _ => '\n' ∉ portName
  | powerState portName ref _ => '\n' ∉ portName ∧ ref ≠ []
  | powerSwitch portName .. => ':' ∉ portName ∧ '\n' ∉ portName
  | fedrw portName _ last | fedrwAck portName _ last => ':' ∉ portName ∧ Kept last
  | _ => True

end Control

/-- The marker of the messages that are acted on so. -/
def Received.marker : Received → Text
  | authChallenge .. => "AUTH:PK:CHALLENGE:".toList
  | authResponse .. => "AUTH:PK:RESPONSE:".toList
  | authOk => "AUTH:OK".toList
  | authError _ => "AUTH:ERROR".toList
  | shutdownBegin => "MPATH:SHUTDOWN:BEGIN".toList
  | mpathEnd => "MPATH:END".toList
  | heartbeatRequest _ => "REQ:".toList
  | heartbeatAck _ => "ACK:".toList
  | portsFederated _ => "PORTS:FEDERATED:".toList
  | viewers .. => "VIEWERS:".toList
  | portStatus .. => "PORT_STATUS:".toList
  | powerState .. => "POWER:STATE:".toList
  | powerSwitch .. => "POWER:SWITCH:".toList
  | powerResult .. => "POWER:RESULT:".toList
  | fedrw .. => "FEDRW:".toList
  | fedrwAck .. => "FEDRWACK:".toList

end OpenMux.Wire
