import OpenMux.Lib.PyText
import OpenMux.Lib.Transducer

/-!
# The protocol handlers of a TCP initiator port

What a handler does to the bytes of a connection. A port has one handler, which it keeps from one connection to the next.
-/

namespace OpenMux.Protocols

open Py

/-- `_iac_state` of the stripper. -/
inductive IacState
  | data
  | iac
  | iacOption
  | subneg
  | subnegIac
deriving DecidableEq

def IAC : UInt8 := 0xFF
def SB : UInt8 := 0xFA
def SE : UInt8 := 0xF0
def optionCmds : List UInt8 := [0xFB, 0xFC, 0xFD, 0xFE]

/-- `_strip_iac_command_byte`. -/
def stripIacCommandByte (b : UInt8) : IacState × List UInt8 :=
  if b = IAC then (.data, [IAC])
  else if b = SB then (.subneg, [])
  else if b ∈ optionCmds then (.iacOption, [])
  else (.data, [])

/-- `_strip_one_byte`. -/
def stripOneByte (state : IacState) (b : UInt8) : IacState × List UInt8 :=
  match state with
  | .data => if b = IAC then (.iac, []) else (.data, [b])
  | .iac => stripIacCommandByte b
  | .iacOption => (.data, [])
  | .subneg => if b = IAC then (.subnegIac, []) else (.subneg, [])
  | .subnegIac => if b = SE then (.data, []) else (.subneg, [])

/-- `TelnetIacStripper.strip`. -/
def strip (state : IacState) (data : List UInt8) : IacState × List UInt8 := Transducer.run stripOneByte state data

structure PlainHandler where
  telnetNegotiation : Text
  iacState : IacState := .data

/-- `PlainHandler.decode`. -/
def PlainHandler.decode (h : PlainHandler) (data : List UInt8) : PlainHandler × List UInt8 :=
  if h.telnetNegotiation ≠ "strip".toList then (h, data)
  else ({ h with iacState := (strip h.iacState data).1 }, (strip h.iacState data).2)

structure ConserverHandler where
  pendingIac : Bool := false

/-- One byte of `ConserverHandler.decode`. -/
def decodeByte (pendingIac : Bool) (b : UInt8) : Bool × List UInt8 :=
  if pendingIac then (false, if b = IAC then [IAC] else [])
  else if b = IAC then (true, [])
  else (false, [b])

/-- `ConserverHandler.decode`. -/
def ConserverHandler.decode (h : ConserverHandler) (data : List UInt8) : ConserverHandler × List UInt8 :=
  (⟨(Transducer.run decodeByte h.pendingIac data).1⟩, (Transducer.run decodeByte h.pendingIac data).2)

/-- `ConserverHandler.encode`. -/
def ConserverHandler.encode (data : List UInt8) : List UInt8 :=
  if IAC ∉ data then data else data.flatMap fun b => if b = IAC then [b, IAC] else [b]

inductive Handler
  | plain (h : PlainHandler)
  | conserver (h : ConserverHandler)

/-- The `protocol` of a port. -/
inductive Protocol
  | plain (telnetNegotiation : Text)
  | conserver

/-- `get_handler`. -/
def getHandler : Protocol → Handler
  | .plain telnetNegotiation => .plain { telnetNegotiation := telnetNegotiation }
  | .conserver => .conserver {}

namespace Handler

def decode : Handler → List UInt8 → Handler × List UInt8
  | .plain h, data => (.plain (h.decode data).1, (h.decode data).2)
  | .conserver h, data => (.conserver (h.decode data).1, (h.decode data).2)

/-- What `_read_loop` hands on of the chunks of a connection. -/
def readLoop (h : Handler) (chunks : List (List UInt8)) : Handler × List UInt8 := Transducer.runChunks decode h chunks

/-- The handler after some connections of its port. -/
def connections (h : Handler) (conns : List (List (List UInt8))) : Handler := conns.foldl (fun h chunks => (h.readLoop chunks).1) h

/-- No command is unfinished. -/
def AtRest : Handler → Prop
  | .plain h => h.telnetNegotiation = "strip".toList → h.iacState = .data
  | .conserver h => h.pendingIac = false

end Handler

end OpenMux.Protocols
