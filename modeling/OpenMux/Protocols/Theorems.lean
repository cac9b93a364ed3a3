import OpenMux.Protocols.Handlers

/-!
# Handlers and the connections of their port
-/

namespace OpenMux.Protocols

open Py

namespace Handler

variable {h : Handler}

/-! ## Chunks -/

theorem PlainHandler.decode_of_strip {h : PlainHandler} (hs : h.telnetNegotiation = "strip".toList) (data : List UInt8) :
    h.decode data = ({ h with iacState := (strip h.iacState data).1 }, (strip h.iacState data).2) :=
  if_neg (not_not.mpr hs)

theorem PlainHandler.decode_of_not_strip {h : PlainHandler} (hs : h.telnetNegotiation ≠ "strip".toList) (data : List UInt8) :
    h.decode data = (h, data) :=
  if_pos hs

theorem PlainHandler.decode_append (h : PlainHandler) (c d : List UInt8) :
    h.decode (c ++ d) = (((h.decode c).1.decode d).1, (h.decode c).2 ++ ((h.decode c).1.decode d).2) := by
  by_cases hs : h.telnetNegotiation = "strip".toList
  · have hnext : { h with iacState := (strip h.iacState c).1 }.telnetNegotiation = "strip".toList := hs
    rw [decode_of_strip hs, decode_of_strip hs, decode_of_strip hnext]
    simp [strip, Transducer.run_append]
  · rw [decode_of_not_strip hs, decode_of_not_strip hs, decode_of_not_strip hs]

theorem ConserverHandler.decode_append (h : ConserverHandler) (c d : List UInt8) :
    h.decode (c ++ d) = (((h.decode c).1.decode d).1, (h.decode c).2 ++ ((h.decode c).1.decode d).2) := by
  simp [ConserverHandler.decode, Transducer.run_append]

theorem decode_append (c d : List UInt8) :
    h.decode (c ++ d) = (((h.decode c).1.decode d).1, (h.decode c).2 ++ ((h.decode c).1.decode d).2) := by
  cases h with
  | plain h => simp [decode, PlainHandler.decode_append]
  | conserver h => simp [decode, ConserverHandler.decode_append]

theorem decode_nil : h.decode [] = (h, []) := by
  cases h with
  | plain h =>
      by_cases hs : h.telnetNegotiation = "strip".toList
      · rw [decode, PlainHandler.decode_of_strip hs]
        rfl
      · rw [decode, PlainHandler.decode_of_not_strip hs]
  | conserver h => rfl

/-- A connection is decoded as its whole stream is, however it is cut. -/
theorem readLoop_eq (chunks : List (List UInt8)) : h.readLoop chunks = h.decode chunks.flatten :=
  Transducer.runChunks_eq (fun _ => decode_nil) (fun _ => decode_append) chunks

/-! ## Round trips -/

theorem ConserverHandler.encode_eq (data : List UInt8) :
    ConserverHandler.encode data = data.flatMap fun b => if b = IAC then [b, IAC] else [b] := by
  unfold ConserverHandler.encode
  split
  · rename_i hfree
    induction data with
    | nil => rfl
    | cons b bs ih =>
        obtain ⟨hb, hbs⟩ := not_or.mp (mt List.mem_cons.mpr hfree)
        rw [List.flatMap_cons, if_neg (Ne.symm hb), ← ih hbs, List.singleton_append]
  · rfl

theorem run_decodeByte_encode (data : List UInt8) : Transducer.run decodeByte false (ConserverHandler.encode data) = (false, data) := by
  rw [ConserverHandler.encode_eq]
  induction data with
  | nil => rfl
  | cons b bs ih =>
      rw [List.flatMap_cons, Transducer.run_append]
      by_cases hb : b = IAC
      · subst hb
        rw [if_pos rfl]
        have hpair : Transducer.run decodeByte false [IAC, IAC] = (false, [IAC]) := by decide
        rw [hpair, ih]
        rfl
      · rw [if_neg hb]
        have hone : Transducer.run decodeByte false [b] = (false, [b]) := by simp [Transducer.run, decodeByte, hb]
        rw [hone, ih]
        rfl

/-- What is encoded in pieces is decoded as a whole. -/
theorem conserver_decode_encode (pieces : List (List UInt8)) :
    decode (.conserver {}) (pieces.flatMap ConserverHandler.encode) = (.conserver {}, pieces.flatten) := by
  have hrun : Transducer.run decodeByte false (pieces.flatMap ConserverHandler.encode) = (false, pieces.flatten) := by
    induction pieces with
    | nil => rfl
    | cons d ds ih => rw [List.flatMap_cons, Transducer.run_append, run_decodeByte_encode, ih, List.flatten_cons]
  simp only [decode, ConserverHandler.decode, hrun]

/-! ## Connections -/

/-- The handler of the same protocol that no connection has used. -/
def unused : Handler → Handler
  | .plain h => .plain { h with iacState := .data }
  | .conserver _ => .conserver {}

theorem unused_decode (data : List UInt8) : (h.decode data).1.unused = h.unused := by
  cases h with
  | plain h =>
      by_cases hs : h.telnetNegotiation = "strip".toList
      · rw [decode, PlainHandler.decode_of_strip hs]
        rfl
      · rw [decode, PlainHandler.decode_of_not_strip hs]
  | conserver h => rfl

theorem unused_connections (conns : List (List (List UInt8))) : (h.connections conns).unused = h.unused := by
  induction conns generalizing h with
  | nil => rfl
  | cons chunks conns ih =>
      show (((h.readLoop chunks).1).connections conns).unused = h.unused
      rw [ih, readLoop_eq, unused_decode]

/-- A handler is at rest exactly if it decodes every stream as an unused one does. -/
theorem atRest_iff : h.AtRest ↔ ∀ data, (h.decode data).2 = (h.unused.decode data).2 := by
  cases h with
  | plain h =>
      obtain ⟨negotiation, state⟩ := h
      by_cases hs : negotiation = "strip".toList
      · subst hs
        constructor
        · intro hrest data
          have hstate : state = .data := hrest rfl
          rw [hstate]
          rfl
        · intro hall _
          -- a letter is kept only where no command is unfinished
          have hletter := hall [65]
          cases state with
          | data => rfl
          | _ => exact absurd hletter (by decide)
      · apply iff_of_true
        · exact fun h => absurd h hs
        · intro data
          rw [decode, unused, decode, PlainHandler.decode_of_not_strip hs, PlainHandler.decode_of_not_strip hs]
  | conserver h =>
      obtain ⟨pending⟩ := h
      cases pending with
      | false => simp [AtRest, unused]
      | true => exact iff_of_false (by simp [AtRest]) fun hall => absurd (hall [65]) (by decide)

/-! ## Escaping -/

theorem decode_escaped (data : List UInt8) :
    Transducer.run decodeByte false (data.flatMap fun b => if b = IAC then [b, IAC] else [b]) = (false, data) := by
  induction data with
  | nil => rfl
  | cons b data ih =>
      by_cases hb : b = IAC
      · subst hb
        simp [Transducer.run_cons, decodeByte, ih]
      · simp [Transducer.run_cons, decodeByte, hb, ih]

/-- Data without the escape byte is escaped as it is. -/
theorem encode_eq (data : List UInt8) :
    ConserverHandler.encode data = data.flatMap fun b => if b = IAC then [b, IAC] else [b] := by
  unfold ConserverHandler.encode
  split
  · rename_i hno
    induction data with
    | nil => rfl
    | cons b data ih =>
        obtain ⟨hb, hdata⟩ : ¬ IAC = b ∧ IAC ∉ data := by simpa using hno
        rw [List.flatMap_cons, ← ih hdata, if_neg (Ne.symm hb)]
        rfl
  · rfl

/-! ## The codecs -/

/-- After any connections of a port, every stream is decoded as from the initial state, however it is cut, exactly if none of them
ended inside a command; and what the conserver handler escapes it decodes to the same bytes. -/
theorem decoded_per_connection (protocol : Protocol) (before : List (List (List UInt8))) :
    ((∀ chunks, (((getHandler protocol).connections before).readLoop chunks).2 = ((getHandler protocol).decode chunks.flatten).2) ↔
      ((getHandler protocol).connections before).AtRest) ∧
    ∀ data, (ConserverHandler.decode {} (ConserverHandler.encode data)).2 = data := by
  constructor
  · have hunused : ((getHandler protocol).connections before).unused = getHandler protocol := by
      rw [unused_connections]
      cases protocol <;> rfl
    rw [atRest_iff, hunused]
    constructor
    · intro hall data
      have hone := hall [data]
      rwa [readLoop_eq, List.flatten_singleton] at hone
    · intro hall chunks
      rw [readLoop_eq]
      exact hall chunks.flatten
  · intro data
    rw [encode_eq]
    exact congrArg Prod.snd (decode_escaped data)

/-- A connection that ends after IAC takes the first byte of the next one. -/
theorem decoded_per_connection_fails :
    (((getHandler (.plain "strip".toList)).connections [[[104, 105, 255]]]).readLoop [[111, 107]]).2 = [107] ∧
      ((getHandler (.plain "strip".toList)).decode [111, 107]).2 = [111, 107] := by
  decide

end Handler

end OpenMux.Protocols
