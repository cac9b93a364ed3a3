import OpenMux.Wire.Frame
import OpenMux.Wire.Lemmas.Control

/-!
# The frame stream comes back

Each frame that a `create_*` function builds is read back as it was sent, whatever its payload, from a stream that is cut
into chunks at any points and has any bytes but `#` between the frames.
-/

namespace OpenMux.Wire

open Py

variable {upper : Text → Text} {r : StreamReader} {bs tail : Bytes} {sid seq : Int} {ft : Text} {payload : Bytes}

/-! ## The header -/

/-- The header that was written parses to what it was written from. -/
theorem parseFrameHeader_header {length : Nat} {h : Text} (hh : header sid ft length seq = some h)
    (hb : encodeAscii h = some bs) (hft : ':' ∉ ft) : parseFrameHeader bs = some (sid, ft, (length : Int), seq) := by
  simp only [header, bind, Option.bind_eq_some_iff] at hh
  obtain ⟨s₁, hs₁, s₂, hs₂, s₃, hs₃, heq⟩ := hh
  cases heq
  have hcolon : ∀ {n : Int} {t : Text}, str n = some t → ':' ∉ t :=
    fun ht => not_mem_str ht (by decide) (by decide)
  have hstrip : strip ('#' :: (s₁ ++ ':' :: (ft ++ ':' :: (s₂ ++ ':' :: (s₃ ++ [':']))))) =
      '#' :: (s₁ ++ ':' :: (ft ++ ':' :: (s₂ ++ ':' :: (s₃ ++ [':'])))) :=
    strip_of_ends (d := ':') (by decide) (by simp [List.getLast?_append, List.getLast?_cons]) (by decide)
  have hsplit : split ':' 4 (s₁ ++ ':' :: (ft ++ ':' :: (s₂ ++ ':' :: (s₃ ++ [':'])))) = [s₁, ft, s₂, s₃, []] := by
    rw [split_piece (hcolon hs₁), split_piece hft, split_piece (hcolon hs₂), split_piece (hcolon hs₃)]
    rfl
  simp [parseFrameHeader, decodeAscii_encodeAscii hb, hstrip, hsplit, int_str hs₁, int_str hs₂, int_str hs₃]

/-! ## The reader -/

theorem seekStart_skip {skip : Bytes} (hr : r.rest = skip ++ 35 :: tail) (hs : (35 : UInt8) ∉ skip) :
    ∃ r', seekStart r = some r' ∧ r'.rest = tail := by
  induction skip generalizing r with
  | nil =>
      obtain ⟨r', h, hrest⟩ := StreamReader.readexactly_one hr
      refine ⟨r', ?_, hrest⟩
      rw [seekStart]
      split
      · rename_i heq; rw [h] at heq; cases heq
      · rename_i heq; rw [h] at heq; cases heq; rfl
  | cons b skip ih =>
      obtain ⟨r', h, hrest⟩ := StreamReader.readexactly_one hr
      obtain ⟨r'', h'', hrest''⟩ := ih hrest (fun hm => hs (List.mem_cons_of_mem _ hm))
      refine ⟨r'', ?_, hrest''⟩
      have hb : ¬ [b] = [(35 : UInt8)] := by rintro ⟨⟩; exact hs List.mem_cons_self
      rw [seekStart]
      split
      · rename_i heq; rw [h] at heq; cases heq
      · rename_i heq
        rw [h] at heq
        cases heq
        rw [if_neg hb]
        exact h''

/-- Without `#` the reader reaches the end of input. -/
theorem seekStart_end (hr : (35 : UInt8) ∉ r.rest) : seekStart r = none := by
  induction hn : r.rest generalizing r with
  | nil =>
      rw [seekStart]
      split
      · rfl
      · rename_i heq
        rw [StreamReader.readexactly_end hn (by decide)] at heq
        cases heq
  | cons b rest ih =>
      rw [hn] at hr
      obtain ⟨r', h, hrest⟩ := StreamReader.readexactly_one hn
      have hb : ¬ [b] = [(35 : UInt8)] := by rintro ⟨⟩; exact hr List.mem_cons_self
      rw [seekStart]
      split
      · rfl
      · rename_i heq
        rw [h] at heq
        cases heq
        rw [if_neg hb]
        exact ih (by rw [hrest]; exact fun hm => hr (List.mem_cons_of_mem _ hm)) hrest

/-- One part of the header, up to its colon. -/
theorem readHeader_part {k : Nat} {part : Bytes} (acc : Bytes) (hk : k < 4) (hr : r.rest = part ++ 58 :: tail)
    (hp : (58 : UInt8) ∉ part) :
    ∃ r', r'.rest = tail ∧ readHeader k acc r = readHeader (k + 1) (acc ++ (part ++ [58])) r' := by
  induction part generalizing r acc with
  | nil =>
      obtain ⟨r', h, hrest⟩ := StreamReader.readexactly_one hr
      refine ⟨r', hrest, ?_⟩
      rw [readHeader, if_pos hk]
      split
      · rename_i heq; rw [h] at heq; cases heq
      · rename_i heq; rw [h] at heq; cases heq; rfl
  | cons b part ih =>
      obtain ⟨r', h, hrest⟩ := StreamReader.readexactly_one hr
      obtain ⟨r'', hrest'', heq''⟩ := ih (acc ++ [b]) hrest (fun hm => hp (List.mem_cons_of_mem _ hm))
      refine ⟨r'', hrest'', ?_⟩
      have hb : ¬ [b] = [(58 : UInt8)] := by rintro ⟨⟩; exact hp List.mem_cons_self
      rw [readHeader, if_pos hk]
      split
      · rename_i heq; rw [h] at heq; cases heq
      · rename_i heq
        rw [h] at heq
        cases heq
        rw [if_neg hb, heq'']
        simp

theorem readHeader_done {acc : Bytes} : readHeader 4 acc r = some (acc, r) := by
  rw [readHeader, if_neg (by decide)]

/-- The bytes of a header: `#`, and four parts that end in a colon each. -/
theorem encodeAscii_header {length : Nat} {h : Text} (hh : header sid ft length seq = some h)
    (hb : encodeAscii h = some bs) (hft : ':' ∉ ft) :
    ∃ b₁ b₂ b₃ b₄, (58 : UInt8) ∉ b₁ ∧ (58 : UInt8) ∉ b₂ ∧ (58 : UInt8) ∉ b₃ ∧ (58 : UInt8) ∉ b₄ ∧
      bs = 35 :: (b₁ ++ 58 :: (b₂ ++ 58 :: (b₃ ++ 58 :: (b₄ ++ [58])))) := by
  simp only [header, bind, Option.bind_eq_some_iff] at hh
  obtain ⟨s₁, hs₁, s₂, hs₂, s₃, hs₃, heq⟩ := hh
  cases heq
  have hcolon : ∀ {n : Int} {t : Text} {b : Bytes}, str n = some t → encodeAscii t = some b → (58 : UInt8) ∉ b := by
    intro n t b ht hb
    exact mem_encodeAscii (c := ':') hb (not_mem_str ht (by decide) (by decide)) (by decide)
  have hcons : ∀ {c : Char} {t : Text} {b : Bytes}, encodeAscii (c :: t) = some b →
      ∃ b', encodeAscii t = some b' ∧ b = UInt8.ofNat c.toNat :: b' := by
    intro c t b hb
    simp only [encodeAscii] at hb
    split at hb
    · obtain ⟨b', hb', rfl⟩ := Option.map_eq_some_iff.mp hb
      exact ⟨b', hb', rfl⟩
    · cases hb
  obtain ⟨c₁, hc₁, rfl⟩ := hcons hb
  obtain ⟨b₁, d₁, hb₁, hd₁, rfl⟩ := encodeAscii_append_inv hc₁
  obtain ⟨c₂, hc₂, rfl⟩ := hcons hd₁
  obtain ⟨b₂, d₂, hb₂, hd₂, rfl⟩ := encodeAscii_append_inv hc₂
  obtain ⟨c₃, hc₃, rfl⟩ := hcons hd₂
  obtain ⟨b₃, d₃, hb₃, hd₃, rfl⟩ := encodeAscii_append_inv hc₃
  obtain ⟨c₄, hc₄, rfl⟩ := hcons hd₃
  obtain ⟨b₄, d₄, hb₄, hd₄, rfl⟩ := encodeAscii_append_inv hc₄
  cases hd₄
  exact ⟨b₁, b₂, b₃, b₄, hcolon hs₁ hb₁, mem_encodeAscii (c := ':') hb₂ hft (by decide), hcolon hs₂ hb₃,
    hcolon hs₃ hb₄, rfl⟩

/-- A frame at the front of the stream is read, and the bytes after it are left. -/
theorem readFrameRaw_created {enc skip : Bytes} (hc : createFrame sid ft seq payload = some enc) (hft : ':' ∉ ft)
    (hr : r.rest = skip ++ (enc ++ tail)) (hs : (35 : UInt8) ∉ skip) :
    ∃ r', r'.rest = tail ∧ readFrameRaw r = (.frame ⟨sid, ft, payload.length, payload, seq⟩, r') := by
  simp only [createFrame, bind, Option.bind_eq_some_iff] at hc
  obtain ⟨h, hh, b, hb, heq⟩ := hc
  cases heq
  have hparse := parseFrameHeader_header hh hb hft
  obtain ⟨b₁, b₂, b₃, b₄, h₁, h₂, h₃, h₄, rfl⟩ := encodeAscii_header hh hb hft
  have hbytes : r.rest = skip ++ 35 :: (b₁ ++ 58 :: (b₂ ++ 58 :: (b₃ ++ 58 :: (b₄ ++ 58 :: (payload ++ 10 :: tail))))) := by
    rw [hr]
    simp
  obtain ⟨r₀, hseek, hrest₀⟩ := seekStart_skip hbytes hs
  obtain ⟨r₁, hrest₁, hread₁⟩ := readHeader_part (k := 0) [35] (by decide) hrest₀ h₁
  obtain ⟨r₂, hrest₂, hread₂⟩ := readHeader_part (k := 1) ([35] ++ (b₁ ++ [58])) (by decide) hrest₁ h₂
  obtain ⟨r₃, hrest₃, hread₃⟩ :=
    readHeader_part (k := 2) ([35] ++ (b₁ ++ [58]) ++ (b₂ ++ [58])) (by decide) hrest₂ h₃
  obtain ⟨r₄, hrest₄, hread₄⟩ :=
    readHeader_part (k := 3) ([35] ++ (b₁ ++ [58]) ++ (b₂ ++ [58]) ++ (b₃ ++ [58])) (by decide) hrest₃ h₄
  have hheader : readHeader 0 [35] r₀ = some (35 :: (b₁ ++ 58 :: (b₂ ++ 58 :: (b₃ ++ 58 :: (b₄ ++ [58])))), r₄) := by
    rw [hread₁, hread₂, hread₃, hread₄, readHeader_done]
    simp
  obtain ⟨r₅, hpay, hrest₅⟩ : ∃ r₅, (if (0 : Int) < (payload.length : Int) then
      r₄.readexactly (payload.length : Int).toNat else (some [], r₄)) = (some payload, r₅) ∧ r₅.rest = 10 :: tail := by
    by_cases hp : (0 : Int) < (payload.length : Int)
    · obtain ⟨r₅, hread, hrest₅⟩ := StreamReader.readexactly_append _ hrest₄
      exact ⟨r₅, by rw [if_pos hp, Int.toNat_natCast]; exact hread, hrest₅⟩
    · have hnil : payload = [] := List.eq_nil_of_length_eq_zero (by omega)
      subst hnil
      exact ⟨r₄, by simp, by simpa using hrest₄⟩
  obtain ⟨r₆, hnl, hrest₆⟩ := StreamReader.readexactly_one hrest₅
  refine ⟨r₆, hrest₆, ?_⟩
  simp only [readFrameRaw, hseek, hheader, hparse, hpay, hnl]

/-- Each call builds one frame. -/
theorem Call.encode_created {c : Call} {enc : Bytes} (h : c.encode upper = some enc) :
    createFrame (c.sent upper).1 (c.sent upper).2.1 (c.sent upper).2.2.2 (c.sent upper).2.2.1 = some enc := by
  cases c with
  | ack acked seq =>
      simp only [Call.encode, createAckFrame, bind, Option.bind_eq_some_iff] at h
      obtain ⟨payload, hp, h⟩ := h
      simpa [Call.sent, hp] using h
  | _ => exact h

theorem Call.colon_not_mem {c : Call} (h : c.NoColon upper) : ':' ∉ (c.sent upper).2.1 := by
  cases c with
  | command cmd sid seq payload => exact h
  | _ => simp [Call.sent]

/-- What reading the frame of a call returns. -/
def Call.result (upper : Text → Text) (c : Call) : ReadResult :=
  let (streamId, frameType, payload, seq) := c.sent upper
  .frame ⟨streamId, frameType, payload.length, payload, seq⟩

/-- A stream without `#` ends every call. -/
theorem readFrames_end (k : Nat) (hr : (35 : UInt8) ∉ r.rest) :
    readFrames k r = List.replicate k .incomplete := by
  induction k generalizing r with
  | zero => rfl
  | succ k ih =>
      have hraw : readFrameRaw r = (.incomplete, atEnd) := by simp [readFrameRaw, seekStart_end hr]
      rw [readFrames, hraw, ih (by simp [atEnd, StreamReader.rest]), List.replicate_succ]

/-- The stream of the frames that a list of calls builds, each after some bytes in front. -/
inductive Stream (upper : Text → Text) : List Call → Bytes → Prop
  | nil {skip : Bytes} (hs : (35 : UInt8) ∉ skip) : Stream upper [] skip
  | cons {c : Call} {cs : List Call} {skip enc rest : Bytes} (hs : (35 : UInt8) ∉ skip)
      (he : c.encode upper = some enc) (hrest : Stream upper cs rest) : Stream upper (c :: cs) (skip ++ (enc ++ rest))

/-- Repeated reading returns the frames that were built, in order, and then reports the end of input. -/
theorem frame_stream_roundtrip {calls : List Call} (hcolon : ∀ c ∈ calls, c.NoColon upper)
    (hr : Stream upper calls r.rest) (k : Nat) :
    readFrames (calls.length + k) r = calls.map (Call.result upper) ++ List.replicate k .incomplete := by
  induction calls generalizing r with
  | nil =>
      generalize hrest : r.rest = bs at hr
      cases hr with
      | nil hs => simpa using readFrames_end k (hrest ▸ hs)
  | cons c cs ih =>
      generalize hrest : r.rest = bs at hr
      cases hr with
      | cons hs he hstream =>
          obtain ⟨r', hrest', hraw⟩ := readFrameRaw_created (Call.encode_created he)
            (Call.colon_not_mem (hcolon c List.mem_cons_self)) hrest hs
          have hlen : (c :: cs).length + k = (cs.length + k) + 1 := by simp; omega
          rw [hlen, readFrames, hraw, List.map_cons, List.cons_append]
          congr 1
          exact ih (fun c' hc' => hcolon c' (List.mem_cons_of_mem _ hc')) (hrest' ▸ hstream)

/-- A DATA frame whose payload looks like frames, and an ACK, in chunks of four bytes and one. -/
theorem frame_stream_roundtrip_chunks :
    readFrames 3 ⟨[35, 49, 58, 68], [[58, 52, 58, 55], [58, 35], [58, 10, 0], [10, 13, 10, 35], [48, 58, 65, 58, 49, 58],
      [57, 58, 53, 10, 32]]⟩ =
    [.frame ⟨1, ['D'], 4, [35, 58, 10, 0], 7⟩, .frame ⟨0, ['A'], 1, [53], 9⟩, .incomplete] := by
  have hstream : Stream id [.data 1 7 [35, 58, 10, 0], .ack 5 9]
      ([] ++ ([35, 49, 58, 68, 58, 52, 58, 55, 58, 35, 58, 10, 0, 10] ++ ([13, 10] ++
        ([35, 48, 58, 65, 58, 49, 58, 57, 58, 53, 10] ++ [32])))) :=
    .cons (by decide) (by decide) (.cons (by decide) (by decide) (.nil (by decide)))
  have hcolon : ∀ c ∈ [Call.data 1 7 [35, 58, 10, 0], .ack 5 9], c.NoColon id := by simp [Call.NoColon]
  exact frame_stream_roundtrip hcolon
    (r := ⟨[35, 49, 58, 68], [[58, 52, 58, 55], [58, 35], [58, 10, 0], [10, 13, 10, 35], [48, 58, 65, 58, 49, 58],
      [57, 58, 53, 10, 32]]⟩) hstream 1

/-- The command `A:B` is not read back: its colon ends the frame type early. -/
theorem frame_stream_roundtrip_fails : ¬ ∀ (upper : Text → Text) (calls : List Call) (r : StreamReader),
    Stream upper calls r.rest → ∀ k,
      readFrames (calls.length + k) r = calls.map (Call.result upper) ++ List.replicate k .incomplete := by
  intro h
  have hstream : Stream (List.map Char.toUpper) [.command ['a', ':', 'b'] 1 2 []]
      ([] ++ ([35, 49, 58, 65, 58, 66, 58, 48, 58, 50, 58, 10] ++ [])) :=
    .cons (by decide) (by decide) (.nil (by decide))
  let r : StreamReader := ⟨[35, 49, 58, 65, 58, 66, 58, 48, 58, 50, 58, 10], []⟩
  have hread := h _ _ r hstream 0
  have hbytes : r.rest = [] ++ 35 :: ([49] ++ 58 :: ([65] ++ 58 :: ([66] ++ 58 :: ([48] ++ 58 :: [50, 58, 10])))) := rfl
  obtain ⟨r₀, hseek, hrest₀⟩ := seekStart_skip hbytes (by decide)
  obtain ⟨r₁, hrest₁, hread₁⟩ := readHeader_part (k := 0) [35] (by decide) hrest₀ (by decide)
  obtain ⟨r₂, hrest₂, hread₂⟩ := readHeader_part (k := 1) [35, 49, 58] (by decide) hrest₁ (by decide)
  obtain ⟨r₃, hrest₃, hread₃⟩ := readHeader_part (k := 2) [35, 49, 58, 65, 58] (by decide) hrest₂ (by decide)
  obtain ⟨r₄, hrest₄, hread₄⟩ := readHeader_part (k := 3) [35, 49, 58, 65, 58, 66, 58] (by decide) hrest₃ (by decide)
  have hheader : readHeader 0 [35] r₀ = some ([35, 49, 58, 65, 58, 66, 58, 48, 58], r₄) :=
    hread₁.trans (hread₂.trans (hread₃.trans (hread₄.trans readHeader_done)))
  have hparse : parseFrameHeader [35, 49, 58, 65, 58, 66, 58, 48, 58] = none := by decide
  have hraw : (readFrameRaw r).1 = .invalid := by simp only [readFrameRaw, hseek, hheader, hparse]
  simp [readFrames, hraw, Call.result] at hread

/-! ## Control messages -/

section Control

open JsonText

variable {V : Conversions} {m : Control} {ms : List (Control × Int)} {enc : Bytes} {seq : Int}

/-- The frame of a message is read back and handed to `_process_control_command` with the text that was sent. -/
theorem readFrameRaw_control (henc : m.frame seq = some enc) (hr : r.rest = enc ++ tail) :
    ∃ payload r' res, m.payload = some payload ∧ r'.rest = tail ∧ readFrameRaw r = (res, r') ∧
      receive V res = processControlCommand V payload := by
  obtain ⟨payload, hpayload, hframe⟩ := Option.bind_eq_some_iff.mp henc
  obtain ⟨ft, hcreated, hcolon, hft⟩ : ∃ ft, createFrame 0 ft seq (encodeUtf8 payload) = some enc ∧ ':' ∉ ft ∧ (ft = ['C'] ∨ ft = "HB".toList) := by
    cases m with
    | heartbeatRequest | heartbeatAck => exact ⟨"HB".toList, hframe, by decide, .inr rfl⟩
    | _ => exact ⟨['C'], hframe, by decide, .inl rfl⟩
  have hskip : r.rest = [] ++ (enc ++ tail) := hr
  obtain ⟨r', hrest, hread⟩ := readFrameRaw_created hcreated hcolon hskip (by simp)
  refine ⟨payload, r', _, hpayload, hrest, hread, ?_⟩
  rw [receive, if_pos hft]
  exact congrArg _ (Utf8.decodeIgnore_encode payload)

/-- What one node writes to a connection in control frames, the other reads in that order however it is cut into chunks: each message as what
it is exactly if none of its parts holds what ends the part, and none ever as a message of another kind. -/
theorem control_stream (hstream : Control.stream ms = some r.rest) :
    List.Forall₂ (fun x res => (receive V res = some x.1.received ↔ x.1.Carried) ∧ ∀ y, receive V res = some y → y.marker = x.1.marker)
      ms (readFrames ms.length r) := by
  induction ms generalizing r with
  | nil => exact .nil
  | cons x ms ih =>
      obtain ⟨m, seq⟩ := x
      obtain ⟨enc, henc, hstream⟩ := Option.bind_eq_some_iff.mp hstream
      obtain ⟨rest, hrest, heq⟩ := Option.bind_eq_some_iff.mp hstream
      obtain ⟨payload, r', res, hpayload, hr', hread, hreceive⟩ := readFrameRaw_control (V := V) henc (Option.some.inj heq).symm
      rw [List.length_cons, readFrames, hread]
      refine .cons ?_ (ih (hr' ▸ hrest))
      rw [hreceive]
      exact Control.readBack hpayload

/-- A state of an outlet whose ref needs escapes, and two requests of which the second one names a port with a colon. -/
def threeMessages : List (Control × Int) :=
  [(.powerState ['p'] ['"'] none, 1), (.fedrw ['p'] 3 ['R'], 2), (.fedrw ['p', ':', '4'] 3 ['R'], 3)]

theorem control_stream_threeMessages : ∃ bs, Control.stream threeMessages = some bs ∧
    ∀ V : Conversions, List.Forall₂ (fun x res => (receive V res = some x.1.received ↔ x.1.Carried) ∧ ∀ y, receive V res = some y → y.marker = x.1.marker)
      threeMessages (readFrames 3 ⟨[], [bs]⟩) := by
  obtain ⟨bs, hbs⟩ := Option.isSome_iff_exists.mp (by decide : (Control.stream threeMessages).isSome)
  refine ⟨bs, hbs, fun V => control_stream (r := ⟨[], [bs]⟩) ?_⟩
  rw [hbs]
  simp [StreamReader.rest]

end Control

end OpenMux.Wire
