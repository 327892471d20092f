import CppFragments.Bytes.Framing
import CppFragments.WebSocket.Frame

/-! # What the decoder does with a frame at the cursor

Each lemma runs one decoding function on a buffer whose next bytes are the
encoding of the part that function reads.
-/

namespace CppFragments

open Outcome ByteBuffer WebSocketPacket

namespace Frame

/-- The low seven bits of the first byte: the RSV bits are among them. -/
def opcodeField (frame : Frame) : UInt8 :=
  (frame.rsv1.toUInt8 <<< 6) ||| (frame.rsv2.toUInt8 <<< 5) ||| (frame.rsv3.toUInt8 <<< 4) |||
    UInt8.ofNat frame.opcode

theorem firstByte_fields (frame : Frame) :
    frame.firstByte >>> 7 = frame.fin.toUInt8 ∧ frame.firstByte &&& 0x7F = frame.opcodeField := by
  have hall : ∀ fin rsv1 rsv2 rsv3 : Bool, ∀ opcode : Fin 16,
      (⟨fin, rsv1, rsv2, rsv3, opcode, none, []⟩ : Frame).firstByte >>> 7 = fin.toUInt8 ∧
        (⟨fin, rsv1, rsv2, rsv3, opcode, none, []⟩ : Frame).firstByte &&& 0x7F =
          (⟨fin, rsv1, rsv2, rsv3, opcode, none, []⟩ : Frame).opcodeField := by
    decide
  exact hall _ _ _ _ _

end Frame

namespace WebSocketPacket

/-- The packet after `fetchFrameInfo` has read a header up to its masking key.
A length in the 64-bit form is read over but not stored. -/
def withLead (packet : WebSocketPacket) (frame : Frame) : WebSocketPacket :=
  { packet with
    fin := frame.fin.toUInt8
    opcode := frame.opcodeField
    mask := frame.key?.isSome.toUInt8
    lengthType := Frame.lengthCode frame.payload.length
    payloadLength :=
      if frame.payload.length ≤ 0xFFFF then UInt64.ofNat frame.payload.length
      else packet.payloadLength }

def withHeader (packet : WebSocketPacket) (frame : Frame) : WebSocketPacket :=
  { packet.withLead frame with maskingKey := frame.key?.getD packet.maskingKey }

/-- The packet after `recvDataframe` has decoded a frame. -/
def withFrame (packet : WebSocketPacket) (frame : Frame) : WebSocketPacket :=
  { packet.withHeader frame with
    payload := { packet.payload with data := packet.payload.data ++ frame.payload } }

theorem withFrame_payloadLength (packet : WebSocketPacket) {frame : Frame}
    (hlen : frame.payload.length ≤ 0xFFFF) :
    (packet.withFrame frame).payloadLength = UInt64.ofNat frame.payload.length := by
  simp only [withFrame, withHeader, withLead]
  rw [if_pos hlen]

section Reads

variable {input : ByteBuffer}

theorem readByte_sound (hsound : input.Sound) (old : UInt8) :
    readByte input old =
      .ok (input.ahead.headD old, input.advance (min 1 input.ahead.length)) := by
  have hread := hsound.readBytesX_eq Nat.one_pos (by decide)
  unfold readByte
  rw [show (1 : Int) = ((1 : Nat) : Int) from rfl, hread]
  cases input.ahead with
  | nil => simp
  | cons byte ahead => simp

/-- The masked loop moves the bytes over and undoes the mask on the way. -/
theorem copyMasked_sound (key : MaskingKey) {remaining : Nat} (start : Nat) (value : UInt8)
    {source : ByteBuffer} (target : ByteBuffer) (hsound : source.Sound)
    (hle : remaining ≤ source.ahead.length) :
    copyMasked key remaining start value source target =
      .ok (source.advance remaining, { target with
        data := target.data ++ Bytes.xorFrom key.byteAt start (source.ahead.take remaining) }) := by
  induction remaining generalizing start value source target with
  | zero => simp [copyMasked, Bytes.xorFrom]
  | succ remaining ih =>
      obtain ⟨byte, ahead, hahead⟩ : ∃ byte ahead, source.ahead = byte :: ahead :=
        List.exists_cons_of_length_pos (Nat.lt_of_lt_of_le (Nat.succ_pos _) hle)
      have hlength : source.ahead.length = ahead.length + 1 := by rw [hahead, List.length_cons]
      have hone : 1 ≤ source.ahead.length := by omega
      have hread : readByte source value = .ok (byte, source.advance 1) := by
        rw [readByte_sound hsound, Nat.min_eq_left hone, hahead]
        rfl
      have hrest : (source.advance 1).ahead = ahead := by
        rw [hsound.ahead_advance hone, hahead]
        rfl
      have hih := ih (start + 1) (byte ^^^ key.byteAt start)
        { target with data := target.data ++ [byte ^^^ key.byteAt start] } (hsound.advance hone)
        (by rw [hrest]; omega)
      rw [hrest, advance_advance, Nat.add_comm 1] at hih
      simp only [copyMasked, hread, ok_bind, append_singleton]
      rw [hih, hahead, List.take_succ_cons]
      simp only [List.append_assoc, List.singleton_append, Bytes.xorFrom]

end Reads

section Header

variable {before after : List UInt8}

theorem readByte_cursor {byte old : UInt8}
    (hsmall : before.length + 1 + after.length < 2 ^ 31) :
    readByte (cursor before (byte :: after)) old = .ok (byte, cursor (before ++ [byte]) after) := by
  have hsmall' : before.length + (byte :: after).length < 2 ^ 31 := by
    rw [List.length_cons]
    omega
  have hone : min 1 (byte :: after).length = [byte].length := by simp
  rw [readByte_sound (sound_cursor hsmall'), cursor_ahead hsmall', hone, ← List.singleton_append,
    cursor_advance]
  rfl

theorem uint16_bigEndian {size : Nat} (hlt : size < 2 ^ 16) :
    (((UInt8.ofNat (size >>> 8)).toUInt16 <<< 8) |||
      (UInt8.ofNat (size >>> 0)).toUInt16).toUInt64 = UInt64.ofNat size := by
  have hhigh : (UInt8.ofNat (size >>> 8)).toUInt16.toNat = size >>> 8 := by
    rw [UInt8.toNat_toUInt16, UInt8.toNat_ofNat', Nat.shiftRight_eq_div_pow]
    omega
  have hshift : (size >>> 8) <<< 8 % 2 ^ 16 = (size >>> 8) <<< 8 := by
    apply Nat.mod_eq_of_lt
    rw [Nat.shiftLeft_eq, Nat.shiftRight_eq_div_pow]
    omega
  have hlow : (UInt8.ofNat (size >>> 0)).toUInt16.toNat = size % 2 ^ 8 := by
    rw [UInt8.toNat_toUInt16, UInt8.toNat_ofNat']
    rfl
  apply UInt64.toNat_inj.mp
  rw [UInt16.toNat_toUInt64, UInt16.toNat_or, UInt16.toNat_shiftLeft, hhigh, hlow]
  change (size >>> 8) <<< 8 % 2 ^ 16 ||| size % 2 ^ 8 = _
  rw [hshift, ← Nat.shiftLeft_add_eq_or_of_lt (Nat.mod_lt _ (by decide)), UInt64.toNat_ofNat',
    Nat.shiftLeft_eq, Nat.shiftRight_eq_div_pow]
  omega

theorem fetchLength_cursor (packet : WebSocketPacket) {size : Nat}
    (hcode : packet.lengthType = Frame.lengthCode size)
    (hsmall : before.length + (Frame.lengthBytes size).length + after.length < 2 ^ 31) :
    fetchLength packet (cursor before (Frame.lengthBytes size ++ after)) =
      .ok ({ packet with
        payloadLength := if size ≤ 0xFFFF then UInt64.ofNat size else packet.payloadLength },
        cursor (before ++ Frame.lengthBytes size) after) := by
  have hlt : packet.lengthType < 126 ↔ size < 126 := by
    rw [hcode, Frame.lengthCode_lt_126]
  unfold fetchLength
  by_cases hshort : size < 126
  · have hvalue : (UInt8.ofNat size).toUInt64 = UInt64.ofNat size := by
      apply UInt64.toNat_inj.mp
      rw [UInt8.toNat_toUInt64, UInt8.toNat_ofNat', UInt64.toNat_ofNat']
      omega
    rw [if_pos (hlt.mpr hshort), hcode, if_pos (by omega)]
    simp only [Frame.lengthCode, Frame.lengthBytes, hshort, ↓reduceIte, hvalue, List.nil_append,
      List.append_nil, pure_eq_ok]
  rw [if_neg (hlt.not.mpr hshort)]
  by_cases hmedium : size ≤ 0xFFFF
  · have hbytes : Frame.lengthBytes size =
        [UInt8.ofNat (size >>> 8), UInt8.ofNat (size >>> 0)] := by
      simp [Frame.lengthBytes, hshort, hmedium, Bytes.bigEndian]
    rw [if_pos (by simp [hcode, Frame.lengthCode, hshort, hmedium]), if_pos hmedium,
      readBytesX_cursor before _ after (by simp [hbytes]) (by simp [hbytes]) hsmall,
      ← uint16_bigEndian (by omega), hbytes]
    simp only [ok_bind, pure_eq_ok, Option.getD_some, List.getD_cons_zero,
      List.getD_cons_succ]
  · have hlength : (Frame.lengthBytes size).length = 8 := by
      simp [Frame.lengthBytes, hshort, hmedium]
    have hcode127 : packet.lengthType = 127 := by simp [hcode, Frame.lengthCode, hshort, hmedium]
    rw [if_neg (by rw [hcode127]; decide), if_pos hcode127, if_neg hmedium,
      readBytesX_cursor before _ after (by simp [hlength])
        (List.ne_nil_of_length_pos (by omega)) hsmall]
    simp only [ok_bind, pure_eq_ok]

theorem ofFn_getD_toList (key : MaskingKey) :
    (Vector.ofFn fun i : Fin 4 => key.toList.getD i 0) = key := by
  ext i hi
  simp

theorem fetchKey_cursor (packet : WebSocketPacket) {key? : Option MaskingKey}
    (hmask : packet.mask = key?.isSome.toUInt8)
    (hsmall : before.length + (Frame.keyBytes key?).length + after.length < 2 ^ 31) :
    fetchKey packet (cursor before (Frame.keyBytes key? ++ after)) =
      .ok ({ packet with maskingKey := key?.getD packet.maskingKey },
        cursor (before ++ Frame.keyBytes key?) after) := by
  unfold fetchKey
  cases key? with
  | none =>
      rw [if_neg (by rw [hmask]; decide)]
      simp only [Frame.keyBytes, Option.getD_none, List.nil_append, List.append_nil, pure_eq_ok]
  | some key =>
      rw [if_pos (show packet.mask = 1 from hmask), Frame.keyBytes,
        readBytesX_cursor before key.toList after (by simp)
          (List.ne_nil_of_length_pos (by simp)) hsmall]
      simp only [ok_bind, pure_eq_ok, Option.getD_some, ofFn_getD_toList]

/-- A key that is cut off is not read at all. -/
theorem fetchKey_short (packet : WebSocketPacket) (hshort : after.length < 4)
    (hsmall : before.length + after.length < 2 ^ 31) :
    fetchKey packet (cursor before after) = .ok (packet, cursor before after) := by
  unfold fetchKey
  split
  · have hread := readBytesX_cursor_short hsmall (show 4 < 2 ^ 31 by decide) hshort
    rw [show (4 : Int) = ((4 : Nat) : Int) from rfl, hread]
    simp only [ok_bind, pure_eq_ok, Option.getD_none, ofFn_getD_toList]
  · rfl

/-- `fetchFrameInfo` reads the header of a frame up to the masking key. -/
theorem fetchFrameInfo_lead (packet : WebSocketPacket) (frame : Frame)
    (before after : List UInt8)
    (hsmall : before.length + frame.lead.length + after.length < 2 ^ 31) :
    fetchFrameInfo packet (cursor before (frame.lead ++ after)) =
      (do
        let (packet, input) ← fetchKey (packet.withLead frame)
          (cursor (before ++ frame.lead) after)
        return (input.getoft, packet, input)) := by
  obtain ⟨hfin, hopcode⟩ := frame.firstByte_fields
  have hmask : (frame.secondByte >>> 7) &&& 0x01 = frame.key?.isSome.toUInt8 := by
    rw [frame.secondByte_mask]
    cases frame.key?.isSome <;> decide
  simp only [Frame.lead, List.length_cons] at hsmall
  unfold fetchFrameInfo
  simp only [Frame.lead, List.cons_append]
  rw [readByte_cursor (by simp only [List.length_cons, List.length_append]; omega)]
  simp only [ok_bind]
  rw [readByte_cursor (by simp only [List.length_append, List.length_singleton]; omega)]
  simp only [ok_bind, hfin, hopcode, hmask, frame.secondByte_code]
  rw [fetchLength_cursor _ rfl
    (by simp only [List.length_append, List.length_singleton]; omega)]
  simp only [ok_bind, withLead, List.append_assoc, List.cons_append, List.nil_append]

/-- `fetchFrameInfo` reads exactly the header of a frame at the cursor. -/
theorem fetchFrameInfo_header (packet : WebSocketPacket) (frame : Frame)
    (before after : List UInt8)
    (hsmall : before.length + frame.header.length + after.length < 2 ^ 31) :
    fetchFrameInfo packet (cursor before (frame.header ++ after)) =
      .ok (((before ++ frame.header).length : Int), packet.withHeader frame,
        cursor (before ++ frame.header) after) := by
  simp only [Frame.header, List.length_append] at hsmall
  rw [Frame.header, List.append_assoc, fetchFrameInfo_lead packet frame _ _
    (by rw [List.length_append]; omega), fetchKey_cursor _ rfl (by rw [List.length_append]; omega)]
  simp only [ok_bind, pure_eq_ok, List.append_assoc]
  rw [getoft_cursor (by simp only [List.length_append]; omega)]
  rfl

end Header

section Payload

theorem copyMasked_cursor (key : MaskingKey) (before taken after : List UInt8) (start : Nat)
    (value : UInt8) (target : ByteBuffer)
    (hsmall : before.length + taken.length + after.length < 2 ^ 31) :
    copyMasked key taken.length start value (cursor before (taken ++ after)) target =
      .ok (cursor (before ++ taken) after,
        { target with data := target.data ++ Bytes.xorFrom key.byteAt start taken }) := by
  have hsmall' : before.length + (taken ++ after).length < 2 ^ 31 := by
    rw [List.length_append]
    omega
  have hcopy := copyMasked_sound key start value target (sound_cursor hsmall')
    (show taken.length ≤ _ by rw [cursor_ahead hsmall']; simp)
  rw [cursor_ahead hsmall', List.take_left, cursor_advance] at hcopy
  exact hcopy

/-- `fetchPayload` moves the body of a frame whose header has been read. The
frame must not be an empty unmasked one at the very end of the buffer. -/
theorem fetchPayload_body (packet : WebSocketPacket) (frame : Frame) (before after : List UInt8)
    (hlen : frame.payload.length ≤ 0xFFFF)
    (hmore : frame.body ++ after ≠ [] ∨ frame.key?.isSome)
    (hsmall : before.length + frame.payload.length + after.length < 2 ^ 31) :
    fetchPayload (packet.withHeader frame) (cursor before (frame.body ++ after)) =
      .ok ({ packet.withHeader frame with
        payload := { packet.payload with data := packet.payload.data ++ frame.payload } },
        cursor (before ++ frame.body) after) := by
  have hsize : (packet.withHeader frame).payloadLength.toNat = frame.payload.length := by
    simp only [withHeader, withLead]
    rw [if_pos hlen, UInt64.toNat_ofNat']
    omega
  unfold fetchPayload
  rw [hsize]
  cases hkey : frame.key? with
  | some key =>
      have hbody : frame.body = Bytes.xorFrom key.byteAt 0 frame.payload := by
        simp [Frame.body, hkey]
      have hrun := copyMasked_cursor key before frame.body after 0 0 packet.payload
        (by rw [frame.length_body]; omega)
      rw [frame.length_body] at hrun
      rw [if_pos (by simp [withHeader, withLead, hkey, Bool.toUInt8])]
      simp only [withHeader, withLead, hkey, Option.getD_some, hrun, ok_bind, pure_eq_ok]
      rw [hbody, Bytes.xorFrom_xorFrom]
  | none =>
      have hbody : frame.body = frame.payload := by simp [Frame.body, hkey]
      rw [hbody] at hmore ⊢
      rw [if_neg (by simp [withHeader, withLead, hkey, Bool.toUInt8])]
      rw [curat_cursor (by simpa [hkey] using hmore) (by rw [List.length_append]; omega)]
      rw [toInt32_natCast (by omega)]
      simp only [skipX_cursor before frame.payload after hsmall, ok_bind]
      rw [append_of_le _ (by simp)]
      simp only [List.take_left, ok_bind, pure_eq_ok, withHeader, withLead]

end Payload

/-! ## Whole frames -/

/-- The size test of `recvDataframe` in numbers that fit. -/
theorem sizeTest_iff {length header total : Nat} (hlength : length < 2 ^ 32)
    (hheader : header < 2 ^ 31) (htotal : total < 2 ^ 31) :
    UInt64.ofNat length + UInt64.ofInt (header : Int) > UInt64.ofInt (total : Int) ↔
      total < length + header := by
  rw [gt_iff_lt, UInt64.lt_iff_toNat_lt, UInt64.toNat_add, UInt64.toNat_ofNat',
    toNat_uint64_ofInt_natCast, toNat_uint64_ofInt_natCast]
  omega

/-- **A frame of at most 65535 bytes at the cursor is decoded, and the cursor
moves over exactly its bytes.** -/
theorem recvDataframe_encode (packet : WebSocketPacket) (frame : Frame)
    (before after : List UInt8) (hlen : frame.payload.length ≤ 0xFFFF)
    (hmore : frame.body ++ after ≠ [] ∨ frame.key?.isSome)
    (hsmall : before.length + frame.encode.length + after.length < 2 ^ 31) :
    recvDataframe packet (cursor before (frame.encode ++ after)) =
      .ok (UInt64.ofNat (before.length + frame.encode.length), packet.withFrame frame,
        cursor (before ++ frame.encode) after) := by
  have hsize := frame.length_encode
  have hheader := fetchFrameInfo_header packet frame before (frame.body ++ after)
    (by rw [List.length_append, frame.length_body]; omega)
  have hpayload := fetchPayload_body packet frame (before ++ frame.header) after hlen hmore
    (by rw [List.length_append]; omega)
  have hfits : ¬ (packet.withHeader frame).payloadLength +
      UInt64.ofInt ((before ++ frame.header).length : Int) >
        UInt64.ofInt (cursor (before ++ frame.header) (frame.body ++ after)).length := by
    rw [length_cursor (by simp only [List.length_append, frame.length_body]; omega)]
    simp only [withHeader, withLead]
    rw [if_pos hlen, sizeTest_iff (by omega) (by rw [List.length_append]; omega)
        (by simp only [List.length_append, frame.length_body]; omega)]
    simp only [List.length_append, frame.length_body]
    omega
  unfold recvDataframe
  rw [Frame.encode, List.append_assoc, hheader]
  simp only [ok_bind]
  rw [if_neg hfits, hpayload]
  simp only [ok_bind, pure_eq_ok]
  rw [getoft_cursor (by simp only [List.length_append, frame.length_body]; omega),
    uint64_ofInt_natCast]
  simp only [withFrame, List.append_assoc, List.length_append]

/-- Where the size test fails the cursor goes back to where it was. -/
theorem recvDataframe_of_missing {packet packet' : WebSocketPacket}
    {before taken left : List UInt8} {header : Nat} {length : Nat}
    (hinfo : fetchFrameInfo packet (cursor before (taken ++ left)) =
      .ok ((header : Int), packet', cursor (before ++ taken) left))
    (hlength : packet'.payloadLength = UInt64.ofNat length) (hlt : length < 2 ^ 32)
    (hheader : header < 2 ^ 31)
    (hmissing : before.length + taken.length + left.length < length + header)
    (hsmall : before.length + taken.length + left.length < 2 ^ 31) :
    recvDataframe packet (cursor before (taken ++ left)) =
      .ok (0, packet', cursor before (taken ++ left)) := by
  have hback : (((cursor (before ++ taken) left).resetoft.skipX before.length).2) =
      cursor before (taken ++ left) := by
    have hskip := skipX_cursor [] before (taken ++ left)
      (by simp only [List.length_append, List.length_nil]; omega)
    simp only [List.nil_append] at hskip
    simp only [resetoft, cursor_data, List.append_assoc]
    rw [← cursor_nil, hskip]
  unfold recvDataframe
  rw [hinfo]
  simp only [ok_bind]
  rw [if_pos, getoft_cursor (by rw [List.length_append]; omega), hback]
  · rfl
  · rw [hlength, length_cursor (by rw [List.length_append]; omega),
      sizeTest_iff hlt hheader (by rw [List.length_append]; omega), List.length_append]
    exact hmissing

/-- **A frame cut after at least six bytes is left alone.** Six bytes cover
every header but the masked 16-bit one. There the missing key is not read, and
the length, already known, exceeds what is left. -/
theorem recvDataframe_partial (packet : WebSocketPacket) (frame : Frame)
    (before received : List UInt8) (hlen : frame.payload.length ≤ 0xFFFF)
    (hseen : received <+: frame.encode) (hshort : received.length < frame.encode.length)
    (hsix : 6 ≤ received.length) (hsmall : before.length + received.length < 2 ^ 31) :
    ∃ packet', recvDataframe packet (cursor before received) =
      .ok (0, packet', cursor before received) ∧ packet'.payload = packet.payload := by
  have hsize := frame.length_encode
  have hlength : (packet.withLead frame).payloadLength = UInt64.ofNat frame.payload.length := by
    simp only [withLead]
    rw [if_pos hlen]
  rcases Framing.complete_or_partial (show received <+: frame.header ++ frame.body from hseen) with
    ⟨left, rfl, _⟩ | ⟨hheader, hcut⟩
  · -- The header is whole, so the payload is not.
    rw [List.length_append] at hshort hsmall
    refine ⟨_, recvDataframe_of_missing
      (fetchFrameInfo_header packet frame before left (by omega)) hlength (by omega)
      (by rw [List.length_append]; omega) ?_ (by omega), rfl⟩
    rw [List.length_append]
    omega
  · rcases Framing.complete_or_partial hheader with ⟨left, rfl, hkey⟩ | ⟨_, hcut'⟩
    · -- The length is there but the key is not, so the length has its 16-bit form.
      have hleft : left.length < 4 := by
        have hkeyBytes := Frame.length_keyBytes_le frame.key?
        simp only [Frame.header, List.length_append] at hcut
        omega
      rw [List.length_append] at hsix hsmall
      have hlong : 126 ≤ frame.payload.length := by
        by_contra hnot
        have hlt : frame.payload.length < 126 := by omega
        have hlead : frame.lead.length = 2 := by
          simp [Frame.lead, Frame.lengthBytes, hlt]
        omega
      have hinfo := fetchFrameInfo_lead packet frame before left (by omega)
      rw [fetchKey_short _ hleft (by rw [List.length_append]; omega)] at hinfo
      simp only [ok_bind, pure_eq_ok] at hinfo
      rw [getoft_cursor (by rw [List.length_append]; omega)] at hinfo
      refine ⟨_, recvDataframe_of_missing hinfo hlength (by omega)
        (by rw [List.length_append]; omega) ?_ (by omega), rfl⟩
      rw [List.length_append]
      omega
    · have hlead : frame.lead.length ≤ 4 := by
        simp only [Frame.lead, Frame.lengthBytes, List.length_cons]
        split
        · simp
        · simp
      omega

end WebSocketPacket

end CppFragments
