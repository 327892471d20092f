import CppFragments.WebSocket.Decode

/-! # What the encoder writes

The bytes `packDataframe` appends and the packet it leaves, for every packet
whose payload buffer has its offset in the data, of whatever size.
-/

namespace CppFragments

open Outcome

namespace ByteBuffer

/-! ## Reading byte by byte -/

/-- The bytes that single reads get, for data of any size: those before the
length as an unsigned number. -/
def within (buffer : ByteBuffer) : List UInt8 :=
  (buffer.data.take (buffer.data.length % 2 ^ 32)).drop buffer.oft.toNat

theorem toNat_uint32_length (buffer : ByteBuffer) :
    (UInt32.ofInt buffer.length).toNat = buffer.data.length % 2 ^ 32 := by
  have hmod : toInt32 buffer.data.length % 2 ^ 32 = (buffer.data.length % 2 ^ 32 : ℕ) := by
    rw [toInt32]
    push_cast
    exact Int.bmod_emod
  simp only [UInt32.ofInt, UInt32.toNat_ofNat', length]
  omega

theorem length_within (buffer : ByteBuffer) :
    buffer.within.length = buffer.data.length % 2 ^ 32 - buffer.oft.toNat := by
  rw [within, List.length_drop, List.length_take, Nat.min_eq_left (Nat.mod_le _ _)]

section Within

variable {buffer : ByteBuffer}

theorem require_one (hoft : buffer.oft.toNat ≤ buffer.data.length % 2 ^ 32) :
    buffer.require 1 = decide (0 < buffer.within.length) := by
  apply decide_eq_decide.mpr
  have hsub : (UInt32.ofInt buffer.length - buffer.oft).toNat = buffer.within.length := by
    rw [length_within, UInt32.toNat_sub_of_le, toNat_uint32_length]
    rw [UInt32.le_iff_toNat_le, toNat_uint32_length]
    exact hoft
  rw [UInt32.le_iff_toNat_le, hsub]
  rfl

theorem oft_advance_within (hoft : buffer.oft.toNat ≤ buffer.data.length % 2 ^ 32) {count : ℕ}
    (hle : count ≤ buffer.within.length) :
    (buffer.advance count).oft.toNat = buffer.oft.toNat + count := by
  have hmod : buffer.data.length % 2 ^ 32 < 2 ^ 32 := Nat.mod_lt _ (by decide)
  rw [length_within] at hle
  rw [advance, UInt32.toNat_add, UInt32.toNat_ofNat']
  omega

theorem within_advance (hoft : buffer.oft.toNat ≤ buffer.data.length % 2 ^ 32) {count : ℕ}
    (hle : count ≤ buffer.within.length) :
    (buffer.advance count).within = buffer.within.drop count := by
  rw [within, oft_advance_within hoft hle, advance_data, ← List.drop_drop, ← within]

theorem readByte_within (hoft : buffer.oft.toNat ≤ buffer.data.length % 2 ^ 32) (old : UInt8) :
    WebSocketPacket.readByte buffer old =
      .ok (buffer.within.headD old, buffer.advance (min 1 buffer.within.length)) := by
  have hlength := length_within buffer
  rw [WebSocketPacket.readByte, readBytesX, require_one hoft]
  cases hbytes : buffer.within with
  | nil =>
      rw [List.length_nil, Nat.min_zero, advance_zero]
      rfl
  | cons byte bytes =>
      have hlt : buffer.oft.toNat < buffer.data.length := by
        rw [hbytes, List.length_cons] at hlength
        have hle := Nat.mod_le buffer.data.length (2 ^ 32)
        omega
      have hone : buffer.rest.take 1 = [byte] := by
        rw [within, List.drop_take, ← rest] at hbytes
        have hhead := congrArg (List.take 1) hbytes
        rw [List.take_take, Nat.min_eq_left] at hhead
        · exact hhead
        · rw [← hlength, within, List.drop_take, ← rest, hbytes]
          exact Nat.succ_pos _
      have hat : buffer.dataAt buffer.oft.toNat = .ok buffer.rest := by
        rw [dataAt, if_pos hlt, rest]
      have hload : load buffer.rest (UInt64.ofInt 1).toNat = .ok [byte] := by
        rw [← hone]
        apply if_pos
        rw [rest, List.length_drop]
        exact Nat.sub_pos_of_lt hlt
      rw [if_pos (by simp), hat]
      simp only [ok_bind, hload, pure_eq_ok, List.length_cons, List.headD_cons, Option.getD_some]
      rw [Nat.min_eq_left (Nat.succ_pos _)]
      rfl

end Within

end ByteBuffer

namespace WebSocketPacket

open ByteBuffer

/-- The masked loop on data of any size. -/
theorem copyMasked_within (key : MaskingKey) (remaining start : ℕ) (value : UInt8)
    {source : ByteBuffer} (target : ByteBuffer)
    (hoft : source.oft.toNat ≤ source.data.length % 2 ^ 32) :
    copyMasked key remaining start value source target =
      .ok (source.advance (min remaining source.within.length), { target with
        data := target.data ++
          Bytes.xorRepeating key.byteAt remaining start value source.within }) := by
  induction remaining generalizing start value source target with
  | zero => simp [copyMasked, Bytes.xorRepeating]
  | succ remaining ih =>
      have hle : min 1 source.within.length ≤ source.within.length := Nat.min_le_right _ _
      have hlength := length_within source
      -- At the end of the data nothing is read, and `value` keeps what it had.
      have hnext : (source.advance (min 1 source.within.length)).within = source.within.tail := by
        rw [within_advance hoft hle]
        cases source.within with
        | nil => rfl
        | cons byte bytes => simp
      have htail : source.within.tail.length = source.within.length - 1 := List.length_tail
      have hcount : min 1 source.within.length + min remaining source.within.tail.length =
          min (remaining + 1) source.within.length := by
        omega
      rw [copyMasked, readByte_within hoft]
      simp only [ok_bind, append_singleton]
      rw [ih, hnext, advance_advance, hcount]
      · simp only [List.append_assoc, List.singleton_append, Bytes.xorRepeating]
      · rw [oft_advance_within hoft hle, advance_data]
        omega

/-! ## The bytes written -/

theorem toUInt8_shifted (size : Nat) {shift : UInt64} (hshift : shift < 64)
    (hsize : size < 2 ^ 64) :
    ((UInt64.ofNat size >>> shift) &&& 0xFF).toUInt8 = UInt8.ofNat (size >>> shift.toNat) := by
  have hlt : shift.toNat < 64 := UInt64.lt_iff_toNat_lt.mp hshift
  apply UInt8.toNat_inj.mp
  rw [UInt64.toNat_toUInt8, UInt64.toNat_and, UInt64.toNat_shiftRight, UInt64.toNat_ofNat',
    UInt8.toNat_ofNat', Nat.mod_eq_of_lt hsize, Nat.mod_eq_of_lt hlt]
  change (size >>> shift.toNat &&& (2 ^ 8 - 1)) % 2 ^ 8 = _
  rw [Nat.and_two_pow_sub_one_eq_mod, Nat.mod_mod]

theorem appendShifted_eq (size : Nat) (hsize : size < 2 ^ 64) (shifts : List UInt64)
    (hshifts : ∀ shift ∈ shifts, shift < 64) (output : ByteBuffer) :
    appendShifted (UInt64.ofNat size) shifts output =
      .ok { output with
        data := output.data ++ shifts.map fun shift => UInt8.ofNat (size >>> shift.toNat) } := by
  induction shifts generalizing output with
  | nil => simp [appendShifted]
  | cons shift shifts ih =>
      simp only [List.forall_mem_cons] at hshifts
      rw [appendShifted, append_singleton, toUInt8_shifted size hshifts.1 hsize]
      simp only [ok_bind]
      rw [ih hshifts.2]
      simp

theorem getLengthType_eq {packet : WebSocketPacket} {size : Nat} (hsize : size < 2 ^ 64)
    (hlength : packet.payloadLength = UInt64.ofNat size) :
    packet.getLengthType = Frame.lengthCode size := by
  have hnat : (UInt64.ofNat size).toNat = size := by
    rw [UInt64.toNat_ofNat']
    omega
  have hshort : UInt64.ofNat size < 126 ↔ size < 126 := by
    rw [UInt64.lt_iff_toNat_lt, hnat]
    rfl
  have hmedium : UInt64.ofNat size ≤ 0xFFFF ↔ size ≤ 0xFFFF := by
    rw [UInt64.le_iff_toNat_le, hnat]
    rfl
  unfold getLengthType Frame.lengthCode
  rw [hlength]
  simp only [hshort, hmedium, ge_iff_le]
  split
  · apply UInt8.toNat_inj.mp
    rw [UInt64.toNat_toUInt8, hnat, UInt8.toNat_ofNat']
  next hnot =>
    have hlarge : (126 : UInt64) ≤ UInt64.ofNat size := by
      rw [UInt64.le_iff_toNat_le, hnat]
      change 126 ≤ size
      omega
    simp only [hlarge, true_and]

/-- The bytes before the payload. -/
def headBytes (packet : WebSocketPacket) : List UInt8 :=
  ((packet.fin <<< 7) ||| (packet.rsv1 <<< 6) ||| (packet.rsv2 <<< 5) ||| (packet.rsv3 <<< 4) |||
      (packet.opcode &&& 0x0F)) ::
    ((packet.mask <<< 7) ||| Frame.lengthCode packet.payloadLength.toNat) ::
    (Frame.lengthBytes packet.payloadLength.toNat ++
      if packet.mask = 1 then packet.maskingKey.toList else [])

/-- The bytes for the payload. With a mask there are as many as `payload_length_`
says, and the reads need not get that many. -/
def bodyBytes (packet : WebSocketPacket) : List UInt8 :=
  if packet.mask = 1 then
    Bytes.xorRepeating packet.maskingKey.byteAt packet.payloadLength.toNat 0 0 packet.payload.within
  else packet.payload.bytes.take packet.payload.length.toNat

/-- The packet after packing: a masked payload has been read. -/
def drained (packet : WebSocketPacket) : WebSocketPacket :=
  if packet.mask = 1 then
    { packet with
      payload := packet.payload.advance
        (min packet.payloadLength.toNat packet.payload.within.length) }
  else packet

theorem append_own_bytes (output source : ByteBuffer) :
    output.append source.bytes source.length =
      .ok { output with data := output.data ++ source.bytes.take source.length.toNat } := by
  unfold append
  split
  next hpos =>
    have hbytes : source.bytes = source.data := if_neg (by omega)
    have hle := source.length_le
    rw [load, if_pos (by rw [hbytes]; omega)]
    rfl
  next hnot =>
    have hzero : source.length.toNat = 0 := by omega
    rw [hzero, List.take_zero, List.append_nil, pure_eq_ok]

theorem packPayload_eq {packet : WebSocketPacket}
    (hoft : packet.payload.oft.toNat ≤ packet.payload.data.length % 2 ^ 32) (output : ByteBuffer) :
    packDataframe.packPayload packet output =
      .ok (0, packet.drained, { output with
        data := output.data ++
          ((if packet.mask = 1 then packet.maskingKey.toList else []) ++ packet.bodyBytes) }) := by
  by_cases hmask : packet.mask = 1
  · have hkey : output.append packet.maskingKey.toList 4 =
        .ok { output with data := output.data ++ packet.maskingKey.toList } :=
      append_all output _ (by simp)
    have hcopy := copyMasked_within packet.maskingKey packet.payloadLength.toNat 0 0
      { output with data := output.data ++ packet.maskingKey.toList } hoft
    rw [packDataframe.packPayload, if_pos hmask, hkey, drained, bodyBytes, if_pos hmask,
      if_pos hmask, if_pos hmask, ok_bind, hcopy]
    generalize packet.payload.advance _ = payload
    rw [ok_bind, List.append_assoc]
    rfl
  · rw [packDataframe.packPayload, if_neg hmask, append_own_bytes, ok_bind, drained, bodyBytes,
      if_neg hmask, if_neg hmask, if_neg hmask, List.nil_append]
    rfl

/-- **What `packDataframe` appends, and what it leaves of the packet.** -/
theorem packDataframe_eq {packet : WebSocketPacket}
    (hoft : packet.payload.oft.toNat ≤ packet.payload.data.length % 2 ^ 32) (output : ByteBuffer) :
    packDataframe packet output =
      .ok (0, packet.drained, { output with
        data := output.data ++ (packet.headBytes ++ packet.bodyBytes) }) := by
  have hsize : packet.payloadLength.toNat < 2 ^ 64 := packet.payloadLength.toNat_lt
  have hlength : packet.payloadLength = UInt64.ofNat packet.payloadLength.toNat :=
    (UInt64.ofNat_toNat).symm
  have hcode := getLengthType_eq hsize hlength
  unfold packDataframe headBytes
  simp only [append_singleton, ok_bind, hcode, UInt8.zero_or, Frame.lengthCode_lt_126]
  by_cases hshort : packet.payloadLength.toNat < 126
  · have hbyte : packet.payloadLength.toUInt8 = Frame.lengthCode packet.payloadLength.toNat := by
      rw [← hcode, getLengthType, if_pos]
      rw [UInt64.lt_iff_toNat_lt]
      exact hshort
    rw [if_pos hshort, packPayload_eq hoft, hbyte]
    simp [Frame.lengthBytes, hshort]
  rw [if_neg hshort]
  by_cases hmedium : packet.payloadLength.toNat ≤ 0xFFFF
  · rw [if_pos (by simp [Frame.lengthCode, hshort, hmedium])]
    have happend := appendShifted_eq packet.payloadLength.toNat hsize [8, 0] (by simp)
    rw [← hlength] at happend
    simp only [happend, ok_bind]
    rw [packPayload_eq hoft]
    simp [Frame.lengthBytes, hshort, hmedium, Bytes.bigEndian]
  · have hcode127 : Frame.lengthCode packet.payloadLength.toNat = 127 := by
      simp [Frame.lengthCode, hshort, hmedium]
    have happend := appendShifted_eq packet.payloadLength.toNat hsize
      [56, 48, 40, 32, 24, 16, 8, 0] (by simp)
    rw [← hlength] at happend
    rw [if_neg (by rw [hcode127]; decide), if_pos hcode127]
    simp only [happend, ok_bind]
    rw [packPayload_eq hoft]
    simp [Frame.lengthBytes, hshort, hmedium, Bytes.bigEndian]

end WebSocketPacket

end CppFragments
