import CppFragments.WebSocket.Pack

/-! # What decoding leaves in the packet

Whatever bytes a packet is given to decode, what it reports afterwards is
consistent, so that it can be packed again.
-/

namespace CppFragments

open Outcome ByteBuffer WebSocketPacket

/-- What a decoder reports of a frame. -/
structure DecodedFrame where
  fin : UInt8
  opcode : UInt8
  key? : Option MaskingKey
  payload : List UInt8
  deriving DecidableEq

def WebSocketPacket.decoded (packet : WebSocketPacket) : DecodedFrame where
  fin := packet.fin
  opcode := packet.opcode
  key? := if packet.mask = 1 then some packet.maskingKey else none
  payload := packet.payload.data

namespace DecodedFrame

/-- The Pong that answers a Ping. -/
def pong (decoded : DecodedFrame) : Frame :=
  ⟨true, false, false, false, WSOpcode.Pong.number, decoded.key?, decoded.payload⟩

/-- What is written back when `process_one_message` is given this frame. -/
def answers (decoded : DecodedFrame) : List (List UInt8) :=
  if decoded.opcode = WSOpcode.Ping.code then [decoded.pong.encode] else []

/-- What the Text branch is given when this frame ends the message. -/
def texts (decoded : DecodedFrame) (message : List UInt8) : List (List UInt8) :=
  if decoded.opcode = WSOpcode.Text.code then [message] else []

/-- What is written back while processing one frame. -/
def replies (frame : DecodedFrame) : List (List UInt8) :=
  if frame.fin = 1 then frame.answers else []

end DecodedFrame

/-- The RSV bits are reported as part of the opcode. -/
def ShortFrame.decoded (frame : ShortFrame) : DecodedFrame where
  fin := frame.fin.toUInt8
  opcode := frame.opcodeField
  key? := frame.key?
  payload := frame.payload

theorem ShortFrame.decoded_fin (frame : ShortFrame) :
    frame.decoded.fin = 1 ↔ frame.fin = true := by
  change frame.fin.toUInt8 = 1 ↔ _
  cases frame.fin <;> decide

def PlainFrame.decoded (frame : PlainFrame) : DecodedFrame where
  fin := frame.fin.toUInt8
  opcode := UInt8.ofNat frame.opcode
  key? := frame.key?
  payload := frame.payload

theorem PlainFrame.decoded_fin (frame : PlainFrame) :
    frame.decoded.fin = 1 ↔ frame.fin = true :=
  frame.toShortFrame.decoded_fin

theorem PlainFrame.decoded_opcode (frame : PlainFrame) (kind : WSOpcode) :
    frame.decoded.opcode = kind.code ↔ frame.opcode = kind.number := by
  change UInt8.ofNat frame.opcode = kind.code ↔ _
  generalize frame.opcode = opcode
  revert opcode
  cases kind <;> decide

theorem PlainFrame.decoded_toShortFrame (frame : PlainFrame) :
    frame.toShortFrame.decoded = frame.decoded := by
  have hfield : frame.toShortFrame.opcodeField = UInt8.ofNat frame.opcode := by
    simp [Frame.opcodeField, toShortFrame, Bool.toUInt8]
  simp only [ShortFrame.decoded, hfield]
  rfl

namespace WebSocketPacket

/-- As `ws_packet` is at the head of the parse loop. -/
structure Ready (packet : WebSocketPacket) : Prop where
  rsv1 : packet.rsv1 = 0
  rsv2 : packet.rsv2 = 0
  rsv3 : packet.rsv3 = 0
  payloadLength_le : packet.payloadLength.toNat ≤ 65535
  payload : packet.payload = .empty

/-- As `ws_packet` is when a frame has been decoded into it. -/
structure Parsed (packet : WebSocketPacket) : Prop where
  rsv1 : packet.rsv1 = 0
  rsv2 : packet.rsv2 = 0
  rsv3 : packet.rsv3 = 0
  mask_le : packet.mask ≤ 1
  payloadLength_le : packet.payloadLength.toNat ≤ 65535
  payload_length : packet.payload.data.length = packet.payloadLength.toNat
  payload_oft : packet.payload.oft = 0

theorem ready_new (indeterminate : MaskingKey) : (new indeterminate).Ready :=
  ⟨rfl, rfl, rfl, Nat.zero_le _, rfl⟩

/-- `ws_packet` after the clearing at the end of a pass. -/
def cleared (packet : WebSocketPacket) : WebSocketPacket :=
  { packet with payload := packet.payload.clear }

variable {packet : WebSocketPacket}

theorem Parsed.cleared (hparsed : packet.Parsed) : packet.cleared.Ready :=
  ⟨hparsed.rsv1, hparsed.rsv2, hparsed.rsv3, hparsed.payloadLength_le, rfl⟩

/-! ## Decoding -/

theorem fetchLength_ensures (packet : WebSocketPacket) (input : ByteBuffer) :
    Ensures (fun result => ∃ length : UInt64,
      (length = packet.payloadLength ∨ length.toNat ≤ 65535) ∧
        result.1 = { packet with payloadLength := length }) (fetchLength packet input) := by
  unfold fetchLength
  split
  next hshort =>
    have hlt : packet.lengthType.toNat < 126 := UInt8.lt_iff_toNat_lt.mp hshort
    refine (ensures_ok _).mpr ⟨_, Or.inr ?_, rfl⟩
    rw [UInt8.toNat_toUInt64]
    omega
  · split
    · refine (ensures_true _).bind ?_
      intro read _
      refine (ensures_ok _).mpr ⟨_, Or.inr ?_, rfl⟩
      rw [UInt16.toNat_toUInt64]
      exact Nat.le_of_lt_succ (UInt16.toNat_lt _)
    · split
      · -- The 64-bit form leaves the length of the frame decoded before.
        refine (ensures_true _).bind ?_
        intro read _
        exact (ensures_ok _).mpr ⟨_, Or.inl rfl, rfl⟩
      · exact (ensures_ok _).mpr ⟨_, Or.inl rfl, rfl⟩

theorem fetchKey_ensures (packet : WebSocketPacket) (input : ByteBuffer) :
    Ensures (fun result => ∃ key, result.1 = { packet with maskingKey := key })
      (fetchKey packet input) := by
  unfold fetchKey
  split
  · refine (ensures_true _).bind ?_
    intro read _
    exact (ensures_ok _).mpr ⟨_, rfl⟩
  · exact (ensures_ok _).mpr ⟨_, rfl⟩

theorem shifted_and_one_le (byte : UInt8) : (byte >>> 7) &&& 0x01 ≤ 1 := by
  rw [UInt8.le_iff_toNat_le, UInt8.toNat_and]
  exact Nat.and_le_right

/-- What reading a header changes: neither the reserved bits nor the payload, and
the length only to one of 16 bits. -/
structure HeaderRead (packet packet' : WebSocketPacket) : Prop where
  rsv1 : packet'.rsv1 = packet.rsv1
  rsv2 : packet'.rsv2 = packet.rsv2
  rsv3 : packet'.rsv3 = packet.rsv3
  payload : packet'.payload = packet.payload
  mask_le : packet'.mask ≤ 1
  payloadLength : packet'.payloadLength = packet.payloadLength ∨
    packet'.payloadLength.toNat ≤ 65535

theorem fetchFrameInfo_ensures (packet : WebSocketPacket) (input : ByteBuffer) :
    Ensures (fun result => packet.HeaderRead result.2.1) (fetchFrameInfo packet input) := by
  unfold fetchFrameInfo
  refine (ensures_true _).bind ?_
  intro first _
  refine (ensures_true _).bind ?_
  intro second _
  refine (fetchLength_ensures _ _).bind ?_
  intro stored hstored
  rcases stored with ⟨_, input'⟩
  rcases hstored with ⟨length, hlength, rfl⟩
  refine (fetchKey_ensures _ _).bind ?_
  intro keyed hkeyed
  rcases keyed with ⟨_, input''⟩
  rcases hkeyed with ⟨key, rfl⟩
  exact (ensures_ok _).mpr ⟨rfl, rfl, rfl, rfl, shifted_and_one_le second.1, hlength⟩

theorem HeaderRead.payloadLength_le {packet' : WebSocketPacket} (hread : packet.HeaderRead packet')
    (hle : packet.payloadLength.toNat ≤ 65535) : packet'.payloadLength.toNat ≤ 65535 := by
  rcases hread.payloadLength with hkept | hstored
  · rwa [hkept]
  · exact hstored

theorem HeaderRead.ready {packet' : WebSocketPacket} (hread : packet.HeaderRead packet')
    (hready : packet.Ready) : packet'.Ready :=
  ⟨hread.rsv1.trans hready.rsv1, hread.rsv2.trans hready.rsv2, hread.rsv3.trans hready.rsv3,
    hread.payloadLength_le hready.payloadLength_le, hread.payload.trans hready.payload⟩

/-- The masked loop appends one byte an iteration, whatever it can read. -/
theorem copyMasked_ensures (key : MaskingKey) (remaining start : Nat) (value : UInt8)
    (source target : ByteBuffer) :
    Ensures (fun result => result.2.oft = target.oft ∧
      result.2.data.length = target.data.length + remaining)
      (copyMasked key remaining start value source target) := by
  induction remaining generalizing start value source target with
  | zero => simp [copyMasked]
  | succ remaining ih =>
      unfold copyMasked
      refine (ensures_true _).bind fun read _ => ?_
      refine (append_ensures target _ 1).bind fun target' happend => ?_
      intro result hresult
      obtain ⟨hoft, hlength⟩ := ih _ _ _ _ result hresult
      rw [happend.1] at hoft
      rw [happend.2] at hlength
      exact ⟨hoft, by rw [hlength]; simp; omega⟩

theorem fetchPayload_ensures (hready : packet.Ready) (hmask : packet.mask ≤ 1)
    (input : ByteBuffer) :
    Ensures (fun result => result.1.Parsed) (fetchPayload packet input) := by
  have hempty : packet.payload.data.length = 0 := by rw [hready.payload]; rfl
  have hoft : packet.payload.oft = 0 := by rw [hready.payload]; rfl
  unfold fetchPayload
  split
  · refine (copyMasked_ensures _ _ _ _ _ _).bind ?_
    intro copied hcopied
    rcases copied with ⟨input', payload⟩
    rcases hcopied with ⟨hpayload, hlength⟩
    refine (ensures_ok _).mpr ⟨hready.rsv1, hready.rsv2, hready.rsv3, hmask,
      hready.payloadLength_le, ?_, hpayload.trans hoft⟩
    simpa [hempty] using hlength
  · refine (ensures_true _).bind fun pointer _ => ?_
    refine (append_ensures _ _ _).bind fun payload happend => ?_
    have hle := hready.payloadLength_le
    rw [hempty, toInt32_natCast (by omega)] at happend
    refine (ensures_ok _).mpr ⟨hready.rsv1, hready.rsv2, hready.rsv3, hmask,
      hready.payloadLength_le, ?_, happend.1.trans hoft⟩
    simpa using happend.2

/-- **Any frame that `recvDataframe` reports is consistent.** -/
theorem recvDataframe_ensures (hready : packet.Ready) (input : ByteBuffer) :
    Ensures (fun result => result.1 ≠ 0 → result.2.1.Parsed) (recvDataframe packet input) := by
  unfold recvDataframe
  refine (fetchFrameInfo_ensures packet input).bind ?_
  intro header hread
  rcases header with ⟨size, packet', input'⟩
  dsimp only
  split
  · exact (ensures_ok _).mpr fun hne => absurd rfl hne
  · refine (fetchPayload_ensures (hread.ready hready) hread.mask_le input').bind ?_
    intro result hparsed
    exact (ensures_ok _).mpr fun _ => hparsed

/-! ## After a frame at the cursor -/

theorem Ready.withFrame_payload (hready : packet.Ready) (frame : ShortFrame) :
    (packet.withFrame frame.toFrame).payload = ⟨frame.payload, 0⟩ := by
  simp [withFrame, hready.payload, ByteBuffer.empty]

theorem Ready.decoded_withFrame (hready : packet.Ready) (frame : ShortFrame) :
    (packet.withFrame frame.toFrame).decoded = frame.decoded := by
  have hpayload := hready.withFrame_payload frame
  simp only [decoded, hpayload, ShortFrame.decoded, DecodedFrame.mk.injEq, and_true]
  refine ⟨rfl, rfl, ?_⟩
  change (if frame.key?.isSome.toUInt8 = 1 then
    some (frame.key?.getD packet.maskingKey) else none) = frame.key?
  cases frame.key? <;> simp [Bool.toUInt8]

theorem Ready.withFrame_parsed (hready : packet.Ready) (frame : ShortFrame) :
    (packet.withFrame frame.toFrame).Parsed := by
  have hlength : (packet.withFrame frame.toFrame).payloadLength.toNat = frame.payload.length := by
    have hlt := frame.payload_lt
    rw [withFrame_payloadLength packet frame.payload_le, UInt64.toNat_ofNat']
    omega
  have hpayload := hready.withFrame_payload frame
  refine ⟨hready.rsv1, hready.rsv2, hready.rsv3, ?_, ?_, ?_, ?_⟩
  · change frame.key?.isSome.toUInt8 ≤ 1
    cases frame.key?.isSome <;> decide
  · rw [hlength]
    exact frame.payload_le
  · rw [hlength, hpayload]
  · rw [hpayload]

/-! ## The Pong -/

/-- A packet that has decoded a frame is set up to pack the Pong. -/
theorem Parsed.pong_holds (hparsed : packet.Parsed) :
    ({ packet with fin := 1, opcode := WSOpcode.Pong.code }).Holds packet.decoded.pong where
  fin := rfl
  rsv1 := hparsed.rsv1
  rsv2 := hparsed.rsv2
  rsv3 := hparsed.rsv3
  opcode := rfl
  mask := by
    rw [bit_eq_toUInt8 hparsed.mask_le]
    simp only [decoded, DecodedFrame.pong]
    split <;> simp_all
  maskingKey := by
    intro key hkey
    simp only [decoded, DecodedFrame.pong] at hkey
    split at hkey
    · exact Option.some.inj hkey
    · cases hkey
  payloadLength := by
    change packet.payloadLength = UInt64.ofNat packet.payload.data.length
    rw [hparsed.payload_length, UInt64.ofNat_toNat]
  payload := by
    change packet.payload = ⟨packet.payload.data, 0⟩
    rw [← hparsed.payload_oft]

end WebSocketPacket

end CppFragments
