import CppFragments.WebSocket.Written

/-! # What the encoder writes, and that decoding reads it back

`packDataframe` appends the wire format of the frame a packet holds, for every
payload size. The decoder gives the same fields back except for the RSV bits.
-/

namespace CppFragments

open Outcome ByteBuffer WebSocketPacket

namespace WebSocketPacket

/-- The packet is set up to pack this frame: its header fields are the
frame's, and its payload buffer holds the payload, unread. -/
structure Holds (packet : WebSocketPacket) (frame : Frame) : Prop where
  fin : packet.fin = frame.fin.toUInt8
  rsv1 : packet.rsv1 = frame.rsv1.toUInt8
  rsv2 : packet.rsv2 = frame.rsv2.toUInt8
  rsv3 : packet.rsv3 = frame.rsv3.toUInt8
  opcode : packet.opcode = UInt8.ofNat frame.opcode
  mask : packet.mask = frame.key?.isSome.toUInt8
  maskingKey : ∀ key ∈ frame.key?, packet.maskingKey = key
  payloadLength : packet.payloadLength = UInt64.ofNat frame.payload.length
  payload : packet.payload = cursor [] frame.payload

/-- The packet after packing: a masked payload has been read to its end. -/
def packed (packet : WebSocketPacket) (frame : Frame) : WebSocketPacket :=
  { packet with
    payload := if frame.key?.isSome then cursor frame.payload [] else packet.payload }

section Holds

variable {packet : WebSocketPacket} {frame : Frame}

theorem headBytes_holds (hholds : packet.Holds frame) (hsize : frame.payload.length < 2 ^ 64) :
    packet.headBytes = frame.header := by
  have hopcode : ∀ opcode : Fin 16, UInt8.ofNat opcode &&& 0x0F = UInt8.ofNat opcode := by decide
  have hnat : packet.payloadLength.toNat = frame.payload.length := by
    rw [hholds.payloadLength, UInt64.toNat_ofNat']
    omega
  have hkey : (if packet.mask = 1 then packet.maskingKey.toList else []) =
      Frame.keyBytes frame.key? := by
    cases hframe : frame.key? with
    | none => rw [if_neg (by rw [hholds.mask, hframe]; decide), Frame.keyBytes]
    | some key =>
        rw [if_pos (by rw [hholds.mask, hframe]; rfl), hholds.maskingKey key hframe,
          Frame.keyBytes]
  rw [headBytes, hkey, hnat, hholds.fin, hholds.rsv1, hholds.rsv2, hholds.rsv3, hholds.opcode,
    hholds.mask, hopcode]
  rfl

theorem within_holds (hholds : packet.Holds frame) (hsize : frame.payload.length < 2 ^ 31) :
    packet.payload.within = frame.payload := by
  have hdata : packet.payload.data = frame.payload := by rw [hholds.payload]; rfl
  have hoft : packet.payload.oft = 0 := by rw [hholds.payload]; rfl
  rw [within, hdata, hoft, Nat.mod_eq_of_lt (by omega), List.take_length]
  rfl

theorem bodyBytes_holds (hholds : packet.Holds frame) (hsize : frame.payload.length < 2 ^ 31) :
    packet.bodyBytes = frame.body := by
  have hdata : packet.payload.data = frame.payload := by rw [hholds.payload]; rfl
  have hnat : packet.payloadLength.toNat = frame.payload.length := by
    rw [hholds.payloadLength, UInt64.toNat_ofNat']
    omega
  unfold bodyBytes Frame.body
  cases hframe : frame.key? with
  | none =>
      rw [if_neg (by rw [hholds.mask, hframe]; decide),
        bytes_take_length _ (by rw [hdata]; exact hsize), hdata]
  | some key =>
      rw [if_pos (by rw [hholds.mask, hframe]; rfl), hholds.maskingKey key hframe,
        within_holds hholds hsize, hnat, Bytes.xorRepeating_length]

theorem drained_holds (hholds : packet.Holds frame) (hsize : frame.payload.length < 2 ^ 31) :
    packet.drained = packet.packed frame := by
  have hnat : packet.payloadLength.toNat = frame.payload.length := by
    rw [hholds.payloadLength, UInt64.toNat_ofNat']
    omega
  unfold drained packed
  cases hframe : frame.key? with
  | none =>
      rw [if_neg (by rw [hholds.mask, hframe]; decide)]
      cases packet
      rfl
  | some key =>
      have hread := cursor_advance [] frame.payload []
      rw [List.append_nil, List.nil_append] at hread
      rw [if_pos (by rw [hholds.mask, hframe]; rfl), within_holds hholds hsize, hnat,
        Nat.min_self, hholds.payload, hread]
      rfl

/-- **`packDataframe` appends the wire format of the frame the packet holds**,
whatever the payload size and the earlier contents of the output. -/
theorem packDataframe_holds (hholds : packet.Holds frame)
    (hsize : frame.payload.length < 2 ^ 31) (output : ByteBuffer) :
    packDataframe packet output =
      .ok (0, packet.packed frame, { output with data := output.data ++ frame.encode }) := by
  have hoft : packet.payload.oft.toNat ≤ packet.payload.data.length % 2 ^ 32 := by
    rw [hholds.payload]
    exact Nat.zero_le _
  rw [packDataframe_eq hoft, headBytes_holds hholds (by omega), bodyBytes_holds hholds hsize,
    drained_holds hholds hsize]
  rfl

end Holds

/-! ## Installing a payload -/

/-- The header fields are values the packing code has bits for. -/
structure HeaderInRange (packet : WebSocketPacket) : Prop where
  fin : packet.fin ≤ 1
  rsv1 : packet.rsv1 ≤ 1
  rsv2 : packet.rsv2 ≤ 1
  rsv3 : packet.rsv3 ≤ 1
  opcode : packet.opcode ≤ 15
  mask : packet.mask ≤ 1

/-- The frame a packet's header fields describe. -/
def frameOf (packet : WebSocketPacket) (payload : List UInt8) : Frame where
  fin := packet.fin = 1
  rsv1 := packet.rsv1 = 1
  rsv2 := packet.rsv2 = 1
  rsv3 := packet.rsv3 = 1
  opcode := Frame.opcodeOf packet.opcode
  key? := if packet.mask = 1 then some packet.maskingKey else none
  payload := payload

theorem bit_eq_toUInt8 {bit : UInt8} (hbit : bit ≤ 1) : bit = (decide (bit = 1)).toUInt8 := by
  have hnat : bit.toNat ≤ 1 := UInt8.le_iff_toNat_le.mp hbit
  by_cases hone : bit = 1
  · subst hone
    rfl
  · have hzero : bit = 0 := by
      apply UInt8.toNat_inj.mp
      have hne : bit.toNat ≠ 1 := fun heq => hone (UInt8.toNat_inj.mp heq)
      change bit.toNat = 0
      omega
    subst hzero
    rfl

/-- The packet with a payload installed in its empty payload buffer. -/
def loaded (packet : WebSocketPacket) (payload : List UInt8) : WebSocketPacket :=
  { packet with payload := cursor [] payload, payloadLength := UInt64.ofNat payload.length }

/-- A further `set_payload` call adds to the payload. -/
theorem setPayload_append {packet : WebSocketPacket} {payload chunk : List UInt8}
    (hpayload : packet.payload = cursor [] payload)
    (hsize : payload.length + chunk.length < 2 ^ 31) :
    packet.setPayload chunk (UInt64.ofNat chunk.length) =
      .ok (packet.loaded (payload ++ chunk)) := by
  have hnat : (UInt64.ofNat chunk.length).toNat = chunk.length := by
    rw [UInt64.toNat_ofNat']
    omega
  have hlength : (cursor [] (payload ++ chunk)).length = (payload ++ chunk).length :=
    toInt32_natCast (by simpa using hsize)
  have happend : packet.payload.append chunk (toInt32 chunk.length) =
      .ok (cursor [] (payload ++ chunk)) := by
    rw [hpayload, toInt32_natCast (by omega), append_all _ _ rfl]
    rfl
  rw [setPayload, hnat, happend]
  simp only [ok_bind, pure_eq_ok, loaded]
  rw [hlength, uint64_ofInt_natCast]

theorem setPayload_empty {packet : WebSocketPacket} (hempty : packet.payload = .empty)
    {payload : List UInt8} (hsize : payload.length < 2 ^ 31) :
    packet.setPayload payload (UInt64.ofNat payload.length) = .ok (packet.loaded payload) := by
  have hstart : packet.payload = cursor [] [] := hempty
  have htotal : ([] : List UInt8).length + payload.length < 2 ^ 31 := by simpa using hsize
  exact setPayload_append hstart htotal

theorem loaded_holds {packet : WebSocketPacket} (hrange : packet.HeaderInRange)
    (payload : List UInt8) : (packet.loaded payload).Holds (packet.frameOf payload) := by
  refine ⟨bit_eq_toUInt8 hrange.fin, bit_eq_toUInt8 hrange.rsv1, bit_eq_toUInt8 hrange.rsv2,
    bit_eq_toUInt8 hrange.rsv3, ?_, ?_, ?_, rfl, rfl⟩
  · have hle : packet.opcode.toNat ≤ 15 := UInt8.le_iff_toNat_le.mp hrange.opcode
    apply UInt8.toNat_inj.mp
    simp only [loaded, frameOf, Frame.opcodeOf, Fin.val_ofNat, UInt8.toNat_ofNat']
    omega
  · rw [loaded, bit_eq_toUInt8 hrange.mask]
    simp only [frameOf]
    split <;> simp_all
  · intro key hkey
    simp only [frameOf] at hkey
    split at hkey
    · exact Option.some.inj hkey
    · simp at hkey

/-- One `set_payload` call for each chunk. -/
def setPayloads (packet : WebSocketPacket) (chunks : List (List UInt8)) :
    Except Fault WebSocketPacket :=
  chunks.foldlM (fun packet chunk => packet.setPayload chunk (UInt64.ofNat chunk.length)) packet

theorem setPayloads_loaded (packet : WebSocketPacket) (payload : List UInt8)
    (chunks : List (List UInt8)) (hsize : payload.length + chunks.flatten.length < 2 ^ 31) :
    (packet.loaded payload).setPayloads chunks =
      .ok (packet.loaded (payload ++ chunks.flatten)) := by
  induction chunks generalizing payload with
  | nil => simp [setPayloads]
  | cons chunk chunks ih =>
      rw [List.flatten_cons, List.length_append] at hsize
      have hset : (packet.loaded payload).setPayload chunk (UInt64.ofNat chunk.length) =
          .ok (packet.loaded (payload ++ chunk)) :=
        setPayload_append rfl (by omega)
      have hrest := ih (payload ++ chunk) (by rw [List.length_append]; omega)
      rw [setPayloads, List.foldlM_cons, hset, ok_bind, List.flatten_cons, ← List.append_assoc]
      exact hrest

/-- **A fresh packet is packed into the wire format of its frame**, in however
many pieces its payload was installed. -/
theorem packDataframe_setPayloads (packet : WebSocketPacket) (hrange : packet.HeaderInRange)
    (hempty : packet.payload = .empty) (hzero : packet.payloadLength = 0)
    (chunks : List (List UInt8)) (hsize : chunks.flatten.length + 14 < 2 ^ 31)
    (output : ByteBuffer) :
    ∃ loaded packed,
      packet.setPayloads chunks = .ok loaded ∧
      loaded.packDataframe output = .ok (0, packed, { output with
        data := output.data ++ (packet.frameOf chunks.flatten).encode }) := by
  have hstart : packet = packet.loaded [] := by
    cases packet
    subst hempty hzero
    rfl
  have hinstalled := setPayloads_loaded packet [] chunks (by simp only [List.length_nil]; omega)
  rw [← hstart, List.nil_append] at hinstalled
  exact ⟨packet.loaded chunks.flatten, _, hinstalled,
    packDataframe_holds (loaded_holds hrange chunks.flatten)
      (Nat.lt_of_le_of_lt (Nat.le_add_right _ 14) hsize) output⟩

/-- A fresh packet for a masked Binary frame. -/
def binaryPacket : WebSocketPacket :=
  { new (Vector.replicate 4 0) with
    fin := 1, opcode := WSOpcode.Binary.code, mask := 1, maskingKey := #v[7, 5, 3, 1] }

theorem packDataframe_setPayloads_binary :
    ∃ loaded packed,
      binaryPacket.setPayloads [[0x61, 0x62], [], [0x63]] = .ok loaded ∧
      loaded.packDataframe ⟨[0x07], 0⟩ = .ok (0, packed, ⟨[0x07] ++
        (binaryPacket.frameOf [0x61, 0x62, 0x63]).encode, 0⟩) :=
  packDataframe_setPayloads binaryPacket (by constructor <;> decide) rfl rfl
    [[0x61, 0x62], [], [0x63]] (by decide) ⟨[0x07], 0⟩

/-! ## Decoding what was packed -/

/-- A fresh packet decodes, after the bytes `earlier`, the header fields of
`packet` and `payload` from the bytes `written`, and moves over just these. -/
def RecoveredBy (packet : WebSocketPacket) (payload written earlier later : List UInt8)
    (indeterminate : MaskingKey) : Prop :=
  ∃ offset decoded input,
    recvDataframe (new indeterminate) (cursor earlier (written ++ later)) =
        .ok (offset, decoded, input) ∧
      offset ≠ 0 ∧ decoded.fin = packet.fin ∧ decoded.rsv1 = packet.rsv1 ∧
      decoded.rsv2 = packet.rsv2 ∧ decoded.rsv3 = packet.rsv3 ∧
      decoded.opcode = packet.opcode ∧ decoded.mask = packet.mask ∧
      decoded.payload.data = payload ∧
      input.oft.toNat = earlier.length + written.length

/-- **Decoding undoes packing exactly when the RSV bits are zero.** The decoder
never stores the RSV bits and leaves them in the opcode. -/
theorem recoveredBy_packDataframe_iff (packet : WebSocketPacket) (hrange : packet.HeaderInRange)
    (hempty : packet.payload = .empty) (payload : List UInt8) (hpos : 1 ≤ payload.length)
    (hmax : payload.length ≤ 65535) (earlier later : List UInt8) (indeterminate : MaskingKey) :
    ∃ loaded packed output,
      packet.setPayload payload (UInt64.ofNat payload.length) = .ok loaded ∧
      loaded.packDataframe .empty = .ok (0, packed, output) ∧
      (earlier.length + output.data.length + later.length < 2 ^ 31 →
        (packet.RecoveredBy payload output.data earlier later indeterminate ↔
          packet.rsv1 = 0 ∧ packet.rsv2 = 0 ∧ packet.rsv3 = 0)) := by
  have hholds := loaded_holds hrange payload
  generalize hframe : packet.frameOf payload = frame at hholds
  have hpayload : frame.payload = payload := by rw [← hframe]; rfl
  refine ⟨packet.loaded payload, _, _, setPayload_empty hempty (by omega),
    packDataframe_holds hholds (by rw [hpayload]; omega) .empty, ?_⟩
  intro hsmall
  simp only [ByteBuffer.empty, List.nil_append] at hsmall ⊢
  have hbody : frame.body ++ later ≠ [] := by
    apply List.ne_nil_of_length_pos
    rw [List.length_append, frame.length_body, hpayload]
    omega
  have hrecv := recvDataframe_encode (new indeterminate) frame earlier later
    (by rw [hpayload]; exact hmax) (Or.inl hbody) hsmall
  constructor
  · intro hrecovered
    rcases hrecovered with ⟨offset, decoded, input, heq, _, _, hrsv1, hrsv2, hrsv3, _⟩
    rw [hrecv] at heq
    obtain ⟨_, rfl, _⟩ : _ ∧ _ ∧ _ := by simpa using heq
    -- The RSV bits of what was decoded are those of a new packet.
    exact ⟨hrsv1.symm, hrsv2.symm, hrsv3.symm⟩
  · intro hzero
    rcases hzero with ⟨hrsv1, hrsv2, hrsv3⟩
    have hfield : frame.opcodeField = packet.opcode := by
      simp only [Frame.opcodeField, ← hholds.rsv1, ← hholds.rsv2, ← hholds.rsv3,
        ← hholds.opcode, loaded, hrsv1, hrsv2, hrsv3]
      simp
    have hheader := frame.length_encode
    simp only [Frame.header, Frame.lead, List.length_append, List.length_cons] at hheader
    refine ⟨_, _, _, hrecv, uint64_ofNat_ne_zero (by omega) (by omega), hholds.fin.symm,
      hrsv1.symm, hrsv2.symm, hrsv3.symm, hfield, hholds.mask.symm, ?_, ?_⟩
    · simp [withFrame, withHeader, withLead, new, ByteBuffer.empty, hpayload]
    · rw [toNat_cursor_oft (by rw [List.length_append]; exact hsmall), List.length_append]

/-- A packet with RSV1 set. -/
def rsvPacket : WebSocketPacket :=
  { new #v[0, 0, 0, 0] with fin := 1, rsv1 := 1, opcode := WSOpcode.Binary.code }

theorem rsvPacket_inRange : rsvPacket.HeaderInRange := by
  constructor <;> decide

theorem recoveredBy_packDataframe_iff_rsvPacket :
    ∃ loaded packed output,
      rsvPacket.setPayload [0x61] 1 = .ok loaded ∧
      loaded.packDataframe .empty = .ok (0, packed, output) ∧
      ([0x07].length + output.data.length + [0x08].length < 2 ^ 31 →
        (rsvPacket.RecoveredBy [0x61] output.data [0x07] [0x08] #v[1, 2, 3, 4] ↔
          rsvPacket.rsv1 = 0 ∧ rsvPacket.rsv2 = 0 ∧ rsvPacket.rsv3 = 0)) :=
  recoveredBy_packDataframe_iff rsvPacket rsvPacket_inRange rfl [0x61] (by decide) (by decide)
    [0x07] [0x08] #v[1, 2, 3, 4]

/-- RSV1 comes back as bit 6 of the opcode. -/
theorem rsvPacket_not_recovered :
    rsvPacket.HeaderInRange ∧
    ∃ loaded packed output,
      rsvPacket.setPayload [0x61] 1 = .ok loaded ∧
      loaded.packDataframe .empty = .ok (0, packed, output) ∧
      ¬ rsvPacket.RecoveredBy [0x61] output.data [] [] #v[0, 0, 0, 0] := by
  refine ⟨rsvPacket_inRange, rsvPacket.loaded [0x61], rsvPacket.loaded [0x61],
    ⟨[0xC2, 0x01, 0x61], 0⟩, by decide +kernel, by decide +kernel, ?_⟩
  intro hrecovered
  rcases hrecovered with ⟨offset, decoded, input, heq, _, _, hrsv1, _⟩
  have hrecv : recvDataframe (new #v[0, 0, 0, 0]) (cursor [] [0xC2, 0x01, 0x61]) =
      .ok (3, { new #v[0, 0, 0, 0] with
        fin := 1, opcode := 0x42, lengthType := 1, payloadLength := 1, payload := ⟨[0x61], 0⟩ },
        cursor [0xC2, 0x01, 0x61] []) := by
    decide +kernel
  simp only [List.append_nil] at heq
  rw [hrecv] at heq
  obtain ⟨_, rfl, _⟩ : _ ∧ _ ∧ _ := by simpa using heq
  exact absurd hrsv1 (by decide)

end WebSocketPacket

end CppFragments
