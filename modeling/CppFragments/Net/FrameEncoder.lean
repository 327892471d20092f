import CppFragments.WebSocket.Pack

/-! # The frame encoder of the clients

`create_websocket_frame` of `net/wss_client.cpp`, `net/wss_client_okx.cpp` and
`net/ws_client.cpp`, with the generated masking key as an argument.
-/

namespace CppFragments

open Outcome ByteBuffer WebSocketPacket

def maskPayload (payload : List UInt8) (maskingKey : MaskingKey) : List UInt8 :=
  payload.mapIdx fun i byte => byte ^^^ maskingKey.byteAt i

def createWebsocketFrame (payload : List UInt8) (maskingKey : MaskingKey) : List UInt8 :=
  let frame : List UInt8 := [0x81]
  let payloadLength := payload.length
  let frame :=
    if payloadLength ≤ 125 then
      frame ++ [UInt8.ofNat ((1 <<< 7) ||| payloadLength)]
    else if payloadLength ≤ 65535 then
      frame ++ [UInt8.ofNat ((1 <<< 7) ||| 126), UInt8.ofNat ((payloadLength >>> 8) &&& 0xFF),
        UInt8.ofNat (payloadLength &&& 0xFF)]
    else
      frame ++ [UInt8.ofNat ((1 <<< 7) ||| 127)] ++
        [7, 6, 5, 4, 3, 2, 1, 0].map fun i => UInt8.ofNat ((payloadLength >>> (8 * i)) &&& 0xFF)
  let frame := frame ++ maskingKey.toList
  frame ++ maskPayload payload maskingKey

/-- The frame `createWebsocketFrame` is meant to encode. -/
def textFrame (payload : List UInt8) (maskingKey : MaskingKey) : Frame where
  fin := true
  rsv1 := false
  rsv2 := false
  rsv3 := false
  opcode := WSOpcode.Text.number
  key? := some maskingKey
  payload := payload

@[simp] theorem textFrame_payload (payload : List UInt8) (maskingKey : MaskingKey) :
    (textFrame payload maskingKey).payload = payload := rfl

@[simp] theorem textFrame_key (payload : List UInt8) (maskingKey : MaskingKey) :
    (textFrame payload maskingKey).key? = some maskingKey := rfl

theorem ofNat_and_255 (value : Nat) : UInt8.ofNat (value &&& 0xFF) = UInt8.ofNat value := by
  apply UInt8.toNat_inj.mp
  change (value &&& (2 ^ 8 - 1)) % 2 ^ 8 = value % 2 ^ 8
  rw [Nat.and_two_pow_sub_one_eq_mod, Nat.mod_mod]

theorem createWebsocketFrame_eq (payload : List UInt8) (maskingKey : MaskingKey) :
    createWebsocketFrame payload maskingKey = (textFrame payload maskingKey).encode := by
  have hbody : (textFrame payload maskingKey).body = maskPayload payload maskingKey := by
    simp only [Frame.body, textFrame_payload, textFrame_key, Bytes.xorFrom_eq_mapIdx,
      Nat.zero_add]
    rfl
  have hfirst : (textFrame payload maskingKey).firstByte = 0x81 := by
    simp only [textFrame, Frame.firstByte]
    decide
  have hsecond : (textFrame payload maskingKey).secondByte =
      0x80 ||| Frame.lengthCode payload.length := rfl
  have hor : ∀ code : Nat, UInt8.ofNat ((1 <<< 7) ||| code) = 0x80 ||| UInt8.ofNat code :=
    fun code => UInt8.ofNat_or (1 <<< 7) code
  simp only [createWebsocketFrame, Frame.encode, Frame.header, Frame.lead, hbody, hfirst, hsecond,
    Frame.keyBytes, textFrame_payload, textFrame_key, hor, ofNat_and_255]
  by_cases hshort : payload.length ≤ 125
  · have hlt : payload.length < 126 := by omega
    simp [Frame.lengthCode, Frame.lengthBytes, hshort, hlt]
  have hnot : ¬ payload.length < 126 := by omega
  by_cases hmedium : payload.length ≤ 65535
  · simp [Frame.lengthCode, Frame.lengthBytes, hshort, hnot, hmedium, Bytes.bigEndian]
  · simp [Frame.lengthCode, Frame.lengthBytes, hshort, hnot, hmedium, Bytes.bigEndian]

/-- A fresh packet set up for a Text frame with this key. -/
def textPacket (indeterminate maskingKey : MaskingKey) : WebSocketPacket :=
  { new indeterminate with
    fin := 1, opcode := WSOpcode.Text.code, mask := 1, maskingKey := maskingKey }

/-- **The two frame encoders agree.** -/
theorem createWebsocketFrame_eq_packDataframe (indeterminate maskingKey : MaskingKey)
    (payload : List UInt8) (hsize : payload.length + 14 < 2 ^ 31) :
    ∃ loaded packed output,
      (textPacket indeterminate maskingKey).setPayload payload (UInt64.ofNat payload.length) =
        .ok loaded ∧
      loaded.packDataframe .empty = .ok (0, packed, output) ∧
      output.data = createWebsocketFrame payload maskingKey := by
  have hrange : (textPacket indeterminate maskingKey).HeaderInRange := by
    constructor <;> simp [textPacket, new, WSOpcode.code]
  have hframe : (textPacket indeterminate maskingKey).frameOf payload =
      textFrame payload maskingKey := by
    have hopcode : Frame.opcodeOf WSOpcode.Text.code = WSOpcode.Text.number := by decide
    simp [frameOf, textPacket, new, textFrame, hopcode]
  have hholds := loaded_holds hrange payload
  rw [hframe] at hholds
  have hsmall : payload.length < 2 ^ 31 := by omega
  refine ⟨_, _, _, setPayload_empty rfl hsmall, packDataframe_holds hholds hsmall .empty, ?_⟩
  rw [createWebsocketFrame_eq]
  rfl

theorem createWebsocketFrame_eq_packDataframe_hello :
    ∃ loaded packed output,
      (textPacket #v[9, 9, 9, 9] #v[1, 2, 3, 4]).setPayload [0x68, 0x69] 2 = .ok loaded ∧
      loaded.packDataframe .empty = .ok (0, packed, output) ∧
      output.data = createWebsocketFrame [0x68, 0x69] #v[1, 2, 3, 4] :=
  createWebsocketFrame_eq_packDataframe #v[9, 9, 9, 9] #v[1, 2, 3, 4] [0x68, 0x69] (by decide)

/-- A fresh packet decodes `payload` from the bytes `written` at the cursor. -/
def DecodesTo (payload written earlier later : List UInt8) (indeterminate : MaskingKey) : Prop :=
  ∃ offset decoded input,
    recvDataframe (new indeterminate) (cursor earlier (written ++ later)) =
        .ok (offset, decoded, input) ∧
      offset ≠ 0 ∧ decoded.fin = 1 ∧ decoded.opcode = WSOpcode.Text.code ∧ decoded.mask = 1 ∧
      decoded.payloadLength.toNat = payload.length ∧ decoded.payload.data = payload ∧
      input.oft.toNat = earlier.length + written.length

/-- A masked frame in the 64-bit form, given to a packet that has decoded
nothing: the header is read over and the payload taken to be empty. -/
theorem recvDataframe_long (indeterminate : MaskingKey) (frame : Frame)
    (earlier later : List UInt8) (hkey : frame.key?.isSome)
    (hlong : 65535 < frame.payload.length)
    (hsmall : earlier.length + frame.encode.length + later.length < 2 ^ 31) :
    ∃ decoded, decoded.payloadLength = 0 ∧
      recvDataframe (new indeterminate) (cursor earlier (frame.encode ++ later)) =
        .ok (UInt64.ofNat (earlier ++ frame.header).length, decoded,
          cursor (earlier ++ frame.header) (frame.body ++ later)) := by
  have hsize := frame.length_encode
  have hlength : ((new indeterminate).withHeader frame).payloadLength = 0 := by
    simp only [withHeader, withLead]
    rw [if_neg (by omega)]
    rfl
  have hnone : ((new indeterminate).withHeader frame).payloadLength.toNat = 0 := by
    rw [hlength]
    rfl
  have hinfo := fetchFrameInfo_header (new indeterminate) frame earlier (frame.body ++ later)
    (by rw [List.length_append, frame.length_body]; omega)
  refine ⟨(new indeterminate).withHeader frame, hlength, ?_⟩
  unfold recvDataframe
  rw [Frame.encode, List.append_assoc, hinfo]
  simp only [ok_bind]
  rw [if_neg]
  · -- With a length of 0 the masked loop ends at once.
    unfold fetchPayload
    rw [if_pos (by simp [withHeader, withLead, hkey, Bool.toUInt8]), hnone]
    simp only [copyMasked, ok_bind, pure_eq_ok]
    rw [getoft_cursor (by simp only [List.length_append, frame.length_body]; omega),
      uint64_ofInt_natCast]
  · rw [hlength, length_cursor (by simp only [List.length_append, frame.length_body]; omega)]
    rw [show (0 : UInt64) = UInt64.ofNat 0 from rfl, sizeTest_iff (by omega)
      (by rw [List.length_append]; omega)
      (by simp only [List.length_append, frame.length_body]; omega)]
    omega

theorem not_decodesTo_of_long {payload : List UInt8} (hlong : 65535 < payload.length)
    (maskingKey : MaskingKey) (earlier later : List UInt8) (indeterminate : MaskingKey)
    (hsmall : earlier.length + (textFrame payload maskingKey).encode.length + later.length <
      2 ^ 31) :
    ¬ DecodesTo payload (textFrame payload maskingKey).encode earlier later indeterminate := by
  intro hdecodes
  rcases hdecodes with ⟨offset, decoded, input, heq, _, _, _, _, hlength, _⟩
  obtain ⟨decoded', hzero, hrecv⟩ := recvDataframe_long indeterminate
    (textFrame payload maskingKey) earlier later rfl hlong hsmall
  rw [hrecv] at heq
  obtain ⟨_, rfl, _⟩ : _ ∧ _ ∧ _ := by simpa using heq
  rw [hzero] at hlength
  change 0 = _ at hlength
  omega

/-- **The packet decoder understands the client's frames exactly up to 65535
payload bytes.** Beyond, the length has its 64-bit form, which the decoder reads
without storing it. -/
theorem decodesTo_createWebsocketFrame_iff (payload : List UInt8) (maskingKey : MaskingKey)
    (earlier later : List UInt8) (indeterminate : MaskingKey)
    (hsmall : earlier.length + (createWebsocketFrame payload maskingKey).length +
      later.length < 2 ^ 31) :
    DecodesTo payload (createWebsocketFrame payload maskingKey) earlier later indeterminate ↔
      payload.length ≤ 65535 := by
  rw [createWebsocketFrame_eq] at hsmall ⊢
  have hheader : 2 ≤ (textFrame payload maskingKey).header.length := by
    simp [Frame.header, Frame.lead]
  have hsize := (textFrame payload maskingKey).length_encode
  constructor
  · intro hdecodes
    by_contra hlong
    exact not_decodesTo_of_long (by omega) maskingKey earlier later indeterminate hsmall hdecodes
  · intro hshort
    have hrecv := recvDataframe_encode (new indeterminate) (textFrame payload maskingKey)
      earlier later hshort (Or.inr rfl) hsmall
    have hopcode : (textFrame payload maskingKey).opcodeField = WSOpcode.Text.code := by
      simp only [textFrame, Frame.opcodeField]
      decide
    refine ⟨_, _, _, hrecv, uint64_ofNat_ne_zero (by omega) (by omega), rfl, hopcode, rfl,
      ?_, ?_, ?_⟩
    · rw [withFrame_payloadLength _ hshort, UInt64.toNat_ofNat', textFrame_payload]
      omega
    · simp [withFrame, withHeader, withLead, new, ByteBuffer.empty, textFrame]
    · rw [toNat_cursor_oft (by rw [List.length_append]; exact hsmall), List.length_append]

theorem decodesTo_createWebsocketFrame_iff_hello :
    DecodesTo [0x68, 0x69] (createWebsocketFrame [0x68, 0x69] #v[1, 2, 3, 4]) [0x07] [0x08]
        #v[0, 0, 0, 0] ↔
      [0x68, 0x69].length ≤ 65535 :=
  decodesTo_createWebsocketFrame_iff [0x68, 0x69] #v[1, 2, 3, 4] [0x07] [0x08] #v[0, 0, 0, 0]
    (by decide)

theorem not_decodesTo_of_length_eq {payload : List UInt8} (hlength : payload.length = 65536) :
    (createWebsocketFrame payload #v[0, 0, 0, 0]).length < 2 ^ 31 ∧
      ¬ DecodesTo payload (createWebsocketFrame payload #v[0, 0, 0, 0]) [] [] #v[0, 0, 0, 0] := by
  have hsize := (textFrame payload #v[0, 0, 0, 0]).length_encode
  have hheader := (textFrame payload #v[0, 0, 0, 0]).length_header_le
  rw [textFrame_payload] at hsize
  rw [createWebsocketFrame_eq]
  refine ⟨by omega, not_decodesTo_of_long (by omega) #v[0, 0, 0, 0] [] [] #v[0, 0, 0, 0] ?_⟩
  simp only [List.length_nil]
  omega

/-- A payload of 65536 zero bytes is decoded as an empty one. -/
theorem not_decodesTo_createWebsocketFrame_zeros :
    (createWebsocketFrame (List.replicate 65536 0) #v[0, 0, 0, 0]).length < 2 ^ 31 ∧
      ¬ DecodesTo (List.replicate 65536 0)
        (createWebsocketFrame (List.replicate 65536 0) #v[0, 0, 0, 0]) [] [] #v[0, 0, 0, 0] :=
  not_decodesTo_of_length_eq List.length_replicate

end CppFragments
