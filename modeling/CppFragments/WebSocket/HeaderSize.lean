import CppFragments.WebSocket.Pack
import CppFragments.WebSocket.SeenHeader

/-! # The size of a header

`get_header_size`, measured against the bytes `pack_dataframe` writes before the
payload and against how far `fetch_frame_info` reads in them.
-/

namespace CppFragments

open Outcome ByteBuffer WebSocketPacket

namespace WebSocketPacket

/-- What the local `header_size` holds at the end of `get_header_size()`, and the
value returned. The function has no `return` statement. -/
def getHeaderSize (packet : WebSocketPacket) : Int × Option UInt8 :=
  let headerSize : Int := 0
  let headerSize :=
    if packet.getLengthType < 126 then 2
    else if packet.getLengthType = 126 then 4
    else if packet.getLengthType = 127 then 2 + 8
    else headerSize
  let headerSize := if packet.mask = 1 then headerSize + 4 else headerSize
  (headerSize, none)

/-- The encoder and the decoder both have `size` as the size of the header: the
bytes written before the payload are so many, and a new packet that reads them,
with anything behind them, ends with this value and at this offset. -/
structure HeaderSizeIs (packet : WebSocketPacket) (payload : List UInt8) (size : ℕ) : Prop where
  packs : ∀ output : ByteBuffer, ∃ header body packed,
    packDataframe packet output =
      .ok (0, packed, { output with data := output.data ++ (header ++ body) }) ∧
    header.length = size ∧ body.length = payload.length ∧
    ∀ (indeterminate : MaskingKey) (rest : List UInt8), header.length + rest.length < 2 ^ 31 →
      ∃ packet', fetchFrameInfo (new indeterminate) ⟨header ++ rest, 0⟩ =
        .ok ((size : Int), packet', ⟨header ++ rest, UInt32.ofNat size⟩)

section Size

variable {packet : WebSocketPacket}

/-- The cases of `get_header_size()` add up the two length fields. -/
theorem cases_extendedWidth {code : UInt8} (hlt : code < 128) :
    (if code < 126 then 2 else if code = 126 then 4 else if code = 127 then 2 + 8
      else (0 : Int)) = Frame.extendedWidth code + 2 := by
  unfold Frame.extendedWidth
  split
  next => rfl
  next hshort =>
    by_cases hmedium : code = 126
    · rw [if_pos hmedium, if_pos hmedium]
      rfl
    · rw [if_neg hmedium, if_pos (code_eq_127 hlt hshort hmedium), if_neg hmedium]
      rfl

/-- The local is the size of the header bytes, whatever the packet holds. -/
theorem getHeaderSize_local (packet : WebSocketPacket) :
    packet.getHeaderSize.1 = packet.headBytes.length := by
  have hcode := getLengthType_eq packet.payloadLength.toNat_lt UInt64.ofNat_toNat.symm
  have hcases := cases_extendedWidth (Frame.lengthCode_lt packet.payloadLength.toNat)
  rw [← Frame.length_lengthBytes, ← hcode] at hcases
  unfold getHeaderSize headBytes
  dsimp only
  rw [hcases, List.length_cons, List.length_cons, List.length_append]
  split
  next => simp; omega
  next => simp; omega

/-- Every byte is the first byte of a frame. -/
theorem exists_firstByte (byte : UInt8) :
    ∃ (fin rsv1 rsv2 rsv3 : Bool) (opcode : Fin 16),
      (fin.toUInt8 <<< 7) ||| (rsv1.toUInt8 <<< 6) ||| (rsv2.toUInt8 <<< 5) |||
        (rsv3.toUInt8 <<< 4) ||| UInt8.ofNat opcode = byte := by
  have hbytes : ∀ index : Fin 256, let byte := UInt8.ofNat index
      ((byte >>> 7 &&& 1 == 1).toUInt8 <<< 7) ||| ((byte >>> 6 &&& 1 == 1).toUInt8 <<< 6) |||
        ((byte >>> 5 &&& 1 == 1).toUInt8 <<< 5) ||| ((byte >>> 4 &&& 1 == 1).toUInt8 <<< 4) |||
        UInt8.ofNat (Frame.opcodeOf byte) = byte := by
    decide +kernel
  have hbyte := hbytes ⟨byte.toNat, byte.toNat_lt⟩
  rw [UInt8.ofNat_toNat] at hbyte
  exact ⟨_, _, _, _, _, hbyte⟩

/-- With a mask bit, the header bytes are the header of a frame. -/
theorem exists_frame (hmask : packet.mask ≤ 1) {payload : List UInt8}
    (hlength : packet.payloadLength.toNat = payload.length) :
    ∃ frame : Frame, frame.payload = payload ∧ frame.header = packet.headBytes := by
  rcases exists_firstByte ((packet.fin <<< 7) ||| (packet.rsv1 <<< 6) ||| (packet.rsv2 <<< 5) |||
    (packet.rsv3 <<< 4) ||| (packet.opcode &&& 0x0F)) with ⟨fin, rsv1, rsv2, rsv3, opcode, hfirst⟩
  refine ⟨⟨fin, rsv1, rsv2, rsv3, opcode,
    if packet.mask = 1 then some packet.maskingKey else none, payload⟩, rfl, ?_⟩
  have hsecond := bit_eq_toUInt8 hmask
  rw [headBytes, hlength, ← hfirst]
  split
  next hone =>
    rw [hone]
    rfl
  next hnot =>
    rw [decide_eq_false hnot] at hsecond
    rw [hsecond]
    rfl

/-- The encoder and the decoder agree, with the size that `get_header_size()` has
in its local. -/
theorem headerSizeIs_local {payload : List UInt8} (hmask : packet.mask ≤ 1)
    (hsize : payload.length < 2 ^ 31) :
    HeaderSizeIs (packet.loaded payload) payload (packet.loaded payload).getHeaderSize.1.toNat := by
  have hnat : (packet.loaded payload).payloadLength.toNat = payload.length := by
    rw [loaded, UInt64.toNat_ofNat']
    omega
  have hoft : (packet.loaded payload).payload.oft.toNat ≤
      (packet.loaded payload).payload.data.length % 2 ^ 32 := Nat.zero_le _
  have hloaded : (packet.loaded payload).mask ≤ 1 := hmask
  rcases exists_frame hloaded hnat with ⟨frame, rfl, hheader⟩
  rw [getHeaderSize_local, Int.toNat_natCast, ← hheader]
  refine ⟨fun output => ⟨_, _, _, packDataframe_eq hoft output, ?_⟩⟩
  rw [← hheader]
  refine ⟨rfl, ?_, ?_⟩
  · rw [bodyBytes]
    split
    next => rw [Bytes.length_xorRepeating, hnat]
    next =>
      rw [loaded, bytes_take_length _ (by simpa using hsize)]
      rfl
  · intro indeterminate rest hrest
    have hread := fetchFrameInfo_header (new indeterminate) frame [] rest (by simpa using hrest)
    rw [List.nil_append] at hread
    exact ⟨_, hread⟩

theorem setPayloads_empty (hempty : packet.payload = .empty) {chunk : List UInt8}
    {chunks : List (List UInt8)} (hsize : chunk.length + chunks.flatten.length < 2 ^ 31) :
    packet.setPayloads (chunk :: chunks) = .ok (packet.loaded (chunk ++ chunks.flatten)) := by
  have hchunk : chunk.length < 2 ^ 31 := by omega
  have hset := setPayload_empty hempty hchunk
  rw [setPayloads, List.foldlM_cons, hset, ok_bind]
  exact setPayloads_loaded packet chunk chunks hsize

/-- **`get_header_size()` never agrees, for it returns nothing.** Its local does:
for every payload, its value is the size that the encoder and the decoder have. -/
theorem getHeaderSize_never (packet : WebSocketPacket) (hmask : packet.mask ≤ 1)
    (hempty : packet.payload = .empty) (chunk : List UInt8) (chunks : List (List UInt8))
    (hsize : (chunk ++ chunks.flatten).length + 14 < 2 ^ 31) :
    ∃ loaded, packet.setPayloads (chunk :: chunks) = .ok loaded ∧
      HeaderSizeIs loaded (chunk ++ chunks.flatten) loaded.getHeaderSize.1.toNat ∧
      ¬∃ size : UInt8, loaded.getHeaderSize.2 = some size ∧
        HeaderSizeIs loaded (chunk ++ chunks.flatten) size.toNat := by
  have htotal : chunk.length + chunks.flatten.length < 2 ^ 31 := by
    rw [← List.length_append]
    omega
  refine ⟨_, setPayloads_empty hempty htotal, headerSizeIs_local hmask (by omega), ?_⟩
  intro hreturned
  rcases hreturned with ⟨size, hsome, _⟩
  cases hsome

theorem getHeaderSize_never_binary :
    ∃ loaded, (new (Vector.replicate 4 9)).setPayloads [literal "ab", literal "c"] = .ok loaded ∧
      HeaderSizeIs loaded (literal "ab" ++ [literal "c"].flatten)
        loaded.getHeaderSize.1.toNat ∧
      ¬∃ size : UInt8, loaded.getHeaderSize.2 = some size ∧
        HeaderSizeIs loaded (literal "ab" ++ [literal "c"].flatten) size.toNat :=
  getHeaderSize_never (new (Vector.replicate 4 9)) (by decide) rfl (literal "ab") [literal "c"]
    (by decide)

/-- An unmasked packet without a payload. -/
theorem emptyPacket_getHeaderSize :
    (new (Vector.replicate 4 9)).setPayload [] 0 = .ok (new (Vector.replicate 4 9)) ∧
      ¬∃ size : UInt8, (new (Vector.replicate 4 9)).getHeaderSize.2 = some size ∧
        HeaderSizeIs (new (Vector.replicate 4 9)) [] size.toNat := by
  refine ⟨by decide +kernel, ?_⟩
  intro hreturned
  rcases hreturned with ⟨size, hsome, _⟩
  cases hsome

end Size

end WebSocketPacket

end CppFragments
