import CppFragments.WebSocket.Decode

/-! # What the decoder makes of any bytes

`fetch_frame_info` ignores which of its reads succeed. Whatever lies ahead of
the offset, it acts on the bytes it could read and, for the rest, on what its
variables held before.
-/

namespace CppFragments

open Outcome ByteBuffer WebSocketPacket

/-- The next `width` bytes, or none of them if they are not all there. -/
def whole (width : Nat) (bytes : List UInt8) : List UInt8 :=
  if width ≤ bytes.length then bytes.take width else []

theorem length_whole (width : Nat) (bytes : List UInt8) :
    (whole width bytes).length = if width ≤ bytes.length then width else 0 := by
  unfold whole
  split
  next hle => rw [List.length_take, Nat.min_eq_left hle]
  · rfl

theorem length_whole_le (width : Nat) (bytes : List UInt8) :
    (whole width bytes).length ≤ bytes.length := by
  rw [length_whole]
  split <;> omega

@[simp] theorem whole_zero (bytes : List UInt8) : whole 0 bytes = [] := by
  simp [whole]

theorem whole_of_le {width : Nat} {bytes : List UInt8} (hle : width ≤ bytes.length) :
    whole width bytes = bytes.take width :=
  if_pos hle

theorem whole_of_lt {width : Nat} {bytes : List UInt8} (hlt : bytes.length < width) :
    whole width bytes = [] :=
  if_neg (Nat.not_le.mpr hlt)

/-- The payload length stored over `old`. A missing 16-bit length is taken to be
0, and a 64-bit length is not stored. -/
def storedLength (code : UInt8) (extension : List UInt8) (old : UInt64) : UInt64 :=
  if code < 126 then code.toUInt64
  else if code = 126 then UInt64.ofNat (Bytes.ofBigEndian extension)
  else old

/-- The key stored over `old`. -/
def storedKey (key : List UInt8) (old : MaskingKey) : MaskingKey :=
  if key = [] then old else Vector.ofFn fun i => key.getD i 0

/-- A header as `fetch_frame_info` sees it. -/
structure SeenHeader where
  first : UInt8
  second : UInt8
  extension : List UInt8
  key : List UInt8
  size : Nat

/-- A missing second byte is taken to be the first one again. -/
def seenHeader (bytes : List UInt8) : SeenHeader :=
  let first := bytes.headD 0
  let second := bytes.tail.headD first
  let rest := bytes.drop 2
  let extension := whole (Frame.extendedWidth (second &&& 0x7F)) rest
  let key := whole (if second >>> 7 = 1 then 4 else 0) (rest.drop extension.length)
  ⟨first, second, extension, key, min 2 bytes.length + extension.length + key.length⟩

@[simp] theorem seenHeader_second (first second : UInt8) (rest : List UInt8) :
    (seenHeader (first :: second :: rest)).second = second := (rfl)

@[simp] theorem seenHeader_extension (first second : UInt8) (rest : List UInt8) :
    (seenHeader (first :: second :: rest)).extension =
      whole (Frame.extendedWidth (second &&& 0x7F)) rest := (rfl)

namespace SeenHeader

def code (header : SeenHeader) : UInt8 :=
  header.second &&& 0x7F

def mask (header : SeenHeader) : UInt8 :=
  header.second >>> 7

theorem size_le (bytes : List UInt8) : (seenHeader bytes).size ≤ bytes.length := by
  have hextension := length_whole_le
    (Frame.extendedWidth (bytes.tail.headD (bytes.headD 0) &&& 0x7F)) (bytes.drop 2)
  have hkey := length_whole_le (if bytes.tail.headD (bytes.headD 0) >>> 7 = 1 then 4 else 0)
    ((bytes.drop 2).drop (whole
      (Frame.extendedWidth (bytes.tail.headD (bytes.headD 0) &&& 0x7F)) (bytes.drop 2)).length)
  simp only [List.length_drop] at hextension hkey
  simp only [seenHeader]
  omega

end SeenHeader

@[simp] theorem seenHeader_code (first second : UInt8) (rest : List UInt8) :
    (seenHeader (first :: second :: rest)).code = second &&& 0x7F := (rfl)

@[simp] theorem seenHeader_mask (first second : UInt8) (rest : List UInt8) :
    (seenHeader (first :: second :: rest)).mask = second >>> 7 := (rfl)

namespace WebSocketPacket

def withSeen (packet : WebSocketPacket) (header : SeenHeader) : WebSocketPacket :=
  { packet with
    fin := header.first >>> 7
    opcode := header.first &&& 0x7F
    mask := header.mask
    lengthType := header.code
    maskingKey := storedKey header.key packet.maskingKey
    payloadLength := storedLength header.code header.extension packet.payloadLength }

section Reads

variable {input : ByteBuffer}

/-- A read of a whole field, as the copy it makes and the move over it. -/
theorem readBytesX_sound (hsound : input.Sound) {width : Nat} (hpos : 0 < width)
    (hwidth : width < 2 ^ 32) :
    input.readBytesX width =
      .ok (if width ≤ input.ahead.length then some (whole width input.ahead) else none,
        input.advance (whole width input.ahead).length) := by
  rw [hsound.readBytesX_eq hpos hwidth]
  by_cases hle : width ≤ input.ahead.length
  · rw [whole_of_le hle, if_pos hle, if_pos hle, List.length_take, Nat.min_eq_left hle]
  · rw [whole_of_lt (by omega), if_neg hle, if_neg hle, List.length_nil, advance_zero]

theorem uint16_ofBigEndian (high low : UInt8) :
    ((high.toUInt16 <<< 8) ||| low.toUInt16).toUInt64 =
      UInt64.ofNat (Bytes.ofBigEndian [high, low]) := by
  have hhigh := UInt8.toNat_lt high
  have hlow := UInt8.toNat_lt low
  have hvalue : Bytes.ofBigEndian [high, low] = high.toNat * 256 + low.toNat := by
    simp [Bytes.ofBigEndian]
  have hfirst : UInt8.ofNat (Bytes.ofBigEndian [high, low] >>> 8) = high := by
    apply UInt8.toNat_inj.mp
    rw [UInt8.toNat_ofNat', Nat.shiftRight_eq_div_pow, hvalue]
    omega
  have hsecond : UInt8.ofNat (Bytes.ofBigEndian [high, low] >>> 0) = low := by
    apply UInt8.toNat_inj.mp
    rw [UInt8.toNat_ofNat', Nat.shiftRight_eq_div_pow, hvalue]
    omega
  have hsize : Bytes.ofBigEndian [high, low] < 2 ^ 16 := by
    omega
  have hjoined := uint16_bigEndian hsize
  rw [hfirst, hsecond] at hjoined
  exact hjoined

theorem code_eq_127 {code : UInt8} (hlt : code < 128) (hshort : ¬ code < 126)
    (hmedium : code ≠ 126) : code = 127 := by
  have hne : code.toNat ≠ 126 := fun heq => hmedium (UInt8.toNat_inj.mp heq)
  rw [UInt8.lt_iff_toNat_lt] at hlt hshort
  apply UInt8.toNat_inj.mp
  change code.toNat < 128 at hlt
  change ¬ code.toNat < 126 at hshort
  change code.toNat = 127
  omega

theorem ne_of_lt_126 {code : UInt8} (hshort : code < 126) : code ≠ 126 ∧ code ≠ 127 := by
  constructor
  · rintro rfl
    exact absurd hshort (by decide)
  · rintro rfl
    exact absurd hshort (by decide)

theorem fetchLength_sound (hsound : input.Sound) (packet : WebSocketPacket)
    (hcode : packet.lengthType < 128) :
    fetchLength packet input =
      .ok ({ packet with
        payloadLength := storedLength packet.lengthType
          (whole (Frame.extendedWidth packet.lengthType) input.ahead) packet.payloadLength },
        input.advance (whole (Frame.extendedWidth packet.lengthType) input.ahead).length) := by
  unfold fetchLength storedLength Frame.extendedWidth
  split
  · simp
  · split
    · rw [show (2 : Int) = ((2 : Nat) : Int) from rfl, readBytesX_sound hsound (by decide)
        (by decide)]
      simp only [ok_bind, pure_eq_ok]
      by_cases hle : 2 ≤ input.ahead.length
      · obtain ⟨high, low, tail, hahead⟩ : ∃ high low tail, input.ahead = high :: low :: tail := by
          rcases hahead : input.ahead with _ | ⟨high, _ | ⟨low, tail⟩⟩
          · simp [hahead] at hle
          · simp [hahead] at hle
          · exact ⟨high, low, tail, rfl⟩
        have hwhole : whole 2 input.ahead = [high, low] := by simp [whole, hahead]
        simp only [if_pos hle, hwhole, Option.getD_some, List.getD_cons_zero, List.getD_cons_succ,
          uint16_ofBigEndian]
      · simp [whole_of_lt (Nat.lt_of_not_le hle), hle, Bytes.ofBigEndian]
    next hnot hmedium =>
      have hlong : packet.lengthType = 127 := code_eq_127 hcode hnot hmedium
      rw [if_pos hlong, show (8 : Int) = ((8 : Nat) : Int) from rfl,
        readBytesX_sound hsound (by decide) (by decide)]
      simp only [ok_bind, pure_eq_ok]

theorem fetchKey_sound (hsound : input.Sound) (packet : WebSocketPacket) :
    fetchKey packet input =
      .ok ({ packet with
        maskingKey :=
          storedKey (whole (if packet.mask = 1 then 4 else 0) input.ahead) packet.maskingKey },
        input.advance (whole (if packet.mask = 1 then 4 else 0) input.ahead).length) := by
  have hfour : (4 : Int) = ((4 : Nat) : Int) := rfl
  unfold fetchKey
  by_cases hmask : packet.mask = 1
  · rw [if_pos hmask, if_pos hmask, hfour, readBytesX_sound hsound (by decide) (by decide)]
    simp only [ok_bind, pure_eq_ok]
    by_cases hle : 4 ≤ input.ahead.length
    · have hne : whole 4 input.ahead ≠ [] := by
        apply List.ne_nil_of_length_pos
        rw [whole_of_le hle, List.length_take]
        omega
      rw [if_pos hle, Option.getD_some, storedKey, if_neg hne]
    · rw [if_neg hle, Option.getD_none, ofFn_getD_toList, whole_of_lt (Nat.lt_of_not_le hle),
        storedKey, if_pos rfl]
  · rw [if_neg hmask, if_neg hmask]
    simp [storedKey]

theorem toNat_shifted (byte : UInt8) : (byte >>> 7).toNat = byte.toNat / 128 := by
  rw [UInt8.toNat_shiftRight]
  exact Nat.shiftRight_eq_div_pow byte.toNat 7

theorem shifted_and_one (byte : UInt8) : (byte >>> 7) &&& (0x01 : UInt8) = byte >>> 7 := by
  have hlt := byte.toNat_lt
  apply UInt8.toNat_inj.mp
  rw [UInt8.toNat_and, toNat_shifted]
  change byte.toNat / 128 &&& 1 = _
  rw [Nat.and_one_is_mod]
  omega

theorem and_127_lt (byte : UInt8) : byte &&& 0x7F < 128 := by
  rw [UInt8.lt_iff_toNat_lt, UInt8.toNat_and]
  exact Nat.lt_succ_of_le Nat.and_le_right

/-- **`fetchFrameInfo` never fails, and what it reads is the seen header.** -/
theorem fetchFrameInfo_sound (hsound : input.Sound) (packet : WebSocketPacket) :
    fetchFrameInfo packet input =
      .ok (((input.oft.toNat + (seenHeader input.ahead).size : Nat) : Int),
        packet.withSeen (seenHeader input.ahead),
        input.advance (seenHeader input.ahead).size) := by
  have hone : min 1 input.ahead.length ≤ input.ahead.length := Nat.min_le_right _ _
  have htwo : min 2 input.ahead.length ≤ input.ahead.length := Nat.min_le_right _ _
  have htail : input.ahead.drop (min 1 input.ahead.length) = input.ahead.tail := by
    cases input.ahead <;> simp
  have hlead : min 1 input.ahead.length + min 1 input.ahead.tail.length =
      min 2 input.ahead.length := by
    rw [List.length_tail]
    omega
  have hdrop : input.ahead.drop (min 2 input.ahead.length) = input.ahead.drop 2 := by
    rcases Nat.le_total 2 input.ahead.length with hle | hle
    · rw [Nat.min_eq_left hle]
    · rw [Nat.min_eq_right hle, List.drop_length, List.drop_of_length_le hle]
  have hlength : min 2 input.ahead.length + (whole (Frame.extendedWidth
      (input.ahead.tail.headD (input.ahead.headD 0) &&& 0x7F)) (input.ahead.drop 2)).length ≤
        input.ahead.length := by
    have hextended := length_whole_le (Frame.extendedWidth
      (input.ahead.tail.headD (input.ahead.headD 0) &&& 0x7F)) (input.ahead.drop 2)
    rw [List.length_drop] at hextended
    omega
  have hsize := SeenHeader.size_le input.ahead
  -- Each read starts where the one before it stopped, wherever that was.
  unfold fetchFrameInfo
  rw [readByte_sound hsound]
  simp only [ok_bind]
  rw [readByte_sound (hsound.advance hone), hsound.ahead_advance hone, htail, advance_advance,
    hlead]
  simp only [ok_bind]
  rw [fetchLength_sound (hsound.advance htwo) _ (and_127_lt _), hsound.ahead_advance htwo, hdrop,
    advance_advance]
  simp only [ok_bind, shifted_and_one]
  rw [fetchKey_sound (hsound.advance hlength), hsound.ahead_advance hlength, advance_advance,
    ← List.drop_drop, hdrop]
  simp only [ok_bind, pure_eq_ok]
  have hend := (hsound.advance hsize).getoft_eq
  rw [hsound.advance_oft hsize] at hend
  simp only [seenHeader] at hend
  rw [hend]
  simp only [seenHeader, withSeen, SeenHeader.mask, SeenHeader.code]

end Reads

/-! ## Payloads -/

section Payloads

variable {input : ByteBuffer}

/-- The payload bytes stored for the next bytes of the input. -/
def unmasked (packet : WebSocketPacket) (bytes : List UInt8) : List UInt8 :=
  if packet.mask = 1 then Bytes.xorFrom packet.maskingKey.byteAt 0 bytes else bytes

/-- The packet with the payload bytes for the next bytes of the input. -/
def filled (packet : WebSocketPacket) (bytes : List UInt8) : WebSocketPacket :=
  { packet with
    payload := { packet.payload with data := packet.payload.data ++ packet.unmasked bytes } }

/-- `curat` fails only on an offset at the end of data that is there. -/
theorem curat_eq_outOfRange (hlength : input.length ≠ 0)
    (hend : input.data.length ≤ input.oft.toNat) : input.curat = .error .outOfRange := by
  rw [curat, if_neg hlength, dataAt, if_neg (Nat.not_lt.mpr hend)]

theorem curat_returns (hmore : input.length ≠ 0 → input.oft.toNat < input.data.length) :
    ∃ pointer, input.curat = .ok pointer := by
  unfold curat dataAt
  split
  · exact ⟨_, rfl⟩
  next hlength =>
    rw [if_pos (hmore hlength)]
    exact ⟨_, rfl⟩

theorem curat_sound (hsound : input.Sound) (hmore : input.ahead ≠ []) :
    input.curat = .ok input.rest := by
  have hpos := List.length_pos_iff.mpr hmore
  have hlength := hsound.length_ahead
  have hdata := input.length_le
  rw [curat, if_neg (by omega), dataAt, if_pos (by omega), ByteBuffer.rest]

/-- A payload that is all there is moved, unless it starts at the end. -/
theorem fetchPayload_sound (hsound : input.Sound) (packet : WebSocketPacket)
    (hle : packet.payloadLength.toNat ≤ input.ahead.length)
    (hmore : packet.mask = 1 ∨ input.ahead ≠ []) :
    fetchPayload packet input =
      .ok (packet.filled (input.ahead.take packet.payloadLength.toNat),
        input.advance packet.payloadLength.toNat) := by
  have htotal := hsound.oft_add_ahead_lt
  unfold fetchPayload filled unmasked
  by_cases hmask : packet.mask = 1
  · rw [if_pos hmask, if_pos hmask, copyMasked_sound _ _ _ _ hsound hle]
    simp only [ok_bind, pure_eq_ok]
  · have hahead : input.ahead ≠ [] := hmore.resolve_left hmask
    have hrest : input.ahead.length ≤ input.rest.length := by
      rw [ahead, List.length_take]
      exact Nat.min_le_right _ _
    have htake : input.rest.take packet.payloadLength.toNat =
        input.ahead.take packet.payloadLength.toNat := by
      have hlength := hsound.length_ahead
      rw [ahead, List.take_take, Nat.min_eq_left (by omega)]
    have hsize : packet.payloadLength.toNat < 2 ^ 32 := by omega
    have hskip := hsound.skipX_eq hsize
    rw [if_pos hle] at hskip
    rw [if_neg hmask, if_neg hmask, curat_sound hsound hahead, toInt32_natCast (by omega)]
    simp only [ok_bind, hskip]
    rw [append_of_le _ (by omega), htake]
    simp only [ok_bind, pure_eq_ok]

theorem copyMasked_movesTo (key : MaskingKey) (remaining start : Nat) (value : UInt8)
    {source : ByteBuffer} (target : ByteBuffer) (hsound : source.Sound) :
    Ensures (fun result => source.MovesTo result.1)
      (copyMasked key remaining start value source target) := by
  induction remaining generalizing start value source target with
  | zero => exact (ensures_ok _).mpr hsound.movesTo_refl
  | succ remaining ih =>
      have hmoves := hsound.advance_movesTo (Nat.min_le_right 1 source.ahead.length)
      unfold copyMasked
      rw [readByte_sound hsound]
      simp only [ok_bind]
      refine (ensures_true _).bind fun target' _ => ?_
      intro result hresult
      exact hmoves.trans (ih _ _ _ hmoves.sound result hresult)

theorem fetchPayload_movesTo (hsound : input.Sound) (packet : WebSocketPacket) :
    Ensures (fun result => input.MovesTo result.2) (fetchPayload packet input) := by
  unfold fetchPayload
  split
  · refine (copyMasked_movesTo _ _ _ _ _ hsound).bind ?_
    intro copied hmoves
    exact (ensures_ok _).mpr hmoves
  · refine (ensures_true _).bind fun pointer _ => ?_
    refine (ensures_true _).bind fun payload _ => ?_
    exact ensures_ok_snd _ (hsound.skipX_movesTo _)

end Payloads

/-! ## Whole frames -/

section Frames

variable {packet : WebSocketPacket} {input : ByteBuffer}

/-- The packet once its header has been read. -/
def headed (packet : WebSocketPacket) (input : ByteBuffer) : WebSocketPacket :=
  packet.withSeen (seenHeader input.ahead)

@[simp] theorem headed_fin (packet : WebSocketPacket) (input : ByteBuffer) :
    (headed packet input).fin = (seenHeader input.ahead).first >>> 7 := (rfl)

@[simp] theorem headed_opcode (packet : WebSocketPacket) (input : ByteBuffer) :
    (headed packet input).opcode = (seenHeader input.ahead).first &&& 0x7F := (rfl)

@[simp] theorem headed_mask (packet : WebSocketPacket) (input : ByteBuffer) :
    (headed packet input).mask = (seenHeader input.ahead).mask := (rfl)

theorem headed_payloadLength (packet : WebSocketPacket) (input : ByteBuffer) :
    (headed packet input).payloadLength = storedLength (seenHeader input.ahead).code
      (seenHeader input.ahead).extension packet.payloadLength := (rfl)

theorem headed_maskingKey (packet : WebSocketPacket) (input : ByteBuffer) :
    (headed packet input).maskingKey =
      storedKey (seenHeader input.ahead).key packet.maskingKey := (rfl)

@[simp] theorem headed_payload (packet : WebSocketPacket) (input : ByteBuffer) :
    (headed packet input).payload = packet.payload := by
  cases packet
  rfl

/-- The input once the header has been read. -/
def pastHeader (input : ByteBuffer) : ByteBuffer :=
  input.advance (seenHeader input.ahead).size

/-- The size test of `recvDataframe` finds the frame complete. -/
def Fits (packet : WebSocketPacket) (input : ByteBuffer) : Prop :=
  (headed packet input).payloadLength +
    UInt64.ofNat (input.oft.toNat + (seenHeader input.ahead).size) ≤ UInt64.ofInt input.length

/-- Resetting and skipping puts a buffer back to where it was. -/
theorem skipX_resetoft (hsound : input.Sound) {later : ByteBuffer}
    (hdata : later.data = input.data) :
    (later.resetoft.skipX input.getoft).2 = input := by
  have hlength : later.resetoft.length = input.length := by
    rw [ByteBuffer.length, ByteBuffer.length, ← hdata]
    rfl
  have hahead := hsound.length_ahead
  have hreset : later.resetoft.Sound := by
    unfold Sound
    rw [hlength]
    change (0 : Int) ≤ _
    omega
  have hroom : input.oft.toNat ≤ later.resetoft.ahead.length := by
    have hwhole := hreset.length_ahead
    rw [hlength] at hwhole
    change _ = _ - (0 : Int) at hwhole
    omega
  rw [hsound.getoft_eq, hreset.skipX_eq (by have := hsound.oft_add_ahead_lt; omega),
    if_pos hroom]
  simp [advance, resetoft, hdata]

theorem recvDataframe_sound (hsound : input.Sound) (packet : WebSocketPacket) :
    recvDataframe packet input =
      if UInt64.ofInt input.length < (headed packet input).payloadLength +
          UInt64.ofNat (input.oft.toNat + (seenHeader input.ahead).size) then
        .ok (0, headed packet input, input)
      else
        (do
          let (packet, input) ← fetchPayload (headed packet input) (pastHeader input)
          return (UInt64.ofInt input.getoft, packet, input)) := by
  unfold recvDataframe headed pastHeader
  rw [fetchFrameInfo_sound hsound]
  simp only [ok_bind, pure_eq_ok, uint64_ofInt_natCast, advance_length, gt_iff_lt]
  rw [skipX_resetoft hsound (advance_data _ _)]

theorem recvDataframe_of_not_fits (hsound : input.Sound) (hfits : ¬ Fits packet input) :
    recvDataframe packet input = .ok (0, headed packet input, input) := by
  rw [recvDataframe_sound hsound, if_pos (UInt64.not_le.mp hfits)]

theorem recvDataframe_of_fits (hsound : input.Sound) (hfits : Fits packet input) :
    recvDataframe packet input =
      (do
        let (packet, input) ← fetchPayload (headed packet input) (pastHeader input)
        return (UInt64.ofInt input.getoft, packet, input)) := by
  rw [recvDataframe_sound hsound, if_neg (UInt64.not_lt.mpr hfits)]

theorem fits_iff_mod (hsound : input.Sound) :
    Fits packet input ↔
      ((headed packet input).payloadLength.toNat + input.oft.toNat +
        (seenHeader input.ahead).size) % 2 ^ 64 ≤ input.oft.toNat + input.ahead.length := by
  have hsize := SeenHeader.size_le input.ahead
  have htotal := hsound.oft_add_ahead_lt
  have hlength : input.length = ((input.oft.toNat + input.ahead.length : Nat) : Int) := by
    have hahead := hsound.length_ahead
    omega
  rw [Fits, UInt64.le_iff_toNat_le, UInt64.toNat_add, UInt64.toNat_ofNat', hlength,
    toNat_uint64_ofInt_natCast]
  omega

theorem fits_iff (hsound : input.Sound)
    (hlt : (headed packet input).payloadLength.toNat < 2 ^ 63) :
    Fits packet input ↔
      (headed packet input).payloadLength.toNat + (seenHeader input.ahead).size ≤
        input.ahead.length := by
  have hsize := SeenHeader.size_le input.ahead
  have htotal := hsound.oft_add_ahead_lt
  rw [fits_iff_mod hsound]
  omega

theorem eq_zero_iff_toNat (byte : UInt8) : byte = 0 ↔ byte.toNat = 0 :=
  UInt8.toNat_inj.symm

/-- How much of a header is read when both its fixed bytes are there. -/
theorem seenHeader_size (first second : UInt8) (rest : List UInt8) :
    (seenHeader (first :: second :: rest)).size =
      2 + (if Frame.extendedWidth (second &&& 0x7F) ≤ rest.length then
          Frame.extendedWidth (second &&& 0x7F) else 0) +
        if second >>> 7 = 1 ∧ 4 ≤ rest.length -
          (if Frame.extendedWidth (second &&& 0x7F) ≤ rest.length then
            Frame.extendedWidth (second &&& 0x7F) else 0) then 4 else 0 := by
  simp only [seenHeader, length_whole, List.tail_cons, List.headD_cons, List.drop_succ_cons,
    List.drop_zero, List.length_drop, List.length_cons]
  split_ifs <;> simp_all

theorem seenHeader_single (first : UInt8) : seenHeader [first] = ⟨first, first, [], [], 1⟩ := by
  simp only [seenHeader]
  simp [whole, Frame.extendedWidth]

theorem seenHeader_nil : seenHeader [] = ⟨0, 0, [], [], 0⟩ := by
  simp [seenHeader, whole]

/-- The stored payload length as a number. -/
theorem toNat_storedLength {code : UInt8} {extension : List UInt8}
    (hlength : extension.length ≤ Frame.extendedWidth code) (old : UInt64) :
    (storedLength code extension old).toNat =
      if code < 126 then code.toNat
      else if code = 126 then Bytes.ofBigEndian extension else old.toNat := by
  unfold storedLength
  split
  · exact UInt8.toNat_toUInt64 code
  · split
    next hmedium =>
      subst hmedium
      have hlt := Bytes.ofBigEndian_lt_of_length_le hlength
      change _ < 256 ^ 2 at hlt
      rw [UInt64.toNat_ofNat']
      omega
    · rfl

theorem extension_length_le (bytes : List UInt8) :
    (seenHeader bytes).extension.length ≤ Frame.extendedWidth (seenHeader bytes).code := by
  change (whole _ _).length ≤ _
  rw [length_whole]
  split
  · exact Nat.le_refl _
  · exact Nat.zero_le _

/-- A stored length has 16 bits if the length before it had. -/
theorem storedLength_lt (bytes : List UInt8) {old : UInt64} (hold : old.toNat < 2 ^ 16) :
    (storedLength (seenHeader bytes).code (seenHeader bytes).extension old).toNat < 2 ^ 16 := by
  have hcode := UInt8.toNat_lt (seenHeader bytes).code
  have hlength := extension_length_le bytes
  rw [toNat_storedLength hlength]
  split
  · omega
  · split
    next hmedium =>
      rw [hmedium] at hlength
      exact Bytes.ofBigEndian_lt_of_length_le hlength
    · exact hold

theorem pastHeader_sound (hsound : input.Sound) : (pastHeader input).Sound :=
  hsound.advance (SeenHeader.size_le input.ahead)

theorem pastHeader_ahead (hsound : input.Sound) :
    (pastHeader input).ahead = input.ahead.drop (seenHeader input.ahead).size :=
  hsound.ahead_advance (SeenHeader.size_le input.ahead)

theorem pastHeader_oft (hsound : input.Sound) :
    (pastHeader input).oft.toNat = input.oft.toNat + (seenHeader input.ahead).size :=
  hsound.advance_oft (SeenHeader.size_le input.ahead)

/-- A frame that fits is reported at the offset behind it. -/
theorem recvDataframe_ensures_of_fits (hsound : input.Sound) (hfits : Fits packet input) :
    Ensures (fun result => (pastHeader input).MovesTo result.2.2 ∧
        result.1 = UInt64.ofNat result.2.2.oft.toNat)
      (recvDataframe packet input) := by
  rw [recvDataframe_of_fits hsound hfits]
  refine (fetchPayload_movesTo (pastHeader_sound hsound) _).bind ?_
  intro fetched hmoves
  rcases fetched with ⟨packet', later⟩
  refine (ensures_ok _).mpr ⟨hmoves, ?_⟩
  rw [hmoves.sound.getoft_eq, uint64_ofInt_natCast]

theorem min_two_le_size (bytes : List UInt8) : min 2 bytes.length ≤ (seenHeader bytes).size := by
  simp only [seenHeader]
  omega

end Frames

end WebSocketPacket

end CppFragments
