import CppFragments.WebSocket.SeenHeader

/-! # When decoding throws

`curat` asks for the byte at the offset even if the payload to copy is empty.
It throws where an unmasked header ends together with the data.
-/

namespace CppFragments

open Outcome ByteBuffer WebSocketPacket

namespace WebSocketPacket

variable {packet : WebSocketPacket} {input : ByteBuffer}

theorem copyMasked_returns (key : MaskingKey) (remaining start : Nat) (value : UInt8)
    {source : ByteBuffer} (target : ByteBuffer) (hsound : source.Sound) :
    ∃ result, copyMasked key remaining start value source target = .ok result := by
  induction remaining generalizing start value source target with
  | zero => exact ⟨_, rfl⟩
  | succ remaining ih =>
      have hnext := hsound.advance (Nat.min_le_right 1 source.ahead.length)
      rw [copyMasked, readByte_sound hsound]
      simp only [ok_bind, append_singleton]
      exact ih _ _ _ hnext

theorem append_ne_outOfRange (buffer : ByteBuffer) (pointer : List UInt8) (size : Int) :
    buffer.append pointer size ≠ .error .outOfRange := by
  unfold append load
  split
  · split <;> simp
  · simp

theorem fetchPayload_outOfRange_iff (hsound : input.Sound) (packet : WebSocketPacket) :
    fetchPayload packet input = .error .outOfRange ↔
      packet.mask ≠ 1 ∧ input.length ≠ 0 ∧ input.data.length ≤ input.oft.toNat := by
  unfold fetchPayload
  by_cases hmask : packet.mask = 1
  · obtain ⟨copied, hcopied⟩ :=
      copyMasked_returns packet.maskingKey packet.payloadLength.toNat 0 0 packet.payload hsound
    simp [hmask, hcopied]
  · simp only [hmask, if_false, ne_eq, not_false_eq_true, true_and]
    by_cases hend : input.length ≠ 0 ∧ input.data.length ≤ input.oft.toNat
    · simp [curat_eq_outOfRange hend.1 hend.2, hend]
    · obtain ⟨pointer, hcurat⟩ := curat_returns fun hlength =>
        Nat.not_le.mp (not_and.mp hend hlength)
      have happend := append_ne_outOfRange packet.payload pointer
        (toInt32 packet.payloadLength.toNat)
      simp only [hcurat, ok_bind, hend, iff_false]
      cases hpayload : packet.payload.append pointer (toInt32 packet.payloadLength.toNat) with
      | error fault =>
          rw [hpayload] at happend
          simpa using happend
      | ok payload => simp

theorem recvDataframe_outOfRange_iff (hsound : input.Sound) (packet : WebSocketPacket) :
    recvDataframe packet input = .error .outOfRange ↔
      Fits packet input ∧ (seenHeader input.ahead).mask ≠ 1 ∧ input.length ≠ 0 ∧
        input.data.length ≤ input.oft.toNat + (seenHeader input.ahead).size := by
  by_cases hfits : Fits packet input
  · have hpayload := fetchPayload_outOfRange_iff (pastHeader_sound hsound) (headed packet input)
    rw [pastHeader_oft hsound] at hpayload
    simp only [pastHeader, advance_length, advance_data] at hpayload
    rw [recvDataframe_of_fits hsound hfits]
    simp only [hfits, true_and]
    exact bind_ok_eq_error_iff.trans hpayload
  · rw [recvDataframe_of_not_fits hsound hfits]
    simp [hfits]

/-! ## The bytes that make it throw -/

/-- A length left from before that passes the size test where no byte is left:
0, or one that wraps to 0 or below. -/
def StaleFits (packet : WebSocketPacket) (input : ByteBuffer) : Prop :=
  packet.payloadLength = 0 ∨ 2 ^ 64 ≤ packet.payloadLength.toNat + input.data.length

/-- The data ends with an unmasked header after which no payload is expected.
Of a length cut off, the 16-bit one counts as 0 and the 64-bit one as whatever
is left from before. -/
def EndsWithHeader (packet : WebSocketPacket) (input : ByteBuffer) : Prop :=
  input.data ≠ [] ∧ input.data.length < 2 ^ 31 ∧
    ((input.rest.length ≤ 2 ∧
        (input.rest.getLastD 0 = 0 ∨ input.rest.getLastD 0 = 126 ∨
          input.rest.getLastD 0 = 127 ∧ StaleFits packet input)) ∨
      (∃ first, input.rest = [first, 126, 0, 0]) ∨
      ∃ first extension, input.rest = first :: 127 :: extension ∧ extension.length = 8 ∧
        StaleFits packet input)

theorem unmasked_code {byte : UInt8} (hmask : byte >>> 7 ≠ 1) : byte &&& 0x7F = byte := by
  have hne : byte.toNat / 128 ≠ 1 := by
    rw [← toNat_shifted]
    exact fun heq => hmask (UInt8.toNat_inj.mp heq)
  have hlt := byte.toNat_lt
  apply UInt8.toNat_inj.mp
  rw [UInt8.toNat_and]
  change byte.toNat &&& (2 ^ 7 - 1) = _
  rw [Nat.and_two_pow_sub_one_eq_mod]
  omega

/-- With the whole data read, the size test only leaves lengths that count as 0. -/
theorem fits_iff_of_end (hsound : input.Sound)
    (hend : (seenHeader input.ahead).size = input.ahead.length) :
    Fits packet input ↔
      (headed packet input).payloadLength.toNat = 0 ∨
        2 ^ 64 ≤ (headed packet input).payloadLength.toNat +
          (input.oft.toNat + input.ahead.length) := by
  have hlt := UInt64.toNat_lt (headed packet input).payloadLength
  have htotal := hsound.oft_add_ahead_lt
  rw [fits_iff_mod hsound, hend]
  omega

end WebSocketPacket

section Headers

variable {old : UInt64} {total : Nat}

/-- Which stored lengths count as 0. -/
theorem storedLength_empty_iff {code : UInt8} {extension : List UInt8} (hcode : code < 128)
    (hlength : extension.length ≤ Frame.extendedWidth code) (htotal : total < 2 ^ 31) :
    ((storedLength code extension old).toNat = 0 ∨
        2 ^ 64 ≤ (storedLength code extension old).toNat + total) ↔
      code = 0 ∨ code = 126 ∧ Bytes.ofBigEndian extension = 0 ∨
        code = 127 ∧ (old.toNat = 0 ∨ 2 ^ 64 ≤ old.toNat + total) := by
  have hbyte := code.toNat_lt
  rw [toNat_storedLength hlength]
  by_cases hshort : code < 126
  · simp only [hshort, if_true, ne_of_lt_126 hshort, false_and, or_false, eq_zero_iff_toNat]
    omega
  have hzero : code ≠ 0 := by
    rintro rfl
    exact hshort (by decide)
  by_cases hmedium : code = 126
  · subst hmedium
    have hlt := Bytes.ofBigEndian_lt_of_length_le hlength
    change _ < 256 ^ 2 at hlt
    have hne : (126 : UInt8) ≠ 127 := by decide
    simp only [hshort, if_false, if_true, hzero, hne, true_and, false_and, false_or, or_false]
    omega
  · have hlong := code_eq_127 hcode hshort hmedium
    rw [if_neg hshort, if_neg hmedium, eq_false hzero, eq_false hmedium, eq_true hlong, false_or,
      false_and, false_or, true_and]

/-- An unmasked header of just these bytes, with an empty payload expected. -/
def BareHeader (old : UInt64) (total : Nat) (bytes : List UInt8) : Prop :=
  (seenHeader bytes).mask ≠ 1 ∧ (seenHeader bytes).size = bytes.length ∧
    ((storedLength (seenHeader bytes).code (seenHeader bytes).extension old).toNat = 0 ∨
      2 ^ 64 ≤
        (storedLength (seenHeader bytes).code (seenHeader bytes).extension old).toNat + total)

/-- The second byte and the extension of a bare header. -/
theorem bareHeader_iff (htotal : total < 2 ^ 31) (bytes : List UInt8) :
    BareHeader old total bytes ↔
      (seenHeader bytes).size = bytes.length ∧
        ((seenHeader bytes).second = 0 ∨
          (seenHeader bytes).second = 126 ∧
            Bytes.ofBigEndian (seenHeader bytes).extension = 0 ∨
          (seenHeader bytes).second = 127 ∧ (old.toNat = 0 ∨ 2 ^ 64 ≤ old.toNat + total)) := by
  have hcode : (seenHeader bytes).code < 128 := and_127_lt _
  unfold BareHeader
  rw [storedLength_empty_iff hcode (extension_length_le bytes) htotal]
  unfold SeenHeader.mask SeenHeader.code
  generalize (seenHeader bytes).second = second
  constructor
  · intro hbare
    rcases hbare with ⟨hmask, hsize, hempty⟩
    rw [unmasked_code hmask] at hempty
    exact ⟨hsize, hempty⟩
  · intro hbytes
    rcases hbytes with ⟨hsize, hempty⟩
    have hmask : second >>> 7 ≠ 1 := by
      rcases hempty with rfl | ⟨rfl, _⟩ | ⟨rfl, _⟩ <;> decide
    rw [unmasked_code hmask]
    exact ⟨hmask, hsize, hempty⟩

/-! ### The three length codes -/

theorem seenHeader_size_empty (first : UInt8) (rest : List UInt8) :
    (seenHeader (first :: 0 :: rest)).size = rest.length + 2 ↔ rest = [] := by
  have hbyte : ¬ (0 : UInt8) >>> 7 = 1 ∧ Frame.extendedWidth (0 &&& 0x7F) = 0 := by decide
  rw [seenHeader_size, ← List.length_eq_zero_iff]
  simp only [hbyte, false_and, if_false, ite_self, Nat.add_zero]
  omega

/-- A 16-bit length may be cut off, but what there is of it has to be zero. -/
theorem seenHeader_size_medium (first : UInt8) (rest : List UInt8) :
    ((seenHeader (first :: 126 :: rest)).size = rest.length + 2 ∧
        Bytes.ofBigEndian (seenHeader (first :: 126 :: rest)).extension = 0) ↔
      rest = [] ∨ rest = [0, 0] := by
  have hbyte : ¬ (126 : UInt8) >>> 7 = 1 ∧ Frame.extendedWidth (126 &&& 0x7F) = 2 := by decide
  rw [seenHeader_size, seenHeader_extension]
  simp only [hbyte, false_and, if_false, Nat.add_zero]
  rcases rest with _ | ⟨high, _ | ⟨low, _ | ⟨third, rest⟩⟩⟩
  · simp [whole, Bytes.ofBigEndian]
  · simp
  · simp [whole, Bytes.ofBigEndian, eq_zero_iff_toNat]
  · simp

theorem seenHeader_size_long (first : UInt8) (rest : List UInt8) :
    (seenHeader (first :: 127 :: rest)).size = rest.length + 2 ↔
      rest = [] ∨ rest.length = 8 := by
  have hbyte : ¬ (127 : UInt8) >>> 7 = 1 ∧ Frame.extendedWidth (127 &&& 0x7F) = 8 := by decide
  rw [seenHeader_size, ← List.length_eq_zero_iff]
  simp only [hbyte, false_and, if_false, Nat.add_zero]
  split <;> omega

/-- The same as a list of the possible bytes. -/
theorem bareHeader_iff_bytes (htotal : total < 2 ^ 31) (bytes : List UInt8) :
    BareHeader old total bytes ↔
      (bytes.length ≤ 2 ∧
        (bytes.getLastD 0 = 0 ∨ bytes.getLastD 0 = 126 ∨
          bytes.getLastD 0 = 127 ∧ (old.toNat = 0 ∨ 2 ^ 64 ≤ old.toNat + total))) ∨
      (∃ first, bytes = [first, 126, 0, 0]) ∨
      ∃ first extension, bytes = first :: 127 :: extension ∧ extension.length = 8 ∧
        (old.toNat = 0 ∨ 2 ^ 64 ≤ old.toNat + total) := by
  rw [bareHeader_iff htotal]
  generalize (old.toNat = 0 ∨ 2 ^ 64 ≤ old.toNat + total) = stale
  match bytes with
  | [] => simp [seenHeader_nil]
  | [first] =>
      -- A single byte is taken for the second byte too.
      simp [seenHeader_single, Bytes.ofBigEndian]
  | first :: second :: rest =>
      rw [seenHeader_second, List.length_cons, List.length_cons]
      constructor
      · intro hbare
        rcases hbare with ⟨hsize, rfl | ⟨rfl, hzero⟩ | ⟨rfl, hstale⟩⟩
        · have hrest := (seenHeader_size_empty first rest).mp hsize
          simp [hrest]
        · rcases (seenHeader_size_medium first rest).mp ⟨hsize, hzero⟩ with hrest | hrest
          · simp [hrest]
          · simp [hrest]
        · rcases (seenHeader_size_long first rest).mp hsize with hrest | hlength
          · simp [hrest, hstale]
          · simp [hlength, hstale]
      · intro hbytes
        rcases hbytes with ⟨hlength, hlast⟩ | ⟨_, heq⟩ | ⟨_, extension, heq, hlength, hstale⟩
        · have hrest : rest = [] := by simpa using hlength
          rw [hrest] at hlast ⊢
          have hsecond : second = 0 ∨ second = 126 ∨ second = 127 ∧ stale := by simpa using hlast
          rcases hsecond with rfl | rfl | ⟨rfl, hstale⟩
          · exact ⟨(seenHeader_size_empty first []).mpr rfl, Or.inl rfl⟩
          · have hwhole := (seenHeader_size_medium first []).mpr (Or.inl rfl)
            exact ⟨hwhole.1, Or.inr (Or.inl ⟨rfl, hwhole.2⟩)⟩
          · exact ⟨(seenHeader_size_long first []).mpr (Or.inl rfl), Or.inr (Or.inr ⟨rfl, hstale⟩)⟩
        · obtain ⟨rfl, rfl, rfl⟩ : _ ∧ second = 126 ∧ rest = [0, 0] := by simpa using heq
          have hwhole := (seenHeader_size_medium first [0, 0]).mpr (Or.inr rfl)
          exact ⟨hwhole.1, Or.inr (Or.inl ⟨rfl, hwhole.2⟩)⟩
        · obtain ⟨rfl, rfl, rfl⟩ : _ ∧ second = 127 ∧ rest = extension := by simpa using heq
          have hwhole := (seenHeader_size_long first rest).mpr (Or.inr hlength)
          exact ⟨hwhole, Or.inr (Or.inr ⟨rfl, hstale⟩)⟩

end Headers

namespace WebSocketPacket

variable {packet : WebSocketPacket} {input : ByteBuffer}

theorem endsWithHeader_iff (hsmall : input.data.length < 2 ^ 31) :
    EndsWithHeader packet input ↔
      input.data ≠ [] ∧ BareHeader packet.payloadLength input.data.length input.rest := by
  rw [bareHeader_iff_bytes hsmall]
  unfold EndsWithHeader StaleFits
  simp only [hsmall, uint64_eq_zero_iff, true_and]

theorem throws_iff_bareHeader (hsound : input.Sound) (hsmall : input.data.length < 2 ^ 31) :
    recvDataframe packet input = .error .outOfRange ↔
      input.data ≠ [] ∧ BareHeader packet.payloadLength input.data.length input.rest := by
  have hlength : input.length = input.data.length := toInt32_natCast hsmall
  have hahead := ahead_eq_rest hsmall
  have hoft := (sound_iff_of_small hsmall).mp hsound
  have hrest : input.rest.length = input.data.length - input.oft.toNat := List.length_drop
  have htotal : input.oft.toNat + input.rest.length = input.data.length := by omega
  have hsize := SeenHeader.size_le input.rest
  have hnil : input.data ≠ [] ↔ input.data.length ≠ 0 := by simp
  have hstored : (headed packet input).payloadLength =
      storedLength (seenHeader input.rest).code (seenHeader input.rest).extension
        packet.payloadLength := by
    rw [headed_payloadLength, hahead]
  rw [recvDataframe_outOfRange_iff hsound, hahead]
  unfold BareHeader
  constructor
  · intro hthrows
    rcases hthrows with ⟨hfits, hmask, hne, hend⟩
    have hwhole : (seenHeader input.rest).size = input.rest.length := by omega
    rw [fits_iff_of_end hsound (by rw [hahead]; exact hwhole), hstored, hahead, htotal] at hfits
    exact ⟨hnil.mpr (by omega), hmask, hwhole, hfits⟩
  · intro hbare
    rcases hbare with ⟨hne, hmask, hwhole, hfits⟩
    have hpos := hnil.mp hne
    refine ⟨?_, hmask, by omega, by omega⟩
    rw [fits_iff_of_end hsound (by rw [hahead]; exact hwhole), hstored, hahead, htotal]
    exact hfits

/-- **Decoding throws exactly on data that ends with a header.** -/
theorem recvDataframe_ne_outOfRange_iff (packet : WebSocketPacket) (hsound : input.Sound) :
    recvDataframe packet input ≠ .error .outOfRange ↔ ¬ EndsWithHeader packet input := by
  rw [ne_eq, not_iff_not]
  by_cases hsmall : input.data.length < 2 ^ 31
  · rw [throws_iff_bareHeader hsound hsmall, endsWithHeader_iff hsmall]
  · constructor
    · intro hthrows
      obtain ⟨_, _, _, hend⟩ := (recvDataframe_outOfRange_iff hsound packet).mp hthrows
      have hsize := SeenHeader.size_le input.ahead
      have htotal := hsound.oft_add_ahead_lt
      omega
    · intro hends
      exact absurd hends.2.1 hsmall

theorem recvDataframe_ne_outOfRange_iff_hello :
    recvDataframe (new #v[0, 0, 0, 0]) ⟨[0x07, 0x81, 0x01, 0x61], 1⟩ ≠ .error .outOfRange ↔
      ¬ EndsWithHeader (new #v[0, 0, 0, 0]) ⟨[0x07, 0x81, 0x01, 0x61], 1⟩ :=
  recvDataframe_ne_outOfRange_iff (new #v[0, 0, 0, 0]) (by decide)

/-- An empty Text frame is the whole of the data. -/
theorem emptyFrame_outOfRange :
    (⟨[0x81, 0x00], 0⟩ : ByteBuffer).Sound ∧
      recvDataframe (new #v[0, 0, 0, 0]) ⟨[0x81, 0x00], 0⟩ = .error .outOfRange := by
  exact ⟨by decide, by decide +kernel⟩

end WebSocketPacket

end CppFragments
