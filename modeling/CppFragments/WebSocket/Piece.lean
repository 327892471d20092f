import CppFragments.WebSocket.Bounds
import CppFragments.WebSocket.Decoded

/-! # The piece of the input behind a frame

Whatever the bytes are, `recv_dataframe` either leaves them, throws, or takes a
piece of them. The frame it reports can be read off that piece alone.
-/

namespace CppFragments

open Outcome ByteBuffer WebSocketPacket

/-! ## A header is seen in any piece that holds it -/

theorem whole_take {width count : Nat} {bytes : List UInt8}
    (hcount : (whole width bytes).length ≤ count) :
    whole width (bytes.take count) = whole width bytes := by
  rw [length_whole] at hcount
  by_cases hle : width ≤ bytes.length
  · rw [if_pos hle] at hcount
    have hmore : width ≤ (bytes.take count).length := by
      rw [List.length_take]
      exact Nat.le_min.mpr ⟨hcount, hle⟩
    rw [whole_of_le hle, whole_of_le hmore, List.take_take, Nat.min_eq_left hcount]
  · have hless : (bytes.take count).length < width := by
      rw [List.length_take]
      omega
    rw [whole_of_lt (Nat.not_le.mp hle), whole_of_lt hless]

/-- The two fixed bytes fix the widths of the fields behind them. -/
theorem exists_widths (first second : UInt8) :
    ∃ lengthWidth keyWidth, ∀ rest, seenHeader (first :: second :: rest) =
      ⟨first, second, whole lengthWidth rest,
        whole keyWidth (rest.drop (whole lengthWidth rest).length),
        2 + (whole lengthWidth rest).length +
          (whole keyWidth (rest.drop (whole lengthWidth rest).length)).length⟩ := by
  refine ⟨Frame.extendedWidth (second &&& 0x7F), if second >>> 7 = 1 then 4 else 0, ?_⟩
  intro rest
  have hlead : min 2 (first :: second :: rest).length = 2 := Nat.min_eq_left (by simp)
  simp only [seenHeader, hlead]
  rfl

theorem seenHeader_take {count : Nat} {bytes : List UInt8}
    (hcount : (seenHeader bytes).size ≤ count) :
    seenHeader (bytes.take count) = seenHeader bytes := by
  rcases bytes with _ | ⟨first, _ | ⟨second, rest⟩⟩
  · rw [List.take_nil]
  · rw [seenHeader_single] at hcount
    rw [List.take_of_length_le hcount]
  · obtain ⟨lengthWidth, keyWidth, hseen⟩ := exists_widths first second
    rw [hseen] at hcount
    obtain ⟨more, rfl⟩ : ∃ more, count = more + 2 := ⟨count - 2, by dsimp only at hcount; omega⟩
    have hextension : (whole lengthWidth rest).length ≤ more := by
      dsimp only at hcount
      omega
    rw [List.take_succ_cons, List.take_succ_cons, hseen, hseen, whole_take hextension,
      List.drop_take, whole_take (by dsimp only at hcount; omega)]

/-! ## Pieces -/

/-- The payload with the mask taken off. -/
def DecodedFrame.unmask (frame : DecodedFrame) (bytes : List UInt8) : List UInt8 :=
  match frame.key? with
  | some key => Bytes.xorFrom key.byteAt 0 bytes
  | none => bytes

/-- The frame is what its header and payload bytes in the piece say. A header
that was cut off leaves the key and a 64-bit length open. -/
structure Spells (piece : List UInt8) (frame : DecodedFrame) : Prop where
  fin : frame.fin = (seenHeader piece).first >>> 7
  opcode : frame.opcode = (seenHeader piece).first &&& 0x7F
  masked : frame.key?.isSome ↔ (seenHeader piece).mask = 1
  key : ∀ key, frame.key? = some key → (seenHeader piece).key ≠ [] →
    key = Vector.ofFn fun i => (seenHeader piece).key.getD i 0
  payload : frame.payload = frame.unmask (piece.drop (seenHeader piece).size)
  payload_le : frame.payload.length ≤ 65535
  short : (seenHeader piece).code < 126 →
    piece.length = (seenHeader piece).size + (seenHeader piece).code.toNat
  medium : (seenHeader piece).code = 126 →
    piece.length = (seenHeader piece).size + Bytes.ofBigEndian (seenHeader piece).extension

namespace WebSocketPacket

variable {packet : WebSocketPacket} {input : ByteBuffer}

/-- The packet has been filled with a frame from the first bytes ahead. -/
structure TakenFrom (input : ByteBuffer) (piece after : List UInt8) (packet : WebSocketPacket) :
    Prop where
  ahead : input.ahead = piece ++ after
  two_le : 2 ≤ piece.length
  parsed : packet.Parsed
  spells : Spells piece packet.decoded

/-- Just an unmasked header is ahead. -/
structure OnlyHeader (input : ByteBuffer) : Prop where
  mask : (seenHeader input.ahead).mask ≠ 1
  size : (seenHeader input.ahead).size = input.ahead.length

/-- What `recv_dataframe` comes to, whatever bytes are ahead. -/
inductive Takes (input : ByteBuffer) :
    Except Fault (UInt64 × WebSocketPacket × ByteBuffer) → Prop
  | incomplete (packet' : WebSocketPacket) (hsize : input.ahead.length < 65549) :
      Takes input (.ok (0, packet', input))
  | thrown (honly : OnlyHeader input) : Takes input (.error .outOfRange)
  | piece (piece after : List UInt8) (packet' : WebSocketPacket)
      (htaken : TakenFrom input piece after packet') :
      Takes input (.ok (UInt64.ofNat (input.oft.toNat + piece.length), packet',
        input.advance piece.length))

theorem seenHeader_size_le (bytes : List UInt8) : (seenHeader bytes).size ≤ 14 := by
  have hextension : (seenHeader bytes).extension.length ≤ 8 := by
    refine (extension_length_le bytes).trans ?_
    unfold Frame.extendedWidth
    split_ifs <;> decide
  have hkey : (seenHeader bytes).key.length ≤ 4 := by
    change (whole _ _).length ≤ 4
    rw [length_whole]
    split_ifs <;> decide
  have hsize : (seenHeader bytes).size =
      min 2 bytes.length + (seenHeader bytes).extension.length +
        (seenHeader bytes).key.length := rfl
  omega

theorem length_unmasked (packet : WebSocketPacket) (bytes : List UInt8) :
    (packet.unmasked bytes).length = bytes.length := by
  unfold unmasked
  split
  · rw [Bytes.length_xorFrom]
  · rfl

/-- The frame that a packet with no payload yet is filled with. -/
theorem spells_filled (hready : packet.Ready) {piece : List UInt8}
    (hlength : piece.length = (seenHeader piece).size +
      (packet.withSeen (seenHeader piece)).payloadLength.toNat) :
    Spells piece ((packet.withSeen (seenHeader piece)).filled
      (piece.drop (seenHeader piece).size)).decoded := by
  have hempty : packet.payload.data = [] := congrArg ByteBuffer.data hready.payload
  have hstored := toNat_storedLength (extension_length_le piece) packet.payloadLength
  constructor
  · rfl
  · rfl
  · change (if (seenHeader piece).mask = 1 then some _ else none).isSome ↔ _
    split <;> simp_all
  · intro key hkey hne
    change (if (seenHeader piece).mask = 1 then
      some (storedKey (seenHeader piece).key packet.maskingKey) else none) = some key at hkey
    split at hkey
    · rw [← Option.some.inj hkey, storedKey, if_neg hne]
    · cases hkey
  · change packet.payload.data ++ unmasked _ _ = _
    rw [hempty, List.nil_append]
    unfold unmasked DecodedFrame.unmask
    change (if (seenHeader piece).mask = 1 then _ else _) =
      match (if (seenHeader piece).mask = 1 then
        some (storedKey (seenHeader piece).key packet.maskingKey) else none) with
      | some key => _
      | none => _
    split <;> rfl
  · change (packet.payload.data ++ unmasked _ _).length ≤ 65535
    rw [hempty, List.nil_append, length_unmasked, List.length_drop, hlength,
      Nat.add_sub_cancel_left]
    exact Nat.le_of_lt_succ (storedLength_lt piece (Nat.lt_succ_of_le hready.payloadLength_le))
  · intro hshort
    rw [if_pos hshort] at hstored
    rw [hlength]
    exact congrArg _ hstored
  · intro hmedium
    rw [if_neg (by rw [hmedium]; decide), if_pos hmedium] at hstored
    rw [hlength]
    exact congrArg _ hstored

/-- **Whatever bytes are ahead, `recv_dataframe` takes a piece of them that the
frame it reports can be read off**, unless it leaves them all or throws. -/
theorem recvDataframe_takes (hready : packet.Ready) (hsound : input.Sound)
    (hsmall : input.data.length < 2 ^ 31) (htwo : 2 ≤ input.ahead.length) :
    Takes input (recvDataframe packet input) := by
  have hle : (headed packet input).payloadLength.toNat < 2 ^ 16 :=
    storedLength_lt input.ahead (Nat.lt_succ_of_le hready.payloadLength_le)
  have hsize := seenHeader_size_le input.ahead
  have htotal := hsound.oft_add_ahead_lt
  by_cases hfits : Fits packet input
  · have hroom := (fits_iff hsound (by omega)).mp hfits
    have hpast := pastHeader_ahead hsound
    by_cases hmore : (headed packet input).mask = 1 ∨ (pastHeader input).ahead ≠ []
    · -- The piece is the header and as many bytes as the stored length says.
      let piece := input.ahead.take
        ((seenHeader input.ahead).size + (headed packet input).payloadLength.toNat)
      have hpiece : piece.length =
          (seenHeader input.ahead).size + (headed packet input).payloadLength.toNat := by
        rw [List.length_take, Nat.min_eq_left (by omega)]
      have hseen : seenHeader piece = seenHeader input.ahead :=
        seenHeader_take (Nat.le_add_right _ _)
      have hpayload : (pastHeader input).ahead.take (headed packet input).payloadLength.toNat =
          piece.drop (seenHeader piece).size := by
        rw [hseen, hpast, List.drop_take, Nat.add_sub_cancel_left]
      have hlead := min_two_le_size input.ahead
      have hspells : Spells piece ((headed packet input).filled
          (piece.drop (seenHeader piece).size)).decoded := by
        have hheaded : headed packet input = packet.withSeen (seenHeader piece) := by
          rw [hseen, headed]
        rw [hheaded]
        refine spells_filled hready ?_
        rw [← hheaded, hseen]
        exact hpiece
      have hrecv : recvDataframe packet input =
          .ok (UInt64.ofNat (input.oft.toNat + piece.length),
            (headed packet input).filled (piece.drop (seenHeader piece).size),
            input.advance piece.length) := by
        have hpastLength := congrArg List.length hpast
        rw [List.length_drop] at hpastLength
        have hfetch := fetchPayload_sound (pastHeader_sound hsound) (headed packet input)
          (by omega) hmore
        have hoffset : ((pastHeader input).advance
            (headed packet input).payloadLength.toNat).getoft =
              ((input.oft.toNat + piece.length : Nat) : Int) := by
          rw [((pastHeader_sound hsound).advance (by omega)).getoft_eq,
            (pastHeader_sound hsound).advance_oft (by omega), pastHeader_oft hsound, hpiece,
            Nat.add_assoc]
        rw [recvDataframe_of_fits hsound hfits, hfetch]
        simp only [ok_bind, pure_eq_ok, hoffset, uint64_ofInt_natCast, hpayload]
        rw [pastHeader, advance_advance, ← hpiece]
      have hparsed := recvDataframe_ensures hready input _ hrecv
      rw [hrecv]
      refine .piece piece (input.ahead.drop piece.length) _ ⟨?_, by omega, hparsed ?_, hspells⟩
      · rw [hpiece]
        exact (List.take_append_drop _ _).symm
      · exact uint64_ofNat_ne_zero (by omega) (by omega)
    · -- An unmasked header ends with the data, and `curat` looks behind it.
      obtain ⟨hmask, hnil⟩ := not_or.mp hmore
      have hend : (pastHeader input).ahead = [] := not_not.mp hnil
      have hlength : input.length = input.data.length := toInt32_natCast hsmall
      have hahead := hsound.length_ahead
      rw [hpast, List.drop_eq_nil_iff] at hend
      have hheader := SeenHeader.size_le input.ahead
      have hthrown : recvDataframe packet input = .error .outOfRange :=
        (recvDataframe_outOfRange_iff hsound packet).mpr ⟨hfits, hmask, by omega, by omega⟩
      rw [hthrown]
      exact .thrown ⟨hmask, Nat.le_antisymm hheader hend⟩
  · have hshort := (fits_iff hsound (by omega)).not.mp hfits
    rw [recvDataframe_of_not_fits hsound hfits]
    exact .incomplete _ (by omega)

end WebSocketPacket

end CppFragments
