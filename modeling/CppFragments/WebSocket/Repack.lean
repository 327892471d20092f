import CppFragments.WebSocket.Decoded

/-! # Packing more than once

`packDataframe` reads a masked payload through the read offset of `payload_` and
does not put the offset back, so that a second call finds the payload read.
-/

namespace CppFragments

open Outcome ByteBuffer WebSocketPacket

/-- A packet whose payload was installed by `set_payload` on an empty payload
buffer, in one call or more, or by one successful `recv_dataframe` into one. -/
inductive HoldsPayload : WebSocketPacket → Prop
  | installed {packet packet' : WebSocketPacket} {buf : List UInt8} {size : UInt64}
      (hempty : packet.payload = .empty) (hset : packet.setPayload buf size = .ok packet') :
      HoldsPayload packet'
  | extended {packet packet' : WebSocketPacket} {buf : List UInt8} {size : UInt64}
      (hholds : HoldsPayload packet) (hset : packet.setPayload buf size = .ok packet') :
      HoldsPayload packet'
  | received {packet packet' : WebSocketPacket} {input input' : ByteBuffer} {offset : UInt64}
      (hempty : packet.payload = .empty)
      (hrecv : recvDataframe packet input = .ok (offset, packet', input')) (hsuccess : offset ≠ 0) :
      HoldsPayload packet'

namespace WebSocketPacket

/-- Nothing of the payload has been read, and `payload_length_` covers it. -/
structure Unread (packet : WebSocketPacket) : Prop where
  oft : packet.payload.oft = 0
  covered : packet.payload.data.length % 2 ^ 32 ≤ packet.payloadLength.toNat

/-- Two calls of `packDataframe` in a row append the same bytes. -/
def PacksAgain (packet : WebSocketPacket) : Prop :=
  ∃ bytes packed packed', ∀ first second : ByteBuffer,
    packDataframe packet first = .ok (0, packed, { first with data := first.data ++ bytes }) ∧
      packDataframe packed second = .ok (0, packed', { second with data := second.data ++ bytes })

variable {packet : WebSocketPacket}

/-! ## Payloads as installed -/

/-- The length stored is not below the number of bytes that single reads get. -/
theorem le_toNat_uint64_length (buffer : ByteBuffer) :
    buffer.data.length % 2 ^ 32 ≤ (UInt64.ofInt buffer.length).toNat := by
  simp only [UInt64.ofInt, UInt64.toNat_ofNat', ByteBuffer.length, toInt32, Int.bmod_def]
  split <;> omega

theorem setPayload_unread (hoft : packet.payload.oft = 0) (buf : List UInt8) (size : UInt64) :
    Ensures Unread (packet.setPayload buf size) := by
  unfold setPayload
  refine (append_ensures _ _ _).bind fun payload happend => ?_
  exact (ensures_ok _).mpr ⟨happend.1.trans hoft, le_toNat_uint64_length payload⟩

theorem toNat_toInt32_le (length : UInt64) : (toInt32 length.toNat).toNat ≤ length.toNat := by
  have hle := toInt32_natCast_le length.toNat
  omega

theorem fetchPayload_unread (hempty : packet.payload = .empty) (input : ByteBuffer) :
    Ensures (fun result => result.1.Unread) (fetchPayload packet input) := by
  have hdata : packet.payload.data.length = 0 := by rw [hempty]; rfl
  have hoft : packet.payload.oft = 0 := by rw [hempty]; rfl
  unfold fetchPayload
  split
  · refine (copyMasked_ensures _ _ _ _ _ _).bind ?_
    intro copied hcopied
    rcases copied with ⟨input', payload⟩
    rcases hcopied with ⟨hpayload, hlength⟩
    refine (ensures_ok _).mpr ⟨hpayload.trans hoft, (Nat.mod_le _ _).trans ?_⟩
    rw [hdata] at hlength
    exact (hlength.trans (Nat.zero_add _)).le
  · refine (ensures_true _).bind fun pointer _ => ?_
    refine (append_ensures _ _ _).bind fun payload happend => ?_
    refine (ensures_ok _).mpr ⟨happend.1.trans hoft, (Nat.mod_le _ _).trans ?_⟩
    rw [happend.2, hdata, Nat.zero_add]
    exact toNat_toInt32_le packet.payloadLength

theorem recvDataframe_unread (hempty : packet.payload = .empty) (input : ByteBuffer) :
    Ensures (fun result => result.1 ≠ 0 → result.2.1.Unread) (recvDataframe packet input) := by
  unfold recvDataframe
  refine (fetchFrameInfo_ensures packet input).bind ?_
  intro header hread
  rcases header with ⟨size, packet', input'⟩
  dsimp only
  split
  · exact (ensures_ok _).mpr fun hne => absurd rfl hne
  · refine (fetchPayload_unread (hread.payload.trans hempty) input').bind ?_
    intro result hunread
    exact (ensures_ok _).mpr fun _ => hunread

end WebSocketPacket

theorem HoldsPayload.unread {packet : WebSocketPacket} (hholds : HoldsPayload packet) :
    packet.Unread := by
  induction hholds with
  | @installed packet packet' buf size hempty hset =>
      have hoft : packet.payload.oft = 0 := by rw [hempty]; rfl
      exact setPayload_unread hoft buf size packet' hset
  | @extended packet packet' buf size _ hset ih =>
      exact setPayload_unread ih.oft buf size packet' hset
  | received hempty hrecv hsuccess => exact recvDataframe_unread hempty _ _ hrecv hsuccess

/-! ## Two calls -/

namespace WebSocketPacket

section Unread

variable {packet : WebSocketPacket}

theorem Unread.within (hunread : packet.Unread) :
    packet.payload.within = packet.payload.data.take (packet.payload.data.length % 2 ^ 32) := by
  rw [ByteBuffer.within, hunread.oft]
  rfl

theorem Unread.oft_le (hunread : packet.Unread) :
    packet.payload.oft.toNat ≤ packet.payload.data.length % 2 ^ 32 := by
  rw [hunread.oft]
  exact Nat.zero_le _

/-- A masked payload is read to its end by the first call. -/
theorem Unread.within_drained (hunread : packet.Unread) (hmask : packet.mask = 1) :
    packet.drained.payload.within = [] := by
  have hlength := length_within packet.payload
  have hcovered := hunread.covered
  rw [drained, if_pos hmask, within_advance hunread.oft_le (Nat.min_le_right _ _)]
  rw [List.drop_eq_nil_iff, Nat.min_eq_right (by omega)]

theorem drained_oft_le (hunread : packet.Unread) :
    packet.drained.payload.oft.toNat ≤ packet.drained.payload.data.length % 2 ^ 32 := by
  have hoft := hunread.oft_le
  unfold drained
  split
  next hmask =>
    have hlength := length_within packet.payload
    rw [oft_advance_within hoft (Nat.min_le_right _ _), advance_data]
    omega
  next hmask => exact hoft

theorem headBytes_drained (packet : WebSocketPacket) :
    packet.drained.headBytes = packet.headBytes := by
  unfold drained
  split <;> rfl

theorem bodyBytes_drained (hunread : packet.Unread) :
    packet.drained.bodyBytes =
      if packet.mask = 1 then
        Bytes.xorRepeating packet.maskingKey.byteAt packet.payloadLength.toNat 0 0 []
      else packet.bodyBytes := by
  by_cases hmask : packet.mask = 1
  · have hwithin := hunread.within_drained hmask
    rw [drained, if_pos hmask] at hwithin
    rw [if_pos hmask, drained, if_pos hmask, bodyBytes, if_pos hmask, hwithin]
  · rw [if_neg hmask, drained, if_neg hmask]

/-- Two calls append the same if their bytes for the payload are the same. -/
theorem packsAgain_iff (hunread : packet.Unread) :
    packet.PacksAgain ↔ packet.drained.bodyBytes = packet.bodyBytes := by
  have hfirst := packDataframe_eq hunread.oft_le
  have hsecond := packDataframe_eq (drained_oft_le hunread)
  rw [headBytes_drained] at hsecond
  constructor
  · intro hagain
    rcases hagain with ⟨bytes, packed, packed', hcalls⟩
    rcases hcalls .empty .empty with ⟨hone, htwo⟩
    rw [hfirst] at hone
    simp only [Except.ok.injEq, Prod.mk.injEq, ByteBuffer.mk.injEq, List.append_cancel_left_eq,
      true_and, and_true] at hone
    rcases hone with ⟨rfl, rfl⟩
    rw [hsecond] at htwo
    simp only [Except.ok.injEq, Prod.mk.injEq, ByteBuffer.mk.injEq, List.append_cancel_left_eq,
      true_and, and_true] at htwo
    exact htwo.2
  · intro hsame
    rw [hsame] at hsecond
    exact ⟨_, _, _, fun first second => ⟨hfirst first, hsecond second⟩⟩

end Unread

/-- **Packing is repeatable exactly when there is no mask, or every payload byte
is the xor of the key bytes before its place.** -/
theorem packsAgain_iff_of_holdsPayload {packet : WebSocketPacket} (hholds : HoldsPayload packet)
    (mask : UInt8) (key : MaskingKey) :
    { packet with mask := mask, maskingKey := key }.PacksAgain ↔
      mask ≠ 1 ∨ ∀ index < packet.payload.data.length % 2 ^ 32,
        packet.payload.data[index]? = some (Bytes.xorAll key.byteAt 0 0 index) := by
  have hunread : { packet with mask := mask, maskingKey := key }.Unread :=
    ⟨hholds.unread.oft, hholds.unread.covered⟩
  rw [packsAgain_iff hunread, bodyBytes_drained hunread]
  by_cases hmask : mask = 1
  · have hcovered := hunread.covered
    rw [if_pos hmask, bodyBytes, if_pos hmask, eq_comm, Bytes.xorRepeating_eq_nil_iff,
      or_iff_right (not_not.mpr hmask), hunread.within]
    dsimp only at hcovered ⊢
    rw [List.length_take, Nat.min_eq_left (Nat.mod_le _ _)]
    constructor
    · intro hbytes index hlt
      rw [← hbytes index (by omega) hlt, List.getElem?_take_of_lt hlt]
    · intro hbytes index _ hlt
      rw [List.getElem?_take_of_lt hlt]
      exact hbytes index hlt
  · rw [if_neg hmask]
    exact iff_of_true rfl (Or.inl hmask)

/-- The payload "hi" with a key of four bytes 7. -/
def greetingPacket : WebSocketPacket :=
  { new (Vector.replicate 4 7) with payload := ⟨literal "hi", 0⟩, payloadLength := 2 }

theorem greetingPacket_holdsPayload : HoldsPayload greetingPacket := by
  have hset : (new (Vector.replicate 4 7)).setPayload (literal "hi") 2 = .ok greetingPacket := by
    decide +kernel
  exact .installed rfl hset

theorem packsAgain_iff_of_greetingPacket :
    { greetingPacket with mask := 0, maskingKey := Vector.replicate 4 7 }.PacksAgain ↔
      (0 : UInt8) ≠ 1 ∨ ∀ index < greetingPacket.payload.data.length % 2 ^ 32,
        greetingPacket.payload.data[index]? =
          some (Bytes.xorAll (MaskingKey.byteAt (Vector.replicate 4 7)) 0 0 index) :=
  packsAgain_iff_of_holdsPayload greetingPacket_holdsPayload 0 _

/-- With the mask set, the second call does not send "hi" again. -/
theorem greetingPacket_not_packsAgain :
    HoldsPayload greetingPacket ∧ ¬{ greetingPacket with mask := 1 }.PacksAgain := by
  refine ⟨greetingPacket_holdsPayload, ?_⟩
  have hunread : { greetingPacket with mask := 1 }.Unread :=
    ⟨greetingPacket_holdsPayload.unread.oft, greetingPacket_holdsPayload.unread.covered⟩
  rw [packsAgain_iff hunread]
  decide +kernel

end WebSocketPacket

end CppFragments
