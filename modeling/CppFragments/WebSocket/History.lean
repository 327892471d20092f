import CppFragments.WebSocket.Decoded
import CppFragments.WebSocket.SeenHeader

/-! # Decoding with a packet object that has been used before

The length of a frame in the 64-bit form is never stored, so a packet decodes it
with the length of whatever frame it decoded last.
-/

namespace CppFragments

open Outcome ByteBuffer WebSocketPacket

/-- A packet that has decoded, or failed to decode, from any buffers, with its
payload cleared at any time. -/
inductive Used : WebSocketPacket → Prop
  | new (indeterminate : MaskingKey) : Used (new indeterminate)
  | received {packet packet' : WebSocketPacket} {input input' : ByteBuffer} {offset : UInt64}
      (hused : Used packet) (hrecv : recvDataframe packet input = .ok (offset, packet', input')) :
      Used packet'
  | cleared {packet : WebSocketPacket} (hused : Used packet) : Used packet.cleared

/-- What a caller can see of one `recv_dataframe` call. -/
structure Observation where
  offset : UInt64
  oft : UInt32
  fin : UInt8
  opcode : UInt8
  mask : UInt8
  payloadLength : UInt64
  payload : List UInt8
  deriving DecidableEq

namespace WebSocketPacket

def observe (packet : WebSocketPacket) (input : ByteBuffer) : Except Fault Observation := do
  let (offset, packet, input) ← recvDataframe packet input
  return ⟨offset, input.oft, packet.fin, packet.opcode, packet.mask, packet.payloadLength,
    packet.payload.data⟩

/-! ## The length a used packet holds -/

theorem fetchPayload_payloadLength (packet : WebSocketPacket) (input : ByteBuffer) :
    Ensures (fun result => result.1.payloadLength = packet.payloadLength)
      (fetchPayload packet input) := by
  unfold fetchPayload
  split
  · refine (ensures_true _).bind ?_
    intro copied _
    exact (ensures_ok _).mpr rfl
  · refine (ensures_true _).bind ?_
    intro pointer _
    refine (ensures_true _).bind ?_
    intro payload _
    exact (ensures_ok _).mpr rfl

theorem recvDataframe_payloadLength {packet : WebSocketPacket} (input : ByteBuffer)
    (hle : packet.payloadLength.toNat ≤ 65535) :
    Ensures (fun result => result.2.1.payloadLength.toNat ≤ 65535)
      (recvDataframe packet input) := by
  unfold recvDataframe
  refine (fetchFrameInfo_ensures packet input).bind ?_
  intro header hread
  rcases header with ⟨size, packet', input'⟩
  have hle' : packet'.payloadLength.toNat ≤ 65535 := hread.payloadLength_le hle
  dsimp only
  split
  · exact (ensures_ok _).mpr hle'
  · refine (fetchPayload_payloadLength packet' input').bind ?_
    intro fetched heq
    rcases fetched with ⟨packet'', input''⟩
    refine (ensures_ok _).mpr ?_
    rw [heq]
    exact hle'

end WebSocketPacket

theorem Used.payloadLength_le {packet : WebSocketPacket} (hused : Used packet) :
    packet.payloadLength.toNat ≤ 65535 := by
  induction hused with
  | new indeterminate => exact Nat.zero_le _
  | received hused hrecv ih => exact recvDataframe_payloadLength _ ih _ hrecv
  | cleared hused ih => exact ih

/-! ## Two packets on one buffer -/

namespace WebSocketPacket

variable {first second : WebSocketPacket} {input : ByteBuffer}

/-- Packets that a header leaves alike in all that is read later on. -/
structure AgreeAfter (input : ByteBuffer) (first second : WebSocketPacket) : Prop where
  payloadLength : (headed first input).payloadLength = (headed second input).payloadLength
  maskingKey : (seenHeader input.ahead).mask = 1 →
    (headed first input).maskingKey = (headed second input).maskingKey
  payload : first.payload = second.payload

theorem observe_of_agreeAfter (hsound : input.Sound) (hagree : AgreeAfter input first second) :
    observe first input = observe second input := by
  have hlength := hagree.payloadLength
  have hpayload := hagree.payload
  by_cases hfits : Fits first input
  · have hfits' : Fits second input := by
      rw [Fits, ← hlength]
      exact hfits
    have hfirst := headed_payload first input
    have hsecond := headed_payload second input
    unfold observe
    rw [recvDataframe_of_fits hsound hfits, recvDataframe_of_fits hsound hfits']
    unfold fetchPayload
    -- Without a mask the key is not looked at.
    by_cases hmask : (seenHeader input.ahead).mask = 1
    · have hkey := hagree.maskingKey hmask
      have hmask₁ : (headed first input).mask = 1 := hmask
      have hmask₂ : (headed second input).mask = 1 := hmask
      rw [if_pos hmask₁, if_pos hmask₂, hfirst, hsecond, hlength, hkey, hpayload]
      cases copyMasked (headed second input).maskingKey
          (headed second input).payloadLength.toNat 0 0 (pastHeader input) second.payload with
      | error fault => simp only [error_bind]
      | ok copied =>
          simp only [ok_bind, pure_eq_ok, headed_fin, headed_opcode, headed_mask]
    · have hmask₁ : ¬ (headed first input).mask = 1 := hmask
      have hmask₂ : ¬ (headed second input).mask = 1 := hmask
      rw [if_neg hmask₁, if_neg hmask₂, hfirst, hsecond, hlength, hpayload]
      dsimp only
      rcases (pastHeader input).skipX (toInt32 (headed second input).payloadLength.toNat) with
        ⟨moved, skipped⟩
      cases (pastHeader input).curat with
      | error fault => simp only [error_bind]
      | ok pointer =>
          simp only [ok_bind]
          cases second.payload.append pointer
              (toInt32 (headed second input).payloadLength.toNat) with
          | error fault => simp only [error_bind]
          | ok payload =>
              simp only [ok_bind, pure_eq_ok, headed_fin, headed_opcode, headed_mask]
  · have hfits' : ¬ Fits second input := by
      rw [Fits, ← hlength]
      exact hfits
    unfold observe
    rw [recvDataframe_of_not_fits hsound hfits, recvDataframe_of_not_fits hsound hfits']
    simp only [ok_bind, pure_eq_ok, headed_fin, headed_opcode, headed_mask, headed_payload,
      hlength, hpayload]

end WebSocketPacket

/-- The length of the frame at the head of the bytes has its 64-bit form. -/
def LongForm (bytes : List UInt8) : Prop :=
  ∃ first second rest, bytes = first :: second :: rest ∧ second &&& 0x7F = 127

/-- All of a complete header is seen, the key included. -/
theorem key_seen_of_complete {bytes : List UInt8} (hcomplete : Frame.Complete bytes)
    (hmask : (seenHeader bytes).mask = 1) : (seenHeader bytes).key ≠ [] := by
  obtain ⟨size, hsize, hle⟩ := hcomplete
  match bytes with
  | [] => simp [Frame.declaredSize] at hsize
  | [_] => simp [Frame.declaredSize] at hsize
  | first :: second :: rest =>
      rw [seenHeader_mask] at hmask
      simp only [Frame.declaredSize, hmask, if_true] at hsize
      split at hsize
      next hwidth =>
        rw [Option.some.injEq] at hsize
        simp only [List.length_cons] at hle
        have hlength : (whole (Frame.extendedWidth (second &&& 0x7F)) rest).length =
            Frame.extendedWidth (second &&& 0x7F) := by
          rw [length_whole, if_pos hwidth]
        change whole (if second >>> 7 = 1 then 4 else 0)
          (rest.drop (whole (Frame.extendedWidth (second &&& 0x7F)) rest).length) ≠ []
        rw [if_pos hmask, hlength]
        apply List.ne_nil_of_length_pos
        rw [length_whole, if_pos]
        · decide
        · rw [List.length_drop]
          omega
      next => simp at hsize

theorem storedLength_of_not_long {bytes : List UInt8} (hcomplete : Frame.Complete bytes)
    (hlong : ¬ LongForm bytes) (old old' : UInt64) :
    storedLength (seenHeader bytes).code (seenHeader bytes).extension old =
      storedLength (seenHeader bytes).code (seenHeader bytes).extension old' := by
  obtain ⟨size, hsize, _⟩ := hcomplete
  match bytes with
  | [] => simp [Frame.declaredSize] at hsize
  | [_] => simp [Frame.declaredSize] at hsize
  | first :: second :: rest =>
      have hcode : (seenHeader (first :: second :: rest)).code < 128 := and_127_lt second
      unfold storedLength
      split
      · rfl
      next hshort =>
        split
        · rfl
        next hmedium =>
          exact absurd ⟨first, second, rest, rfl, code_eq_127 hcode hshort hmedium⟩ hlong

namespace WebSocketPacket

variable {first second : WebSocketPacket} {input : ByteBuffer}

theorem agreeAfter_of_complete (hcomplete : Frame.Complete input.ahead)
    (hlength : ¬ LongForm input.ahead ∨ first.payloadLength = second.payloadLength)
    (hpayload : first.payload = second.payload) : AgreeAfter input first second where
  payloadLength := by
    rw [headed_payloadLength, headed_payloadLength]
    rcases hlength with hlong | heq
    · exact storedLength_of_not_long hcomplete hlong _ _
    · rw [heq]
  maskingKey hmask := by
    have hkey := key_seen_of_complete hcomplete hmask
    rw [headed_maskingKey, headed_maskingKey, storedKey, storedKey, if_neg hkey, if_neg hkey]
  payload := hpayload

theorem recvDataframe_headed (hsound : input.Sound) (packet : WebSocketPacket) :
    Ensures (fun result => result.2.1.payloadLength = (headed packet input).payloadLength)
      (recvDataframe packet input) := by
  by_cases hfits : Fits packet input
  · rw [recvDataframe_of_fits hsound hfits]
    refine (fetchPayload_payloadLength _ _).bind ?_
    intro fetched hlength
    exact (ensures_ok _).mpr hlength
  · rw [recvDataframe_of_not_fits hsound hfits]
    exact (ensures_ok _).mpr rfl

theorem observe_payloadLength (hsound : input.Sound) (packet : WebSocketPacket) :
    Ensures (fun seen => seen.payloadLength = (headed packet input).payloadLength)
      (observe packet input) := by
  refine (recvDataframe_headed hsound packet).bind ?_
  intro received hlength
  exact (ensures_ok _).mpr hlength

/-- An empty payload is fetched unless the data ends at the offset. -/
theorem fetchPayload_returns {packet : WebSocketPacket} (hlength : packet.payloadLength = 0)
    (hmore : input.oft.toNat < input.data.length) :
    ∃ result, fetchPayload packet input = .ok result := by
  obtain ⟨pointer, hcurat⟩ := curat_returns fun _ => hmore
  have hsize : toInt32 ((0 : UInt64).toNat : Int) = ((0 : Nat) : Int) := by decide
  unfold fetchPayload
  split
  · rw [hlength]
    exact ⟨_, rfl⟩
  · rw [hlength, hsize, hcurat]
    simp only [ok_bind]
    rw [append_of_le _ (Nat.zero_le _)]
    exact ⟨_, rfl⟩

theorem observe_of_zero (hsound : input.Sound) (hlength : (headed first input).payloadLength = 0)
    (hmore : input.oft.toNat + (seenHeader input.ahead).size < input.data.length) :
    ∃ seen, observe first input = .ok seen := by
  have hsize := SeenHeader.size_le input.ahead
  have hfits : Fits first input := by
    rw [fits_iff hsound (by rw [hlength]; decide), hlength]
    change 0 + _ ≤ _
    omega
  obtain ⟨result, hfetch⟩ := fetchPayload_returns hlength
    (show (pastHeader input).oft.toNat < (pastHeader input).data.length by
      rw [pastHeader_oft hsound, pastHeader, advance_data]
      exact hmore)
  unfold observe
  rw [recvDataframe_of_fits hsound hfits, hfetch]
  exact ⟨_, rfl⟩

theorem headed_of_long (indeterminate : MaskingKey) (used : WebSocketPacket)
    (hlong : LongForm input.ahead) :
    (headed (new indeterminate) input).payloadLength = 0 ∧
      (headed used input).payloadLength = used.payloadLength := by
  have hkept : ∀ packet : WebSocketPacket,
      (headed packet input).payloadLength = packet.payloadLength := by
    intro packet
    obtain ⟨first, second, rest, hahead, hcode⟩ := hlong
    have hseen : (seenHeader input.ahead).code = 127 := by rw [hahead]; exact hcode
    rw [headed_payloadLength, hseen]
    rfl
  exact ⟨hkept (new indeterminate), hkept used⟩

/-- On a length in the 64-bit form a packet that holds another length differs
from a fresh one. -/
theorem observe_ne_of_long (indeterminate : MaskingKey) {used : WebSocketPacket}
    (hused : Used used) (hne : used.payloadLength ≠ 0) (hsound : input.Sound)
    (hlong : LongForm input.ahead) : observe (new indeterminate) input ≠ observe used input := by
  intro heq
  obtain ⟨hfresh, hstale⟩ := headed_of_long indeterminate used hlong
  cases hseen : observe used input with
  | ok seen =>
      rw [hseen] at heq
      have hzero : seen.payloadLength = _ := observe_payloadLength hsound _ _ heq
      have hkept : seen.payloadLength = _ := observe_payloadLength hsound _ _ hseen
      rw [hzero, hfresh, hstale] at hkept
      exact hne hkept.symm
  | error fault =>
      by_cases hfits : Fits used input
      · -- The used packet wants a byte more than the fresh one, which returns.
        have hle := hused.payloadLength_le
        rw [ne_eq, uint64_eq_zero_iff] at hne
        rw [fits_iff hsound (by rw [hstale]; omega), hstale] at hfits
        have hlength := hsound.length_ahead
        have hdata := input.length_le
        obtain ⟨seen, hfirst⟩ := observe_of_zero hsound hfresh (by omega)
        rw [hfirst, hseen] at heq
        cases heq
      · rw [observe, recvDataframe_of_not_fits hsound hfits] at hseen
        simp at hseen

/-- **A used packet decodes a complete frame as a fresh one does, unless the
frame has its length in the 64-bit form and the packet holds another length.** -/
theorem observe_eq_iff (indeterminate : MaskingKey) {used : WebSocketPacket} (hused : Used used)
    (hempty : used.payload = .empty) (hsound : input.Sound)
    (hcomplete : Frame.Complete input.ahead) :
    observe (new indeterminate) input = observe used input ↔
      ¬ LongForm input.ahead ∨ used.payloadLength = 0 := by
  constructor
  · intro heq
    by_contra hnot
    rw [not_or, not_not] at hnot
    exact observe_ne_of_long indeterminate hused hnot.2 hsound hnot.1 heq
  · intro hlength
    apply observe_of_agreeAfter hsound
    apply agreeAfter_of_complete hcomplete _ hempty.symm
    exact hlength.imp_right Eq.symm

/-- A packet that has decoded a Text frame of one byte. -/
def usedPacket : WebSocketPacket :=
  { new (Vector.replicate 4 0) with fin := 1, opcode := 1, lengthType := 1, payloadLength := 1 }

theorem usedPacket_used : Used usedPacket := by
  have hrecv : recvDataframe (new (Vector.replicate 4 0)) ⟨[0x81, 0x01, 0x61], 0⟩ =
      .ok (3, { usedPacket with payload := ⟨[0x61], 0⟩ }, ⟨[0x81, 0x01, 0x61], 3⟩) := by
    decide +kernel
  exact .cleared (.received (.new (Vector.replicate 4 0)) hrecv)

theorem observe_eq_iff_hello :
    observe (new (Vector.replicate 4 7)) (cursor [0x07] [0x81, 0x01, 0x61]) =
        observe usedPacket (cursor [0x07] [0x81, 0x01, 0x61]) ↔
      ¬ LongForm (cursor [0x07] [0x81, 0x01, 0x61]).ahead ∨ usedPacket.payloadLength = 0 :=
  observe_eq_iff (Vector.replicate 4 7) usedPacket_used rfl (by decide) (by decide +kernel)

/-- An unmasked Text frame of 65536 bytes. -/
def longFrame (payload : List UInt8) : List UInt8 :=
  [0x81, 0x7F, 0, 0, 0, 0, 0, 1, 0, 0] ++ payload

theorem longFrame_observe_ne {payload : List UInt8} (hlength : payload.length = 65536) :
    (cursor [] (longFrame payload)).Sound ∧
      Frame.Complete (cursor [] (longFrame payload)).ahead ∧
      observe (new (Vector.replicate 4 0)) (cursor [] (longFrame payload)) ≠
        observe usedPacket (cursor [] (longFrame payload)) := by
  have hsmall : ([] : List UInt8).length + (longFrame payload).length < 2 ^ 31 := by
    simp [longFrame, hlength]
  have hahead := cursor_ahead hsmall
  have hsound := sound_cursor hsmall
  refine ⟨hsound, ?_, ?_⟩
  · have hmask : ¬ (127 : UInt8) >>> 7 = 1 := by decide
    rw [hahead]
    refine ⟨65546, ?_, by simp [longFrame, hlength]⟩
    simp [longFrame, Frame.declaredSize, Frame.extendedWidth, Frame.declaredLength,
      Bytes.ofBigEndian, hmask]
  · apply observe_ne_of_long (Vector.replicate 4 0) usedPacket_used (by decide) hsound
    rw [hahead]
    exact ⟨_, _, _, rfl, by decide⟩

/-- A fresh packet takes the long frame for an empty one, and the used packet
for one of a single byte. -/
theorem longFrame_observed_differently :
    Used usedPacket ∧ usedPacket.payload = .empty ∧
      (cursor [] (longFrame (List.replicate 65536 0))).Sound ∧
      Frame.Complete (cursor [] (longFrame (List.replicate 65536 0))).ahead ∧
      observe (new (Vector.replicate 4 0)) (cursor [] (longFrame (List.replicate 65536 0))) ≠
        observe usedPacket (cursor [] (longFrame (List.replicate 65536 0))) :=
  ⟨usedPacket_used, rfl, longFrame_observe_ne List.length_replicate⟩

end WebSocketPacket

end CppFragments
