import CppFragments.Bytes.Framing
import CppFragments.WebSocket.Pack

/-! # What was packed can be told from the bytes

The wire format is prefix-free, so the bytes that `pack_dataframe` writes for a
sequence of packets determine the header fields and the payload of each.
-/

namespace CppFragments

open Outcome ByteBuffer WebSocketPacket
open Framing (stream PrefixFree)

namespace Frame

/-! ## The fields of a frame in its bytes -/

/-- Each field has bits of its own in the first byte. -/
theorem firstByte_bits (fin rsv1 rsv2 rsv3 : Bool) (opcode : Fin 16) :
    let byte := (fin.toUInt8 <<< 7) ||| (rsv1.toUInt8 <<< 6) ||| (rsv2.toUInt8 <<< 5) |||
      (rsv3.toUInt8 <<< 4) ||| UInt8.ofNat opcode
    (byte &&& 0x80 ≠ 0 ↔ fin = true) ∧ (byte &&& 0x40 ≠ 0 ↔ rsv1 = true) ∧
      (byte &&& 0x20 ≠ 0 ↔ rsv2 = true) ∧ (byte &&& 0x10 ≠ 0 ↔ rsv3 = true) ∧
      opcodeOf byte = opcode := by
  revert fin rsv1 rsv2 rsv3 opcode
  decide

variable {first second : Frame}

theorem fields_of_firstByte (hbyte : first.firstByte = second.firstByte) :
    first.fin = second.fin ∧ first.rsv1 = second.rsv1 ∧ first.rsv2 = second.rsv2 ∧
      first.rsv3 = second.rsv3 ∧ first.opcode = second.opcode := by
  have hfirst := firstByte_bits first.fin first.rsv1 first.rsv2 first.rsv3 first.opcode
  have hsecond := firstByte_bits second.fin second.rsv1 second.rsv2 second.rsv3 second.opcode
  simp only [firstByte] at hbyte
  simp only [hbyte] at hfirst
  refine ⟨?_, ?_, ?_, ?_, ?_⟩
  · exact Bool.eq_iff_iff.mpr (hfirst.1.symm.trans hsecond.1)
  · exact Bool.eq_iff_iff.mpr (hfirst.2.1.symm.trans hsecond.2.1)
  · exact Bool.eq_iff_iff.mpr (hfirst.2.2.1.symm.trans hsecond.2.2.1)
  · exact Bool.eq_iff_iff.mpr (hfirst.2.2.2.1.symm.trans hsecond.2.2.2.1)
  · exact hfirst.2.2.2.2.symm.trans hsecond.2.2.2.2

theorem isSome_of_secondByte (hbyte : first.secondByte = second.secondByte) :
    first.key?.isSome = second.key?.isSome := by
  have hmask : first.key?.isSome.toUInt8 = second.key?.isSome.toUInt8 := by
    rw [← secondByte_mask, ← secondByte_mask, hbyte]
  revert hmask
  cases first.key?.isSome <;> cases second.key?.isSome <;> decide

theorem length_of_secondByte (hbyte : first.secondByte = second.secondByte) :
    (lengthBytes first.payload.length).length = (lengthBytes second.payload.length).length := by
  rw [length_lengthBytes, length_lengthBytes, ← secondByte_code, ← secondByte_code, hbyte]

theorem eq_of_keyBytes {key? key?' : Option MaskingKey} (hmasked : key?.isSome = key?'.isSome)
    (hbytes : keyBytes key? = keyBytes key?') : key? = key?' := by
  cases key? with
  | none =>
      cases key?' with
      | none => rfl
      | some key' => cases hmasked
  | some key =>
      cases key?' with
      | none => cases hmasked
      | some key' => rw [Vector.toList_inj.mp hbytes]

/-- A frame can be read back from its bytes. -/
theorem encode_injective (hfirst : first.payload.length < 2 ^ 64)
    (hsecond : second.payload.length < 2 ^ 64) (hsame : first.encode = second.encode) :
    first = second := by
  simp only [encode, header, lead, List.cons_append, List.append_assoc, List.cons.injEq] at hsame
  obtain ⟨hlead, hbyte, hrest⟩ := hsame
  obtain ⟨hfin, hrsv1, hrsv2, hrsv3, hopcode⟩ := fields_of_firstByte hlead
  have hmasked := isSome_of_secondByte hbyte
  obtain ⟨hlength, hrest⟩ := List.append_inj hrest (length_of_secondByte hbyte)
  have hkeyLength : (keyBytes first.key?).length = (keyBytes second.key?).length := by
    rw [length_keyBytes, length_keyBytes, hmasked]
  obtain ⟨hkeyBytes, hbody⟩ := List.append_inj hrest hkeyLength
  have hkey := eq_of_keyBytes hmasked hkeyBytes
  have hpayload : first.payload = second.payload := by
    unfold body at hbody
    rw [hkey] at hbody
    cases htwo : second.key? with
    | none => simpa only [htwo] using hbody
    | some key =>
        rw [htwo] at hbody
        have hunmasked := congrArg (Bytes.xorFrom key.byteAt 0) hbody
        simpa only [Bytes.xorFrom_xorFrom] using hunmasked
  cases first
  cases second
  simp_all

/-- The frames whose length the format has a form for. -/
abbrev Sized := { frame : Frame // frame.payload.length < 2 ^ 64 }

/-- **No frame's bytes are the beginning of another's.** -/
theorem prefixFree_encode : PrefixFree fun frame : Sized => frame.val.encode where
  ne_nil := by
    intro frame hnil
    simp [encode, header, lead] at hnil
  eq_of_prefix := by
    intro first second hbegins
    obtain ⟨later, heq⟩ := hbegins
    -- Both declare the size they have.
    have hfirst := first.val.declaredSize_encode first.property later
    have hsecond := second.val.declaredSize_encode second.property []
    rw [heq] at hfirst
    rw [List.append_nil, hfirst, Option.some.injEq] at hsecond
    have hlater : later = [] := by
      have hlength := congrArg List.length heq
      rw [List.length_append] at hlength
      exact List.length_eq_zero_iff.mp (by omega)
    rw [hlater, List.append_nil] at heq
    exact Subtype.ext (encode_injective first.property second.property heq)

end Frame

/-! ## Sequences of packets -/

/-- A packet set up for sending: its header fields, and the payload that is to be
installed in its empty payload buffer. -/
structure Outgoing where
  packet : WebSocketPacket
  payload : List UInt8
  inRange : packet.HeaderInRange
  empty : packet.payload = .empty
  payload_lt : payload.length < 2 ^ 31

namespace Outgoing

def frame (outgoing : Outgoing) : Frame :=
  outgoing.packet.frameOf outgoing.payload

/-- Install the payload and pack the packet behind the earlier output. -/
def send (outgoing : Outgoing) (output : ByteBuffer) : Except Fault ByteBuffer := do
  let packet ← outgoing.packet.setPayload outgoing.payload (UInt64.ofNat outgoing.payload.length)
  let (_, _, output) ← packet.packDataframe output
  return output

/-- Send one packet after another through the same buffer. -/
def sendAll (outgoing : List Outgoing) (output : ByteBuffer) : Except Fault ByteBuffer :=
  outgoing.foldlM (fun output packet => packet.send output) output

theorem send_eq (outgoing : Outgoing) (output : ByteBuffer) :
    outgoing.send output =
      .ok { output with data := output.data ++ outgoing.frame.encode } := by
  unfold send
  rw [setPayload_empty outgoing.empty outgoing.payload_lt]
  simp only [ok_bind]
  rw [packDataframe_holds (loaded_holds outgoing.inRange outgoing.payload) outgoing.payload_lt]
  rfl

/-- **The output is the stream of the frames sent**, whatever was in it before. -/
theorem sendAll_eq (outgoing : List Outgoing) (output : ByteBuffer) :
    sendAll outgoing output =
      .ok { output with data := output.data ++ stream Frame.encode (outgoing.map frame) } := by
  induction outgoing generalizing output with
  | nil => simp [sendAll, stream]
  | cons packet outgoing ih =>
      have hrest := ih { output with data := output.data ++ packet.frame.encode }
      rw [sendAll, List.foldlM_cons, send_eq, ok_bind]
      rw [sendAll] at hrest
      rw [hrest]
      simp [stream]

def sized (outgoing : Outgoing) : Frame.Sized :=
  ⟨outgoing.frame, Nat.lt_trans outgoing.payload_lt (by decide)⟩

theorem stream_sized (outgoing : List Outgoing) :
    stream (fun frame : Frame.Sized => frame.val.encode) (outgoing.map sized) =
      stream Frame.encode (outgoing.map frame) := by
  rw [stream, stream, List.flatMap_map, List.flatMap_map]
  rfl

/-- **Packed packets can be told apart.** One output is the beginning of another
exactly if the packets sent are the first of the other's, field for field. -/
theorem sendAll_prefix_iff (first second : List Outgoing) :
    ∃ output output', sendAll first .empty = .ok output ∧ sendAll second .empty = .ok output' ∧
      (output.data <+: output'.data ↔ first.map frame <+: second.map frame) := by
  refine ⟨_, _, sendAll_eq first .empty, sendAll_eq second .empty, ?_⟩
  simp only [ByteBuffer.empty, List.nil_append]
  constructor
  · intro hbegins
    rw [← stream_sized, ← stream_sized] at hbegins
    have hsized := (Frame.prefixFree_encode.stream_prefix_iff.mp hbegins).map Subtype.val
    rw [List.map_map, List.map_map] at hsized
    exact hsized
  · intro hbegins
    obtain ⟨later, hlater⟩ := hbegins
    rw [← hlater, Framing.stream_append]
    exact List.prefix_append _ _

end Outgoing

end CppFragments
