import CppFragments.Net.AnyBytes
import CppFragments.WebSocket.Unambiguous

/-! # From one end to the other

What packets put into a stream, the receive loop at the other end gets out of
it. The Pongs one client writes reach another client as such, and there the
exchange ends.
-/

namespace CppFragments

open ByteBuffer WebSocketPacket LoopState Transition
open Framing (stream)

/-! ## Packets to frames -/

/-- A packet for sending whose length has the 7-bit or the 16-bit form. -/
structure ShortOutgoing extends Outgoing where
  payload_le : payload.length ≤ 65535

namespace ShortOutgoing

def shortFrame (outgoing : ShortOutgoing) : ShortFrame :=
  ⟨outgoing.frame, outgoing.payload_le⟩

/-- What a decoder is to report of the packet. The RSV bits come back as bits of
the opcode. -/
def received (outgoing : ShortOutgoing) : DecodedFrame where
  fin := outgoing.packet.fin
  opcode := (outgoing.packet.rsv1 <<< 6) ||| (outgoing.packet.rsv2 <<< 5) |||
    (outgoing.packet.rsv3 <<< 4) ||| outgoing.packet.opcode
  key? := if outgoing.packet.mask = 1 then some outgoing.packet.maskingKey else none
  payload := outgoing.payload

theorem decoded_shortFrame (outgoing : ShortOutgoing) :
    outgoing.shortFrame.decoded = outgoing.received := by
  have hholds := loaded_holds outgoing.inRange outgoing.payload
  have hfin : outgoing.packet.fin = outgoing.frame.fin.toUInt8 := hholds.fin
  have hrsv1 : outgoing.packet.rsv1 = outgoing.frame.rsv1.toUInt8 := hholds.rsv1
  have hrsv2 : outgoing.packet.rsv2 = outgoing.frame.rsv2.toUInt8 := hholds.rsv2
  have hrsv3 : outgoing.packet.rsv3 = outgoing.frame.rsv3.toUInt8 := hholds.rsv3
  have hopcode : outgoing.packet.opcode = UInt8.ofNat outgoing.frame.opcode := hholds.opcode
  rw [received, hfin, hrsv1, hrsv2, hrsv3, hopcode]
  rfl

theorem stream_shortFrame (outgoing : List ShortOutgoing) :
    stream ShortFrame.encode (outgoing.map shortFrame) =
      stream Frame.encode ((outgoing.map toOutgoing).map Outgoing.frame) := by
  rw [List.map_map, stream, stream, List.flatMap_map, List.flatMap_map]
  rfl

end ShortOutgoing

section Sent

variable {parse : List UInt8 → Option JsonValue} {moves : LoopMoves} {state : LoopState}

/-- The frames of a stream are decoded one after the other, and once nothing is left
in `recv_buf`, all of them. -/
theorem frames_of_run {frames : List ShortFrame} (hrun : Run (LoopStep parse) start moves state)
    (hseen : bytesReceived moves <+: stream ShortFrame.encode frames)
    (hsmall : ∀ move ∈ moves, move.target.recvBuf.data.length < 2 ^ 31) :
    ∃ count ≤ frames.length,
      framesDecoded moves = (frames.take count).map ShortFrame.decoded ∧
      messageCalls moves = (assemble ((frames.take count).map ShortFrame.decoded)).calls ∧
      (bytesReceived moves = stream ShortFrame.encode frames →
        (∀ fault, state.point ≠ .faulted fault) → state.recvBuf.rest = [] →
        count = frames.length) := by
  obtain ⟨taken, rest, left, hframes, htracks⟩ := tracks_run hrun hseen hsmall
  subst hframes
  refine ⟨taken.length, by simp, ?_, ?_, ?_⟩
  · rw [List.take_left, framesDecoded, htracks.exchanges, List.map_map]
    rfl
  · rw [List.take_left]
    exact htracks.calls
  · intro hall hrunning hnone
    have hleft := htracks.keeps.rest_eq (recvBuf_in_range hrun hsmall) hrunning
    have hstream := htracks.received
    rw [← hleft, hnone, List.append_nil, hall, Framing.stream_append,
      List.append_right_eq_self] at hstream
    -- A frame that was not taken would still be in the stream.
    cases rest with
    | nil => simp
    | cons frame rest => simp [stream, ShortFrame.encode, Frame.encode, Frame.header, Frame.lead]
        at hstream

/-- **The receive loop decodes the packets that were sent**, in order and field for
field, however their bytes are cut, and once nothing is left in `recv_buf`, all
of them. -/
theorem framesDecoded_of_sent {outgoing : List ShortOutgoing} {output : ByteBuffer}
    (hsend : Outgoing.sendAll (outgoing.map ShortOutgoing.toOutgoing) .empty = .ok output)
    (hrun : Run (LoopStep parse) start moves state)
    (hseen : bytesReceived moves <+: output.data)
    (hsmall : ∀ move ∈ moves, move.target.recvBuf.data.length < 2 ^ 31) :
    ∃ count ≤ outgoing.length,
      framesDecoded moves = (outgoing.take count).map ShortOutgoing.received ∧
      messageCalls moves = (assemble ((outgoing.take count).map ShortOutgoing.received)).calls ∧
      (bytesReceived moves = output.data → (∀ fault, state.point ≠ .faulted fault) →
        state.recvBuf.rest = [] → count = outgoing.length) := by
  have houtput : output.data =
      stream ShortFrame.encode (outgoing.map ShortOutgoing.shortFrame) := by
    rw [Outgoing.sendAll_eq, Except.ok.injEq] at hsend
    rw [← hsend, ShortOutgoing.stream_shortFrame]
    rfl
  rw [houtput] at hseen
  obtain ⟨count, hcount, hdecoded, hcalls, hall⟩ := frames_of_run hrun hseen hsmall
  rw [List.length_map] at hcount hall
  have hreceived : ((outgoing.map ShortOutgoing.shortFrame).take count).map ShortFrame.decoded =
      (outgoing.take count).map ShortOutgoing.received := by
    rw [← List.map_take, List.map_map]
    exact List.map_congr_left fun packet _ => packet.decoded_shortFrame
  rw [hreceived] at hdecoded hcalls
  rw [houtput]
  exact ⟨count, hcount, hdecoded, hcalls, hall⟩

/-- A Binary frame of three bytes, masked. -/
def outgoingBinary : ShortOutgoing where
  packet := binaryPacket
  payload := [0x61, 0x62, 0x63]
  inRange := by constructor <;> decide
  empty := rfl
  payload_lt := by decide
  payload_le := by decide

/-- Its nine bytes, received in two reads. -/
def binaryRun : LoopMoves × LoopState :=
  play [.enter, .sslRead [0x82, 0x83, 7, 5] 0, .enter, .sslRead [3, 1, 0x66, 0x67, 0x60] 0, .parse]

theorem framesDecoded_of_sent_binaryRun :
    ∃ count ≤ [outgoingBinary].length,
      framesDecoded binaryRun.1 = ([outgoingBinary].take count).map ShortOutgoing.received ∧
      messageCalls binaryRun.1 =
        (assemble (([outgoingBinary].take count).map ShortOutgoing.received)).calls ∧
      (bytesReceived binaryRun.1 = [0x82, 0x83, 7, 5, 3, 1, 0x66, 0x67, 0x60] →
        (∀ fault, binaryRun.2.point ≠ .faulted fault) →
        binaryRun.2.recvBuf.rest = [] → count = [outgoingBinary].length) :=
  framesDecoded_of_sent
    (by decide +kernel : Outgoing.sendAll ([outgoingBinary].map ShortOutgoing.toOutgoing) .empty =
      .ok ⟨[0x82, 0x83, 7, 5, 3, 1, 0x66, 0x67, 0x60], 0⟩) (play_run _)
    (by decide +kernel) (by decide +kernel)

end Sent

/-! ## Pongs -/

/-- What a client has written, as one byte string. -/
def written (moves : LoopMoves) : List UInt8 :=
  (exchanges moves).flatMap fun exchange => exchange.2.flatten

/-- The frame is answered. -/
def DecodedFrame.IsPing (frame : DecodedFrame) : Prop :=
  frame.fin = 1 ∧ frame.opcode = WSOpcode.Ping.code

instance (frame : DecodedFrame) : Decidable frame.IsPing :=
  inferInstanceAs (Decidable (frame.fin = 1 ∧ frame.opcode = WSOpcode.Ping.code))

/-- What the other end reports of the answer. -/
def DecodedFrame.answered (frame : DecodedFrame) : DecodedFrame :=
  { frame with fin := 1, opcode := WSOpcode.Pong.code }

theorem replies_of_isPing {frame : DecodedFrame} (hping : frame.IsPing) :
    frame.replies = [frame.pong.encode] := by
  rw [DecodedFrame.replies, if_pos hping.1, DecodedFrame.answers, if_pos hping.2]

theorem replies_of_not_isPing {frame : DecodedFrame} (hping : ¬ frame.IsPing) :
    frame.replies = [] := by
  unfold DecodedFrame.replies DecodedFrame.answers
  split
  next hfin => rw [if_neg fun hopcode => hping ⟨hfin, hopcode⟩]
  · rfl

/-- The answers to those of the frames that are answered. -/
def pongs (frames : List DecodedFrame) : List UInt8 :=
  (frames.filter (·.IsPing)).flatMap fun frame => frame.pong.encode

theorem flatMap_replies (frames : List DecodedFrame) :
    frames.flatMap (fun frame => frame.replies.flatten) = pongs frames := by
  unfold pongs
  induction frames with
  | nil => rfl
  | cons frame frames ih =>
      rw [List.flatMap_cons, ih]
      by_cases hping : frame.IsPing
      · rw [List.filter_cons_of_pos (by simpa using hping), replies_of_isPing hping]
        simp
      · rw [List.filter_cons_of_neg (by simpa using hping), replies_of_not_isPing hping]
        rfl

theorem replies_answered (frame : DecodedFrame) : frame.answered.replies = [] := by
  have hne : WSOpcode.Pong.code ≠ WSOpcode.Ping.code := by decide
  exact replies_of_not_isPing fun hping => hne hping.2

theorem decoded_pong {frame : DecodedFrame} (hle : frame.payload.length ≤ 65535) :
    (⟨frame.pong, hle⟩ : ShortFrame).decoded = frame.answered := by
  have hopcode : (frame.pong).opcodeField = WSOpcode.Pong.code :=
    (by decide : (false.toUInt8 <<< 6) ||| (false.toUInt8 <<< 5) ||| (false.toUInt8 <<< 4) |||
      UInt8.ofNat WSOpcode.Pong.number = WSOpcode.Pong.code)
  simp only [ShortFrame.decoded, hopcode]
  rfl

/-- The answers to a list of frames are themselves a stream of frames. -/
theorem exists_pongs {frames : List DecodedFrame}
    (hle : ∀ frame ∈ frames, frame.payload.length ≤ 65535) :
    ∃ pongs : List ShortFrame,
      stream ShortFrame.encode pongs = CppFragments.pongs frames ∧
      pongs.map ShortFrame.decoded =
        (frames.filter (·.IsPing)).map DecodedFrame.answered := by
  simp only [← flatMap_replies]
  induction frames with
  | nil => exact ⟨[], rfl, rfl⟩
  | cons frame frames ih =>
      obtain ⟨pongs, hstream, hdecoded⟩ := ih fun later hmem => hle later (.tail _ hmem)
      by_cases hping : frame.IsPing
      · have hframe := hle frame List.mem_cons_self
        refine ⟨⟨frame.pong, hframe⟩ :: pongs, ?_, ?_⟩
        · rw [List.flatMap_cons, replies_of_isPing hping, ← hstream]
          simp [stream, ShortFrame.encode]
        · rw [List.filter_cons_of_pos (by simpa using hping), List.map_cons, List.map_cons,
            hdecoded, decoded_pong]
      · refine ⟨pongs, ?_, ?_⟩
        · rw [List.flatMap_cons, replies_of_not_isPing hping, ← hstream]
          rfl
        · rw [List.filter_cons_of_neg (by simpa using hping), hdecoded]

section Pongs

variable {parse parse' : List UInt8 → Option JsonValue} {moves moves' : LoopMoves}
variable {state state' : LoopState}

/-- What a run has written. -/
theorem written_eq (hrun : Run (LoopStep parse) start moves state) :
    written moves = pongs (framesDecoded moves) := by
  rw [written, exchanges_eq_replies hrun, List.flatMap_map, flatMap_replies]

theorem payload_le_of_run (hrun : Run (LoopStep parse) start moves state)
    (hsmall : ∀ move ∈ moves, move.target.recvBuf.data.length < 2 ^ 31) :
    ∀ frame ∈ framesDecoded moves, frame.payload.length ≤ 65535 := by
  obtain ⟨pieces, haccounts⟩ := accounts_of_run hrun hsmall
  have hspelled := haccounts.spelled
  clear haccounts
  generalize framesDecoded moves = frames at hspelled
  induction hspelled with
  | nil => simp
  | cons hspells _ ih => exact List.forall_mem_cons.mpr ⟨hspells.payload_le, ih⟩

/-- **Answers are not answered.** Whatever bytes one client is sent, another one that
receives what it has written decodes the Pongs for its Pings, in order, with
their keys and payloads, and writes nothing. -/
theorem exchanges_of_written (hrun : Run (LoopStep parse) start moves state)
    (hsmall : ∀ move ∈ moves, move.target.recvBuf.data.length < 2 ^ 31)
    (hrun' : Run (LoopStep parse') start moves' state')
    (hsmall' : ∀ move ∈ moves', move.target.recvBuf.data.length < 2 ^ 31)
    (hseen : bytesReceived moves' <+: written moves) :
    written moves' = [] ∧
      framesDecoded moves' <+:
        ((framesDecoded moves).filter (·.IsPing)).map DecodedFrame.answered := by
  obtain ⟨pongs, hstream, hdecoded⟩ := exists_pongs (payload_le_of_run hrun hsmall)
  have hwritten : written moves = stream ShortFrame.encode pongs :=
    (written_eq hrun).trans hstream.symm
  rw [hwritten] at hseen
  obtain ⟨taken, rest, left, hframes, htracks⟩ := tracks_run hrun' hseen hsmall'
  have htaken : taken.map ShortFrame.decoded <+:
      ((framesDecoded moves).filter (·.IsPing)).map DecodedFrame.answered := by
    rw [← hdecoded, ← hframes, List.map_append]
    exact List.prefix_append _ _
  constructor
  · rw [written, htracks.exchanges, List.flatMap_map, List.flatMap_eq_nil_iff]
    intro frame hmem
    have hpong := htaken.subset (List.mem_map_of_mem hmem)
    obtain ⟨ping, _, hping⟩ := List.mem_map.mp hpong
    dsimp only
    rw [← hping, replies_answered]
    rfl
  · rw [framesDecoded, htracks.exchanges, List.map_map]
    exact htaken

/-- The answer to the Ping of `pingRun`, received by another client. -/
def pongRun : LoopMoves × LoopState :=
  play [.enter, .sslRead [0x8A, 0x82, 1, 2, 3, 4, 0x69, 0x6B] 0, .parse]

theorem exchanges_of_written_pongRun :
    written pongRun.1 = [] ∧
      framesDecoded pongRun.1 <+:
        ((framesDecoded pingRun.1).filter (·.IsPing)).map DecodedFrame.answered :=
  exchanges_of_written (play_run _) (by decide +kernel) (play_run _) (by decide +kernel)
    (by decide +kernel)

end Pongs

end CppFragments
