import CppFragments.Net.ReceiveRun

/-! # Answers to Pings

What the loop writes depends only on the frame it has just decoded, whatever is
in the buffers and whatever the packet was used for before.
-/

namespace CppFragments

open Outcome ByteBuffer WebSocketPacket LoopState Transition
open Framing (stream)

namespace LoopEvent

/-- What is done at this step is what the frame decoded at it asks for. -/
structure Answered (event : LoopEvent) : Prop where
  replies : ∀ exchange ∈ event.exchanges, exchange.2 = exchange.1.replies
  texts : event.texts = event.calls.flatMap MessageCall.texts

theorem answered_of_quiet {event : LoopEvent} (hquiet : event.exchanges = []) :
    event.Answered := by
  refine ⟨by simp [hquiet], ?_⟩
  cases event with
  | message => cases hquiet
  | _ => rfl

theorem answered_message {packet : WebSocketPacket} {msgBuf : ByteBuffer}
    {writes : List (List UInt8)} (hwrites : writes = packet.decoded.replies) :
    (message packet msgBuf writes (packet.decoded.texts msgBuf.data)).Answered :=
  ⟨by simp [exchanges, hwrites], by simp [texts, calls, MessageCall.texts]⟩

theorem answered_frame {packet : WebSocketPacket} (hreplies : packet.decoded.replies = []) :
    (frame packet).Answered :=
  ⟨by simp [exchanges, hreplies], rfl⟩

end LoopEvent

/-- A packet about to decode is fit for it. -/
def LoopState.PacketReady (state : LoopState) : Prop :=
  ∀ packet, state.point = .parsing packet → packet.Ready

section Step

variable {parse : List UInt8 → Option JsonValue} {packet : WebSocketPacket}

theorem packetReady_afterFrame (hready : packet.cleared.Ready) (recvBuf msgBuf : ByteBuffer) :
    (afterFrame packet recvBuf msgBuf).PacketReady := by
  intro packet' hpoint
  unfold afterFrame at hpoint
  split at hpoint
  · cases hpoint
  · rw [← LoopPoint.parsing.inj hpoint]
    exact hready

theorem packetReady_endReads (recvStartLen totalRecvLen : Int) (indeterminate : MaskingKey)
    (recvBuf msgBuf : ByteBuffer) :
    (endReads recvStartLen totalRecvLen indeterminate recvBuf msgBuf).PacketReady := by
  intro packet' hpoint
  unfold endReads at hpoint
  split at hpoint
  · cases hpoint
  · split at hpoint
    · rw [← LoopPoint.parsing.inj hpoint]
      exact ready_new indeterminate
    · cases hpoint

theorem decodeFrame_ensures (hready : packet.Ready) (recvBuf msgBuf : ByteBuffer) :
    Ensures (fun result => ∀ decoded ∈ result.1, decoded.1.Parsed)
      (decodeFrame packet recvBuf msgBuf) := by
  unfold decodeFrame
  refine (recvDataframe_ensures hready recvBuf).bind ?_
  rintro ⟨offset, packet', recvBuf'⟩ hparsed
  dsimp only
  split
  · simp
  next hoffset =>
    have hne : offset ≠ 0 := by
      rintro rfl
      exact hoffset rfl
    refine (ensures_true _).bind fun msgBuf' _ => ?_
    simpa using hparsed hne

/-- **Each pass answers the frame it decodes.** -/
theorem parseOnce_answered (sslWrite : List UInt8 → Int) (hready : packet.Ready)
    (recvBuf msgBuf : ByteBuffer) :
    (parseOnce parse sslWrite packet recvBuf msgBuf).1.Answered ∧
      (parseOnce parse sslWrite packet recvBuf msgBuf).2.PacketReady := by
  have hensures := decodeFrame_ensures hready recvBuf msgBuf
  rw [parseOnce]
  cases hdecode : decodeFrame packet recvBuf msgBuf with
  | error fault =>
      exact ⟨LoopEvent.answered_of_quiet rfl, fun _ hpoint => by cases hpoint⟩
  | ok result =>
      rcases result with ⟨_ | ⟨packet', msgBuf'⟩, recvBuf'⟩
      · exact ⟨LoopEvent.answered_of_quiet rfl, fun _ hpoint => by cases hpoint⟩
      have hparsed : packet'.Parsed := hensures _ hdecode _ rfl
      rw [afterDecode]
      by_cases hfin : packet'.fin = 1
      · have hreplies : packet'.decoded.replies = packet'.decoded.answers := if_pos hfin
        rw [if_pos hfin]
        rcases processOneMessage_parsed parse sslWrite hparsed msgBuf' with
          ⟨result, last, hok, hlast⟩ | ⟨fault, herror, _, hnone⟩
        · rw [hok, afterMessage]
          dsimp only
          exact ⟨LoopEvent.answered_message hreplies.symm, packetReady_afterFrame hlast _ _⟩
        · rw [herror, afterMessage]
          exact ⟨LoopEvent.answered_message (hnone.symm.trans hreplies.symm),
            fun _ hpoint => by cases hpoint⟩
      · have hreplies : packet'.decoded.replies = [] := if_neg hfin
        rw [if_neg hfin]
        dsimp only
        exact ⟨LoopEvent.answered_frame hreplies, packetReady_afterFrame hparsed.cleared _ _⟩

theorem answered_step {source target : LoopState} {event : LoopEvent}
    (hready : source.PacketReady) (hstep : LoopStep parse source event target) :
    event.Answered ∧ target.PacketReady := by
  cases hstep with
  | sslRead recvStartLen totalRecvLen recvBuf msgBuf bytes pending indeterminate =>
      refine ⟨LoopEvent.answered_of_quiet rfl, ?_⟩
      unfold readChunk
      rw [append_all recvBuf bytes rfl]
      dsimp only
      split
      · exact fun _ hpoint => by cases hpoint
      · exact packetReady_endReads _ _ indeterminate _ _
  | closed recvStartLen totalRecvLen recvBuf msgBuf indeterminate =>
      exact ⟨LoopEvent.answered_of_quiet rfl, packetReady_endReads _ _ indeterminate _ _⟩
  | parse sslWrite packet recvBuf msgBuf =>
      exact parseOnce_answered sslWrite (hready packet rfl) recvBuf msgBuf
  | _ => exact ⟨LoopEvent.answered_of_quiet rfl, fun _ hpoint => by cases hpoint⟩

end Step

section Run

variable {parse : List UInt8 → Option JsonValue} {moves : LoopMoves} {state : LoopState}

theorem packetReady_of_run (hrun : Run (LoopStep parse) start moves state) : state.PacketReady :=
  hrun.reachable.invariant (fun _ hpoint => by cases hpoint)
    fun _ _ _ hready hstep => (answered_step hready hstep).2

/-- Every step of a run does what the frame decoded at it asks for. -/
theorem answered_of_run (hrun : Run (LoopStep parse) start moves state) :
    ∀ event ∈ labels moves, event.Answered := by
  refine hrun.induction_on (motive := fun moves _ => ∀ event ∈ labels moves, event.Answered)
    (by simp) fun moves source event target hprior ih hstep => ?_
  rw [labels_append, labels_singleton, List.forall_mem_append, List.forall_mem_singleton]
  exact ⟨ih, (answered_step (packetReady_of_run hprior) hstep).1⟩

/-- What a run has written are the replies to the frames it has decoded. -/
theorem exchanges_eq_replies (hrun : Run (LoopStep parse) start moves state) :
    exchanges moves = (framesDecoded moves).map fun frame => (frame, frame.replies) := by
  rw [framesDecoded, List.map_map]
  refine (List.map_id _).symm.trans (List.map_congr_left fun exchange hmem => ?_)
  obtain ⟨event, hevent, hexchange⟩ := List.mem_flatMap.mp hmem
  exact Prod.ext rfl ((answered_of_run hrun event hevent).replies exchange hexchange)

/-- The Text branch has been executed for the calls on a Text frame. -/
theorem textExecutions_eq_texts (hrun : Run (LoopStep parse) start moves state) :
    textExecutions moves = (messageCalls moves).flatMap MessageCall.texts := by
  rw [textExecutions, messageCalls, List.flatMap_assoc]
  exact List.flatMap_congr fun event hevent => (answered_of_run hrun event hevent).texts

/-- The Pong that answers a Ping, with the key and the payload of the Ping. -/
def PlainFrame.pong (frame : PlainFrame) : PlainFrame :=
  { frame with fin := true, opcode := WSOpcode.Pong.number }

theorem PlainFrame.replies_decoded (frame : PlainFrame) :
    frame.decoded.replies = if frame.fin ∧ frame.opcode = WSOpcode.Ping.number then
      [frame.pong.encode] else [] := by
  simp only [DecodedFrame.replies, DecodedFrame.answers, frame.decoded_fin, frame.decoded_opcode]
  by_cases hlast : frame.fin = true
  · rw [if_pos hlast]
    simp only [hlast, true_and]
    rfl
  · rw [if_neg hlast, if_neg (by simp [hlast])]

/-- **Every Ping with FIN that is decoded is answered by one Pong**, with the
Ping's key and payload, and nothing else is ever written. The frames decoded
are the first ones of the stream. -/
theorem exchanges_eq_pongs {frames : List PlainFrame}
    (hrun : Run (LoopStep parse) start moves state) :
    exchanges moves = ((framesDecoded moves).map fun frame =>
        (frame, if frame.fin = 1 ∧ frame.opcode = WSOpcode.Ping.code then
          [frame.pong.encode] else [])) ∧
      (bytesReceived moves <+: stream PlainFrame.encode frames →
        (∀ move ∈ moves, move.target.recvBuf.data.length < 2 ^ 31) →
        ∃ count ≤ frames.length,
          exchanges moves = (frames.take count).map fun frame =>
            (frame.decoded, if frame.fin ∧ frame.opcode = WSOpcode.Ping.number then
              [frame.pong.encode] else [])) := by
  constructor
  · rw [exchanges_eq_replies hrun]
    simp only [DecodedFrame.replies, DecodedFrame.answers, ite_and]
  · intro hseen hsmall
    obtain ⟨count, left, hcount, htracks⟩ := tracks_run_plain hrun hseen hsmall
    refine ⟨count, hcount, ?_⟩
    rw [htracks.exchanges, List.map_map]
    apply List.map_congr_left
    intro frame _
    simp only [Function.comp_apply, frame.decoded_toShortFrame, frame.replies_decoded]

theorem exchanges_eq_pongs_pingRun :
    exchanges pingRun.1 = ((framesDecoded pingRun.1).map fun frame =>
        (frame, if frame.fin = 1 ∧ frame.opcode = WSOpcode.Ping.code then
          [frame.pong.encode] else [])) ∧
      ∃ count ≤ [pingFrame].length,
        exchanges pingRun.1 = ([pingFrame].take count).map fun frame =>
          (frame.decoded, if frame.fin ∧ frame.opcode = WSOpcode.Ping.number then
            [frame.pong.encode] else []) := by
  obtain ⟨hpongs, hstream⟩ := exchanges_eq_pongs (play_run _)
  exact ⟨hpongs, hstream (by decide +kernel) (by decide +kernel)⟩

end Run

end CppFragments
