import CppFragments.Net.Answers
import CppFragments.Net.Waiting
import CppFragments.WebSocket.Message

/-! # Reassembly of fragmented messages

`process_one_message` goes by the opcode of the last frame alone, and every
final frame empties `msg_buf`, a control frame too. So the Text branch runs for
the Text messages sent as one frame, as soon as the parse loop comes to it, and for
no other.
-/

namespace CppFragments

open ByteBuffer WebSocketPacket LoopState Transition
open Framing (stream arrived)

/-! ## What the Text branch is given -/

/-- The messages given to the Text branch in the calls made. -/
def Assembly.texts (assembly : Assembly) : List (List UInt8) :=
  assembly.calls.flatMap MessageCall.texts

/-- A Text frame with FIN. -/
def PlainFrame.IsWholeText (frame : PlainFrame) : Prop :=
  frame.fin = true ∧ frame.opcode = WSOpcode.Text.number

theorem PlainFrame.texts_decoded (frame : PlainFrame) (message : List UInt8) :
    frame.decoded.texts message =
      if frame.opcode = WSOpcode.Text.number then [message] else [] := by
  have htext := frame.decoded_opcode .Text
  simp only [DecodedFrame.texts, htext]

theorem Assembly.texts_add_of_fin (assembly : Assembly) {frame : PlainFrame}
    (hfin : frame.fin = true) :
    (assembly.add frame.decoded).texts =
      assembly.texts ++ frame.decoded.texts (assembly.message ++ frame.payload) := by
  rw [assembly.add_of_fin (frame.decoded_fin.mpr hfin), Assembly.texts, List.flatMap_append,
    List.flatMap_singleton]
  rfl

theorem Assembly.texts_add_of_not_fin (assembly : Assembly) {frame : PlainFrame}
    (hfin : ¬ frame.fin = true) : (assembly.add frame.decoded).texts = assembly.texts := by
  rw [assembly.add_of_not_fin (frame.decoded_fin.not.mpr hfin)]
  rfl

/-- More frames give more to the Text branch exactly if there is a Text frame with FIN
among them. -/
theorem exists_texts_append (first second : List PlainFrame) :
    ∃ more, (assemble ((first ++ second).map PlainFrame.decoded)).texts =
        (assemble (first.map PlainFrame.decoded)).texts ++ more ∧
      (more = [] ↔ ∀ frame ∈ second, ¬ frame.IsWholeText) := by
  induction second using List.reverseRecOn with
  | nil => exact ⟨[], by simp, by simp⟩
  | append_singleton second frame ih =>
      obtain ⟨more, htexts, hnone⟩ := ih
      rw [← List.append_assoc, List.map_append, List.map_singleton, assemble_snoc]
      by_cases hfin : frame.fin = true
      · rw [Assembly.texts_add_of_fin _ hfin, htexts, List.append_assoc, frame.texts_decoded]
        refine ⟨_, rfl, ?_⟩
        rw [List.append_eq_nil_iff, hnone, List.forall_mem_append, List.forall_mem_singleton]
        simp [PlainFrame.IsWholeText, hfin]
      · rw [Assembly.texts_add_of_not_fin _ hfin]
        refine ⟨more, htexts, ?_⟩
        rw [hnone, List.forall_mem_append, List.forall_mem_singleton]
        simp [PlainFrame.IsWholeText, hfin]

/-! ## What it is given of a legal sequence -/

/-- A message that came in one frame. -/
def Message.Single (message : Message) : Prop :=
  message.fragments.length = 1

instance (message : Message) : Decidable message.Single :=
  inferInstanceAs (Decidable (_ = _))

/-- What the loop has collected and handed over, beside the messages sent. -/
structure Reassembles (assembly : Assembly) (conversation : Conversation) : Prop where
  /-- Nothing is collected between two messages. -/
  between : conversation.current = none → assembly.message = []
  started : ∀ message, conversation.current = some message → message.fragments ≠ []
  texts : assembly.texts =
    ((conversation.complete.filter (·.opcode = WSOpcode.Text.number)).filter (·.Single)).map
      Message.payload

theorem Reassembles.add {assembly : Assembly} {conversation : Conversation}
    (hrel : Reassembles assembly conversation) {frame : PlainFrame}
    (haccepts : conversation.Accepts frame) :
    Reassembles (assembly.add frame.decoded) (conversation.add frame) := by
  have hfin := frame.decoded_fin
  unfold Conversation.Accepts at haccepts
  by_cases hcontrol : frame.IsControl
  · -- A control frame hands over what is collected so far, but not as Text.
    rw [if_pos hcontrol] at haccepts
    have hnotText : frame.opcode ≠ WSOpcode.Text.number := by
      rcases hcontrol with h | h | h <;> rw [h] <;> decide
    rw [Conversation.add, if_pos hcontrol]
    refine ⟨fun _ => ?_, hrel.started, ?_⟩
    · rw [assembly.add_of_fin (hfin.mpr haccepts.1)]
    · rw [assembly.texts_add_of_fin haccepts.1, frame.texts_decoded, if_neg hnotText,
        List.append_nil]
      exact hrel.texts
  · rw [if_neg hcontrol] at haccepts
    rw [Conversation.add, if_neg hcontrol]
    by_cases hlast : frame.fin = true
    · rw [if_pos hlast]
      refine ⟨fun _ => ?_, by simp, ?_⟩
      · rw [assembly.add_of_fin (hfin.mpr hlast)]
      rw [assembly.texts_add_of_fin hlast, frame.texts_decoded, hrel.texts]
      cases hcurrent : conversation.current with
      | none =>
          -- The frame is a message of its own.
          have hempty := hrel.between hcurrent
          by_cases hopcode : frame.opcode = WSOpcode.Text.number
          · simp [hopcode, Conversation.extend, hcurrent, Message.Single, hempty,
              Message.payload]
          · simp [hopcode, Conversation.extend, hcurrent]
      | some message =>
          -- The last fragment is no Text frame, whatever the message is.
          have hopcode : frame.opcode = WSOpcode.Continue.number := by
            simpa [hcurrent] using haccepts
          have hstarted := hrel.started message hcurrent
          simp [hopcode, Conversation.extend, hcurrent, Message.Single, hstarted]
    · rw [if_neg hlast]
      refine ⟨by simp, ?_, (assembly.texts_add_of_not_fin hlast).trans hrel.texts⟩
      intro message hmessage
      obtain rfl := Option.some.inj hmessage
      unfold Conversation.extend
      split <;> simp

/-- On a legal sequence of frames, the collecting and the messages agree. -/
theorem reassembles_of_legal {frames : List PlainFrame} (hlegal : Legal frames) :
    Reassembles (assemble (frames.map PlainFrame.decoded)) (converse frames) := by
  induction hlegal with
  | nil => exact ⟨fun _ => rfl, by simp, rfl⟩
  | snoc _ haccepts ih =>
      rw [List.map_append, List.map_singleton, assemble_snoc, converse_snoc]
      exact ih.add haccepts

/-- All Text messages came in one frame. -/
def SingleTexts (frames : List PlainFrame) : Prop :=
  ∀ message ∈ (converse frames).complete,
    message.opcode = WSOpcode.Text.number → message.Single

theorem SingleTexts.of_longer {frames frames' : List PlainFrame} (hsingle : SingleTexts frames')
    (hbegins : frames <+: frames') : SingleTexts frames :=
  fun message hmem => hsingle message ((complete_converse_mono hbegins).subset hmem)

/-- The first frames have given the Text branch the messages of all of them exactly if
these are single and no frame to come is one. -/
theorem texts_eq_iff {taken waiting : List PlainFrame} (hlegal : Legal (taken ++ waiting)) :
    (assemble (taken.map PlainFrame.decoded)).texts = textMessages (taken ++ waiting) ↔
      SingleTexts (taken ++ waiting) ∧ ∀ frame ∈ waiting, ¬ frame.IsWholeText := by
  obtain ⟨more, htexts, hnone⟩ := exists_texts_append taken waiting
  rw [(reassembles_of_legal hlegal).texts] at htexts
  rw [← hnone, textMessages]
  generalize hall : (converse (taken ++ waiting)).complete.filter
    (·.opcode = WSOpcode.Text.number) = all at htexts
  have hsingle : SingleTexts (taken ++ waiting) ↔ ∀ message ∈ all, message.Single := by
    rw [← hall, SingleTexts]
    simp only [List.mem_filter, decide_eq_true_eq, and_imp]
  rw [hsingle]
  constructor
  · intro heq
    -- What was given is no more than the single messages, and these no more than all.
    have hlengths := congrArg List.length htexts
    rw [List.length_append, heq, List.length_map, List.length_map] at hlengths
    have hle := List.length_filter_le (fun message : Message => decide message.Single) all
    have hfilter : (all.filter (·.Single)).length = all.length := by omega
    refine ⟨?_, List.eq_nil_of_length_eq_zero (by omega)⟩
    rw [List.length_filter_eq_length_iff] at hfilter
    simpa using hfilter
  · rintro ⟨hsingle, rfl⟩
    rw [List.append_nil, List.filter_eq_self.mpr (by simpa using hsingle)] at htexts
    exact htexts.symm

/-! ## The frames received -/

/-- The frames that have been received as a whole. -/
def framesReceived (frames : List PlainFrame) (moves : LoopMoves) : List PlainFrame :=
  arrived PlainFrame.encode frames (bytesReceived moves).length

/-- The bytes begin like a Text frame with FIN, and RSV bits zero. -/
def StartsText (bytes : List UInt8) : Prop :=
  bytes.head? = some 0x81

theorem startsText_encode_append (frame : PlainFrame) (later : List UInt8) :
    StartsText (frame.encode ++ later) ↔ frame.IsWholeText := by
  have hall : ∀ fin : Bool, ∀ opcode : Fin 16,
      ((fin.toUInt8 <<< 7) ||| (false.toUInt8 <<< 6) ||| (false.toUInt8 <<< 5) |||
        (false.toUInt8 <<< 4) ||| UInt8.ofNat opcode) = 0x81 ↔
        fin = true ∧ opcode = WSOpcode.Text.number := by
    decide
  have hfirst : (frame.encode ++ later).head? = some frame.toShortFrame.firstByte := rfl
  rw [StartsText, hfirst, Option.some.injEq]
  exact hall frame.fin frame.opcode

theorem reaches_text_iff {left : List UInt8} {rest : List PlainFrame}
    (hleft : left <+: stream PlainFrame.encode rest) :
    Reaches StartsText left ↔
      ∃ frame ∈ arrived PlainFrame.encode rest left.length, frame.IsWholeText := by
  induction rest generalizing left with
  | nil =>
      rw [List.prefix_nil.mp hleft]
      exact iff_of_false not_reaches_nil (by simp)
  | cons frame rest ih =>
      rcases Framing.complete_or_partial hleft with
        ⟨later, rfl, hlater⟩ | ⟨hincomplete, hshort⟩
      · rw [List.length_append, Framing.arrived_cons, List.exists_mem_cons_iff, ← ih hlater,
          ← startsText_encode_append frame later]
        exact reaches_encode_append frame.toShortFrame
      · have hnot := frame.toShortFrame.not_complete_of_partial frame.toShortFrame.payload_lt
          hincomplete hshort
        rw [Framing.arrived_of_partial _ rest hshort]
        exact iff_of_false (fun hreaches => hnot hreaches.complete) (by simp)

/-! ## Runs -/

/-- The loop waits for data, or it has returned. -/
def LoopState.AtRest (state : LoopState) : Prop :=
  state.point = .head ∨ ∃ result, state.point = .returned result

theorem LoopState.AtRest.not_faulted {state : LoopState} (hrest : state.AtRest) (fault : Fault) :
    state.point ≠ .faulted fault := by
  rcases hrest with hhead | ⟨result, hreturned⟩ <;> simp [*]

theorem LoopState.AtRest.not_parsing {state : LoopState} (hrest : state.AtRest)
    (packet : WebSocketPacket) : state.point ≠ .parsing packet := by
  rcases hrest with hhead | ⟨result, hreturned⟩ <;> simp [*]

/-- The reads end, at this step, in a way that leaves no Text frame with FIN. -/
def TextEndsWell (source : LoopState) (event : LoopEvent) : Prop :=
  EndsWell StartsText source event ∧ StopsWell StartsText source event

/-- The Text branch was executed for exactly the Text messages received, in order and with
their whole payloads. -/
def TextsExecuted (frames : List PlainFrame) (moves : LoopMoves) : Prop :=
  textExecutions moves = textMessages (framesReceived frames moves)

section Run

variable {parse : List UInt8 → Option JsonValue} {frames : List PlainFrame}
variable {moves : LoopMoves} {state : LoopState}

/-- At rest it depends on the messages received and on what is left in `recv_buf`. -/
theorem textsExecuted_iff (hlegal : Legal frames) (hrun : Run (LoopStep parse) start moves state)
    (hseen : bytesReceived moves <+: stream PlainFrame.encode frames)
    (hsmall : ∀ move ∈ moves, move.target.recvBuf.data.length < 2 ^ 31) (hrest : state.AtRest) :
    TextsExecuted frames moves ↔
      SingleTexts (framesReceived frames moves) ∧ ¬ Reaches StartsText state.recvBuf.rest := by
  obtain ⟨count, left, hcount, htracks⟩ := tracks_run_plain hrun hseen hsmall
  have hreceived := htracks.received
  rw [stream_toShortFrame] at hreceived
  have hleft : left <+: stream PlainFrame.encode (frames.drop count) := by
    rwa [hreceived, ← Framing.stream_take_append_drop PlainFrame.encode frames count,
      List.prefix_append_right_inj] at hseen
  have hframes : framesReceived frames moves =
      frames.take count ++ arrived PlainFrame.encode (frames.drop count) left.length := by
    rw [framesReceived, hreceived, List.length_append]
    conv_lhs => rw [← List.take_append_drop count frames]
    rw [List.take_append_drop, ← Framing.arrived_append, List.take_append_drop]
  have hwhole : Legal (framesReceived frames moves) := by
    have hbegins := Framing.arrived_prefix PlainFrame.encode frames (bytesReceived moves).length
    rw [framesReceived, List.prefix_iff_eq_take.mp hbegins]
    exact hlegal.take _
  have hrange := recvBuf_in_range hrun hsmall
  rw [TextsExecuted, textExecutions_eq_texts hrun, htracks.calls, decoded_toShortFrame,
    htracks.keeps.rest_eq hrange hrest.not_faulted, reaches_text_iff hleft, hframes]
  rw [hframes] at hwhole
  rw [← Assembly.texts, texts_eq_iff hwhole]
  simp

/-- As long as the reads end well, no Text frame with FIN is left at rest. -/
theorem not_reaches_of_endsWell (hrun : Run (LoopStep parse) start moves state)
    (hseen : bytesReceived moves <+: stream PlainFrame.encode frames)
    (hsmall : ∀ move ∈ moves, move.target.recvBuf.data.length < 2 ^ 31) (hrest : state.AtRest)
    (hwell : ∀ move ∈ moves, TextEndsWell move.source move.action) :
    ¬ Reaches StartsText state.recvBuf.rest := by
  rw [← stream_toShortFrame] at hseen
  rcases hrest with hhead | ⟨result, hreturned⟩
  · have hleft := (noneLeft_iff_endsWell StartsText hrun hseen hsmall).1
      fun move hmove => (hwell move hmove).1
    exact hrun.holds_of_targets (NoneLeft StartsText) (fun _ => not_reaches_nil) hleft hhead
  · cases hrun with
    | nil => cases hreturned
    | @snoc moves source target event hprior hstep =>
        have hlast : (⟨source, event, state⟩ : Move LoopState LoopEvent) ∈
            moves ++ [⟨source, event, state⟩] := by simp
        obtain ⟨_, hsource, before, taken, rest, left, htracks, hleft⟩ :=
          tracked_move (hprior.snoc hstep) hseen hsmall hlast
        exact (stopsWell_iff htracks hstep hleft hsource (hsmall _ hlast) hreturned).mp
          (hwell _ hlast).2

/-- And only then. -/
theorem endsWell_of_not_reaches (hrun : Run (LoopStep parse) start moves state)
    (hseen : bytesReceived moves <+: stream PlainFrame.encode frames)
    (hsmall : ∀ move ∈ moves, move.target.recvBuf.data.length < 2 ^ 31) (hrest : state.AtRest)
    (hnone : ∀ move ∈ moves, move.target.AtRest →
      ¬ Reaches StartsText move.target.recvBuf.rest) :
    ∀ move ∈ moves, TextEndsWell move.source move.action := by
  rw [← stream_toShortFrame] at hseen
  have hwell := (noneLeft_iff_endsWell StartsText hrun hseen hsmall).2 hrest.not_faulted
    hrest.not_parsing fun move hmove hhead => hnone move hmove (Or.inl hhead)
  refine fun move hmove => ⟨hwell move hmove, ?_⟩
  intro recvStartLen totalRecvLen hreading hstop
  obtain ⟨hstep, hsource, before, taken, rest, left, htracks, hleft⟩ :=
    tracked_move hrun hseen hsmall hmove
  obtain ⟨result, hreturned⟩ := returned_of_stop hstep hreading hstop
  exact (stopsWell_iff htracks hstep hleft hsource (hsmall move hmove) hreturned).mpr
    (hnone move hmove (Or.inr ⟨result, hreturned⟩)) recvStartLen totalRecvLen hreading hstop

theorem framesReceived_mono {earlier : LoopMoves} (hearlier : earlier <+: moves) :
    framesReceived frames earlier <+: framesReceived frames moves := by
  obtain ⟨later, rfl⟩ := hearlier
  refine Framing.arrived_mono PlainFrame.encode frames ?_
  simp [bytesReceived]

/-- A Text message in one frame of six bytes. -/
def singleText : List PlainFrame :=
  [⟨true, WSOpcode.Text.number, none, [0x61, 0x62, 0x63, 0x64], by decide⟩]

theorem legal_singleText : Legal singleText :=
  Legal.nil.snoc (by simp [Conversation.Accepts, PlainFrame.IsControl])

def singleTextRun : LoopMoves × LoopState :=
  play [.enter, .sslRead [0x81, 0x04, 0x61, 0x62, 0x63, 0x64] 0, .parse]

/-- A Text message in two fragments. -/
def fragmentedText : List PlainFrame :=
  [⟨false, WSOpcode.Text.number, none, [0x61, 0x62], by decide⟩,
    ⟨true, WSOpcode.Continue.number, none, [0x63, 0x64, 0x65, 0x66], by decide⟩]

end Run

end CppFragments
