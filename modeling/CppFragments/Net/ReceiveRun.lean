import CppFragments.Bytes.Framing
import CppFragments.Net.ReceivePass

/-! # Runs of the receive loop

However a stream of frames is cut into reads, the loop does what processing it
one whole frame at a time does. The invariant says which frames have been
decoded and that the buffer holds what has been received after them.
-/

namespace CppFragments

open ByteBuffer WebSocketPacket LoopState Transition
open Framing (stream)

/-! ## Processing one frame at a time -/

/-- A call of `process_one_message`: the frame last decoded and `msg_buf`. -/
structure MessageCall where
  frame : DecodedFrame
  message : List UInt8
  deriving DecidableEq

/-- What the Text branch is given in the call. -/
def MessageCall.texts (call : MessageCall) : List (List UInt8) :=
  call.frame.texts call.message

/-- The message being collected, and the calls made for earlier ones. -/
structure Assembly where
  message : List UInt8
  calls : List MessageCall

/-- Append the payload; at FIN, hand the message over and start a new one. -/
def Assembly.add (assembly : Assembly) (frame : DecodedFrame) : Assembly :=
  let message := assembly.message ++ frame.payload
  if frame.fin = 1 then ⟨[], assembly.calls ++ [⟨frame, message⟩]⟩
  else ⟨message, assembly.calls⟩

theorem Assembly.add_of_fin (assembly : Assembly) {frame : DecodedFrame} (hfin : frame.fin = 1) :
    assembly.add frame =
      ⟨[], assembly.calls ++ [⟨frame, assembly.message ++ frame.payload⟩]⟩ :=
  if_pos hfin

theorem Assembly.add_of_not_fin (assembly : Assembly) {frame : DecodedFrame}
    (hfin : frame.fin ≠ 1) :
    assembly.add frame = ⟨assembly.message ++ frame.payload, assembly.calls⟩ :=
  if_neg hfin

def assemble (frames : List DecodedFrame) : Assembly :=
  frames.foldl Assembly.add ⟨[], []⟩

theorem assemble_snoc (frames : List DecodedFrame) (frame : DecodedFrame) :
    assemble (frames ++ [frame]) = (assemble frames).add frame := by
  simp [assemble]

/-! ## What a run shows -/

namespace LoopEvent

def received : LoopEvent → List UInt8
  | .sslRead bytes _ => bytes
  | _ => []

/-- The frame decoded, with what was written back because of it. -/
def exchanges : LoopEvent → List (DecodedFrame × List (List UInt8))
  | .frame packet => [(packet.decoded, [])]
  | .message packet _ writes _ => [(packet.decoded, writes)]
  | _ => []

def calls : LoopEvent → List MessageCall
  | .message packet msgBuf _ _ => [⟨packet.decoded, msgBuf.data⟩]
  | _ => []

/-- `msg_buf` at every entry of the Text branch of `process_one_message`. -/
def texts : LoopEvent → List (List UInt8)
  | .message _ _ _ texts => texts
  | _ => []

end LoopEvent

abbrev LoopMoves := List (Move LoopState LoopEvent)

def bytesReceived (moves : LoopMoves) : List UInt8 :=
  (labels moves).flatMap LoopEvent.received

def exchanges (moves : LoopMoves) : List (DecodedFrame × List (List UInt8)) :=
  (labels moves).flatMap LoopEvent.exchanges

def framesDecoded (moves : LoopMoves) : List DecodedFrame :=
  (exchanges moves).map Prod.fst

def messageCalls (moves : LoopMoves) : List MessageCall :=
  (labels moves).flatMap LoopEvent.calls

/-- The messages with which the Text branch was executed. -/
def textExecutions (moves : LoopMoves) : List (List UInt8) :=
  (labels moves).flatMap LoopEvent.texts

/-- The run the inputs select when no text parses and every write succeeds. -/
def play (inputs : List LoopInput) : LoopMoves × LoopState :=
  (replay (LoopState.next (fun _ => none) (fun _ => 1) (Vector.replicate 4 0)) [] start inputs).getD
    ([], start)

theorem play_run (inputs : List LoopInput) :
    Run (LoopStep fun _ => none) start (play inputs).1 (play inputs).2 := by
  unfold play
  cases hreplay : replay (LoopState.next (fun _ => none) (fun _ => 1) (Vector.replicate 4 0)) []
    start inputs with
  | none => exact Run.nil
  | some run => exact run_of_replay next_sound Run.nil hreplay

section Snoc

variable (moves : LoopMoves) (source target : LoopState) (event : LoopEvent)

@[simp] theorem bytesReceived_snoc :
    bytesReceived (moves ++ [⟨source, event, target⟩]) = bytesReceived moves ++ event.received := by
  simp [bytesReceived]

@[simp] theorem exchanges_snoc :
    exchanges (moves ++ [⟨source, event, target⟩]) = exchanges moves ++ event.exchanges := by
  simp [exchanges]

@[simp] theorem messageCalls_snoc :
    messageCalls (moves ++ [⟨source, event, target⟩]) = messageCalls moves ++ event.calls := by
  simp [messageCalls]

end Snoc

/-! ## The invariant -/

/-- The states of the loop when `left` has been received but not decoded and
`message` is being collected. -/
inductive LoopState.Keeps (left message : List UInt8) : LoopState → Prop
  | head : Keeps left message ⟨.head, cursor [] left, ⟨message, 0⟩⟩
  | reading (recvStartLen totalRecvLen : Int)
      (hlength : recvStartLen + totalRecvLen = left.length)
      (hstart : 0 ≤ recvStartLen) (htotal : 0 ≤ totalRecvLen) :
      Keeps left message ⟨.reading recvStartLen totalRecvLen, cursor [] left, ⟨message, 0⟩⟩
  | parsing (before : List UInt8) (packet : WebSocketPacket) (hready : packet.Ready)
      (hsix : 6 ≤ left.length) :
      Keeps left message ⟨.parsing packet, cursor before left, ⟨message, 0⟩⟩
  | returned (result : Bool) :
      Keeps left message ⟨.returned result, cursor [] left, ⟨message, 0⟩⟩
  | faulted (fault : Fault) (recvBuf msgBuf : ByteBuffer) (hfault : fault.OfMessage) :
      Keeps left message ⟨.faulted fault, recvBuf, msgBuf⟩

/-- Where a pass that took a frame can lead when `later` is left. -/
inductive LoopPoint.After (later : List UInt8) : LoopPoint → Prop
  | head (hlate : later.length ≤ 5) : After later .head
  | parsing (packet : WebSocketPacket) : After later (.parsing packet)
  | faulted (fault : Fault) : After later (.faulted fault)

/-- The run has decoded exactly the frames `taken` and has received `left`
after them. -/
structure Tracks (taken : List ShortFrame) (left : List UInt8) (moves : LoopMoves)
    (state : LoopState) : Prop where
  received : bytesReceived moves = stream ShortFrame.encode taken ++ left
  exchanges : exchanges moves = taken.map fun frame => (frame.decoded, frame.decoded.replies)
  calls : messageCalls moves = (assemble (taken.map ShortFrame.decoded)).calls
  keeps : state.Keeps left (assemble (taken.map ShortFrame.decoded)).message

theorem LoopState.Keeps.rest_eq {left message : List UInt8} {state : LoopState}
    (hkeeps : state.Keeps left message) (hsmall : state.recvBuf.data.length < 2 ^ 31)
    (hpoint : ∀ fault, state.point ≠ .faulted fault) : state.recvBuf.rest = left := by
  cases hkeeps with
  | faulted fault => exact absurd rfl (hpoint fault)
  | _ =>
      rw [cursor_data, List.length_append] at hsmall
      exact cursor_rest hsmall

section Step

variable {parse : List UInt8 → Option JsonValue} {left message : List UInt8}

theorem keeps_endReads (recvStartLen totalRecvLen : Int) (indeterminate : MaskingKey)
    (hsmall : left.length < 2 ^ 31) :
    (endReads recvStartLen totalRecvLen indeterminate (cursor [] left) ⟨message, 0⟩).Keeps
      left message := by
  have hsmall' : ([] : List UInt8).length + left.length < 2 ^ 31 := by simpa using hsmall
  unfold endReads
  rw [length_cursor hsmall', getoft_cursor hsmall', websocketHeaderMinSize]
  simp only [List.length_nil, Nat.zero_add]
  split
  · exact .returned false
  · split
    next hlong => exact .parsing [] _ (ready_new indeterminate) (by omega)
    · exact .head

theorem readChunk_cursor {recvStartLen totalRecvLen : Int} {bytes : List UInt8} (pending : Int)
    (indeterminate : MaskingKey) (hlength : recvStartLen + totalRecvLen = left.length)
    (hstart : 0 ≤ recvStartLen) (htotal : 0 ≤ totalRecvLen)
    (hsmall : left.length + bytes.length < 2 ^ 31) (msgBuf : ByteBuffer) :
    readChunk recvStartLen totalRecvLen bytes pending indeterminate (cursor [] left) msgBuf =
      if pending > 0 then
        ⟨.reading recvStartLen (totalRecvLen + bytes.length), cursor [] (left ++ bytes), msgBuf⟩
      else endReads recvStartLen (totalRecvLen + bytes.length) indeterminate
        (cursor [] (left ++ bytes)) msgBuf := by
  have hnow : toInt32 (totalRecvLen + bytes.length) = totalRecvLen + bytes.length := by
    have hcast : totalRecvLen + bytes.length =
        ((totalRecvLen.toNat + bytes.length : Nat) : Int) := by omega
    rw [hcast, toInt32_natCast (by omega)]
  have happend : (cursor [] left).append bytes bytes.length = .ok (cursor [] (left ++ bytes)) :=
    append_all _ _ rfl
  unfold readChunk
  rw [happend]
  simp only [hnow]

theorem keeps_readChunk {recvStartLen totalRecvLen : Int} {bytes : List UInt8} (pending : Int)
    (indeterminate : MaskingKey) (hlength : recvStartLen + totalRecvLen = left.length)
    (hstart : 0 ≤ recvStartLen) (htotal : 0 ≤ totalRecvLen)
    (hsmall : left.length + bytes.length < 2 ^ 31) :
    (readChunk recvStartLen totalRecvLen bytes pending indeterminate (cursor [] left)
      ⟨message, 0⟩).Keeps (left ++ bytes) message := by
  rw [readChunk_cursor pending indeterminate hlength hstart htotal hsmall]
  split
  · refine .reading _ _ ?_ hstart (by omega)
    rw [List.length_append]
    push_cast
    omega
  · exact keeps_endReads _ _ indeterminate (by rw [List.length_append]; exact hsmall)

/-- Where the reads end decides about the point only. -/
theorem endReads_recvBuf (recvStartLen totalRecvLen : Int) (indeterminate : MaskingKey)
    (recvBuf msgBuf : ByteBuffer) :
    (endReads recvStartLen totalRecvLen indeterminate recvBuf msgBuf).recvBuf = recvBuf := by
  unfold endReads
  split
  · rfl
  · split <;> rfl

theorem readChunk_recvBuf (recvStartLen totalRecvLen : Int) (bytes : List UInt8) (pending : Int)
    (indeterminate : MaskingKey) (recvBuf msgBuf : ByteBuffer) :
    (readChunk recvStartLen totalRecvLen bytes pending indeterminate recvBuf msgBuf).recvBuf =
      { recvBuf with data := recvBuf.data ++ bytes } := by
  unfold readChunk
  rw [append_all recvBuf bytes rfl]
  dsimp only
  split
  · rfl
  · rw [endReads_recvBuf]

theorem keeps_afterFrame {packet : WebSocketPacket} {before : List UInt8} (message : List UInt8)
    (hready : packet.cleared.Ready) (hsmall : before.length + left.length < 2 ^ 31) :
    (afterFrame packet (cursor before left) ⟨message, 0⟩).Keeps left message := by
  rw [afterFrame_cursor packet _ hsmall]
  split
  · exact .head
  next hlong => exact .parsing before _ hready (by omega)

theorem after_afterFrame (packet : WebSocketPacket) {before : List UInt8} (msgBuf : ByteBuffer)
    (hsmall : before.length + left.length < 2 ^ 31) :
    (afterFrame packet (cursor before left) msgBuf).point.After left := by
  rw [afterFrame_cursor packet _ hsmall]
  split
  next hlate => exact .head hlate
  · exact .parsing _

/-- A step that decodes nothing keeps what has been decoded. -/
theorem Tracks.snoc_quiet {taken : List ShortFrame} {moves : LoopMoves}
    {source target : LoopState} {event : LoopEvent} {left' : List UInt8}
    (htracks : Tracks taken left moves source) (hreceived : left' = left ++ event.received)
    (hexchanges : event.exchanges = []) (hcalls : event.calls = [])
    (hkeeps : target.Keeps left' (assemble (taken.map ShortFrame.decoded)).message) :
    Tracks taken left' (moves ++ [⟨source, event, target⟩]) target where
  received := by rw [bytesReceived_snoc, htracks.received, hreceived, List.append_assoc]
  exchanges := by rw [exchanges_snoc, htracks.exchanges, hexchanges, List.append_nil]
  calls := by rw [messageCalls_snoc, htracks.calls, hcalls, List.append_nil]
  keeps := hkeeps

/-- A step that decodes the next frame. -/
theorem Tracks.snoc_frame {taken : List ShortFrame} {moves : LoopMoves} {frame : ShortFrame}
    {source target : LoopState} {event : LoopEvent} {later : List UInt8} {next : Assembly}
    (htracks : Tracks taken (frame.encode ++ later) moves source)
    (hadd : (assemble (taken.map ShortFrame.decoded)).add frame.decoded = next)
    (hreceived : event.received = [])
    (hexchanges : event.exchanges = [(frame.decoded, frame.decoded.replies)])
    (hcalls : (assemble (taken.map ShortFrame.decoded)).calls ++ event.calls = next.calls)
    (hkeeps : target.Keeps later next.message) :
    Tracks (taken ++ [frame]) later (moves ++ [⟨source, event, target⟩]) target where
  received := by
    rw [bytesReceived_snoc, htracks.received, hreceived]
    simp
  exchanges := by
    rw [exchanges_snoc, htracks.exchanges, hexchanges]
    simp
  calls := by
    rw [messageCalls_snoc, htracks.calls, hcalls, List.map_append, List.map_singleton,
      assemble_snoc, hadd]
  keeps := by
    rw [List.map_append, List.map_singleton, assemble_snoc, hadd]
    exact hkeeps

/-- A pass that has a whole frame before it takes that frame. -/
theorem Tracks.parse_frame {taken : List ShortFrame} {moves : LoopMoves} {source : LoopState}
    {packet : WebSocketPacket} {frame : ShortFrame} {before later : List UInt8}
    (parse : List UInt8 → Option JsonValue) (sslWrite : List UInt8 → Int)
    (htracks : Tracks taken (frame.encode ++ later) moves source) (hready : packet.Ready)
    (hsix : 6 ≤ frame.encode.length + later.length)
    (hsmall : before.length + frame.encode.length + later.length < 2 ^ 31) :
    let pass := parseOnce parse sslWrite packet (cursor before (frame.encode ++ later))
      ⟨(assemble (taken.map ShortFrame.decoded)).message, 0⟩
    Tracks (taken ++ [frame]) later (moves ++ [⟨source, pass.1, pass.2⟩]) pass.2 ∧
      pass.2.point.After later := by
  have hpass := parseOnce_frame parse sslWrite hready frame
    (assemble (taken.map ShortFrame.decoded)).message hsix hsmall
  have hdecoded := hready.decoded_withFrame frame
  have hsmall' : (before ++ frame.encode).length + later.length < 2 ^ 31 := by
    rw [List.length_append]
    exact hsmall
  simp only at hpass ⊢
  by_cases hfin : frame.fin = true
  · have hadd := (assemble (taken.map ShortFrame.decoded)).add_of_fin (frame.decoded_fin.mpr hfin)
    rw [if_pos hfin] at hpass
    rcases hpass with ⟨last, hlast, hpass⟩ | ⟨fault, hfault, hnone, hpass⟩
    · rw [hpass]
      dsimp only
      refine ⟨htracks.snoc_frame hadd rfl ?_ ?_ (keeps_afterFrame [] hlast hsmall'),
        after_afterFrame last .empty hsmall'⟩
      · simp [LoopEvent.exchanges, hdecoded, DecodedFrame.replies, frame.decoded_fin, hfin]
      · simp [LoopEvent.calls, hdecoded, ShortFrame.decoded]
    · -- The message was handed over, and handling it failed.
      rw [hpass]
      dsimp only
      refine ⟨htracks.snoc_frame hadd rfl ?_ ?_ (.faulted fault _ _ hfault), .faulted fault⟩
      · simp [LoopEvent.exchanges, hdecoded, DecodedFrame.replies, hnone]
      · simp [LoopEvent.calls, hdecoded, ShortFrame.decoded]
  · have hadd := (assemble (taken.map ShortFrame.decoded)).add_of_not_fin
      (frame.decoded_fin.not.mpr hfin)
    rw [if_neg hfin] at hpass
    rw [hpass]
    dsimp only
    refine ⟨htracks.snoc_frame hadd rfl ?_ ?_
      (keeps_afterFrame _ (hready.withFrame_parsed frame).cleared hsmall'),
      after_afterFrame _ _ hsmall'⟩
    · simp [LoopEvent.exchanges, hdecoded, DecodedFrame.replies, frame.decoded_fin, hfin]
    · simp [LoopEvent.calls]

/-- A pass through the parse loop either takes the next frame of the stream or
finds it incomplete. -/
theorem Tracks.parse_step {taken rest : List ShortFrame} {moves : LoopMoves}
    {packet : WebSocketPacket} {recvBuf msgBuf : ByteBuffer}
    (parse : List UInt8 → Option JsonValue) (sslWrite : List UInt8 → Int)
    (htracks : Tracks taken left moves ⟨.parsing packet, recvBuf, msgBuf⟩)
    (hseen : left <+: stream ShortFrame.encode rest) (hsmall : recvBuf.data.length < 2 ^ 31) :
    let pass := parseOnce parse sslWrite packet recvBuf msgBuf
    let moves' := moves ++ [⟨⟨.parsing packet, recvBuf, msgBuf⟩, pass.1, pass.2⟩]
    (Tracks taken left moves' pass.2 ∧ pass.2.point = .head ∧ ¬ Frame.Complete left) ∨
      ∃ frame rest' later, rest = frame :: rest' ∧ left = frame.encode ++ later ∧
        Tracks (taken ++ [frame]) later moves' pass.2 ∧ pass.2.point.After later := by
  obtain _ | _ | ⟨before, _, hready, hsix⟩ := htracks.keeps
  rw [cursor_data, List.length_append] at hsmall
  simp only
  cases rest with
  | nil =>
      rw [List.prefix_nil.mp hseen] at hsix
      simp at hsix
  | cons frame rest =>
      rcases Framing.complete_or_partial hseen with ⟨later, rfl, _⟩ | ⟨hincomplete, hshort⟩
      · rw [List.length_append] at hsix hsmall
        exact Or.inr ⟨frame, rest, later, rfl, rfl,
          htracks.parse_frame parse sslWrite hready hsix (by omega)⟩
      · have hpass := parseOnce_partial parse packet sslWrite frame
          (assemble (taken.map ShortFrame.decoded)).message hincomplete hshort hsix hsmall
        rw [hpass]
        exact Or.inl ⟨htracks.snoc_quiet (List.append_nil left).symm rfl rfl .head, rfl,
          frame.not_complete_of_partial frame.payload_lt hincomplete hshort⟩

/-- **Each step of the loop keeps track of the stream.** -/
theorem Tracks.step {taken rest : List ShortFrame} {moves : LoopMoves}
    {source target : LoopState} {event : LoopEvent} (htracks : Tracks taken left moves source)
    (hstep : LoopStep parse source event target)
    (hseen : bytesReceived (moves ++ [⟨source, event, target⟩]) <+:
      stream ShortFrame.encode (taken ++ rest))
    (hsource : source.recvBuf.data.length < 2 ^ 31)
    (htarget : target.recvBuf.data.length < 2 ^ 31) :
    ∃ taken' rest' left', taken' ++ rest' = taken ++ rest ∧
      Tracks taken' left' (moves ++ [⟨source, event, target⟩]) target := by
  have hleft : left <+: stream ShortFrame.encode rest := by
    rw [bytesReceived_snoc, htracks.received, Framing.stream_append, List.append_assoc,
      List.prefix_append_right_inj] at hseen
    exact (List.prefix_append _ _).trans hseen
  have hkeeps := htracks.keeps
  cases hstep with
  | enter recvBuf msgBuf =>
      cases hkeeps
      refine ⟨taken, rest, left, rfl, htracks.snoc_quiet (List.append_nil left).symm rfl rfl ?_⟩
      rw [length_cursor (by simpa using hsource)]
      exact .reading _ _ (by simp) (by omega) (by omega)
  | sslRead recvStartLen totalRecvLen recvBuf msgBuf bytes pending indeterminate hne hmax =>
      obtain _ | ⟨_, _, hlength, hstart, htotal⟩ := hkeeps
      -- Only a read adds to the bytes that are left.
      refine ⟨taken, rest, left ++ bytes, rfl, htracks.snoc_quiet rfl rfl rfl ?_⟩
      have hsmall : left.length + bytes.length < 2 ^ 31 := by
        rw [readChunk_recvBuf, cursor_data, List.nil_append, List.length_append] at htarget
        exact htarget
      exact keeps_readChunk pending indeterminate hlength hstart htotal hsmall
  | wouldBlock recvStartLen totalRecvLen recvBuf msgBuf =>
      cases hkeeps
      exact ⟨taken, rest, left, rfl,
        htracks.snoc_quiet (List.append_nil left).symm rfl rfl .head⟩
  | failed recvStartLen totalRecvLen recvBuf msgBuf =>
      cases hkeeps
      exact ⟨taken, rest, left, rfl,
        htracks.snoc_quiet (List.append_nil left).symm rfl rfl (.returned false)⟩
  | closed recvStartLen totalRecvLen recvBuf msgBuf indeterminate =>
      cases hkeeps
      exact ⟨taken, rest, left, rfl,
        htracks.snoc_quiet (List.append_nil left).symm rfl rfl
          (keeps_endReads _ _ indeterminate (by simpa using hsource))⟩
  | parse sslWrite packet recvBuf msgBuf =>
      rcases htracks.parse_step parse sslWrite hleft hsource with
        ⟨hquiet, _, _⟩ | ⟨frame, rest', later, rfl, rfl, hframe, _⟩
      · exact ⟨taken, rest, left, rfl, hquiet⟩
      · exact ⟨taken ++ [frame], rest', later, by simp, hframe⟩

end Step

section Run

variable {parse : List UInt8 → Option JsonValue} {moves : LoopMoves} {state : LoopState}

theorem recvBuf_in_range (hrun : Run (LoopStep parse) start moves state)
    (hsmall : ∀ move ∈ moves, move.target.recvBuf.data.length < 2 ^ 31) :
    state.recvBuf.data.length < 2 ^ 31 := by
  have hstart : start.recvBuf.data.length < 2 ^ 31 := by decide
  exact hrun.holds_of_targets (fun state => state.recvBuf.data.length < 2 ^ 31) hstart hsmall

/-- **Every run keeps track of the stream**, however it is cut into reads. -/
theorem tracks_run {frames : List ShortFrame} (hrun : Run (LoopStep parse) start moves state)
    (hseen : bytesReceived moves <+: stream ShortFrame.encode frames)
    (hsmall : ∀ move ∈ moves, move.target.recvBuf.data.length < 2 ^ 31) :
    ∃ taken rest left, taken ++ rest = frames ∧ Tracks taken left moves state := by
  revert hseen hsmall
  refine hrun.induction_on (motive := fun moves state =>
    bytesReceived moves <+: stream ShortFrame.encode frames →
    (∀ move ∈ moves, move.target.recvBuf.data.length < 2 ^ 31) →
    ∃ taken rest left, taken ++ rest = frames ∧ Tracks taken left moves state) ?_ ?_
  · intro _ _
    exact ⟨[], frames, [], rfl, ⟨rfl, rfl, rfl, .head⟩⟩
  · intro moves source event target hprior ih hstep hseen hsmall
    have hsource := recvBuf_in_range hprior fun move hmove =>
      hsmall move (List.mem_append_left _ hmove)
    have htarget := recvBuf_in_range (hprior.snoc hstep) hsmall
    have hearlier : bytesReceived moves <+: bytesReceived (moves ++ [⟨source, event, target⟩]) := by
      rw [bytesReceived_snoc]
      exact List.prefix_append _ _
    obtain ⟨taken, rest, left, rfl, htracks⟩ := ih (hearlier.trans hseen)
      fun move hmove => hsmall move (List.mem_append_left _ hmove)
    exact htracks.step hstep hseen hsource htarget

/-- Every move of a run is taken from a state that keeps track of the stream. -/
theorem tracked_move {frames : List ShortFrame} (hrun : Run (LoopStep parse) start moves state)
    (hseen : bytesReceived moves <+: stream ShortFrame.encode frames)
    (hsmall : ∀ move ∈ moves, move.target.recvBuf.data.length < 2 ^ 31)
    {move : Move LoopState LoopEvent} (hmove : move ∈ moves) :
    LoopStep parse move.source move.action move.target ∧
      move.source.recvBuf.data.length < 2 ^ 31 ∧
      ∃ before taken rest left, Tracks taken left before move.source ∧
        left <+: stream ShortFrame.encode rest := by
  obtain ⟨before, hbefore, hstep, hmoves⟩ := hrun.exists_before hmove
  have hearlier : before <+: moves := (List.prefix_append _ _).trans hmoves
  have hbeforeSeen : bytesReceived before <+: stream ShortFrame.encode frames := by
    obtain ⟨after, rfl⟩ := hearlier
    rw [bytesReceived, labels_append, List.flatMap_append] at hseen
    exact (List.prefix_append _ _).trans hseen
  have hbeforeSmall : ∀ move ∈ before, move.target.recvBuf.data.length < 2 ^ 31 :=
    fun move hmove => hsmall move (hearlier.subset hmove)
  obtain ⟨taken, rest, left, hframes, htracks⟩ := tracks_run hbefore hbeforeSeen hbeforeSmall
  refine ⟨hstep, recvBuf_in_range hbefore hbeforeSmall, before, taken, rest, left, htracks, ?_⟩
  rw [← hframes, Framing.stream_append, htracks.received, List.prefix_append_right_inj]
    at hbeforeSeen
  exact hbeforeSeen

theorem stream_toShortFrame (frames : List PlainFrame) :
    stream ShortFrame.encode (frames.map PlainFrame.toShortFrame) =
      stream PlainFrame.encode frames := by
  rw [stream, List.flatMap_map]
  rfl

theorem decoded_toShortFrame (frames : List PlainFrame) :
    (frames.map PlainFrame.toShortFrame).map ShortFrame.decoded =
      frames.map PlainFrame.decoded := by
  simp [PlainFrame.decoded_toShortFrame]

/-- The frames taken from a stream of plain frames are the first of them. -/
theorem tracks_run_plain {frames : List PlainFrame}
    (hrun : Run (LoopStep parse) start moves state)
    (hseen : bytesReceived moves <+: stream PlainFrame.encode frames)
    (hsmall : ∀ move ∈ moves, move.target.recvBuf.data.length < 2 ^ 31) :
    ∃ count left, count ≤ frames.length ∧
      Tracks ((frames.take count).map PlainFrame.toShortFrame) left moves state := by
  rw [← stream_toShortFrame] at hseen
  obtain ⟨taken, rest, left, hframes, htracks⟩ := tracks_run hrun hseen hsmall
  have htaken : (frames.take taken.length).map PlainFrame.toShortFrame = taken := by
    rw [List.map_take, ← hframes, List.take_left]
  have hcount : taken.length ≤ frames.length := by
    have hlength := congrArg List.length hframes
    rw [List.length_append, List.length_map] at hlength
    omega
  exact ⟨taken.length, left, hcount, htaken.symm ▸ htracks⟩

theorem Tracks.framesDecoded_eq {taken : List PlainFrame} {left : List UInt8}
    (htracks : Tracks (taken.map PlainFrame.toShortFrame) left moves state) :
    framesDecoded moves = taken.map PlainFrame.decoded := by
  rw [← decoded_toShortFrame, framesDecoded, htracks.exchanges, List.map_map]
  rfl

/-- A masked Ping of eight bytes, which comes in two reads. -/
def pingFrame : PlainFrame :=
  ⟨true, WSOpcode.Ping.number, some #v[1, 2, 3, 4], [0x68, 0x69], by decide⟩

def pingRun : LoopMoves × LoopState :=
  play [.enter, .sslRead [0x89, 0x82, 1] 0, .enter, .wouldBlock, .enter,
    .sslRead [2, 3, 4, 0x69, 0x6B] 0, .parse]

/-- **The receive loop does not depend on how the stream is cut.** At any point
some number of frames has been decoded, `process_one_message` has been called
as if they had come one at a time, and at the head of the outer loop `recv_buf`
holds just the bytes received after them. No buffer access fails. -/
theorem receive_refines_frames {frames : List PlainFrame}
    (hrun : Run (LoopStep parse) start moves state)
    (hseen : bytesReceived moves <+: stream PlainFrame.encode frames)
    (hsmall : ∀ move ∈ moves, move.target.recvBuf.data.length < 2 ^ 31) :
    (∀ fault, state.point = .faulted fault → fault ≠ .outOfRange ∧ fault ≠ .overrun) ∧
      ∃ count ≤ frames.length,
        framesDecoded moves = (frames.take count).map PlainFrame.decoded ∧
        messageCalls moves = (assemble ((frames.take count).map PlainFrame.decoded)).calls ∧
        stream PlainFrame.encode (frames.take count) <+: bytesReceived moves ∧
        (state.point = .head → state.recvBuf =
          ⟨(bytesReceived moves).drop
            (stream PlainFrame.encode (frames.take count)).length, 0⟩) := by
  obtain ⟨count, left, hcount, htracks⟩ := tracks_run_plain hrun hseen hsmall
  have hkeeps := htracks.keeps
  have hreceived := htracks.received
  rw [stream_toShortFrame] at hreceived
  refine ⟨?_, count, hcount, ?_, ?_, hreceived ▸ List.prefix_append _ _, ?_⟩
  · intro fault hfault
    cases hkeeps with
    | faulted fault' recvBuf msgBuf hmessage =>
        rw [← LoopPoint.faulted.inj hfault]
        rcases hmessage with rfl | rfl <;> decide
    | _ => simp at hfault
  · exact htracks.framesDecoded_eq
  · rw [htracks.calls, decoded_toShortFrame]
  · intro hhead
    rw [hreceived, List.drop_left]
    cases hkeeps with
    | head => rfl
    | _ => simp at hhead

theorem receive_refines_frames_pingRun :
    (∀ fault, pingRun.2.point = .faulted fault → fault ≠ .outOfRange ∧ fault ≠ .overrun) ∧
      ∃ count ≤ [pingFrame].length,
        framesDecoded pingRun.1 = ([pingFrame].take count).map PlainFrame.decoded ∧
        messageCalls pingRun.1 =
          (assemble (([pingFrame].take count).map PlainFrame.decoded)).calls ∧
        stream PlainFrame.encode ([pingFrame].take count) <+: bytesReceived pingRun.1 ∧
        (pingRun.2.point = .head → pingRun.2.recvBuf =
          ⟨(bytesReceived pingRun.1).drop
            (stream PlainFrame.encode ([pingFrame].take count)).length, 0⟩) :=
  receive_refines_frames (play_run _) (by decide +kernel) (by decide +kernel)

end Run

end CppFragments
