import CppFragments.Net.Answers
import CppFragments.Net.ParseProgress
import CppFragments.WebSocket.Piece

/-! # The receive loop on any bytes

Nothing is assumed here about what the server sends. Every byte received is
part of one decoded frame or still in `recv_buf`, no access leaves a buffer
unnoticed, and the parse loop leaves little behind.
-/

namespace CppFragments

open Outcome ByteBuffer WebSocketPacket LoopState Transition

/-! ## One pass -/

/-- What a pass through the parse loop comes to, whatever bytes are ahead. -/
inductive PassTakes (input msgBuf : ByteBuffer) : LoopEvent × LoopState → Prop
  | incomplete (hsize : input.ahead.length < 65549) :
      PassTakes input msgBuf (.incomplete, leaveParsing input msgBuf)
  | thrown (honly : OnlyHeader input) :
      PassTakes input msgBuf (.fault .outOfRange, ⟨.faulted .outOfRange, input, msgBuf⟩)
  | frame (piece after : List UInt8) (packet : WebSocketPacket)
      (htaken : TakenFrom input piece after packet) (hfin : packet.fin ≠ 1) :
      PassTakes input msgBuf (.frame packet,
        afterFrame packet (input.advance piece.length)
          { msgBuf with data := msgBuf.data ++ packet.payload.data })
  | message (piece after : List UInt8) (packet last : WebSocketPacket)
      (htaken : TakenFrom input piece after packet) (hfin : packet.fin = 1) :
      PassTakes input msgBuf (.message packet
          { msgBuf with data := msgBuf.data ++ packet.payload.data } packet.decoded.answers
          (packet.decoded.texts (msgBuf.data ++ packet.payload.data)),
        afterFrame last (input.advance piece.length) .empty)
  | failed (piece after : List UInt8) (packet : WebSocketPacket) (fault : Fault)
      (htaken : TakenFrom input piece after packet) (hfin : packet.fin = 1)
      (hfault : fault.OfMessage) :
      PassTakes input msgBuf (.message packet
          { msgBuf with data := msgBuf.data ++ packet.payload.data } []
          (packet.decoded.texts (msgBuf.data ++ packet.payload.data)),
        ⟨.faulted fault, input.advance piece.length,
          { msgBuf with data := msgBuf.data ++ packet.payload.data }⟩)

section Pass

variable {packet : WebSocketPacket} {input : ByteBuffer} {piece after : List UInt8}

theorem WebSocketPacket.Parsed.payload_lt (hparsed : packet.Parsed) :
    packet.payload.data.length < 2 ^ 31 := by
  rw [hparsed.payload_length]
  exact Nat.lt_of_le_of_lt hparsed.payloadLength_le (by decide)

/-- `decodeFrame` of a piece hands over the frame and its payload. -/
theorem decodeFrame_of_piece {packet' : WebSocketPacket} (hsound : input.Sound)
    (htaken : TakenFrom input piece after packet')
    (hrecv : recvDataframe packet input =
      .ok (UInt64.ofNat (input.oft.toNat + piece.length), packet', input.advance piece.length))
    (msgBuf : ByteBuffer) :
    decodeFrame packet input msgBuf =
      .ok (some (packet', { msgBuf with data := msgBuf.data ++ packet'.payload.data }),
        input.advance piece.length) := by
  have htotal := hsound.oft_add_ahead_lt
  have htwo := htaken.two_le
  rw [htaken.ahead, List.length_append] at htotal
  have hoffset : (UInt64.ofNat (input.oft.toNat + piece.length)).toUInt32 ≠ 0 :=
    toUInt32_ofNat_ne_zero (by omega) (by omega)
  unfold decodeFrame
  rw [hrecv]
  simp only [ok_bind]
  rw [if_neg hoffset, append_bytes msgBuf packet'.payload htaken.parsed.payload_lt]
  simp only [ok_bind, pure_eq_ok]

theorem parseOnce_takes (parse : List UInt8 → Option JsonValue) (sslWrite : List UInt8 → Int)
    (hready : packet.Ready) (hsound : input.Sound) (hsmall : input.data.length < 2 ^ 31)
    (htwo : 2 ≤ input.ahead.length) (msgBuf : ByteBuffer) :
    PassTakes input msgBuf (parseOnce parse sslWrite packet input msgBuf) := by
  have htakes := recvDataframe_takes hready hsound hsmall htwo
  rw [parseOnce]
  cases hrecv : recvDataframe packet input with
  | error fault =>
      rw [hrecv] at htakes
      cases htakes with
      | thrown honly =>
          have hdecode : decodeFrame packet input msgBuf = .error .outOfRange := by
            rw [decodeFrame, hrecv]
            rfl
          rw [hdecode]
          exact .thrown honly
  | ok result =>
      rw [hrecv] at htakes
      cases htakes with
      | incomplete packet' hsize =>
          rw [decodeFrame_of_missing msgBuf hrecv]
          exact .incomplete hsize
      | piece piece after packet' htaken =>
          rw [decodeFrame_of_piece hsound htaken hrecv, afterDecode]
          by_cases hfin : packet'.fin = 1
          · rw [if_pos hfin]
            rcases processOneMessage_parsed parse sslWrite htaken.parsed
              { msgBuf with data := msgBuf.data ++ packet'.payload.data } with
              ⟨result, last, hok, _⟩ | ⟨fault, herror, hfault, _⟩
            · rw [hok]
              exact .message piece after packet' last htaken hfin
            · rw [herror]
              exact .failed piece after packet' fault htaken hfin hfault
          · rw [if_neg hfin]
            exact .frame piece after packet' htaken hfin

/-! ## What a pass leaves -/

theorem leaveParsing_sound (hsound : input.Sound) (hsmall : input.data.length < 2 ^ 31)
    (msgBuf : ByteBuffer) : leaveParsing input msgBuf = ⟨.head, ⟨input.rest, 0⟩, msgBuf⟩ := by
  rw [leaveParsing, hsound.resetoft_erase hsmall, hsound.getoft_eq, Int.toNat_natCast,
    ByteBuffer.rest]

theorem afterFrame_sound (hsound : input.Sound) (hsmall : input.data.length < 2 ^ 31)
    (packet : WebSocketPacket) (msgBuf : ByteBuffer) :
    (input.rest.length ≤ 5 ∧
        afterFrame packet input msgBuf = ⟨.head, ⟨input.rest, 0⟩, msgBuf⟩) ∨
      afterFrame packet input msgBuf = ⟨.parsing packet.cleared, input, msgBuf⟩ := by
  unfold afterFrame
  split
  next hend =>
    refine Or.inl ⟨?_, leaveParsing_sound hsound hsmall msgBuf⟩
    have hlength := hsound.length_ahead
    rw [hsound.getoft_eq, websocketHeaderMinSize] at hend
    rw [ahead_eq_rest hsmall] at hlength
    omega
  · exact Or.inr rfl

/-- Whether the loop goes round or is left, the bytes still to come are kept. -/
theorem afterFrame_keeps (hsound : input.Sound) (hsmall : input.data.length < 2 ^ 31)
    (packet : WebSocketPacket) (msgBuf : ByteBuffer) :
    (afterFrame packet input msgBuf).recvBuf.rest = input.rest ∧
      (afterFrame packet input msgBuf).msgBuf = msgBuf ∧
      ∀ fault, (afterFrame packet input msgBuf).point ≠ .faulted fault := by
  rcases afterFrame_sound hsound hsmall packet msgBuf with ⟨_, hafter⟩ | hafter
  · rw [hafter]
    exact ⟨by simp [ByteBuffer.rest], rfl, by simp⟩
  · rw [hafter]
    exact ⟨rfl, rfl, by simp⟩

theorem WebSocketPacket.TakenFrom.rest_advance (hsound : input.Sound)
    (hsmall : input.data.length < 2 ^ 31)
    (htaken : TakenFrom input piece after packet) :
    input.rest = piece ++ after ∧ (input.advance piece.length).Sound ∧
      (input.advance piece.length).rest = after := by
  have hle : piece.length ≤ input.ahead.length := by
    rw [htaken.ahead, List.length_append]
    exact Nat.le_add_right _ _
  refine ⟨?_, hsound.advance hle, ?_⟩
  · rw [← ahead_eq_rest hsmall, htaken.ahead]
  · rw [← ahead_eq_rest (by rwa [advance_data]), hsound.ahead_advance hle, htaken.ahead,
      List.drop_left]

end Pass

/-- At the head of the parse loop at least a smallest frame is ahead. -/
theorem LoopState.OffsetInRange.parsing_sound {packet : WebSocketPacket}
    {recvBuf msgBuf : ByteBuffer}
    (hrange : OffsetInRange ⟨.parsing packet, recvBuf, msgBuf⟩) :
    recvBuf.Sound ∧ 2 ≤ recvBuf.ahead.length := by
  cases hrange with
  | between hpoint _ => exact absurd ⟨packet, rfl⟩ hpoint
  | parsing hahead =>
      have hsound : recvBuf.Sound := hahead.sound
      have hmore : recvBuf.getoft + websocketHeaderMinSize < recvBuf.length := hahead.more
      have hlength := hsound.length_ahead
      rw [hsound.getoft_eq, websocketHeaderMinSize] at hmore
      exact ⟨hsound, by omega⟩
  | faulted fault hpoint => cases hpoint

/-! ## Whole runs -/

theorem framesDecoded_snoc (moves : LoopMoves) (source target : LoopState) (event : LoopEvent) :
    framesDecoded (moves ++ [⟨source, event, target⟩]) =
      framesDecoded moves ++ event.exchanges.map Prod.fst := by
  simp [framesDecoded]

/-- The faults a run can end in. None is a read behind the end of a buffer, and
`vector::at` throws only where just an unmasked header is left. -/
def LoopState.FaultKnown (state : LoopState) : Prop :=
  ∀ fault, state.point = .faulted fault →
    fault.OfMessage ∨ fault = .outOfRange ∧ OnlyHeader state.recvBuf

/-- The run has received the pieces, from each of which it has decoded a frame,
and then what is left in `recv_buf`; and it has handled the frames one by one. -/
structure Accounts (pieces : List (List UInt8)) (moves : LoopMoves) (state : LoopState) :
    Prop where
  received : bytesReceived moves = pieces.flatten ++ state.recvBuf.rest
  spelled : List.Forall₂ Spells pieces (framesDecoded moves)
  two_le : ∀ piece ∈ pieces, 2 ≤ piece.length
  calls : messageCalls moves = (assemble (framesDecoded moves)).calls
  message : (∀ fault, state.point ≠ .faulted fault) →
    state.msgBuf = ⟨(assemble (framesDecoded moves)).message, 0⟩
  faults : state.FaultKnown

section Step

variable {parse : List UInt8 → Option JsonValue} {pieces : List (List UInt8)}
variable {moves : LoopMoves} {source target : LoopState} {event : LoopEvent}

/-- A step that decodes nothing. -/
theorem Accounts.snoc_quiet (haccounts : Accounts pieces moves source)
    (hrest : target.recvBuf.rest = source.recvBuf.rest ++ event.received)
    (hexchanges : event.exchanges = []) (hcalls : event.calls = [])
    (hmsgBuf : target.msgBuf = source.msgBuf) (hrunning : ∀ fault, source.point ≠ .faulted fault)
    (hfaults : target.FaultKnown) :
    Accounts pieces (moves ++ [⟨source, event, target⟩]) target := by
  have hframes : framesDecoded (moves ++ [⟨source, event, target⟩]) = framesDecoded moves := by
    rw [framesDecoded_snoc, hexchanges, List.map_nil, List.append_nil]
  refine ⟨?_, ?_, haccounts.two_le, ?_, ?_, hfaults⟩
  · rw [bytesReceived_snoc, haccounts.received, hrest, List.append_assoc]
  · rw [hframes]
    exact haccounts.spelled
  · rw [messageCalls_snoc, haccounts.calls, hcalls, List.append_nil, hframes]
  · intro _
    rw [hmsgBuf, haccounts.message hrunning, hframes]

/-- A step that decodes the frame of the next piece. -/
theorem Accounts.snoc_piece {piece : List UInt8} {frame : DecodedFrame} {next : Assembly}
    (haccounts : Accounts pieces moves source)
    (hrest : source.recvBuf.rest = piece ++ target.recvBuf.rest)
    (htwo : 2 ≤ piece.length) (hspells : Spells piece frame) (hreceived : event.received = [])
    (hexchanges : event.exchanges.map Prod.fst = [frame])
    (hadd : (assemble (framesDecoded moves)).add frame = next)
    (hcalls : (assemble (framesDecoded moves)).calls ++ event.calls = next.calls)
    (hmessage : (∀ fault, target.point ≠ .faulted fault) → target.msgBuf = ⟨next.message, 0⟩)
    (hfaults : target.FaultKnown) :
    Accounts (pieces ++ [piece]) (moves ++ [⟨source, event, target⟩]) target := by
  have hframes : framesDecoded (moves ++ [⟨source, event, target⟩]) =
      framesDecoded moves ++ [frame] := by
    rw [framesDecoded_snoc, hexchanges]
  have hassemble : assemble (framesDecoded (moves ++ [⟨source, event, target⟩])) = next := by
    rw [hframes, assemble_snoc, hadd]
  refine ⟨?_, ?_, ?_, ?_, ?_, hfaults⟩
  · rw [bytesReceived_snoc, haccounts.received, hrest, hreceived]
    simp
  · rw [hframes]
    exact List.rel_append haccounts.spelled (List.Forall₂.cons hspells .nil)
  · exact List.forall_mem_append.mpr ⟨haccounts.two_le, List.forall_mem_singleton.mpr htwo⟩
  · rw [messageCalls_snoc, haccounts.calls, hcalls, hassemble]
  · rw [hassemble]
    exact hmessage

theorem faultKnown_of_running (hrunning : ∀ fault, target.point ≠ .faulted fault) :
    target.FaultKnown :=
  fun fault hpoint => absurd hpoint (hrunning fault)

/-- **A pass accounts for the bytes it takes.** -/
theorem Accounts.pass {packet : WebSocketPacket} {recvBuf msgBuf : ByteBuffer}
    {pass : LoopEvent × LoopState}
    (haccounts : Accounts pieces moves ⟨.parsing packet, recvBuf, msgBuf⟩)
    (hsound : recvBuf.Sound) (hsmall : recvBuf.data.length < 2 ^ 31)
    (htakes : PassTakes recvBuf msgBuf pass) :
    ∃ pieces', Accounts pieces' (moves ++ [⟨⟨.parsing packet, recvBuf, msgBuf⟩, pass.1, pass.2⟩])
      pass.2 := by
  have hmessage : msgBuf = ⟨(assemble (framesDecoded moves)).message, 0⟩ :=
    haccounts.message (by simp)
  subst hmessage
  cases htakes with
  | incomplete hsize =>
      refine ⟨pieces, haccounts.snoc_quiet ?_ rfl rfl rfl (by simp) ?_⟩
      · rw [leaveParsing_sound hsound hsmall]
        simp [LoopEvent.received, ByteBuffer.rest]
      · exact faultKnown_of_running (by simp [leaveParsing])
  | thrown honly =>
      refine ⟨pieces, haccounts.snoc_quiet (by simp [LoopEvent.received]) rfl rfl rfl (by simp) ?_⟩
      intro fault hpoint
      exact Or.inr ⟨(LoopPoint.faulted.inj hpoint).symm, honly⟩
  | frame piece after packet' htaken hfin =>
      obtain ⟨hrest, hlater, hafter⟩ := htaken.rest_advance hsound hsmall
      obtain ⟨hkept, hmsgBuf, hrunning⟩ := afterFrame_keeps hlater (by rwa [advance_data]) packet'
        ⟨(assemble (framesDecoded moves)).message ++ packet'.payload.data, 0⟩
      refine ⟨pieces ++ [piece], haccounts.snoc_piece ?_ htaken.two_le htaken.spells rfl rfl
        (Assembly.add_of_not_fin _ hfin) (List.append_nil _) (fun _ => hmsgBuf)
        (faultKnown_of_running hrunning)⟩
      rw [hkept, hafter]
      exact hrest
  | message piece after packet' last htaken hfin =>
      obtain ⟨hrest, hlater, hafter⟩ := htaken.rest_advance hsound hsmall
      obtain ⟨hkept, hmsgBuf, hrunning⟩ :=
        afterFrame_keeps hlater (by rwa [advance_data]) last .empty
      refine ⟨pieces ++ [piece], haccounts.snoc_piece ?_ htaken.two_le htaken.spells rfl rfl
        (Assembly.add_of_fin _ hfin) rfl (fun _ => hmsgBuf) (faultKnown_of_running hrunning)⟩
      rw [hkept, hafter]
      exact hrest
  | failed piece after packet' fault htaken hfin hfault =>
      -- The message was handed over, and handling it failed.
      obtain ⟨hrest, _, hafter⟩ := htaken.rest_advance hsound hsmall
      refine ⟨pieces ++ [piece], haccounts.snoc_piece ?_ htaken.two_le htaken.spells rfl rfl
        (Assembly.add_of_fin _ hfin) rfl (fun hrunning => absurd rfl (hrunning fault)) ?_⟩
      · rw [hafter]
        exact hrest
      · intro fault' hpoint
        rw [← LoopPoint.faulted.inj hpoint]
        exact Or.inl hfault

theorem endReads_keeps (recvStartLen totalRecvLen : Int) (indeterminate : MaskingKey)
    (recvBuf msgBuf : ByteBuffer) :
    (endReads recvStartLen totalRecvLen indeterminate recvBuf msgBuf).msgBuf = msgBuf ∧
      ∀ fault, (endReads recvStartLen totalRecvLen indeterminate recvBuf msgBuf).point ≠
        .faulted fault := by
  unfold endReads
  split
  · exact ⟨rfl, by simp⟩
  · split
    · exact ⟨rfl, by simp⟩
    · exact ⟨rfl, by simp⟩

theorem readChunk_keeps (recvStartLen totalRecvLen : Int) (bytes : List UInt8) (pending : Int)
    (indeterminate : MaskingKey) (recvBuf msgBuf : ByteBuffer) :
    (readChunk recvStartLen totalRecvLen bytes pending indeterminate recvBuf msgBuf).msgBuf =
        msgBuf ∧
      ∀ fault, (readChunk recvStartLen totalRecvLen bytes pending indeterminate recvBuf
        msgBuf).point ≠ .faulted fault := by
  unfold readChunk
  rw [append_all recvBuf bytes rfl]
  dsimp only
  split
  · exact ⟨rfl, by simp⟩
  · exact endReads_keeps _ _ _ _ _

theorem Accounts.step (haccounts : Accounts pieces moves source) (hready : source.PacketReady)
    (hrange : source.OffsetInRange) (hsmall : source.recvBuf.data.length < 2 ^ 31)
    (hstep : LoopStep parse source event target) :
    ∃ pieces', Accounts pieces' (moves ++ [⟨source, event, target⟩]) target := by
  cases hstep with
  | enter recvBuf msgBuf =>
      exact ⟨pieces, haccounts.snoc_quiet (List.append_nil _).symm rfl rfl rfl (by simp)
        (faultKnown_of_running (by simp))⟩
  | sslRead recvStartLen totalRecvLen recvBuf msgBuf bytes pending indeterminate =>
      obtain ⟨hmsgBuf, hrunning⟩ := readChunk_keeps recvStartLen totalRecvLen bytes pending
        indeterminate recvBuf msgBuf
      refine ⟨pieces, haccounts.snoc_quiet ?_ rfl rfl hmsgBuf (by simp)
        (faultKnown_of_running hrunning)⟩
      have hoft : recvBuf.oft = 0 := hrange.oft_eq (by simp [Parsing]) (by simp)
      rw [readChunk_recvBuf]
      simp [LoopEvent.received, ByteBuffer.rest, hoft]
  | wouldBlock recvStartLen totalRecvLen recvBuf msgBuf =>
      exact ⟨pieces, haccounts.snoc_quiet (List.append_nil _).symm rfl rfl rfl (by simp)
        (faultKnown_of_running (by simp))⟩
  | failed recvStartLen totalRecvLen recvBuf msgBuf =>
      exact ⟨pieces, haccounts.snoc_quiet (List.append_nil _).symm rfl rfl rfl (by simp)
        (faultKnown_of_running (by simp))⟩
  | closed recvStartLen totalRecvLen recvBuf msgBuf indeterminate =>
      obtain ⟨hmsgBuf, hrunning⟩ := endReads_keeps recvStartLen totalRecvLen indeterminate recvBuf
        msgBuf
      refine ⟨pieces, haccounts.snoc_quiet ?_ rfl rfl hmsgBuf (by simp)
        (faultKnown_of_running hrunning)⟩
      rw [endReads_recvBuf]
      exact (List.append_nil _).symm
  | parse sslWrite packet recvBuf msgBuf =>
      obtain ⟨hsound, htwo⟩ := hrange.parsing_sound
      exact haccounts.pass hsound hsmall
        (parseOnce_takes parse sslWrite (hready packet rfl) hsound hsmall htwo msgBuf)

end Step

section Run

variable {parse : List UInt8 → Option JsonValue} {moves : LoopMoves} {state : LoopState}

/-- Before each step `recv_buf` and its offset are in range. -/
theorem source_in_range (hrun : Run (LoopStep parse) start moves state)
    (hsmall : ∀ move ∈ moves, move.target.recvBuf.data.length < 2 ^ 31) :
    state.recvBuf.data.length < 2 ^ 31 ∧ state.OffsetInRange := by
  refine ⟨recvBuf_in_range hrun hsmall, offsetInRange_of_run hrun ?_⟩
  intro move hmove
  obtain ⟨before, hbefore, _, hpart⟩ := hrun.exists_before hmove
  exact recvBuf_in_range hbefore fun earlier hmem =>
    hsmall earlier (hpart.subset (List.mem_append_left _ hmem))

theorem accounts_of_run (hrun : Run (LoopStep parse) start moves state)
    (hsmall : ∀ move ∈ moves, move.target.recvBuf.data.length < 2 ^ 31) :
    ∃ pieces, Accounts pieces moves state := by
  induction hrun with
  | nil => exact ⟨[], rfl, .nil, by simp, rfl, fun _ => rfl, fun _ hpoint => by cases hpoint⟩
  | @snoc moves source target event hprior hlast ih =>
      have hearlier : ∀ move ∈ moves, move.target.recvBuf.data.length < 2 ^ 31 :=
        fun move hmove => hsmall move (List.mem_append_left _ hmove)
      obtain ⟨pieces, haccounts⟩ := ih hearlier
      obtain ⟨hsource, hrange⟩ := source_in_range hprior hearlier
      exact haccounts.step (packetReady_of_run hprior) hrange hsource hlast

/-- Two frames of unknown opcodes are decoded, and a frame is cut short. -/
def strangeRun : LoopMoves × LoopState :=
  play [.enter, .sslRead [0x0B, 0x01, 0x61, 0x7C, 0x01, 0x62, 0x80, 0x05, 0x63] 0, .parse, .parse]

/-- **Every byte received is accounted for**, whatever the server sends and however
it is cut into reads. The bytes are those of the pieces the frames were decoded
from, without gap or overlap, and then those left in `recv_buf`; and messages
are put together from these frames alone. -/
theorem received_eq_pieces (hrun : Run (LoopStep parse) start moves state)
    (hsmall : ∀ move ∈ moves, move.target.recvBuf.data.length < 2 ^ 31) :
    ∃ pieces : List (List UInt8),
      bytesReceived moves = pieces.flatten ++ state.recvBuf.rest ∧
      List.Forall₂ Spells pieces (framesDecoded moves) ∧ (∀ piece ∈ pieces, 2 ≤ piece.length) ∧
      messageCalls moves = (assemble (framesDecoded moves)).calls ∧
      ((∀ fault, state.point ≠ .faulted fault) →
        state.msgBuf = ⟨(assemble (framesDecoded moves)).message, 0⟩) := by
  obtain ⟨pieces, haccounts⟩ := accounts_of_run hrun hsmall
  exact ⟨pieces, haccounts.received, haccounts.spelled, haccounts.two_le, haccounts.calls,
    haccounts.message⟩

theorem received_eq_pieces_strangeRun :
    ∃ pieces : List (List UInt8),
      bytesReceived strangeRun.1 = pieces.flatten ++ strangeRun.2.recvBuf.rest ∧
      List.Forall₂ Spells pieces (framesDecoded strangeRun.1) ∧
      (∀ piece ∈ pieces, 2 ≤ piece.length) ∧
      messageCalls strangeRun.1 = (assemble (framesDecoded strangeRun.1)).calls ∧
      ((∀ fault, strangeRun.2.point ≠ .faulted fault) →
        strangeRun.2.msgBuf = ⟨(assemble (framesDecoded strangeRun.1)).message, 0⟩) :=
  received_eq_pieces (play_run _) (by decide +kernel)

/-- **No bytes make the client read behind the end of a buffer.** A run ends in a
fault only while a message is handled, or where `vector::at` throws because
`recv_buf` ends with an unmasked header. -/
theorem fault_known (hrun : Run (LoopStep parse) start moves state)
    (hsmall : ∀ move ∈ moves, move.target.recvBuf.data.length < 2 ^ 31) :
    state.point ≠ .faulted .overrun ∧
      (state.point = .faulted .outOfRange → OnlyHeader state.recvBuf) := by
  obtain ⟨_, haccounts⟩ := accounts_of_run hrun hsmall
  constructor
  · intro hpoint
    rcases haccounts.faults _ hpoint with hmessage | ⟨hrange, _⟩
    · rcases hmessage with hlength | hassertion
      · cases hlength
      · cases hassertion
    · cases hrange
  · intro hpoint
    rcases haccounts.faults _ hpoint with hmessage | ⟨_, honly⟩
    · rcases hmessage with hlength | hassertion
      · cases hlength
      · cases hassertion
    · exact honly

theorem fault_known_strangeRun :
    strangeRun.2.point ≠ .faulted .overrun ∧
      (strangeRun.2.point = .faulted .outOfRange → OnlyHeader strangeRun.2.recvBuf) :=
  fault_known (play_run _) (by decide +kernel)

/-! ## What is kept in memory -/

/-- The pass leaves the parse loop. -/
def leavesParsing (move : Move LoopState LoopEvent) : Bool :=
  match move.source.point, move.target.point with
  | .parsing _, .head => true
  | _, _ => false

/-- How many bytes have come since the parse loop was last left. -/
def unparsed (moves : LoopMoves) : Nat :=
  moves.foldl (fun count move =>
    if leavesParsing move then 0 else count + move.action.received.length) 0

theorem unparsed_snoc (moves : LoopMoves) (move : Move LoopState LoopEvent) :
    unparsed (moves ++ [move]) =
      if leavesParsing move then 0 else unparsed moves + move.action.received.length := by
  simp [unparsed]

/-- What a pass does to the size of `recv_buf`. -/
inductive SizeAfter (recvBuf : ByteBuffer) (move : Move LoopState LoopEvent) : Prop
  | left (hleft : leavesParsing move = true) (hsize : move.target.recvBuf.data.length < 65549)
  | kept (hinside : leavesParsing move = false) (hdata : move.target.recvBuf.data = recvBuf.data)

theorem sizeAfter_afterFrame {source : LoopState} {packet last : WebSocketPacket}
    {recvBuf later : ByteBuffer} (hpoint : source.point = .parsing packet) (hsound : later.Sound)
    (hsmall : recvBuf.data.length < 2 ^ 31) (hdata : later.data = recvBuf.data) (event : LoopEvent)
    (msgBuf : ByteBuffer) : SizeAfter recvBuf ⟨source, event, afterFrame last later msgBuf⟩ := by
  rcases afterFrame_sound hsound (by rwa [hdata]) last msgBuf with ⟨hfive, hafter⟩ | hafter
  · rw [hafter]
    refine .left (by rw [leavesParsing, hpoint]) ?_
    change later.rest.length < 65549
    omega
  · rw [hafter]
    exact .kept (by rw [leavesParsing, hpoint]) hdata

/-- A pass that goes round or throws keeps `recv_buf`, and one that leaves the
loop leaves less than the largest frame with a 16-bit length. -/
theorem sizeAfter_of_takes (packet : WebSocketPacket) {recvBuf msgBuf : ByteBuffer}
    {pass : LoopEvent × LoopState} (hsound : recvBuf.Sound) (hsmall : recvBuf.data.length < 2 ^ 31)
    (htakes : PassTakes recvBuf msgBuf pass) :
    SizeAfter recvBuf ⟨⟨.parsing packet, recvBuf, msgBuf⟩, pass.1, pass.2⟩ := by
  cases htakes with
  | incomplete hsize =>
      rw [leaveParsing_sound hsound hsmall]
      rw [ahead_eq_rest hsmall] at hsize
      exact .left rfl hsize
  | thrown honly => exact .kept rfl rfl
  | frame piece after packet' htaken hfin =>
      dsimp only
      exact sizeAfter_afterFrame rfl (htaken.rest_advance hsound hsmall).2.1 hsmall
        (advance_data _ _) _ _
  | message piece after packet' last htaken hfin =>
      dsimp only
      exact sizeAfter_afterFrame rfl (htaken.rest_advance hsound hsmall).2.1 hsmall
        (advance_data _ _) _ _
  | failed piece after packet' fault htaken hfin hfault => exact .kept rfl rfl

theorem leavesParsing_of_not {move : Move LoopState LoopEvent} (hpoint : ¬ move.source.Parsing) :
    leavesParsing move = false := by
  unfold leavesParsing
  split
  next packet hparsing _ => exact absurd ⟨packet, hparsing⟩ hpoint
  · rfl

/-- A step that does not leave the parse loop adds what it receives. -/
theorem sizeAfter_step {source target : LoopState} {event : LoopEvent}
    (hready : source.PacketReady) (hrange : source.OffsetInRange)
    (hsmall : source.recvBuf.data.length < 2 ^ 31) (hstep : LoopStep parse source event target) :
    SizeAfter { source.recvBuf with data := source.recvBuf.data ++ event.received }
      ⟨source, event, target⟩ := by
  cases hstep with
  | parse sslWrite packet recvBuf msgBuf =>
      obtain ⟨hsound, htwo⟩ := hrange.parsing_sound
      have htakes := parseOnce_takes parse sslWrite (hready packet rfl) hsound hsmall htwo msgBuf
      have hafter := sizeAfter_of_takes packet hsound hsmall htakes
      have hnothing : (parseOnce parse sslWrite packet recvBuf msgBuf).1.received = [] := by
        generalize parseOnce parse sslWrite packet recvBuf msgBuf = pass at htakes
        cases htakes <;> rfl
      rw [hnothing, List.append_nil]
      exact hafter
  | sslRead recvStartLen totalRecvLen recvBuf msgBuf bytes pending indeterminate =>
      refine .kept (leavesParsing_of_not (by simp [Parsing])) ?_
      dsimp only
      rw [readChunk_recvBuf]
      rfl
  | closed recvStartLen totalRecvLen recvBuf msgBuf indeterminate =>
      refine .kept (leavesParsing_of_not (by simp [Parsing])) ?_
      dsimp only
      rw [endReads_recvBuf]
      exact (List.append_nil _).symm
  | _ =>
      exact .kept (leavesParsing_of_not (by simp [Parsing])) (List.append_nil _).symm

/-- **What the parse loop leaves in memory does not grow with what was received**:
`recv_buf` never holds more than 65548 bytes and those that came since. -/
theorem recvBuf_bounded (hrun : Run (LoopStep parse) start moves state)
    (hsmall : ∀ move ∈ moves, move.target.recvBuf.data.length < 2 ^ 31) :
    state.recvBuf.data.length ≤ 65548 + unparsed moves := by
  induction hrun with
  | nil => exact Nat.zero_le _
  | @snoc moves source target event hprior hlast ih =>
      obtain ⟨hsource, hrange⟩ := source_in_range hprior fun move hmove =>
        hsmall move (List.mem_append_left _ hmove)
      have hbefore := ih fun move hmove => hsmall move (List.mem_append_left _ hmove)
      rw [unparsed_snoc]
      cases sizeAfter_step (packetReady_of_run hprior) hrange hsource hlast with
      | left hleft hsize =>
          rw [if_pos hleft]
          dsimp only at hsize
          omega
      | kept hinside hdata =>
          rw [if_neg (by rw [hinside]; decide)]
          have hlength := congrArg List.length hdata
          rw [List.length_append] at hlength
          dsimp only at hlength ⊢
          omega

theorem recvBuf_bounded_strangeRun :
    strangeRun.2.recvBuf.data.length ≤ 65548 + unparsed strangeRun.1 :=
  recvBuf_bounded (play_run _) (by decide +kernel)

end Run

end CppFragments
