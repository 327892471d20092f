import CppFragments.Net.TextMessage
import CppFragments.WebSocket.Decoded

/-! # One pass through the parse loop

What a pass does when the bytes at the cursor are the next frame, or the
beginning of one.
-/

namespace CppFragments

open Outcome ByteBuffer WebSocketPacket LoopState

/-! ## `process_one_message` -/

/-- The faults of the handling of a message. None comes from a buffer access. -/
def Fault.OfMessage (fault : Fault) : Prop :=
  fault = .lengthError ∨ fault = .assertionFailed

section Message

variable {parse : List UInt8 → Option JsonValue}

theorem messageText_faultsOnly (msgBuf : ByteBuffer) :
    FaultsOnly Fault.OfMessage (messageText msgBuf) := by
  unfold messageText
  split
  · simp [Fault.OfMessage]
  · rw [load_message]
    simp

theorem findMember_faultsOnly (value : JsonValue) (name : String) :
    FaultsOnly Fault.OfMessage (value.findMember name) := by
  unfold JsonValue.findMember
  split <;> simp [Fault.OfMessage]

theorem hasMember_faultsOnly (value : JsonValue) (name : String) :
    FaultsOnly Fault.OfMessage (value.hasMember name) :=
  (findMember_faultsOnly value name).bind fun _ _ => by simp

theorem member_faultsOnly (value : JsonValue) (name : String) :
    FaultsOnly Fault.OfMessage (value.member name) := by
  refine (findMember_faultsOnly value name).bind fun found _ => ?_
  cases found <;> simp [Fault.OfMessage]

theorem hasMembers_faultsOnly (value : JsonValue) (names : List String) :
    FaultsOnly Fault.OfMessage (value.hasMembers names) := by
  induction names with
  | nil => simp [JsonValue.hasMembers]
  | cons name names ih =>
      refine (hasMember_faultsOnly value name).bind fun found _ => ?_
      cases found
      · simp
      · exact ih

theorem getString_faultsOnly (value : JsonValue) :
    FaultsOnly Fault.OfMessage value.getString := by
  cases value <;> simp [JsonValue.getString, Fault.OfMessage]

theorem getUint64_faultsOnly (value : JsonValue) :
    FaultsOnly Fault.OfMessage value.getUint64 := by
  cases value <;> simp [JsonValue.getUint64, Fault.OfMessage]

theorem readTicker_faultsOnly (value : JsonValue) :
    FaultsOnly Fault.OfMessage (readTicker value) := by
  have hstring : ∀ (name : String) (next : Except Fault Unit),
      FaultsOnly Fault.OfMessage next →
      FaultsOnly Fault.OfMessage (value.member name >>= fun found =>
        found.getString >>= fun _ => next) :=
    fun name next hnext => (member_faultsOnly value name).bind fun found _ =>
      (getString_faultsOnly found).bind fun _ _ => hnext
  unfold readTicker
  refine hstring "s" _ (hstring "b" _ (hstring "B" _ (hstring "a" _ (hstring "A" _ ?_))))
  exact (member_faultsOnly value "u").bind fun found _ =>
    (getUint64_faultsOnly found).bind fun _ _ => by simp

theorem processText_faultsOnly (msgBuf : ByteBuffer) :
    FaultsOnly Fault.OfMessage (processText parse msgBuf) := by
  refine (messageText_faultsOnly msgBuf).bind fun text _ => ?_
  cases parse text with
  | none => simp
  | some document =>
      refine (hasMember_faultsOnly document "data").bind fun hasData _ => ?_
      cases hasData
      · simp
      · refine (member_faultsOnly document "data").bind fun value _ => ?_
        refine (hasMembers_faultsOnly value _).bind fun hasFields _ => ?_
        cases hasFields
        · simp
        · exact (readTicker_faultsOnly value).bind fun _ _ => by simp

variable {packet : WebSocketPacket}

/-- The Ping branch writes the Pong, whatever `SSL_write` answers. -/
theorem answerPing_parsed (sslWrite : List UInt8 → Int) (hparsed : packet.Parsed) :
    ∃ result last, answerPing (some sslWrite) packet =
        .ok ⟨result, [packet.decoded.pong.encode], last⟩ ∧
      last.opcode = WSOpcode.Pong.code ∧ last.cleared.Ready := by
  let pong := packet.decoded.pong
  let pongPacket : WebSocketPacket := { packet with fin := 1, opcode := WSOpcode.Pong.code }
  have hle : packet.payload.data.length ≤ 65535 :=
    hparsed.payload_length ▸ hparsed.payloadLength_le
  have hsize : pong.encode.length < 2 ^ 31 := by
    have hheader := pong.length_header_le
    have hencode : pong.encode.length = _ + packet.payload.data.length := pong.length_encode
    omega
  have hpack : pongPacket.packDataframe .empty =
      .ok (0, pongPacket.packed pong, ⟨pong.encode, 0⟩) :=
    packDataframe_holds hparsed.pong_holds (Nat.lt_of_le_of_lt hle (by decide)) .empty
  have hlast : (pongPacket.packed pong).cleared.Ready :=
    ⟨hparsed.rsv1, hparsed.rsv2, hparsed.rsv3, hparsed.payloadLength_le, rfl⟩
  refine ⟨if sslWrite pong.encode ≤ 0 then 1 else 0, pongPacket.packed pong, ?_, rfl, hlast⟩
  simp only [answerPing]
  rw [hpack]
  simp only [ok_bind, pure_eq_ok]
  rw [bytes_take_length _ hsize]
  split <;> rfl

/-- `process_one_message` on a decoded frame enters the Text branch as its opcode says,
and writes the answers to it, unless the message makes it fail, and then there are
none. -/
theorem processOneMessage_parsed (parse : List UInt8 → Option JsonValue)
    (sslWrite : List UInt8 → Int) (hparsed : packet.Parsed) (msgBuf : ByteBuffer) :
    (∃ result last, processOneMessage parse (some sslWrite) packet msgBuf =
        ⟨packet.decoded.texts msgBuf.data, .ok ⟨result, packet.decoded.answers, last⟩⟩ ∧
          last.cleared.Ready) ∨
      ∃ fault, processOneMessage parse (some sslWrite) packet msgBuf =
        ⟨packet.decoded.texts msgBuf.data, .error fault⟩ ∧
          fault.OfMessage ∧ packet.decoded.answers = [] := by
  have hfield : packet.opcode = packet.decoded.opcode := rfl
  unfold processOneMessage DecodedFrame.answers DecodedFrame.texts
  simp only [hfield]
  by_cases hopcode : packet.decoded.opcode = WSOpcode.Ping.code
  · obtain ⟨result, last, hanswer, hpong, hlast⟩ := answerPing_parsed sslWrite hparsed
    have hnotText : last.opcode ≠ WSOpcode.Text.code := by
      rw [hpong]
      decide
    have hping : WSOpcode.Ping.code ≠ WSOpcode.Text.code := by decide
    simp only [hopcode, ↓reduceIte, hanswer, hnotText, hping, ite_self]
    exact Or.inl ⟨result, last, rfl, hlast⟩
  · simp only [hopcode, ↓reduceIte, ne_eq, not_true_eq_false, hfield]
    split
    · cases htext : processText parse msgBuf with
      | error fault =>
          exact Or.inr ⟨fault, rfl, processText_faultsOnly msgBuf fault htext, trivial⟩
      | ok result =>
          exact Or.inl ⟨result, _, rfl, hparsed.cleared⟩
    · exact Or.inl ⟨0, _, rfl, hparsed.cleared⟩

end Message

/-! ## The whole pass -/

section Pass

variable {packet : WebSocketPacket} {before after : List UInt8}

theorem leaveParsing_cursor (msgBuf : ByteBuffer) (hsmall : before.length + after.length < 2 ^ 31) :
    leaveParsing (cursor before after) msgBuf = ⟨.head, cursor [] after, msgBuf⟩ := by
  rw [leaveParsing, resetoft_erase_cursor hsmall]

/-- The parse loop is left when at most five bytes remain. -/
theorem afterFrame_cursor (packet : WebSocketPacket) (msgBuf : ByteBuffer)
    (hsmall : before.length + after.length < 2 ^ 31) :
    afterFrame packet (cursor before after) msgBuf =
      if after.length ≤ 5 then ⟨.head, cursor [] after, msgBuf⟩
      else ⟨.parsing packet.cleared, cursor before after, msgBuf⟩ := by
  have htest : (cursor before after).getoft + websocketHeaderMinSize ≥
      (cursor before after).length ↔ after.length ≤ 5 := by
    rw [getoft_cursor hsmall, length_cursor hsmall, websocketHeaderMinSize]
    omega
  unfold afterFrame
  simp only [htest, leaveParsing_cursor msgBuf hsmall]
  rfl

theorem decodeFrame_frame (hready : packet.Ready) (frame : ShortFrame) (message : List UInt8)
    (hmore : 6 ≤ frame.encode.length + after.length)
    (hsmall : before.length + frame.encode.length + after.length < 2 ^ 31) :
    decodeFrame packet (cursor before (frame.encode ++ after)) ⟨message, 0⟩ =
      .ok (some (packet.withFrame frame.toFrame, ⟨message ++ frame.payload, 0⟩),
        cursor (before ++ frame.encode) after) := by
  have hsize : frame.encode.length = frame.toFrame.header.length + frame.payload.length :=
    frame.toFrame.length_encode
  have hpos : 2 ≤ frame.toFrame.header.length := by
    simp [Frame.header, Frame.lead]
  have hbody : frame.toFrame.body ++ after ≠ [] ∨ frame.toFrame.key?.isSome := by
    cases hkey : frame.key? with
    | some key => exact Or.inr rfl
    | none =>
        -- Without a key, an empty frame has two bytes, so four more follow it.
        refine Or.inl fun hnil => ?_
        obtain ⟨hnobody, hnil⟩ := List.append_eq_nil_iff.mp hnil
        have hempty : frame.payload.length = 0 := by
          rw [← show frame.toFrame.body.length = frame.payload.length from
            frame.toFrame.length_body, hnobody]
          rfl
        have hheader : frame.toFrame.header.length = 2 := by
          simp [Frame.header, Frame.lead, Frame.lengthBytes, hkey, hempty]
        rw [hnil, List.length_nil] at hmore
        omega
  have hrecv : recvDataframe packet (cursor before (frame.encode ++ after)) =
      .ok (UInt64.ofNat (before.length + frame.encode.length), packet.withFrame frame.toFrame,
        cursor (before ++ frame.encode) after) :=
    recvDataframe_encode packet frame.toFrame before after frame.payload_le hbody hsmall
  have hoffset : (UInt64.ofNat (before.length + frame.encode.length)).toUInt32 ≠ 0 :=
    toUInt32_ofNat_ne_zero (by omega) (by omega)
  have happend := append_bytes ⟨message, 0⟩ (packet.withFrame frame.toFrame).payload
    (by rw [hready.withFrame_payload frame]; exact frame.payload_lt_int)
  unfold decodeFrame
  rw [hrecv]
  simp only [ok_bind]
  rw [if_neg hoffset, happend]
  simp only [ok_bind, pure_eq_ok, hready.withFrame_payload frame]

/-- **A pass takes exactly the next frame**, whatever the packet decoded
before. If the frame ends a message the message is handed over, and handling it
may fail. -/
theorem parseOnce_frame (parse : List UInt8 → Option JsonValue) (sslWrite : List UInt8 → Int)
    (hready : packet.Ready) (frame : ShortFrame) (message : List UInt8)
    (hmore : 6 ≤ frame.encode.length + after.length)
    (hsmall : before.length + frame.encode.length + after.length < 2 ^ 31) :
    let decoded := packet.withFrame frame.toFrame
    let recvBuf := cursor (before ++ frame.encode) after
    let msgBuf : ByteBuffer := ⟨message ++ frame.payload, 0⟩
    let pass := parseOnce parse sslWrite packet (cursor before (frame.encode ++ after)) ⟨message, 0⟩
    if frame.fin then
      (∃ last, last.cleared.Ready ∧
        pass = (.message decoded msgBuf frame.decoded.answers (frame.decoded.texts msgBuf.data),
          afterFrame last recvBuf .empty)) ∨
      ∃ fault, fault.OfMessage ∧ frame.decoded.answers = [] ∧
        pass = (.message decoded msgBuf [] (frame.decoded.texts msgBuf.data),
          ⟨.faulted fault, recvBuf, msgBuf⟩)
    else pass = (.frame decoded, afterFrame decoded recvBuf msgBuf) := by
  have hdecode := decodeFrame_frame hready frame message hmore hsmall
  have hfin : (packet.withFrame frame.toFrame).fin = 1 ↔ frame.fin = true := frame.decoded_fin
  simp only
  rw [parseOnce, hdecode, afterDecode]
  simp only [hfin]
  by_cases hlast : frame.fin = true
  · rw [if_pos hlast, if_pos hlast]
    rw [← hready.decoded_withFrame frame]
    rcases processOneMessage_parsed parse sslWrite (hready.withFrame_parsed frame)
      ⟨message ++ frame.payload, 0⟩ with ⟨result, last, hok, hnext⟩ | ⟨fault, herror, hfault, hnone⟩
    · rw [hok]
      exact Or.inl ⟨last, hnext, rfl⟩
    · rw [herror]
      exact Or.inr ⟨fault, hfault, hnone, rfl⟩
  · rw [if_neg hlast, if_neg hlast]

theorem decodeFrame_of_missing {packet packet' : WebSocketPacket} {recvBuf recvBuf' : ByteBuffer}
    (msgBuf : ByteBuffer) (hrecv : recvDataframe packet recvBuf = .ok (0, packet', recvBuf')) :
    decodeFrame packet recvBuf msgBuf = .ok (none, recvBuf') := by
  unfold decodeFrame
  rw [hrecv]
  simp only [ok_bind]
  rw [if_pos (by decide), pure_eq_ok]

/-- A pass on the beginning of a frame gives up and leaves the bytes. -/
theorem parseOnce_partial (parse : List UInt8 → Option JsonValue) (packet : WebSocketPacket)
    (sslWrite : List UInt8 → Int) (frame : ShortFrame)
    (message : List UInt8) {received : List UInt8} (hseen : received <+: frame.encode)
    (hshort : received.length < frame.encode.length) (hsix : 6 ≤ received.length)
    (hsmall : before.length + received.length < 2 ^ 31) :
    parseOnce parse sslWrite packet (cursor before received) ⟨message, 0⟩ =
      (.incomplete, ⟨.head, cursor [] received, ⟨message, 0⟩⟩) := by
  obtain ⟨packet', hrecv, _⟩ := recvDataframe_partial packet frame.toFrame before received
    frame.payload_le hseen hshort hsix hsmall
  have hdecode : decodeFrame packet (cursor before received) ⟨message, 0⟩ =
      .ok (none, cursor before received) :=
    decodeFrame_of_missing _ hrecv
  rw [parseOnce, hdecode, afterDecode, leaveParsing_cursor _ hsmall]

end Pass

end CppFragments
