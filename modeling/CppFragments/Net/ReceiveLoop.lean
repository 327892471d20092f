import CppFragments.Transition.Run
import CppFragments.Util.WebSocketPacket

/-! # The receive loop of the TLS clients

`process_one_message` and `read_and_process_message` of `net/wss_client.cpp`
and `net/wss_client_okx.cpp`. One call into the TLS library or one pass through
the parse loop is one transition. What goes to the console is left out.
-/

namespace CppFragments

open ByteBuffer WebSocketPacket

/-! ## The documents of the JSON library -/

/-- A parsed value, as far as the client looks into one. Of the numbers only
those that `GetUint64` accepts keep their value. -/
inductive JsonValue
  | null
  | bool
  | number
  | uint64 (value : UInt64)
  | string (text : List UInt8)
  | array
  | object (members : List (List UInt8 × JsonValue))

namespace JsonValue

/-- `FindMember`, whose assertion demands an object. -/
def findMember (value : JsonValue) (name : String) : Except Fault (Option JsonValue) :=
  match value with
  | .object members => .ok (members.lookup (literal name))
  | _ => .error .assertionFailed

def hasMember (value : JsonValue) (name : String) : Except Fault Bool := do
  let found ← value.findMember name
  return found.isSome

/-- `operator[]`, whose assertion demands the member. -/
def member (value : JsonValue) (name : String) : Except Fault JsonValue := do
  match ← value.findMember name with
  | some found => return found
  | none => .error .assertionFailed

def getString : JsonValue → Except Fault (List UInt8)
  | .string text => .ok text
  | _ => .error .assertionFailed

def getUint64 : JsonValue → Except Fault UInt64
  | .uint64 value => .ok value
  | _ => .error .assertionFailed

/-- The `&&` of the field checks: a later name is looked up only if the
earlier ones are there. -/
def hasMembers (value : JsonValue) : List String → Except Fault Bool
  | [] => .ok true
  | name :: names => do
      if ← value.hasMember name then value.hasMembers names else return false

end JsonValue

/-! ## Handling one message -/

/-- The bytes `Parse` sees: up to the first NUL of the message. -/
def messageText (msgBuf : ByteBuffer) : Except Fault (List UInt8) :=
  if msgBuf.length < 0 then .error .lengthError
  else do
    let text ← load msgBuf.bytes msgBuf.length.toNat
    return text.takeWhile (· ≠ 0)

/-- The fields of a `TickerInfo` are read, then only printed. -/
def readTicker (value : JsonValue) : Except Fault Unit := do
  let _symbol ← (← value.member "s").getString
  let _bestBid ← (← value.member "b").getString
  let _bidSize ← (← value.member "B").getString
  let _bestAsk ← (← value.member "a").getString
  let _askSize ← (← value.member "A").getString
  let _updateId ← (← value.member "u").getUint64
  return ()

/-- The Text branch of `process_one_message`. -/
def processText (parse : List UInt8 → Option JsonValue) (msgBuf : ByteBuffer) :
    Except Fault Int := do
  let text ← messageText msgBuf
  match parse text with
  | none => return 1
  | some document =>
      if !(← document.hasMember "data") then return 1
      let value ← document.member "data"
      if ← value.hasMembers ["s", "b", "B", "a", "A", "u"] then
        readTicker value
      return 0

/-- What a call of `process_one_message` leaves behind when it returns. -/
structure Processed where
  result : Int
  /-- The byte strings handed to `SSL_write`. -/
  writes : List (List UInt8)
  packet : WebSocketPacket

/-- A call of `process_one_message`, also one that does not return. -/
structure Handling where
  /-- `msg_buf` at every entry of the Text branch. -/
  texts : List (List UInt8)
  outcome : Except Fault Processed

/-- The Ping branch. The packet that was decoded is turned into the Pong. `ssl`
is a null pointer or what `SSL_write` answers. -/
def answerPing (ssl : Option (List UInt8 → Int)) (packet : WebSocketPacket) :
    Except Fault Processed := do
  match ssl with
  | none => return ⟨1, [], packet⟩
  | some sslWrite =>
      let packet := { packet with fin := 1, opcode := WSOpcode.Pong.code }
      let (_, packet, pongBuf) ← packet.packDataframe .empty
      let written := pongBuf.bytes.take pongBuf.length.toNat
      if sslWrite written ≤ 0 then return ⟨1, [written], packet⟩
      return ⟨0, [written], packet⟩

def processOneMessage (parse : List UInt8 → Option JsonValue) (ssl : Option (List UInt8 → Int))
    (packet : WebSocketPacket) (msgBuf : ByteBuffer) : Handling :=
  let answered :=
    if packet.opcode = WSOpcode.Ping.code then answerPing ssl packet else .ok ⟨0, [], packet⟩
  match answered with
  | .error fault => ⟨[], .error fault⟩
  | .ok answered =>
      -- The early returns of the Ping branch.
      if answered.result ≠ 0 then ⟨[], .ok answered⟩
      else if answered.packet.opcode = WSOpcode.Text.code then
        ⟨[msgBuf.data], do
          let result ← processText parse msgBuf
          return { answered with result := result }⟩
      else ⟨[], .ok answered⟩

/-! ## The loop -/

def websocketHeaderMinSize : Int := 5

/-- Where `read_and_process_message` is, with the locals alive there. -/
inductive LoopPoint
  /-- At the head of the outer loop. -/
  | head
  /-- In the reading loop, with `recv_start_len` and `total_recv_len`. -/
  | reading (recvStartLen totalRecvLen : Int)
  /-- At the head of the parse loop, with `ws_packet`. -/
  | parsing (wsPacket : WebSocketPacket)
  | returned (result : Bool)
  | faulted (fault : Fault)
  deriving DecidableEq

structure LoopState where
  point : LoopPoint
  recvBuf : ByteBuffer
  msgBuf : ByteBuffer
  deriving DecidableEq

inductive LoopEvent
  | enter
  /-- `SSL_read` returned these bytes, and `SSL_pending` then this count. -/
  | sslRead (bytes : List UInt8) (pending : Int)
  /-- `SSL_read` failed with `SSL_ERROR_WANT_READ` or `SSL_ERROR_WANT_WRITE`. -/
  | wouldBlock
  /-- `SSL_read` failed with another error. -/
  | failed
  /-- `SSL_read` returned 0. -/
  | closed
  /-- `recv_dataframe` returned 0. -/
  | incomplete
  /-- A frame without FIN was decoded into the packet. -/
  | frame (packet : WebSocketPacket)
  /-- A frame with FIN was decoded into the packet and `process_one_message`
  called with this `msg_buf`. It handed `writes` to `SSL_write` and entered its Text
  branch with `texts`. -/
  | message (packet : WebSocketPacket) (msgBuf : ByteBuffer) (writes texts : List (List UInt8))
  /-- The pass through the parse loop ended in a fault before any call. -/
  | fault (fault : Fault)
  deriving DecidableEq

namespace LoopState

/-- `read_and_process_message` as entered, on an `ssl` that is not null. -/
def start : LoopState := ⟨.head, .empty, .empty⟩

/-- From the end of the reading loop to the next blocking point. A constructed
packet has an arbitrary masking key. The sum of the entry test is one of `int`; it is
taken exactly, since it can leave that range only from an offset of `2 ^ 31 - 5` on. No
connection comes to such an offset, with nothing pending after each TLS record. -/
def endReads (recvStartLen totalRecvLen : Int) (indeterminate : MaskingKey)
    (recvBuf msgBuf : ByteBuffer) : LoopState :=
  if totalRecvLen ≤ 0 then ⟨.returned false, recvBuf, msgBuf⟩
  else if recvBuf.length > recvStartLen ∧
      recvBuf.length > recvBuf.getoft + websocketHeaderMinSize then
    ⟨.parsing (new indeterminate), recvBuf, msgBuf⟩
  else ⟨.head, recvBuf, msgBuf⟩

def readChunk (recvStartLen totalRecvLen : Int) (bytes : List UInt8) (pending : Int)
    (indeterminate : MaskingKey) (recvBuf msgBuf : ByteBuffer) : LoopState :=
  match recvBuf.append bytes bytes.length with
  | .error fault => ⟨.faulted fault, recvBuf, msgBuf⟩
  | .ok recvBuf =>
      let totalRecvLen := toInt32 (totalRecvLen + bytes.length)
      if pending > 0 then ⟨.reading recvStartLen totalRecvLen, recvBuf, msgBuf⟩
      else endReads recvStartLen totalRecvLen indeterminate recvBuf msgBuf

/-- Leaving the parse loop: the bytes read are erased. -/
def leaveParsing (recvBuf msgBuf : ByteBuffer) : LoopState :=
  ⟨.head, (recvBuf.erase recvBuf.getoft).resetoft, msgBuf⟩

/-- The end of a pass that decoded a frame: leave the loop, or go round with an
empty payload. The sum is taken exactly, as in `endReads`. -/
def afterFrame (packet : WebSocketPacket) (recvBuf msgBuf : ByteBuffer) : LoopState :=
  if recvBuf.getoft + websocketHeaderMinSize ≥ recvBuf.length then leaveParsing recvBuf msgBuf
  else ⟨.parsing { packet with payload := packet.payload.clear }, recvBuf, msgBuf⟩

/-- The part of a pass before the test of FIN: decode a frame and append its
payload to `msg_buf`. The result is `none` where more data is needed. -/
def decodeFrame (packet : WebSocketPacket) (recvBuf msgBuf : ByteBuffer) :
    Except Fault (Option (WebSocketPacket × ByteBuffer) × ByteBuffer) := do
  let (offset, packet, recvBuf) ← packet.recvDataframe recvBuf
  -- `offset` is a `uint32_t`
  if offset.toUInt32 = 0 then return (none, recvBuf)
  let msgBuf ← msgBuf.append packet.payload.bytes packet.payload.length
  return (some (packet, msgBuf), recvBuf)

/-- The end of a pass that called `process_one_message`. -/
def afterMessage (packet : WebSocketPacket) (recvBuf msgBuf : ByteBuffer) (handling : Handling) :
    LoopEvent × LoopState :=
  match handling.outcome with
  | .error fault =>
      (.message packet msgBuf [] handling.texts, ⟨.faulted fault, recvBuf, msgBuf⟩)
  | .ok processed => (.message packet msgBuf processed.writes handling.texts,
      afterFrame processed.packet recvBuf msgBuf.clear)

/-- The rest of a pass, given what `decodeFrame` came to. -/
def afterDecode (parse : List UInt8 → Option JsonValue) (sslWrite : List UInt8 → Int)
    (recvBuf msgBuf : ByteBuffer) :
    Except Fault (Option (WebSocketPacket × ByteBuffer) × ByteBuffer) → LoopEvent × LoopState
  | .error fault => (.fault fault, ⟨.faulted fault, recvBuf, msgBuf⟩)
  | .ok (none, recvBuf) => (.incomplete, leaveParsing recvBuf msgBuf)
  | .ok (some (packet, msgBuf), recvBuf) =>
      if packet.fin = 1 then
        afterMessage packet recvBuf msgBuf
          (processOneMessage parse (some sslWrite) packet msgBuf)
      else (.frame packet, afterFrame packet recvBuf msgBuf)

/-- One pass through the parse loop. -/
def parseOnce (parse : List UInt8 → Option JsonValue) (sslWrite : List UInt8 → Int)
    (packet : WebSocketPacket) (recvBuf msgBuf : ByteBuffer) : LoopEvent × LoopState :=
  afterDecode parse sslWrite recvBuf msgBuf (decodeFrame packet recvBuf msgBuf)

end LoopState

open LoopState in
/-- The transitions of `read_and_process_message`. What the TLS library answers,
and how a JSON text parses, is left open. -/
inductive LoopStep (parse : List UInt8 → Option JsonValue) :
    LoopState → LoopEvent → LoopState → Prop
  | enter (recvBuf msgBuf : ByteBuffer) :
      LoopStep parse ⟨.head, recvBuf, msgBuf⟩ .enter
        ⟨.reading recvBuf.length 0, recvBuf, msgBuf⟩
  | sslRead (recvStartLen totalRecvLen : Int) (recvBuf msgBuf : ByteBuffer)
      (bytes : List UInt8) (pending : Int) (indeterminate : MaskingKey)
      (hne : bytes ≠ []) (hmax : bytes.length ≤ 1023) :
      LoopStep parse ⟨.reading recvStartLen totalRecvLen, recvBuf, msgBuf⟩
        (.sslRead bytes pending)
        (readChunk recvStartLen totalRecvLen bytes pending indeterminate recvBuf msgBuf)
  | wouldBlock (recvStartLen totalRecvLen : Int) (recvBuf msgBuf : ByteBuffer) :
      LoopStep parse ⟨.reading recvStartLen totalRecvLen, recvBuf, msgBuf⟩ .wouldBlock
        ⟨.head, recvBuf, msgBuf⟩
  | failed (recvStartLen totalRecvLen : Int) (recvBuf msgBuf : ByteBuffer) :
      LoopStep parse ⟨.reading recvStartLen totalRecvLen, recvBuf, msgBuf⟩ .failed
        ⟨.returned false, recvBuf, msgBuf⟩
  | closed (recvStartLen totalRecvLen : Int) (recvBuf msgBuf : ByteBuffer)
      (indeterminate : MaskingKey) :
      LoopStep parse ⟨.reading recvStartLen totalRecvLen, recvBuf, msgBuf⟩ .closed
        (endReads recvStartLen totalRecvLen indeterminate recvBuf msgBuf)
  | parse (sslWrite : List UInt8 → Int) (packet : WebSocketPacket) (recvBuf msgBuf : ByteBuffer) :
      LoopStep parse ⟨.parsing packet, recvBuf, msgBuf⟩
        (parseOnce parse sslWrite packet recvBuf msgBuf).1
        (parseOnce parse sslWrite packet recvBuf msgBuf).2

/-! ## Replaying a run -/

inductive LoopInput
  | enter
  | sslRead (bytes : List UInt8) (pending : Int)
  | wouldBlock
  | failed
  | closed
  | parse

/-- The transition an input selects, where one is possible. -/
def LoopState.next (parse : List UInt8 → Option JsonValue) (sslWrite : List UInt8 → Int)
    (indeterminate : MaskingKey) (state : LoopState) (input : LoopInput) :
    Option (LoopEvent × LoopState) :=
  match state, input with
  | ⟨.head, recvBuf, msgBuf⟩, .enter => some (.enter, ⟨.reading recvBuf.length 0, recvBuf, msgBuf⟩)
  | ⟨.reading recvStartLen totalRecvLen, recvBuf, msgBuf⟩, .sslRead bytes pending =>
      if bytes ≠ [] ∧ bytes.length ≤ 1023 then
        some (.sslRead bytes pending,
          readChunk recvStartLen totalRecvLen bytes pending indeterminate recvBuf msgBuf)
      else none
  | ⟨.reading _ _, recvBuf, msgBuf⟩, .wouldBlock => some (.wouldBlock, ⟨.head, recvBuf, msgBuf⟩)
  | ⟨.reading _ _, recvBuf, msgBuf⟩, .failed =>
      some (.failed, ⟨.returned false, recvBuf, msgBuf⟩)
  | ⟨.reading recvStartLen totalRecvLen, recvBuf, msgBuf⟩, .closed =>
      some (.closed, endReads recvStartLen totalRecvLen indeterminate recvBuf msgBuf)
  | ⟨.parsing packet, recvBuf, msgBuf⟩, .parse =>
      some (parseOnce parse sslWrite packet recvBuf msgBuf)
  | _, _ => none

theorem LoopState.next_sound {parse : List UInt8 → Option JsonValue}
    {sslWrite : List UInt8 → Int} {indeterminate : MaskingKey} (state : LoopState)
    (input : LoopInput) (pass : LoopEvent × LoopState)
    (hnext : state.next parse sslWrite indeterminate input = some pass) :
    LoopStep parse state pass.1 pass.2 := by
  unfold next at hnext
  split at hnext
  · cases hnext
    exact .enter _ _
  · split at hnext
    next hbytes =>
      cases hnext
      dsimp only
      exact .sslRead _ _ _ _ _ _ _ hbytes.1 hbytes.2
    next => cases hnext
  · cases hnext
    exact .wouldBlock _ _ _ _
  · cases hnext
    exact .failed _ _ _ _
  · cases hnext
    dsimp only
    exact .closed _ _ _ _ _
  next packet recvBuf msgBuf =>
    rw [← Option.some.inj hnext]
    exact .parse sslWrite packet recvBuf msgBuf
  · cases hnext

end CppFragments
