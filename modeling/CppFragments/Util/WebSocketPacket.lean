import CppFragments.Util.ByteBuffer

/-! # The packet class of `util/ws/ws_packet`

One object decodes frames from a buffer and packs frames into a buffer. Both
directions share its header fields and its payload buffer.
-/

namespace CppFragments

/-- The four bytes of `masking_key_`. -/
abbrev MaskingKey := Vector UInt8 4

/-- `masking_key[i % 4]`. -/
def MaskingKey.byteAt (key : MaskingKey) (i : Nat) : UInt8 := key[i % 4]

structure WebSocketPacket where
  fin : UInt8
  rsv1 : UInt8
  rsv2 : UInt8
  rsv3 : UInt8
  opcode : UInt8
  mask : UInt8
  lengthType : UInt8
  maskingKey : MaskingKey
  payloadLength : UInt64
  payload : ByteBuffer
  deriving DecidableEq

/-- `WSOpcodeType`. -/
inductive WSOpcode
  | Continue
  | Text
  | Binary
  | Close
  | Ping
  | Pong
  deriving DecidableEq, Repr

def WSOpcode.code : WSOpcode → UInt8
  | .Continue => 0x0
  | .Text => 0x1
  | .Binary => 0x2
  | .Close => 0x8
  | .Ping => 0x9
  | .Pong => 0xA

namespace WebSocketPacket

/-- A constructed packet. The constructor leaves `masking_key_` uninitialised
(its one write to the array is past the end), so the key is arbitrary. -/
def new (indeterminate : MaskingKey) : WebSocketPacket where
  fin := 0
  rsv1 := 0
  rsv2 := 0
  rsv3 := 0
  opcode := 0
  mask := 0
  lengthType := 0
  maskingKey := indeterminate
  payloadLength := 0
  payload := .empty

/-! ## Decoding -/

/-- Read one byte over `old`, which stays if no byte is left. -/
def readByte (input : ByteBuffer) (old : UInt8) : Except Fault (UInt8 × ByteBuffer) := do
  let (copied, input) ← input.readBytesX 1
  return ((copied.getD [old]).headD old, input)

/-- The payload length part of `fetch_frame_info`. -/
def fetchLength (packet : WebSocketPacket) (input : ByteBuffer) :
    Except Fault (WebSocketPacket × ByteBuffer) := do
  if packet.lengthType < 126 then
    return ({ packet with payloadLength := packet.lengthType.toUInt64 }, input)
  else if packet.lengthType = 126 then
    let (copied, input) ← input.readBytesX 2
    let array := copied.getD [0, 0]
    let len := ((array.getD 0 0).toUInt16 <<< 8) ||| (array.getD 1 0).toUInt16
    return ({ packet with payloadLength := len.toUInt64 }, input)
  else if packet.lengthType = 127 then
    -- The eight bytes are assembled into a local `len` that nothing reads:
    -- `payload_length_` keeps the value it had before the call. Formally the shifts of
    -- an `int` by 32 and more are undefined; here they are taken to have no effect.
    let (_, input) ← input.readBytesX 8
    return (packet, input)
  else
    return (packet, input)

/-- The masking key part of `fetch_frame_info`. -/
def fetchKey (packet : WebSocketPacket) (input : ByteBuffer) :
    Except Fault (WebSocketPacket × ByteBuffer) := do
  if packet.mask = 1 then
    let (copied, input) ← input.readBytesX 4
    let array := copied.getD packet.maskingKey.toList
    return ({ packet with maskingKey := Vector.ofFn fun i => array.getD i 0 }, input)
  else
    return (packet, input)

def fetchFrameInfo (packet : WebSocketPacket) (input : ByteBuffer) :
    Except Fault (Int × WebSocketPacket × ByteBuffer) := do
  let (onebyte, input) ← readByte input 0
  let packet := { packet with fin := onebyte >>> 7, opcode := onebyte &&& 0x7F }
  let (onebyte, input) ← readByte input onebyte
  let packet := { packet with
    mask := (onebyte >>> 7) &&& 0x01
    lengthType := onebyte &&& 0x7F }
  let (packet, input) ← fetchLength packet input
  let (packet, input) ← fetchKey packet input
  return (input.getoft, packet, input)

/-- The masked loop of `fetch_payload` and of `pack_dataframe`, with
`remaining` iterations to go at index `i`. Each consumes a byte of `source` and
appends its xor with the key to `target`; `value` is kept between iterations. -/
def copyMasked (key : MaskingKey) : Nat → Nat → UInt8 → ByteBuffer → ByteBuffer →
    Except Fault (ByteBuffer × ByteBuffer)
  | 0, _, _, source, target => .ok (source, target)
  | remaining + 1, i, value, source, target => do
      let (value, source) ← readByte source value
      let value := value ^^^ key.byteAt i
      let target ← target.append [value] 1
      copyMasked key remaining (i + 1) value source target

def fetchPayload (packet : WebSocketPacket) (input : ByteBuffer) :
    Except Fault (WebSocketPacket × ByteBuffer) := do
  if packet.mask = 1 then
    let (input, payload) ←
      copyMasked packet.maskingKey packet.payloadLength.toNat 0 0 input packet.payload
    return ({ packet with payload := payload }, input)
  else
    let size := toInt32 packet.payloadLength.toNat
    let payload ← packet.payload.append (← input.curat) size
    let input := (input.skipX size).2
    return ({ packet with payload := payload }, input)

/-- Try to decode one frame: 0 asks for more data, another value is the offset
after the frame. -/
def recvDataframe (packet : WebSocketPacket) (input : ByteBuffer) :
    Except Fault (UInt64 × WebSocketPacket × ByteBuffer) := do
  let oft := input.getoft
  let (headerSize, packet, input) ← fetchFrameInfo packet input
  if packet.payloadLength + UInt64.ofInt headerSize > UInt64.ofInt input.length then
    let input := input.resetoft
    let input := (input.skipX oft).2
    return (0, packet, input)
  let (packet, input) ← fetchPayload packet input
  return (UInt64.ofInt input.getoft, packet, input)

/-! ## Packing -/

def setPayload (packet : WebSocketPacket) (buf : List UInt8) (size : UInt64) :
    Except Fault WebSocketPacket := do
  let payload ← packet.payload.append buf (toInt32 size.toNat)
  return { packet with payload := payload, payloadLength := UInt64.ofInt payload.length }

def getLengthType (packet : WebSocketPacket) : UInt8 :=
  if packet.payloadLength < 126 then packet.payloadLength.toUInt8
  else if packet.payloadLength ≥ 126 ∧ packet.payloadLength ≤ 0xFFFF then 126
  else 127

/-- Append the low byte of `value >> shift` for each of the shifts. -/
def appendShifted (value : UInt64) : List UInt64 → ByteBuffer → Except Fault ByteBuffer
  | [], output => .ok output
  | shift :: shifts, output => do
      let output ← output.append [((value >>> shift) &&& 0xFF).toUInt8] 1
      appendShifted value shifts output

def packDataframe (packet : WebSocketPacket) (output : ByteBuffer) :
    Except Fault (Int × WebSocketPacket × ByteBuffer) := do
  let onebyte : UInt8 := 0
  let onebyte := onebyte ||| (packet.fin <<< 7)
  let onebyte := onebyte ||| (packet.rsv1 <<< 6)
  let onebyte := onebyte ||| (packet.rsv2 <<< 5)
  let onebyte := onebyte ||| (packet.rsv3 <<< 4)
  let onebyte := onebyte ||| (packet.opcode &&& 0x0F)
  let output ← output.append [onebyte] 1
  let onebyte : UInt8 := 0
  let onebyte := onebyte ||| (packet.mask <<< 7)
  let lengthType := packet.getLengthType
  if lengthType < 126 then
    let output ← output.append [onebyte ||| packet.payloadLength.toUInt8] 1
    packPayload packet output
  else if lengthType = 126 then
    let output ← output.append [onebyte ||| lengthType] 1
    let output ← appendShifted packet.payloadLength [8, 0] output
    packPayload packet output
  else if lengthType = 127 then
    let output ← output.append [onebyte ||| lengthType] 1
    let output ← appendShifted packet.payloadLength [56, 48, 40, 32, 24, 16, 8, 0] output
    packPayload packet output
  else
    return (-1, packet, output)
where
  /-- From the masking key to the end, common to the three length forms. -/
  packPayload (packet : WebSocketPacket) (output : ByteBuffer) :
      Except Fault (Int × WebSocketPacket × ByteBuffer) := do
    if packet.mask = 1 then
      let output ← output.append packet.maskingKey.toList 4
      let (payload, output) ←
        copyMasked packet.maskingKey packet.payloadLength.toNat 0 0 packet.payload output
      return (0, { packet with payload := payload }, output)
    else
      let output ← output.append packet.payload.bytes packet.payload.length
      return (0, packet, output)

end WebSocketPacket

end CppFragments
