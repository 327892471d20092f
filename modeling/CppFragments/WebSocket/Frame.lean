import CppFragments.Bytes.BigEndian
import CppFragments.Bytes.Keystream
import CppFragments.Util.WebSocketPacket

/-! # The wire format of a WebSocket frame

What one frame is and which bytes stand for it, with the length in the
shortest of its three forms. Nothing here is translated from the code: it is
what the decoder and the encoders are measured against.
-/

namespace CppFragments

structure Frame where
  fin : Bool
  rsv1 : Bool
  rsv2 : Bool
  rsv3 : Bool
  opcode : Fin 16
  /-- The masking key of a masked frame. -/
  key? : Option MaskingKey
  payload : List UInt8

/-- The number of an opcode on the wire. -/
def WSOpcode.number : WSOpcode → Fin 16
  | .Continue => 0x0
  | .Text => 0x1
  | .Binary => 0x2
  | .Close => 0x8
  | .Ping => 0x9
  | .Pong => 0xA

@[simp] theorem WSOpcode.number_inj {first second : WSOpcode} :
    first.number = second.number ↔ first = second := by
  cases first <;> cases second <;> decide

namespace Frame

/-- The low four bits. -/
def opcodeOf (byte : UInt8) : Fin 16 :=
  Fin.ofNat 16 byte.toNat

def firstByte (frame : Frame) : UInt8 :=
  (frame.fin.toUInt8 <<< 7) ||| (frame.rsv1.toUInt8 <<< 6) ||| (frame.rsv2.toUInt8 <<< 5) |||
    (frame.rsv3.toUInt8 <<< 4) ||| UInt8.ofNat frame.opcode

/-- The 7-bit length field. -/
def lengthCode (size : Nat) : UInt8 :=
  if size < 126 then UInt8.ofNat size else if size ≤ 0xFFFF then 126 else 127

def secondByte (frame : Frame) : UInt8 :=
  (frame.key?.isSome.toUInt8 <<< 7) ||| lengthCode frame.payload.length

/-- The extended length field. -/
def lengthBytes (size : Nat) : List UInt8 :=
  if size < 126 then [] else if size ≤ 0xFFFF then Bytes.bigEndian 2 size
  else Bytes.bigEndian 8 size

def keyBytes : Option MaskingKey → List UInt8
  | none => []
  | some key => key.toList

/-- The header up to the masking key. -/
def lead (frame : Frame) : List UInt8 :=
  frame.firstByte :: frame.secondByte :: lengthBytes frame.payload.length

def header (frame : Frame) : List UInt8 :=
  frame.lead ++ keyBytes frame.key?

/-- The payload as sent: masked if there is a key. -/
def body (frame : Frame) : List UInt8 :=
  match frame.key? with
  | none => frame.payload
  | some key => Bytes.xorFrom key.byteAt 0 frame.payload

def encode (frame : Frame) : List UInt8 :=
  frame.header ++ frame.body

@[simp] theorem length_body (frame : Frame) : frame.body.length = frame.payload.length := by
  unfold body
  split <;> simp

@[simp] theorem length_keyBytes (key? : Option MaskingKey) :
    (keyBytes key?).length = if key?.isSome then 4 else 0 := by
  cases key? <;> simp [keyBytes]

theorem length_keyBytes_le (key? : Option MaskingKey) : (keyBytes key?).length ≤ 4 := by
  rw [length_keyBytes]
  split <;> omega

theorem length_header_le (frame : Frame) : frame.header.length ≤ 14 := by
  have hkey := length_keyBytes_le frame.key?
  have hlength : (lengthBytes frame.payload.length).length ≤ 8 := by
    unfold lengthBytes
    split
    · simp
    · split <;> simp
  simp only [header, lead, List.cons_append, List.length_cons, List.length_append]
  omega

theorem length_encode (frame : Frame) :
    frame.encode.length = frame.header.length + frame.payload.length := by
  simp [encode]

theorem lengthCode_lt (size : Nat) : lengthCode size < 128 := by
  unfold lengthCode
  split
  · rw [UInt8.lt_iff_toNat_lt, UInt8.toNat_ofNat']
    change size % 256 < 128
    omega
  · split <;> decide

/-- The two fields of a second byte do not overlap. -/
theorem split_secondByte (masked : Bool) {code : UInt8} (hcode : code < 128) :
    ((masked.toUInt8 <<< 7) ||| code) >>> 7 = masked.toUInt8 ∧
      ((masked.toUInt8 <<< 7) ||| code) &&& 0x7F = code := by
  have hall : ∀ masked : Bool, ∀ code : Fin 128,
      ((masked.toUInt8 <<< 7) ||| UInt8.ofNat code) >>> 7 = masked.toUInt8 ∧
        ((masked.toUInt8 <<< 7) ||| UInt8.ofNat code) &&& 0x7F = UInt8.ofNat code := by
    decide
  simpa using hall masked ⟨code.toNat, UInt8.lt_iff_toNat_lt.mp hcode⟩

theorem secondByte_mask (frame : Frame) : frame.secondByte >>> 7 = frame.key?.isSome.toUInt8 :=
  (split_secondByte _ (lengthCode_lt _)).1

theorem secondByte_code (frame : Frame) :
    frame.secondByte &&& 0x7F = lengthCode frame.payload.length :=
  (split_secondByte _ (lengthCode_lt _)).2

/-! ## Complete frames in a byte string -/

/-- The width of the extended length field a 7-bit length field demands. -/
def extendedWidth (code : UInt8) : Nat :=
  if code < 126 then 0 else if code = 126 then 2 else 8

/-- The payload length that both length fields declare. -/
def declaredLength (code : UInt8) (extended : List UInt8) : Nat :=
  if code < 126 then code.toNat else Bytes.ofBigEndian extended

/-- The size of the frame a byte string begins with, once its length fields
are there. -/
def declaredSize : List UInt8 → Option Nat
  | _ :: second :: rest =>
      let code := second &&& 0x7F
      let width := extendedWidth code
      let keySize := if second >>> 7 = 1 then 4 else 0
      if width ≤ rest.length then
        some (2 + width + keySize + declaredLength code (rest.take width))
      else none
  | _ => none

/-- The byte string begins with a complete frame. -/
def Complete (bytes : List UInt8) : Prop :=
  ∃ size, declaredSize bytes = some size ∧ size ≤ bytes.length

instance (bytes : List UInt8) : Decidable (Complete bytes) :=
  decidable_of_iff ((declaredSize bytes).any (· ≤ bytes.length) = true) (by
    simp [Complete, Option.any_eq_true])

theorem lengthCode_lt_126 (size : Nat) : lengthCode size < 126 ↔ size < 126 := by
  unfold lengthCode
  split
  · rw [UInt8.lt_iff_toNat_lt, UInt8.toNat_ofNat']
    change size % 256 < 126 ↔ _
    omega
  next hlarge =>
    split <;> simp [hlarge]

theorem length_lengthBytes (size : Nat) :
    (lengthBytes size).length = extendedWidth (lengthCode size) := by
  unfold lengthBytes extendedWidth
  simp only [lengthCode_lt_126]
  split
  · rfl
  next hlarge =>
    simp only [lengthCode, hlarge, ↓reduceIte]
    split <;> simp

theorem declaredLength_lengthBytes {size : Nat} (hlt : size < 2 ^ 64) :
    declaredLength (lengthCode size) (lengthBytes size) = size := by
  unfold declaredLength lengthBytes
  simp only [lengthCode_lt_126]
  split
  next hshort =>
    rw [lengthCode, if_pos hshort, UInt8.toNat_ofNat']
    omega
  · split
    · exact Bytes.ofBigEndian_bigEndian_of_lt 2 size (by omega)
    · exact Bytes.ofBigEndian_bigEndian_of_lt 8 size (by simpa using hlt)

/-- More bytes do not change a declared size. -/
theorem declaredSize_append {bytes : List UInt8} {size : Nat}
    (hsize : declaredSize bytes = some size) (more : List UInt8) :
    declaredSize (bytes ++ more) = some size := by
  match bytes with
  | [] => simp [declaredSize] at hsize
  | [_] => simp [declaredSize] at hsize
  | first :: second :: rest =>
      simp only [List.cons_append, declaredSize] at hsize ⊢
      generalize extendedWidth (second &&& 0x7F) = width at hsize ⊢
      split at hsize
      next hle =>
        rw [if_pos (by rw [List.length_append]; omega), List.take_append_of_le_length hle]
        exact hsize
      next => simp at hsize

theorem declaredSize_encode (frame : Frame) (hlen : frame.payload.length < 2 ^ 64)
    (later : List UInt8) :
    declaredSize (frame.encode ++ later) = some frame.encode.length := by
  have hkey : (if frame.key?.isSome.toUInt8 = 1 then 4 else 0) =
      (keyBytes frame.key?).length := by
    cases frame.key? <;> simp [keyBytes, Bool.toUInt8]
  simp only [encode, header, lead, List.cons_append, List.append_assoc, List.length_cons,
    List.length_append, declaredSize, secondByte_mask, secondByte_code, hkey,
    ← length_lengthBytes, List.take_left, declaredLength_lengthBytes hlen, length_body]
  rw [if_pos (by omega), Option.some.injEq]
  omega

/-- A proper prefix of a frame is not a complete frame. -/
theorem not_complete_of_partial (frame : Frame) (hlen : frame.payload.length < 2 ^ 64)
    {received : List UInt8} (hseen : received <+: frame.encode)
    (hshort : received.length < frame.encode.length) : ¬ Complete received := by
  intro hcomplete
  rcases hcomplete with ⟨size, hsize, hle⟩
  obtain ⟨missing, heq⟩ := hseen
  have hdeclared := declaredSize_append hsize missing
  have hwhole := frame.declaredSize_encode hlen []
  rw [List.append_nil, ← heq, hdeclared, Option.some.injEq, heq] at hwhole
  omega

end Frame

/-! ## The frames of the receive loop -/

/-- A frame whose length has the 7-bit or the 16-bit form. -/
structure ShortFrame extends Frame where
  payload_le : payload.length ≤ 65535

namespace ShortFrame

def encode (frame : ShortFrame) : List UInt8 :=
  frame.toFrame.encode

theorem payload_lt (frame : ShortFrame) : frame.payload.length < 2 ^ 64 :=
  Nat.lt_of_le_of_lt frame.payload_le (by decide)

theorem payload_lt_int (frame : ShortFrame) : frame.payload.length < 2 ^ 31 :=
  Nat.lt_of_le_of_lt frame.payload_le (by decide)

end ShortFrame

/-- A short frame with its RSV bits zero. -/
structure PlainFrame where
  fin : Bool
  opcode : Fin 16
  key? : Option MaskingKey
  payload : List UInt8
  payload_le : payload.length ≤ 65535

namespace PlainFrame

def toShortFrame (frame : PlainFrame) : ShortFrame :=
  { fin := frame.fin, rsv1 := false, rsv2 := false, rsv3 := false
    opcode := frame.opcode, key? := frame.key?, payload := frame.payload
    payload_le := frame.payload_le }

def encode (frame : PlainFrame) : List UInt8 :=
  frame.toShortFrame.encode

end PlainFrame

end CppFragments
