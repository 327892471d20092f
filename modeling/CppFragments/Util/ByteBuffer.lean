import CppFragments.Program.Outcome
import CppFragments.Util.Machine

/-! # The byte buffer of `util/ws/ws_packet`

A growing vector of bytes with a read offset. A pointer into a buffer is
modelled by the bytes it can reach, so that reading too far through it is a
fault and not a guess.
-/

namespace CppFragments

open Outcome

structure ByteBuffer where
  data : List UInt8
  /-- Current offset in bytes from the beginning of the data. -/
  oft : UInt32
  deriving DecidableEq, Repr

namespace ByteBuffer

def empty : ByteBuffer := ⟨[], 0⟩

/-- `size` bytes read through a pointer. -/
def load (pointer : List UInt8) (size : Nat) : Except Fault (List UInt8) :=
  if size ≤ pointer.length then .ok (pointer.take size) else .error .overrun

/-- `&data.at(index)`. -/
def dataAt (buffer : ByteBuffer) (index : Nat) : Except Fault (List UInt8) :=
  if index < buffer.data.length then .ok (buffer.data.drop index) else .error .outOfRange

def length (buffer : ByteBuffer) : Int :=
  toInt32 buffer.data.length

/-- The empty list stands for `NULL`, here and in `curat`. -/
def bytes (buffer : ByteBuffer) : List UInt8 :=
  if buffer.length = 0 then [] else buffer.data

/-- The subtraction mixes `int` and
`uint32_t`, so it and the comparison are made in 32-bit unsigned arithmetic. -/
def require (buffer : ByteBuffer) (size : Int) : Bool :=
  UInt32.ofInt size ≤ UInt32.ofInt buffer.length - buffer.oft

def curat (buffer : ByteBuffer) : Except Fault (List UInt8) :=
  if buffer.length = 0 then .ok [] else buffer.dataAt buffer.oft.toNat

def getoft (buffer : ByteBuffer) : Int :=
  toInt32 buffer.oft.toNat

def skipX (buffer : ByteBuffer) (size : Int) : Bool × ByteBuffer :=
  if buffer.require size then
    (true, { buffer with oft := buffer.oft + UInt32.ofInt size })
  else (false, buffer)

/-- Copy `size` bytes and move the current position. The result is `none`
where the code returns false and leaves the destination alone. -/
def readBytesX (buffer : ByteBuffer) (size : Int) :
    Except Fault (Option (List UInt8) × ByteBuffer) :=
  if buffer.require size then do
    let source ← buffer.dataAt buffer.oft.toNat
    let copied ← load source (UInt64.ofInt size).toNat
    return (some copied, { buffer with oft := buffer.oft + UInt32.ofInt size })
  else
    return (none, buffer)

def resetoft (buffer : ByteBuffer) : ByteBuffer :=
  { buffer with oft := 0 }

/-- Erase `size` bytes from the beginning. The offset does not move. -/
def erase (buffer : ByteBuffer) (size : Int) : ByteBuffer :=
  if 0 < size ∧ size < buffer.length then
    { buffer with data := buffer.data.drop size.toNat }
  else if buffer.length ≤ size then
    { buffer with data := [] }
  else buffer

def append (buffer : ByteBuffer) (pointer : List UInt8) (size : Int) : Except Fault ByteBuffer :=
  if 0 < size then do
    let inserted ← load pointer size.toNat
    return { buffer with data := buffer.data ++ inserted }
  else
    return buffer

def clear (_buffer : ByteBuffer) : ByteBuffer := ⟨[], 0⟩

/-! ## Buffers with their offset in range -/

/-- The bytes from the offset on. -/
def rest (buffer : ByteBuffer) : List UInt8 :=
  buffer.data.drop buffer.oft.toNat

/-- The offset lies within the bytes that `length` counts. -/
def Sound (buffer : ByteBuffer) : Prop :=
  (buffer.oft.toNat : Int) ≤ buffer.length

instance (buffer : ByteBuffer) : Decidable buffer.Sound :=
  inferInstanceAs (Decidable ((buffer.oft.toNat : Int) ≤ buffer.length))

/-- The bytes that `length` counts from the offset on. -/
def ahead (buffer : ByteBuffer) : List UInt8 :=
  buffer.rest.take (buffer.length - buffer.oft.toNat).toNat

def advance (buffer : ByteBuffer) (count : Nat) : ByteBuffer :=
  { buffer with oft := buffer.oft + UInt32.ofNat count }

@[simp] theorem advance_data (buffer : ByteBuffer) (count : Nat) :
    (buffer.advance count).data = buffer.data := (rfl)

@[simp] theorem advance_length (buffer : ByteBuffer) (count : Nat) :
    (buffer.advance count).length = buffer.length := (rfl)

@[simp] theorem advance_zero (buffer : ByteBuffer) : buffer.advance 0 = buffer := by
  cases buffer
  simp [advance]

@[simp] theorem advance_advance (buffer : ByteBuffer) (first second : Nat) :
    (buffer.advance first).advance second = buffer.advance (first + second) := by
  simp [advance, UInt32.ofNat_add, UInt32.add_assoc]

theorem length_lt (buffer : ByteBuffer) : buffer.length < 2 ^ 31 :=
  toInt32_lt _

theorem length_le (buffer : ByteBuffer) : buffer.length ≤ buffer.data.length :=
  toInt32_natCast_le _

section Small

variable {buffer : ByteBuffer}

theorem ahead_eq_rest (hsmall : buffer.data.length < 2 ^ 31) : buffer.ahead = buffer.rest := by
  have hlength : buffer.length = buffer.data.length := toInt32_natCast hsmall
  rw [ahead, hlength, List.take_of_length_le]
  rw [rest, List.length_drop]
  omega

theorem sound_iff_of_small (hsmall : buffer.data.length < 2 ^ 31) :
    buffer.Sound ↔ buffer.oft.toNat ≤ buffer.data.length := by
  have hlength : buffer.length = buffer.data.length := toInt32_natCast hsmall
  rw [Sound, hlength, Int.ofNat_le]

end Small

namespace Sound

variable {buffer : ByteBuffer}

theorem length_ahead (hsound : buffer.Sound) :
    (buffer.ahead.length : Int) = buffer.length - buffer.oft.toNat := by
  have hle := buffer.length_le
  unfold Sound at hsound
  rw [ahead, rest, List.length_take, List.length_drop]
  omega

theorem oft_add_ahead_lt (hsound : buffer.Sound) :
    buffer.oft.toNat + buffer.ahead.length < 2 ^ 31 := by
  have hlength := hsound.length_ahead
  have hlt := buffer.length_lt
  omega

theorem getoft_eq (hsound : buffer.Sound) : buffer.getoft = buffer.oft.toNat := by
  have hlt := hsound.oft_add_ahead_lt
  exact toInt32_natCast (by omega)

theorem advance_oft (hsound : buffer.Sound) {count : Nat} (hle : count ≤ buffer.ahead.length) :
    (buffer.advance count).oft.toNat = buffer.oft.toNat + count := by
  have hlt := hsound.oft_add_ahead_lt
  simp only [advance, UInt32.toNat_add, UInt32.toNat_ofNat']
  omega

theorem advance (hsound : buffer.Sound) {count : Nat} (hle : count ≤ buffer.ahead.length) :
    (buffer.advance count).Sound := by
  have hoft := hsound.advance_oft hle
  have hlength := hsound.length_ahead
  unfold Sound
  rw [advance_length]
  omega

theorem ahead_advance (hsound : buffer.Sound) {count : Nat} (hle : count ≤ buffer.ahead.length) :
    (buffer.advance count).ahead = buffer.ahead.drop count := by
  have hcount : (buffer.length - (buffer.oft.toNat + count : Nat)).toNat =
      (buffer.length - buffer.oft.toNat).toNat - count := by
    have hlength := hsound.length_ahead
    omega
  unfold ahead rest
  rw [hsound.advance_oft hle, advance_length, advance_data, hcount, List.drop_take,
    List.drop_drop]

theorem toNat_room (hsound : buffer.Sound) :
    (UInt32.ofInt buffer.length - buffer.oft).toNat = buffer.ahead.length := by
  have hlength := hsound.length_ahead
  have htotal := hsound.oft_add_ahead_lt
  have heq : buffer.length = ((buffer.oft.toNat + buffer.ahead.length : Nat) : Int) := by omega
  have hoft := UInt32.toNat_lt buffer.oft
  rw [heq, UInt32.toNat_sub, toNat_uint32_ofInt_natCast]
  omega

theorem require_eq (hsound : buffer.Sound) {size : Nat} (hsize : size < 2 ^ 32) :
    buffer.require size = decide (size ≤ buffer.ahead.length) := by
  apply decide_eq_decide.mpr
  rw [UInt32.le_iff_toNat_le, hsound.toNat_room, toNat_uint32_ofInt_natCast,
    Nat.mod_eq_of_lt hsize]

theorem skipX_eq (hsound : buffer.Sound) {size : Nat} (hsize : size < 2 ^ 32) :
    buffer.skipX size =
      if size ≤ buffer.ahead.length then (true, buffer.advance size) else (false, buffer) := by
  rw [skipX, hsound.require_eq hsize]
  simp only [decide_eq_true_eq, uint32_ofInt_natCast]
  rfl

/-- A read of at least one byte takes all of them or none, and never throws. -/
theorem readBytesX_eq (hsound : buffer.Sound) {size : Nat} (hpos : 0 < size)
    (hsize : size < 2 ^ 32) :
    buffer.readBytesX size =
      .ok (if size ≤ buffer.ahead.length then
        (some (buffer.ahead.take size), buffer.advance size) else (none, buffer)) := by
  have hlength := hsound.length_ahead
  have hdata := buffer.length_le
  rw [readBytesX, hsound.require_eq hsize]
  simp only [decide_eq_true_eq]
  split
  next hle =>
    have hat : buffer.dataAt buffer.oft.toNat = .ok buffer.rest := by
      rw [dataAt, if_pos (by omega), rest]
    have htake : buffer.rest.take size = buffer.ahead.take size := by
      rw [ahead, List.take_take, Nat.min_eq_left (by omega)]
    have hload : load buffer.rest (UInt64.ofInt (size : Int)).toNat =
        .ok (buffer.ahead.take size) := by
      have hmod : size % 2 ^ 64 = size := by omega
      rw [toNat_uint64_ofInt_natCast, hmod, load, if_pos, htake]
      rw [rest, List.length_drop]
      omega
    rw [hat]
    simp only [ok_bind, hload, uint32_ofInt_natCast]
    rfl
  · rfl

end Sound

/-- `later` is the same buffer with its offset further on, and in range. -/
structure MovesTo (buffer later : ByteBuffer) : Prop where
  data : later.data = buffer.data
  oft_le : buffer.oft.toNat ≤ later.oft.toNat
  sound : later.Sound

theorem Sound.movesTo_refl {buffer : ByteBuffer} (hsound : buffer.Sound) :
    buffer.MovesTo buffer :=
  ⟨rfl, Nat.le_refl _, hsound⟩

theorem MovesTo.trans {buffer later latest : ByteBuffer} (hfirst : buffer.MovesTo later)
    (hsecond : later.MovesTo latest) : buffer.MovesTo latest :=
  ⟨hsecond.data.trans hfirst.data, hfirst.oft_le.trans hsecond.oft_le, hsecond.sound⟩

section Moves

variable {buffer : ByteBuffer}

theorem Sound.advance_movesTo (hsound : buffer.Sound) {count : Nat}
    (hle : count ≤ buffer.ahead.length) : buffer.MovesTo (buffer.advance count) := by
  refine ⟨rfl, ?_, hsound.advance hle⟩
  rw [hsound.advance_oft hle]
  exact Nat.le_add_right _ _

/-- The offset moves forward or not at all, whatever the size. -/
theorem Sound.skipX_movesTo (hsound : buffer.Sound) (size : Int) :
    buffer.MovesTo (buffer.skipX size).2 := by
  unfold skipX
  split
  next hrequire =>
    have hle := UInt32.le_iff_toNat_le.mp (of_decide_eq_true hrequire)
    rw [hsound.toNat_room] at hle
    have hmoves := hsound.advance_movesTo hle
    rw [ByteBuffer.advance, UInt32.ofNat_toNat] at hmoves
    exact hmoves
  · exact hsound.movesTo_refl

theorem Sound.readBytesX_movesTo (hsound : buffer.Sound) (size : Int) :
    Ensures (fun result => buffer.MovesTo result.2) (buffer.readBytesX size) := by
  have hskip := hsound.skipX_movesTo size
  unfold skipX at hskip
  unfold readBytesX
  split
  next hrequire =>
    rw [if_pos hrequire] at hskip
    refine (ensures_true _).bind fun source _ => ?_
    refine (ensures_true _).bind fun copied _ => ?_
    exact (ensures_ok _).mpr hskip
  · exact (ensures_ok _).mpr hsound.movesTo_refl

end Moves

/-! ## Buffers as a cursor

Below the range of `int`, a buffer whose offset lies in its data is a list of
bytes already read followed by a list of bytes to come.
-/

/-- The buffer holding `before ++ after` with its offset between the two. -/
def cursor (before after : List UInt8) : ByteBuffer :=
  ⟨before ++ after, UInt32.ofNat before.length⟩

@[simp] theorem cursor_data (before after : List UInt8) :
    (cursor before after).data = before ++ after := rfl

theorem cursor_nil (after : List UInt8) : cursor [] after = ⟨after, 0⟩ := rfl

section Cursor

variable {before after : List UInt8}

theorem toNat_cursor_oft (hsmall : before.length + after.length < 2 ^ 31) :
    (cursor before after).oft.toNat = before.length := by
  simp only [cursor, UInt32.toNat_ofNat']
  omega

theorem cursor_rest (hsmall : before.length + after.length < 2 ^ 31) :
    (cursor before after).rest = after := by
  rw [rest, toNat_cursor_oft hsmall, cursor_data, List.drop_left]

theorem length_cursor (hsmall : before.length + after.length < 2 ^ 31) :
    (cursor before after).length = (before.length + after.length : Nat) := by
  rw [length, cursor_data, List.length_append, toInt32_natCast hsmall]

theorem getoft_cursor (hsmall : before.length + after.length < 2 ^ 31) :
    (cursor before after).getoft = before.length := by
  rw [getoft, toNat_cursor_oft hsmall, toInt32_natCast (by omega)]

theorem sound_cursor (hsmall : before.length + after.length < 2 ^ 31) :
    (cursor before after).Sound := by
  unfold Sound
  rw [toNat_cursor_oft hsmall, length_cursor hsmall]
  omega

theorem cursor_ahead (hsmall : before.length + after.length < 2 ^ 31) :
    (cursor before after).ahead = after := by
  rw [ahead, cursor_rest hsmall, toNat_cursor_oft hsmall, length_cursor hsmall,
    List.take_of_length_le (by omega)]

theorem cursor_advance (before taken after : List UInt8) :
    (cursor before (taken ++ after)).advance taken.length = cursor (before ++ taken) after := by
  simp [cursor, advance, UInt32.ofNat_add]

theorem readBytesX_cursor (before taken after : List UInt8) {size : Int}
    (hsize : size = taken.length) (hne : taken ≠ [])
    (hsmall : before.length + taken.length + after.length < 2 ^ 31) :
    (cursor before (taken ++ after)).readBytesX size =
      .ok (some taken, cursor (before ++ taken) after) := by
  have hsmall' : before.length + (taken ++ after).length < 2 ^ 31 := by
    rw [List.length_append]
    omega
  have hread := (sound_cursor hsmall').readBytesX_eq (List.length_pos_iff.mpr hne) (by omega)
  rw [cursor_ahead hsmall', if_pos (by simp), List.take_left, cursor_advance] at hread
  rw [hsize, hread]

/-- A read of more bytes than are left copies nothing and moves nothing. -/
theorem readBytesX_cursor_short (hsmall : before.length + after.length < 2 ^ 31) {size : Nat}
    (hsize : size < 2 ^ 31) (hshort : after.length < size) :
    (cursor before after).readBytesX (size : Int) = .ok (none, cursor before after) := by
  have hread := (sound_cursor hsmall).readBytesX_eq (Nat.zero_lt_of_lt hshort) (by omega)
  rw [hread, cursor_ahead hsmall, if_neg (by omega)]

theorem skipX_cursor (before taken after : List UInt8)
    (hsmall : before.length + taken.length + after.length < 2 ^ 31) :
    (cursor before (taken ++ after)).skipX taken.length =
      (true, cursor (before ++ taken) after) := by
  have hsmall' : before.length + (taken ++ after).length < 2 ^ 31 := by
    rw [List.length_append]
    omega
  rw [(sound_cursor hsmall').skipX_eq (by omega), cursor_ahead hsmall', if_pos (by simp),
    cursor_advance]

theorem curat_cursor (hne : after ≠ []) (hsmall : before.length + after.length < 2 ^ 31) :
    (cursor before after).curat = .ok after := by
  have hpos : 0 < after.length := List.length_pos_iff.mpr hne
  rw [curat, length_cursor hsmall, if_neg (by omega), toNat_cursor_oft hsmall, dataAt,
    cursor_data, List.drop_left, if_pos]
  simp only [List.length_append]
  omega

/-- Erasing up to the offset and resetting it keeps exactly the bytes to come. -/
theorem resetoft_erase_cursor (hsmall : before.length + after.length < 2 ^ 31) :
    ((cursor before after).erase (cursor before after).getoft).resetoft = cursor [] after := by
  rw [getoft_cursor hsmall, erase, length_cursor hsmall]
  split
  · simp [resetoft, cursor]
  next hin =>
    split
    next hall =>
      have hnil : after = [] := List.length_eq_zero_iff.mp (by omega)
      simp [resetoft, cursor, hnil]
    next hsome =>
      have hnil : before = [] := List.length_eq_zero_iff.mp (by omega)
      simp [resetoft, cursor, hnil]

end Cursor

section Compaction

variable {buffer : ByteBuffer}

/-- A buffer whose offset lies in its data is cut there in two. -/
theorem Sound.eq_cursor (hsound : buffer.Sound) (hsmall : buffer.data.length < 2 ^ 31) :
    buffer = cursor (buffer.data.take buffer.oft.toNat) (buffer.data.drop buffer.oft.toNat) := by
  have hle := (sound_iff_of_small hsmall).mp hsound
  rw [cursor, List.take_append_drop, List.length_take, Nat.min_eq_left hle, UInt32.ofNat_toNat]

theorem Sound.resetoft_erase (hsound : buffer.Sound) (hsmall : buffer.data.length < 2 ^ 31) :
    (buffer.erase buffer.getoft).resetoft = ⟨buffer.data.drop buffer.getoft.toNat, 0⟩ := by
  have hcut : (buffer.data.take buffer.oft.toNat).length +
      (buffer.data.drop buffer.oft.toNat).length < 2 ^ 31 := by
    rwa [← List.length_append, List.take_append_drop]
  have herase := resetoft_erase_cursor hcut
  rw [← hsound.eq_cursor hsmall, cursor_nil] at herase
  rw [herase, hsound.getoft_eq, Int.toNat_natCast]

end Compaction

/-- Whatever is appended, the buffer grows by the size asked for. -/
theorem append_ensures (buffer : ByteBuffer) (pointer : List UInt8) (size : Int) :
    Ensures (fun result => result.oft = buffer.oft ∧
      result.data.length = buffer.data.length + size.toNat) (buffer.append pointer size) := by
  unfold append load
  split
  · split
    next hle => simp [hle]
    next => simp
  next hnone =>
    rw [pure_eq_ok, ensures_ok]
    exact ⟨rfl, by omega⟩

theorem append_of_le (buffer : ByteBuffer) {pointer : List UInt8} {size : Nat}
    (hle : size ≤ pointer.length) :
    buffer.append pointer size = .ok { buffer with data := buffer.data ++ pointer.take size } := by
  unfold append
  split
  · rw [Int.toNat_natCast, load, if_pos hle]
    rfl
  next hnot =>
    have hzero : size = 0 := by omega
    subst hzero
    simp [pure_eq_ok]

@[simp] theorem append_singleton (buffer : ByteBuffer) (byte : UInt8) :
    buffer.append [byte] 1 = .ok { buffer with data := buffer.data ++ [byte] } := rfl

theorem append_all (buffer : ByteBuffer) (pointer : List UInt8) {size : Int}
    (hsize : size = pointer.length) :
    buffer.append pointer size = .ok { buffer with data := buffer.data ++ pointer } := by
  rw [hsize, append_of_le buffer (Nat.le_refl _), List.take_length]

theorem bytes_take_length (buffer : ByteBuffer) (hsmall : buffer.data.length < 2 ^ 31) :
    buffer.bytes.take buffer.length.toNat = buffer.data := by
  have hlength : buffer.length = buffer.data.length := toInt32_natCast hsmall
  rw [bytes, hlength, Int.toNat_natCast]
  split
  next hzero =>
    have hnil : buffer.data = [] := List.length_eq_zero_iff.mp (by omega)
    simp [hnil]
  · exact List.take_length

/-- All bytes of a buffer below the range of `int`, appended to another. -/
theorem append_bytes (buffer source : ByteBuffer) (hsmall : source.data.length < 2 ^ 31) :
    buffer.append source.bytes source.length =
      .ok { buffer with data := buffer.data ++ source.data } := by
  have hlength : source.length = source.data.length := toInt32_natCast hsmall
  rw [bytes, hlength]
  split
  next hzero =>
    have hnil : source.data = [] := List.length_eq_zero_iff.mp (by omega)
    simp [hnil, append, pure_eq_ok]
  · exact append_all buffer source.data rfl

end ByteBuffer

end CppFragments
