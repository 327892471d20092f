import CppFragments.Bytes.Base64
import CppFragments.Bytes.Base64Decode
import CppFragments.Util.Machine

/-! # `base64_encode`

The encoder shifts each byte into a 32-bit `int` that nothing masks: from the
fifth byte on, bits are shifted out of it and its sign changes. A shift to the
left wraps. A sum that leaves the range of `int` has no result, and neither has a
read outside an array.
-/

namespace CppFragments

/-! ## The source -/

def base64Chars : List UInt8 :=
  literal ("ABCDEFGHIJKLMNOPQRSTUVWXYZ" ++ "abcdefghijklmnopqrstuvwxyz" ++ "0123456789+/")

/-- `val << 8` -/
def shiftLeft8 (val : Int) : Int :=
  toInt32 (val * 2 ^ 8)

/-- `base64_chars[value & 0x3F]`: the mask keeps the low six bits, of a negative
number too. -/
def charOf (value : Int) : Option UInt8 :=
  base64Chars[(value % 64).toNat]?

/-- The inner loop, which pushes a character for each six bits above `valb`. -/
def emitChars (val valb : Int) (result : List UInt8) : Option (Int × List UInt8) :=
  if 0 ≤ valb then do
    let char ← charOf (val >>> valb.toNat)
    emitChars val (valb - 6) (result ++ [char])
  else
    some (valb, result)
termination_by (valb + 6).toNat

/-- The body of the outer loop. -/
def encodeByte (val valb : Int) (result : List UInt8) (c : UInt8) :
    Option (Int × Int × List UInt8) := do
  let val ← addInt (shiftLeft8 val) c.toNat
  let (valb, result) ← emitChars val (valb + 8) result
  return (val, valb, result)

/-- The loop over the bytes of a string. -/
def encodeBytes (val valb : Int) (result : List UInt8) : List UInt8 →
    Option (Int × Int × List UInt8)
  | [] => some (val, valb, result)
  | c :: rest => do
      let (val, valb, result) ← encodeByte val valb result c
      encodeBytes val valb result rest

/-- The loop over `data[i]` for `i < len`. -/
def encodeData (data : List UInt8) (len i : Nat) (val valb : Int) (result : List UInt8) :
    Option (Int × Int × List UInt8) :=
  if i < len then do
    let c ← data[i]?
    let (val, valb, result) ← encodeByte val valb result c
    encodeData data len (i + 1) val valb result
  else
    some (val, valb, result)
termination_by len - i

/-- The loop that pushes `=` up to a multiple of four. -/
def padChars (result : List UInt8) : List UInt8 :=
  if result.length % 4 ≠ 0 then padChars (result ++ literal "=") else result
termination_by (4 - result.length % 4) % 4
decreasing_by
  rw [List.length_append, show (literal "=").length = 1 from rfl]
  omega

/-- What follows the loop over the bytes. -/
def finishChars (val valb : Int) (result : List UInt8) : Option (List UInt8) := do
  if valb > -6 then
    let char ← charOf (shiftLeft8 val >>> (valb + 8).toNat)
    return padChars (result ++ [char])
  else
    return padChars result

/-- The function from any point of its loop on. -/
def base64EncodeFrom (val valb : Int) (result rest : List UInt8) : Option (List UInt8) := do
  let (val, valb, result) ← encodeBytes val valb result rest
  finishChars val valb result

/-- The version for a `std::string`. -/
def base64Encode (input : List UInt8) : Option (List UInt8) :=
  base64EncodeFrom 0 (-6) [] input

/-- The version for a pointer and a length. -/
def base64EncodeData (data : List UInt8) (len : Nat) : Option (List UInt8) := do
  let (val, valb, result) ← encodeData data len 0 0 (-6) []
  finishChars val valb result

/-! ## Its arithmetic -/

theorem base64Chars_get {index : Nat} (hlt : index < 64) :
    base64Chars[index]? = some (Bytes.base64Char index) := by
  have hall : ∀ n < 64, base64Chars[n]? = some (Bytes.base64Char n) := by
    decide +kernel
  exact hall index hlt

theorem charOf_eq {value : Int} {bits : Nat} (hbits : value % 64 = bits) :
    charOf value = some (Bytes.base64Char bits) := by
  rw [charOf, hbits, Int.toNat_natCast]
  apply base64Chars_get
  omega

/-- Adding a byte to a multiple of 256 never overflows, whatever was shifted out. -/
theorem addInt_shiftLeft8 (val : Int) (c : UInt8) :
    addInt (shiftLeft8 val) c.toNat = some (shiftLeft8 val + c.toNat) := by
  have hbyte : c.toNat < 256 := c.toNat_lt
  have hrange : -2 ^ 31 ≤ shiftLeft8 val + c.toNat ∧ shiftLeft8 val + c.toNat < 2 ^ 31 := by
    unfold shiftLeft8 toInt32
    rw [Int.bmod_def]
    split <;> omega
  rw [addInt, if_pos hrange]

/-- The low bits of the shifted value. The modulus 4096 covers the bits in use. -/
theorem shiftLeft8_emod (val : Int) : shiftLeft8 val % 4096 = val * 256 % 4096 := by
  unfold shiftLeft8 toInt32
  rw [Int.bmod_def]
  split <;> omega

theorem emitChars_of_neg (val : Int) {valb : Int} (hneg : valb < 0) (result : List UInt8) :
    emitChars val valb result = some (valb, result) := by
  rw [emitChars, if_neg (by omega)]

theorem emitChars_push {val : Int} {shift bits : Nat} (hbits : val / 2 ^ shift % 64 = bits)
    (result : List UInt8) :
    emitChars val shift result =
      emitChars val (shift - 6) (result ++ [Bytes.base64Char bits]) := by
  have hchar : charOf (val >>> (shift : Int).toNat) = some (Bytes.base64Char bits) := by
    apply charOf_eq
    rw [Int.toNat_natCast, Int.shiftRight_eq_div_pow]
    exact_mod_cast hbits
  rw [emitChars, if_pos (by omega), hchar]
  rfl

/-! ## The bits in use -/

/-- The low `valb + 6` bits of `val` are the bits left over, and the last group
of four has the characters of the bytes they are left from. Nothing is said of
the other bits of `val`. -/
def Holds (left : Bytes.Leftover) (val valb : Int) (result : List UInt8) : Prop :=
  match left with
  | .none => valb = -6 ∧ result.length % 4 = 0
  | .two bits => valb = -4 ∧ val % 4 = bits ∧ result.length % 4 = 1
  | .four bits => valb = -2 ∧ val % 16 = bits ∧ result.length % 4 = 2

/-- The bits above those in use can be anything. -/
theorem Holds.high {left : Bytes.Leftover} {val valb : Int} {result : List UInt8}
    (hholds : Holds left val valb result) (high : Int) :
    Holds left (toInt32 (val + high * 2 ^ (valb + 6).toNat)) valb result := by
  have hlow : ∀ value : Int, toInt32 value % 16 = value % 16 := by
    intro value
    unfold toInt32
    rw [Int.bmod_def]
    split <;> omega
  cases left with
  | none => exact hholds
  | two bits =>
      rcases hholds with ⟨rfl, hval, hlen⟩
      refine ⟨rfl, ?_, hlen⟩
      have hlow := hlow (val + high * 2 ^ (-4 + 6 : Int).toNat)
      rw [show (2 : Int) ^ (-4 + 6 : Int).toNat = 4 from rfl] at hlow ⊢
      omega
  | four bits =>
      rcases hholds with ⟨rfl, hval, hlen⟩
      refine ⟨rfl, ?_, hlen⟩
      have hlow := hlow (val + high * 2 ^ (-2 + 6 : Int).toNat)
      rw [show (2 : Int) ^ (-2 + 6 : Int).toNat = 16 from rfl] at hlow ⊢
      omega

/-- What a byte does: it pushes the characters it completes. -/
theorem encodeByte_holds {left : Bytes.Leftover} {val valb : Int} {result : List UInt8}
    (hholds : Holds left val valb result) (c : UInt8) :
    ∃ val' valb', encodeByte val valb result c = some (val', valb', result ++ left.chars c) ∧
      Holds (left.next c) val' valb' (result ++ left.chars c) := by
  have hbyte : c.toNat < 256 := c.toNat_lt
  have hmod := shiftLeft8_emod val
  simp only [encodeByte, addInt_shiftLeft8, Option.bind_eq_bind, Option.bind_some,
    Option.pure_def]
  generalize shiftLeft8 val = shifted at hmod ⊢
  refine ⟨shifted + c.toNat, ?_⟩
  -- The bits left over decide how many characters the byte completes.
  cases left with
  | none =>
      rcases hholds with ⟨rfl, hlen⟩
      have hfirst : (shifted + c.toNat) / 2 ^ 2 % 64 = (c.toNat / 4 : Nat) := by
        omega
      refine ⟨-4, ?_, rfl, ?_, ?_⟩
      · rw [show (-6 + 8 : Int) = (2 : Nat) from rfl, emitChars_push hfirst,
          emitChars_of_neg _ (by decide)]
        rfl
      · omega
      · rw [List.length_append, Bytes.Leftover.chars, List.length_singleton]
        omega
  | two bits =>
      rcases hholds with ⟨rfl, hval, hlen⟩
      have hfirst : (shifted + c.toNat) / 2 ^ 4 % 64 = (bits * 16 + c.toNat / 16 : Nat) := by
        omega
      refine ⟨-2, ?_, rfl, ?_, ?_⟩
      · rw [show (-4 + 8 : Int) = (4 : Nat) from rfl, emitChars_push hfirst,
          emitChars_of_neg _ (by decide)]
        rfl
      · omega
      · rw [List.length_append, Bytes.Leftover.chars, List.length_singleton]
        omega
  | four bits =>
      rcases hholds with ⟨rfl, hval, hlen⟩
      have hfirst : (shifted + c.toNat) / 2 ^ 6 % 64 = (bits * 4 + c.toNat / 64 : Nat) := by
        omega
      have hsecond : (shifted + c.toNat) / 2 ^ 0 % 64 = (c.toNat % 64 : Nat) := by
        omega
      refine ⟨-6, ?_, rfl, ?_⟩
      · rw [show (-2 + 8 : Int) = (6 : Nat) from rfl, emitChars_push hfirst,
          show ((6 : Nat) - 6 : Int) = (0 : Nat) from rfl, emitChars_push hsecond,
          emitChars_of_neg _ (by decide)]
        simp [Bytes.Leftover.chars]
      · rw [List.length_append, Bytes.Leftover.chars, List.length_cons, List.length_singleton]
        omega

/-- The loop over the bytes ends, and what it pushed and left over stands for
the bytes it took. -/
theorem encodeBytes_holds {left : Bytes.Leftover} {val valb : Int} {result : List UInt8}
    (hholds : Holds left val valb result) (input : List UInt8) :
    ∃ left' val' valb' result', encodeBytes val valb result input = some (val', valb', result') ∧
      Holds left' val' valb' result' ∧
      ∀ rest, result' ++ left'.stream rest = result ++ left.stream (input ++ rest) := by
  induction input generalizing left val valb result with
  | nil => exact ⟨left, val, valb, result, rfl, hholds, fun _ => rfl⟩
  | cons c input ih =>
      rcases encodeByte_holds hholds c with ⟨val', valb', hbyte, hnext⟩
      rcases ih hnext with ⟨left', val'', valb'', result', hrun, hholds', hstream⟩
      refine ⟨left', val'', valb'', result', ?_, hholds', ?_⟩
      · rw [encodeBytes, hbyte]
        exact hrun
      · intro rest
        rw [hstream rest, List.cons_append, Bytes.Leftover.stream, List.append_assoc]

theorem padChars_eq (result : List UInt8) :
    padChars result =
      result ++ List.replicate ((4 - result.length % 4) % 4) Bytes.base64Pad := by
  fun_induction padChars result with
  | case1 result hmore ih =>
      have hpad : literal "=" = [Bytes.base64Pad] := rfl
      have hcount : (4 - result.length % 4) % 4 =
          (4 - (result.length + 1) % 4) % 4 + 1 := by
        omega
      rw [ih, hpad, List.length_append, List.length_singleton, hcount, List.replicate_succ,
        List.append_assoc]
      rfl
  | case2 result hdone =>
      have hzero : result.length % 4 = 0 := by
        omega
      rw [hzero]
      simp

/-- What follows the loop pushes the last group. -/
theorem finishChars_holds {left : Bytes.Leftover} {val valb : Int} {result : List UInt8}
    (hholds : Holds left val valb result) :
    finishChars val valb result = some (result ++ left.flush) := by
  have hmod := shiftLeft8_emod val
  unfold finishChars
  generalize shiftLeft8 val = shifted at hmod ⊢
  cases left with
  | none =>
      rcases hholds with ⟨rfl, hlen⟩
      rw [if_neg (by decide), padChars_eq, hlen]
      rfl
  | two bits =>
      rcases hholds with ⟨rfl, hval, hlen⟩
      have hchar : charOf (shifted >>> (-4 + 8 : Int).toNat) =
          some (Bytes.base64Char (bits * 16)) := by
        apply charOf_eq
        rw [show (-4 + 8 : Int).toNat = 4 from rfl, Int.shiftRight_eq_div_pow]
        omega
      rw [if_pos (by decide), hchar, Option.bind_eq_bind, Option.bind_some, padChars_eq,
        List.length_append, List.length_singleton, show (result.length + 1) % 4 = 2 by omega,
        List.append_assoc]
      rfl
  | four bits =>
      rcases hholds with ⟨rfl, hval, hlen⟩
      have hchar : charOf (shifted >>> (-2 + 8 : Int).toNat) =
          some (Bytes.base64Char (bits * 4)) := by
        apply charOf_eq
        rw [show (-2 + 8 : Int).toNat = 6 from rfl, Int.shiftRight_eq_div_pow]
        omega
      rw [if_pos (by decide), hchar, Option.bind_eq_bind, Option.bind_some, padChars_eq,
        List.length_append, List.length_singleton, show (result.length + 1) % 4 = 3 by omega,
        List.append_assoc]
      rfl

/-! ## The whole function -/

theorem base64EncodeFrom_holds {left : Bytes.Leftover} {val valb : Int} {result : List UInt8}
    (hholds : Holds left val valb result) (rest : List UInt8) :
    base64EncodeFrom val valb result rest = some (result ++ left.stream rest) := by
  rcases encodeBytes_holds hholds rest with ⟨left', val', valb', result', hrun, hend, hstream⟩
  have hflush := hstream []
  rw [List.append_nil, Bytes.Leftover.stream] at hflush
  rw [base64EncodeFrom, hrun, ← hflush]
  exact finishChars_holds hend

/-- Reading `data[i]` for `i < len` takes the first `len` bytes in turn. -/
theorem encodeData_eq {data : List UInt8} {len : Nat} (hlen : len ≤ data.length) (i : Nat)
    (val valb : Int) (result : List UInt8) :
    encodeData data len i val valb result =
      encodeBytes val valb result ((data.take len).drop i) := by
  have htaken : (data.take len).length = len := List.length_take_of_le hlen
  induction hleft : len - i generalizing i val valb result with
  | zero =>
      rw [encodeData, if_neg (by omega), List.drop_of_length_le (by omega)]
      rfl
  | succ left ih =>
      have hlt : i < len := by omega
      have hbound : i < (data.take len).length := by omega
      have hget : data[i]? = some (data.take len)[i] := by
        rw [List.getElem_take, List.getElem?_eq_getElem]
      rw [encodeData, if_pos hlt, hget, List.drop_eq_getElem_cons hbound, encodeBytes]
      simp only [Option.bind_eq_bind, Option.bind_some]
      congr
      funext reached
      exact ih (i + 1) _ _ _ (by omega)

/-- Both versions return the reference encoding of every byte string. After any
number of bytes, the bits above those in use can be changed at will. -/
theorem base64Encode_eq (input more : List UInt8) :
    base64Encode input = some (Bytes.base64 input) ∧
      base64EncodeData (input ++ more) input.length = some (Bytes.base64 input) ∧
      ∀ (count : Nat) (high : Int), ∃ val valb result,
        encodeBytes 0 (-6) [] (input.take count) = some (val, valb, result) ∧
        base64EncodeFrom (toInt32 (val + high * 2 ^ (valb + 6).toNat)) valb result
          (input.drop count) = some (Bytes.base64 input) := by
  have hstart : Holds .none 0 (-6) [] := ⟨rfl, rfl⟩
  have hwhole : base64Encode input = some (Bytes.base64 input) := by
    rw [base64Encode, base64EncodeFrom_holds hstart, List.nil_append, Bytes.stream_none]
  refine ⟨hwhole, ?_, ?_⟩
  · rw [← hwhole, base64EncodeData, base64Encode, base64EncodeFrom]
    rw [encodeData_eq (by simp), List.take_left, List.drop_zero]
  · intro count high
    rcases encodeBytes_holds hstart (input.take count) with
      ⟨left, val, valb, result, hrun, hholds, hstream⟩
    refine ⟨val, valb, result, hrun, ?_⟩
    rw [base64EncodeFrom_holds (hholds.high high), hstream, List.take_append_drop,
      List.nil_append, Bytes.stream_none]

example : base64Encode (literal "Many") = some (literal "TWFueQ==") := by
  decide +kernel

/-! ## Its inverse -/

theorem encodeFrom_start (input : List UInt8) :
    base64EncodeFrom 0 (-6) [] input = some (Bytes.base64 input) := by
  have hstart : Holds .none 0 (-6) [] := ⟨rfl, rfl⟩
  rw [base64EncodeFrom_holds hstart, List.nil_append, Bytes.stream_none]

theorem encodeData_start (input more : List UInt8) :
    base64EncodeData (input ++ more) input.length = base64EncodeFrom 0 (-6) [] input := by
  rw [base64EncodeData, base64EncodeFrom, encodeData_eq (by simp), List.take_left, List.drop_zero]

/-- **Encoding loses nothing, and decoding takes nothing else.** A text is what either
version returns for a byte string exactly if it decodes to that byte string. -/
theorem base64Encode_iff_decodes (input more chars : List UInt8) :
    (base64Encode input = some chars ↔ Bytes.base64Decode chars = some input) ∧
      (base64EncodeData (input ++ more) input.length = some chars ↔
        Bytes.base64Decode chars = some input) := by
  have hencode : base64EncodeFrom 0 (-6) [] input = some chars ↔
      Bytes.base64Decode chars = some input := by
    rw [encodeFrom_start, Option.some.injEq, Bytes.base64Decode_eq_some]
  refine ⟨hencode, ?_⟩
  rw [encodeData_start]
  exact hencode

end CppFragments
