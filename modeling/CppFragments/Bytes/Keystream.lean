import Mathlib

/-! # Xor with a keystream -/

namespace Bytes

/-- Xor a byte string with the keystream bytes from position `start` on. -/
def xorFrom (keystream : Nat → UInt8) : Nat → List UInt8 → List UInt8
  | _, [] => []
  | start, byte :: rest => (byte ^^^ keystream start) :: xorFrom keystream (start + 1) rest

variable (keystream : Nat → UInt8)

@[simp] theorem length_xorFrom (start : Nat) (bytes : List UInt8) :
    (xorFrom keystream start bytes).length = bytes.length := by
  induction bytes generalizing start with
  | nil => rfl
  | cons byte rest ih => simp [xorFrom, ih]

/-- The same keystream undoes itself. -/
@[simp] theorem xorFrom_xorFrom (start : Nat) (bytes : List UInt8) :
    xorFrom keystream start (xorFrom keystream start bytes) = bytes := by
  induction bytes generalizing start with
  | nil => rfl
  | cons byte rest ih =>
      rw [xorFrom, xorFrom, ih, UInt8.xor_assoc, UInt8.xor_self, UInt8.xor_zero]

/-- Xor position by position is one indexed map. -/
theorem xorFrom_eq_mapIdx (start : Nat) (bytes : List UInt8) :
    xorFrom keystream start bytes =
      bytes.mapIdx fun index byte => byte ^^^ keystream (start + index) := by
  induction bytes generalizing start with
  | nil => rfl
  | cons byte rest ih =>
      rw [xorFrom, List.mapIdx_cons, ih]
      simp only [Nat.add_zero, Nat.add_assoc, Nat.add_comm 1]

/-! ## Behind the end of the bytes -/

/-- Xor with the keystream for `count` places. Where the bytes have ended, the
last result, at first `value`, stands in for the missing byte. -/
def xorRepeating : Nat → Nat → UInt8 → List UInt8 → List UInt8
  | 0, _, _, _ => []
  | count + 1, start, value, bytes =>
      let result := bytes.headD value ^^^ keystream start
      result :: xorRepeating count (start + 1) result bytes.tail

@[simp] theorem length_xorRepeating (count start : Nat) (value : UInt8) (bytes : List UInt8) :
    (xorRepeating keystream count start value bytes).length = count := by
  induction count generalizing start value bytes with
  | zero => rfl
  | succ count ih => simp [xorRepeating, ih]

theorem xorRepeating_length (start : Nat) (value : UInt8) (bytes : List UInt8) :
    xorRepeating keystream bytes.length start value bytes = xorFrom keystream start bytes := by
  induction bytes generalizing start value with
  | nil => rfl
  | cons byte rest ih =>
      rw [List.length_cons, xorRepeating, xorFrom]
      simp only [List.headD_cons, List.tail_cons]
      rw [ih]

/-- `value` xored with the keystream bytes of `count` places. -/
def xorAll (start : Nat) (value : UInt8) : Nat → UInt8
  | 0 => value
  | count + 1 => xorAll start value count ^^^ keystream (start + count)

theorem xorAll_succ (start : Nat) (value : UInt8) (count : Nat) :
    xorAll keystream (start + 1) (value ^^^ keystream start) count =
      xorAll keystream start value (count + 1) := by
  induction count with
  | zero => rfl
  | succ count ih =>
      rw [xorAll, ih, Nat.add_assoc, Nat.add_comm 1]
      rfl

/-- Without bytes, the results are those of bytes that are xored away again. -/
theorem xorRepeating_eq_nil_iff (count start : Nat) (value : UInt8) (bytes : List UInt8) :
    xorRepeating keystream count start value bytes =
        xorRepeating keystream count start value [] ↔
      ∀ index < count, index < bytes.length →
        bytes[index]? = some (xorAll keystream start value index) := by
  induction count generalizing start value bytes with
  | zero => simp [xorRepeating]
  | succ count ih =>
      cases bytes with
      | nil => simp
      | cons byte bytes =>
          simp only [xorRepeating, List.headD_cons, List.headD_nil, List.tail_cons, List.tail_nil,
            List.cons.injEq, UInt8.xor_left_inj]
          constructor
          · intro hsame index hlt hlength
            rcases hsame with ⟨rfl, hrest⟩
            cases index with
            | zero => rfl
            | succ index =>
                rw [List.getElem?_cons_succ, ← xorAll_succ]
                apply (ih _ _ _).mp hrest index (Nat.lt_of_succ_lt_succ hlt)
                exact Nat.lt_of_succ_lt_succ hlength
          · intro hbytes
            have hbyte : byte = value :=
              Option.some.inj (hbytes 0 (Nat.succ_pos count) (Nat.succ_pos _))
            rw [hbyte]
            -- Both go on with the same value.
            refine ⟨rfl, (ih _ _ _).mpr ?_⟩
            intro index hlt hlength
            rw [xorAll_succ, ← List.getElem?_cons_succ]
            exact hbytes (index + 1) (Nat.succ_lt_succ hlt) (Nat.succ_lt_succ hlength)

end Bytes
