import CppFragments.Transition.Run
import CppFragments.Util.ByteBuffer

/-! # Sequences of calls on a byte buffer

From a new buffer on, every call but `erase` keeps the offset in the data.
-/

namespace CppFragments

open Outcome Transition

/-- A call with its size. A pointer to append from holds as many bytes. -/
inductive BufferCall
  | append (bytes : List UInt8)
  | erase (size : Nat)
  | skipX (size : Nat)
  | readBytesX (size : Nat)
  | resetoft
  | clear

def BufferCall.size : BufferCall → Nat
  | .append bytes => bytes.length
  | .erase size => size
  | .skipX size => size
  | .readBytesX size => size
  | .resetoft => 0
  | .clear => 0

namespace ByteBuffer

def perform (buffer : ByteBuffer) : BufferCall → Except Fault ByteBuffer
  | .append bytes => buffer.append bytes bytes.length
  | .erase size => .ok (buffer.erase size)
  | .skipX size => .ok (buffer.skipX size).2
  | .readBytesX size => do
      let (_, buffer) ← buffer.readBytesX size
      return buffer
  | .resetoft => .ok buffer.resetoft
  | .clear => .ok buffer.clear

/-- One call, of a size that an `int` can hold. A call that throws has changed
nothing. -/
inductive Step (source : ByteBuffer) (call : BufferCall) : ByteBuffer → Prop
  | returns {target : ByteBuffer} (hsize : call.size < 2 ^ 31)
      (hcall : source.perform call = .ok target) : Step source call target
  | throws {fault : Fault} (hsize : call.size < 2 ^ 31)
      (hcall : source.perform call = .error fault) : Step source call source

/-- What a caller relies on. -/
structure Consistent (buffer : ByteBuffer) : Prop where
  oft_le : (buffer.oft.toNat : Int) ≤ buffer.length
  require_iff : ∀ size : Nat, 0 < size → size < 2 ^ 31 →
    (buffer.require size = true ↔ size ≤ buffer.rest.length)
  skipX_enough : ∀ size : Nat, 0 < size → size < 2 ^ 31 → size ≤ buffer.rest.length →
    ∃ later, buffer.skipX size = (true, later) ∧ later.data = buffer.data ∧
      later.oft.toNat = buffer.oft.toNat + size
  skipX_short : ∀ size : Nat, 0 < size → size < 2 ^ 31 → buffer.rest.length < size →
    buffer.skipX size = (false, buffer)
  readBytesX_enough : ∀ size : Nat, 0 < size → size < 2 ^ 31 → size ≤ buffer.rest.length →
    ∃ later, buffer.readBytesX size = .ok (some (buffer.rest.take size), later) ∧
      later.data = buffer.data ∧ later.oft.toNat = buffer.oft.toNat + size
  readBytesX_short : ∀ size : Nat, 0 < size → size < 2 ^ 31 → buffer.rest.length < size →
    buffer.readBytesX size = .ok (none, buffer)

section Consistency

variable {buffer : ByteBuffer}

theorem Sound.consistent (hsound : buffer.Sound) (hsmall : buffer.data.length < 2 ^ 31) :
    buffer.Consistent where
  oft_le := hsound
  require_iff size _ hsize := by
    rw [hsound.require_eq (by omega), ahead_eq_rest hsmall, decide_eq_true_eq]
  skipX_enough size _ hsize hle := by
    rw [← ahead_eq_rest hsmall] at hle
    refine ⟨buffer.advance size, ?_, rfl, hsound.advance_oft hle⟩
    rw [hsound.skipX_eq (by omega), if_pos hle]
  skipX_short size _ hsize hlt := by
    rw [← ahead_eq_rest hsmall] at hlt
    rw [hsound.skipX_eq (by omega), if_neg (by omega)]
  readBytesX_enough size hpos hsize hle := by
    rw [← ahead_eq_rest hsmall] at hle
    refine ⟨buffer.advance size, ?_, rfl, hsound.advance_oft hle⟩
    rw [hsound.readBytesX_eq hpos (by omega), if_pos hle, ahead_eq_rest hsmall]
  readBytesX_short size hpos hsize hlt := by
    rw [← ahead_eq_rest hsmall] at hlt
    rw [hsound.readBytesX_eq hpos (by omega), if_neg (by omega)]

theorem sound_empty : empty.Sound := by
  decide

end Consistency

/-! ## What one call does to the invariant -/

@[simp] theorem erase_oft (buffer : ByteBuffer) (size : Int) :
    (buffer.erase size).oft = buffer.oft := by
  unfold erase
  split
  · rfl
  · split <;> rfl

theorem length_erase {buffer : ByteBuffer} (hsmall : buffer.data.length < 2 ^ 31) (size : Nat) :
    (buffer.erase size).data.length = buffer.data.length - size := by
  have hlength : buffer.length = buffer.data.length := toInt32_natCast hsmall
  unfold erase
  rw [hlength]
  split
  · simp
  next hnot =>
    split
    · simp only [List.length_nil]
      omega
    · omega

/-- The bytes that an erase leaves still reach up to the offset, which does not
move: it is 0 if all bytes go. -/
def KeepsOffset (source : ByteBuffer) : BufferCall → Prop
  | .erase size => source.oft.toNat ≤ source.data.length - size
  | _ => True

theorem perform_sound {source target : ByteBuffer} {call : BufferCall}
    (hcall : source.perform call = .ok target) (hsound : source.Sound)
    (hsource : source.data.length < 2 ^ 31) (htarget : target.data.length < 2 ^ 31)
    (hkeeps : source.KeepsOffset call) : target.Sound := by
  have hoft := (sound_iff_of_small hsource).mp hsound
  rw [sound_iff_of_small htarget]
  cases call with
  | append bytes =>
      rw [perform, append_all source bytes rfl, Except.ok.injEq] at hcall
      subst hcall
      simp only [List.length_append]
      omega
  | erase size =>
      rw [perform, Except.ok.injEq] at hcall
      subst hcall
      rw [erase_oft, length_erase hsource]
      exact hkeeps
  | skipX size =>
      rw [perform, Except.ok.injEq] at hcall
      subst hcall
      exact (sound_iff_of_small htarget).mp (hsound.skipX_movesTo size).sound
  | readBytesX size =>
      have hmoves := (hsound.readBytesX_movesTo size).bind
        fun read hmoves => (ensures_ok read.2).mpr hmoves
      exact (sound_iff_of_small htarget).mp (hmoves target hcall).sound
  | resetoft =>
      rw [perform, Except.ok.injEq] at hcall
      subst hcall
      exact Nat.zero_le _
  | clear =>
      rw [perform, Except.ok.injEq] at hcall
      subst hcall
      exact Nat.zero_le _

theorem Step.sound {source target : ByteBuffer} {call : BufferCall}
    (hstep : Step source call target) (hsound : source.Sound)
    (hsource : source.data.length < 2 ^ 31) (htarget : target.data.length < 2 ^ 31)
    (hkeeps : source.KeepsOffset call) : target.Sound := by
  cases hstep with
  | returns _ hcall => exact perform_sound hcall hsound hsource htarget hkeeps
  | throws _ _ => exact hsound

/-- Where an erase ends in range, it kept the offset. -/
theorem Step.keepsOffset {source target : ByteBuffer} {call : BufferCall}
    (hstep : Step source call target) (hsource : source.data.length < 2 ^ 31)
    (htarget : target.data.length < 2 ^ 31) (hsound : target.Sound) :
    source.KeepsOffset call := by
  cases call with
  | erase size =>
      cases hstep with
      | returns _ hcall =>
          rw [perform, Except.ok.injEq] at hcall
          subst hcall
          rw [sound_iff_of_small htarget, erase_oft, length_erase hsource] at hsound
          exact hsound
      | throws _ hcall => simp [perform] at hcall
  | append => trivial
  | skipX => trivial
  | readBytesX => trivial
  | resetoft => trivial
  | clear => trivial

/-! ## Whole sequences -/

/-- **The offset stays in the data, and the checks that rest on it are right,
exactly as long as every erase keeps the offset.** -/
theorem consistent_iff_keepsOffset {moves : List (Move ByteBuffer BufferCall)}
    {final : ByteBuffer} (hrun : Run Step .empty moves final)
    (hsmall : ∀ move ∈ moves, move.target.data.length < 2 ^ 31) :
    (∀ move ∈ moves, move.target.Consistent) ↔
      ∀ move ∈ moves, move.source.KeepsOffset move.action := by
  have hsource : ∀ move ∈ moves, move.source.data.length < 2 ^ 31 := by
    intro move hmove
    obtain ⟨before, hbefore, _, hpart⟩ := hrun.exists_before hmove
    apply hbefore.holds_of_targets (fun buffer => buffer.data.length < 2 ^ 31) (by decide)
    intro earlier hearlier
    exact hsmall earlier (hpart.subset (List.mem_append_left _ hearlier))
  have hmoved : ∀ move ∈ moves, Step move.source move.action move.target := by
    intro move hmove
    obtain ⟨_, _, hstep, _⟩ := hrun.exists_before hmove
    exact hstep
  constructor
  · intro hconsistent move hmove
    exact (hmoved move hmove).keepsOffset (hsource move hmove) (hsmall move hmove)
      (hconsistent move hmove).oft_le
  · intro hkeeps move hmove
    have hsound := (hrun.keeps_of_allowed Sound sound_empty
      (fun move hmove hsound hkeeps => (hmoved move hmove).sound hsound (hsource move hmove)
        (hsmall move hmove) hkeeps) hkeeps).1
    exact (hsound move hmove).consistent (hsmall move hmove)

/-- Four bytes, of which two are read and then erased, as at the end of the parse loop. -/
def eraseMoves : List (Move ByteBuffer BufferCall) :=
  [⟨.empty, .append [1, 2, 3, 4], ⟨[1, 2, 3, 4], 0⟩⟩,
    ⟨⟨[1, 2, 3, 4], 0⟩, .readBytesX 2, ⟨[1, 2, 3, 4], 2⟩⟩,
    ⟨⟨[1, 2, 3, 4], 2⟩, .erase 2, ⟨[3, 4], 2⟩⟩,
    ⟨⟨[3, 4], 2⟩, .resetoft, ⟨[3, 4], 0⟩⟩]

theorem run_eraseMoves : Run Step .empty eraseMoves ⟨[3, 4], 0⟩ := by
  apply Run.snoc (Run.snoc (Run.snoc (Run.snoc Run.nil _) _) _) _
  · exact .returns (by decide) (by decide +kernel)
  · exact .returns (by decide) (by decide +kernel)
  · exact .returns (by decide) (by decide +kernel)
  · exact .returns (by decide) (by decide +kernel)

theorem consistent_iff_keepsOffset_eraseMoves :
    (∀ move ∈ eraseMoves, move.target.Consistent) ↔
      ∀ move ∈ eraseMoves, move.source.KeepsOffset move.action :=
  consistent_iff_keepsOffset run_eraseMoves (by simp [eraseMoves])

/-- Ten bytes are appended, eight skipped and five erased. With five bytes left
any size passes the check, and the next read throws. -/
theorem erased_not_consistent :
    ∃ moves final, Run Step .empty moves final ∧
      (∀ move ∈ moves, move.target.data.length < 2 ^ 31) ∧ ¬ final.Consistent ∧
      final.length = 5 ∧ final.require 100 = true ∧
      final.readBytesX 1 = .error .outOfRange := by
  refine ⟨[⟨.empty, .append [0, 1, 2, 3, 4, 5, 6, 7, 8, 9], ⟨[0, 1, 2, 3, 4, 5, 6, 7, 8, 9], 0⟩⟩,
    ⟨⟨[0, 1, 2, 3, 4, 5, 6, 7, 8, 9], 0⟩, .skipX 8, ⟨[0, 1, 2, 3, 4, 5, 6, 7, 8, 9], 8⟩⟩,
    ⟨⟨[0, 1, 2, 3, 4, 5, 6, 7, 8, 9], 8⟩, .erase 5, ⟨[5, 6, 7, 8, 9], 8⟩⟩],
    ⟨[5, 6, 7, 8, 9], 8⟩, ?_, by simp, ?_, by decide, by decide +kernel, by decide +kernel⟩
  · apply Run.snoc (Run.snoc (Run.snoc Run.nil _) _) _
    · exact .returns (by decide) (by decide +kernel)
    · exact .returns (by decide) (by decide +kernel)
    · exact .returns (by decide) (by decide +kernel)
  · intro hconsistent
    exact absurd hconsistent.oft_le (by decide)

end ByteBuffer

end CppFragments
