import CppFragments.Transition.Run
import CppFragments.Util.ByteBuffer

/-! # The byte buffer is a queue

Bytes are appended at the end, read or skipped at the offset, and what has been
read is dropped from time to time. Used so, a buffer answers as a queue of bytes
does.
-/

namespace CppFragments

open Outcome Transition

inductive QueueCall
  | append (bytes : List UInt8)
  | readBytesX (size : Nat)
  | skipX (size : Nat)
  /-- `erase(getoft())`, then `resetoft()`. -/
  | dropRead

namespace QueueCall

/-- The sizes that an `int` can hold. A read asks for at least one byte. -/
def InRange : QueueCall → Prop
  | .append bytes => bytes.length < 2 ^ 31
  | .readBytesX size => 0 < size ∧ size < 2 ^ 31
  | .skipX size => size < 2 ^ 31
  | .dropRead => True

end QueueCall

/-- A queue of bytes. A call that asks for more than there is gets `none` and
takes nothing. -/
def queueAnswer (queue : List UInt8) : QueueCall → Option (List UInt8) × List UInt8
  | .append bytes => (some [], queue ++ bytes)
  | .readBytesX size =>
      if size ≤ queue.length then (some (queue.take size), queue.drop size) else (none, queue)
  | .skipX size => if size ≤ queue.length then (some [], queue.drop size) else (none, queue)
  | .dropRead => (some [], queue)

def QueueStep (queue : List UInt8) (action : QueueCall × Option (List UInt8))
    (queue' : List UInt8) : Prop :=
  queueAnswer queue action.1 = (action.2, queue')

namespace ByteBuffer

def answer (buffer : ByteBuffer) : QueueCall → Except Fault (Option (List UInt8) × ByteBuffer)
  | .append bytes => do
      let buffer ← buffer.append bytes bytes.length
      return (some [], buffer)
  | .readBytesX size => buffer.readBytesX size
  | .skipX size =>
      .ok (if (buffer.skipX size).1 then some [] else none, (buffer.skipX size).2)
  | .dropRead => .ok (some [], (buffer.erase buffer.getoft).resetoft)

def AnswerStep (source : ByteBuffer) (action : QueueCall × Option (List UInt8))
    (target : ByteBuffer) : Prop :=
  action.1.InRange ∧ source.answer action.1 = .ok (action.2, target)

section Answers

variable {buffer : ByteBuffer}

theorem Sound.rest_advance (hsound : buffer.Sound) (hsmall : buffer.data.length < 2 ^ 31)
    {count : Nat} (hle : count ≤ buffer.rest.length) :
    (buffer.advance count).rest = buffer.rest.drop count := by
  rw [← ahead_eq_rest hsmall] at hle ⊢
  have hahead := hsound.ahead_advance hle
  rwa [ahead_eq_rest (show (buffer.advance count).data.length < 2 ^ 31 from hsmall)] at hahead

/-- Every call is answered as the queue of the bytes to come answers it. -/
theorem Sound.answer_eq (hsound : buffer.Sound) (hsmall : buffer.data.length < 2 ^ 31)
    {call : QueueCall} (hrange : call.InRange) :
    ∃ later, buffer.answer call = .ok ((queueAnswer buffer.rest call).1, later) ∧
      later.rest = (queueAnswer buffer.rest call).2 ∧
      (later.data.length < 2 ^ 31 → later.Sound) := by
  have hoft := (sound_iff_of_small hsmall).mp hsound
  have hahead := ahead_eq_rest hsmall
  cases call with
  | append bytes =>
      refine ⟨{ buffer with data := buffer.data ++ bytes }, ?_, ?_, ?_⟩
      · rw [answer, append_all buffer bytes rfl]
        rfl
      · exact List.drop_append_of_le_length hoft
      · intro hlater
        rw [sound_iff_of_small hlater, List.length_append]
        exact Nat.le_add_right_of_le hoft
  | readBytesX size =>
      have hread := hsound.readBytesX_eq hrange.1 (Nat.lt_trans hrange.2 (by decide))
      rw [hahead] at hread
      rw [answer, hread, queueAnswer]
      split
      next hle => exact ⟨_, rfl, hsound.rest_advance hsmall hle, fun _ =>
        hsound.advance (by rwa [hahead])⟩
      · exact ⟨_, rfl, rfl, fun _ => hsound⟩
  | skipX size =>
      have hskip := hsound.skipX_eq (Nat.lt_trans hrange (by decide))
      rw [hahead] at hskip
      rw [answer, hskip, queueAnswer]
      split
      next hle => exact ⟨_, rfl, hsound.rest_advance hsmall hle, fun _ =>
        hsound.advance (by rwa [hahead])⟩
      · exact ⟨_, rfl, rfl, fun _ => hsound⟩
  | dropRead =>
      refine ⟨_, rfl, ?_, ?_⟩
      · rw [hsound.resetoft_erase hsmall, hsound.getoft_eq, Int.toNat_natCast]
        rfl
      · intro hlater
        rw [sound_iff_of_small hlater]
        exact Nat.zero_le _

variable {final : ByteBuffer} {moves : List (Move ByteBuffer (QueueCall × Option (List UInt8)))}

/-- **A buffer in this use is a queue.** Its answers are those of a queue that holds
the bytes appended and not yet read or skipped, and no call throws or reads out
of range. -/
theorem buffer_refines_queue (hrun : Run AnswerStep .empty moves final)
    (hsmall : ∀ move ∈ moves, move.target.data.length < 2 ^ 31) :
    (∃ moves', Run QueueStep [] moves' final.rest ∧ labels moves' = labels moves) ∧
      ∀ call : QueueCall, call.InRange →
        ∃ given later, final.answer call = .ok (given, later) := by
  have hqueue : final.Sound ∧ final.data.length < 2 ^ 31 ∧
      ∃ moves', Run QueueStep [] moves' final.rest ∧ labels moves' = labels moves := by
    induction hrun with
    | nil => exact ⟨by decide, by decide, [], .nil, rfl⟩
    | @snoc moves source target action _ hlast ih =>
        simp only [List.forall_mem_append, List.forall_mem_singleton] at hsmall
        obtain ⟨hsound, hsource, moves', hrun', hlabels⟩ := ih hsmall.1
        obtain ⟨later, hanswer, hrest, hlater⟩ := hsound.answer_eq hsource hlast.1
        obtain ⟨hgiven, rfl⟩ := Prod.mk.inj (Except.ok.inj (hanswer.symm.trans hlast.2))
        have hstep : QueueStep source.rest action later.rest := by
          rw [QueueStep, ← hgiven, hrest]
        exact ⟨hlater hsmall.2, hsmall.2, _, hrun'.snoc hstep, by simp [hlabels]⟩
  obtain ⟨hsound, hfinal, hrun'⟩ := hqueue
  refine ⟨hrun', fun call hrange => ?_⟩
  obtain ⟨later, hanswer, _⟩ := hsound.answer_eq hfinal hrange
  exact ⟨_, later, hanswer⟩

/-- Three bytes are appended, two read and dropped. -/
def queueMoves : List (Move ByteBuffer (QueueCall × Option (List UInt8))) :=
  [⟨.empty, (.append [1, 2, 3], some []), ⟨[1, 2, 3], 0⟩⟩,
    ⟨⟨[1, 2, 3], 0⟩, (.readBytesX 2, some [1, 2]), ⟨[1, 2, 3], 2⟩⟩,
    ⟨⟨[1, 2, 3], 2⟩, (.dropRead, some []), ⟨[3], 0⟩⟩]

theorem run_queueMoves : Run AnswerStep .empty queueMoves ⟨[3], 0⟩ := by
  apply Run.snoc (Run.snoc (Run.snoc Run.nil _) _) _
  · exact ⟨by simp [QueueCall.InRange], by decide +kernel⟩
  · exact ⟨by simp [QueueCall.InRange], by decide +kernel⟩
  · exact ⟨trivial, by decide +kernel⟩

theorem buffer_refines_queue_queueMoves :
    (∃ moves', Run QueueStep [] moves' (⟨[3], 0⟩ : ByteBuffer).rest ∧
        labels moves' = labels queueMoves) ∧
      ∀ call : QueueCall, call.InRange →
        ∃ given later, (⟨[3], 0⟩ : ByteBuffer).answer call = .ok (given, later) :=
  buffer_refines_queue run_queueMoves (by decide)

end Answers

end ByteBuffer

end CppFragments
