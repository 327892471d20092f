import CppFragments.WebSocket.Frame

/-! # Messages and their fragments

A data message is sent as one or more frames: a first one that names its kind,
then continuations, the last of them marked final. Whole control frames may
come in between and are no part of it. Nothing here is translated from the
code.
-/

namespace CppFragments

structure Message where
  /-- The opcode of the first fragment. -/
  opcode : Fin 16
  fragments : List (List UInt8)

def Message.payload (message : Message) : List UInt8 :=
  message.fragments.flatten

/-- The message under way, and those completed. -/
structure Conversation where
  current : Option Message
  complete : List Message

namespace PlainFrame

/-- Close, Ping or Pong. -/
def IsControl (frame : PlainFrame) : Prop :=
  frame.opcode = WSOpcode.Close.number ∨ frame.opcode = WSOpcode.Ping.number ∨
    frame.opcode = WSOpcode.Pong.number

instance (frame : PlainFrame) : Decidable frame.IsControl :=
  inferInstanceAs (Decidable (_ ∨ _))

end PlainFrame

namespace Conversation

/-- The frame may come next. -/
def Accepts (conversation : Conversation) (frame : PlainFrame) : Prop :=
  if frame.IsControl then frame.fin = true ∧ frame.payload.length ≤ 125
  else match conversation.current with
    | none => frame.opcode = WSOpcode.Text.number ∨ frame.opcode = WSOpcode.Binary.number
    | some _ => frame.opcode = WSOpcode.Continue.number

/-- A data frame put at the end of the message under way, or of a new one. -/
def extend (conversation : Conversation) (frame : PlainFrame) : Message :=
  match conversation.current with
  | none => ⟨frame.opcode, [frame.payload]⟩
  | some message => { message with fragments := message.fragments ++ [frame.payload] }

def add (conversation : Conversation) (frame : PlainFrame) : Conversation :=
  if frame.IsControl then conversation
  else if frame.fin then
    ⟨none, conversation.complete ++ [conversation.extend frame]⟩
  else ⟨some (conversation.extend frame), conversation.complete⟩

end Conversation

def converse (frames : List PlainFrame) : Conversation :=
  frames.foldl Conversation.add ⟨none, []⟩

theorem complete_add (conversation : Conversation) (frame : PlainFrame) :
    conversation.complete <+: (conversation.add frame).complete := by
  unfold Conversation.add
  split
  · exact List.prefix_refl _
  · split
    · exact List.prefix_append _ _
    · exact List.prefix_refl _

/-- A legal sequence of frames, possibly cut within a message. -/
inductive Legal : List PlainFrame → Prop
  | nil : Legal []
  | snoc {frames : List PlainFrame} {frame : PlainFrame} (hlegal : Legal frames)
      (haccepts : (converse frames).Accepts frame) : Legal (frames ++ [frame])

/-- The payloads of the Text messages completed by these frames. -/
def textMessages (frames : List PlainFrame) : List (List UInt8) :=
  ((converse frames).complete.filter (·.opcode = WSOpcode.Text.number)).map Message.payload

@[simp] theorem converse_nil : converse [] = ⟨none, []⟩ := rfl

theorem converse_snoc (frames : List PlainFrame) (frame : PlainFrame) :
    converse (frames ++ [frame]) = (converse frames).add frame := by
  simp [converse]

/-- Messages that are complete stay so. -/
theorem complete_converse_mono {frames frames' : List PlainFrame} (hbegins : frames <+: frames') :
    (converse frames).complete <+: (converse frames').complete := by
  obtain ⟨later, rfl⟩ := hbegins
  induction later using List.reverseRecOn with
  | nil => rw [List.append_nil]
  | append_singleton later frame ih =>
      rw [← List.append_assoc, converse_snoc]
      exact ih.trans (complete_add _ frame)

theorem Legal.take {frames : List PlainFrame} (hlegal : Legal frames) (count : Nat) :
    Legal (frames.take count) := by
  induction hlegal with
  | nil => simpa using Legal.nil
  | @snoc frames frame hlegal haccepts ih =>
      by_cases hcount : count ≤ frames.length
      · rw [List.take_append_of_le_length hcount]
        exact ih
      · rw [List.take_of_length_le (by simp; omega)]
        exact hlegal.snoc haccepts

end CppFragments
