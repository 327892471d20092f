import CppFragments.Transition.Run

/-! # First in, first out

A queue as a transition system. Whatever simulates it hands out its items in
the order in which they came, each once.
-/

namespace Transition

inductive FifoEvent (α : Type*)
  | push (item : α)
  | pop (item : α)

inductive FifoStep {α : Type*} : List α → FifoEvent α → List α → Prop
  | push (items : List α) (item : α) : FifoStep items (.push item) (items ++ [item])
  | pop (items : List α) (item : α) : FifoStep (item :: items) (.pop item) items

namespace FifoEvent

variable {α : Type*}

def pushed? : FifoEvent α → Option α
  | .push item => some item
  | .pop _ => none

def popped? : FifoEvent α → Option α
  | .push _ => none
  | .pop item => some item

end FifoEvent

/-- What has been handed out, then what is left, is what has been put in. -/
theorem fifo_run {α : Type*} {items : List α} {moves : List (Move (List α) (FifoEvent α))}
    (hrun : Run FifoStep [] moves items) :
    (labels moves).filterMap FifoEvent.popped? ++ items =
      (labels moves).filterMap FifoEvent.pushed? := by
  induction hrun with
  | nil => rfl
  | snoc _ hstep ih =>
      rw [labels_append, List.filterMap_append, List.filterMap_append, ← ih]
      cases hstep <;> simp [FifoEvent.popped?, FifoEvent.pushed?]

/-- A system that simulates a queue hands out its items in order. -/
theorem Simulates.fifo {σ β α : Type*} {step : σ → β → σ → Prop} {abstract : σ → List α}
    {visible : β → Option (FifoEvent α)} (hsim : Simulates step FifoStep abstract visible)
    {init state : σ} {moves : List (Move σ β)} (hinit : abstract init = [])
    (hrun : Run step init moves state) :
    (labels moves).filterMap (fun event => (visible event).bind FifoEvent.popped?) ++
        abstract state =
      (labels moves).filterMap fun event => (visible event).bind FifoEvent.pushed? := by
  obtain ⟨moves', hrun', hlabels⟩ := hsim.run hrun
  rw [hinit] at hrun'
  have hfifo := fifo_run hrun'
  rwa [hlabels, List.filterMap_filterMap, List.filterMap_filterMap] at hfifo

end Transition
