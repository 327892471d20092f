import CppFragments.Transition.Fifo

/-! # The work queue of the event-loop workers

The parts of `submitWork` and `processWork` that `event/event_base.cpp` and
`event/event_loop.cpp` have in common: the queue under its mutex, and the
batch that is run outside it. How a submitter notifies the loop thread is left
to the two workers.
-/

namespace CppFragments

open Transition

variable {Thread Task : Type}

/-- Where the loop thread is in `processWork`. -/
inductive ProcessPoint (Task : Type)
  | outside
  /-- Called, and waiting for the mutex. -/
  | locking
  /-- Holding the mutex, with the items moved so far. -/
  | draining (items : List Task)
  /-- Between two tasks, with the items of the batch not yet started. -/
  | running (items : List Task)
  | inTask (items : List Task)

/-- Who calls `submitWork`: another thread, or the task that the loop thread is
running (`none`). -/
abbrev Submitter (Thread : Type) := Option Thread

structure WorkState (Thread Task : Type) where
  workQueue : List Task
  /-- Between the push and the notification. -/
  submitting : Submitter Thread → Bool
  process : ProcessPoint Task

inductive WorkEvent (Thread Task : Type)
  | push (submitter : Submitter Thread) (task : Task)
  | notify (submitter : Submitter Thread)
  | call
  | lock
  | take
  | unlock
  | start (task : Task)
  | finish
  | leave

namespace WorkEvent

/-- Made by `submitWork`, not by the loop thread in `processWork`. -/
def BySubmitter : WorkEvent Thread Task → Prop
  | .push _ _ | .notify _ => True
  | _ => False

/-- Between the call of `processWork` and its return. -/
def InsideProcess : WorkEvent Thread Task → Prop
  | .lock | .take | .unlock | .start _ | .finish => True
  | _ => False

theorem not_bySubmitter_of_insideProcess {event : WorkEvent Thread Task}
    (hinside : event.InsideProcess) : ¬ event.BySubmitter := by
  cases event <;> simp_all [InsideProcess, BySubmitter]

def pushed? : WorkEvent Thread Task → Option Task
  | .push _ task => some task
  | _ => none

def started? : WorkEvent Thread Task → Option Task
  | .start task => some task
  | _ => none

def fifo? : WorkEvent Thread Task → Option (FifoEvent Task)
  | .push _ task => some (.push task)
  | .start task => some (.pop task)
  | _ => none

theorem bind_fifo?_pushed (event : WorkEvent Thread Task) :
    event.fifo?.bind FifoEvent.pushed? = event.pushed? := by
  cases event <;> rfl

theorem bind_fifo?_popped (event : WorkEvent Thread Task) :
    event.fifo?.bind FifoEvent.popped? = event.started? := by
  cases event <;> rfl

end WorkEvent

/-- The tasks of the pushes, in the order in which the mutex admitted them. -/
def pushed (events : List (WorkEvent Thread Task)) : List Task :=
  events.filterMap WorkEvent.pushed?

def started (events : List (WorkEvent Thread Task)) : List Task :=
  events.filterMap WorkEvent.started?

namespace WorkState

variable [DecidableEq Thread]

def initial : WorkState Thread Task := ⟨[], fun _ => false, .outside⟩

/-- The loop thread holds `queue_mutex`. Submitters hold it for one step. -/
def Locked (state : WorkState Thread Task) : Prop :=
  ∃ items, state.process = .draining items

/-- A task of the batch is running on the loop thread. -/
def InTask (state : WorkState Thread Task) : Prop :=
  ∃ items, state.process = .inTask items

def setSubmitting (state : WorkState Thread Task) (submitter : Submitter Thread) (value : Bool) :
    WorkState Thread Task :=
  { state with submitting := Function.update state.submitting submitter value }

/-- The items taken over but not yet started. -/
def batch (state : WorkState Thread Task) : List Task :=
  match state.process with
  | .outside | .locking => []
  | .draining items | .running items | .inTask items => items

/-- The queue has work that no finished drain has seen. -/
def BeforeDrain (state : WorkState Thread Task) : Prop :=
  state.process = .locking ∨ state.Locked

end WorkState

variable [DecidableEq Thread]

inductive WorkStep : WorkState Thread Task → WorkEvent Thread Task → WorkState Thread Task → Prop
  | push (state : WorkState Thread Task) (submitter : Submitter Thread) (task : Task)
      (hmutex : ¬ state.Locked) (hidle : state.submitting submitter = false)
      (hthread : submitter = none → state.InTask) :
      WorkStep state (.push submitter task)
        ({ state with workQueue := state.workQueue ++ [task] }.setSubmitting submitter true)
  | notify (state : WorkState Thread Task) (submitter : Submitter Thread)
      (hsubmitting : state.submitting submitter = true) :
      WorkStep state (.notify submitter) (state.setSubmitting submitter false)
  | call (queue : List Task) (submitting : Submitter Thread → Bool) :
      WorkStep ⟨queue, submitting, .outside⟩ .call ⟨queue, submitting, .locking⟩
  | lock (queue : List Task) (submitting : Submitter Thread → Bool) :
      WorkStep ⟨queue, submitting, .locking⟩ .lock ⟨queue, submitting, .draining []⟩
  | take (task : Task) (queue items : List Task) (submitting : Submitter Thread → Bool) :
      WorkStep ⟨task :: queue, submitting, .draining items⟩ .take
        ⟨queue, submitting, .draining (items ++ [task])⟩
  | unlock (items : List Task) (submitting : Submitter Thread → Bool) :
      WorkStep ⟨[], submitting, .draining items⟩ .unlock ⟨[], submitting, .running items⟩
  | start (task : Task) (queue items : List Task) (submitting : Submitter Thread → Bool) :
      WorkStep ⟨queue, submitting, .running (task :: items)⟩ (.start task)
        ⟨queue, submitting, .inTask items⟩
  | finish (queue items : List Task) (submitting : Submitter Thread → Bool)
      (hidle : submitting none = false) :
      WorkStep ⟨queue, submitting, .inTask items⟩ .finish ⟨queue, submitting, .running items⟩
  | leave (queue : List Task) (submitting : Submitter Thread → Bool) :
      WorkStep ⟨queue, submitting, .running []⟩ .leave ⟨queue, submitting, .outside⟩

/-! ## Order of execution -/

/-- Batch and queue together are one queue, from which `start` takes. -/
theorem workStep_simulates_fifo :
    Simulates (@WorkStep Thread Task _) FifoStep
      (fun state => state.batch ++ state.workQueue) WorkEvent.fifo? where
  visible_step := by
    intro source event target label hstep hvisible
    cases hstep with
    | push _ submitter task =>
        obtain rfl := Option.some.inj hvisible
        have hpush := FifoStep.push (source.batch ++ source.workQueue) task
        rw [List.append_assoc] at hpush
        exact hpush
    | start task queue items submitting =>
        obtain rfl := Option.some.inj hvisible
        exact FifoStep.pop (items ++ queue) task
    | _ => simp [WorkEvent.fifo?] at hvisible
  silent_step := by
    intro source event target hstep hvisible
    cases hstep with
    | push => simp [WorkEvent.fifo?] at hvisible
    | start => simp [WorkEvent.fifo?] at hvisible
    | take task queue items => simp [WorkState.batch]
    | _ => rfl

theorem started_append_run {state : WorkState Thread Task}
    {moves : List (Move (WorkState Thread Task) (WorkEvent Thread Task))}
    (hrun : Run WorkStep .initial moves state) :
    started (labels moves) ++ state.batch ++ state.workQueue = pushed (labels moves) := by
  have hfifo := workStep_simulates_fifo.fifo rfl hrun
  simp only [WorkEvent.bind_fifo?_popped, WorkEvent.bind_fifo?_pushed] at hfifo
  rw [List.append_assoc]
  exact hfifo

/-! ## Work that no drain has seen -/

/-- Work in the queue is accounted for: `notified` will lead to a drain, a
submitter is about to notify, or a drain is under way. -/
def WorkState.Accounted (state : WorkState Thread Task) (notified : Prop) : Prop :=
  state.workQueue ≠ [] →
    notified ∨ (∃ submitter, state.submitting submitter = true) ∨ state.BeforeDrain

namespace WorkStep

variable {source target : WorkState Thread Task} {notified : Prop}
variable {submitter : Submitter Thread} {task : Task} {event : WorkEvent Thread Task}

theorem accounted_push (hstep : WorkStep source (.push submitter task) target) :
    target.Accounted notified := by
  cases hstep with
  | push => exact fun _ => Or.inr (Or.inl ⟨submitter, by simp [WorkState.setSubmitting]⟩)

/-- A step of the loop thread inside `processWork` leaves work behind only
before the drain is over. -/
theorem accounted_loop (hstep : WorkStep source event target) (hloop : ¬ event.BySubmitter)
    (haccounted : source.Accounted notified) : target.Accounted notified := by
  intro hqueue
  cases hstep with
  | push | notify => exact absurd trivial hloop
  | call => exact Or.inr (Or.inr (Or.inl rfl))
  | lock => exact Or.inr (Or.inr (Or.inr ⟨[], rfl⟩))
  | take task queue items => exact Or.inr (Or.inr (Or.inr ⟨items ++ [task], rfl⟩))
  | unlock => exact absurd rfl hqueue
  | start | finish | leave =>
      -- Outside the drain the accounting is that of the source.
      simpa [WorkState.BeforeDrain, WorkState.Locked] using haccounted hqueue

end WorkStep

end CppFragments
