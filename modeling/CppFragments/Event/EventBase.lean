import CppFragments.Event.WorkQueue

/-! # The pipe-notified worker

`EventLoopWorker` of `event/event_base.cpp`, with libevent's dispatch loop and
a non-blocking pipe that holds at most `capacity` bytes.
-/

namespace CppFragments.EventBase

open Transition

variable {Thread Task : Type} [DecidableEq Thread]

/-- Where the thread that executes `run` is. -/
inductive LoopPoint
  | notStarted
  /-- In `event_base_dispatch`, outside a callback. -/
  | dispatching
  /-- In `notify_cb`, reading the pipe. -/
  | reading
  /-- In `processWork`. -/
  | processing
  | returned

structure WorkerState (Thread Task : Type) where
  work : WorkState Thread Task
  /-- The number of bytes in `notify_pipe`. -/
  notifyPipe : Nat
  loop : LoopPoint
  /-- What `event_base_loopbreak` sets. -/
  loopbreak : Bool

inductive WorkerEvent (Thread Task : Type)
  | work (event : WorkEvent Thread Task)
  | run
  | notifyCb
  | readByte
  | stop
  | dispatchReturn

/-- As constructed, with an empty pipe. -/
def WorkerState.initial : WorkerState Thread Task :=
  ⟨.initial, 0, .notStarted, false⟩

inductive WorkerStep (capacity : Nat) :
    WorkerState Thread Task → WorkerEvent Thread Task → WorkerState Thread Task → Prop
  | push {work work' : WorkState Thread Task} (pipe : Nat) (loop : LoopPoint) (loopbreak : Bool)
      {submitter : Submitter Thread} {task : Task}
      (hstep : WorkStep work (.push submitter task) work') :
      WorkerStep capacity ⟨work, pipe, loop, loopbreak⟩ (.work (.push submitter task))
        ⟨work', pipe, loop, loopbreak⟩
  /-- The write of `submitWork` fails when the pipe is full. -/
  | write {work work' : WorkState Thread Task} (pipe : Nat) (loop : LoopPoint) (loopbreak : Bool)
      {submitter : Submitter Thread} (hstep : WorkStep work (.notify submitter) work') :
      WorkerStep capacity ⟨work, pipe, loop, loopbreak⟩ (.work (.notify submitter))
        ⟨work', if pipe < capacity then pipe + 1 else pipe, loop, loopbreak⟩
  | run (work : WorkState Thread Task) (pipe : Nat) (loopbreak : Bool) :
      WorkerStep capacity ⟨work, pipe, .notStarted, loopbreak⟩ .run
        ⟨work, pipe, .dispatching, false⟩
  | notifyCb (work : WorkState Thread Task) {pipe : Nat} (loopbreak : Bool) (hready : 0 < pipe) :
      WorkerStep capacity ⟨work, pipe, .dispatching, loopbreak⟩ .notifyCb
        ⟨work, pipe, .reading, loopbreak⟩
  | readByte (work : WorkState Thread Task) (pipe : Nat) (loopbreak : Bool) :
      WorkerStep capacity ⟨work, pipe + 1, .reading, loopbreak⟩ .readByte
        ⟨work, pipe, .reading, loopbreak⟩
  /-- The read of an empty pipe fails, and `processWork` is called. -/
  | call {work work' : WorkState Thread Task} (loopbreak : Bool)
      (hstep : WorkStep work .call work') :
      WorkerStep capacity ⟨work, 0, .reading, loopbreak⟩ (.work .call)
        ⟨work', 0, .processing, loopbreak⟩
  | process {work work' : WorkState Thread Task} (pipe : Nat) (loopbreak : Bool)
      {event : WorkEvent Thread Task} (hinside : event.InsideProcess)
      (hstep : WorkStep work event work') :
      WorkerStep capacity ⟨work, pipe, .processing, loopbreak⟩ (.work event)
        ⟨work', pipe, .processing, loopbreak⟩
  | leave {work work' : WorkState Thread Task} (pipe : Nat) (loopbreak : Bool)
      (hstep : WorkStep work .leave work') :
      WorkerStep capacity ⟨work, pipe, .processing, loopbreak⟩ (.work .leave)
        ⟨work', pipe, .dispatching, loopbreak⟩
  | stop (work : WorkState Thread Task) (pipe : Nat) (loop : LoopPoint) (loopbreak : Bool) :
      WorkerStep capacity ⟨work, pipe, loop, loopbreak⟩ .stop ⟨work, pipe, loop, true⟩
  | dispatchReturn (work : WorkState Thread Task) (pipe : Nat) :
      WorkerStep capacity ⟨work, pipe, .dispatching, true⟩ .dispatchReturn
        ⟨work, pipe, .returned, true⟩

namespace WorkerEvent

def work? : WorkerEvent Thread Task → Option (WorkEvent Thread Task)
  | .work event => some event
  | _ => none

end WorkerEvent

theorem simulates_work (capacity : Nat) :
    Simulates (@WorkerStep Thread Task _ capacity) WorkStep WorkerState.work
      WorkerEvent.work? where
  visible_step := by
    intro source event target label hstep hvisible
    cases hstep with
    | push _ _ _ hwork | write _ _ _ hwork | call _ hwork | process _ _ _ hwork
    | leave _ _ hwork =>
        obtain rfl := Option.some.inj hvisible
        exact hwork
    | _ => simp [WorkerEvent.work?] at hvisible
  silent_step := by
    intro source event target hstep hvisible
    cases hstep with
    | run | notifyCb | readByte | stop | dispatchReturn => rfl
    | _ => simp [WorkerEvent.work?] at hvisible

/-- Inside `notify_cb`, and the drain of the queue is not over. -/
def WorkerState.BeforeDrain (state : WorkerState Thread Task) : Prop :=
  state.loop = .reading ∨ state.work.BeforeDrain

section Wakeup

variable {capacity : Nat} {source target state : WorkerState Thread Task}
variable {event : WorkerEvent Thread Task}

/-- Queued work is accounted for by a byte in the pipe or by the reading of the
pipe that comes before the drain. -/
def WorkerState.Announced (state : WorkerState Thread Task) : Prop :=
  state.work.Accounted (0 < state.notifyPipe ∨ state.loop = .reading)

theorem announced_step (hcapacity : 0 < capacity) (hannounced : source.Announced)
    (hstep : WorkerStep capacity source event target) : target.Announced := by
  cases hstep with
  | push _ _ _ hwork => exact hwork.accounted_push
  | write pipe loop loopbreak hwork =>
      -- A full pipe is not empty.
      refine fun _ => Or.inl (Or.inl ?_)
      dsimp only
      split <;> omega
  | run => simpa [WorkerState.Announced] using hannounced
  | notifyCb => exact fun _ => Or.inl (Or.inr rfl)
  | readByte => exact fun _ => Or.inl (Or.inr rfl)
  | call _ hwork =>
      cases hwork
      exact fun _ => Or.inr (Or.inr (Or.inl rfl))
  | process _ _ hinside hwork =>
      have hsource := hwork.accounted_loop (WorkEvent.not_bySubmitter_of_insideProcess hinside)
        hannounced
      simpa [WorkerState.Announced] using hsource
  | leave _ _ hwork =>
      have hsource := hwork.accounted_loop id hannounced
      simpa [WorkerState.Announced] using hsource
  | stop => exact hannounced
  | dispatchReturn => simpa [WorkerState.Announced] using hannounced

/-- **No wake-up is lost.** Whenever there is work in the queue there is a byte
in the pipe, or a submitter about to write one, or the loop thread is on its
way to the queue. -/
theorem no_lost_wakeup (hcapacity : 0 < capacity)
    (hreach : Reachable (WorkerStep capacity) .initial state)
    (hqueue : state.work.workQueue ≠ []) :
    0 < state.notifyPipe ∨ (∃ submitter, state.work.submitting submitter = true) ∨
      state.BeforeDrain := by
  have hannounced : state.Announced :=
    hreach.invariant (fun hne => absurd rfl hne)
      fun _ _ _ hsource hstep => announced_step hcapacity hsource hstep
  rcases hannounced hqueue with (hpipe | hreading) | hsubmitting | hdrain
  · exact Or.inl hpipe
  · exact Or.inr (Or.inr (Or.inl hreading))
  · exact Or.inr (Or.inl hsubmitting)
  · exact Or.inr (Or.inr (Or.inr hdrain))

/-- A submitter has pushed its task and not yet written its byte. -/
def pushedOnce : WorkerState Unit Nat :=
  ⟨({ WorkState.initial with workQueue := [0] }).setSubmitting (some ()) true, 0, .notStarted,
    false⟩

def pushMoves : List (Move (WorkerState Unit Nat) (WorkerEvent Unit Nat)) :=
  [⟨.initial, .work (.push (some ()) 0), pushedOnce⟩]

theorem run_pushMoves (capacity : Nat) : Run (WorkerStep capacity) .initial pushMoves pushedOnce :=
  Run.nil.snoc (.push 0 .notStarted false
    (.push .initial (some ()) 0 (by simp [WorkState.Locked, WorkState.initial]) rfl nofun))

theorem no_lost_wakeup_pushedOnce :
    0 < pushedOnce.notifyPipe ∨
      (∃ submitter, pushedOnce.work.submitting submitter = true) ∨ pushedOnce.BeforeDrain :=
  no_lost_wakeup (by decide) (run_pushMoves 1).reachable
    (by simp [pushedOnce, WorkState.setSubmitting])

end Wakeup

end CppFragments.EventBase
