import CppFragments.Event.EventBase
import CppFragments.Event.Order
import CppFragments.Transition.Settle

/-! # The pipe-notified worker, left alone

Once no submission is under way and as long as no task submits, the loop thread of
`event/event_base.cpp` runs every task that was ever pushed and then blocks in
`event_base_dispatch`.
-/

namespace CppFragments.EventBase

open Transition

variable {Thread Task : Type} [DecidableEq Thread]

/-- Made by the thread that executes `run`, outside `submitWork` and `stop`. -/
def WorkerEvent.ByLoop : WorkerEvent Thread Task → Prop
  | .work event => ¬ event.BySubmitter
  | .stop => False
  | _ => True

/-- The steps of the loop thread alone. Excluded are the submissions that the tasks
running on it make. -/
def LoopThreadStep (capacity : Nat) (source : WorkerState Thread Task)
    (event : WorkerEvent Thread Task) (target : WorkerState Thread Task) : Prop :=
  WorkerStep capacity source event target ∧ event.ByLoop

namespace WorkerState

/-- Blocked in `event_base_dispatch` with nothing to do. -/
structure Idle (state : WorkerState Thread Task) : Prop where
  loop : state.loop = .dispatching
  notifyPipe : state.notifyPipe = 0
  workQueue : state.work.workQueue = []

/-- `processWork` is entered from `notify_cb` only. -/
def Coherent (state : WorkerState Thread Task) : Prop :=
  state.loop = .processing ↔ state.work.process ≠ .outside

/-- No submission is under way, and `stop` has not been called on a loop that
runs. -/
structure LeftAlone (state : WorkerState Thread Task) : Prop where
  coherent : state.Coherent
  announced : state.Announced
  submitting : ∀ submitter, state.work.submitting submitter = false
  notStopped : state.loop = .notStarted ∨ state.loopbreak = false
  notReturned : state.loop ≠ .returned

/-- The steps of one round, from `notify_cb` until it returns. -/
def roundSteps (notifyPipe queued : Nat) : Nat :=
  if 0 < notifyPipe then notifyPipe + 3 * queued + 5 else 0

/-- How many steps the loop thread has still to take. -/
def remaining (state : WorkerState Thread Task) : Nat :=
  let queued := state.work.workQueue.length
  match state.loop, state.work.process with
  | .notStarted, _ => roundSteps state.notifyPipe queued + 1
  | .dispatching, _ => roundSteps state.notifyPipe queued
  | .reading, _ => state.notifyPipe + 3 * queued + 4
  | .processing, .outside => 0
  | .processing, .locking => 3 * queued + 3 + roundSteps state.notifyPipe 0
  | .processing, .draining items =>
      3 * queued + 2 * items.length + 2 + roundSteps state.notifyPipe 0
  | .processing, .running items => 2 * items.length + 1 + roundSteps state.notifyPipe queued
  | .processing, .inTask items => 2 * items.length + 2 + roundSteps state.notifyPipe queued
  | .returned, _ => 0

end WorkerState

open WorkerState

section Steps

variable {capacity : Nat} {source target state : WorkerState Thread Task}
variable {event : WorkerEvent Thread Task}

theorem coherent_step (hcoherent : source.Coherent)
    (hstep : WorkerStep capacity source event target) : target.Coherent := by
  cases hstep with
  | push _ _ _ hwork =>
      cases hwork
      exact hcoherent
  | write _ _ _ hwork =>
      cases hwork
      exact hcoherent
  | call _ hwork =>
      cases hwork
      simp [Coherent]
  | process _ _ hinside hwork =>
      cases hwork <;> simp_all [Coherent, WorkEvent.InsideProcess]
  | leave _ _ hwork =>
      cases hwork
      simp [Coherent]
  | _ => simp_all [Coherent]

theorem coherent_of_reachable (hreach : Reachable (WorkerStep capacity) .initial state) :
    state.Coherent :=
  hreach.invariant (by simp [Coherent, WorkerState.initial, WorkState.initial])
    fun _ _ _ hcoherent hstep => coherent_step hcoherent hstep

theorem announced_of_reachable (hcapacity : 0 < capacity)
    (hreach : Reachable (WorkerStep capacity) .initial state) : state.Announced :=
  hreach.invariant (fun hne => absurd rfl hne)
    fun _ _ _ hsource hstep => announced_step hcapacity hsource hstep

theorem WorkerState.LeftAlone.step (halone : source.LeftAlone)
    (hstep : LoopThreadStep capacity source event target) (hcapacity : 0 < capacity) :
    target.LeftAlone := by
  obtain ⟨hstep, hloop⟩ := hstep
  have hcoherent := coherent_step halone.coherent hstep
  have hannounced := announced_step hcapacity halone.announced hstep
  obtain ⟨_, _, hsubmitting, hnotStopped, hnotReturned⟩ := halone
  cases hstep with
  | push => exact absurd trivial hloop
  | write => exact absurd trivial hloop
  | stop => exact absurd hloop id
  | dispatchReturn => simp at hnotStopped
  | run => exact ⟨hcoherent, hannounced, hsubmitting, Or.inr rfl, nofun⟩
  | call _ hwork =>
      refine ⟨hcoherent, hannounced, ?_, Or.inr (hnotStopped.resolve_left nofun), nofun⟩
      cases hwork
      exact hsubmitting
  | process _ _ hinside hwork =>
      refine ⟨hcoherent, hannounced, ?_, Or.inr (hnotStopped.resolve_left nofun), nofun⟩
      cases hwork with
      | push => exact absurd hinside id
      | notify => exact absurd hinside id
      | _ => exact hsubmitting
  | leave _ _ hwork =>
      refine ⟨hcoherent, hannounced, ?_, Or.inr (hnotStopped.resolve_left nofun), nofun⟩
      cases hwork
      exact hsubmitting
  | _ => exact ⟨hcoherent, hannounced, hsubmitting, Or.inr (hnotStopped.resolve_left nofun), nofun⟩

/-- Every step of the loop thread is one of those that remain. -/
theorem WorkerState.LeftAlone.remaining_lt (halone : source.LeftAlone)
    (hstep : LoopThreadStep capacity source event target) :
    target.remaining < source.remaining := by
  obtain ⟨hstep, hloop⟩ := hstep
  cases hstep with
  | push => exact absurd trivial hloop
  | write => exact absurd trivial hloop
  | stop => exact absurd hloop id
  | dispatchReturn => exact absurd halone.notStopped (by simp)
  | run => exact Nat.lt_succ_self _
  | notifyCb _ _ hready =>
      simp only [remaining, roundSteps, if_pos hready]
      omega
  | readByte =>
      simp only [remaining]
      omega
  | call _ hwork =>
      cases hwork
      simp [remaining, roundSteps]
  | process _ _ hinside hwork =>
      cases hwork with
      | push => exact absurd hinside id
      | notify => exact absurd hinside id
      | call => exact absurd hinside id
      | leave => exact absurd hinside id
      | lock =>
          simp only [remaining, List.length_nil]
          omega
      | take =>
          simp only [remaining, List.length_cons, List.length_append, List.length_nil]
          omega
      | unlock =>
          simp only [remaining, List.length_nil]
          omega
      | start =>
          simp only [remaining, List.length_cons]
          omega
      | finish =>
          simp only [remaining]
          omega
  | leave _ _ hwork =>
      cases hwork
      simp only [remaining, List.length_nil]
      omega

theorem exists_process {work work' : WorkState Thread Task} {event : WorkEvent Thread Task}
    (pipe : Nat) (loopbreak : Bool) (hwork : WorkStep work event work')
    (hinside : event.InsideProcess) :
    ∃ event target, LoopThreadStep capacity ⟨work, pipe, .processing, loopbreak⟩ event target :=
  ⟨_, _, .process pipe loopbreak hinside hwork, WorkEvent.not_bySubmitter_of_insideProcess hinside⟩

/-- The loop thread is never stuck before it is idle. -/
theorem WorkerState.LeftAlone.exists_step (halone : state.LeftAlone) (hidle : ¬ state.Idle) :
    ∃ event target, LoopThreadStep capacity state event target := by
  rcases state with ⟨⟨queue, submitting, process⟩, pipe, loop, loopbreak⟩
  have hcoherent := halone.coherent
  have hsubmitting : submitting none = false := halone.submitting none
  cases loop with
  | notStarted => exact ⟨_, _, .run _ _ _, trivial⟩
  | dispatching =>
      cases pipe with
      | zero =>
          -- Without a byte in the pipe there is no work either.
          have houtside : process = .outside := by simpa [Coherent] using hcoherent
          subst houtside
          cases queue with
          | nil => exact absurd ⟨rfl, rfl, rfl⟩ hidle
          | cons task queue =>
              have hannounced := halone.announced (List.cons_ne_nil _ _)
              have hnone := halone.submitting
              simp_all [WorkState.BeforeDrain, WorkState.Locked]
      | succ pipe => exact ⟨_, _, .notifyCb _ _ (Nat.succ_pos pipe), trivial⟩
  | reading =>
      cases pipe with
      | zero =>
          have houtside : process = .outside := by simpa [Coherent] using hcoherent
          subst houtside
          exact ⟨_, _, .call _ (.call _ _), id⟩
      | succ pipe => exact ⟨_, _, .readByte _ _ _, trivial⟩
  | processing =>
      cases process with
      | outside => exact absurd rfl (hcoherent.mp rfl)
      | locking => exact exists_process _ _ (.lock _ _) trivial
      | draining items =>
          cases queue with
          | nil => exact exists_process _ _ (.unlock _ _) trivial
          | cons task queue => exact exists_process _ _ (.take _ _ _ _) trivial
      | running items =>
          cases items with
          | nil => exact ⟨_, _, .leave _ _ (.leave _ _), id⟩
          | cons task items => exact exists_process _ _ (.start _ _ _ _) trivial
      | inTask items => exact exists_process _ _ (.finish _ _ _ hsubmitting) trivial
  | returned => exact absurd rfl halone.notReturned

theorem settles_leftAlone (hcapacity : 0 < capacity) :
    Settles (@LoopThreadStep Thread Task _ capacity) LeftAlone remaining Idle where
  keeps := fun _ _ _ halone hstep => halone.step hstep hcapacity
  lowers := fun _ _ _ halone hstep => halone.remaining_lt hstep
  enabled := fun _ halone hidle => halone.exists_step hidle

end Steps

section Traces

variable {Thread Task : Type}
variable {event : WorkerEvent Thread Task}
variable {first second : List (Move (WorkerState Thread Task) (WorkerEvent Thread Task))}

/-- The tasks that a run has started. -/
def startedTasks (moves : List (Move (WorkerState Thread Task) (WorkerEvent Thread Task))) :
    List Task :=
  started ((labels moves).filterMap WorkerEvent.work?)

def pushedTasks (moves : List (Move (WorkerState Thread Task) (WorkerEvent Thread Task))) :
    List Task :=
  pushed ((labels moves).filterMap WorkerEvent.work?)

@[simp] theorem startedTasks_append :
    startedTasks (first ++ second) = startedTasks first ++ startedTasks second := by
  simp only [startedTasks, started, labels_append, List.filterMap_append]

@[simp] theorem pushedTasks_append :
    pushedTasks (first ++ second) = pushedTasks first ++ pushedTasks second := by
  simp only [pushedTasks, pushed, labels_append, List.filterMap_append]

theorem work?_pushed_of_byLoop (hloop : event.ByLoop) :
    event.work?.bind WorkEvent.pushed? = none := by
  cases event with
  | work event =>
      cases event with
      | push => exact absurd trivial hloop
      | _ => rfl
  | _ => rfl

end Traces

section Runs

variable {capacity : Nat} {state final : WorkerState Thread Task}
variable {before moves : List (Move (WorkerState Thread Task) (WorkerEvent Thread Task))}

theorem pushedTasks_loopThread (hrun : Run (LoopThreadStep capacity) state moves final) :
    pushedTasks moves = [] := by
  rw [pushedTasks, pushed, List.filterMap_filterMap, List.filterMap_eq_nil_iff]
  intro event hevent
  obtain ⟨move, hmove, rfl⟩ := List.mem_map.mp hevent
  obtain ⟨_, _, hstep, _⟩ := hrun.exists_before hmove
  exact work?_pushed_of_byLoop hstep.2

/-- Outside `processWork`, what was pushed has been started or is in the queue. -/
theorem started_append_workQueue (hrun : Run (WorkerStep capacity) .initial moves state)
    (hloop : state.loop ≠ .processing) :
    startedTasks moves ++ state.work.workQueue = pushedTasks moves := by
  have hcoherent := coherent_of_reachable hrun.reachable
  have horder := started_append_of_simulates (simulates_work capacity) rfl hrun
  have houtside : state.work.process = .outside := by
    by_contra hinside
    exact hloop (hcoherent.mpr hinside)
  rw [WorkState.batch, houtside, List.append_nil] at horder
  exact horder

/-- An idle loop has started all that was pushed. -/
theorem startedTasks_of_idle (hrun : Run (WorkerStep capacity) .initial moves final)
    (hidle : final.Idle) : startedTasks moves = pushedTasks moves := by
  have horder := started_append_workQueue hrun (by rw [hidle.loop]; nofun)
  rwa [hidle.workQueue, List.append_nil] at horder

/-- **Left alone, the loop thread runs all tasks.** It takes no more than the steps
that remain, it cannot get stuck before it blocks with an empty queue, and by
then every task pushed has been started. -/
theorem all_tasks_started (hcapacity : 0 < capacity)
    (hbefore : Run (WorkerStep capacity) .initial before state)
    (hsubmitting : ∀ submitter, state.work.submitting submitter = false)
    (hnotStopped : state.loop = .notStarted ∨ state.loopbreak = false)
    (hnotReturned : state.loop ≠ .returned)
    (hrun : Run (LoopThreadStep capacity) state moves final) :
    moves.length ≤ state.remaining ∧
      (∃ more last, Run (LoopThreadStep capacity) state (moves ++ more) last ∧ last.Idle) ∧
      ((∀ event target, ¬ LoopThreadStep capacity final event target) →
        final.Idle ∧ startedTasks (before ++ moves) = pushedTasks before) := by
  have halone : state.LeftAlone :=
    ⟨coherent_of_reachable hbefore.reachable, announced_of_reachable hcapacity hbefore.reachable,
      hsubmitting, hnotStopped, hnotReturned⟩
  have hsettles : Settles (@LoopThreadStep Thread Task _ capacity) LeftAlone remaining Idle :=
    settles_leftAlone hcapacity
  refine ⟨?_, hsettles.exists_settled halone hrun, ?_⟩
  · have hlength := hsettles.length_add_le halone hrun
    omega
  · intro hstuck
    have hidle := hsettles.settled_of_stuck halone hrun hstuck
    have htotal := hbefore.append (hrun.mono fun _ _ _ hstep => hstep.1)
    refine ⟨hidle, (startedTasks_of_idle htotal hidle).trans ?_⟩
    rw [pushedTasks_append, pushedTasks_loopThread hrun, List.append_nil]

/-- The submitter of `pushMoves` has written its byte. -/
def announcedOnce : WorkerState Unit Nat :=
  ⟨pushedOnce.work.setSubmitting (some ()) false, 1, .notStarted, false⟩

def announceMoves : List (Move (WorkerState Unit Nat) (WorkerEvent Unit Nat)) :=
  pushMoves ++ [⟨pushedOnce, .work (.notify (some ())), announcedOnce⟩]

def dispatchedOnce : WorkerState Unit Nat :=
  { announcedOnce with loop := .dispatching }

theorem run_announceMoves : Run (WorkerStep 1) .initial announceMoves announcedOnce :=
  (run_pushMoves 1).snoc (.write 0 .notStarted false
    (.notify _ _ (by simp [WorkState.setSubmitting])))

theorem all_tasks_started_announcedOnce :
    [(⟨announcedOnce, .run, dispatchedOnce⟩ :
        Move (WorkerState Unit Nat) (WorkerEvent Unit Nat))].length ≤ announcedOnce.remaining ∧
      (∃ more last, Run (LoopThreadStep 1) announcedOnce
        ([⟨announcedOnce, .run, dispatchedOnce⟩] ++ more) last ∧ last.Idle) ∧
      ((∀ event target, ¬ LoopThreadStep 1 dispatchedOnce event target) →
        dispatchedOnce.Idle ∧
          startedTasks (announceMoves ++ [⟨announcedOnce, .run, dispatchedOnce⟩]) =
            pushedTasks announceMoves) := by
  refine all_tasks_started (by decide) run_announceMoves ?_ (Or.inl rfl) nofun
    (Run.nil.snoc ⟨.run _ _ _, trivial⟩)
  intro submitter
  rcases submitter with _ | ⟨⟩ <;>
    simp [announcedOnce, pushedOnce, WorkState.setSubmitting, WorkState.initial]

end Runs

end CppFragments.EventBase
