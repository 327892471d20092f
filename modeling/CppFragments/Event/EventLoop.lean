import CppFragments.Event.WorkQueue

/-! # The worker with a user event

`EventLoopWorker` of `event/event_loop.cpp`, with libevent's dispatch loop. The
event is made by `evuser_new` without `EV_PERSIST`, so it is removed when its
callback is run, and nothing adds it again.
-/

namespace CppFragments.EventLoop

open Transition

variable {Thread Task : Type} [DecidableEq Thread]

/-- Where the thread that executes `run` is. -/
inductive LoopPoint
  | notStarted
  /-- In `event_base_dispatch`, outside a callback. -/
  | dispatching
  /-- In `work_callback`, before the call of `processWork`. -/
  | callback
  /-- In `processWork`. -/
  | processing
  | returned

structure WorkerState (Thread Task : Type) where
  work : WorkState Thread Task
  /-- `work_event` is added. -/
  pending : Bool
  /-- `work_event` is triggered, and its callback not yet run for it. -/
  active : Bool
  loop : LoopPoint
  /-- What `event_base_loopbreak` sets. -/
  loopbreak : Bool

inductive WorkerEvent (Thread Task : Type)
  | work (event : WorkEvent Thread Task)
  | run
  | workCallback
  | stop
  | dispatchReturn

/-- As constructed, with the event added. -/
def WorkerState.initial : WorkerState Thread Task :=
  ⟨.initial, true, false, .notStarted, false⟩

inductive WorkerStep :
    WorkerState Thread Task → WorkerEvent Thread Task → WorkerState Thread Task → Prop
  | push {work work' : WorkState Thread Task} (pending active : Bool) (loop : LoopPoint)
      (loopbreak : Bool) {submitter : Submitter Thread} {task : Task}
      (hstep : WorkStep work (.push submitter task) work') :
      WorkerStep ⟨work, pending, active, loop, loopbreak⟩ (.work (.push submitter task))
        ⟨work', pending, active, loop, loopbreak⟩
  /-- `evuser_trigger`, whether or not the event is added. -/
  | trigger {work work' : WorkState Thread Task} (pending active : Bool) (loop : LoopPoint)
      (loopbreak : Bool) {submitter : Submitter Thread}
      (hstep : WorkStep work (.notify submitter) work') :
      WorkerStep ⟨work, pending, active, loop, loopbreak⟩ (.work (.notify submitter))
        ⟨work', pending, true, loop, loopbreak⟩
  | run (work : WorkState Thread Task) (pending active loopbreak : Bool) :
      WorkerStep ⟨work, pending, active, .notStarted, loopbreak⟩ .run
        ⟨work, pending, active, .dispatching, false⟩
  /-- Running the callback removes the event. -/
  | workCallback (work : WorkState Thread Task) (pending loopbreak : Bool) :
      WorkerStep ⟨work, pending, true, .dispatching, loopbreak⟩ .workCallback
        ⟨work, false, false, .callback, loopbreak⟩
  | call {work work' : WorkState Thread Task} (pending active loopbreak : Bool)
      (hstep : WorkStep work .call work') :
      WorkerStep ⟨work, pending, active, .callback, loopbreak⟩ (.work .call)
        ⟨work', pending, active, .processing, loopbreak⟩
  | process {work work' : WorkState Thread Task} (pending active loopbreak : Bool)
      {event : WorkEvent Thread Task} (hinside : event.InsideProcess)
      (hstep : WorkStep work event work') :
      WorkerStep ⟨work, pending, active, .processing, loopbreak⟩ (.work event)
        ⟨work', pending, active, .processing, loopbreak⟩
  | leave {work work' : WorkState Thread Task} (pending active loopbreak : Bool)
      (hstep : WorkStep work .leave work') :
      WorkerStep ⟨work, pending, active, .processing, loopbreak⟩ (.work .leave)
        ⟨work', pending, active, .dispatching, loopbreak⟩
  | stop (work : WorkState Thread Task) (pending active : Bool) (loop : LoopPoint)
      (loopbreak : Bool) :
      WorkerStep ⟨work, pending, active, loop, loopbreak⟩ .stop
        ⟨work, pending, active, loop, true⟩
  /-- Nothing is pending or active, or the loop is to be broken off. -/
  | dispatchReturn (work : WorkState Thread Task) {pending active loopbreak : Bool}
      (hdone : (pending = false ∧ active = false) ∨ loopbreak = true) :
      WorkerStep ⟨work, pending, active, .dispatching, loopbreak⟩ .dispatchReturn
        ⟨work, pending, active, .returned, loopbreak⟩

namespace WorkerEvent

def work? : WorkerEvent Thread Task → Option (WorkEvent Thread Task)
  | .work event => some event
  | _ => none

end WorkerEvent

theorem simulates_work :
    Simulates (@WorkerStep Thread Task _) WorkStep WorkerState.work WorkerEvent.work? where
  visible_step := by
    intro source event target label hstep hvisible
    cases hstep with
    | push _ _ _ _ hwork | trigger _ _ _ _ hwork | call _ _ _ hwork | process _ _ _ _ hwork
    | leave _ _ _ hwork =>
        obtain rfl := Option.some.inj hvisible
        exact hwork
    | _ => simp [WorkerEvent.work?] at hvisible
  silent_step := by
    intro source event target hstep hvisible
    cases hstep with
    | run | workCallback | stop | dispatchReturn => rfl
    | _ => simp [WorkerEvent.work?] at hvisible

/-- In `work_callback`, and the drain of the queue is not over. -/
def WorkerState.BeforeDrain (state : WorkerState Thread Task) : Prop :=
  state.loop = .callback ∨ state.work.BeforeDrain

/-- There is work in the queue, no submitter is about to trigger the event, and
the loop thread will not come for the work. -/
structure WorkerState.Stranded (state : WorkerState Thread Task) : Prop where
  queued : state.work.workQueue ≠ []
  quiet : ∀ submitter, state.work.submitting submitter = false
  lost : ¬ (state.loop ≠ .returned ∧ (state.active = true ∨ state.BeforeDrain))

/-- The last submitter between its push and its trigger triggers the event when
dispatch has returned and the queue is not empty. -/
structure TriggersTooLate (source : WorkerState Thread Task) (event : WorkerEvent Thread Task) :
    Prop where
  trigger : ∃ submitter, event = .work (.notify submitter) ∧
    ∀ other, other ≠ submitter → source.work.submitting other = false
  returned : source.loop = .returned
  queued : source.work.workQueue ≠ []

section Stranding

variable {source target state : WorkerState Thread Task} {event : WorkerEvent Thread Task}
variable {moves : List (Move (WorkerState Thread Task) (WorkerEvent Thread Task))}

/-- Queued work is accounted for by the active event, or by the callback. -/
def WorkerState.Announced (state : WorkerState Thread Task) : Prop :=
  state.work.Accounted (state.active = true ∨ state.loop = .callback)

theorem announced_step (hannounced : source.Announced) (hstep : WorkerStep source event target) :
    target.Announced := by
  cases hstep with
  | push _ _ _ _ hwork => exact hwork.accounted_push
  | trigger => exact fun _ => Or.inl (Or.inl rfl)
  | run => simpa [WorkerState.Announced] using hannounced
  | workCallback => exact fun _ => Or.inl (Or.inr rfl)
  | call _ _ _ hwork =>
      cases hwork
      exact fun _ => Or.inr (Or.inr (Or.inl rfl))
  | process _ _ _ hinside hwork =>
      have hsource := hwork.accounted_loop (WorkEvent.not_bySubmitter_of_insideProcess hinside)
        hannounced
      simpa [WorkerState.Announced] using hsource
  | leave _ _ _ hwork =>
      have hsource := hwork.accounted_loop id hannounced
      simpa [WorkerState.Announced] using hsource
  | stop => exact hannounced
  | dispatchReturn => simpa [WorkerState.Announced] using hannounced

theorem announced_run (hrun : Run WorkerStep .initial moves state) : state.Announced :=
  hrun.reachable.invariant (fun hne => absurd rfl hne)
    fun _ _ _ hsource hstep => announced_step hsource hstep

/-- Outside `processWork` the loop thread holds no batch and no mutex. -/
theorem outside_run (hrun : Run WorkerStep .initial moves state) :
    state.loop ≠ .processing → state.work.process = .outside := by
  refine hrun.induction_on (motive := fun _ state =>
    state.loop ≠ .processing → state.work.process = .outside) (fun _ => rfl) ?_
  intro _ source event target _ hsource hstep
  cases hstep with
  | push _ _ _ _ hwork | trigger _ _ _ _ hwork =>
      cases hwork
      exact hsource
  | run | workCallback | dispatchReturn => exact fun _ => hsource (by simp)
  | call | process => exact fun hloop => absurd rfl hloop
  | leave _ _ _ hwork =>
      cases hwork
      exact fun _ => rfl
  | stop => exact hsource

theorem loopbreak_run (hrun : Run WorkerStep .initial moves state)
    (hstop : ∀ move ∈ moves, move.action ≠ .stop) : state.loopbreak = false := by
  induction hrun with
  | nil => rfl
  | snoc _ hstep ih =>
      simp only [List.forall_mem_append, List.forall_mem_singleton] at hstop
      have hsource := ih hstop.1
      cases hstep with
      | stop => exact absurd rfl hstop.2
      | run => rfl
      | _ => exact hsource

/-- Without a call of `stop`, work is stranded only once dispatch has returned. -/
theorem returned_of_stranded (hrun : Run WorkerStep .initial moves state)
    (hstranded : state.Stranded) : state.loop = .returned := by
  by_contra hloop
  rcases announced_run hrun hstranded.queued with
    (hactive | hcallback) | ⟨submitter, hsubmitting⟩ | hdrain
  · exact hstranded.lost ⟨hloop, Or.inl hactive⟩
  · exact hstranded.lost ⟨hloop, Or.inr (Or.inl hcallback)⟩
  · simp [hstranded.quiet submitter] at hsubmitting
  · exact hstranded.lost ⟨hloop, Or.inr (Or.inr hdrain)⟩

/-- While the loop thread is at rest, queued work waits for a trigger. -/
theorem not_stranded_of_idle (hrun : Run WorkerStep .initial moves state)
    (hactive : state.active = false) (hcallback : state.loop ≠ .callback)
    (hprocessing : state.loop ≠ .processing) : ¬ state.Stranded := by
  intro hstranded
  have houtside := outside_run hrun hprocessing
  rcases announced_run hrun hstranded.queued with
    (hnow | hnow) | ⟨submitter, hsubmitting⟩ | hdrain | ⟨items, hlocked⟩
  · rw [hactive] at hnow
    cases hnow
  · exact hcallback hnow
  · rw [hstranded.quiet submitter] at hsubmitting
    cases hsubmitting
  · rw [houtside] at hdrain
    cases hdrain
  · rw [houtside] at hlocked
    cases hlocked

/-- **A step strands work exactly when it is a trigger that comes too late.** -/
theorem stranded_step_iff (hrun : Run WorkerStep .initial moves source)
    (hstop : ∀ move ∈ moves, move.action ≠ .stop) (hstep : WorkerStep source event target)
    (hevent : event ≠ .stop) : target.Stranded ↔ TriggersTooLate source event := by
  constructor
  · intro hstranded
    have htarget := hrun.snoc hstep
    have hreturned := returned_of_stranded htarget hstranded
    cases hstep with
    | @push _ _ _ _ _ _ submitter task hwork =>
        cases hwork
        simpa [WorkState.setSubmitting] using hstranded.quiet submitter
    | @trigger _ _ _ _ _ _ submitter hwork =>
        cases hwork
        refine ⟨⟨submitter, rfl, fun other hne => ?_⟩, hreturned, hstranded.queued⟩
        simpa [WorkState.setSubmitting, hne] using hstranded.quiet other
    | stop => exact absurd rfl hevent
    | @dispatchReturn work pending active loopbreak hdone =>
        -- Dispatch returned of itself, so the event was not active.
        have hloopbreak : loopbreak = false := loopbreak_run hrun hstop
        have hactive : active = false := by simp_all
        exact absurd hstranded (not_stranded_of_idle htarget hactive (by simp) (by simp))
    | _ => cases hreturned
  · intro hlate
    rcases hlate with ⟨⟨submitter, rfl, hothers⟩, hreturned, hqueued⟩
    cases hstep with
    | trigger _ _ _ _ hwork =>
        cases hwork
        refine ⟨hqueued, fun other => ?_, fun hlost => hlost.1 hreturned⟩
        by_cases hother : other = submitter
        · simp [WorkState.setSubmitting, hother]
        · simpa [WorkState.setSubmitting, hother] using hothers other hother
    | process _ _ _ hinside => exact absurd hinside id

/-- **Before `stop` is called, no task is stranded exactly as long as no
trigger comes too late**: after dispatch has returned, with work in the queue
and no other submitter still to trigger. -/
theorem not_stranded_iff (hrun : Run WorkerStep .initial moves state)
    (hstop : ∀ move ∈ moves, move.action ≠ .stop) :
    (∀ move ∈ moves, ¬ move.target.Stranded) ↔
      ∀ move ∈ moves, ¬ TriggersTooLate move.source move.action := by
  refine forall₂_congr fun move hmove => not_congr ?_
  obtain ⟨before, hbefore, hstep, hmoves⟩ := hrun.exists_before hmove
  refine stranded_step_iff hbefore (fun earlier hearlier => ?_) hstep (hstop move hmove)
  exact hstop earlier (((List.prefix_append _ _).trans hmoves).subset hearlier)

/-- The first submission of a task, before `run`. -/
def pushedOnce : WorkerState Unit Nat :=
  ⟨({ WorkState.initial with workQueue := [0] }).setSubmitting (some ()) true, true, false,
    .notStarted, false⟩

def triggeredOnce : WorkerState Unit Nat :=
  { pushedOnce with work := pushedOnce.work.setSubmitting (some ()) false, active := true }

def submitMoves : List (Move (WorkerState Unit Nat) (WorkerEvent Unit Nat)) :=
  [⟨.initial, .work (.push (some ()) 0), pushedOnce⟩,
    ⟨pushedOnce, .work (.notify (some ())), triggeredOnce⟩]

theorem run_submitMoves : Run WorkerStep .initial submitMoves triggeredOnce := by
  have hpush : WorkerStep .initial (.work (.push (some ()) 0)) pushedOnce :=
    .push _ _ _ _ (.push _ _ _ (by simp [WorkState.Locked, WorkState.initial]) rfl nofun)
  have htrigger : WorkerStep pushedOnce (.work (.notify (some ()))) triggeredOnce :=
    .trigger _ _ _ _ (.notify _ _ rfl)
  exact (Run.nil.snoc hpush).snoc htrigger

theorem not_stranded_iff_submitMoves :
    (∀ move ∈ submitMoves, ¬ move.target.Stranded) ↔
      ∀ move ∈ submitMoves, ¬ TriggersTooLate move.source move.action :=
  not_stranded_iff run_submitMoves (by simp [submitMoves])

/-- The program's own scenario: the first task is run, dispatch returns for
want of events, and the second task is never run. -/
theorem secondTask_stranded :
    ∃ (moves : List (Move (WorkerState Unit Nat) (WorkerEvent Unit Nat)))
      (state : WorkerState Unit Nat), Run WorkerStep .initial moves state ∧
      (∀ move ∈ moves, move.action ≠ .stop) ∧ state.work.workQueue = [1] ∧ state.Stranded := by
  have hrun := run_submitMoves.snoc (.run _ _ _ _)
  have hcallback := (hrun.snoc (.workCallback _ _ _)).snoc (.call _ _ _ (.call _ _))
  have hlock := hcallback.snoc (.process _ _ _ (show WorkEvent.lock.InsideProcess from trivial)
    (.lock _ _))
  have htake := hlock.snoc (.process _ _ _ (show WorkEvent.take.InsideProcess from trivial)
    (.take _ _ _ _))
  have hunlock := htake.snoc (.process _ _ _ (show WorkEvent.unlock.InsideProcess from trivial)
    (.unlock _ _))
  have hstart := hunlock.snoc (.process _ _ _ (show (WorkEvent.start 0).InsideProcess from trivial)
    (.start _ _ _ _))
  have hfinish := hstart.snoc (.process _ _ _ (show WorkEvent.finish.InsideProcess from trivial)
    (.finish _ _ _ rfl))
  have hreturn := (hfinish.snoc (.leave _ _ _ (.leave _ _))).snoc
    (.dispatchReturn _ (Or.inl ⟨rfl, rfl⟩))
  have hpush := hreturn.snoc (.push _ _ _ _
    (.push _ (some ()) 1 (by simp [WorkState.Locked]) rfl nofun))
  refine ⟨_, _, hpush.snoc (.trigger _ _ _ _ (.notify _ (some ())
    (by simp [WorkState.setSubmitting]))), by simp [submitMoves], ?_, ?_⟩
  · simp [WorkState.setSubmitting]
  refine ⟨by simp [WorkState.setSubmitting], fun submitter => ?_, fun hlost => hlost.1 rfl⟩
  rcases submitter with _ | ⟨⟩
  · rfl
  · rfl

end Stranding

end CppFragments.EventLoop
