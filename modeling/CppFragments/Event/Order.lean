import CppFragments.Event.EventBase
import CppFragments.Event.EventLoop

/-! # Order of the tasks

Both workers run the tasks in the order of their pushes, each at most once,
however the submitters and the loop thread are interleaved.
-/

namespace CppFragments

open Transition

section Order

variable {Thread Task : Type} [DecidableEq Thread]

/-- What the steps of a worker are, as steps on the queue and the batch, keeps
its order of execution. -/
theorem started_append_of_simulates {σ α : Type} {step : σ → α → σ → Prop} {init state : σ}
    {work : σ → WorkState Thread Task} {work? : α → Option (WorkEvent Thread Task)}
    (hsim : Simulates step WorkStep work work?) (hinit : work init = .initial)
    {moves : List (Move σ α)} (hrun : Run step init moves state) :
    started ((labels moves).filterMap work?) ++ (work state).batch ++ (work state).workQueue =
      pushed ((labels moves).filterMap work?) := by
  obtain ⟨moves', hrun', hlabels⟩ := hsim.run hrun
  rw [hinit] at hrun'
  rw [← hlabels]
  exact started_append_run hrun'

/-- **Tasks run at most once and in the order of submission.** The tasks
started, the rest of the batch and the queue make up the tasks pushed. -/
theorem tasks_in_order (capacity : Nat) :
    (∀ (moves : List (Move (EventBase.WorkerState Thread Task)
          (EventBase.WorkerEvent Thread Task))) (state : EventBase.WorkerState Thread Task),
        Run (EventBase.WorkerStep capacity) .initial moves state →
        started ((labels moves).filterMap EventBase.WorkerEvent.work?) ++ state.work.batch ++
            state.work.workQueue =
          pushed ((labels moves).filterMap EventBase.WorkerEvent.work?)) ∧
      ∀ (moves : List (Move (EventLoop.WorkerState Thread Task)
          (EventLoop.WorkerEvent Thread Task))) (state : EventLoop.WorkerState Thread Task),
        Run EventLoop.WorkerStep .initial moves state →
        started ((labels moves).filterMap EventLoop.WorkerEvent.work?) ++ state.work.batch ++
            state.work.workQueue =
          pushed ((labels moves).filterMap EventLoop.WorkerEvent.work?) :=
  ⟨fun _ _ hrun => started_append_of_simulates (EventBase.simulates_work capacity) rfl hrun,
    fun _ _ hrun => started_append_of_simulates EventLoop.simulates_work rfl hrun⟩

/-- Two threads have submitted a task each. The first task is running and has submitted a
third one, while the second is in the batch. -/
theorem tasks_in_order_reentrant :
    (∃ (moves : List (Move (EventBase.WorkerState Bool Nat) (EventBase.WorkerEvent Bool Nat)))
        (state : EventBase.WorkerState Bool Nat),
      Run (EventBase.WorkerStep 1) .initial moves state ∧
      started ((labels moves).filterMap EventBase.WorkerEvent.work?) = [0] ∧
      state.work.batch = [1] ∧ state.work.workQueue = [2] ∧
      [0] ++ [1] ++ [2] = pushed ((labels moves).filterMap EventBase.WorkerEvent.work?)) ∧
    ∃ (moves : List (Move (EventLoop.WorkerState Bool Nat) (EventLoop.WorkerEvent Bool Nat)))
        (state : EventLoop.WorkerState Bool Nat),
      Run EventLoop.WorkerStep .initial moves state ∧
      started ((labels moves).filterMap EventLoop.WorkerEvent.work?) = [0] ∧
      state.work.batch = [1] ∧ state.work.workQueue = [2] ∧
      [0] ++ [1] ++ [2] = pushed ((labels moves).filterMap EventLoop.WorkerEvent.work?) := by
  have hlock : (WorkEvent.lock : WorkEvent Bool Nat).InsideProcess := trivial
  have htake : (WorkEvent.take : WorkEvent Bool Nat).InsideProcess := trivial
  have hunlock : (WorkEvent.unlock : WorkEvent Bool Nat).InsideProcess := trivial
  have hstart : (WorkEvent.start 0 : WorkEvent Bool Nat).InsideProcess := trivial
  constructor
  · have hinitial : Run (EventBase.WorkerStep 1)
        (EventBase.WorkerState.initial : EventBase.WorkerState Bool Nat) [] .initial := .nil
    have hpushed := (hinitial.snoc
      (.push _ _ _ (.push .initial (some false) 0 (by simp [WorkState.Locked, WorkState.initial])
        rfl nofun))).snoc
      (.push _ _ _ (.push _ (some true) 1 (by simp [WorkState.Locked, WorkState.initial,
        WorkState.setSubmitting]) rfl nofun))
    have hwritten := (hpushed.snoc (.write _ _ _ (.notify _ (some true) rfl))).snoc
      (.write _ _ _ (.notify _ (some false) rfl))
    have hcalled := (((hwritten.snoc (.run _ _ _)).snoc (.notifyCb _ _ (by decide))).snoc
      (.readByte _ _ _)).snoc (.call _ (.call _ _))
    have hdrained := (((hcalled.snoc (.process _ _ hlock (.lock _ _))).snoc
      (.process _ _ htake (.take _ _ _ _))).snoc (.process _ _ htake (.take _ _ _ _))).snoc
      (.process _ _ hunlock (.unlock _ _))
    have hrun := (hdrained.snoc (.process _ _ hstart (.start _ _ _ _))).snoc
      (.push _ _ _ (.push _ none 2 (by simp [WorkState.Locked]) rfl fun _ => ⟨_, rfl⟩))
    exact ⟨_, _, hrun, rfl, rfl, rfl, (tasks_in_order 1).1 _ _ hrun⟩
  · have hinitial : Run EventLoop.WorkerStep
        (EventLoop.WorkerState.initial : EventLoop.WorkerState Bool Nat) [] .initial := .nil
    have hpushed := (hinitial.snoc
      (.push _ _ _ _ (.push .initial (some false) 0 (by simp [WorkState.Locked, WorkState.initial])
        rfl nofun))).snoc
      (.push _ _ _ _ (.push _ (some true) 1 (by simp [WorkState.Locked, WorkState.initial,
        WorkState.setSubmitting]) rfl nofun))
    have htriggered := (hpushed.snoc (.trigger _ _ _ _ (.notify _ (some true) rfl))).snoc
      (.trigger _ _ _ _ (.notify _ (some false) rfl))
    have hcalled := ((htriggered.snoc (.run _ _ _ _)).snoc (.workCallback _ _ _)).snoc
      (.call _ _ _ (.call _ _))
    have hdrained := (((hcalled.snoc (.process _ _ _ hlock (.lock _ _))).snoc
      (.process _ _ _ htake (.take _ _ _ _))).snoc (.process _ _ _ htake (.take _ _ _ _))).snoc
      (.process _ _ _ hunlock (.unlock _ _))
    have hrun := (hdrained.snoc (.process _ _ _ hstart (.start _ _ _ _))).snoc
      (.push _ _ _ _ (.push _ none 2 (by simp [WorkState.Locked]) rfl fun _ => ⟨_, rfl⟩))
    exact ⟨_, _, hrun, rfl, rfl, rfl, (tasks_in_order 1).2 _ _ hrun⟩

end Order

end CppFragments
