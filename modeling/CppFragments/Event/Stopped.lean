import CppFragments.Event.LeftAlone

/-! # The pipe-notified worker, stopped

`EventLoopWorker::stop` of `event/event_base.cpp` breaks the loop off, but never
in the middle of a batch, and only a loop that has begun: `event_base_dispatch`
clears what an earlier `event_base_loopbreak` has set.
-/

namespace CppFragments.EventBase

open Transition

variable {Thread Task : Type}

/-- What the loop's state says about the calls so far. -/
structure WorkerState.Called (events : List (WorkerEvent Thread Task))
    (state : WorkerState Thread Task) : Prop where
  begun : state.loop ≠ .notStarted → [.run].Sublist events
  broken : state.loop ≠ .notStarted → state.loopbreak = true → [.run, .stop].Sublist events
  returned : state.loop = .returned → [.run, .stop, .dispatchReturn].Sublist events

/-- More calls, and a loop that is where it was or goes on. -/
theorem WorkerState.Called.later {source target : WorkerState Thread Task}
    {events : List (WorkerEvent Thread Task)} (hcalled : source.Called events)
    (event : WorkerEvent Thread Task)
    (hbegun : target.loop ≠ .notStarted → source.loop ≠ .notStarted)
    (hbroken : target.loopbreak = true → source.loopbreak = true)
    (hreturned : target.loop = .returned → source.loop = .returned) :
    target.Called (events ++ [event]) where
  begun := fun hne => (hcalled.begun (hbegun hne)).trans (List.sublist_append_left _ _)
  broken := fun hne hbreak =>
    (hcalled.broken (hbegun hne) (hbroken hbreak)).trans (List.sublist_append_left _ _)
  returned := fun hloop =>
    (hcalled.returned (hreturned hloop)).trans (List.sublist_append_left _ _)

section Calls

variable [DecidableEq Thread] {capacity : Nat} {source target state final : WorkerState Thread Task}
variable {event : WorkerEvent Thread Task} {events : List (WorkerEvent Thread Task)}
variable {moves more : List (Move (WorkerState Thread Task) (WorkerEvent Thread Task))}

theorem called_step (hcalled : source.Called events)
    (hstep : WorkerStep capacity source event target) : target.Called (events ++ [event]) := by
  cases hstep with
  | push | write => exact hcalled.later _ id id id
  | run =>
      refine ⟨fun _ => List.sublist_append_right _ _, ?_, nofun⟩
      intro _ hbreak
      cases hbreak
  | stop work pipe loop loopbreak =>
      refine ⟨?_, ?_, ?_⟩
      · intro hne
        exact (hcalled.begun hne).trans (List.sublist_append_left _ _)
      · intro hne _
        exact (hcalled.begun hne).append (List.Sublist.refl [WorkerEvent.stop])
      · intro hloop
        exact (hcalled.returned hloop).trans (List.sublist_append_left _ _)
  | dispatchReturn work pipe =>
      have hbroken := hcalled.broken nofun rfl
      refine ⟨?_, ?_, ?_⟩
      · intro _
        exact (hcalled.begun nofun).trans (List.sublist_append_left _ _)
      · intro _ _
        exact hbroken.trans (List.sublist_append_left _ _)
      · intro _
        exact hbroken.append (List.Sublist.refl [WorkerEvent.dispatchReturn])
  | _ => exact hcalled.later _ (fun _ => nofun) id nofun

theorem called_of_run (hrun : Run (WorkerStep capacity) .initial moves state) :
    state.Called (labels moves) := by
  refine hrun.induction_on (motive := fun moves state => state.Called (labels moves)) ?_ ?_
  · exact ⟨fun hne => absurd rfl hne, fun hne => absurd rfl hne, nofun⟩
  · intro moves source action target _ hcalled hstep
    rw [labels_append, labels_singleton]
    exact called_step hcalled hstep

/-- A loop that has returned starts nothing. -/
theorem returned_step (hreturned : source.loop = .returned)
    (hstep : WorkerStep capacity source event target) :
    target.loop = .returned ∧ event.work?.bind WorkEvent.started? = none := by
  cases hstep with
  | push | write => exact ⟨hreturned, rfl⟩
  | stop => exact ⟨hreturned, rfl⟩
  | dispatchReturn => exact ⟨rfl, rfl⟩
  | _ => cases hreturned

theorem startedTasks_of_returned (hreturned : state.loop = .returned)
    (hmore : Run (WorkerStep capacity) state more final) :
    final.loop = .returned ∧ startedTasks more = [] := by
  induction hmore with
  | nil => exact ⟨hreturned, rfl⟩
  | @snoc more source target action _ hlast ih =>
      obtain ⟨hsource, hnone⟩ := ih
      obtain ⟨htarget, haction⟩ := returned_step hsource hlast
      refine ⟨htarget, ?_⟩
      rw [startedTasks_append, hnone, List.nil_append, startedTasks, started,
        List.filterMap_filterMap, labels_singleton]
      simp [haction]

/-- **`stop` ends a loop between two batches.** `run` returns only when `stop` was
called after `run` began. Every task taken from the queue has then been started,
and those in the queue stay there, with all that are pushed afterwards. -/
theorem run_returned (hrun : Run (WorkerStep capacity) .initial moves state)
    (hreturned : state.loop = .returned) (hmore : Run (WorkerStep capacity) state more final) :
    [.run, .stop, .dispatchReturn].Sublist (labels moves) ∧
      startedTasks moves ++ state.work.workQueue = pushedTasks moves ∧
      startedTasks (moves ++ more) = startedTasks moves ∧
      final.work.workQueue = state.work.workQueue ++ pushedTasks more := by
  obtain ⟨hfinal, hnone⟩ := startedTasks_of_returned hreturned hmore
  have hbefore := started_append_workQueue hrun (by rw [hreturned]; nofun)
  have hafter := started_append_workQueue (hrun.append hmore) (by rw [hfinal]; nofun)
  refine ⟨(called_of_run hrun).returned hreturned, hbefore, ?_, ?_⟩
  · rw [startedTasks_append, hnone, List.append_nil]
  · rw [startedTasks_append, hnone, List.append_nil, pushedTasks_append, ← hbefore,
      List.append_assoc] at hafter
    exact List.append_cancel_left hafter

/-- The loop of `announcedOnce` is begun, stopped, and returns with its task in
the queue. -/
def stopMoves : List (Move (WorkerState Unit Nat) (WorkerEvent Unit Nat)) :=
  announceMoves ++ [⟨announcedOnce, .run, dispatchedOnce⟩] ++
    [⟨dispatchedOnce, .stop, { dispatchedOnce with loopbreak := true }⟩] ++
    [⟨{ dispatchedOnce with loopbreak := true }, .dispatchReturn,
      { dispatchedOnce with loop := .returned, loopbreak := true }⟩]

theorem run_returned_stopMoves :
    [.run, .stop, .dispatchReturn].Sublist (labels stopMoves) ∧
      startedTasks stopMoves ++ [0] = pushedTasks stopMoves ∧
      startedTasks (stopMoves ++ []) = startedTasks stopMoves ∧
      [0] = [0] ++ pushedTasks ([] : List (Move (WorkerState Unit Nat) _)) :=
  run_returned (((run_announceMoves.snoc (.run _ _ _)).snoc (.stop _ _ _ _)).snoc
    (.dispatchReturn _ _)) rfl Run.nil

end Calls

end CppFragments.EventBase
