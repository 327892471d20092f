import CppFragments.Transition.Fifo

/-! # Producers and consumers

The threads of `concurrent/lock.h`, any number of each kind. They share a queue
under a mutex, and a condition variable on which consumers wait for it to have
items. One step is what a thread does while it holds the mutex, or a wake-up.
-/

namespace CppFragments

open Transition

/-- Where a thread is in `consumer`. -/
inductive ConsumerPoint
  /-- Before it locks the mutex. -/
  | running
  /-- Blocked in `cv.wait`. -/
  | waiting
  /-- Woken by `notify_one`, and not holding the mutex yet. -/
  | notified
  /-- Woken without a notification, and not holding the mutex yet. -/
  | woken
  deriving DecidableEq, Repr

structure HandoffState (Producer Consumer : Type) where
  buffer : List Int
  /-- The loop variable `i` of each producer. -/
  next : Producer → Int
  point : Consumer → ConsumerPoint

inductive HandoffEvent (Producer Consumer : Type)
  | produce (producer : Producer) (item : Int)
  | consume (consumer : Consumer) (item : Int)
  | wait (consumer : Consumer)
  | wake (consumer : Consumer)

namespace HandoffEvent

variable {Producer Consumer : Type}

def fifo? : HandoffEvent Producer Consumer → Option (FifoEvent Int)
  | .produce _ item => some (.push item)
  | .consume _ item => some (.pop item)
  | _ => none

def pushed? : HandoffEvent Producer Consumer → Option Int
  | .produce _ item => some item
  | _ => none

def consumed? : HandoffEvent Producer Consumer → Option Int
  | .consume _ item => some item
  | _ => none

theorem bind_fifo?_pushed (event : HandoffEvent Producer Consumer) :
    event.fifo?.bind FifoEvent.pushed? = event.pushed? := by
  cases event <;> rfl

theorem bind_fifo?_popped (event : HandoffEvent Producer Consumer) :
    event.fifo?.bind FifoEvent.popped? = event.consumed? := by
  cases event <;> rfl

end HandoffEvent

variable {Producer Consumer : Type} [DecidableEq Producer] [DecidableEq Consumer]

/-- `cv.notify_one()`: one of the blocked consumers is woken, if there is any. -/
inductive NotifyOne (point : Consumer → ConsumerPoint) : (Consumer → ConsumerPoint) → Prop
  | lost (hnone : ∀ consumer, point consumer ≠ .waiting) : NotifyOne point point
  | woken (consumer : Consumer) (hwaiting : point consumer = .waiting) :
      NotifyOne point (Function.update point consumer .notified)

/-- A consumer that holds the mutex tests the queue, whether it has just locked
the mutex or come back from `cv.wait`: `consume` takes an item and leaves, `wait`
blocks. -/
inductive HandoffStep : HandoffState Producer Consumer → HandoffEvent Producer Consumer →
    HandoffState Producer Consumer → Prop
  | produce (state : HandoffState Producer Consumer) (producer : Producer)
      (point : Consumer → ConsumerPoint) (hmore : state.next producer < 5)
      (hnotify : NotifyOne state.point point) :
      HandoffStep state (.produce producer (state.next producer))
        ⟨state.buffer ++ [state.next producer],
          Function.update state.next producer (state.next producer + 1), point⟩
  | consume (consumer : Consumer) (item : Int) (items : List Int) (next : Producer → Int)
      (point : Consumer → ConsumerPoint) (hawake : point consumer ≠ .waiting) :
      HandoffStep ⟨item :: items, next, point⟩ (.consume consumer item)
        ⟨items, next, Function.update point consumer .running⟩
  | wait (consumer : Consumer) (next : Producer → Int) (point : Consumer → ConsumerPoint)
      (hawake : point consumer ≠ .waiting) :
      HandoffStep ⟨[], next, point⟩ (.wait consumer)
        ⟨[], next, Function.update point consumer .waiting⟩
  | wake (state : HandoffState Producer Consumer) (consumer : Consumer)
      (hwaiting : state.point consumer = .waiting) :
      HandoffStep state (.wake consumer)
        { state with point := Function.update state.point consumer .woken }

namespace HandoffState

/-- The threads are started, and none has locked the mutex yet. -/
def initial : HandoffState Producer Consumer := ⟨[], fun _ => 0, fun _ => .running⟩

/-- Every consumer sleeps, and no notification is on its way to any of them. -/
def AllBlocked (state : HandoffState Producer Consumer) : Prop :=
  ∀ consumer, state.point consumer = .waiting

/-- Items in the queue leave some consumer awake, which will test the queue. -/
def Attended (state : HandoffState Producer Consumer) : Prop :=
  state.buffer ≠ [] → ∃ consumer, state.point consumer ≠ .waiting

end HandoffState

/-! ## Order -/

/-- What the producers push and the consumers take is a queue. -/
theorem handoffStep_simulates_fifo :
    Simulates (@HandoffStep Producer Consumer _ _) FifoStep HandoffState.buffer
      HandoffEvent.fifo? where
  visible_step := by
    intro source event target label hstep hvisible
    cases hstep with
    | produce _ producer =>
        obtain rfl := Option.some.inj hvisible
        exact FifoStep.push source.buffer (source.next producer)
    | consume consumer item items =>
        obtain rfl := Option.some.inj hvisible
        exact FifoStep.pop items item
    | _ => simp [HandoffEvent.fifo?] at hvisible
  silent_step := by
    intro source event target hstep hvisible
    cases hstep with
    | produce => simp [HandoffEvent.fifo?] at hvisible
    | consume => simp [HandoffEvent.fifo?] at hvisible
    | _ => rfl

section Run

variable {state : HandoffState Producer Consumer}
variable {moves : List (Move (HandoffState Producer Consumer) (HandoffEvent Producer Consumer))}

theorem consumed_append_run (hrun : Run HandoffStep .initial moves state) :
    (labels moves).filterMap HandoffEvent.consumed? ++ state.buffer =
      (labels moves).filterMap HandoffEvent.pushed? := by
  have hfifo := handoffStep_simulates_fifo.fifo rfl hrun
  simp only [HandoffEvent.bind_fifo?_popped, HandoffEvent.bind_fifo?_pushed] at hfifo
  exact hfifo

end Run

/-! ## Wake-ups -/

section Wakeups

variable [Nonempty Consumer] {source target state : HandoffState Producer Consumer}
variable {event : HandoffEvent Producer Consumer}

theorem NotifyOne.exists_awake {point point' : Consumer → ConsumerPoint}
    (hnotify : NotifyOne point point') : ∃ consumer, point' consumer ≠ .waiting := by
  cases hnotify with
  | lost hnone => exact ⟨Classical.arbitrary Consumer, hnone _⟩
  | woken consumer => exact ⟨consumer, by simp⟩

/-- A push wakes a consumer, or finds all of them awake, and who takes an item
comes back to test the queue again. -/
theorem HandoffStep.attended (hstep : HandoffStep source event target) : target.Attended := by
  intro hitems
  cases hstep with
  | produce _ _ _ _ hnotify => exact hnotify.exists_awake
  | consume consumer => exact ⟨consumer, by simp⟩
  | wait => exact absurd rfl hitems
  | wake _ consumer => exact ⟨consumer, by simp⟩

theorem attended_of_reachable (hreach : Reachable HandoffStep .initial state) :
    state.Attended := by
  apply hreach.invariant
  · exact fun hitems => absurd rfl hitems
  · intro source event target _ hstep
    exact hstep.attended

/-- **The hand-off is exact, and nobody sleeps on work.** The items consumed and
then those in the queue are those pushed, and with items in the queue not every
consumer is blocked without a notification. -/
theorem handoff_exact
    {moves : List (Move (HandoffState Producer Consumer) (HandoffEvent Producer Consumer))}
    (hrun : Run HandoffStep .initial moves state) :
    (labels moves).filterMap HandoffEvent.consumed? ++ state.buffer =
        (labels moves).filterMap HandoffEvent.pushed? ∧
      ¬(state.buffer ≠ [] ∧ state.AllBlocked) := by
  refine ⟨consumed_append_run hrun, ?_⟩
  intro hsleeping
  rcases hsleeping with ⟨hitems, hblocked⟩
  rcases attended_of_reachable hrun.reachable hitems with ⟨consumer, hawake⟩
  exact hawake (hblocked consumer)

end Wakeups

/-! ## A run -/

section OneEach

/-- One producer and one consumer. -/
abbrev oneEach (buffer : List Int) (next : Int) (point : ConsumerPoint) :
    HandoffState Unit Unit :=
  ⟨buffer, fun _ => next, fun _ => point⟩

/-- The consumer waits, is woken by the first item, and finds a second when it
has the mutex again. -/
def handoffMoves : List (Move (HandoffState Unit Unit) (HandoffEvent Unit Unit)) :=
  [⟨oneEach [] 0 .running, .wait (), oneEach [] 0 .waiting⟩,
    ⟨oneEach [] 0 .waiting, .produce () 0, oneEach [0] 1 .notified⟩,
    ⟨oneEach [0] 1 .notified, .produce () 1, oneEach [0, 1] 2 .notified⟩,
    ⟨oneEach [0, 1] 2 .notified, .consume () 0, oneEach [1] 2 .running⟩]

theorem run_handoffMoves : Run HandoffStep .initial handoffMoves (oneEach [1] 2 .running) := by
  have hunit {α : Type} (point : Unit → α) (value : α) :
      Function.update point () value = fun _ => value := by
    funext consumer
    rw [Function.update_self]
  have hwait : HandoffStep (oneEach [] 0 .running) (.wait ()) _ := .wait _ _ _ nofun
  have hfirst : HandoffStep (oneEach [] 0 .waiting) (.produce () 0) _ :=
    .produce _ _ _ (by decide) (.woken () rfl)
  have hsecond : HandoffStep (oneEach [0] 1 .notified) (.produce () 1) _ :=
    .produce _ _ _ (by decide) (.lost nofun)
  have hconsume : HandoffStep (oneEach [0, 1] 2 .notified) (.consume () 0) _ :=
    .consume _ _ _ _ _ nofun
  rw [hunit] at hwait hsecond hconsume
  rw [hunit, hunit] at hfirst
  exact (((Run.nil.snoc hwait).snoc hfirst).snoc hsecond).snoc hconsume

theorem handoff_exact_handoffMoves :
    (labels handoffMoves).filterMap HandoffEvent.consumed? ++ [1] =
        (labels handoffMoves).filterMap HandoffEvent.pushed? ∧
      ¬(([1] : List Int) ≠ [] ∧ (oneEach [1] 2 .running).AllBlocked) :=
  handoff_exact run_handoffMoves

end OneEach

end CppFragments
