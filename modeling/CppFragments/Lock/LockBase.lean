import CppFragments.Transition.Mutex
import CppFragments.Util.Machine

/-! # A shared counter

`LockComposite` of `lock/lock_base.cpp`. Threads call `get_counter`, or lock
`shared_rw_lock_` by hand and unlock it again, as often as they like. The
constructor does not set `counter`: it starts with whatever is there.
-/

namespace CppFragments.LockComposite

open Transition

inductive LockUse
  | getCounter
  /-- What `t1` and `t2` of `main` do. -/
  | byHand
  deriving DecidableEq

/-- Where a thread that holds the mutex is. -/
inductive LockPoint
  | entered
  /-- `counter += 1` has read the counter. -/
  | loaded (value : Int)
  | stored
  /-- `return this->counter` has read it, and `w_lock` is still alive. -/
  | returning (value : Int)
  | sleeping
  deriving DecidableEq

inductive LockStep : Int → LockPoint → Int → LockPoint → Prop
  | load (counter : Int) : LockStep counter .entered counter (.loaded counter)
  | store (counter : Int) {value sum : Int} (hsum : addInt value 1 = some sum) :
      LockStep counter (.loaded value) sum .stored
  | read (counter : Int) : LockStep counter .stored counter (.returning counter)

/-- What the thread has when `w_lock` unlocks the mutex. -/
def LockPoint.result : LockPoint → Option (Option Int)
  | .returning value => some (some value)
  | .sleeping => some none
  | _ => none

def LockUse.entry : LockUse → LockPoint
  | .getCounter => .entered
  | .byHand => .sleeping

def sections : Sections Int LockUse LockPoint (Option Int) :=
  ⟨LockUse.entry, LockStep, LockPoint.result⟩

variable {Thread : Type}

/-- What the calls of `get_counter` have returned. -/
def returned (calls : List (Call Thread LockUse (Option Int))) : List Int :=
  calls.filterMap Call.result

/-- How far a call has come, from the counter it found. -/
inductive Within (found : Int) : LockUse → Int → LockPoint → Prop
  | entered : Within found .getCounter found .entered
  | loaded : Within found .getCounter found (.loaded found)
  | stored {sum : Int} (hsum : addInt found 1 = some sum) : Within found .getCounter sum .stored
  | returning {sum : Int} (hsum : addInt found 1 = some sum) :
      Within found .getCounter sum (.returning sum)
  | sleeping : Within found .byHand found .sleeping

theorem Within.step {found counter counter' : Int} {use : LockUse} {point point' : LockPoint}
    (hwithin : Within found use counter point) (hstep : LockStep counter point counter' point') :
    Within found use counter' point' := by
  cases hwithin with
  | entered =>
      cases hstep
      exact .loaded
  | loaded =>
      cases hstep with
      | store hsum => exact .stored hsum
  | stored hsum =>
      cases hstep
      exact .returning hsum
  | returning => cases hstep
  | sleeping => cases hstep

theorem within_of_steps {found : Int} {use : LockUse} {reached : Int × LockPoint}
    (hsteps : sections.Steps (found, use.entry) reached) :
    Within found use reached.1 reached.2 := by
  induction hsteps with
  | refl =>
      cases use with
      | getCounter => exact .entered
      | byHand => exact .sleeping
  | tail _ hlast ih => exact ih.step hlast

/-- A call of `get_counter` counts one up, and a thread that only holds the mutex
leaves the counter alone. -/
theorem atomic_cases {found counter : Int} {call : Call Thread LockUse (Option Int)}
    (hatomic : sections.Atomic found call counter) :
    (call.result = none ∧ counter = found) ∨
      (call.result = some counter ∧ addInt found 1 = some counter) := by
  rcases call with ⟨thread, use, result⟩
  obtain ⟨point, hsteps, hresult⟩ := hatomic
  have hwithin := within_of_steps hsteps
  dsimp only at hwithin hresult ⊢
  rw [show sections.result point = point.result from rfl] at hresult
  cases hwithin with
  | returning hsum => exact Or.inr ⟨(Option.some.inj hresult).symm, hsum⟩
  | sleeping => exact Or.inl ⟨(Option.some.inj hresult).symm, rfl⟩
  | entered => cases hresult
  | loaded => cases hresult
  | stored => cases hresult

/-- Sections run at once count up one by one. -/
theorem counts_of_atomic {init counter : Int}
    {calls : List (Move Int (Call Thread LockUse (Option Int)))}
    (hcalls : Run (Sections.Atomic sections) init calls counter) :
    counter = init + (returned (labels calls)).length ∧
      returned (labels calls) =
        (List.range (returned (labels calls)).length).map
          fun (before : Nat) => init + before + 1 := by
  induction hcalls with
  | nil => simp [returned]
  | @snoc calls found counter call _ hlast ih =>
      obtain ⟨hfound, hvalues⟩ := ih
      simp only [labels_append, labels_singleton]
      unfold returned at hfound hvalues ⊢
      rw [List.filterMap_append]
      rcases atomic_cases hlast with ⟨hnone, rfl⟩ | ⟨hsome, hsum⟩
      · simpa [hnone] using ⟨hfound, hvalues⟩
      · have hcounter := (addInt_eq_some_iff.mp hsum).2
        have hone : [call].filterMap Call.result = [counter] := by simp [hsome]
        rw [hone, List.length_append, List.length_singleton, List.range_succ, List.map_append,
          ← hvalues]
        refine ⟨by omega, ?_⟩
        rw [List.map_singleton, ← hcounter, hfound]

section Runs

abbrev CounterState (Thread : Type) := Mutex.State Thread Int LockUse LockPoint

abbrev CounterEvent (Thread : Type) := Mutex.Event Thread LockUse (Option Int)

/-- What the calls of `get_counter` have returned in a run. -/
def counted (moves : List (Move (CounterState Thread) (CounterEvent Thread))) : List Int :=
  returned ((labels moves).filterMap Mutex.Event.call?)

variable [DecidableEq Thread] {init : Int} {state : CounterState Thread}
variable {moves : List (Move (CounterState Thread) (CounterEvent Thread))}

/-- **No count is lost or handed out twice.** Whatever the threads do, the calls of
`get_counter` return one number after the other, from the one after the first,
and no two threads are inside together. -/
theorem get_counter_counts (hrun : Run (Mutex.Step sections) (Mutex.free init) moves state) :
    counted moves =
        (List.range (counted moves).length).map (fun (before : Nat) => init + before + 1) ∧
      (state.locked = false → state.shared = init + (counted moves).length) ∧
      (∀ thread other, state.inside thread ≠ none → state.inside other ≠ none →
        thread = other ∧ state.locked = true) := by
  obtain ⟨calls, base, hcalls, hlabels, halone⟩ := Mutex.atomic_of_run hrun
  obtain ⟨hbase, hvalues⟩ := counts_of_atomic hcalls
  rw [counted, ← hlabels]
  refine ⟨hvalues, ?_, fun thread other => halone.exclusive⟩
  intro hunlocked
  rw [halone.shared_of_unlocked hunlocked]
  exact hbase

/-- Two threads take turns: both have counted, with `shared_rw_lock_` held by hand in
between, and one of them is inside again. -/
theorem get_counter_counts_turns :
    ∃ (moves : List (Move (CounterState Bool) (CounterEvent Bool))) (state : CounterState Bool),
      counted moves = [42, 43] ∧ state.inside true = some (.getCounter, .loaded 43) ∧
      counted moves =
        (List.range (counted moves).length).map (fun (before : Nat) => (41 : Int) + before + 1) ∧
      (state.locked = false → state.shared = 41 + (counted moves).length) ∧
      (∀ thread other, state.inside thread ≠ none → state.inside other ≠ none →
        thread = other ∧ state.locked = true) := by
  have hlock : Mutex.Step sections (Mutex.free 41) (.lock true .getCounter) _ := .lock 41 _ rfl
  have hfirst : addInt 41 1 = some 42 := rfl
  have hsecond : addInt 42 1 = some 43 := rfl
  have hcounted : ∀ value, sections.result (.returning value) = some (some value) := fun _ => rfl
  have hbyHand : sections.result .sleeping = some none := rfl
  have htrue := ((((Run.nil.snoc hlock).snoc
    (.work _ (Function.update_self true _ _) (.load _))).snoc
    (.work _ (Function.update_self true _ _) (.store _ hfirst))).snoc
    (.work _ (Function.update_self true _ _) (.read _))).snoc
    (.unlock _ _ (Function.update_self true _ _) (hcounted 42))
  have hheld := (htrue.snoc (show Mutex.Step sections _ (.lock false .byHand) _ from
    .lock _ _ rfl)).snoc (.unlock _ _ (Function.update_self false _ _) hbyHand)
  have hfalse := ((((hheld.snoc (show Mutex.Step sections _ (.lock false .getCounter) _ from
    .lock _ _ rfl)).snoc
    (.work _ (Function.update_self false _ _) (.load _))).snoc
    (.work _ (Function.update_self false _ _) (.store _ hsecond))).snoc
    (.work _ (Function.update_self false _ _) (.read _))).snoc
    (.unlock _ _ (Function.update_self false _ _) (hcounted 43))
  have hagain := (hfalse.snoc (show Mutex.Step sections _ (.lock true .getCounter) _ from
    .lock _ _ rfl)).snoc (.work _ (Function.update_self true _ _) (.load _))
  exact ⟨_, _, rfl, rfl, get_counter_counts hagain⟩

end Runs

end CppFragments.LockComposite
