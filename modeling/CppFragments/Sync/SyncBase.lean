import CppFragments.Transition.ForkJoin

/-! # Barrier and latch

`use_barrier` and `use_latch` of `sync/sync_base.cpp`, with any number of
workers. What goes to the console and how long a worker sleeps is left out.
-/

namespace CppFragments

open Transition ForkJoin

/-! ## `std::barrier` -/

structure Barrier where
  expected : Nat
  /-- How many are still to arrive in this phase. -/
  pending : Nat
  phase : Nat

namespace Barrier

def new (expected : Nat) : Barrier := ⟨expected, expected, 0⟩

/-- The token and the barrier after it. With nobody left to arrive the behaviour
is undefined. -/
def arrive (barrier : Barrier) : Option (Nat × Barrier) :=
  if barrier.pending = 0 then none
  else if barrier.pending = 1 then
    some (barrier.phase, ⟨barrier.expected, barrier.expected, barrier.phase + 1⟩)
  else some (barrier.phase, { barrier with pending := barrier.pending - 1 })

end Barrier

/-- Where a thread is in the `worker` of `use_barrier`. -/
inductive BarrierPoint
  | entered
  | started
  | finished
  /-- In `arrive_and_wait`, with the token of its arrival. -/
  | waiting (token : Nat)
  | done

inductive BarrierEvent
  | start
  | finish
  | arrive
  | pass

inductive BarrierStep : Barrier → BarrierPoint → BarrierEvent → Barrier → BarrierPoint → Prop
  | start (barrier : Barrier) : BarrierStep barrier .entered .start barrier .started
  | finish (barrier : Barrier) : BarrierStep barrier .started .finish barrier .finished
  | arrive {barrier barrier' : Barrier} {token : Nat}
      (harrive : barrier.arrive = some (token, barrier')) :
      BarrierStep barrier .finished .arrive barrier' (.waiting token)
  | pass {barrier : Barrier} {token : Nat} (hphase : barrier.phase ≠ token) :
      BarrierStep barrier (.waiting token) .pass barrier .done

def barrierProgram : Program Barrier BarrierPoint BarrierEvent :=
  ⟨.entered, BarrierStep, .done, fun _ => True⟩

/-- `use_barrier` with this many workers, as entered. -/
def useBarrier (workers : Nat) : ForkJoin.State Barrier BarrierPoint workers :=
  ForkJoin.initial (Barrier.new workers)

namespace BarrierPoint

def Arrived : Option BarrierPoint → Prop
  | some (.waiting _) | some .done => True
  | _ => False

instance (point : Option BarrierPoint) : Decidable (Arrived point) := by
  unfold Arrived
  split <;> infer_instance

/-- How many more steps a worker takes. -/
def rank : BarrierPoint → Nat
  | .entered => 4
  | .started => 3
  | .finished => 2
  | .waiting _ => 1
  | .done => 0

end BarrierPoint

open BarrierPoint

section Barrier

variable {workers : Nat}

def arrivals (points : Fin workers → Option BarrierPoint) : Nat :=
  total (fun point => if Arrived point then 1 else 0) points

theorem arrivals_eq_card (points : Fin workers → Option BarrierPoint) :
    arrivals points = (Finset.univ.filter fun worker => Arrived (points worker)).card := by
  simp [arrivals, total]

theorem exists_not_arrived {points : Fin workers → Option BarrierPoint}
    (hless : arrivals points < workers) : ∃ worker, ¬ Arrived (points worker) := by
  by_contra hall
  have hfilter : (Finset.univ.filter fun worker => Arrived (points worker)) = Finset.univ :=
    Finset.filter_true_of_mem fun worker _ => not_not.mp (not_exists.mp hall worker)
  rw [arrivals_eq_card, hfilter, Finset.card_univ, Fintype.card_fin] at hless
  exact Nat.lt_irrefl _ hless

theorem arrived_of_arrivals {points : Fin workers → Option BarrierPoint}
    (hall : arrivals points = workers) (worker : Fin workers) : Arrived (points worker) := by
  rw [arrivals_eq_card] at hall
  have hfilter := Finset.eq_univ_of_card _ (hall.trans (Fintype.card_fin workers).symm)
  have hmem : worker ∈ Finset.univ.filter fun worker => Arrived (points worker) := by
    rw [hfilter]
    exact Finset.mem_univ worker
  exact (Finset.mem_filter.mp hmem).2

/-- A worker that does not arrive changes nothing about who has arrived. -/
theorem arrivals_update_of_not {points : Fin workers → Option BarrierPoint} {worker : Fin workers}
    {point : BarrierPoint} (hold : ¬ Arrived (points worker)) (hnew : ¬ Arrived (some point)) :
    arrivals (Function.update points worker (some point)) = arrivals points := by
  have hsum := total_update_add (fun point => if Arrived point then 1 else 0) points worker
    (some point)
  simp only [hold, hnew, if_false] at hsum
  exact hsum

theorem arrivals_update {points : Fin workers → Option BarrierPoint} {worker : Fin workers}
    {point : BarrierPoint} (hold : ¬ Arrived (points worker)) (hnew : Arrived (some point)) :
    arrivals (Function.update points worker (some point)) = arrivals points + 1 := by
  have hsum := total_update_add (fun point => if Arrived point then 1 else 0) points worker
    (some point)
  simp only [hold, hnew, if_false, if_true] at hsum
  exact hsum

/-- The barrier counts who has not arrived yet, until all have. -/
inductive BarrierCounts : Barrier → (Fin workers → Option BarrierPoint) → Prop
  | gathering (pending : Nat) (points : Fin workers → Option BarrierPoint)
      (hcount : pending + arrivals points = workers) (hpending : 0 < pending ∨ workers = 0)
      (hdone : ∀ worker, points worker ≠ some .done)
      (htoken : ∀ worker token, points worker = some (.waiting token) → token = 0) :
      BarrierCounts ⟨workers, pending, 0⟩ points
  | released (points : Fin workers → Option BarrierPoint)
      (hall : ∀ worker, points worker = some (.waiting 0) ∨ points worker = some .done) :
      BarrierCounts ⟨workers, workers, 1⟩ points

theorem barrierCounts_new :
    BarrierCounts (Barrier.new workers) fun _ : Fin workers => none := by
  refine .gathering workers _ ?_ ?_ nofun nofun
  · rw [arrivals_eq_card]
    simp [Arrived]
  · exact (Nat.eq_zero_or_pos workers).symm

/-- A worker on its way to the barrier. -/
theorem BarrierCounts.move {barrier : Barrier} {points : Fin workers → Option BarrierPoint}
    {worker : Fin workers} {point : BarrierPoint} (hcounts : BarrierCounts barrier points)
    (hold : ¬ Arrived (points worker)) (hnew : ¬ Arrived (some point)) :
    BarrierCounts barrier (Function.update points worker (some point)) := by
  cases hcounts with
  | gathering pending _ hcount hpending hdone htoken =>
      refine .gathering pending _ ?_ hpending ?_ ?_
      · rw [arrivals_update_of_not hold hnew]
        exact hcount
      · intro other
        by_cases hother : other = worker
        · subst hother
          rw [Function.update_self]
          exact fun heq => hnew (by rw [heq]; trivial)
        · rw [Function.update_of_ne hother]
          exact hdone other
      · intro other token
        by_cases hother : other = worker
        · subst hother
          rw [Function.update_self]
          exact fun heq => absurd (by rw [heq]; trivial) hnew
        · rw [Function.update_of_ne hother]
          exact htoken other token
  | released _ hall =>
      rcases hall worker with hwaiting | hdone
      · exact absurd (by rw [hwaiting]; trivial) hold
      · exact absurd (by rw [hdone]; trivial) hold

theorem BarrierCounts.arrive {barrier barrier' : Barrier} {token : Nat}
    {points : Fin workers → Option BarrierPoint} {worker : Fin workers}
    (hcounts : BarrierCounts barrier points) (hpoint : points worker = some .finished)
    (harrive : barrier.arrive = some (token, barrier')) :
    BarrierCounts barrier' (Function.update points worker (some (.waiting token))) := by
  have hold : ¬ Arrived (points worker) := by rw [hpoint]; exact id
  cases hcounts with
  | gathering pending _ hcount hpending hdone htoken =>
      have harrivals := arrivals_update hold (show Arrived (some (.waiting 0)) from trivial)
      have hothers : ∀ other, Function.update points worker (some (.waiting 0)) other ≠
          some .done := by
        intro other
        by_cases hother : other = worker
        · subst hother
          simp
        · rw [Function.update_of_ne hother]
          exact hdone other
      have htokens : ∀ other token, Function.update points worker (some (.waiting 0)) other =
          some (.waiting token) → token = 0 := by
        intro other token heq
        by_cases hother : other = worker
        · subst hother
          simpa using heq.symm
        · rw [Function.update_of_ne hother] at heq
          exact htoken other token heq
      unfold Barrier.arrive at harrive
      dsimp only at harrive
      split at harrive
      · cases harrive
      · split at harrive
        next hlast =>
          -- The last to arrive opens the barrier.
          cases harrive
          refine .released _ fun other => ?_
          have hfull : arrivals (Function.update points worker (some (.waiting 0))) = workers := by
            omega
          have hall := arrived_of_arrivals hfull other
          unfold Arrived at hall
          split at hall
          next token hwaiting =>
            rw [htokens other token hwaiting] at hwaiting
            exact Or.inl hwaiting
          next hdone' => exact absurd hdone' (hothers other)
          · exact absurd hall id
        · cases harrive
          exact .gathering (pending - 1) _ (by omega) (Or.inl (by omega)) hothers htokens
  | released _ hall =>
      rcases hall worker with hwaiting | hdone
      · exact absurd (by rw [hwaiting]; trivial) hold
      · exact absurd (by rw [hdone]; trivial) hold

theorem BarrierCounts.pass {barrier : Barrier} {token : Nat}
    {points : Fin workers → Option BarrierPoint} {worker : Fin workers}
    (hcounts : BarrierCounts barrier points) (hpoint : points worker = some (.waiting token))
    (hphase : barrier.phase ≠ token) :
    BarrierCounts barrier (Function.update points worker (some .done)) := by
  cases hcounts with
  | gathering pending _ _ _ _ htoken => exact absurd (htoken worker token hpoint).symm hphase
  | released _ hall =>
      refine .released _ fun other => ?_
      by_cases hother : other = worker
      · subst hother
        rw [Function.update_self]
        exact Or.inr rfl
      · rw [Function.update_of_ne hother]
        exact hall other

theorem barrier_keeps : Keeps barrierProgram (@BarrierCounts workers) where
  spawn := by
    intro barrier points worker hcounts hnone
    exact hcounts.move (by rw [hnone]; exact id) id
  work := by
    intro barrier points worker point event barrier' point' hcounts hpoint hstep
    cases hstep with
    | start => exact hcounts.move (by rw [hpoint]; exact id) id
    | finish => exact hcounts.move (by rw [hpoint]; exact id) id
    | arrive harrive => exact hcounts.arrive hpoint harrive
    | pass hphase => exact hcounts.pass hpoint hphase

theorem barrier_halts : Halts barrierProgram := by
  intro barrier event barrier' point' hstep
  cases hstep

theorem exists_arrive {barrier : Barrier} (hpending : 0 < barrier.pending) :
    ∃ token barrier', barrier.arrive = some (token, barrier') := by
  unfold Barrier.arrive
  rw [if_neg (Nat.ne_of_gt hpending)]
  split
  · exact ⟨_, _, rfl⟩
  · exact ⟨_, _, rfl⟩

theorem barrier_progresses : Progresses barrierProgram (@BarrierCounts workers) rank where
  lowers := by
    intro barrier point event barrier' point' hstep
    cases hstep with
    | start => exact Nat.lt_succ_self 3
    | finish => exact Nat.lt_succ_self 2
    | arrive => exact Nat.lt_succ_self 1
    | pass => exact Nat.lt_succ_self 0
  enabled := by
    intro barrier points worker hcounts hstarted hworker
    cases hcounts with
    | gathering pending _ hcount hpending hdone htoken =>
        have hpos : 0 < pending := hpending.resolve_right (Nat.ne_zero_of_lt worker.isLt)
        have hless : arrivals points < workers := by omega
        obtain ⟨other, hother⟩ := exists_not_arrived hless
        cases hpoint : points other with
        | none => exact absurd hpoint (hstarted other)
        | some point =>
            rw [hpoint] at hother
            cases point with
            | entered => exact ⟨other, _, _, _, _, hpoint, .start _⟩
            | started => exact ⟨other, _, _, _, _, hpoint, .finish _⟩
            | finished =>
                obtain ⟨token, barrier', harrive⟩ :=
                  @exists_arrive ⟨workers, pending, 0⟩ hpos
                exact ⟨other, _, _, _, _, hpoint, .arrive harrive⟩
            | waiting token => exact absurd trivial hother
            | done => exact absurd trivial hother
    | released _ hall =>
        have hwaiting := (hall worker).resolve_right hworker
        exact ⟨worker, _, _, _, _, hwaiting, .pass Nat.one_ne_zero⟩
  ready := fun _ _ _ _ => trivial

theorem arrived_of_done {barrier : Barrier} {points : Fin workers → Option BarrierPoint}
    (hcounts : BarrierCounts barrier points) {worker : Fin workers}
    (hdone : points worker = some .done) (other : Fin workers) : Arrived (points other) := by
  cases hcounts with
  | gathering _ _ _ _ hnobody => exact absurd hdone (hnobody worker)
  | released _ hall =>
      rcases hall other with hwaiting | hdone
      · rw [hwaiting]
        trivial
      · rw [hdone]
        trivial

/-- Whoever comes to the barrier is one of those it waits for. -/
theorem arrive_ne_none {barrier : Barrier} {points : Fin workers → Option BarrierPoint}
    (hcounts : BarrierCounts barrier points) {worker : Fin workers}
    (hpoint : points worker = some .finished) : barrier.arrive ≠ none := by
  cases hcounts with
  | gathering pending _ _ hpending =>
      have hpos : 0 < pending := hpending.resolve_right (Nat.ne_zero_of_lt worker.isLt)
      obtain ⟨token, barrier', harrive⟩ := @exists_arrive ⟨workers, pending, 0⟩ hpos
      rw [harrive]
      exact Option.some_ne_none _
  | released _ hall =>
      rcases hall worker with hwaiting | hdone
      · simp [hpoint] at hwaiting
      · simp [hpoint] at hdone

theorem remaining_useBarrier (workers : Nat) :
    ForkJoin.remaining barrierProgram rank (useBarrier workers) = 7 * workers + 2 := by
  simp only [ForkJoin.remaining, useBarrier, ForkJoin.initial, total, Option.elim_none,
    Finset.sum_const, Finset.card_univ, Fintype.card_fin, smul_eq_mul, barrierProgram, rank]
  omega

/-- **`use_barrier` works in any interleaving.** Nobody leaves the barrier before
all have come to it, nobody comes to it unexpected, and the joins come to an
end. -/
theorem barrier_joined {moves : List (Move (ForkJoin.State Barrier BarrierPoint workers) _)}
    {state : ForkJoin.State Barrier BarrierPoint workers}
    (hrun : Run (ForkJoin.Step barrierProgram) (useBarrier workers) moves state) :
    (∀ worker, state.worker worker = some .done → ∀ other, Arrived (state.worker other)) ∧
      (∀ worker, state.worker worker = some .finished → state.shared.arrive ≠ none) ∧
      moves.length ≤ 7 * workers + 2 ∧
      (∃ more final, Run (ForkJoin.Step barrierProgram) (useBarrier workers) (moves ++ more) final ∧
        final.main = .returned) ∧
      ((∀ event target, ¬ ForkJoin.Step barrierProgram state event target) →
        state.main = .returned) := by
  have hinit : BarrierCounts (Barrier.new workers) fun _ : Fin workers => none :=
    barrierCounts_new
  obtain ⟨_, hcounts⟩ := barrier_keeps.of_reachable barrier_halts hinit hrun.reachable
  have hsettles := (@barrier_progresses workers).settles barrier_keeps barrier_halts
  have hinside : Orderly barrierProgram (useBarrier workers) ∧
      BarrierCounts (useBarrier workers).shared (useBarrier workers).worker :=
    ⟨orderly_initial _, hinit⟩
  refine ⟨fun worker => arrived_of_done hcounts, fun worker => arrive_ne_none hcounts, ?_,
    hsettles.exists_settled hinside hrun, hsettles.settled_of_stuck hinside hrun⟩
  have hlength := hsettles.length_add_le hinside hrun
  rw [remaining_useBarrier] at hlength
  omega

/-- The first worker has come to the barrier, the second has not been started. -/
theorem barrier_joined_gathering :
    ∃ (moves : List (Move (ForkJoin.State Barrier BarrierPoint 2) _))
      (state : ForkJoin.State Barrier _ 2),
      moves.length = 4 ∧ state.shared.pending = 1 ∧
      (∀ worker, state.worker worker = some .done → ∀ other, Arrived (state.worker other)) ∧
      (∀ worker, state.worker worker = some .finished → state.shared.arrive ≠ none) ∧
      moves.length ≤ 7 * 2 + 2 ∧
      (∃ more final, Run (ForkJoin.Step barrierProgram) (useBarrier 2) (moves ++ more) final ∧
        final.main = .returned) ∧
      ((∀ event target, ¬ ForkJoin.Step barrierProgram state event target) →
        state.main = .returned) := by
  have harrive : Barrier.arrive ⟨2, 2, 0⟩ = some (0, ⟨2, 1, 0⟩) := rfl
  refine ⟨_, _, ?_, ?_, barrier_joined ((((Run.nil.snoc (.spawn (Barrier.new 2) _ 0)).snoc
    (.work _ (Function.update_self 0 _ _) (.start _))).snoc
    (.work _ (Function.update_self 0 _ _) (.finish _))).snoc
    (.work _ (Function.update_self 0 _ _) (.arrive harrive)))⟩
  · rfl
  · rfl

end Barrier

/-! ## `std::latch` -/

/-- `count_down()`. Below zero the behaviour is undefined. -/
def countDown (doneSignal : Nat) : Option Nat :=
  if doneSignal = 0 then none else some (doneSignal - 1)

/-- Where a thread is in the `worker_latch` of `use_latch`. -/
inductive LatchPoint
  | entered
  | started
  | finished
  | done

inductive LatchEvent
  | start
  | finish
  | countDown

inductive LatchStep : Nat → LatchPoint → LatchEvent → Nat → LatchPoint → Prop
  | start (doneSignal : Nat) : LatchStep doneSignal .entered .start doneSignal .started
  | finish (doneSignal : Nat) : LatchStep doneSignal .started .finish doneSignal .finished
  | countDown {doneSignal doneSignal' : Nat} (hcount : countDown doneSignal = some doneSignal') :
      LatchStep doneSignal .finished .countDown doneSignal' .done

/-- After the joins the main thread calls `done_signal.wait()`. -/
def latchProgram : Program Nat LatchPoint LatchEvent :=
  ⟨.entered, LatchStep, .done, fun doneSignal => doneSignal = 0⟩

/-- `use_latch` with this many workers, as entered. -/
def useLatch (workers : Nat) : ForkJoin.State Nat LatchPoint workers :=
  ForkJoin.initial workers

namespace LatchPoint

def rank : LatchPoint → Nat
  | .entered => 3
  | .started => 2
  | .finished => 1
  | .done => 0

/-- What a worker still has to count down. -/
def share : Option LatchPoint → Nat
  | some .done => 0
  | _ => 1

end LatchPoint

section Latch

variable {workers : Nat}

/-- The latch has as many to go as there are workers that have not counted
down. -/
def LatchCounts (doneSignal : Nat) (points : Fin workers → Option LatchPoint) : Prop :=
  total LatchPoint.share points = doneSignal

theorem LatchCounts.move {doneSignal doneSignal' : Nat} {points : Fin workers → Option LatchPoint}
    {worker : Fin workers} {point : LatchPoint} (hcounts : LatchCounts doneSignal points)
    (hshare : doneSignal' + LatchPoint.share (points worker) =
      doneSignal + LatchPoint.share (some point)) :
    LatchCounts doneSignal' (Function.update points worker (some point)) := by
  unfold LatchCounts at hcounts ⊢
  have hsum := total_update_add LatchPoint.share points worker (some point)
  omega

theorem countDown_eq_some {doneSignal doneSignal' : Nat} :
    countDown doneSignal = some doneSignal' ↔ doneSignal = doneSignal' + 1 := by
  unfold countDown
  split
  · simp_all
  · rw [Option.some.injEq]
    omega

theorem latch_keeps : Keeps latchProgram (@LatchCounts workers) where
  spawn := by
    intro doneSignal points worker hcounts hnone
    exact hcounts.move (by rw [hnone]; rfl)
  work := by
    intro doneSignal points worker point event doneSignal' point' hcounts hpoint hstep
    cases hstep with
    | start => exact hcounts.move (by rw [hpoint]; rfl)
    | finish => exact hcounts.move (by rw [hpoint]; rfl)
    | countDown hcount =>
        refine hcounts.move ?_
        rw [hpoint, countDown_eq_some.mp hcount]
        rfl

theorem latch_halts : Halts latchProgram := by
  intro doneSignal event doneSignal' point' hstep
  cases hstep

theorem exists_countDown {doneSignal : Nat} {points : Fin workers → Option LatchPoint}
    {worker : Fin workers} (hcounts : LatchCounts doneSignal points)
    (hpoint : points worker = some .finished) : ∃ rest, countDown doneSignal = some rest := by
  have hsum := total_update_add LatchPoint.share points worker (some .done)
  rw [hpoint, hcounts] at hsum
  exact ⟨_, countDown_eq_some.mpr hsum.symm⟩

/-- A latch at zero has been counted down by every worker. -/
theorem done_of_zero {points : Fin workers → Option LatchPoint} (hcounts : LatchCounts 0 points)
    (worker : Fin workers) : points worker = some .done := by
  have hshare := Finset.sum_eq_zero_iff.mp hcounts worker (Finset.mem_univ worker)
  unfold LatchPoint.share at hshare
  split at hshare
  next hdone => exact hdone
  · exact absurd hshare Nat.one_ne_zero

theorem latch_progresses : Progresses latchProgram (@LatchCounts workers) LatchPoint.rank where
  lowers := by
    intro doneSignal point event doneSignal' point' hstep
    cases hstep with
    | start => exact Nat.lt_succ_self 2
    | finish => exact Nat.lt_succ_self 1
    | countDown => exact Nat.lt_succ_self 0
  enabled := by
    intro doneSignal points worker hcounts hstarted hworker
    cases hpoint : points worker with
    | none => exact absurd hpoint (hstarted worker)
    | some point =>
        cases point with
        | entered => exact ⟨worker, _, _, _, _, hpoint, .start _⟩
        | started => exact ⟨worker, _, _, _, _, hpoint, .finish _⟩
        | finished =>
            obtain ⟨rest, hcount⟩ := exists_countDown hcounts hpoint
            exact ⟨worker, _, _, _, _, hpoint, .countDown hcount⟩
        | done => exact absurd hpoint hworker
  ready := by
    intro doneSignal points hcounts hdone
    rw [show doneSignal = total LatchPoint.share points from hcounts.symm]
    refine Finset.sum_eq_zero fun worker _ => ?_
    rw [hdone worker]
    rfl

theorem latchCounts_initial : LatchCounts workers fun _ : Fin workers => none := by
  simp [LatchCounts, LatchPoint.share, total]

theorem remaining_useLatch (workers : Nat) :
    ForkJoin.remaining latchProgram LatchPoint.rank (useLatch workers) = 6 * workers + 2 := by
  simp only [ForkJoin.remaining, useLatch, ForkJoin.initial, total, Option.elim_none,
    Finset.sum_const, Finset.card_univ, Fintype.card_fin, smul_eq_mul, latchProgram,
    LatchPoint.rank]
  omega

/-- **`use_latch` works in any interleaving.** The latch is never counted down
below zero and is at zero only when every worker has counted it down, so the
`wait` after the joins returns at once. -/
theorem latch_released {moves : List (Move (ForkJoin.State Nat LatchPoint workers) _)}
    {state : ForkJoin.State Nat LatchPoint workers}
    (hrun : Run (ForkJoin.Step latchProgram) (useLatch workers) moves state) :
    (∀ worker, state.worker worker = some .finished → countDown state.shared ≠ none) ∧
      (state.shared = 0 → ∀ worker, state.worker worker = some .done) ∧
      (state.main = .joining workers → state.shared = 0) ∧
      moves.length ≤ 6 * workers + 2 ∧
      (∃ more final, Run (ForkJoin.Step latchProgram) (useLatch workers) (moves ++ more) final ∧
        final.main = .returned) ∧
      ((∀ event target, ¬ ForkJoin.Step latchProgram state event target) →
        state.main = .returned) := by
  obtain ⟨horderly, hcounts⟩ :=
    latch_keeps.of_reachable latch_halts latchCounts_initial hrun.reachable
  have hsettles := (@latch_progresses workers).settles latch_keeps latch_halts
  have hinside : Orderly latchProgram (useLatch workers) ∧
      LatchCounts (useLatch workers).shared (useLatch workers).worker :=
    ⟨orderly_initial _, latchCounts_initial⟩
  refine ⟨?_, ?_, ?_, ?_, hsettles.exists_settled hinside hrun,
    hsettles.settled_of_stuck hinside hrun⟩
  · intro worker hpoint
    obtain ⟨rest, hcount⟩ := exists_countDown hcounts hpoint
    rw [hcount]
    exact Option.some_ne_none rest
  · intro hzero
    rw [hzero] at hcounts
    exact done_of_zero hcounts
  · intro hjoined
    unfold Orderly at horderly
    rw [hjoined] at horderly
    exact latch_progresses.ready _ _ hcounts fun worker => (horderly.2 worker).2 worker.isLt
  · have hlength := hsettles.length_add_le hinside hrun
    rw [remaining_useLatch] at hlength
    omega

/-- The second worker has been started later and has counted down before the first one. -/
theorem latch_released_overtaken :
    ∃ (moves : List (Move (ForkJoin.State Nat LatchPoint 2) _)) (state : ForkJoin.State Nat _ 2),
      moves.length = 8 ∧ state.shared = 1 ∧ state.worker 0 = some .finished ∧
      state.worker 1 = some .done ∧
      (∀ worker, state.worker worker = some .finished → countDown state.shared ≠ none) ∧
      (state.shared = 0 → ∀ worker, state.worker worker = some .done) ∧
      (state.main = .joining 2 → state.shared = 0) ∧
      moves.length ≤ 6 * 2 + 2 ∧
      (∃ more final, Run (ForkJoin.Step latchProgram) (useLatch 2) (moves ++ more) final ∧
        final.main = .returned) ∧
      ((∀ event target, ¬ ForkJoin.Step latchProgram state event target) →
        state.main = .returned) := by
  have hcount : countDown 2 = some 1 := rfl
  have hinitial : Run (ForkJoin.Step latchProgram) (useLatch 2) [] (useLatch 2) := .nil
  have hspawned := (((hinitial.snoc (.spawn 2 _ 0)).snoc
    (.work _ (Function.update_self 0 _ _) (.start 2))).snoc (.spawn _ _ 1)).snoc (.spawned _ _)
  have hovertaken := ((hspawned.snoc (.work _ (Function.update_self 1 _ _) (.start 2))).snoc
    (.work _ (Function.update_self 1 _ _) (.finish 2))).snoc
    (.work _ (Function.update_self 1 _ _) (.countDown hcount))
  have hfirst := hovertaken.snoc
    (show ForkJoin.Step latchProgram _ (.work 0 .finish) _ from .work _ rfl (.finish 1))
  exact ⟨_, _, rfl, rfl, rfl, rfl, latch_released hfirst⟩

end Latch

end CppFragments
