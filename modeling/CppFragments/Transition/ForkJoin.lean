import CppFragments.Transition.Settle
import CppFragments.Transition.Total

/-! # Fork and join

A main thread starts a number of threads that run the same program on shared
data, and then joins them one after another. It comes to its end if no thread
that is left can block for ever.
-/

namespace Transition

/-! ## Programs and their threads -/

/-- What each thread runs: where it starts, its steps on the shared data, and
where it has ended. After the joins the main thread waits until the shared data
are ready. -/
structure Program (σ Point α : Type*) where
  start : Point
  step : σ → Point → α → σ → Point → Prop
  done : Point
  ready : σ → Prop

namespace ForkJoin

inductive MainPoint
  /-- About to start the thread of this number. -/
  | spawning (next : Nat)
  /-- About to join the thread of this number. -/
  | joining (next : Nat)
  | returned

/-- The threads that have not been started yet are at no point. -/
structure State (σ Point : Type*) (count : Nat) where
  shared : σ
  worker : Fin count → Option Point
  main : MainPoint

inductive Event (α : Type*) (count : Nat)
  | spawn (worker : Fin count)
  | spawned
  | work (worker : Fin count) (event : α)
  | join (worker : Fin count)
  | joined

variable {σ Point α : Type*} {count : Nat}

inductive Step (program : Program σ Point α) :
    State σ Point count → Event α count → State σ Point count → Prop
  | spawn (shared : σ) (points : Fin count → Option Point) (worker : Fin count) :
      Step program ⟨shared, points, .spawning worker⟩ (.spawn worker)
        ⟨shared, Function.update points worker (some program.start), .spawning (worker + 1)⟩
  | spawned (shared : σ) (points : Fin count → Option Point) :
      Step program ⟨shared, points, .spawning count⟩ .spawned ⟨shared, points, .joining 0⟩
  | work {shared shared' : σ} {points : Fin count → Option Point} (main : MainPoint)
      {worker : Fin count} {point point' : Point} {event : α}
      (hpoint : points worker = some point)
      (hstep : program.step shared point event shared' point') :
      Step program ⟨shared, points, main⟩ (.work worker event)
        ⟨shared', Function.update points worker (some point'), main⟩
  | join (shared : σ) (points : Fin count → Option Point) (worker : Fin count)
      (hdone : points worker = some program.done) :
      Step program ⟨shared, points, .joining worker⟩ (.join worker)
        ⟨shared, points, .joining (worker + 1)⟩
  | joined (shared : σ) (points : Fin count → Option Point) (hready : program.ready shared) :
      Step program ⟨shared, points, .joining count⟩ .joined ⟨shared, points, .returned⟩

/-- No thread has been started yet. -/
def initial (shared : σ) : State σ Point count :=
  ⟨shared, fun _ => none, .spawning 0⟩

/-- The threads are started and joined in order. -/
def Orderly (program : Program σ Point α) (state : State σ Point count) : Prop :=
  match state.main with
  | .spawning next => next ≤ count ∧ ∀ worker, state.worker worker = none ↔ next ≤ worker.val
  | .joining next => next ≤ count ∧
      ∀ worker, state.worker worker ≠ none ∧
        (worker.val < next → state.worker worker = some program.done)
  | .returned => ∀ worker, state.worker worker = some program.done

/-- A step of a thread, wherever the main thread is, keeps what the program keeps. -/
structure Keeps (program : Program σ Point α) (inside : σ → (Fin count → Option Point) → Prop) :
    Prop where
  spawn : ∀ shared points worker, inside shared points → points worker = none →
    inside shared (Function.update points worker (some program.start))
  work : ∀ shared points worker point event shared' point', inside shared points →
    points worker = some point → program.step shared point event shared' point' →
    inside shared' (Function.update points worker (some point'))

/-- An ended thread stays where it is. -/
def Halts (program : Program σ Point α) : Prop :=
  ∀ shared event shared' point', ¬ program.step shared program.done event shared' point'

section Rules

variable {program : Program σ Point α} {source target : State σ Point count}
variable {inside : σ → (Fin count → Option Point) → Prop} {event : Event α count}

theorem Orderly.step (hhalts : Halts program) (horderly : Orderly program source)
    (hstep : Step program source event target) : Orderly program target := by
  cases hstep with
  | spawn shared points worker =>
      obtain ⟨_, hnone⟩ := horderly
      refine ⟨worker.isLt, fun other => ?_⟩
      dsimp only at hnone ⊢
      by_cases hother : other = worker
      · subst hother
        simp
      · rw [Function.update_of_ne hother, hnone other]
        have hne : other.val ≠ worker.val := fun heq => hother (Fin.ext heq)
        omega
  | spawned shared points =>
      obtain ⟨_, hnone⟩ := horderly
      refine ⟨Nat.zero_le _, fun worker => ⟨?_, nofun⟩⟩
      intro hmissing
      have hbeyond := (hnone worker).mp hmissing
      omega
  | @work shared shared' points main worker point point' event hpoint hstep =>
      have hrunning : point ≠ program.done := by
        rintro rfl
        exact hhalts _ _ _ _ hstep
      unfold Orderly at horderly ⊢
      cases main with
      | spawning next =>
          refine ⟨horderly.1, fun other => ?_⟩
          have hnone := horderly.2 other
          dsimp only at hnone ⊢
          by_cases hother : other = worker
          · subst hother
            rw [Function.update_self, ← hnone, hpoint]
            simp
          · rw [Function.update_of_ne hother, hnone]
      | joining next =>
          refine ⟨horderly.1, fun other => ?_⟩
          have hother := horderly.2 other
          dsimp only at hother ⊢
          by_cases hsame : other = worker
          · subst hsame
            refine ⟨by simp, fun hlt => absurd ?_ hrunning⟩
            exact Option.some.inj (hpoint.symm.trans (hother.2 hlt))
          · rwa [Function.update_of_ne hsame]
      | returned =>
          exact absurd (Option.some.inj (hpoint.symm.trans (horderly worker))) hrunning
  | join shared points worker hdone =>
      obtain ⟨_, hjoined⟩ := horderly
      refine ⟨worker.isLt, fun other => ⟨(hjoined other).1, fun hlt => ?_⟩⟩
      rcases Nat.lt_or_eq_of_le (Nat.lt_succ_iff.mp hlt) with hbefore | hsame
      · exact (hjoined other).2 hbefore
      · rw [Fin.ext hsame]
        exact hdone
  | joined shared points =>
      intro worker
      exact (horderly.2 worker).2 worker.isLt

theorem orderly_initial (shared : σ) :
    Orderly program (initial shared : State σ Point count) :=
  ⟨Nat.zero_le _, fun _ => by simp [initial]⟩

theorem Keeps.step (hkeeps : Keeps program inside) (horderly : Orderly program source)
    (hsource : inside source.shared source.worker) (hstep : Step program source event target) :
    inside target.shared target.worker := by
  cases hstep with
  | spawn shared points worker =>
      exact hkeeps.spawn _ _ _ hsource ((horderly.2 worker).mpr (Nat.le_refl _))
  | work main hpoint hstep => exact hkeeps.work _ _ _ _ _ _ _ hsource hpoint hstep
  | _ => exact hsource

/-- What the program keeps holds in every reachable state, and the threads are
started and joined in order. -/
theorem Keeps.of_reachable (hkeeps : Keeps program inside) (hhalts : Halts program) {shared : σ}
    (hinit : inside shared fun _ => none) {state : State σ Point count}
    (hreach : Reachable (Step program) (initial shared) state) :
    Orderly program state ∧ inside state.shared state.worker := by
  obtain ⟨moves, hrun⟩ := hreach
  induction hrun with
  | nil => exact ⟨orderly_initial shared, hinit⟩
  | snoc _ hlast ih => exact ⟨ih.1.step hhalts hlast, hkeeps.step ih.1 ih.2 hlast⟩

/-! ## Termination -/

/-- Each step of a thread brings it nearer to its end, and as long as one of the
threads has not ended, one of them can take a step. When all have, the shared
data are ready. -/
structure Progresses (program : Program σ Point α)
    (inside : σ → (Fin count → Option Point) → Prop) (rank : Point → Nat) : Prop where
  lowers : ∀ shared point event shared' point',
    program.step shared point event shared' point' → rank point' < rank point
  enabled : ∀ shared points worker, inside shared points → (∀ other, points other ≠ none) →
    points worker ≠ some program.done →
    ∃ other point event shared' point', points other = some point ∧
      program.step shared point event shared' point'
  ready : ∀ shared points, inside shared points → (∀ worker, points worker = some program.done) →
    program.ready shared

/-- How many steps are left at most. -/
def remaining (program : Program σ Point α) (rank : Point → Nat) (state : State σ Point count) :
    Nat :=
  total (fun point => point.elim (rank program.start + 1) rank) state.worker +
    match state.main with
    | .spawning next => 2 * count + 2 - next
    | .joining next => count + 1 - next
    | .returned => 0

theorem Progresses.remaining_lt {rank : Point → Nat} (hprogresses : Progresses program inside rank)
    (horderly : Orderly program source) (hstep : Step program source event target) :
    remaining program rank target < remaining program rank source := by
  cases hstep with
  | spawn shared points worker =>
      have hnone := (horderly.2 worker).mpr (Nat.le_refl _)
      dsimp only at hnone
      have hlower : total (fun point => point.elim (rank program.start + 1) rank)
          (Function.update points worker (some program.start)) <
            total (fun point => point.elim (rank program.start + 1) rank) points :=
        total_update_lt (by simp [hnone])
      have hlt := worker.isLt
      simp only [remaining]
      omega
  | spawned shared points =>
      simp only [remaining]
      omega
  | work main hpoint hstep =>
      have hlower := hprogresses.lowers _ _ _ _ _ hstep
      exact Nat.add_lt_add_right (total_update_lt (by simpa [hpoint] using hlower)) _
  | join shared points worker =>
      have hlt := worker.isLt
      simp only [remaining]
      omega
  | joined shared points =>
      simp only [remaining]
      omega

/-- **Threads that cannot all block are joined in the end.** -/
theorem Progresses.settles {rank : Point → Nat} (hprogresses : Progresses program inside rank)
    (hkeeps : Keeps program inside) (hhalts : Halts program) :
    Settles (Step program)
      (fun state : State σ Point count =>
        Orderly program state ∧ inside state.shared state.worker)
      (remaining program rank) fun state => state.main = .returned where
  keeps := fun _ _ _ hsource hstep =>
    ⟨hsource.1.step hhalts hstep, hkeeps.step hsource.1 hsource.2 hstep⟩
  lowers := fun _ _ _ hsource hstep => hprogresses.remaining_lt hsource.1 hstep
  enabled := by
    intro source hsource hrunning
    rcases source with ⟨shared, points, main⟩
    obtain ⟨horderly, hinside⟩ := hsource
    cases main with
    | spawning next =>
        rcases Nat.lt_or_eq_of_le horderly.1 with hlt | rfl
        · exact ⟨_, _, .spawn shared points ⟨next, hlt⟩⟩
        · exact ⟨_, _, .spawned shared points⟩
    | joining next =>
        rcases Nat.lt_or_eq_of_le horderly.1 with hlt | rfl
        · by_cases hdone : points ⟨next, hlt⟩ = some program.done
          · exact ⟨_, _, .join shared points ⟨next, hlt⟩ hdone⟩
          · -- The thread to be joined, or one it waits for, goes on.
            obtain ⟨other, point, event, shared', point', hpoint, hstep⟩ :=
              hprogresses.enabled shared points _ hinside (fun other => (horderly.2 other).1) hdone
            exact ⟨_, _, .work _ hpoint hstep⟩
        · have hdone : ∀ worker, points worker = some program.done :=
            fun worker => (horderly.2 worker).2 worker.isLt
          exact ⟨_, _, .joined shared points (hprogresses.ready _ _ hinside hdone)⟩
    | returned => exact absurd rfl hrunning

end Rules

end ForkJoin

end Transition
