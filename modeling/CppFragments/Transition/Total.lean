import Mathlib

/-! # Sums over threads

What all threads count for together, and how the sum changes when one of them
moves.
-/

namespace Transition

variable {Thread Point : Type*} [Fintype Thread] [DecidableEq Thread]

/-- The sum of what each thread counts for. -/
def total (rank : Point → Nat) (point : Thread → Point) : Nat :=
  ∑ thread, rank (point thread)

/-- A thread that moves changes the sum by its own share. -/
theorem total_update_add (rank : Point → Nat) (point : Thread → Point) (thread : Thread)
    (new : Point) :
    total rank (Function.update point thread new) + rank (point thread) =
      total rank point + rank new := by
  have hothers : ∑ other ∈ Finset.univ.erase thread,
      rank (Function.update point thread new other) =
        ∑ other ∈ Finset.univ.erase thread, rank (point other) := by
    refine Finset.sum_congr rfl fun other hother => ?_
    rw [Function.update_of_ne (Finset.ne_of_mem_erase hother)]
  have hnew := Finset.add_sum_erase Finset.univ
    (fun other => rank (Function.update point thread new other)) (Finset.mem_univ thread)
  have hold := Finset.add_sum_erase Finset.univ (fun other => rank (point other))
    (Finset.mem_univ thread)
  rw [Function.update_self, hothers] at hnew
  unfold total
  omega

theorem total_update_lt {rank : Point → Nat} {point : Thread → Point} {thread : Thread}
    {new : Point} (hlower : rank new < rank (point thread)) :
    total rank (Function.update point thread new) < total rank point := by
  have hsum := total_update_add rank point thread new
  omega

end Transition
