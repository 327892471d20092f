import CppFragments.Transition.Run

/-! # Loops that climb

A loop is a part of the states. When every transition that stays in it raises a
level that is bounded there, a run stays in it for as many transitions as there
are levels, and can always be continued until it leaves.
-/

namespace Transition

/-- Every transition that stays inside raises the level, which is below `bound`
there, and inside there is always a transition. -/
structure Climbs {σ α : Type*} (step : σ → α → σ → Prop) (inside : σ → Prop)
    (level : σ → Nat) (bound : Nat) : Prop where
  enabled : ∀ source, inside source → ∃ action target, step source action target
  raises : ∀ source action target, inside source → step source action target →
    inside target → level source < level target
  bounded : ∀ state, inside state → level state < bound

namespace Climbs

variable {σ α : Type*} {step : σ → α → σ → Prop} {inside : σ → Prop} {level : σ → Nat}
variable {bound : Nat} {init state : σ} {moves : List (Move σ α)}

/-- As long as a run stays inside, its level counts its transitions. -/
theorem level_add_length_le (hclimbs : Climbs step inside level bound)
    (hrun : Run step init moves state) (hinside : ∀ move ∈ moves, inside move.source)
    (hstate : inside state) : level init + moves.length ≤ level state := by
  induction hrun with
  | nil => simp
  | @snoc moves source target action hprior hlast ih =>
      simp only [List.forall_mem_append, List.forall_mem_singleton] at hinside
      have hprevious := ih hinside.1 hinside.2
      have hraised := hclimbs.raises source action target hinside.2 hlast hstate
      rw [List.length_append, List.length_singleton]
      omega

/-- A run from inside stays there for at most `bound` transitions. -/
theorem length_le (hclimbs : Climbs step inside level bound)
    (hrun : Run step init moves state) (hinside : ∀ move ∈ moves, inside move.source) :
    moves.length ≤ bound := by
  cases hrun with
  | nil => exact Nat.zero_le _
  | @snoc moves source target action hprior hlast =>
      simp only [List.forall_mem_append, List.forall_mem_singleton] at hinside
      have hprevious := hclimbs.level_add_length_le hprior hinside.1 hinside.2
      have hbelow := hclimbs.bounded source hinside.2
      rw [List.length_append, List.length_singleton]
      omega

/-- Whatever it has done so far, a run can be continued until it leaves. -/
theorem exists_leaving (hclimbs : Climbs step inside level bound)
    (hrun : Run step init moves state) :
    ∃ more final, Run step init (moves ++ more) final ∧
      (∀ move ∈ more, inside move.source) ∧ ¬ inside final := by
  -- Each further transition uses up one of the levels left below the bound.
  induction hleft : bound - level state using Nat.strongRecOn generalizing moves state with
  | ind left ih =>
      by_cases hstate : inside state
      · obtain ⟨action, target, hstep⟩ := hclimbs.enabled state hstate
        by_cases htarget : inside target
        · have hraised := hclimbs.raises state action target hstate hstep htarget
          have hbelow := hclimbs.bounded target htarget
          obtain ⟨more, final, hmore, hsources, hfinal⟩ :=
            ih (bound - level target) (by omega) (hrun.snoc hstep) rfl
          refine ⟨⟨state, action, target⟩ :: more, final, ?_, ?_, hfinal⟩
          · rwa [List.append_assoc] at hmore
          · exact List.forall_mem_cons.mpr ⟨hstate, hsources⟩
        · exact ⟨[⟨state, action, target⟩], target, hrun.snoc hstep, by simpa, htarget⟩
      · exact ⟨[], state, by rwa [List.append_nil], by simp, hstate⟩

end Climbs

end Transition
