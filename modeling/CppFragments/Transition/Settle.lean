import CppFragments.Transition.Run

/-! # Systems that settle

Every transition lowers a measure, and wherever there is none left the system
has settled. Then every run is short, and whoever goes on as long as possible
gets there.
-/

namespace Transition

/-- From states inside, every transition stays inside and lowers the measure, and
there is one unless the state is settled. -/
structure Settles {σ α : Type*} (step : σ → α → σ → Prop) (inside : σ → Prop)
    (measure : σ → Nat) (settled : σ → Prop) : Prop where
  keeps : ∀ source action target, inside source → step source action target → inside target
  lowers : ∀ source action target, inside source → step source action target →
    measure target < measure source
  enabled : ∀ source, inside source → ¬ settled source → ∃ action target, step source action target

namespace Settles

variable {σ α : Type*} {step : σ → α → σ → Prop} {inside settled : σ → Prop}
variable {measure : σ → Nat} {init state : σ} {moves : List (Move σ α)}

theorem inside_of_run (hsettles : Settles step inside measure settled) (hinit : inside init)
    (hrun : Run step init moves state) : inside state := by
  induction hrun with
  | nil => exact hinit
  | snoc _ hlast ih => exact hsettles.keeps _ _ _ ih hlast

/-- A run is no longer than the measure it starts with. -/
theorem length_add_le (hsettles : Settles step inside measure settled) (hinit : inside init)
    (hrun : Run step init moves state) : moves.length + measure state ≤ measure init := by
  induction hrun with
  | nil => simp
  | @snoc moves source target action hprior hlast ih =>
      have hlower :=
        hsettles.lowers source action target (hsettles.inside_of_run hinit hprior) hlast
      rw [List.length_append, List.length_singleton]
      omega

/-- A run that cannot be continued has settled. -/
theorem settled_of_stuck (hsettles : Settles step inside measure settled) (hinit : inside init)
    (hrun : Run step init moves state)
    (hstuck : ∀ action target, ¬ step state action target) : settled state := by
  by_contra hnot
  obtain ⟨action, target, hstep⟩ :=
    hsettles.enabled state (hsettles.inside_of_run hinit hrun) hnot
  exact hstuck action target hstep

/-- Whatever it has done so far, a run can be continued until it settles. -/
theorem exists_settled (hsettles : Settles step inside measure settled) (hinit : inside init)
    (hrun : Run step init moves state) :
    ∃ more final, Run step init (moves ++ more) final ∧ settled final := by
  induction hmeasure : measure state using Nat.strongRecOn generalizing moves state with
  | ind count ih =>
      by_cases hsettled : settled state
      · exact ⟨[], state, by rwa [List.append_nil], hsettled⟩
      · have hinside := hsettles.inside_of_run hinit hrun
        obtain ⟨action, target, hstep⟩ := hsettles.enabled state hinside hsettled
        have hlower := hsettles.lowers state action target hinside hstep
        obtain ⟨more, final, hmore, hfinal⟩ :=
          ih (measure target) (hmeasure ▸ hlower) (hrun.snoc hstep) rfl
        rw [List.append_assoc] at hmore
        exact ⟨_, final, hmore, hfinal⟩

end Settles

end Transition
