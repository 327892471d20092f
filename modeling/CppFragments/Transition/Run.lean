import Mathlib

/-! # Finite runs of labelled transition relations

A run records every transition it takes, with the state before it, its label
and the state after it. Facts about a whole run are then facts about its list
of transitions, and facts about the labels alone are facts about a projection.
-/

namespace Transition

/-- One transition of a run. -/
structure Move (σ α : Type*) where
  source : σ
  action : α
  target : σ

/-- `Run step init moves final` holds when `moves` is a sequence of consecutive
transitions leading from `init` to `final`. -/
inductive Run {σ α : Type*} (step : σ → α → σ → Prop) (init : σ) :
    List (Move σ α) → σ → Prop
  | nil : Run step init [] init
  | snoc {moves : List (Move σ α)} {source target : σ} {action : α} :
      Run step init moves source → step source action target →
      Run step init (moves ++ [⟨source, action, target⟩]) target

/-- A state some run leads to. -/
def Reachable {σ α : Type*} (step : σ → α → σ → Prop) (init state : σ) : Prop :=
  ∃ moves, Run step init moves state

/-- The labels of a run, in order. -/
def labels {σ α : Type*} (moves : List (Move σ α)) : List α :=
  moves.map Move.action

section Rules

variable {σ α : Type*} {step : σ → α → σ → Prop} {init state : σ}

@[simp] theorem labels_nil : labels ([] : List (Move σ α)) = [] := rfl

@[simp] theorem labels_append (first second : List (Move σ α)) :
    labels (first ++ second) = labels first ++ labels second := by
  simp [labels]

@[simp] theorem labels_singleton (source target : σ) (action : α) :
    labels [(⟨source, action, target⟩ : Move σ α)] = [action] := rfl

theorem Run.reachable {moves : List (Move σ α)} (hrun : Run step init moves state) :
    Reachable step init state :=
  ⟨moves, hrun⟩

/-- What holds at the start and after every move holds at the end. -/
theorem Run.holds_of_targets {moves : List (Move σ α)} (hrun : Run step init moves state)
    (holds : σ → Prop) (hinit : holds init)
    (hmoves : ∀ move ∈ moves, holds move.target) : holds state := by
  cases hrun with
  | nil => exact hinit
  | snoc hprior hlast => exact hmoves _ (List.mem_append_right _ (List.mem_singleton_self _))

/-- A run continued by another run. -/
theorem Run.append {moves more : List (Move σ α)} {final : σ} (hrun : Run step init moves state)
    (hmore : Run step state more final) : Run step init (moves ++ more) final := by
  induction hmore with
  | nil => rwa [List.append_nil]
  | snoc _ hlast ih =>
      rw [← List.append_assoc]
      exact ih.snoc hlast

/-- A run of a relation that allows less. -/
theorem Run.mono {step' : σ → α → σ → Prop} {moves : List (Move σ α)}
    (hrun : Run step init moves state)
    (hstep : ∀ source action target, step source action target → step' source action target) :
    Run step' init moves state := by
  induction hrun with
  | nil => exact Run.nil
  | snoc _ hlast ih => exact ih.snoc (hstep _ _ _ hlast)

/-- A predicate on the moves taken so far and the state reached, preserved by
every transition from a reached state, holds at the end of every run. -/
theorem Run.induction_on {motive : List (Move σ α) → σ → Prop}
    {moves : List (Move σ α)} (hrun : Run step init moves state) (hinit : motive [] init)
    (hstep : ∀ moves source action target, Run step init moves source →
      motive moves source → step source action target →
      motive (moves ++ [⟨source, action, target⟩]) target) :
    motive moves state := by
  induction hrun with
  | nil => exact hinit
  | snoc hprior hlast ih => exact hstep _ _ _ _ hprior ih hlast

/-- An inductive invariant holds in every reachable state. -/
theorem Reachable.invariant {invariant : σ → Prop} (hreach : Reachable step init state)
    (hinit : invariant init)
    (hstep : ∀ source action target, invariant source → step source action target →
      invariant target) :
    invariant state := by
  obtain ⟨moves, hrun⟩ := hreach
  exact hrun.induction_on (motive := fun _ state => invariant state) hinit
    (fun _ source action target _ hprior hlast => hstep source action target hprior hlast)

/-- Every recorded move is a transition taken at the end of an earlier run. -/
theorem Run.exists_before {moves : List (Move σ α)} (hrun : Run step init moves state)
    {move : Move σ α} (hmove : move ∈ moves) :
    ∃ before, Run step init before move.source ∧ step move.source move.action move.target ∧
      before ++ [move] <+: moves := by
  induction hrun with
  | nil => simp at hmove
  | @snoc moves source target action hprior hlast ih =>
      rcases List.mem_append.mp hmove with hearlier | hnow
      · obtain ⟨before, hbefore, hmoved, hmoves⟩ := ih hearlier
        exact ⟨before, hbefore, hmoved, hmoves.trans (List.prefix_append _ _)⟩
      · rw [List.mem_singleton] at hnow
        subst hnow
        exact ⟨moves, hprior, hlast, List.prefix_refl _⟩

/-- What allowed moves keep holds in every state of a run of allowed moves. -/
theorem Run.keeps_of_allowed {allowed : σ → α → Prop} {moves : List (Move σ α)}
    (hrun : Run step init moves state) (keeps : σ → Prop) (hinit : keeps init)
    (hstep : ∀ move ∈ moves, keeps move.source → allowed move.source move.action →
      keeps move.target)
    (hallowed : ∀ move ∈ moves, allowed move.source move.action) :
    (∀ move ∈ moves, keeps move.target) ∧ keeps state := by
  induction hrun with
  | nil => simp [hinit]
  | @snoc moves source target action hprior hlast ih =>
      simp only [List.forall_mem_append, List.forall_mem_singleton] at hstep hallowed ⊢
      obtain ⟨hmoves, hsource⟩ := ih hstep.1 hallowed.1
      have htarget := hstep.2 hsource hallowed.2
      exact ⟨⟨hmoves, htarget⟩, htarget⟩

end Rules

section Simulation

variable {σ α τ β : Type*} {step : σ → α → σ → Prop} {step' : τ → β → τ → Prop}

/-- A state map under which every transition is either a transition of the
target system, with the projected label, or invisible to it. -/
structure Simulates (step : σ → α → σ → Prop) (step' : τ → β → τ → Prop)
    (abstract : σ → τ) (visible : α → Option β) : Prop where
  visible_step : ∀ source action target label, step source action target →
    visible action = some label → step' (abstract source) label (abstract target)
  silent_step : ∀ source action target, step source action target →
    visible action = none → abstract source = abstract target

/-- A simulation carries runs to runs whose labels are the visible ones. -/
theorem Simulates.run {abstract : σ → τ} {visible : α → Option β}
    (hsim : Simulates step step' abstract visible) {init state : σ}
    {moves : List (Move σ α)} (hrun : Run step init moves state) :
    ∃ moves', Run step' (abstract init) moves' (abstract state) ∧
      labels moves' = (labels moves).filterMap visible := by
  induction hrun with
  | nil => exact ⟨[], Run.nil, rfl⟩
  | @snoc moves source target action _ hlast ih =>
      obtain ⟨moves', hrun', hlabels⟩ := ih
      cases hvisible : visible action with
      | none =>
          rw [hsim.silent_step _ _ _ hlast hvisible] at hrun'
          exact ⟨moves', hrun', by simp [hlabels, hvisible]⟩
      | some label =>
          refine ⟨_, hrun'.snoc (hsim.visible_step _ _ _ _ hlast hvisible), ?_⟩
          simp [hlabels, hvisible]

end Simulation

section Replay

variable {σ α ι : Type*}

/-- Follow an executable transition function along a list of inputs. -/
def replay (next : σ → ι → Option (α × σ)) :
    List (Move σ α) → σ → List ι → Option (List (Move σ α) × σ)
  | moves, state, [] => some (moves, state)
  | moves, state, input :: inputs =>
      (next state input).bind fun pass =>
        replay next (moves ++ [⟨state, pass.1, pass.2⟩]) pass.2 inputs

/-- What a sound transition function replays is a run. -/
theorem run_of_replay {next : σ → ι → Option (α × σ)} {step : σ → α → σ → Prop}
    (hnext : ∀ state input pass, next state input = some pass → step state pass.1 pass.2)
    {init state state' : σ} {moves moves' : List (Move σ α)} {inputs : List ι}
    (hrun : Run step init moves state)
    (hreplay : replay next moves state inputs = some (moves', state')) :
    Run step init moves' state' := by
  induction inputs generalizing moves state with
  | nil =>
      simp only [replay, Option.some.injEq, Prod.mk.injEq] at hreplay
      obtain ⟨rfl, rfl⟩ := hreplay
      exact hrun
  | cons input inputs ih =>
      simp only [replay, Option.bind_eq_some_iff] at hreplay
      obtain ⟨pass, hpass, hrest⟩ := hreplay
      exact ih (hrun.snoc (hnext state input pass hpass)) hrest

end Replay

end Transition
