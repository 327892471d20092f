import CppFragments.Transition.Run

/-! # Sections under a mutex

Threads run sections of code on shared data, each step by step and from a lock
to an unlock of one mutex. However their steps interleave, the data are what
they would be if every section were run at once.
-/

namespace Transition

/-- What is run under the mutex: where a section is entered, its steps, and its
result where it can be left. -/
structure Sections (σ κ Point ρ : Type*) where
  entry : κ → Point
  step : σ → Point → σ → Point → Prop
  result : Point → Option ρ

/-- One section, run by a thread. -/
structure Call (Thread κ ρ : Type*) where
  thread : Thread
  kind : κ
  result : ρ

namespace Sections

variable {σ κ Point ρ Thread : Type*}

/-- Some steps of a section. -/
def Steps (sections : Sections σ κ Point ρ) : σ × Point → σ × Point → Prop :=
  Relation.ReflTransGen fun source target =>
    sections.step source.1 source.2 target.1 target.2

/-- A section run at once. -/
def Atomic (sections : Sections σ κ Point ρ) (shared : σ) (call : Call Thread κ ρ)
    (shared' : σ) : Prop :=
  ∃ point, sections.Steps (shared, sections.entry call.kind) (shared', point) ∧
    sections.result point = some call.result

end Sections

namespace Mutex

variable {σ κ Point ρ Thread : Type*}

/-- The shared data, the mutex, and the threads inside a section. -/
structure State (Thread σ κ Point : Type*) where
  shared : σ
  locked : Bool
  inside : Thread → Option (κ × Point)

inductive Event (Thread κ ρ : Type*)
  | lock (thread : Thread) (kind : κ)
  | work (thread : Thread)
  | unlock (call : Call Thread κ ρ)

def Event.call? : Event Thread κ ρ → Option (Call Thread κ ρ)
  | .unlock call => some call
  | _ => none

/-- Nobody is inside. -/
def free (shared : σ) : State Thread σ κ Point :=
  ⟨shared, false, fun _ => none⟩

section Steps

variable [DecidableEq Thread]

inductive Step (sections : Sections σ κ Point ρ) :
    State Thread σ κ Point → Event Thread κ ρ → State Thread σ κ Point → Prop
  | lock (shared : σ) {inside : Thread → Option (κ × Point)} {thread : Thread} (kind : κ)
      (houtside : inside thread = none) :
      Step sections ⟨shared, false, inside⟩ (.lock thread kind)
        ⟨shared, true, Function.update inside thread (some (kind, sections.entry kind))⟩
  | work {shared shared' : σ} (locked : Bool) {inside : Thread → Option (κ × Point)}
      {thread : Thread} {kind : κ} {point point' : Point}
      (hinside : inside thread = some (kind, point))
      (hstep : sections.step shared point shared' point') :
      Step sections ⟨shared, locked, inside⟩ (.work thread)
        ⟨shared', locked, Function.update inside thread (some (kind, point'))⟩
  | unlock (shared : σ) (locked : Bool) {inside : Thread → Option (κ × Point)}
      {thread : Thread} {kind : κ} {point : Point} {result : ρ}
      (hinside : inside thread = some (kind, point))
      (hresult : sections.result point = some result) :
      Step sections ⟨shared, locked, inside⟩ (.unlock ⟨thread, kind, result⟩)
        ⟨shared, false, Function.update inside thread none⟩

/-- A thread inside has just locked the mutex, or was inside before, in the same
section. -/
theorem Step.inside_before {sections : Sections σ κ Point ρ}
    {source target : State Thread σ κ Point} {event : Event Thread κ ρ}
    (hstep : Step sections source event target) {thread : Thread} {kind : κ} {point : Point}
    (hinside : target.inside thread = some (kind, point)) :
    event = .lock thread kind ∨ ∃ point', source.inside thread = some (kind, point') := by
  cases hstep with
  | @lock _ inside other _ _ =>
      dsimp only at hinside
      by_cases hother : thread = other
      · subst hother
        rw [Function.update_self] at hinside
        obtain ⟨rfl, _⟩ := Prod.mk.inj (Option.some.inj hinside)
        exact Or.inl rfl
      · rw [Function.update_of_ne hother] at hinside
        exact Or.inr ⟨point, hinside⟩
  | @work _ _ _ inside other _ _ _ hbefore _ =>
      dsimp only at hinside
      by_cases hother : thread = other
      · subst hother
        rw [Function.update_self] at hinside
        obtain ⟨rfl, _⟩ := Prod.mk.inj (Option.some.inj hinside)
        exact Or.inr ⟨_, hbefore⟩
      · rw [Function.update_of_ne hother] at hinside
        exact Or.inr ⟨point, hinside⟩
  | @unlock _ _ inside other _ _ _ _ _ =>
      dsimp only at hinside
      by_cases hother : thread = other
      · subst hother
        rw [Function.update_self] at hinside
        cases hinside
      · rw [Function.update_of_ne hother] at hinside
        exact Or.inr ⟨point, hinside⟩

/-- Whoever unlocks the mutex was inside, at the end of its section, and is not any
more. -/
theorem Step.of_unlock {sections : Sections σ κ Point ρ}
    {source target : State Thread σ κ Point} {call : Call Thread κ ρ}
    (hstep : Step sections source (.unlock call) target) :
    (∃ point, source.inside call.thread = some (call.kind, point)) ∧
      target.inside call.thread = none := by
  cases hstep with
  | unlock _ _ hinside => exact ⟨⟨_, hinside⟩, Function.update_self _ _ _⟩

/-- The one thread inside. -/
def only (thread : Thread) (kind : κ) (point : Point) : Thread → Option (κ × Point) :=
  Function.update (fun _ => none) thread (some (kind, point))

@[simp] theorem only_self (thread : Thread) (kind : κ) (point : Point) :
    only thread kind point thread = some (kind, point) :=
  Function.update_self _ _ _

theorem update_only (thread : Thread) (kind : κ) (point : Point) (new : Option (κ × Point)) :
    Function.update (only thread kind point) thread new =
      Function.update (fun _ => none) thread new :=
  Function.update_idem _ _ _

theorem Step.work_only (sections : Sections σ κ Point ρ) {shared shared' : σ} (thread : Thread)
    (kind : κ) {point point' : Point} (hstep : sections.step shared point shared' point') :
    Step sections ⟨shared, true, only thread kind point⟩ (.work thread)
      ⟨shared', true, only thread kind point'⟩ := by
  have hwork := Step.work true (only_self thread kind point) hstep
  rw [update_only] at hwork
  exact hwork

theorem Step.unlock_only (sections : Sections σ κ Point ρ) (shared : σ) (thread : Thread)
    (kind : κ) {point : Point} {result : ρ} (hresult : sections.result point = some result) :
    Step sections ⟨shared, true, only thread kind point⟩ (.unlock ⟨thread, kind, result⟩)
      (free shared) := by
  have hunlock := Step.unlock shared true (only_self thread kind point) hresult
  rw [update_only, Function.update_eq_self] at hunlock
  exact hunlock

theorem eq_of_only {thread other : Thread} {kind kind' : κ} {point point' : Point}
    (hinside : only thread kind point other = some (kind', point')) :
    other = thread ∧ kind' = kind ∧ point' = point := by
  unfold only at hinside
  by_cases hother : other = thread
  · subst hother
    rw [Function.update_self] at hinside
    obtain ⟨rfl, rfl⟩ := Prod.mk.inj (Option.some.inj hinside)
    exact ⟨rfl, rfl, rfl⟩
  · rw [Function.update_of_ne hother] at hinside
    cases hinside

/-- Whoever holds the mutex is alone inside, and has brought the data from where
the last section left them to where they are. -/
inductive Alone (sections : Sections σ κ Point ρ) (base : σ) : State Thread σ κ Point → Prop
  | free : Alone sections base (free base)
  | held (thread : Thread) (kind : κ) {shared : σ} {point : Point}
      (hsteps : sections.Steps (base, sections.entry kind) (shared, point)) :
      Alone sections base ⟨shared, true, only thread kind point⟩

variable {sections : Sections σ κ Point ρ} {init : σ} {state : State Thread σ κ Point}

/-- No two threads are inside, and the mutex is locked as long as one is. -/
theorem Alone.exclusive {base : σ} (halone : Alone sections base state) {thread other : Thread}
    (hthread : state.inside thread ≠ none) (hother : state.inside other ≠ none) :
    thread = other ∧ state.locked = true := by
  cases halone with
  | free => exact absurd rfl hthread
  | held holder kind hsteps =>
      obtain ⟨_, hthread⟩ := Option.ne_none_iff_exists'.mp hthread
      obtain ⟨_, hother⟩ := Option.ne_none_iff_exists'.mp hother
      exact ⟨(eq_of_only hthread).1.trans (eq_of_only hother).1.symm, rfl⟩

/-- How far the section of a thread inside has come. -/
theorem Alone.steps {base : σ} (halone : Alone sections base state) {thread : Thread} {kind : κ}
    {point : Point} (hinside : state.inside thread = some (kind, point)) :
    sections.Steps (base, sections.entry kind) (state.shared, point) := by
  cases halone with
  | free => cases hinside
  | held holder kind hsteps =>
      obtain ⟨rfl, rfl, rfl⟩ := eq_of_only hinside
      exact hsteps

theorem Alone.shared_of_unlocked {base : σ} (halone : Alone sections base state)
    (hunlocked : state.locked = false) : state.shared = base := by
  cases halone with
  | free => rfl
  | held => cases hunlocked

/-- One step: the section that is left has been run at once. -/
theorem Alone.step {base : σ} {target : State Thread σ κ Point} {event : Event Thread κ ρ}
    (halone : Alone sections base state) (hstep : Step sections state event target) :
    (event.call? = none ∧ Alone sections base target) ∨
      ∃ call base', event.call? = some call ∧ sections.Atomic base call base' ∧
        Alone sections base' target := by
  cases halone with
  | free =>
      cases hstep with
      | @lock _ _ thread kind => exact Or.inl ⟨rfl, .held thread kind .refl⟩
      | work _ hinside => cases hinside
      | unlock _ _ hinside => cases hinside
  | held holder kind hsteps =>
      cases hstep with
      | work _ hinside hwork =>
          obtain ⟨rfl, rfl, rfl⟩ := eq_of_only hinside
          refine Or.inl ⟨rfl, ?_⟩
          rw [update_only]
          exact .held _ _ (hsteps.tail hwork)
      | unlock _ _ hinside hresult =>
          obtain ⟨rfl, rfl, rfl⟩ := eq_of_only hinside
          refine Or.inr ⟨_, _, rfl, ⟨_, hsteps, hresult⟩, ?_⟩
          rw [update_only, Function.update_eq_self]
          exact .free

/-- **Sections under a mutex are atomic.** In every run, the sections that have
been left form a run at once, in the order in which they were left. -/
theorem atomic_of_run
    {moves : List (Move (State Thread σ κ Point) (Event Thread κ ρ))}
    (hrun : Run (Step sections) (free init) moves state) :
    ∃ calls base, Run (Sections.Atomic sections) init calls base ∧
      labels calls = (labels moves).filterMap Event.call? ∧ Alone sections base state := by
  induction hrun with
  | nil => exact ⟨[], init, .nil, rfl, .free⟩
  | @snoc moves source target event _ hlast ih =>
      obtain ⟨calls, base, hcalls, hlabels, halone⟩ := ih
      rcases halone.step hlast with ⟨hnone, htarget⟩ | ⟨call, base', hcall, hatomic, htarget⟩
      · exact ⟨calls, base, hcalls, by simp [hlabels, hnone], htarget⟩
      · exact ⟨_, base', hcalls.snoc hatomic, by simp [hlabels, hcall], htarget⟩

end Steps

end Mutex

end Transition
