import Mathlib

/-! # Outcomes of a computation that can fail

Rules for computations that return a value or end in a fault: what holds of the
value, which faults there can be, and whether there is a value.
-/

namespace Outcome

universe u

variable {ε : Type*} {α β : Type u}

-- The parenthesised proofs keep `simp` from using these as definitional
-- steps, which the kernel would re-check by running the bound computation.

@[simp] theorem ok_bind (value : α) (next : α → Except ε β) :
    (Except.ok value >>= next) = next value := (rfl)

@[simp] theorem error_bind (fault : ε) (next : α → Except ε β) :
    (Except.error fault >>= next) = .error fault := (rfl)

@[simp] theorem pure_eq_ok (value : α) : (pure value : Except ε α) = .ok value := (rfl)

/-- Computing on with the value returned adds no fault. -/
theorem bind_ok_eq_error_iff {computation : Except ε α} {next : α → β} {fault : ε} :
    (computation >>= fun value => .ok (next value)) = .error fault ↔
      computation = .error fault := by
  cases computation <;> simp

/-! ## Faults -/

/-- Every fault the computation can end in is `allowed`. -/
def FaultsOnly (allowed : ε → Prop) (computation : Except ε α) : Prop :=
  ∀ fault, computation = .error fault → allowed fault

variable {allowed : ε → Prop}

@[simp] theorem faultsOnly_ok (value : α) :
    FaultsOnly allowed (.ok value : Except ε α) := by
  simp [FaultsOnly]

@[simp] theorem faultsOnly_error (fault : ε) :
    FaultsOnly allowed (.error fault : Except ε α) ↔ allowed fault := by
  simp [FaultsOnly]

theorem FaultsOnly.bind {first : Except ε α} {next : α → Except ε β}
    (hfirst : FaultsOnly allowed first)
    (hnext : ∀ value, first = .ok value → FaultsOnly allowed (next value)) :
    FaultsOnly allowed (first >>= next) := by
  cases first with
  | error fault =>
      rw [error_bind, faultsOnly_error]
      exact hfirst fault rfl
  | ok value =>
      rw [ok_bind]
      exact hnext value rfl

/-! ## Results -/

/-- What the computation returns, if it returns, satisfies `post`. -/
def Ensures (post : α → Prop) (computation : Except ε α) : Prop :=
  ∀ value, computation = .ok value → post value

@[simp] theorem ensures_ok {post : α → Prop} (value : α) :
    Ensures post (.ok value : Except ε α) ↔ post value := by
  simp [Ensures]

@[simp] theorem ensures_error (post : α → Prop) (fault : ε) :
    Ensures post (.error fault : Except ε α) := by
  simp [Ensures]

theorem ensures_true (computation : Except ε α) : Ensures (fun _ => True) computation :=
  fun _ _ => trivial

/-- A condition on the second part of a returned pair. It is proved of a
variable, so that no one compares the pair with the computation behind it. -/
theorem ensures_ok_snd {post : β → Prop} (first : α) {second : β} (hpost : post second) :
    Ensures (fun result => post result.2) (.ok (first, second) : Except ε (α × β)) :=
  (ensures_ok _).mpr hpost

theorem Ensures.bind {mid : α → Prop} {post : β → Prop} {first : Except ε α}
    {next : α → Except ε β} (hfirst : Ensures mid first)
    (hnext : ∀ value, mid value → Ensures post (next value)) : Ensures post (first >>= next) := by
  cases first with
  | error fault =>
      rw [error_bind]
      exact ensures_error post fault
  | ok value =>
      rw [ok_bind]
      exact hnext value (hfirst value rfl)

/-! ## Returning -/

/-- The computation ends in no fault. -/
def Returns (computation : Except ε α) : Prop :=
  ∃ value, computation = .ok value

@[simp] theorem returns_ok (value : α) : Returns (.ok value : Except ε α) :=
  ⟨value, rfl⟩

@[simp] theorem not_returns_error (fault : ε) : ¬Returns (.error fault : Except ε α) := by
  simp [Returns]

theorem returns_bind_iff {first : Except ε α} {next : α → Except ε β} :
    Returns (first >>= next) ↔ ∃ value, first = .ok value ∧ Returns (next value) := by
  cases first with
  | error fault => simp
  | ok value => simp

end Outcome
