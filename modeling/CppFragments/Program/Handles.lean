import CppFragments.Program.Calls

/-! # Programs that open and close handles

Calls use, open and close handles. A handle is misused by using it while it is not
open, or by opening it while it is. A program that goes on without a handle it
needs is excused from then on.
-/

namespace Calls

variable {Call Answer Handle : Type}

/-- What the calls of an interface do with handles. -/
structure Interface (Call Answer Handle : Type) where
  /-- The handles among the arguments. -/
  uses : Call → List Handle
  opens : Call → Option Handle
  /-- The answer is a handle. -/
  succeeds : Call → Answer → Bool
  closes : Call → Option Handle

inductive Fate
  | unopened
  | live
  | closed
  deriving DecidableEq

/-- What has become of the handles. -/
structure Held (Handle : Type) where
  fate : Handle → Fate
  /-- A call that should have opened it has failed. -/
  refused : Handle → Bool
  /-- A handle was used while it was not live, or opened while it was. -/
  misused : Bool

namespace Held

def none : Held Handle := ⟨fun _ => .unopened, fun _ => false, false⟩

def use (held : Held Handle) (handles : List Handle) : Held Handle :=
  { held with misused := held.misused || handles.any (held.fate · ≠ .live) }

variable [DecidableEq Handle]

def close (held : Held Handle) (handle : Handle) : Held Handle :=
  { held with fate := Function.update held.fate handle .closed }

def acquire (held : Held Handle) (handle : Handle) (succeeded : Bool) : Held Handle :=
  if succeeded then
    { held with
      fate := Function.update held.fate handle .live
      misused := held.misused || held.fate handle = .live }
  else { held with refused := Function.update held.refused handle true }

end Held

/-! ## What holds of the handles -/

/-- No handle was misused, and none is missing that is needed. -/
structure Intact (needed : Handle → Prop) (held : Held Handle) (fate : Handle → Fate) : Prop where
  fate_eq : held.fate = fate
  used : held.misused = false
  made : ∀ handle, needed handle → held.refused handle = false

/-- Opening a handle that is needed has failed. -/
def Missing (needed : Handle → Prop) (held : Held Handle) : Prop :=
  ∃ handle, needed handle ∧ held.refused handle = true

/-- There is no misuse but that of a missing handle. -/
def Excused (needed : Handle → Prop) (held : Held Handle) : Prop :=
  held.misused = true → Missing needed held

/-- A missing handle was misused. -/
def Broken (needed : Handle → Prop) (held : Held Handle) : Prop :=
  Missing needed held ∧ held.misused = true

/-- All handles among the arguments are live. -/
def Interface.Ready (interface : Interface Call Answer Handle) (fate : Handle → Fate)
    (request : Call) : Prop :=
  (interface.uses request).all (fate · = .live) = true

section Intact

variable {interface : Interface Call Answer Handle} {needed : Handle → Prop}
variable {held : Held Handle} {fate : Handle → Fate} {request : Call}

theorem Intact.excused (hintact : Intact needed held fate) : Excused needed held := by
  intro hmisused
  rw [hintact.used] at hmisused
  cases hmisused

theorem intact_none : Intact needed .none fun _ => .unopened :=
  ⟨rfl, rfl, fun _ _ => rfl⟩

theorem Intact.use (hintact : Intact needed held fate) (hready : interface.Ready fate request) :
    held.use (interface.uses request) = held := by
  rcases held with ⟨_, refused, misused⟩
  obtain ⟨rfl, hused, _⟩ := hintact
  simp_all [Held.use, Interface.Ready]

end Intact

variable [DecidableEq Handle]

def Interface.observe (interface : Interface Call Answer Handle) (held : Held Handle)
    (made : Call × Answer) : Held Handle :=
  let held := held.use (interface.uses made.1)
  let held := (interface.closes made.1).elim held held.close
  (interface.opens made.1).elim held fun handle =>
    held.acquire handle (interface.succeeds made.1 made.2)

section Observe

variable {interface : Interface Call Answer Handle} {held : Held Handle}

/-- What has gone wrong stays wrong. -/
theorem misused_observe (made : Call × Answer) (hmisused : held.misused = true) :
    (interface.observe held made).misused = true := by
  unfold Interface.observe
  cases interface.closes made.1 <;> cases interface.opens made.1 <;>
    simp [Held.use, Held.close, Held.acquire, hmisused, apply_ite Held.misused]

theorem misused_of_dead {request : Call} {handle : Handle} (answer : Answer)
    (huses : handle ∈ interface.uses request) (hdead : held.fate handle ≠ .live) :
    (interface.observe held (request, answer)).misused = true := by
  have huse : (held.use (interface.uses request)).misused = true := by
    simp only [Held.use, Bool.or_eq_true, List.any_eq_true, decide_eq_true_iff]
    exact Or.inr ⟨handle, huses, hdead⟩
  unfold Interface.observe
  cases interface.closes request <;> cases interface.opens request <;>
    simp [Held.close, Held.acquire, huse, apply_ite Held.misused]

theorem refused_observe {handle : Handle} (made : Call × Answer)
    (hrefused : held.refused handle = true) :
    (interface.observe held made).refused handle = true := by
  unfold Interface.observe
  cases interface.closes made.1 <;> cases interface.opens made.1 <;>
    simp [Held.use, Held.close, Held.acquire, hrefused, Function.update_apply, ite_apply,
      apply_ite Held.refused]

end Observe

/-- What has become of the handles after these calls. -/
def Interface.held (interface : Interface Call Answer Handle) (made : List (Call × Answer)) :
    Held Handle :=
  made.foldl interface.observe .none

/-! ### How often a handle is opened and closed -/

namespace Interface

/-- Closing a handle is a use of it, and no call opens one and closes another. -/
structure Regular (interface : Interface Call Answer Handle) : Prop where
  uses : ∀ call handle, interface.closes call = some handle → handle ∈ interface.uses call
  either : ∀ call, interface.closes call = none ∨ interface.opens call = none

def Opens (interface : Interface Call Answer Handle) (handle : Handle) (made : Call × Answer) :
    Bool :=
  interface.opens made.1 = some handle && interface.succeeds made.1 made.2

def Closes (interface : Interface Call Answer Handle) (handle : Handle) (made : Call × Answer) :
    Bool :=
  interface.closes made.1 = some handle

end Interface

/-- How many of the handle there are. -/
def Held.count (held : Held Handle) (handle : Handle) : Nat :=
  if held.fate handle = .live then 1 else 0

section Count

variable {interface : Interface Call Answer Handle} {held : Held Handle} {other : Handle}

theorem count_close (handle : Handle) (hlive : held.fate other = .live) :
    (held.close other).count handle + (decide (other = handle)).toNat = held.count handle := by
  by_cases hsame : handle = other
  · subst hsame
    simp [Held.count, Held.close, hlive]
  · simp [Held.count, Held.close, Function.update_of_ne hsame, Ne.symm hsame]

theorem count_acquire (handle : Handle) (hfresh : held.fate other ≠ .live) :
    (held.acquire other true).count handle =
      held.count handle + (decide (other = handle)).toNat := by
  by_cases hsame : handle = other
  · subst hsame
    simp [Held.count, Held.acquire, hfresh]
  · simp [Held.count, Held.acquire, Function.update_of_ne hsame, Ne.symm hsame]

/-- The effect of one call on the number. -/
theorem count_observe (hregular : interface.Regular) (handle : Handle) {made : Call × Answer}
    (hused : (interface.observe held made).misused = false) :
    (interface.observe held made).count handle + (interface.Closes handle made).toNat =
      held.count handle + (interface.Opens handle made).toNat := by
  obtain ⟨call, answer⟩ := made
  unfold Interface.observe at hused ⊢
  dsimp only [Interface.Closes, Interface.Opens] at hused ⊢
  rcases hregular.either call with hcloses | hopens
  · rw [hcloses] at hused ⊢
    cases hopens : interface.opens call with
    | none => simp [Held.count, Held.use]
    | some other =>
        rw [hopens] at hused
        cases hsucceeds : interface.succeeds call answer with
        | false => simp [Held.count, Held.use, Held.acquire]
        | true =>
            have hfresh : (held.use (interface.uses call)).fate other ≠ .live := by
              simp only [hsucceeds, Option.elim_some, Option.elim_none, Held.acquire, if_true,
                Bool.or_eq_false_iff] at hused
              exact of_decide_eq_false hused.2
            have hcount := count_acquire handle hfresh
            simpa [Held.count, Held.use] using hcount
  · rw [hopens] at hused ⊢
    cases hcloses : interface.closes call with
    | none => simp [Held.count, Held.use]
    | some other =>
        have hlive : (held.use (interface.uses call)).fate other = .live := by
          have huse := hregular.uses call other hcloses
          simp only [hcloses, Option.elim_some, Option.elim_none, Held.close, Held.use,
            Bool.or_eq_false_iff, List.any_eq_false, decide_eq_true_iff, not_not] at hused
          exact hused.2 other huse
        have hcount := count_close handle hlive
        simpa [Held.count, Held.use] using hcount

/-- **Without misuse a handle is closed as often as it was opened**, but for the one that
is still live. -/
theorem countP_closes_add_count (hregular : interface.Regular) (handle : Handle)
    {made : List (Call × Answer)} (hused : (interface.held made).misused = false) :
    made.countP (interface.Closes handle) + (interface.held made).count handle =
      made.countP (interface.Opens handle) := by
  induction made using List.reverseRecOn with
  | nil => rfl
  | append_singleton made last ih =>
      have hheld : interface.held (made ++ [last]) =
          interface.observe (interface.held made) last := by
        rw [Interface.held, List.foldl_append]
        rfl
      rw [hheld] at hused ⊢
      have hbefore : (interface.held made).misused = false := by
        by_contra hmisused
        rw [misused_observe last (by simpa using hmisused)] at hused
        cases hused
      have hprior := ih hbefore
      have hlast := count_observe hregular handle hused
      have hcount (counts : Call × Answer → Bool) :
          (made ++ [last]).countP counts = made.countP counts + (counts last).toNat := by
        cases hcounts : counts last <;> simp [hcounts]
      rw [hcount, hcount]
      omega

end Count

section Rules

variable {α : Type} {interface : Interface Call Answer Handle} {needed : Handle → Prop}
variable {held : Held Handle} {fate fate' : Handle → Fate} {request : Call} {handle : Handle}
variable {rest : Answer → Prog Call Answer α} {post : α → Held Handle → Prop}

theorem Intact.observe (hintact : Intact needed held fate) (hready : interface.Ready fate request)
    (hopens : interface.opens request = none) (hcloses : interface.closes request = none)
    (answer : Answer) : Intact needed (interface.observe held (request, answer)) fate := by
  rwa [Interface.observe, hopens, hcloses, hintact.use hready]

/-- A call that leaves the handles as they are. -/
theorem Intact.call (hintact : Intact needed held fate) (hready : interface.Ready fate request)
    (hopens : interface.opens request = none) (hcloses : interface.closes request = none)
    (hrest : ∀ answer next, Intact needed next fate →
      (rest answer).wp interface.observe (Excused needed) post next) :
    (Prog.ask request >>= rest).wp interface.observe (Excused needed) post held :=
  ⟨hintact.excused, fun answer =>
    hrest answer _ (hintact.observe hready hopens hcloses answer)⟩

theorem Intact.close (hintact : Intact needed held fate) (hready : interface.Ready fate request)
    (hopens : interface.opens request = none) (hcloses : interface.closes request = some handle)
    (hfate : Function.update fate handle .closed = fate')
    (hrest : ∀ answer next, Intact needed next fate' →
      (rest answer).wp interface.observe (Excused needed) post next) :
    (Prog.ask request >>= rest).wp interface.observe (Excused needed) post held := by
  refine ⟨hintact.excused, fun answer => hrest answer _ ?_⟩
  rw [Interface.observe, hopens, hcloses, hintact.use hready, ← hfate, ← hintact.fate_eq]
  exact ⟨rfl, hintact.used, hintact.made⟩

theorem Intact.acquire (hintact : Intact needed held fate) (hready : interface.Ready fate request)
    (hopens : interface.opens request = some handle) (hcloses : interface.closes request = none)
    (hfresh : fate handle ≠ .live) (hfate : Function.update fate handle .live = fate')
    (hfailed : ∀ answer, interface.succeeds request answer = false →
      (rest answer).wp interface.observe (Excused needed) post (held.acquire handle false))
    (hrest : ∀ answer next, interface.succeeds request answer = true → Intact needed next fate' →
      (rest answer).wp interface.observe (Excused needed) post next) :
    (Prog.ask request >>= rest).wp interface.observe (Excused needed) post held := by
  refine ⟨hintact.excused, fun answer => ?_⟩
  rw [Interface.observe, hopens, hcloses, hintact.use hready]
  cases hsucceeds : interface.succeeds request answer with
  | false =>
      simp only [Option.elim_some, Option.elim_none]
      exact hfailed answer hsucceeds
  | true =>
      simp only [Option.elim_some, Option.elim_none]
      refine hrest answer _ hsucceeds ?_
      rw [← hfate, ← hintact.fate_eq]
      refine ⟨rfl, ?_, hintact.made⟩
      rw [← hintact.fate_eq] at hfresh
      simp [Held.acquire, hintact.used, hfresh]

/-- A failure to open a handle that is not needed changes nothing. -/
theorem Intact.notAcquired (hintact : Intact needed held fate) (hneeded : ¬ needed handle) :
    Intact needed (held.acquire handle false) fate := by
  refine ⟨hintact.fate_eq, hintact.used, fun other hother => ?_⟩
  have hne : other ≠ handle := by
    intro heq
    exact hneeded (heq ▸ hother)
  exact (Function.update_of_ne hne _ _).trans (hintact.made other hother)

theorem Broken.wp {prog : Prog Call Answer α} (hbroken : Broken needed held)
    (hpost : ∀ value held, Broken needed held → post value held) :
    prog.wp interface.observe (Excused needed) post held := by
  refine wp_mono (wp_of_stable hbroken ?_ fun _ hbroken _ => hbroken.1) hpost
  intro held made hbroken
  obtain ⟨⟨handle, hneeded, hrefused⟩, hmisused⟩ := hbroken
  exact ⟨⟨handle, hneeded, refused_observe made hrefused⟩, misused_observe made hmisused⟩

/-- A missing handle that is used. -/
theorem Intact.broken (hintact : Intact needed held fate) (hneeded : needed handle)
    (hdead : fate handle ≠ .live) (huses : handle ∈ interface.uses request)
    (hpost : ∀ value held, Broken needed held → post value held) :
    (Prog.ask request >>= rest).wp interface.observe (Excused needed) post
      (held.acquire handle false) := by
  have hrefused : (held.acquire handle false).refused handle = true := by
    simp [Held.acquire]
  have hmissing : Missing needed (held.acquire handle false) := ⟨handle, hneeded, hrefused⟩
  refine ⟨fun _ => hmissing, fun answer => Broken.wp ⟨?_, ?_⟩ hpost⟩
  · exact ⟨handle, hneeded, refused_observe _ hrefused⟩
  · refine misused_of_dead answer huses ?_
    rwa [← hintact.fate_eq] at hdead

end Rules

end Calls
