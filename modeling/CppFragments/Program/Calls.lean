import Mathlib

/-! # Programs that make calls

A program is the tree of its calls: it makes one and goes on according to the
answer. An observer folds over the calls made, and a weakest precondition says
what it has noted wherever the program waits and when it returns.
-/

namespace Calls

inductive Prog (Call Answer α : Type)
  | ret (value : α)
  | call (request : Call) (next : Answer → Prog Call Answer α)

variable {Call Answer α β σ : Type}

namespace Prog

def bind : Prog Call Answer α → (α → Prog Call Answer β) → Prog Call Answer β
  | .ret value, rest => rest value
  | .call request next, rest => .call request fun answer => (next answer).bind rest

instance : Monad (Prog Call Answer) where
  pure := .ret
  bind := bind

/-- Make one call. -/
def ask (request : Call) : Prog Call Answer Answer := .call request .ret

/-- Make calls whose answers are not looked at here. -/
def askAll : List Call → Prog Call Answer Unit
  | [] => .ret ()
  | request :: requests => .call request fun _ => askAll requests

/-- With `σ` noted before, `during` holds at every call and `post` on return,
whatever the answers are. -/
def wp (observe : σ → Call × Answer → σ) (during : σ → Prop) (post : α → σ → Prop) :
    Prog Call Answer α → σ → Prop
  | .ret value, noted => post value noted
  | .call request next, noted =>
      during noted ∧
        ∀ answer, (next answer).wp observe during post (observe noted (request, answer))

/-- Every call that the program can come to is `allowed`. -/
def Makes (allowed : Call → Prop) : Prog Call Answer α → Prop
  | .ret _ => True
  | .call request next => allowed request ∧ ∀ answer, (next answer).Makes allowed

/-- Run a program against a system that answers its calls. -/
def eval (answer : σ → Call → Answer × σ) : Prog Call Answer α → σ → α × σ
  | .ret value, state => (value, state)
  | .call request next, state =>
      (next (answer state request).1).eval answer (answer state request).2

end Prog

section Eval

variable {answer : σ → Call → Answer × σ} {state : σ}

@[simp] theorem eval_pure (value : α) :
    (pure value : Prog Call Answer α).eval answer state = (value, state) := rfl

@[simp] theorem eval_ite (condition : Prop) [Decidable condition]
    (prog other : Prog Call Answer α) :
    (if condition then prog else other).eval answer state =
      if condition then prog.eval answer state else other.eval answer state := by
  split <;> rfl

@[simp] theorem eval_bind (prog : Prog Call Answer α) (rest : α → Prog Call Answer β) :
    (prog >>= rest).eval answer state =
      (rest (prog.eval answer state).1).eval answer (prog.eval answer state).2 := by
  induction prog generalizing state with
  | ret value => rfl
  | call request next ih => exact ih _

end Eval

/-- What can be seen of a program: the calls answered so far, and its value once it has
returned. -/
inductive Seen : Prog Call Answer α → List (Call × Answer) → Option α → Prop
  | ret (value : α) : Seen (.ret value) [] (some value)
  | waiting (request : Call) (next : Answer → Prog Call Answer α) :
      Seen (.call request next) [] none
  | call {request : Call} {next : Answer → Prog Call Answer α} {answer : Answer}
      {made : List (Call × Answer)} {result : Option α} (hnext : Seen (next answer) made result) :
      Seen (.call request next) ((request, answer) :: made) result

/-- Answer the calls of a program one after the other. -/
def Prog.play : Prog Call Answer α → List Answer → List (Call × Answer) × Option α
  | .ret value, _ => ([], some value)
  | .call _ _, [] => ([], none)
  | .call request next, answer :: answers =>
      let (made, result) := (next answer).play answers
      ((request, answer) :: made, result)

/-- The calls that a program makes of a system that answers them. -/
def Prog.transcript (answer : σ → Call → Answer × σ) :
    Prog Call Answer α → σ → List (Call × Answer)
  | .ret _, _ => []
  | .call request next, state =>
      (request, (answer state request).1) ::
        (next (answer state request).1).transcript answer (answer state request).2

theorem seen_transcript (prog : Prog Call Answer α) (answer : σ → Call → Answer × σ) (state : σ) :
    Seen prog (prog.transcript answer state) (some (prog.eval answer state).1) := by
  induction prog generalizing state with
  | ret value => exact .ret value
  | call request next ih => exact .call (ih _ _)

theorem seen_play (prog : Prog Call Answer α) (answers : List Answer) :
    Seen prog (prog.play answers).1 (prog.play answers).2 := by
  induction prog generalizing answers with
  | ret value => exact .ret value
  | call request next ih =>
      cases answers with
      | nil => exact .waiting request next
      | cons answer answers => exact .call (ih answer answers)

section Rules

variable {observe : σ → Call × Answer → σ} {during : σ → Prop} {post post' : α → σ → Prop}
variable {prog : Prog Call Answer α} {noted : σ}

theorem wp_bind {rest : α → Prog Call Answer β} {last : β → σ → Prop} :
    (prog >>= rest).wp observe during last noted ↔
      prog.wp observe during (fun value => (rest value).wp observe during last) noted := by
  induction prog generalizing noted with
  | ret value => exact Iff.rfl
  | call request next ih => exact and_congr_right fun _ => forall_congr' fun answer => ih answer

theorem wp_mono (hwp : prog.wp observe during post noted)
    (hpost : ∀ value noted, post value noted → post' value noted) :
    prog.wp observe during post' noted := by
  induction prog generalizing noted with
  | ret value => exact hpost value noted hwp
  | call request next ih => exact ⟨hwp.1, fun answer => ih answer (hwp.2 answer)⟩

theorem wp_seq {rest : α → Prog Call Answer β} {last : β → σ → Prop}
    (hprog : prog.wp observe during post noted)
    (hrest : ∀ value noted, post value noted → (rest value).wp observe during last noted) :
    (prog >>= rest).wp observe during last noted :=
  wp_bind.mpr (wp_mono hprog hrest)

theorem makes_true (prog : Prog Call Answer α) : prog.Makes fun _ => True := by
  induction prog with
  | ret value => trivial
  | call request next ih => exact ⟨trivial, ih⟩

theorem makes_askAll {allowed : Call → Prop} {requests : List Call}
    (hrequests : ∀ request ∈ requests, allowed request) :
    (Prog.askAll requests : Prog Call Answer Unit).Makes allowed := by
  induction requests with
  | nil => trivial
  | cons request requests ih =>
      rw [List.forall_mem_cons] at hrequests
      exact ⟨hrequests.1, fun _ => ih hrequests.2⟩

theorem makes_ask {allowed : Call → Prop} {request : Call} {rest : Answer → Prog Call Answer α}
    (hrequest : allowed request) (hrest : ∀ answer, (rest answer).Makes allowed) :
    (Prog.ask request >>= rest).Makes allowed :=
  ⟨hrequest, hrest⟩

theorem makes_bind {allowed : Call → Prop} {rest : α → Prog Call Answer β}
    (hprog : prog.Makes allowed) (hrest : ∀ value, (rest value).Makes allowed) :
    (prog >>= rest).Makes allowed := by
  induction prog with
  | ret value => exact hrest value
  | call request next ih => exact ⟨hprog.1, fun answer => ih answer (hprog.2 answer)⟩

/-- What the calls of a program keep holds throughout. -/
theorem wp_of_makes {allowed : Call → Prop} {keeps : σ → Prop} (hmakes : prog.Makes allowed)
    (hnoted : keeps noted)
    (hkeeps : ∀ request, allowed request → ∀ noted answer, keeps noted →
      keeps (observe noted (request, answer)))
    (hduring : ∀ noted, keeps noted → during noted) :
    prog.wp observe during (fun _ => keeps) noted := by
  induction prog generalizing noted with
  | ret value => exact hnoted
  | call request next ih =>
      refine ⟨hduring noted hnoted, fun answer => ?_⟩
      exact ih answer (hmakes.2 answer) (hkeeps request hmakes.1 noted answer hnoted)

/-- What every call keeps holds throughout. -/
theorem wp_of_stable {keeps : σ → Prop} (hnoted : keeps noted)
    (hstable : ∀ noted made, keeps noted → keeps (observe noted made))
    (hduring : ∀ noted, keeps noted → during noted) :
    prog.wp observe during (fun _ => keeps) noted :=
  wp_of_makes (makes_true prog) hnoted (fun _ _ noted _ => hstable noted _) hduring

/-- What the calls of a list keep holds after them. -/
theorem wp_askAll {keeps : σ → Prop} {requests : List Call} (hnoted : keeps noted)
    (hkeeps : ∀ request ∈ requests, ∀ noted answer, keeps noted →
      keeps (observe noted (request, answer)))
    (hduring : ∀ noted, keeps noted → during noted) :
    (Prog.askAll requests : Prog Call Answer Unit).wp observe during (fun _ => keeps) noted :=
  wp_of_makes (makes_askAll fun _ hrequest => hrequest) hnoted hkeeps hduring

theorem wp_ask {request : Call} {rest : Answer → Prog Call Answer α} (hduring : during noted)
    (hrest : ∀ answer, (rest answer).wp observe during post (observe noted (request, answer))) :
    (Prog.ask request >>= rest).wp observe during post noted :=
  ⟨hduring, hrest⟩

/-- The precondition speaks about all that can be seen. -/
theorem Seen.during_or_post {made : List (Call × Answer)} {result : Option α}
    (hseen : Seen prog made result) (hwp : prog.wp observe during post noted) :
    (result = none ∧ during (made.foldl observe noted)) ∨
      ∃ value, result = some value ∧ post value (made.foldl observe noted) := by
  induction hseen generalizing noted with
  | ret value => exact Or.inr ⟨value, rfl, hwp⟩
  | waiting => exact Or.inl ⟨rfl, hwp.1⟩
  | call _ ih => exact ih (hwp.2 _)

end Rules

/-! ## All that was called -/

section Remember

variable {during : List (Call × Answer) → Prop} {earlier made : List (Call × Answer)}

/-- The observer that notes every call. -/
def remember (made : List (Call × Answer)) (last : Call × Answer) : List (Call × Answer) :=
  made ++ [last]

theorem foldl_remember : made.foldl remember earlier = earlier ++ made := by
  induction made generalizing earlier with
  | nil => exact (List.append_nil earlier).symm
  | cons first made ih =>
      rw [List.foldl_cons, ih]
      exact List.append_cons earlier first made |>.symm

theorem Seen.remembered {prog : Prog Call Answer α} {result : Option α}
    {post : α → List (Call × Answer) → Prop} (hseen : Seen prog made result)
    (hwp : prog.wp remember during post []) :
    (result = none ∧ during made) ∨ ∃ value, result = some value ∧ post value made := by
  have hmade := hseen.during_or_post hwp
  rwa [foldl_remember, List.nil_append] at hmade

/-- The calls of a list are answered one after the other. -/
theorem wp_askAll_remember {post : Unit → List (Call × Answer) → Prop} {requests : List Call}
    (hduring : ∀ answered : List (Call × Answer), answered.map Prod.fst <+: requests →
      during (earlier ++ answered))
    (hpost : ∀ answered : List (Call × Answer), answered.map Prod.fst = requests →
      post () (earlier ++ answered)) :
    (Prog.askAll requests).wp remember during post earlier := by
  induction requests generalizing earlier with
  | nil =>
      have hnone := hpost [] rfl
      rwa [List.append_nil] at hnone
  | cons request requests ih =>
      have hfirst := hduring [] List.nil_prefix
      rw [List.append_nil] at hfirst
      refine ⟨hfirst, fun answer => ih ?_ ?_⟩
      · intro answered hanswered
        have hnext := hduring ((request, answer) :: answered)
          (List.cons_prefix_cons.mpr ⟨rfl, hanswered⟩)
        rwa [List.append_cons] at hnext
      · intro answered hanswered
        have hnext := hpost ((request, answer) :: answered) (congrArg (request :: ·) hanswered)
        rwa [List.append_cons] at hnext

end Remember

end Calls
