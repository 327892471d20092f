import CppFragments.Concurrent.Lock
import CppFragments.Transition.Settle
import CppFragments.Transition.Total

/-! # The hand-off comes to its end

With finitely many producers in `concurrent/lock.h`, whatever the threads have
done so far, all items can still be produced and consumed.
-/

namespace CppFragments

open Transition

variable {Producer Consumer : Type} [DecidableEq Producer] [DecidableEq Consumer]

namespace HandoffEvent

def producedBy? (producer : Producer) : HandoffEvent Producer Consumer → Option Int
  | .produce other item => if other = producer then some item else none
  | _ => none

/-- A producer or a consumer gets something done. -/
def Working : HandoffEvent Producer Consumer → Prop
  | .produce _ _ | .consume _ _ => True
  | _ => False

end HandoffEvent

/-- What one producer has pushed in a run, in order. -/
def producedBy (producer : Producer)
    (moves : List (Move (HandoffState Producer Consumer) (HandoffEvent Producer Consumer))) :
    List Int :=
  (labels moves).filterMap (HandoffEvent.producedBy? producer)

def consumedItems
    (moves : List (Move (HandoffState Producer Consumer) (HandoffEvent Producer Consumer))) :
    List Int :=
  (labels moves).filterMap HandoffEvent.consumed?

def WorkingStep (source : HandoffState Producer Consumer) (event : HandoffEvent Producer Consumer)
    (target : HandoffState Producer Consumer) : Prop :=
  HandoffStep source event target ∧ event.Working

namespace HandoffState

/-- The loop variables are within their loops. -/
def InLoop (state : HandoffState Producer Consumer) : Prop :=
  ∀ producer, 0 ≤ state.next producer ∧ state.next producer ≤ 5

/-- Every producer is through, and nothing is left in the queue. -/
structure Finished (state : HandoffState Producer Consumer) : Prop where
  buffer : state.buffer = []
  next : ∀ producer, state.next producer = 5

/-- An item to be produced has to be consumed as well. -/
def remaining [Fintype Producer] (state : HandoffState Producer Consumer) : Nat :=
  total (fun next : Int => 2 * (5 - next).toNat) state.next + state.buffer.length

end HandoffState

open HandoffState

/-! ## What the producers push -/

section Produced

variable {source target state : HandoffState Producer Consumer}
variable {event : HandoffEvent Producer Consumer}
variable {moves : List (Move (HandoffState Producer Consumer) (HandoffEvent Producer Consumer))}

theorem inLoop_step (hloop : source.InLoop) (hstep : HandoffStep source event target) :
    target.InLoop := by
  cases hstep with
  | produce _ producer _ hmore =>
      intro other
      dsimp only
      by_cases hother : other = producer
      · subst hother
        have hnext := hloop other
        rw [Function.update_self]
        omega
      · rw [Function.update_of_ne hother]
        exact hloop other
  | _ => exact hloop

theorem inLoop_of_run (hrun : Run HandoffStep .initial moves state) : state.InLoop :=
  hrun.reachable.invariant (fun _ => by simp [initial]) fun _ _ _ => inLoop_step

/-- A producer pushes 0, 1, … in order. -/
theorem producedBy_eq (hrun : Run HandoffStep .initial moves state) (producer : Producer) :
    producedBy producer moves =
      (List.range (state.next producer).toNat).map fun i : Nat => (i : Int) := by
  induction hrun with
  | nil => rfl
  | @snoc moves source target event hprior hlast ih =>
      have hloop := inLoop_of_run hprior
      unfold producedBy at ih ⊢
      rw [labels_append, List.filterMap_append, ih, labels_singleton]
      cases hlast with
      | produce _ other =>
          by_cases hother : other = producer
          · subst hother
            have hnonneg := (hloop other).1
            have hnext : (source.next other + 1).toNat = (source.next other).toNat + 1 :=
              Int.toNat_add hnonneg (by decide)
            have hone : [(.produce other (source.next other) :
                HandoffEvent Producer Consumer)].filterMap (HandoffEvent.producedBy? other) =
                  [((source.next other).toNat : Int)] := by
              simp [HandoffEvent.producedBy?, Int.toNat_of_nonneg hnonneg]
            dsimp only
            rw [hone, Function.update_self, hnext, List.range_succ, List.map_append,
              List.map_singleton]
          · dsimp only
            rw [Function.update_of_ne (Ne.symm hother)]
            simp [HandoffEvent.producedBy?, hother]
      | _ => simp [HandoffEvent.producedBy?]

/-- One for a producer whose loop variable is past this number. -/
def past (item next : Int) : Nat :=
  if 0 ≤ item ∧ item < next then 1 else 0

theorem past_succ (item : Int) {next : Int} (hnonneg : 0 ≤ next) :
    past item (next + 1) = past item next + [next].count item := by
  unfold past
  rw [List.count_singleton]
  by_cases hitem : next = item
  · subst hitem
    simp [hnonneg]
  · have hsame : (0 ≤ item ∧ item < next + 1) ↔ (0 ≤ item ∧ item < next) := by omega
    simp only [hsame, beq_iff_eq, hitem, if_false, Nat.add_zero]

/-- How often a number has been pushed is how many producers are past it. -/
theorem count_pushed [Fintype Producer] (hrun : Run HandoffStep .initial moves state)
    (item : Int) :
    ((labels moves).filterMap HandoffEvent.pushed?).count item = total (past item) state.next := by
  induction hrun with
  | nil =>
      refine (Finset.sum_eq_zero fun producer _ => if_neg ?_).symm
      intro hpast
      exact absurd hpast.2 (Int.not_lt.mpr hpast.1)
  | @snoc moves source target event hprior hlast ih =>
      rw [labels_append, List.filterMap_append, List.count_append, ih, labels_singleton]
      cases hlast with
      | produce _ producer =>
          have hsum := total_update_add (past item) source.next producer (source.next producer + 1)
          have hpast := past_succ item (inLoop_of_run hprior producer).1
          have hone : [(.produce producer (source.next producer) :
              HandoffEvent Producer Consumer)].filterMap HandoffEvent.pushed? =
                [source.next producer] := rfl
          rw [hone]
          dsimp only
          omega
      | _ => exact Nat.add_zero _

end Produced

/-! ## Completion -/

section Completion

variable [Fintype Producer]
variable {state : HandoffState Producer Consumer}
variable {moves : List (Move (HandoffState Producer Consumer) (HandoffEvent Producer Consumer))}

theorem exists_notifyOne (point : Consumer → ConsumerPoint) : ∃ point', NotifyOne point point' := by
  by_cases hwaiting : ∃ consumer, point consumer = .waiting
  · obtain ⟨consumer, hwaiting⟩ := hwaiting
    exact ⟨_, .woken consumer hwaiting⟩
  · exact ⟨_, .lost (not_exists.mp hwaiting)⟩

/-- A producer and a consumer never both have to wait. -/
theorem exists_workingStep (hattended : state.Attended) (hloop : state.InLoop)
    (hnot : ¬ state.Finished) : ∃ event target, WorkingStep state event target := by
  rcases state with ⟨buffer, next, point⟩
  cases buffer with
  | nil =>
      have hnext : ∃ producer, next producer ≠ 5 := by
        by_contra hall
        exact hnot ⟨rfl, fun producer => not_not.mp (not_exists.mp hall producer)⟩
      obtain ⟨producer, hnext⟩ := hnext
      obtain ⟨point', hnotify⟩ := exists_notifyOne point
      have hmore : next producer < 5 := lt_of_le_of_ne (hloop producer).2 hnext
      exact ⟨_, _, .produce ⟨[], next, point⟩ producer point' hmore hnotify, trivial⟩
  | cons item items =>
      obtain ⟨consumer, hawake⟩ := hattended (List.cons_ne_nil item items)
      exact ⟨_, _, .consume consumer item items next point hawake, trivial⟩

variable [Nonempty Consumer]

theorem settles_handoff :
    Settles (@WorkingStep Producer Consumer _ _) (fun state => state.Attended ∧ state.InLoop)
      remaining Finished where
  keeps := by
    intro source event target hsource hstep
    exact ⟨hstep.1.attended, inLoop_step hsource.2 hstep.1⟩
  lowers := by
    intro source event target hsource hstep
    obtain ⟨hstep, hworking⟩ := hstep
    cases hstep with
    | produce _ producer _ hmore =>
        have hsum := total_update_add (fun next : Int => 2 * (5 - next).toNat) source.next producer
          (source.next producer + 1)
        simp only [remaining, List.length_append, List.length_singleton]
        omega
    | consume => exact Nat.lt_succ_self _
    | wait => exact absurd hworking id
    | wake => exact absurd hworking id
  enabled := fun _ hinside hnot => exists_workingStep hinside.1 hinside.2 hnot

/-- **The hand-off can always be completed.** Every producer pushes 0 to 4 in order
and no more, and from wherever the threads have come they can go on until all
is consumed: each number as often as there are producers. -/
theorem handoff_completes (hrun : Run HandoffStep .initial moves state) :
    (∀ producer, state.next producer ≤ 5 ∧ producedBy producer moves =
      (List.range (state.next producer).toNat).map fun i : Nat => (i : Int)) ∧
      ∃ more final, Run HandoffStep .initial (moves ++ more) final ∧ final.Finished ∧
        ∀ item, (consumedItems (moves ++ more)).count item =
          if 0 ≤ item ∧ item < 5 then Fintype.card Producer else 0 := by
  have hloop := inLoop_of_run hrun
  refine ⟨fun producer => ⟨(hloop producer).2, producedBy_eq hrun producer⟩, ?_⟩
  obtain ⟨more, final, hmore, hfinished⟩ :=
    settles_handoff.exists_settled ⟨attended_of_reachable hrun.reachable, hloop⟩ Run.nil
  rw [List.nil_append] at hmore
  have hwhole := hrun.append (hmore.mono fun _ _ _ hstep => hstep.1)
  refine ⟨more, final, hwhole, hfinished, fun item => ?_⟩
  have hhanded := consumed_append_run hwhole
  rw [hfinished.buffer, List.append_nil] at hhanded
  rw [consumedItems, hhanded, count_pushed hwhole, total]
  simp only [hfinished.next, Finset.sum_const, Finset.card_univ, smul_eq_mul, past]
  split
  · exact Nat.mul_one _
  · exact Nat.mul_zero _

/-- The hand-off of `handoffMoves` can be completed. -/
theorem handoff_completes_handoffMoves :
    (∀ producer, (oneEach [1] 2 .running).next producer ≤ 5 ∧ producedBy producer handoffMoves =
      (List.range ((oneEach [1] 2 .running).next producer).toNat).map fun i : Nat => (i : Int)) ∧
      ∃ more final, Run HandoffStep .initial (handoffMoves ++ more) final ∧ final.Finished ∧
        ∀ item, (consumedItems (handoffMoves ++ more)).count item =
          if 0 ≤ item ∧ item < 5 then Fintype.card Unit else 0 :=
  handoff_completes run_handoffMoves

end Completion

end CppFragments
