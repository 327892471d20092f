import Mathlib

/-! # Streams of self-delimiting codes

A stream is the concatenation of the codes of a list of items. A receiver sees
a prefix of it, cut anywhere. What it can tell from a prefix is whether the
next code is complete; the lemmas below split a prefix at that point.
-/

namespace Framing

variable {α β : Type*} (encode : α → List β)

/-- The codes of the items, one after another. -/
def stream (items : List α) : List β :=
  items.flatMap encode

@[simp] theorem stream_singleton (item : α) : stream encode [item] = encode item := by
  simp [stream]

@[simp] theorem stream_append (first second : List α) :
    stream encode (first ++ second) = stream encode first ++ stream encode second := by
  simp [stream]

theorem stream_take_append_drop (items : List α) (count : Nat) :
    stream encode (items.take count) ++ stream encode (items.drop count) =
      stream encode items := by
  rw [← stream_append, List.take_append_drop]

/-- A prefix of a code followed by more either contains the whole code or is a
proper prefix of it. -/
theorem complete_or_partial {code rest received : List β} (hseen : received <+: code ++ rest) :
    (∃ later, received = code ++ later ∧ later <+: rest) ∨
      (received <+: code ∧ received.length < code.length) := by
  by_cases hlen : code.length ≤ received.length
  · obtain ⟨later, rfl⟩ :=
      List.prefix_of_prefix_length_le (List.prefix_append code rest) hseen hlen
    exact Or.inl ⟨later, rfl, (List.prefix_append_right_inj code).mp hseen⟩
  · have hshort : received.length < code.length := Nat.lt_of_not_le hlen
    exact Or.inr ⟨List.prefix_of_prefix_length_le hseen (List.prefix_append code rest)
      hshort.le, hshort⟩

/-! ## What has arrived as a whole -/

/-- The first items, as far as their codes are among the first `size` elements of the
stream. -/
def arrived : List α → Nat → List α
  | [], _ => []
  | item :: items, size =>
      if (encode item).length ≤ size then item :: arrived items (size - (encode item).length)
      else []

@[simp] theorem arrived_nil (size : Nat) : arrived encode [] size = [] := rfl

/-- After the codes of some items, the rest of the size is for the others. -/
theorem arrived_append (first second : List α) (size : Nat) :
    arrived encode (first ++ second) ((stream encode first).length + size) =
      first ++ arrived encode second size := by
  induction first with
  | nil => simp [stream]
  | cons item items ih =>
      have hlength : (stream encode (item :: items)).length + size =
          (encode item).length + ((stream encode items).length + size) := by
        simp [stream, Nat.add_assoc]
      rw [hlength, List.cons_append, arrived, if_pos (Nat.le_add_right _ _),
        Nat.add_sub_cancel_left, ih, List.cons_append]

theorem arrived_cons (item : α) (items : List α) (size : Nat) :
    arrived encode (item :: items) ((encode item).length + size) =
      item :: arrived encode items size := by
  have happend := arrived_append encode [item] items size
  rwa [stream_singleton] at happend

theorem arrived_of_partial {item : α} {size : Nat} (items : List α)
    (hshort : size < (encode item).length) : arrived encode (item :: items) size = [] :=
  if_neg (Nat.not_le_of_lt hshort)

theorem arrived_prefix (items : List α) (size : Nat) : arrived encode items size <+: items := by
  induction items generalizing size with
  | nil => exact List.prefix_refl _
  | cons item items ih =>
      rw [arrived]
      split
      · exact (List.prefix_cons_inj item).mpr (ih _)
      · exact List.nil_prefix

/-- What has arrived stays so. -/
theorem arrived_mono (items : List α) {size size' : Nat} (hle : size ≤ size') :
    arrived encode items size <+: arrived encode items size' := by
  induction items generalizing size size' with
  | nil => exact List.prefix_refl _
  | cons item items ih =>
      rw [arrived, arrived]
      by_cases hwhole : (encode item).length ≤ size
      · rw [if_pos hwhole, if_pos (hwhole.trans hle)]
        exact (List.prefix_cons_inj item).mpr (ih (Nat.sub_le_sub_right hle _))
      · rw [if_neg hwhole]
        exact List.nil_prefix

/-! ## Prefix-free codes -/

/-- No code is the beginning of another. -/
structure PrefixFree : Prop where
  ne_nil : ∀ item, encode item ≠ []
  eq_of_prefix : ∀ first second, encode first <+: encode second → first = second

namespace PrefixFree

variable {encode : α → List β} (hfree : PrefixFree encode)

include hfree

/-- What follows a code does not change what is read. -/
theorem eq_of_append_eq {first second : α} {rest rest' : List β}
    (heq : encode first ++ rest = encode second ++ rest') : first = second ∧ rest = rest' := by
  have hfirst : encode first <+: encode second ++ rest' := heq ▸ List.prefix_append _ _
  have hsame : first = second := by
    rcases List.prefix_or_prefix_of_prefix hfirst (List.prefix_append _ _) with hle | hle
    · exact hfree.eq_of_prefix _ _ hle
    · exact (hfree.eq_of_prefix _ _ hle).symm
  subst hsame
  exact ⟨rfl, List.append_cancel_left heq⟩

/-- **A receiver that has the codes of some items knows the first items sent.** -/
theorem stream_prefix_iff {first second : List α} :
    stream encode first <+: stream encode second ↔ first <+: second := by
  constructor
  · intro hbegins
    induction first generalizing second with
    | nil => exact List.nil_prefix
    | cons item items ih =>
        obtain ⟨later, hlater⟩ := hbegins
        cases second with
        | nil =>
            simp only [stream, List.flatMap_cons, List.flatMap_nil,
              List.append_eq_nil_iff] at hlater
            exact absurd hlater.1.1 (hfree.ne_nil item)
        | cons item' items' =>
            simp only [stream, List.flatMap_cons, List.append_assoc] at hlater
            obtain ⟨rfl, hrest⟩ := hfree.eq_of_append_eq hlater
            exact (List.prefix_cons_inj item).mpr (ih ⟨later, hrest⟩)
  · intro hbegins
    obtain ⟨later, rfl⟩ := hbegins
    rw [stream_append]
    exact List.prefix_append _ _

end PrefixFree

end Framing
