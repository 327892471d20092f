import CppFragments.Util.StringHelper

/-! # How often the loop of `splitStr` is run

The loop with a bound on its iterations, and the strings and delimiters for which
one iteration for each character and one more are enough.
-/

namespace CppFragments

namespace StrHelper

/-- The loop of `splitStr`, without a result if it is not over after `iterations`
iterations. -/
def splitLoopWithin (str delim : List UInt8) (size : Nat) :
    Nat → SplitVars → Option (Int × List (List UInt8))
  | 0, _ => none
  | iterations + 1, vars =>
      (splitPass str delim size vars).bind
        (afterPass (splitLoopWithin str delim size iterations))

/-- `splitStr` with at most `iterations` iterations of its loop. -/
def splitStrWithin (iterations : Nat) (list : List (List UInt8)) (str delim : List UInt8) :
    Option (Int × List (List UInt8)) :=
  if str = [] then some (0, list)
  else splitLoopWithin str delim (delim.length % 2 ^ 32) iterations ⟨list, 0, 0, 0⟩

/-- `splitStr` returns after one iteration for each character and one more. -/
def EndsInTime (list : List (List UInt8)) (str delim : List UInt8) : Prop :=
  ∃ result, splitStrWithin (str.length + 1) list str delim = some result

section Loop

variable {str delim : List UInt8} {size iterations : Nat} {vars last : SplitVars}

/-- A pass is one of both loops. -/
theorem splitLoopWithin_succ
    (hnext : ∀ next, splitPass str delim size vars = some (.yield next) →
      splitLoopWithin str delim size iterations next = splitLoop str delim size next) :
    splitLoopWithin str delim size (iterations + 1) vars = splitLoop str delim size vars := by
  rw [splitLoopWithin, splitLoop_eq]
  refine Option.bind_congr fun step hpass => ?_
  cases step with
  | done last => rfl
  | yield next => exact hnext next hpass

/-- The last pass does not find the delimiter. -/
theorem find_of_splitPass (hpass : splitPass str delim size vars = some (.done last)) :
    StdString.find str delim vars.pos = none := by
  unfold splitPass at hpass
  split at hpass
  next hfind => exact hfind
  next => simp [Option.bind_eq_some_iff] at hpass

/-- Every iteration but the last moves on by at least one character. -/
theorem splitLoopWithin_eq (hne : delim ≠ []) (hpos : 0 < size)
    (henough : str.length - vars.pos < iterations) :
    splitLoopWithin str delim size iterations vars = splitLoop str delim size vars := by
  induction iterations generalizing vars with
  | zero => exact absurd henough (Nat.not_lt_zero _)
  | succ iterations ih =>
      refine splitLoopWithin_succ fun next hpass => ih ?_
      obtain ⟨⟨index, hfind, hnext⟩, _⟩ := splitPass_yield hpass
      rcases StdString.firstAt_of_find hfind with ⟨hle, hfirst⟩
      have hbound := hfirst.length_le hne
      have hlength := List.length_pos_iff.mpr hne
      rw [List.length_drop] at hbound
      omega

/-- A delimiter of which nothing is skipped is found at the same place again. -/
theorem splitLoopWithin_zero {index : Nat} (hle : vars.pos ≤ index) (hindex : index ≤ str.length)
    (hhere : delim <+: str.drop index) :
    splitLoopWithin str delim 0 iterations vars = none := by
  induction iterations generalizing vars index with
  | zero => rfl
  | succ iterations ih =>
      rw [splitLoopWithin, Option.bind_eq_none_iff]
      intro step hpass
      cases step with
      | done last =>
          have hfind := find_of_splitPass hpass
          unfold StdString.find at hfind
          have hnot := List.find?_eq_none.mp hfind index (List.mem_range.mpr (by omega))
          simp [hle, hhere] at hnot
      | yield next =>
          obtain ⟨⟨found, hfind, hnext⟩, _⟩ := splitPass_yield hpass
          rw [StdString.find, List.find?_range_eq_some] at hfind
          rcases hfind with ⟨hfound, hrange, _⟩
          have hhere : vars.pos ≤ found ∧ delim <+: str.drop found := by simpa using hfound
          have hlast : found ≤ str.length := Nat.lt_succ_iff.mp (List.mem_range.mp hrange)
          exact ih (Nat.le_of_eq hnext) hlast hhere.2

end Loop

section Ends

variable {list : List (List UInt8)} {str delim : List UInt8}

/-- Once the delimiter is moved past, the loop ends in time if it ends at all. -/
theorem splitStrWithin_eq (hne : delim ≠ []) (hskips : delim <:+: str → delim.length % 2 ^ 32 ≠ 0) :
    splitStrWithin (str.length + 1) list str delim = splitStr list str (some delim) := by
  unfold splitStrWithin splitStr
  split
  next => rfl
  next =>
    by_cases hoccurs : delim <:+: str
    · exact splitLoopWithin_eq hne (Nat.pos_of_ne_zero (hskips hoccurs)) (by omega)
    · refine splitLoopWithin_succ fun next hpass => ?_
      obtain ⟨⟨index, hfind, _⟩, _⟩ := splitPass_yield hpass
      exact absurd (StdString.firstAt_of_find hfind).2.isInfix hoccurs

theorem not_endsInTime_of_zero (hstr : str ≠ []) (hoccurs : delim <:+: str)
    (hzero : delim.length % 2 ^ 32 = 0) : ¬EndsInTime list str delim := by
  intro hends
  rcases hends with ⟨result, hreturn⟩
  have hwhere : ∃ index ≤ str.length, delim <+: str.drop index := by
    rcases Split.infix_iff_exists_drop.mp hoccurs with ⟨index, hhere⟩
    refine ⟨min index str.length, Nat.min_le_right _ _, ?_⟩
    rw [← List.drop_eq_drop_min]
    exact hhere
  rcases hwhere with ⟨index, hle, hhere⟩
  rw [splitStrWithin, if_neg hstr, hzero, splitLoopWithin_zero (Nat.zero_le _) hle hhere] at hreturn
  cases hreturn

theorem cut_length_of_skips {pieces : List (List UInt8)}
    (hcut : Split.Cut delim (delim.length % 2 ^ 32) str pieces) (hne : delim ≠ [])
    (hskips : delim <:+: str → delim.length % 2 ^ 32 ≠ 0) :
    pieces.length = Split.stretchesBy delim (delim.length % 2 ^ 32) false str := by
  by_cases hoccurs : delim <:+: str
  · exact hcut.length_eq_stretchesBy (Nat.pos_of_ne_zero (hskips hoccurs)) hne
  · rw [(Split.cut_iff_of_absent hoccurs).mp hcut, Split.stretchesBy_of_absent hoccurs]
    split <;> simp_all

theorem exists_cut_of_skips (hne : delim ≠ [])
    (hskips : delim <:+: str → delim.length % 2 ^ 32 ≠ 0) :
    ∃ pieces, Split.Cut delim (delim.length % 2 ^ 32) str pieces := by
  by_cases hoccurs : delim <:+: str
  · exact Split.exists_cut_of_pos (Nat.pos_of_ne_zero (hskips hoccurs)) hne str
  · exact ⟨_, (Split.cut_iff_of_absent hoccurs).mpr rfl⟩

/-- **The loop ends in time exactly when a delimiter that occurs has a length that
is not 0 as an `unsigned int`, and the pieces can be counted.** -/
theorem endsInTime_iff (list : List (List UInt8)) (str delim : List UInt8) :
    EndsInTime list str delim ↔
      str = [] ∨ ((delim <:+: str → delim.length % 2 ^ 32 ≠ 0) ∧
        Split.stretchesBy delim (delim.length % 2 ^ 32) false str < 2 ^ 31) := by
  by_cases hstr : str = []
  · exact iff_of_true ⟨_, if_pos hstr⟩ (Or.inl hstr)
  rw [or_iff_right hstr]
  by_cases hskips : delim <:+: str → delim.length % 2 ^ 32 ≠ 0
  · have hne : delim ≠ [] := by
      intro hnil
      apply hskips
      · rw [hnil]
        exact List.nil_infix
      · rw [hnil]
        rfl
    rw [and_iff_right hskips, EndsInTime, splitStrWithin_eq hne hskips]
    constructor
    · intro hends
      rcases hends with ⟨⟨total, result⟩, hreturn⟩
      rcases (splitStr_eq_some_iff hne).mp hreturn with ⟨pieces, hcut, _, hsum, hrange⟩
      have hlength := cut_length_of_skips hcut hne hskips
      omega
    · intro hcount
      rcases exists_cut_of_skips hne hskips with ⟨pieces, hcut⟩
      have hlength := cut_length_of_skips hcut hne hskips
      exact ⟨_, (splitStr_eq_some_iff hne).mpr ⟨pieces, hcut, rfl, rfl, by omega⟩⟩
  · have hzero : delim <:+: str ∧ delim.length % 2 ^ 32 = 0 := by
      simpa using hskips
    exact iff_of_false (not_endsInTime_of_zero hstr hzero.1 hzero.2) fun hends => hskips hends.1

/-- The empty delimiter, on any string with characters. -/
theorem emptyDelim_not_endsInTime : ¬EndsInTime [] (literal "a") [] :=
  not_endsInTime_of_zero (by decide) List.nil_infix rfl

end Ends

end StrHelper

end CppFragments
