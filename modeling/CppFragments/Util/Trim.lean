import CppFragments.Util.StringHelper

/-! # `trim`

The other function of `util/string_helper`, which takes one character away at both
ends of a string. A throw has no result.
-/

namespace CppFragments

namespace StdString

def findFirst (accept : UInt8 → Bool) (str : List UInt8) : Option Nat :=
  str.findIdx? accept

/-- The search from the end. -/
def findLast (accept : UInt8 → Bool) (str : List UInt8) : Option Nat :=
  (str.reverse.findIdx? accept).map fun index => str.length - 1 - index

/-- `str.erase(pos)`. It throws if `pos` is behind the end. -/
def eraseFrom (str : List UInt8) (pos : Nat) : Option (List UInt8) :=
  if pos ≤ str.length then some (str.take pos) else none

/-- `npos + 1` is 0. -/
def afterPos (pos? : Option Nat) : Nat :=
  match pos? with
  | some pos => pos + 1
  | none => 0

end StdString

namespace StrHelper

open StdString

def trim (str : List UInt8) (thechar : UInt8) : Option (List UInt8) :=
  if str = [] then some str
  else
    let str :=
      match findFirst (· != thechar) str with
      | some pos => str.drop pos
      | none => str
    match findLast (· == thechar) str with
    | some _ => eraseFrom str (afterPos (findLast (· != thechar) str))
    | none => some str

/-- Nothing of one character is left at either end. -/
structure Trimmed (thechar : UInt8) (str : List UInt8) : Prop where
  head : str.head? ≠ some thechar
  last : str.getLast? ≠ some thechar

theorem drop_findFirst {str : List UInt8} {thechar : UInt8}
    (hother : ∃ char ∈ str, char ≠ thechar) :
    ∃ pos, findFirst (· != thechar) str = some pos ∧
      str.drop pos = str.dropWhile (· == thechar) := by
  have hlt : str.findIdx (· != thechar) < str.length := by
    rw [List.findIdx_lt_length]
    simpa using hother
  exact ⟨_, List.findIdx?_eq_some_iff_findIdx_eq.mpr ⟨hlt, rfl⟩,
    List.dropWhile_eq_drop_findIdx_not.symm⟩

theorem eraseFrom_findLast (str : List UInt8) (thechar : UInt8) :
    eraseFrom str (afterPos (findLast (· != thechar) str)) =
      some (str.rdropWhile (· == thechar)) := by
  unfold findLast
  cases hfind : str.reverse.findIdx? (· != thechar) with
  | none =>
      have hall : ∀ char ∈ str, (char == thechar) = true := by
        simpa using hfind
      rw [List.rdropWhile_eq_nil_iff.mpr hall]
      simp [afterPos, eraseFrom]
  | some index =>
      obtain ⟨hlt, hindex⟩ := List.findIdx?_eq_some_iff_findIdx_eq.mp hfind
      rw [List.length_reverse] at hlt
      have hpos : str.length - 1 - index + 1 = str.length - index := by omega
      have hdrop : str.reverse.drop index = str.reverse.dropWhile (· == thechar) := by
        rw [← hindex]
        exact List.dropWhile_eq_drop_findIdx_not.symm
      rw [Option.map_some, afterPos, hpos, eraseFrom, if_pos (Nat.sub_le _ _), List.rdropWhile,
        ← hdrop, List.drop_reverse, List.reverse_reverse]

theorem rdropWhile_of_not_mem {str : List UInt8} {thechar : UInt8} (hnot : thechar ∉ str) :
    str.rdropWhile (· == thechar) = str := by
  rw [List.rdropWhile_eq_self_iff]
  intro hne hlast
  exact hnot (beq_iff_eq.mp hlast ▸ List.getLast_mem hne)

theorem findLast_eq_none {str : List UInt8} {thechar : UInt8}
    (hfind : findLast (· == thechar) str = none) : thechar ∉ str := by
  intro hmem
  have hnone : ∀ char ∈ str, char ≠ thechar := by
    simpa [findLast] using hfind
  exact hnone thechar hmem rfl

/-- The characters are dropped at the front, and then at the back. -/
theorem trim_eq (str : List UInt8) (thechar : UInt8) :
    trim str thechar =
      some ((str.dropWhile (· == thechar)).rdropWhile (· == thechar)) := by
  unfold trim
  split
  next hnil => simp [hnil]
  next hne =>
    by_cases hother : ∃ char ∈ str, char ≠ thechar
    · obtain ⟨pos, hfind, hdrop⟩ := drop_findFirst hother
      simp only [hfind, hdrop, eraseFrom_findLast]
      split
      · rfl
      next hnone => rw [rdropWhile_of_not_mem (findLast_eq_none hnone)]
    · have hall : ∀ char ∈ str, (char == thechar) = true := by
        simpa using hother
      have hfind : findFirst (· != thechar) str = none := by
        simpa [findFirst, List.findIdx?_eq_none_iff] using hother
      have hdrop : str.dropWhile (· == thechar) = [] := List.dropWhile_eq_nil_iff.mpr hall
      rw [hdrop, List.rdropWhile_nil, ← List.rdropWhile_eq_nil_iff.mpr hall]
      simp only [hfind, eraseFrom_findLast]
      split
      · rfl
      next hnone => rw [rdropWhile_of_not_mem (findLast_eq_none hnone)]

theorem trim_of_trimmed {str : List UInt8} {thechar : UInt8} (htrimmed : Trimmed thechar str) :
    trim str thechar = some str := by
  have hhead : str.dropWhile (· == thechar) = str := by
    cases str with
    | nil => rfl
    | cons char str =>
        have hne : char ≠ thechar := by simpa using htrimmed.head
        simp [hne]
  have hlast : str.rdropWhile (· == thechar) = str := by
    rw [List.rdropWhile_eq_self_iff]
    intro hne heq
    exact htrimmed.last (by rw [List.getLast?_eq_some_getLast hne, beq_iff_eq.mp heq])
  rw [trim_eq, hhead, hlast]

theorem exists_replicate {str : List UInt8} {thechar : UInt8}
    (hall : ∀ char ∈ str, (char == thechar) = true) :
    ∃ count, str = List.replicate count thechar :=
  ⟨str.length, List.eq_replicate_of_mem fun char hmem => beq_iff_eq.mp (hall char hmem)⟩

theorem trimmed_dropWhile (str : List UInt8) (thechar : UInt8) :
    Trimmed thechar ((str.dropWhile (· == thechar)).rdropWhile (· == thechar)) where
  head := by
    intro hhead
    obtain ⟨more, hmore⟩ :=
      List.rdropWhile_prefix (· == thechar) (str.dropWhile (· == thechar))
    have hdrop := List.head?_dropWhile_not (· == thechar) str
    rw [← hmore, List.head?_append, hhead] at hdrop
    simp at hdrop
  last := by
    intro hlast
    obtain ⟨front, hfront⟩ := List.getLast?_eq_some_iff.mp hlast
    have hne : (str.dropWhile (· == thechar)).rdropWhile (· == thechar) ≠ [] := by
      rw [hfront]
      simp
    apply List.rdropWhile_last_not (· == thechar) _ hne
    simp [hfront]

/-- **`trim` strips a string at both ends**, and nothing more. It never throws, and a
trimmed string it leaves as it is. -/
theorem trim_strips (str : List UInt8) (thechar : UInt8) :
    ∃ trimmed, trim str thechar = some trimmed ∧
      (∃ before after, str =
        List.replicate before thechar ++ trimmed ++ List.replicate after thechar) ∧
      Trimmed thechar trimmed ∧ trim trimmed thechar = some trimmed := by
  have htrimmed := trimmed_dropWhile str thechar
  refine ⟨_, trim_eq str thechar, ?_, htrimmed, trim_of_trimmed htrimmed⟩
  have hfront : ∀ char ∈ str.takeWhile (· == thechar), (char == thechar) = true :=
    fun char hmem => @List.mem_takeWhile_imp _ (· == thechar) str char hmem
  have hback : ∀ char ∈ (str.dropWhile (· == thechar)).rtakeWhile (· == thechar),
      (char == thechar) = true :=
    fun char hmem => @List.mem_rtakeWhile_imp _ (· == thechar) _ char hmem
  obtain ⟨before, hbefore⟩ := exists_replicate hfront
  obtain ⟨after, hafter⟩ := exists_replicate hback
  refine ⟨before, after, ?_⟩
  rw [← hbefore, ← hafter, List.append_assoc, List.rdropWhile_append_rtakeWhile,
    List.takeWhile_append_dropWhile]

end StrHelper

end CppFragments
