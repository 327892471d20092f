import CppFragments.Text.Split
import CppFragments.Util.Machine

/-! # `splitStr`

The splitting of a string at a delimiter, of `util/string_helper.h`. A string is
the list of its characters, and a C string as well, without the NUL that ends it.
A throw and an overflow of the counter have no result.
-/

namespace CppFragments

namespace StdString

/-- `str.find(delim, pos)`: the lowest position not before `pos` at which the
delimiter occurs. -/
def find (str delim : List UInt8) (pos : Nat) : Option Nat :=
  (List.range (str.length + 1)).find? fun index => pos ≤ index ∧ delim <+: str.drop index

/-- `str.substr(pos, count)`, to the end of the string if there is no count. It
throws if `pos` is behind the end. -/
def substr (str : List UInt8) (pos : Nat) (count? : Option Nat) : Option (List UInt8) :=
  if pos ≤ str.length then
    match count? with
    | none => some (str.drop pos)
    | some count => some ((str.drop pos).take count)
  else none

variable {str delim : List UInt8} {pos : Nat}

theorem firstAt_of_find {index : Nat} (hfind : find str delim pos = some index) :
    pos ≤ index ∧ Split.FirstAt delim (str.drop pos) (index - pos) := by
  unfold find at hfind
  rw [List.find?_range_eq_some] at hfind
  rcases hfind with ⟨hfound, _, hbefore⟩
  have hhere : pos ≤ index ∧ delim <+: str.drop index := by simpa using hfound
  refine ⟨hhere.1, ?_, ?_⟩
  · rw [List.drop_drop, Nat.add_sub_cancel' hhere.1]
    exact hhere.2
  · intro earlier hlt hhere
    rw [List.drop_drop] at hhere
    have hnot := hbefore (pos + earlier) (by omega)
    simp [hhere] at hnot

theorem absent_of_find (hne : delim ≠ []) (hfind : find str delim pos = none) :
    ¬delim <:+: str.drop pos := by
  intro hoccurs
  rcases Split.infix_iff_exists_drop.mp hoccurs with ⟨index, hhere⟩
  have hlen := hhere.length_le
  have hpos := List.length_pos_iff.mpr hne
  rw [List.drop_drop] at hhere
  rw [List.length_drop, List.length_drop] at hlen
  unfold find at hfind
  have hnot := List.find?_eq_none.mp hfind (pos + index) (List.mem_range.mpr (by omega))
  simp [hhere] at hnot

end StdString

namespace StrHelper

/-- The variables of the loop of `splitStr`. -/
structure SplitVars where
  list : List (List UInt8)
  prepos : Nat
  pos : Nat
  count : Int

/-- One pass of the loop of `splitStr`, which may be the last one. -/
def splitPass (str delim : List UInt8) (size : Nat) (vars : SplitVars) :
    Option (ForInStep SplitVars) :=
  match StdString.find str delim vars.pos with
  | none =>
      if vars.prepos < str.length then do
        let piece ← StdString.substr str vars.prepos none
        let count ← addInt vars.count 1
        return .done { vars with list := vars.list ++ [piece], count }
      else return .done vars
  | some pos => do
      let piece ← StdString.substr str vars.prepos (some (pos - vars.prepos))
      let count ← addInt vars.count 1
      return .yield ⟨vars.list ++ [piece], pos + size, pos + size, count⟩

/-- A pass that is not the last one goes on behind an occurrence of the delimiter. -/
theorem splitPass_yield {str delim : List UInt8} {size : Nat} {vars next : SplitVars}
    (hpass : splitPass str delim size vars = some (.yield next)) :
    (∃ index, StdString.find str delim vars.pos = some index ∧ next.pos = index + size) ∧
      next.count = vars.count + 1 ∧ next.count < 2 ^ 31 := by
  unfold splitPass at hpass
  split at hpass
  next =>
    split at hpass
    · simp [Option.bind_eq_some_iff] at hpass
    · simp at hpass
  next index hfind =>
    simp only [Option.bind_eq_bind, Option.bind_eq_some_iff, Option.pure_def, Option.some.injEq,
      ForInStep.yield.injEq] at hpass
    obtain ⟨_, _, count, hsum, rfl⟩ := hpass
    have hcount := addInt_eq_some_iff.mp hsum
    exact ⟨⟨index, hfind, rfl⟩, hcount.2.symm, hcount.2 ▸ hcount.1.2⟩

/-- The loop of `splitStr`. It has no other bound than the range of its counter. -/
def splitLoop (str delim : List UInt8) (size : Nat) (vars : SplitVars) :
    Option (Int × List (List UInt8)) :=
  match _hpass : splitPass str delim size vars with
  | none => none
  | some (.done vars) => some (vars.count, vars.list)
  | some (.yield next) => splitLoop str delim size next
termination_by (2 ^ 31 - vars.count).toNat
decreasing_by
  have hcount := (splitPass_yield _hpass).2
  omega

/-- What comes after a pass: the end of the loop, or the `rest` of it. -/
def afterPass (rest : SplitVars → Option (Int × List (List UInt8))) :
    ForInStep SplitVars → Option (Int × List (List UInt8))
  | .done vars => some (vars.count, vars.list)
  | .yield next => rest next

theorem splitLoop_eq (str delim : List UInt8) (size : Nat) (vars : SplitVars) :
    splitLoop str delim size vars =
      (splitPass str delim size vars).bind (afterPass (splitLoop str delim size)) := by
  rw [splitLoop]
  split
  next hpass => rw [hpass, Option.bind_none]
  next last hpass => rw [hpass, Option.bind_some, afterPass]
  next next hpass => rw [hpass, Option.bind_some, afterPass]

/-- A null pointer is `none`. The length of the delimiter goes through an
`unsigned int`. -/
def splitStr (list : List (List UInt8)) (str : List UInt8) (delim : Option (List UInt8)) :
    Option (Int × List (List UInt8)) :=
  if str = [] then some (0, list)
  else
    match delim with
    | none => some (1, list ++ [str])
    | some delim => splitLoop str delim (delim.length % 2 ^ 32) ⟨list, 0, 0, 0⟩

/-! ## What the loop appends -/

section Loop

variable {str delim : List UInt8} {size pos : Nat} {list result : List (List UInt8)}
  {count total : Int}

/-- Without an occurrence ahead, the rest of the string is appended, if there is any. -/
theorem splitLoop_of_find_none (hfind : StdString.find str delim pos = none)
    (hpos : pos ≤ str.length) (hcount : 0 ≤ count) (hlt : count < 2 ^ 31) :
    splitLoop str delim size ⟨list, pos, pos, count⟩ = some (total, result) ↔
      result = list ++ (if str.drop pos = [] then [] else [str.drop pos]) ∧
        total = count + (if str.drop pos = [] then 0 else 1) ∧ total < 2 ^ 31 := by
  rw [splitLoop_eq, splitPass]
  simp only [hfind]
  by_cases hmore : pos < str.length
  · have hrest : str.drop pos ≠ [] := by
      intro hnil
      rw [List.drop_eq_nil_iff] at hnil
      omega
    simp only [if_pos hmore, if_neg hrest, StdString.substr, if_pos hpos, Option.bind_eq_bind,
      Option.bind_some, Option.bind_assoc, Option.bind_eq_some_iff, addInt_eq_some_iff,
      Option.pure_def, afterPass, Option.some.injEq, Prod.mk.injEq]
    constructor
    · intro hreturn
      rcases hreturn with ⟨next, ⟨⟨_, hrange⟩, rfl⟩, rfl, rfl⟩
      exact ⟨rfl, rfl, hrange⟩
    · intro happended
      rcases happended with ⟨rfl, rfl, hrange⟩
      exact ⟨_, ⟨⟨by omega, hrange⟩, rfl⟩, rfl, rfl⟩
  · have hrest : str.drop pos = [] := List.drop_eq_nil_iff.mpr (by omega)
    simp only [if_neg hmore, if_pos hrest, List.append_nil, Int.add_zero, Option.pure_def,
      Option.bind_some, afterPass, Option.some.injEq, Prod.mk.injEq]
    constructor
    · intro hreturn
      rcases hreturn with ⟨rfl, rfl⟩
      exact ⟨rfl, rfl, hlt⟩
    · intro happended
      exact ⟨happended.2.1.symm, happended.1.symm⟩

/-- At an occurrence, what is before it is appended, and the search goes on
`size` characters behind its start. -/
theorem splitLoop_of_find_some {index : Nat} (hfind : StdString.find str delim pos = some index)
    (hpos : pos ≤ str.length) (hcount : 0 ≤ count) :
    splitLoop str delim size ⟨list, pos, pos, count⟩ = some (total, result) ↔
      count + 1 < 2 ^ 31 ∧
        splitLoop str delim size ⟨list ++ [(str.drop pos).take (index - pos)], index + size,
          index + size, count + 1⟩ = some (total, result) := by
  rw [splitLoop_eq, splitPass]
  simp only [hfind, StdString.substr, if_pos hpos, Option.bind_eq_bind, Option.bind_some]
  cases hsum : addInt count 1 with
  | none =>
      have hover : ¬count + 1 < 2 ^ 31 := by
        intro hrange
        have hsome := addInt_eq_some_iff.mpr ⟨⟨by omega, hrange⟩, rfl⟩
        rw [hsum] at hsome
        cases hsome
      exact iff_of_false (by simp) fun hnext => hover hnext.1
  | some next =>
      rcases addInt_eq_some_iff.mp hsum with ⟨⟨_, hrange⟩, rfl⟩
      rw [and_iff_right hrange]
      exact Iff.rfl

/-- From any point on, the loop appends the pieces of the rest of the string, if
they can be counted. -/
theorem splitLoop_eq_some_iff (hne : delim ≠ []) (hsize : size ≤ delim.length)
    (hpos : pos ≤ str.length) (hcount : 0 ≤ count) (hlt : count < 2 ^ 31) :
    splitLoop str delim size ⟨list, pos, pos, count⟩ = some (total, result) ↔
      ∃ pieces, Split.Cut delim size (str.drop pos) pieces ∧ result = list ++ pieces ∧
        total = count + pieces.length ∧ total < 2 ^ 31 := by
  -- The counter has to stay an `int`, which bounds the loop even where `size` is 0.
  induction hleft : (2 ^ 31 - count).toNat using Nat.strong_induction_on
    generalizing list pos count with
  | h left ih =>
      cases hfind : StdString.find str delim pos with
      | none =>
          have habsent := StdString.absent_of_find hne hfind
          rw [splitLoop_of_find_none hfind hpos hcount hlt]
          simp only [Split.cut_iff_of_absent habsent, exists_eq_left]
          split <;> simp
      | some index =>
          rcases StdString.firstAt_of_find hfind with ⟨hle, hfirst⟩
          have hbound := hfirst.length_le hne
          rw [List.length_drop] at hbound
          have hnext : pos + (index - pos + size) = index + size := by omega
          rw [splitLoop_of_find_some hfind hpos hcount]
          simp only [Split.cut_iff_of_firstAt hne hfirst, List.drop_drop, hnext]
          constructor
          · intro hreturn
            rcases hreturn with ⟨hrange, hreturn⟩
            rw [ih _ (by omega) (by omega) (by omega) hrange rfl] at hreturn
            rcases hreturn with ⟨rest, hcut, rfl, rfl, htotal⟩
            refine ⟨_, ⟨rest, hcut, rfl⟩, by simp, ?_, htotal⟩
            rw [List.length_cons]
            omega
          · intro hpieces
            rcases hpieces with ⟨_, ⟨rest, hcut, rfl⟩, rfl, hsum, htotal⟩
            rw [List.length_cons] at hsum
            refine ⟨by omega, ?_⟩
            rw [ih _ (by omega) (by omega) (by omega) (by omega) rfl]
            exact ⟨rest, hcut, by simp, by omega, htotal⟩

end Loop

/-! ## The whole function -/

theorem splitStr_eq_some_iff {list result : List (List UInt8)} {str delim : List UInt8}
    {total : Int} (hne : delim ≠ []) :
    splitStr list str (some delim) = some (total, result) ↔
      ∃ pieces, Split.Cut delim (delim.length % 2 ^ 32) str pieces ∧ result = list ++ pieces ∧
        total = pieces.length ∧ total < 2 ^ 31 := by
  by_cases hempty : str = []
  · have habsent : ¬delim <:+: str := by
      rw [hempty, List.infix_nil]
      exact hne
    simp only [splitStr, if_pos hempty, Split.cut_iff_of_absent habsent, exists_eq_left,
      Option.some.injEq, Prod.mk.injEq, List.append_nil, List.length_nil]
    constructor
    · intro hreturn
      rcases hreturn with ⟨rfl, rfl⟩
      exact ⟨rfl, rfl, by decide⟩
    · intro happended
      exact ⟨happended.2.1.symm, happended.1.symm⟩
  · simp only [splitStr, if_neg hempty]
    rw [splitLoop_eq_some_iff hne (Nat.mod_le _ _) (Nat.zero_le _) (by decide) (by decide)]
    simp

/-- The pieces appended are the leftmost split of the string, and their number
is returned. -/
def SplitsLeftmost (list : List (List UInt8)) (str delim : List UInt8) : Prop :=
  ∃ pieces, splitStr list str (some delim) = some ((pieces.length : Int), list ++ pieces) ∧
    Split.Leftmost delim str pieces

section Law

variable {list : List (List UInt8)} {str delim : List UInt8}

theorem SplitsLeftmost.exists_cut (hsplits : SplitsLeftmost list str delim) (hne : delim ≠ []) :
    ∃ pieces, Split.Cut delim (delim.length % 2 ^ 32) str pieces ∧
      Split.Leftmost delim str pieces ∧ pieces.length < 2 ^ 31 := by
  rcases hsplits with ⟨pieces, hreturn, hleftmost⟩
  rcases (splitStr_eq_some_iff hne).mp hreturn with ⟨cut, hcut, happended, _, hlt⟩
  rw [List.append_cancel_left happended] at hleftmost hlt
  exact ⟨cut, hcut, hleftmost, by exact_mod_cast hlt⟩

/-- The length of a delimiter that occurs has to fit the `unsigned int`. -/
theorem SplitsLeftmost.length_lt (hsplits : SplitsLeftmost list str delim) (hne : delim ≠ [])
    (hoccurs : delim <:+: str) : delim.length < 2 ^ 32 := by
  rcases hsplits.exists_cut hne with ⟨pieces, hcut, hleftmost, _⟩
  by_contra hlarge
  exact Split.absent_of_short hcut hleftmost (by decide) (Nat.not_lt.mp hlarge) hoccurs

/-- Where the length of the delimiter does not matter or is not reduced, the
string is cut behind each first occurrence. -/
theorem cut_length_iff {pieces : List (List UInt8)}
    (hlength : delim <:+: str → delim.length < 2 ^ 32) :
    Split.Cut delim (delim.length % 2 ^ 32) str pieces ↔
      Split.Cut delim delim.length str pieces := by
  by_cases hoccurs : delim <:+: str
  · rw [Nat.mod_eq_of_lt (hlength hoccurs)]
  · rw [Split.cut_iff_of_absent hoccurs, Split.cut_iff_of_absent hoccurs]

end Law

/-- **`splitStr` splits exactly when its integers are wide enough**: for the
length of a delimiter that occurs, and for the number of pieces. -/
theorem splitsLeftmost_iff (list : List (List UInt8)) (str delim : List UInt8) (hne : delim ≠ []) :
    SplitsLeftmost list str delim ↔
      (delim <:+: str → delim.length < 2 ^ 32) ∧ Split.stretches delim false str < 2 ^ 31 := by
  constructor
  · intro hsplits
    have hlength := hsplits.length_lt hne
    rcases hsplits.exists_cut hne with ⟨pieces, hcut, _, hlt⟩
    rw [← ((cut_length_iff hlength).mp hcut).length_eq hne]
    exact ⟨hlength, hlt⟩
  · intro hfits
    rcases hfits with ⟨hlength, hcount⟩
    rcases Split.exists_cut hne str with ⟨pieces, hcut⟩
    rw [← hcut.length_eq hne] at hcount
    refine ⟨pieces, ?_, hcut.leftmost hne⟩
    rw [splitStr_eq_some_iff hne]
    exact ⟨pieces, (cut_length_iff hlength).mpr hcut, rfl, rfl, by exact_mod_cast hcount⟩

-- The second occurrence overlaps the first.
example : splitStr [] (literal "aaa,b") (some (literal "aa")) = some (2, [[], literal "a,b"]) := by
  decide +kernel

/-- A header line with two colons. -/
theorem splitsLeftmost_iff_header :
    SplitsLeftmost [literal "Date"] (literal "Host: a: b: ") (literal ": ") := by
  refine (splitsLeftmost_iff _ _ _ (by decide)).mpr ⟨fun _ => by decide, ?_⟩
  decide +kernel

/-- A delimiter of 2³² + 1 characters, split at itself. -/
theorem longDelim_not_splitsLeftmost :
    ¬SplitsLeftmost [] (List.replicate (2 ^ 32 + 1) 97) (List.replicate (2 ^ 32 + 1) 97) := by
  intro hsplits
  have hne : List.replicate (2 ^ 32 + 1) (97 : UInt8) ≠ [] := by
    rw [← List.length_pos_iff, List.length_replicate]
    decide
  have hlt := hsplits.length_lt hne (List.infix_refl _)
  rw [List.length_replicate] at hlt
  exact absurd hlt (by decide)

end StrHelper

end CppFragments
