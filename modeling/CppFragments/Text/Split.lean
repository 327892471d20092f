import Mathlib

/-! # Splitting at a delimiter

The leftmost split of a text cuts it at the first occurrence of a delimiter and
goes on behind the occurrence. What is left at the end is a piece, unless it is
empty.
-/

namespace Split

variable {α : Type*} {delim text : List α}

/-! ## Occurrences -/

/-- The delimiter occurs at the index, and not before it. -/
def FirstAt (delim text : List α) (index : Nat) : Prop :=
  delim <+: text.drop index ∧ ∀ earlier < index, ¬delim <+: text.drop earlier

theorem infix_iff_exists_drop : delim <:+: text ↔ ∃ index, delim <+: text.drop index := by
  rw [List.infix_iff_prefix_suffix]
  constructor
  · intro hsuffix
    rcases hsuffix with ⟨rest, hhere, hrest⟩
    rw [List.suffix_iff_eq_drop] at hrest
    rw [hrest] at hhere
    exact ⟨_, hhere⟩
  · intro hdrop
    rcases hdrop with ⟨index, hhere⟩
    exact ⟨_, hhere, List.drop_suffix index text⟩

theorem not_prefix_drop (habsent : ¬delim <:+: text) (index : Nat) : ¬delim <+: text.drop index :=
  fun hhere => habsent (infix_iff_exists_drop.mpr ⟨index, hhere⟩)

theorem FirstAt.isInfix {index : Nat} (hfirst : FirstAt delim text index) : delim <:+: text :=
  infix_iff_exists_drop.mpr ⟨index, hfirst.1⟩

theorem FirstAt.unique {index other : Nat} (hfirst : FirstAt delim text index)
    (hother : FirstAt delim text other) : index = other := by
  apply Nat.le_antisymm
  · exact Nat.not_lt.mp fun hlt => hfirst.2 other hlt hother.1
  · exact Nat.not_lt.mp fun hlt => hother.2 index hlt hfirst.1

theorem FirstAt.length_le {index : Nat} (hfirst : FirstAt delim text index) (hne : delim ≠ []) :
    index + delim.length ≤ text.length := by
  have hlen := hfirst.1.length_le
  have hpos := List.length_pos_iff.mpr hne
  rw [List.length_drop] at hlen
  omega

/-- The text up to the first occurrence, the occurrence, and what follows it. -/
theorem FirstAt.eq_append {index : Nat} (hfirst : FirstAt delim text index) :
    text = text.take index ++ (delim ++ text.drop (index + delim.length)) := by
  rcases hfirst.1 with ⟨rest, hrest⟩
  have hdrop : text.drop (index + delim.length) = rest := by
    rw [← List.drop_drop, ← hrest, List.drop_left]
  rw [hdrop, hrest, List.take_append_drop]

theorem FirstAt.take_absent {index : Nat} (hfirst : FirstAt delim text index)
    (hne : delim ≠ []) : ¬delim <:+: text.take index := by
  intro hoccurs
  rcases infix_iff_exists_drop.mp hoccurs with ⟨earlier, hhere⟩
  have hlen := hhere.length_le
  have hpos := List.length_pos_iff.mpr hne
  rw [List.length_drop, List.length_take] at hlen
  apply hfirst.2 earlier (by omega)
  rw [List.drop_take] at hhere
  exact hhere.trans (List.take_prefix _ _)

/-! ## The leftmost split -/

/-- The pieces are the text cut at occurrences of the delimiter: none contains
it, joined they give the text, where one delimiter may have to be added at the
end, and it occurs nowhere from the start of a piece to the start of what
follows the piece. -/
structure Leftmost (delim text : List α) (pieces : List (List α)) : Prop where
  absent : ∀ piece ∈ pieces, ¬delim <:+: piece
  nil : text = [] → pieces = []
  rebuild : text ≠ [] → pieces ≠ [] ∧
    ((delim.intercalate pieces = text ∧ pieces.getLast? ≠ some []) ∨
      delim.intercalate pieces ++ delim = text)
  leftmost : ∀ before piece after, pieces = before ++ piece :: after →
    ∀ index < piece.length,
      ¬delim <+: text.drop ((before.flatMap (· ++ delim)).length + index)

/-- The pieces of a text that is cut at each first occurrence, where the search
goes on `skip` places behind the start of the occurrence. -/
inductive Cut (delim : List α) (skip : Nat) : List α → List (List α) → Prop
  | done : Cut delim skip [] []
  | last {text : List α} (hne : text ≠ []) (habsent : ¬delim <:+: text) : Cut delim skip text [text]
  | next {text : List α} {pieces : List (List α)} {index : Nat} (hfirst : FirstAt delim text index)
      (hcut : Cut delim skip (text.drop (index + skip)) pieces) :
      Cut delim skip text (text.take index :: pieces)

theorem cut_iff_of_absent {skip : Nat} {pieces : List (List α)} (habsent : ¬delim <:+: text) :
    Cut delim skip text pieces ↔ pieces = if text = [] then [] else [text] := by
  constructor
  · intro hcut
    cases hcut with
    | done => rfl
    | last hne _ => rw [if_neg hne]
    | next hfirst _ => exact absurd hfirst.isInfix habsent
  · intro heq
    rw [heq]
    split
    next hnil =>
      rw [hnil]
      exact .done
    next hne => exact .last hne habsent

theorem cut_iff_of_firstAt {skip index : Nat} {pieces : List (List α)} (hne : delim ≠ [])
    (hfirst : FirstAt delim text index) :
    Cut delim skip text pieces ↔
      ∃ rest, Cut delim skip (text.drop (index + skip)) rest ∧
        pieces = text.take index :: rest := by
  constructor
  · intro hcut
    cases hcut with
    | done => exact absurd (List.infix_nil.mp hfirst.isInfix) hne
    | last _ habsent => exact absurd hfirst.isInfix habsent
    | next hother hrest =>
        rw [hfirst.unique hother]
        exact ⟨_, hrest, rfl⟩
  · intro hrest
    rcases hrest with ⟨rest, hcut, rfl⟩
    exact .next hfirst hcut

/-- Every text can be cut, if the search goes on further ahead each time. -/
theorem exists_cut_of_pos {skip : Nat} (hpos : 0 < skip) (hne : delim ≠ []) (text : List α) :
    ∃ pieces, Cut delim skip text pieces := by
  classical
  induction hsize : text.length using Nat.strong_induction_on generalizing text with
  | h size ih =>
      by_cases hoccurs : delim <:+: text
      · have hindex := infix_iff_exists_drop.mp hoccurs
        have hfirst : FirstAt delim text (Nat.find hindex) :=
          ⟨Nat.find_spec hindex, fun _ hlt => Nat.find_min hindex hlt⟩
        have hle := hfirst.length_le hne
        have hlength := List.length_pos_iff.mpr hne
        have hshort : (text.drop (Nat.find hindex + skip)).length < size := by
          rw [List.length_drop]
          omega
        rcases ih _ hshort _ rfl with ⟨pieces, hcut⟩
        exact ⟨_, .next hfirst hcut⟩
      · by_cases hempty : text = []
        · rw [hempty]
          exact ⟨[], .done⟩
        · exact ⟨[text], .last hempty hoccurs⟩

/-- Every text can be cut behind each first occurrence. -/
theorem exists_cut (hne : delim ≠ []) (text : List α) :
    ∃ pieces, Cut delim delim.length text pieces :=
  exists_cut_of_pos (List.length_pos_iff.mpr hne) hne text

theorem leftmost_of_absent (hnonempty : text ≠ []) (habsent : ¬delim <:+: text) :
    Leftmost delim text [text] where
  absent := by simpa using habsent
  nil hnil := absurd hnil hnonempty
  rebuild := by
    intro _
    refine ⟨by simp, Or.inl ⟨List.intercalate_singleton, ?_⟩⟩
    simpa using hnonempty
  leftmost := by
    intro before piece after _ index _
    exact not_prefix_drop habsent _

section Cons

variable {pieces : List (List α)} {index : Nat}

/-- A piece is put in front of those that give the text behind the first
occurrence. -/
theorem FirstAt.rebuild_cons (hfirst : FirstAt delim text index)
    (hsplit : Leftmost delim (text.drop (index + delim.length)) pieces) :
    (delim.intercalate (text.take index :: pieces) = text ∧
        (text.take index :: pieces).getLast? ≠ some []) ∨
      delim.intercalate (text.take index :: pieces) ++ delim = text := by
  have happend := hfirst.eq_append
  by_cases hrest : text.drop (index + delim.length) = []
  · -- Nothing follows the delimiter, which is the one to be added.
    rw [hrest, List.append_nil] at happend
    rw [hsplit.nil hrest, List.intercalate_singleton]
    exact Or.inr happend.symm
  · rcases hsplit.rebuild hrest with ⟨hpieces, hjoin⟩
    rw [List.intercalate_cons_of_ne_nil hpieces, List.getLast?_cons_of_ne_nil hpieces]
    rcases hjoin with ⟨hjoin, hlast⟩ | hjoin
    · refine Or.inl ⟨?_, hlast⟩
      rw [hjoin, List.append_assoc]
      exact happend.symm
    · refine Or.inr ?_
      rw [List.append_assoc, List.append_assoc, hjoin]
      exact happend.symm

/-- No occurrence is passed over before the first one or behind it. -/
theorem FirstAt.leftmost_cons (hfirst : FirstAt delim text index) (hne : delim ≠ [])
    (hsplit : Leftmost delim (text.drop (index + delim.length)) pieces)
    (before : List (List α)) (piece : List α) (after : List (List α))
    (heq : text.take index :: pieces = before ++ piece :: after) (offset : Nat)
    (hlt : offset < piece.length) :
    ¬delim <+: text.drop ((before.flatMap (· ++ delim)).length + offset) := by
  cases before with
  | nil =>
      rw [List.nil_append, List.cons.injEq] at heq
      rw [← heq.1, List.length_take] at hlt
      rw [List.flatMap_nil, List.length_nil, Nat.zero_add]
      exact hfirst.2 offset (by omega)
  | cons head before =>
      rw [List.cons_append, List.cons.injEq] at heq
      have hstart : (text.take index).length = index := by
        have hle := hfirst.length_le hne
        rw [List.length_take]
        omega
      have hbehind := hsplit.leftmost before piece after heq.2 offset hlt
      rw [List.drop_drop] at hbehind
      rw [List.flatMap_cons, List.length_append, List.length_append, ← heq.1, hstart,
        Nat.add_assoc (index + delim.length)]
      exact hbehind

/-- Cutting at the first occurrence and splitting what is behind it is splitting. -/
theorem FirstAt.leftmost (hfirst : FirstAt delim text index) (hne : delim ≠ [])
    (hsplit : Leftmost delim (text.drop (index + delim.length)) pieces) :
    Leftmost delim text (text.take index :: pieces) where
  absent := by
    intro piece hmem
    rcases List.mem_cons.mp hmem with rfl | hmem
    · exact hfirst.take_absent hne
    · exact hsplit.absent piece hmem
  nil := by
    intro hnil
    have hle := hfirst.length_le hne
    have hpos := List.length_pos_iff.mpr hne
    rw [hnil, List.length_nil] at hle
    omega
  rebuild := by
    intro _
    exact ⟨by simp, hfirst.rebuild_cons hsplit⟩
  leftmost := hfirst.leftmost_cons hne hsplit

end Cons

/-- To cut behind each first occurrence is to split. -/
theorem Cut.leftmost {pieces : List (List α)} (hcut : Cut delim delim.length text pieces)
    (hne : delim ≠ []) : Leftmost delim text pieces := by
  induction hcut with
  | done => exact ⟨by simp, fun _ => rfl, by simp, by simp⟩
  | last hnonempty habsent => exact leftmost_of_absent hnonempty habsent
  | next hfirst _ ih => exact hfirst.leftmost hne ih

theorem Cut.unique {skip : Nat} {pieces others : List (List α)} (hcut : Cut delim skip text pieces)
    (hother : Cut delim skip text others) (hne : delim ≠ []) : pieces = others := by
  induction hcut generalizing others with
  | done =>
      have habsent : ¬delim <:+: ([] : List α) := fun hoccurs => hne (List.infix_nil.mp hoccurs)
      exact ((cut_iff_of_absent habsent).mp hother).symm
  | last hnonempty habsent =>
      rw [(cut_iff_of_absent habsent).mp hother, if_neg hnonempty]
  | next hfirst _ ih =>
      rcases (cut_iff_of_firstAt hne hfirst).mp hother with ⟨rest, hrest, rfl⟩
      rw [ih hrest]

/-- A text is its only piece if there is text and no delimiter in it. -/
theorem cut_singleton_iff {skip : Nat} (hne : delim ≠ []) :
    Cut delim skip text [text] ↔ text ≠ [] ∧ ¬delim <:+: text := by
  constructor
  · intro hcut
    generalize hpieces : [text] = pieces at hcut
    cases hcut with
    | done => cases hpieces
    | last hnonempty habsent => exact ⟨hnonempty, habsent⟩
    | next hfirst _ =>
        have hshort := congrArg List.length (List.cons.inj hpieces).1
        have hbound := hfirst.length_le hne
        have hlength := List.length_pos_iff.mpr hne
        rw [List.length_take] at hshort
        omega
  · intro htext
    exact .last htext.1 htext.2

/-! ## Pieces followed by the delimiter -/

/-- No end of the delimiter is a beginning of it. -/
def Borderless (delim : List α) : Prop :=
  ∀ shift < delim.length, 0 < shift → ¬delim.drop shift <+: delim

section Borderless

variable {piece rest : List α} {pieces : List (List α)}

/-- A delimiter behind a text without it is the first, for it cannot begin in
the text. -/
theorem firstAt_append (hborder : Borderless delim) (habsent : ¬delim <:+: piece) :
    FirstAt delim (piece ++ (delim ++ rest)) piece.length := by
  refine ⟨by rw [List.drop_left]; exact List.prefix_append _ _, ?_⟩
  intro earlier hlt hhere
  rw [List.drop_append_of_le_length hlt.le] at hhere
  have hhead : piece.drop earlier <+: piece.drop earlier ++ (delim ++ rest) :=
    List.prefix_append _ _
  by_cases hfits : delim.length ≤ (piece.drop earlier).length
  · have hwithin := List.prefix_of_prefix_length_le hhere hhead hfits
    exact habsent (hwithin.isInfix.trans (List.drop_suffix _ _).isInfix)
  · have hbegin := List.prefix_of_prefix_length_le hhead hhere (Nat.not_le.mp hfits).le
    rcases hbegin with ⟨tail, htail⟩
    rw [← htail, List.prefix_append_right_inj, htail] at hhere
    have hlength := congrArg List.length htail
    rw [List.length_append, List.length_drop] at hlength
    have hend : delim.drop (piece.length - earlier) = tail := by
      rw [← htail, ← List.length_drop, List.drop_left]
    rw [List.length_drop] at hfits
    apply hborder (piece.length - earlier) (by omega) (by omega)
    rw [hend]
    exact List.prefix_of_prefix_length_le hhere (List.prefix_append _ _) (by omega)

theorem cut_append_iff (hborder : Borderless delim) (hne : delim ≠ [])
    (habsent : ¬delim <:+: piece) :
    Cut delim delim.length (piece ++ (delim ++ rest)) pieces ↔
      ∃ others, Cut delim delim.length rest others ∧ pieces = piece :: others := by
  have hdrop : (piece ++ (delim ++ rest)).drop (piece.length + delim.length) = rest := by
    rw [← List.length_append, ← List.append_assoc, List.drop_left]
  rw [cut_iff_of_firstAt hne (firstAt_append hborder habsent), hdrop, List.take_left]

/-- Texts without the delimiter, each followed by it, are cut into these texts. -/
theorem cut_flatMap (hborder : Borderless delim) (hne : delim ≠ [])
    (habsent : ∀ piece ∈ pieces, ¬delim <:+: piece) :
    Cut delim delim.length (pieces.flatMap (· ++ delim)) pieces := by
  induction pieces with
  | nil => exact .done
  | cons piece pieces ih =>
      rw [List.forall_mem_cons] at habsent
      rw [List.flatMap_cons, List.append_assoc, cut_append_iff hborder hne habsent.1]
      exact ⟨pieces, ih habsent.2, rfl⟩

end Borderless

/-! ## Counting -/

section Counting

variable [DecidableEq α]

/-- The number of occurrences of the delimiter, the leftmost first and without
overlap, and one more if text is left after the last. The flag tells whether
there is text since the last occurrence. -/
def stretches (delim : List α) (left : Bool) : List α → Nat
  | [] => if left then 1 else 0
  | first :: rest =>
      if delim <+: first :: rest then
        stretches delim false (rest.drop (delim.length - 1)) + 1
      else stretches delim true rest
termination_by text => text.length
decreasing_by
  · rw [List.length_drop, List.length_cons]
    omega
  · exact Nat.lt_succ_self _

/-- The same count where each occurrence stands for `skip` places. -/
def stretchesBy (delim : List α) (skip : Nat) (left : Bool) : List α → Nat
  | [] => if left then 1 else 0
  | first :: rest =>
      if delim <+: first :: rest then stretchesBy delim skip false (rest.drop (skip - 1)) + 1
      else stretchesBy delim skip true rest
termination_by text => text.length
decreasing_by
  · rw [List.length_drop, List.length_cons]
    omega
  · exact Nat.lt_succ_self _

theorem stretchesBy_length (delim : List α) (left : Bool) (text : List α) :
    stretchesBy delim delim.length left text = stretches delim left text := by
  induction hsize : text.length using Nat.strong_induction_on generalizing text left with
  | h size ih =>
      cases text with
      | nil => rw [stretchesBy, stretches]
      | cons first rest =>
          rw [List.length_cons] at hsize
          have hshort : (rest.drop (delim.length - 1)).length < size := by
            rw [List.length_drop]
            omega
          rw [stretchesBy, stretches, ih _ hshort false _ rfl, ih _ (by omega) true rest rfl]

theorem stretchesBy_of_absent {skip : Nat} (habsent : ¬delim <:+: text) (left : Bool) :
    stretchesBy delim skip left text = if left ∨ text ≠ [] then 1 else 0 := by
  induction text generalizing left with
  | nil => simp [stretchesBy]
  | cons first rest ih =>
      have hnot : ¬delim <+: first :: rest := fun hhere => habsent hhere.isInfix
      have hrest : ¬delim <:+: rest :=
        fun hoccurs => habsent (hoccurs.trans (List.suffix_cons first rest).isInfix)
      rw [stretchesBy, if_neg hnot, ih hrest]
      simp

theorem stretchesBy_of_firstAt {skip index : Nat} (hfirst : FirstAt delim text index)
    (hpos : 0 < skip) (hne : delim ≠ []) (left : Bool) :
    stretchesBy delim skip left text =
      stretchesBy delim skip false (text.drop (index + skip)) + 1 := by
  induction index generalizing text left with
  | zero =>
      cases text with
      | nil => exact absurd (List.prefix_nil.mp hfirst.1) hne
      | cons first rest =>
          have hhere : delim <+: first :: rest := hfirst.1
          have hlen : 0 + skip = skip - 1 + 1 := by omega
          rw [stretchesBy, if_pos hhere, hlen, List.drop_succ_cons]
  | succ index ih =>
      cases text with
      | nil => exact absurd (List.prefix_nil.mp hfirst.1) hne
      | cons first rest =>
          have hrest : FirstAt delim rest index :=
            ⟨hfirst.1, fun earlier hlt => hfirst.2 (earlier + 1) (Nat.succ_lt_succ hlt)⟩
          have hnot : ¬delim <+: first :: rest := hfirst.2 0 (Nat.succ_pos index)
          rw [stretchesBy, if_neg hnot, ih hrest, Nat.add_right_comm index 1, List.drop_succ_cons]

theorem Cut.length_eq_stretchesBy {skip : Nat} {pieces : List (List α)}
    (hcut : Cut delim skip text pieces) (hpos : 0 < skip) (hne : delim ≠ []) :
    pieces.length = stretchesBy delim skip false text := by
  induction hcut with
  | done => rw [stretchesBy]; rfl
  | last hnonempty habsent =>
      rw [stretchesBy_of_absent habsent]
      simp [hnonempty]
  | next hfirst _ ih => rw [stretchesBy_of_firstAt hfirst hpos hne, List.length_cons, ih]

theorem Cut.length_eq {pieces : List (List α)} (hcut : Cut delim delim.length text pieces)
    (hne : delim ≠ []) : pieces.length = stretches delim false text := by
  rw [hcut.length_eq_stretchesBy (List.length_pos_iff.mpr hne) hne, stretchesBy_length]

end Counting

/-! ## Sizes -/

theorem length_intercalate (delim : List α) {pieces : List (List α)} (hne : pieces ≠ []) :
    (delim.intercalate pieces).length + delim.length =
      pieces.flatten.length + pieces.length * delim.length := by
  induction pieces with
  | nil => exact absurd rfl hne
  | cons piece pieces ih =>
      by_cases hpieces : pieces = []
      · simp [hpieces]
      · have hrest := ih hpieces
        rw [List.intercalate_cons_of_ne_nil hpieces, List.flatten_cons, List.length_cons,
          Nat.succ_mul]
        simp only [List.length_append]
        omega

/-- Each piece, but a last one with text in it, stands for `skip` more places. -/
theorem Cut.length_text {skip : Nat} {pieces : List (List α)} (hcut : Cut delim skip text pieces)
    (hle : skip ≤ delim.length) (hne : delim ≠ []) :
    ∃ cuts, pieces.flatten.length + cuts * skip = text.length ∧
      (cuts = pieces.length ∨ cuts + 1 = pieces.length) ∧ (delim <:+: text → 0 < cuts) := by
  induction hcut with
  | done =>
      refine ⟨0, by simp, Or.inl rfl, ?_⟩
      intro hoccurs
      exact absurd (List.infix_nil.mp hoccurs) hne
  | last _ habsent => exact ⟨0, by simp, Or.inr rfl, fun hoccurs => absurd hoccurs habsent⟩
  | @next text pieces index hfirst _ ih =>
      rcases ih with ⟨cuts, hsum, hcount, _⟩
      have hbound := hfirst.length_le hne
      refine ⟨cuts + 1, ?_, ?_, fun _ => Nat.succ_pos cuts⟩
      · rw [List.length_drop] at hsum
        rw [List.flatten_cons, List.length_append, List.length_take, Nat.succ_mul]
        omega
      · rw [List.length_cons]
        omega

/-- **A delimiter has to be skipped whole.** Where its length is reduced by a
modulus, the cut text is no leftmost split, unless the delimiter never occurs. -/
theorem absent_of_short {modulus : Nat} {pieces : List (List α)}
    (hcut : Cut delim (delim.length % modulus) text pieces) (hsplit : Leftmost delim text pieces)
    (hpos : 0 < modulus) (hle : modulus ≤ delim.length) : ¬delim <:+: text := by
  intro hoccurs
  have hdelim : delim ≠ [] := List.length_pos_iff.mp (Nat.lt_of_lt_of_le hpos hle)
  have htext : text ≠ [] := by
    intro hnil
    rw [hnil] at hoccurs
    exact hdelim (List.infix_nil.mp hoccurs)
  rcases hcut.length_text (Nat.mod_le _ _) hdelim with ⟨cuts, hsum, hcount, hcuts⟩
  have hcuts := hcuts hoccurs
  have hshort : delim.length % modulus < modulus := Nat.mod_lt _ hpos
  have hdiv := Nat.div_add_mod delim.length modulus
  have hwhole : modulus ≤ modulus * (delim.length / modulus) :=
    Nat.le_mul_of_pos_right modulus (Nat.div_pos hle hpos)
  rcases hsplit.rebuild htext with ⟨hpieces, hjoin⟩
  have hjoined := length_intercalate delim hpieces
  have hmany := List.length_pos_iff.mpr hpieces
  generalize delim.length % modulus = skip at hshort hdiv hsum
  generalize modulus * (delim.length / modulus) = whole at hdiv hwhole
  have hproduct : ∀ count, count * delim.length = count * whole + count * skip := by
    intro count
    rw [← hdiv, Nat.mul_add]
  rcases hjoin with ⟨hjoin, _⟩ | hjoin
  · -- One delimiter fewer than pieces, and at most one cut more than delimiters.
    rw [hjoin, hproduct] at hjoined
    rcases hcount with rfl | hcount
    · by_cases hone : pieces.length = 1
      · rcases List.length_eq_one_iff.mp hone with ⟨piece, rfl⟩
        rw [List.intercalate_singleton] at hjoin
        exact hsplit.absent piece (List.mem_singleton_self piece) (hjoin ▸ hoccurs)
      · have htwice : 2 * whole ≤ pieces.length * whole :=
          Nat.mul_le_mul_right whole (by omega)
        omega
    · have hcut : 0 < cuts * whole := Nat.mul_pos hcuts (by omega)
      rw [← hcount, Nat.succ_mul, Nat.succ_mul] at hjoined
      omega
  · -- As many delimiters as pieces, and no more cuts, each of which is shorter.
    have hcut : cuts * skip ≤ pieces.length * skip := Nat.mul_le_mul_right skip (by omega)
    have hmore : 0 < pieces.length * whole := Nat.mul_pos hmany (by omega)
    rw [← hjoin, List.length_append, hjoined, hproduct] at hsum
    omega

end Split
