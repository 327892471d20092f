import CppFragments.Util.StringHelper

/-! # The response headers

The loop over the header data in `main` of `net/https_client.cpp`. It prints a
header for each line that splits at ": " into exactly two pieces.
-/

namespace CppFragments

open StrHelper

/-- The header printed for the pieces of a line, if any. -/
def headerOfPieces : List (List UInt8) → Option (List UInt8 × List UInt8)
  | [key, value] => some (key, value)
  | _ => none

/-- The loop over the lines, with the headers it prints. There is no result where
`splitStr` has none. -/
def reportLines : List (List UInt8) → Option (List (List UInt8 × List UInt8))
  | [] => some []
  | line :: lines => do
      let (_, kv) ← splitStr [] line (some (literal ": "))
      let reports ← reportLines lines
      return (headerOfPieces kv).toList ++ reports

def reportHeaders (headerData : List UInt8) : Option (List (List UInt8 × List UInt8)) := do
  let (_, headers) ← splitStr [] headerData (some (literal "\r\n"))
  reportLines headers

/-- A status line and header fields, each a name and a value. -/
structure HeaderBlock where
  status : List UInt8
  fields : List (List UInt8 × List UInt8)
  status_line : ¬literal "\r\n" <:+: status
  status_separator : ¬literal ": " <:+: status
  name_ne : ∀ field ∈ fields, field.1 ≠ []
  name_colon : ∀ field ∈ fields, 0x3A ∉ field.1
  field_line : ∀ field ∈ fields, ∀ char ∈ field.1 ++ field.2, char ≠ 0x0D ∧ char ≠ 0x0A

def fieldLine (field : List UInt8 × List UInt8) : List UInt8 :=
  field.1 ++ (literal ": " ++ field.2)

namespace HeaderBlock

/-- The lines of the block. The last is empty. -/
def lines (block : HeaderBlock) : List (List UInt8) :=
  block.status :: (block.fields.map fieldLine ++ [[]])

/-- The block as received: every line is followed by CR and LF. -/
def text (block : HeaderBlock) : List UInt8 :=
  block.lines.flatMap (· ++ literal "\r\n")

end HeaderBlock

/-! ## One line -/

theorem borderless_separator : Split.Borderless (literal ": ") := by
  unfold Split.Borderless
  decide

theorem borderless_lineEnd : Split.Borderless (literal "\r\n") := by
  unfold Split.Borderless
  decide

/-- A text without the first character of a delimiter does not contain it. -/
theorem not_infix_of_head {delim text : List UInt8} {char : UInt8}
    (hhead : delim.head? = some char) (hnot : char ∉ text) : ¬delim <:+: text := by
  intro hoccurs
  exact hnot (hoccurs.subset (List.mem_of_head? hhead))

/-- What a line is reported as, where its pieces can be counted. -/
def Reports (line : List UInt8) (report : Option (List UInt8 × List UInt8)) : Prop :=
  ∃ pieces, Split.Cut (literal ": ") 2 line pieces ∧ pieces.length < 2 ^ 31 ∧
    report = headerOfPieces pieces

theorem reportLines_cons {line : List UInt8} {lines : List (List UInt8)}
    {reports : List (List UInt8 × List UInt8)} :
    reportLines (line :: lines) = some reports ↔
      ∃ report rest, Reports line report ∧ reportLines lines = some rest ∧
        reports = report.toList ++ rest := by
  have hne : literal ": " ≠ [] := by decide
  simp only [reportLines, Option.bind_eq_bind, Option.bind_eq_some_iff, Option.pure_def,
    Option.some.injEq, Prod.exists]
  constructor
  · intro hreturn
    rcases hreturn with ⟨total, kv, hsplit, rest, hrest, rfl⟩
    rcases (splitStr_eq_some_iff hne).mp hsplit with ⟨pieces, hcut, rfl, hsum, hrange⟩
    exact ⟨_, rest, ⟨_, hcut, by omega, rfl⟩, hrest, rfl⟩
  · intro hreports
    rcases hreports with ⟨_, rest, ⟨pieces, hcut, hcount, rfl⟩, hrest, rfl⟩
    have hsplit := (splitStr_eq_some_iff hne).mpr
      ⟨pieces, hcut, (List.nil_append pieces).symm, rfl, by exact_mod_cast hcount⟩
    exact ⟨_, _, hsplit, rest, hrest, rfl⟩

section Line

variable {line : List UInt8} {report : Option (List UInt8 × List UInt8)}

theorem reports_of_absent (habsent : ¬literal ": " <:+: line) :
    Reports line report ↔ report = none := by
  simp only [Reports, Split.cut_iff_of_absent habsent, exists_eq_left]
  split
  next => simp [headerOfPieces]
  next => simp [headerOfPieces]

variable {field : List UInt8 × List UInt8}

/-- The first separator of a field line is the one behind the name. -/
theorem reports_fieldLine_iff (hcolon : 0x3A ∉ field.1) :
    Reports (fieldLine field) report ↔
      ∃ pieces, Split.Cut (literal ": ") 2 field.2 pieces ∧ pieces.length + 1 < 2 ^ 31 ∧
        report = headerOfPieces (field.1 :: pieces) := by
  have habsent : ¬literal ": " <:+: field.1 := not_infix_of_head rfl hcolon
  have hcut (pieces : List (List UInt8)) :
      Split.Cut (literal ": ") 2 (field.1 ++ (literal ": " ++ field.2)) pieces ↔
        ∃ others, Split.Cut (literal ": ") 2 field.2 others ∧ pieces = field.1 :: others :=
    Split.cut_append_iff borderless_separator (by decide) habsent
  unfold Reports fieldLine
  constructor
  · intro hreports
    rcases hreports with ⟨_, hline, hcount, rfl⟩
    rcases (hcut _).mp hline with ⟨pieces, hvalue, rfl⟩
    exact ⟨pieces, hvalue, hcount, rfl⟩
  · intro hreports
    rcases hreports with ⟨pieces, hvalue, hcount, rfl⟩
    exact ⟨_, (hcut _).mpr ⟨pieces, hvalue, rfl⟩, hcount, rfl⟩

/-- A field is reported as it is exactly if its value is one piece. -/
theorem reports_field_iff (hcolon : 0x3A ∉ field.1) :
    Reports (fieldLine field) (some field) ↔ field.2 ≠ [] ∧ ¬literal ": " <:+: field.2 := by
  rw [reports_fieldLine_iff hcolon]
  constructor
  · intro hreports
    rcases hreports with ⟨pieces, hcut, _, hreport⟩
    rcases pieces with _ | ⟨value, _ | _⟩
    · cases hreport
    · have hvalue : field.2 = value := congrArg Prod.snd (Option.some.inj hreport)
      rw [← hvalue] at hcut
      exact (Split.cut_singleton_iff (by decide)).mp hcut
    · cases hreport
  · intro hvalue
    refine ⟨[field.2], (Split.cut_singleton_iff (by decide)).mpr hvalue, ?_, rfl⟩
    rw [List.length_singleton]
    decide

end Line

/-! ## The block -/

/-- The empty line at the end reports nothing. -/
theorem reportLines_append_empty (lines : List (List UInt8)) :
    reportLines (lines ++ [[]]) = reportLines lines := by
  induction lines with
  | nil => rfl
  | cons line lines ih =>
      ext reports
      rw [List.cons_append, reportLines_cons, reportLines_cons, ih]

/-- No more headers are reported than there are lines. -/
theorem length_reportLines_le {lines : List (List UInt8)}
    {reports : List (List UInt8 × List UInt8)} (hreports : reportLines lines = some reports) :
    reports.length ≤ lines.length := by
  induction lines generalizing reports with
  | nil =>
      cases hreports
      exact Nat.le_refl 0
  | cons line lines ih =>
      rcases reportLines_cons.mp hreports with ⟨report, rest, _, hrest, rfl⟩
      have hlength := ih hrest
      rw [List.length_append, List.length_cons]
      cases report with
      | none => exact (Nat.zero_add _).trans_le (hlength.trans (Nat.le_succ _))
      | some header =>
          rw [Option.toList_some, List.length_singleton]
          omega

/-- As many headers as lines are reported only if each line reports its own. -/
theorem reportLines_fields_iff {fields : List (List UInt8 × List UInt8)} :
    reportLines (fields.map fieldLine) = some fields ↔
      ∀ field ∈ fields, Reports (fieldLine field) (some field) := by
  induction fields with
  | nil => simp [reportLines]
  | cons field fields ih =>
      rw [List.map_cons, reportLines_cons, List.forall_mem_cons, ← ih]
      constructor
      · intro hreports
        rcases hreports with ⟨report, rest, hreport, hrest, hall⟩
        cases report with
        | none =>
            -- The other lines are too few to report all fields.
            have hlength := length_reportLines_le hrest
            rw [Option.toList_none, List.nil_append] at hall
            rw [← hall, List.length_cons, List.length_map] at hlength
            exact absurd hlength (Nat.not_succ_le_self _)
        | some header =>
            rw [Option.toList_some, List.singleton_append, List.cons.injEq] at hall
            rcases hall with ⟨rfl, rfl⟩
            exact ⟨hreport, hrest⟩
      · intro hreports
        exact ⟨_, _, hreports.1, hreports.2, rfl⟩

namespace HeaderBlock

variable (block : HeaderBlock)

theorem lines_absent : ∀ line ∈ block.lines, ¬literal "\r\n" <:+: line := by
  intro line hline
  rcases List.mem_cons.mp hline with rfl | hline
  · exact block.status_line
  rcases List.mem_append.mp hline with hfield | hempty
  · rcases List.mem_map.mp hfield with ⟨field, hmem, rfl⟩
    have hchars := block.field_line field hmem
    have hbreak : (0x0D : UInt8) ∉ fieldLine field := by
      intro hchar
      rcases List.mem_append.mp hchar with hname | hrest
      · exact (hchars _ (List.mem_append_left _ hname)).1 rfl
      rcases List.mem_append.mp hrest with hseparator | hvalue
      · exact absurd hseparator (by decide)
      · exact (hchars _ (List.mem_append_right _ hvalue)).1 rfl
    exact not_infix_of_head rfl hbreak
  · rw [List.mem_singleton.mp hempty, List.infix_nil]
    decide

/-- The lines of the block are what is looped over, if they can be counted. -/
theorem reportHeaders_text {reports : List (List UInt8 × List UInt8)} :
    reportHeaders block.text = some reports ↔
      block.lines.length < 2 ^ 31 ∧ reportLines block.lines = some reports := by
  have hne : literal "\r\n" ≠ [] := by decide
  have hcut : Split.Cut (literal "\r\n") 2 block.text block.lines :=
    Split.cut_flatMap borderless_lineEnd hne block.lines_absent
  simp only [reportHeaders, Option.bind_eq_bind, Option.bind_eq_some_iff, Prod.exists]
  constructor
  · intro hreturn
    rcases hreturn with ⟨total, headers, hsplit, hreports⟩
    rcases (splitStr_eq_some_iff hne).mp hsplit with ⟨pieces, hpieces, hheaders, hsum, hrange⟩
    rw [List.nil_append, hpieces.unique hcut hne] at hheaders
    rw [hpieces.unique hcut hne] at hsum
    rw [hheaders] at hreports
    exact ⟨by omega, hreports⟩
  · intro hlines
    have hsplit := (splitStr_eq_some_iff hne).mpr
      ⟨_, hcut, (List.nil_append _).symm, rfl, by exact_mod_cast hlines.1⟩
    exact ⟨_, _, hsplit, hlines.2⟩

theorem length_lines : block.lines.length = block.fields.length + 2 := by
  simp [lines]

theorem reportLines_lines_iff :
    reportLines block.lines = some block.fields ↔
      ∀ field ∈ block.fields, field.2 ≠ [] ∧ ¬literal ": " <:+: field.2 := by
  have hfields : (∀ field ∈ block.fields, Reports (fieldLine field) (some field)) ↔
      ∀ field ∈ block.fields, field.2 ≠ [] ∧ ¬literal ": " <:+: field.2 :=
    forall₂_congr fun field hmem => reports_field_iff (block.name_colon field hmem)
  rw [lines, reportLines_cons, reportLines_append_empty, ← hfields, ← reportLines_fields_iff]
  constructor
  · intro hreports
    rcases hreports with ⟨report, rest, hreport, hrest, hall⟩
    have hnone := (reports_of_absent block.status_separator).mp hreport
    rw [hnone, Option.toList_none, List.nil_append] at hall
    rw [← hall] at hrest
    exact hrest
  · intro hreports
    exact ⟨none, _, (reports_of_absent block.status_separator).mpr rfl, hreports, rfl⟩

/-- **The loop reports the fields of a block exactly when** its lines can be
counted and no value is empty or contains ": ". -/
theorem reportHeaders_iff :
    reportHeaders block.text = some block.fields ↔
      block.fields.length + 2 < 2 ^ 31 ∧
        ∀ field ∈ block.fields, field.2 ≠ [] ∧ ¬literal ": " <:+: field.2 := by
  rw [reportHeaders_text, length_lines, reportLines_lines_iff]

/-- A field whose value contains the separator. -/
def colonBlock : HeaderBlock where
  status := literal "HTTP/1.1 200 OK"
  fields := [(literal "X", literal "a: b")]
  status_line := by decide +kernel
  status_separator := by decide +kernel
  name_ne := by decide
  name_colon := by decide
  field_line := by decide +kernel

/-- The field of "X: a: b" is not reported. -/
theorem colonBlock_not_reported :
    colonBlock.text = literal "HTTP/1.1 200 OK\r\nX: a: b\r\n\r\n" ∧
      reportHeaders colonBlock.text ≠ some colonBlock.fields := by
  refine ⟨by decide +kernel, ?_⟩
  intro hreports
  have hvalue := colonBlock.reportLines_lines_iff.mp (colonBlock.reportHeaders_text.mp hreports).2
  exact (hvalue _ List.mem_cons_self).2 (by decide)

end HeaderBlock

end CppFragments
