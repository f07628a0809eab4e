import Ownership.Proofs.Except
import Ownership.Proofs.Rules.Line

set_option autoImplicit false

/-!
# A written rules file reads back

A rules file is laid out in rows: rules with the blanks around their two words, and between them
blank rows and comments. However the rows are laid out, reading the text gives back the rules that
were written, each with the number of its row.
-/
namespace Ownership

open Text

/-- Whether the two texts of a rule can stand in a row as they are. -/
structure Rule.IsWritable (r : Rule) : Prop where
  isWord_pattern : IsWord r.pattern.toList
  isWord_service : IsWord r.service.toList
  pattern_notComment : r.pattern.toList.head? ≠ some '#'
  service_notComment : r.service.toList.head? ≠ some '#'

def Rule.atLine (r : Rule) (number : Nat) : Rule :=
  { r with line := some number }

theorem Rule.ofPattern_self (r : Rule) (number : Nat) :
    Rule.ofPattern r.pattern r.service (some number) = .ok (r.atLine number) := by
  obtain ⟨s, hs, hpattern, hservice, hline⟩ :=
    Rule.exists_of_compile r.isCompiled r.service (some number)
  obtain rfl : s = r.atLine number := Rule.ext_text hpattern hservice hline
  exact hs

namespace Rules

/-! ## Rows -/

structure Margin where
  chars : List Char
  isBlank : ∀ c ∈ chars, isBlank c = true
  newline_not_mem : '\n' ∉ chars

def Margin.ofBlanks (cs : List Char) : Margin where
  chars := cs.filter fun c => Text.isBlank c && c != '\n'
  isBlank c hc := (Bool.and_eq_true_iff.mp (List.mem_filter.mp hc).2).1
  newline_not_mem hmem := by simpa using (List.mem_filter.mp hmem).2

/-- A row of a rules file. The blanks at the end of a rule may be the return of a line's end. -/
inductive Row where
  | rule (rule : Rule) (isWritable : rule.IsWritable) (indent gap ending : Margin)
      (gap_ne_nil : gap.chars ≠ [])
  | blank (margin : Margin)
  | comment (indent : Margin) (text : List Char) (newline_not_mem : '\n' ∉ text)

namespace Row

def chars : Row → List Char
  | rule r _ indent gap ending _ =>
    indent.chars ++ (r.pattern.toList ++ (gap.chars ++ (r.service.toList ++ ending.chars)))
  | blank margin => margin.chars
  | comment indent text _ => indent.chars ++ '#' :: text

def rule? : Row → Option Rule
  | rule r _ _ _ _ _ => some r
  | blank _ => none
  | comment _ _ _ => none

def words (row : Row) : List (List Char) :=
  row.rule?.elim [] fun r => [r.pattern.toList, r.service.toList]

theorem newline_not_mem_chars (row : Row) : '\n' ∉ row.chars := by
  cases row with
  | rule r hr indent gap ending _ =>
    have hblank : Text.isBlank '\n' = true := by decide
    simp only [chars, List.mem_append, not_or]
    exact ⟨indent.newline_not_mem, hr.isWord_pattern.not_mem hblank, gap.newline_not_mem,
      hr.isWord_service.not_mem hblank, ending.newline_not_mem⟩
  | blank margin => exact margin.newline_not_mem
  | comment indent text htext =>
    simp only [chars, List.mem_append, List.mem_cons, not_or]
    exact ⟨indent.newline_not_mem, by decide, htext⟩

theorem columns_chars (row : Row) : columns (stripComment row.chars) = row.words := by
  cases row with
  | rule r hr indent gap ending hgap =>
    obtain ⟨blank, rest, hchars⟩ := List.exists_cons_of_ne_nil hgap
    obtain ⟨hblank, hrest⟩ := List.forall_mem_cons.mp (hchars ▸ gap.isBlank)
    have hkept : ¬ OpensComment false r.pattern.toList :=
      fun hopens => hr.pattern_notComment hopens.2
    -- whatever spans the pattern leaves open, the service does not begin a comment
    have hshown : ¬ OpensComment (quotedAfter false r.pattern.toList) r.service.toList :=
      fun hopens => hr.service_notComment hopens.2
    rw [chars, hchars]
    exact columns_stripComment_pair hr.isWord_pattern hr.isWord_service hkept hshown hblank
      indent.isBlank hrest ending.isBlank
  | blank margin =>
    have hkeeps : stripComment margin.chars = margin.chars :=
      stripCommentFrom_of_blank false true margin.isBlank
    rw [chars, hkeeps, columns_eq_nil_iff.mpr margin.isBlank]
    rfl
  | comment indent text htext => exact columns_stripComment_comment indent.isBlank text

end Row

/-! ## Reading one row -/

theorem readLine_of_words {row : Row} {raw : List Char}
    (h : columns (stripComment raw) = row.words) (source : String) (number : Nat) :
    readLine source number raw = row.rule?.map fun r => .ok (r.atLine number) := by
  rw [Row.words] at h
  cases hrule : row.rule? with
  | none =>
    rw [hrule] at h
    exact readLine_of_no_columns h source number
  | some r =>
    rw [hrule] at h
    rw [readLine_of_pair h, String.ofList_toList, String.ofList_toList, r.ofPattern_self]
    rfl

theorem readLine_row (source : String) (number : Nat) (row : Row) :
    readLine source number row.chars = row.rule?.map fun r => .ok (r.atLine number) :=
  readLine_of_words row.columns_chars source number

theorem readLine_dropReturn_row (source : String) (number : Nat) (row : Row) :
    readLine source number (dropReturn row.chars) =
      row.rule?.map fun r => .ok (r.atLine number) :=
  readLine_of_words ((columns_stripComment_dropReturn _).trans row.columns_chars) source number

/-! ## Reading all rows -/

/-- The text of a file. It ends in a line feed if its last row is blank and without margin. -/
def write (rows : List Row) : String :=
  joinLines (rows.map fun row => String.ofList row.chars)

def rulesFrom (number : Nat) (rows : List Row) : List Rule :=
  (rows.zipIdx number).filterMap fun line => line.1.rule?.map (·.atLine line.2)

theorem rulesFrom_cons (number : Nat) (row : Row) (rows : List Row) :
    rulesFrom number (row :: rows) =
      (row.rule?.map (·.atLine number)).toList ++ rulesFrom (number + 1) rows := by
  rw [rulesFrom, List.zipIdx_cons, List.filterMap_cons, ← rulesFrom]
  cases row.rule? <;> rfl

theorem lines_write (rows : List Row) :
    lines (write rows).toList = endLines (rows.map Row.chars) := by
  by_cases hrows : rows = []
  · subst hrows
    rfl
  · have hlines : ∀ l ∈ rows.map fun row => String.ofList row.chars, '\n' ∉ l.toList := by
      intro l hl
      obtain ⟨row, -, rfl⟩ := List.mem_map.mp hl
      rw [String.toList_ofList]
      exact row.newline_not_mem_chars
    have hchars : String.toList ∘ (fun row : Row => String.ofList row.chars) = Row.chars :=
      funext fun _ => String.toList_ofList
    rw [lines, write, splitAll_joinLines (by simpa using hrows) hlines, List.map_map, hchars]

theorem readFrom_cons_row {source : String} {number : Nat} {row : Row} {raw : List Char}
    {raws : List (List Char)} {rows : List Row}
    (hraw : readLine source number raw = row.rule?.map fun r => .ok (r.atLine number))
    (hraws : readFrom source (number + 1) raws = (rulesFrom (number + 1) rows).map .ok) :
    readFrom source number (raw :: raws) = (rulesFrom number (row :: rows)).map .ok := by
  rw [readFrom, hraw, hraws, rulesFrom_cons, List.map_append]
  cases row.rule? <;> rfl

theorem readFrom_rows (source : String) (number : Nat) (rows : List Row) :
    readFrom source number (endLines (rows.map Row.chars)) =
      (rulesFrom number rows).map .ok := by
  induction rows generalizing number with
  | nil => rfl
  | cons row rows ih =>
    cases rows with
    | nil =>
      rw [List.map_singleton, endLines]
      split
      · next hempty =>
        have hrow := readLine_row source number row
        rw [List.isEmpty_iff.mp hempty] at hrow
        cases hrule : row.rule? with
        | none =>
          rw [rulesFrom_cons, hrule]
          rfl
        | some r =>
          rw [hrule] at hrow
          cases hrow
      · exact readFrom_cons_row (readLine_row source number row) rfl
    | cons next rows =>
      exact readFrom_cons_row (readLine_dropReturn_row source number row) (ih (number + 1))

/-- Reading what was written gives the rules of the rows, in order and with their numbers. -/
theorem parse_write (source : String) (rows : List Row) :
    parse source (write rows) = .ok (rulesFrom 1 rows) := by
  rw [parse, readLines, lines_write, readFrom_rows, firstError_map_ok]

theorem parse_write_open_quote :
    ∃ rows : List Row, write rows = "# a\n\n it's/#/** \t docs#1\r\n" ∧
      ∃ r : Rule, parse defaultSource (write rows) = .ok [r] ∧
        r.pattern = "it's/#/**" ∧ r.service = "docs#1" ∧ r.line = some 3 := by
  have hrule : (Rule.ofPattern "it's/#/**" "docs#1" none).toOption.any (fun r =>
      r.pattern = "it's/#/**" && r.service = "docs#1") = true := by
    decide +kernel
  obtain ⟨r, -, htexts⟩ := exists_ok_of_any hrule
  obtain ⟨hpattern, hservice⟩ : r.pattern = "it's/#/**" ∧ r.service = "docs#1" := by
    simpa using htexts
  have hwritable : r.IsWritable := {
    isWord_pattern := hpattern ▸ by decide
    isWord_service := hservice ▸ by decide
    pattern_notComment := hpattern ▸ by decide
    service_notComment := hservice ▸ by decide }
  refine ⟨[.comment (.ofBlanks []) [' ', 'a'] (by decide), .blank (.ofBlanks []),
    .rule r hwritable (.ofBlanks [' ']) (.ofBlanks [' ', '\t', ' ']) (.ofBlanks ['\r'])
      (by decide),
    .blank (.ofBlanks [])], ?_, r.atLine 3, parse_write defaultSource _, hpattern, hservice, rfl⟩
  simp only [write, List.map_cons, List.map_nil, Row.chars, hpattern, hservice]
  decide +kernel

end Rules

end Ownership
