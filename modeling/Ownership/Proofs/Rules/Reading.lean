import Ownership.Proofs.Rules.Line

set_option autoImplicit false

/-!
# Strict and lenient reading

Both readings go over the same verdicts, one for each line that has content. The strict one gives
the rules of the lenient one, or the first of its errors; and no line with content is lost between
the rules and the errors.
-/
namespace Ownership.Rules

/-- Whether anything but blanks is left of a line without its comment. -/
def HasContent (raw : List Char) : Prop :=
  Text.trim (stripComment raw) ≠ []

instance (raw : List Char) : Decidable (HasContent raw) :=
  inferInstanceAs (Decidable (_ ≠ _))

def lineOf : Except LineError Rule → Option Nat
  | .ok rule => rule.line
  | .error e => some e.line

/-! ## One line -/

theorem readLine_eq_none_iff {source : String} {number : Nat} {raw : List Char} :
    readLine source number raw = none ↔ ¬ HasContent raw := by
  rw [HasContent, not_not, Text.trim_eq_nil_iff, ← Text.columns_eq_nil_iff]
  unfold readLine
  split
  · next hnone => exact iff_of_true rfl hnone
  · next hpair => exact iff_of_false (Option.some_ne_none _) (hpair ▸ List.cons_ne_nil _ _)
  · next hnone _ => exact iff_of_false (Option.some_ne_none _) hnone

theorem lineOf_readLine {source : String} {number : Nat} {raw : List Char}
    {verdict : Except LineError Rule} (h : readLine source number raw = some verdict) :
    lineOf verdict = some number := by
  unfold readLine at h
  split at h
  · cases h
  · next pattern service _ =>
    obtain rfl := Option.some.inj h
    cases hrule : Rule.ofPattern (String.ofList pattern) (String.ofList service) (some number) with
    | ok rule => exact Rule.line_ofPattern hrule
    | error e => rfl
  · obtain rfl := Option.some.inj h
    rfl

/-! ## All lines -/

theorem readFrom_eq (source : String) (number : Nat) (raws : List (List Char)) :
    readFrom source number raws =
      (raws.zipIdx number).filterMap fun line => readLine source line.2 line.1 := by
  induction raws generalizing number with
  | nil => rfl
  | cons raw raws ih =>
    rw [readFrom, ih, List.zipIdx_cons, List.filterMap_cons]
    cases readLine source number raw <;> rfl

theorem mem_readLines_iff {source text : String} {verdict : Except LineError Rule} :
    verdict ∈ readLines source text ↔ ∃ i raw, (Text.lines text.toList)[i]? = some raw ∧
      readLine source (i + 1) raw = some verdict := by
  rw [readLines, readFrom_eq, List.mem_filterMap]
  constructor
  · rintro ⟨⟨raw, number⟩, hline, hread⟩
    obtain ⟨hle, hraw⟩ := List.mem_zipIdx_iff_le_and_getElem?_sub.mp hline
    refine ⟨number - 1, raw, hraw, ?_⟩
    rw [Nat.sub_add_cancel hle]
    exact hread
  · rintro ⟨i, raw, hraw, hread⟩
    refine ⟨(raw, i + 1), ?_, hread⟩
    exact List.mem_zipIdx_iff_le_and_getElem?_sub.mpr ⟨Nat.le_add_left 1 i, hraw⟩

theorem pairwise_readLines (source text : String) :
    (readLines source text).Pairwise fun earlier later =>
      ∀ m n, lineOf earlier = some m → lineOf later = some n → m < n := by
  have hnumbers : ((Text.lines text.toList).zipIdx 1).Pairwise fun a b => a.2 < b.2 := by
    refine List.pairwise_map.mp ?_
    rw [List.zipIdx_map_snd]
    exact List.pairwise_lt_range'
  rw [readLines, readFrom_eq]
  refine hnumbers.filterMap _ ?_
  intro a b hlt earlier hearlier later hlater m n hm hn
  obtain rfl := Option.some.inj ((lineOf_readLine hearlier).symm.trans hm)
  obtain rfl := Option.some.inj ((lineOf_readLine hlater).symm.trans hn)
  exact hlt

theorem exists_line_of_mem_readLines {source text : String} {verdict : Except LineError Rule}
    (h : verdict ∈ readLines source text) : ∃ number, lineOf verdict = some number := by
  obtain ⟨i, raw, -, hread⟩ := mem_readLines_iff.mp h
  exact ⟨i + 1, lineOf_readLine hread⟩

theorem eq_of_lineOf_eq {source text : String} {a b : Except LineError Rule}
    (ha : a ∈ readLines source text) (hb : b ∈ readLines source text)
    (hline : lineOf a = lineOf b) : a = b := by
  obtain ⟨i, raw, hraw, hreada⟩ := mem_readLines_iff.mp ha
  obtain ⟨j, raw', hraw', hreadb⟩ := mem_readLines_iff.mp hb
  rw [lineOf_readLine hreada, lineOf_readLine hreadb, Option.some.injEq, Nat.add_right_cancel_iff]
    at hline
  subst hline
  obtain rfl := Option.some.inj (hraw.symm.trans hraw')
  exact Option.some.inj (hreada.symm.trans hreadb)

/-! ## Both readings -/

theorem mem_rules_iff {source text : String} {rule : Rule} :
    rule ∈ (parseLenient source text).1 ↔ .ok rule ∈ readLines source text := by
  rw [parseLenient, List.mem_filterMap]
  constructor
  · rintro ⟨verdict, hmem, h⟩
    cases verdict with
    | ok r => exact Option.some.inj h ▸ hmem
    | error e => cases h
  · intro hmem
    exact ⟨.ok rule, hmem, rfl⟩

theorem mem_errors_iff {source text : String} {e : LineError} :
    e ∈ (parseLenient source text).2 ↔ .error e ∈ readLines source text := by
  rw [parseLenient, List.mem_filterMap]
  constructor
  · rintro ⟨verdict, hmem, h⟩
    cases verdict with
    | ok r => cases h
    | error e' => exact Option.some.inj h ▸ hmem
  · intro hmem
    exact ⟨.error e, hmem, rfl⟩

theorem parse_eq (source text : String) :
    parse source text = match (parseLenient source text).2 with
      | [] => .ok (parseLenient source text).1
      | e :: _ => .error e := by
  unfold parse parseLenient
  induction readLines source text with
  | nil => rfl
  | cons verdict verdicts ih =>
    cases verdict with
    | error e => rfl
    | ok rule =>
      rw [firstError, ih]
      simp only [List.filterMap_cons]
      split <;> rfl

theorem parse_eq_ok_iff {source text : String} {rules : List Rule} :
    parse source text = .ok rules ↔
      (parseLenient source text).1 = rules ∧ (parseLenient source text).2 = [] := by
  rw [parse_eq]
  cases (parseLenient source text).2 with
  | nil => simp
  | cons e errors => simp

/-- What the lenient reading has to say about every line of a text. -/
structure AccountsFor (text : String) (rules : List Rule) (errors : List LineError) : Prop where
  numbered : ∀ rule ∈ rules, ∃ number, rule.line = some number
  rules_increase : (rules.filterMap Rule.line).Pairwise (· < ·)
  errors_increase : (errors.map LineError.line).Pairwise (· < ·)
  disjoint : ∀ number ∈ rules.filterMap Rule.line, number ∉ errors.map LineError.line
  complete : ∀ number, number ∈ rules.filterMap Rule.line ∨ number ∈ errors.map LineError.line ↔
    ∃ i raw, number = i + 1 ∧ (Text.lines text.toList)[i]? = some raw ∧ HasContent raw

section Accounts

variable {source text : String}

theorem mem_ruleLines_iff {number : Nat} :
    number ∈ (parseLenient source text).1.filterMap Rule.line ↔
      ∃ rule, .ok rule ∈ readLines source text ∧ rule.line = some number := by
  simp only [List.mem_filterMap, mem_rules_iff]

theorem mem_errorLines_iff {number : Nat} :
    number ∈ (parseLenient source text).2.map LineError.line ↔
      ∃ e, .error e ∈ readLines source text ∧ e.line = number := by
  simp only [List.mem_map, mem_errors_iff]

theorem pairwise_ruleLines :
    ((parseLenient source text).1.filterMap Rule.line).Pairwise (· < ·) := by
  have hrules : (parseLenient source text).1.Pairwise fun earlier later =>
      ∀ m n, earlier.line = some m → later.line = some n → m < n := by
    refine (pairwise_readLines source text).filterMap _ ?_
    intro a b hlt earlier hearlier later hlater
    cases a with
    | error e => cases hearlier
    | ok r =>
      cases b with
      | error e => cases hlater
      | ok s =>
        obtain rfl := Option.some.inj hearlier
        obtain rfl := Option.some.inj hlater
        exact hlt
  refine hrules.filterMap _ ?_
  intro a b hlt m hm n hn
  exact hlt m n hm hn

theorem pairwise_errorLines :
    ((parseLenient source text).2.map LineError.line).Pairwise (· < ·) := by
  refine List.pairwise_map.mpr ((pairwise_readLines source text).filterMap _ ?_)
  intro a b hlt earlier hearlier later hlater
  cases a with
  | ok r => cases hearlier
  | error e =>
    cases b with
    | ok r => cases hlater
    | error e' =>
      obtain rfl := Option.some.inj hearlier
      obtain rfl := Option.some.inj hlater
      exact hlt e.line e'.line rfl rfl

theorem not_mem_errorLines {number : Nat}
    (h : number ∈ (parseLenient source text).1.filterMap Rule.line) :
    number ∉ (parseLenient source text).2.map LineError.line := by
  intro herror
  obtain ⟨rule, hrule, hline⟩ := mem_ruleLines_iff.mp h
  obtain ⟨e, he, hline'⟩ := mem_errorLines_iff.mp herror
  have hsame : lineOf (.ok rule) = lineOf (.error e) :=
    hline.trans (congrArg some hline'.symm)
  cases eq_of_lineOf_eq hrule he hsame

theorem mem_lines_iff_hasContent {number : Nat} :
    number ∈ (parseLenient source text).1.filterMap Rule.line ∨
        number ∈ (parseLenient source text).2.map LineError.line ↔
      ∃ i raw, number = i + 1 ∧ (Text.lines text.toList)[i]? = some raw ∧ HasContent raw := by
  have hverdict : (number ∈ (parseLenient source text).1.filterMap Rule.line ∨
        number ∈ (parseLenient source text).2.map LineError.line) ↔
      ∃ verdict ∈ readLines source text, lineOf verdict = some number := by
    rw [mem_ruleLines_iff, mem_errorLines_iff]
    constructor
    · rintro (⟨rule, hmem, hline⟩ | ⟨e, hmem, rfl⟩)
      · exact ⟨.ok rule, hmem, hline⟩
      · exact ⟨.error e, hmem, rfl⟩
    · rintro ⟨verdict, hmem, hline⟩
      cases verdict with
      | ok rule => exact .inl ⟨rule, hmem, hline⟩
      | error e => exact .inr ⟨e, hmem, Option.some.inj hline⟩
  rw [hverdict]
  constructor
  · rintro ⟨verdict, hmem, hline⟩
    obtain ⟨i, raw, hraw, hread⟩ := mem_readLines_iff.mp hmem
    have hnumber : i + 1 = number := Option.some.inj ((lineOf_readLine hread).symm.trans hline)
    refine ⟨i, raw, hnumber.symm, hraw, ?_⟩
    by_contra hnone
    rw [readLine_eq_none_iff.mpr hnone] at hread
    cases hread
  · rintro ⟨i, raw, rfl, hraw, hcontent⟩
    cases hread : readLine source (i + 1) raw with
    | none => exact absurd hcontent (readLine_eq_none_iff.mp hread)
    | some verdict =>
      exact ⟨verdict, mem_readLines_iff.mpr ⟨i, raw, hraw, hread⟩, lineOf_readLine hread⟩

end Accounts

/-- The strict reading gives what the lenient one gives or its first error, and the lenient one has
a rule or an error, never both, for each line with content and for no other. -/
theorem parse_agrees_and_accountsFor (source text : String) :
    (parse source text = match (parseLenient source text).2 with
      | [] => .ok (parseLenient source text).1
      | e :: _ => .error e) ∧
      AccountsFor text (parseLenient source text).1 (parseLenient source text).2 := by
  refine ⟨parse_eq source text, ?_⟩
  exact {
    numbered := fun rule hrule => exists_line_of_mem_readLines (mem_rules_iff.mp hrule)
    rules_increase := pairwise_ruleLines
    errors_increase := pairwise_errorLines
    disjoint := fun number => not_mem_errorLines
    complete := fun number => mem_lines_iff_hasContent }

/-- A comment, a rule, a line that keeps one column before its comment, a rule. -/
example :
    (parseLenient defaultSource "# a\r\nx y\n\n z # b\n'#' w").1.filterMap Rule.line = [2, 5] ∧
    (parseLenient defaultSource "# a\r\nx y\n\n z # b\n'#' w").2.map LineError.line = [4] := by
  decide +kernel

end Ownership.Rules
