import Mathlib.Data.List.Nodup
import Mathlib.Data.List.Sigma
import Ownership.Proofs.Lint.Options
import Ownership.Proofs.Lint.Shadowing
import Ownership.Proofs.Pattern.Order

set_option autoImplicit false

/-!
# Repeated patterns

A pattern text that comes again is reported from both sides: each further rule with it is noted
once, with the position of the first rule that has it, and each rule but the last is shadowed, since
a pattern covers itself.
-/
namespace Ownership

structure IsFirstUse (rules : List Rule) (pattern : String) (first : Nat) (earlier : Rule) :
    Prop where
  at_first : rules[first]? = some earlier
  same : earlier.pattern = pattern
  least : ∀ j other, rules[j]? = some other → other.pattern = pattern → first ≤ j

def LintReport.repetitions (r : LintReport) (i : Nat) : List Finding :=
  r.findings.filter fun f => f.kind == .duplicatePattern && f.rule == some i

theorem Rule.compiled_eq {r s : Rule} (h : r.pattern = s.pattern) : r.compiled = s.compiled :=
  Except.ok.inj (r.isCompiled.symm.trans ((congrArg Pattern.compile h).trans s.isCompiled))

namespace Lint

variable {rules : List Rule} {rule earlier : Rule} {i first : Nat}

/-! ## The first use -/

theorem firstUse?_eq_some_iff {pattern : String} :
    firstUse? rules pattern = some (earlier, first) ↔ IsFirstUse rules pattern first earlier := by
  rw [firstUse?, List.find?_eq_some_iff_getElem]
  simp only [beq_iff_eq, List.getElem_zipIdx, Nat.zero_add, List.length_zipIdx, Prod.mk.injEq]
  constructor
  · rintro ⟨hsame, k, hk, ⟨rfl, rfl⟩, hbefore⟩
    refine ⟨List.getElem?_eq_getElem hk, hsame, ?_⟩
    intro j other hj hother
    by_contra hlt
    obtain ⟨hlength, rfl⟩ := List.getElem?_eq_some_iff.mp hj
    simpa [hother] using hbefore j (Nat.lt_of_not_le hlt)
  · intro h
    obtain ⟨hk, hearlier⟩ := List.getElem?_eq_some_iff.mp h.at_first
    refine ⟨h.same, first, hk, ⟨hearlier, rfl⟩, ?_⟩
    intro j hj
    have hdiffers : rules[j].pattern ≠ pattern := fun hsame =>
      Nat.not_le_of_lt hj (h.least j rules[j] (List.getElem?_eq_getElem _) hsame)
    simpa using hdiffers

theorem exists_firstUse (hi : rules[i]? = some rule) :
    ∃ first earlier, IsFirstUse rules rule.pattern first earlier ∧ first ≤ i := by
  have hsome : (firstUse? rules rule.pattern).isSome := by
    rw [firstUse?, List.find?_isSome]
    exact ⟨(rule, i), List.mk_mem_zipIdx_iff_getElem?.mpr hi, beq_self_eq_true _⟩
  obtain ⟨⟨earlier, first⟩, hfound⟩ := Option.isSome_iff_exists.mp hsome
  have hfirst := firstUse?_eq_some_iff.mp hfound
  exact ⟨first, earlier, hfirst, hfirst.least i rule hi rfl⟩

/-! ## The notes -/

theorem filter_position_zipIdx (hi : rules[i]? = some rule) :
    rules.zipIdx.filter (·.2 == i) = [(rule, i)] := by
  have hmem : (rule, i) ∈ rules.zipIdx := List.mk_mem_zipIdx_iff_getElem?.mpr hi
  have hsame : ∀ x ∈ rules.zipIdx, (x.2 == i) = (x == (rule, i)) := by
    rintro ⟨other, j⟩ hother
    rw [Bool.eq_iff_iff, beq_iff_eq, beq_iff_eq, Prod.mk.injEq]
    refine ⟨?_, And.right⟩
    rintro rfl
    have hj := List.mk_mem_zipIdx_iff_getElem?.mp hother
    exact ⟨Option.some.inj (hj.symm.trans hi), rfl⟩
  have honce : rules.zipIdx.count (rule, i) = 1 :=
    List.count_eq_one_of_mem (List.Nodup.of_map _ (List.nodup_zipIdx_map_snd rules)) hmem
  rw [List.filter_congr hsame, List.filter_beq, honce]
  rfl

theorem filter_rule_filterMap {check : Rule × Nat → Option Finding}
    (hrule : ∀ x f, check x = some f → f.rule = some x.2) (hi : rules[i]? = some rule) :
    (rules.zipIdx.filterMap check).filter (·.rule == some i) = (check (rule, i)).toList := by
  have hkeep : ∀ x, (check x).filter (·.rule == some i) = if x.2 == i then check x else none := by
    intro x
    cases hx : check x with
    | none => simp
    | some f => simp [hrule x f hx, Option.filter]
  rw [List.filter_filterMap]
  simp only [hkeep]
  rw [← List.filterMap_filter, filter_position_zipIdx hi]
  cases h : check (rule, i) with
  | none => exact List.filterMap_cons_none h
  | some f => exact List.filterMap_cons_some h

def repetitionHint : String :=
  "Remove duplicates or make precedence explicit."

theorem filter_rule_checkDuplicates (hi : rules[i]? = some rule)
    (hfirst : IsFirstUse rules rule.pattern first earlier) :
    (checkDuplicates rules).filter (·.rule == some i) =
      if first < i then
        [.onRule .duplicatePattern i rule (duplicateMessage rule earlier first)
          (some repetitionHint)]
      else [] := by
  rw [checkDuplicates_eq, filter_rule_filterMap _ hi]
  · rw [duplicate?, firstUse?_eq_some_iff.mpr hfirst]
    dsimp only
    split <;> rfl
  · intro r f hf
    obtain ⟨_, _, rfl⟩ := duplicate?_eq_some hf
    rfl

end Lint

namespace Index

open Lint

variable {ix : Index} {input : LintInput} {i : Nat} {rule : Rule}

theorem repetitions_lint {first : Nat} {earlier : Rule} (hi : ix.rules[i]? = some rule)
    (hfirst : IsFirstUse ix.rules rule.pattern first earlier) :
    (ix.lint input).repetitions i =
      if first < i then
        [(Finding.onRule .duplicatePattern i rule (duplicateMessage rule earlier first)
          (some repetitionHint)).judge input.options.strict]
      else [] := by
  have hall : (checkDuplicates ix.rules).filter (·.kind == .duplicatePattern) =
      checkDuplicates ix.rules :=
    List.filter_eq_self.mpr fun f hf => beq_iff_eq.mpr (kind_of_mem_checkDuplicates hf)
  have hrule : (fun f : Finding => f.rule == some i) ∘ Finding.judge input.options.strict =
      fun f => f.rule == some i := by
    funext f
    exact congrArg (· == some i) (f.sameButJudged_judge _).rule
  have hnotes : (ix.lint input).repetitions i =
      ((ix.lint input).findings.filter (·.kind == .duplicatePattern)).filter
        (·.rule == some i) := by
    rw [List.filter_filter, LintReport.repetitions]
    simp only [Bool.and_comm]
  rw [hnotes, filter_kind_lint, Lint.checkFor, hall, List.filter_map, hrule,
    filter_rule_checkDuplicates hi hfirst]
  split <;> rfl

theorem isShadowed_of_later (hcheck : input.options.checkOverlaps = true)
    (hi : ix.rules[i]? = some rule) {j : Nat} {later : Rule} (hlt : i < j)
    (hj : ix.rules[j]? = some later) (hsame : later.pattern = rule.pattern) :
    ix.IsShadowed input i := by
  have hcovers : later.compiled.covers rule.compiled = true := by
    rw [Rule.compiled_eq hsame]
    exact Pattern.covers_refl rule.compiled
  obtain ⟨cover, k, hshadow⟩ :=
    exists_shadowFinding_of_covers (i := i) (mem_later_iff.mpr ⟨hlt, hj⟩) hcovers
  obtain ⟨f, hf, hkind, hrule⟩ :=
    exists_mem_lint_of_mem_findings (mem_findings_of_mem_compareWithLater hcheck hi hshadow)
  exact ⟨f, hf, hkind, hrule⟩

/-- A rule is noted as a repetition exactly when an earlier rule has its pattern text, and then once
and with the position of the first such rule; when a later rule has it, the rule is shadowed. -/
theorem repeated_patterns_reported (hcheck : input.options.checkOverlaps = true) :
    ∀ i rule, ix.rules[i]? = some rule →
      ((∃ f first earlier, (ix.lint input).repetitions i = [f] ∧
          IsFirstUse ix.rules rule.pattern first earlier ∧
          f.message = duplicateMessage rule earlier first) ↔
        ∃ j earlier, j < i ∧ ix.rules[j]? = some earlier ∧ earlier.pattern = rule.pattern) ∧
      ((ix.lint input).repetitions i = [] ↔
        ¬ ∃ j earlier, j < i ∧ ix.rules[j]? = some earlier ∧ earlier.pattern = rule.pattern) ∧
      ((∃ j later, i < j ∧ ix.rules[j]? = some later ∧ later.pattern = rule.pattern) →
        ix.IsShadowed input i) := by
  intro i rule hi
  obtain ⟨first, earlier, hfirst, hle⟩ := exists_firstUse hi
  have hnotes : (ix.lint input).repetitions i = _ := repetitions_lint hi hfirst
  have hearlier : first < i ↔
      ∃ j earlier, j < i ∧ ix.rules[j]? = some earlier ∧ earlier.pattern = rule.pattern := by
    constructor
    · intro hlt
      exact ⟨first, earlier, hlt, hfirst.at_first, hfirst.same⟩
    · rintro ⟨j, other, hlt, hj, hsame⟩
      exact Nat.lt_of_le_of_lt (hfirst.least j other hj hsame) hlt
  rw [← hearlier, hnotes]
  refine ⟨?_, ?_, ?_⟩
  · constructor
    · rintro ⟨f, -, -, hf, -⟩
      by_contra hnot
      rw [if_neg hnot] at hf
      cases hf
    · intro hlt
      rw [if_pos hlt]
      exact ⟨_, first, earlier, rfl, hfirst, (Finding.sameButJudged_judge _ _).message⟩
  · constructor
    · intro hnone hlt
      rw [if_pos hlt] at hnone
      cases hnone
    · intro hnot
      exact if_neg hnot
  · rintro ⟨j, later, hlt, hj, hsame⟩
    exact isShadowed_of_later hcheck hi hlt hj hsame

theorem repeated_patterns_reported_docs :
    ∃ (ix : Index) (input : LintInput) (rule : Rule),
      Rules.parse ix.source "docs/ web\n*.md prose\ndocs/ api\n/docs/ web\ndocs/ api\n" =
        .ok ix.rules ∧
      input.options.checkOverlaps = true ∧ ix.rules[2]? = some rule ∧
      ((ix.lint input).repetitions 2).map Finding.message =
        ["Pattern 'docs/' is defined more than once (last match wins). Previous: web (rule 0), " ++
          "this: api."] ∧
      (∃ f first earlier, (ix.lint input).repetitions 2 = [f] ∧
        IsFirstUse ix.rules rule.pattern first earlier ∧
        f.message = duplicateMessage rule earlier first) ∧
      ix.IsShadowed input 2 := by
  obtain ⟨ix, hparse, hfacts⟩ := exists_parsed
    "docs/ web\n*.md prose\ndocs/ api\n/docs/ web\ndocs/ api\n"
    (fun ix => ix.rules.map Rule.pattern = ["docs/", "*.md", "docs/", "/docs/", "docs/"] ∧
      ((ix.lint { options := { checkOverlaps := true } }).repetitions 2).map Finding.message =
        ["Pattern 'docs/' is defined more than once (last match wins). Previous: web (rule 0), " ++
          "this: api."])
    (by decide +kernel)
  obtain ⟨hpatterns, hmessage⟩ := of_decide_eq_true hfacts
  have hrule (j : Nat) (pattern : String)
      (h : ["docs/", "*.md", "docs/", "/docs/", "docs/"][j]? = some pattern) :
      ∃ rule, ix.rules[j]? = some rule ∧ rule.pattern = pattern := by
    rw [← hpatterns, List.getElem?_map, Option.map_eq_some_iff] at h
    exact h
  obtain ⟨first, hfirst, hfirstPattern⟩ := hrule 0 "docs/" rfl
  obtain ⟨rule, hi, hpattern⟩ := hrule 2 "docs/" rfl
  obtain ⟨last, hlast, hlastPattern⟩ := hrule 4 "docs/" rfl
  have hcheck : LintOptions.checkOverlaps
      (LintInput.options { options := { checkOverlaps := true } }) = true := rfl
  obtain ⟨hnoted, -, hshadowed⟩ := repeated_patterns_reported hcheck 2 rule hi
  exact ⟨ix, _, rule, hparse, hcheck, hi, hmessage,
    hnoted.mpr ⟨0, first, by decide, hfirst, hfirstPattern.trans hpattern.symm⟩,
    hshadowed ⟨4, last, by decide, hlast, hlastPattern.trans hpattern.symm⟩⟩

end Index

end Ownership
