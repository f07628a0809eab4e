import Mathlib.Data.List.Forall2
import Ownership.Proofs.Index.LastMatch
import Ownership.Proofs.Lint.Findings

set_option autoImplicit false

/-!
# Options of a lint run

A check that is turned on only adds findings, and a strict run has the findings of the one that is
not strict, with errors for warnings. So no option hides anything, and none saves a run that fails.
-/
namespace Ownership

structure LintOptions.Within (fewer more : LintOptions) : Prop where
  strict : fewer.strict = true → more.strict = true
  checkMatches : fewer.checkMatches = true → more.checkMatches = true
  checkOverlaps : fewer.checkOverlaps = true → more.checkOverlaps = true

def LintInput.under (input : LintInput) (options : LintOptions) : LintInput :=
  { input with options }

namespace Finding

/-- The second finding says what the first one says; a strict run may only have made an error of a
warning. -/
structure SameButJudged (strict : Bool) (f g : Finding) : Prop where
  kind : g.kind = f.kind
  rule : g.rule = f.rule
  line : g.line = f.line
  message : g.message = f.message
  hint : g.hint = f.hint
  severity : g.severity = if strict = true ∧ f.severity = .warning then .error else f.severity

def judge (strict : Bool) (f : Finding) : Finding :=
  if strict then f.promote else f

theorem promote_severity (f : Finding) :
    f.promote.severity = if f.severity = .warning then .error else f.severity := by
  unfold promote
  split <;> rfl

theorem promote_promote (f : Finding) : f.promote.promote = f.promote := by
  apply promote_of_severity
  rw [promote_severity]
  split
  · exact nofun
  · assumption

theorem sameButJudged_judge (strict : Bool) (f : Finding) :
    f.SameButJudged strict (f.judge strict) := by
  cases strict with
  | false => exact ⟨rfl, rfl, rfl, rfl, rfl, rfl⟩
  | true =>
    change f.SameButJudged true f.promote
    by_cases hwarning : f.severity = .warning
    · rw [promote, if_pos hwarning]
      exact ⟨rfl, rfl, rfl, rfl, rfl, (if_pos ⟨rfl, hwarning⟩).symm⟩
    · rw [promote_of_severity hwarning]
      exact ⟨rfl, rfl, rfl, rfl, rfl, (if_neg fun h => hwarning h.2).symm⟩

/-- What a run has judged, one that is at least as strict judges as if it came fresh. -/
theorem judge_judge {strict stricter : Bool} (h : strict = true → stricter = true) (f : Finding) :
    (f.judge strict).judge stricter = f.judge stricter := by
  cases strict with
  | false => rfl
  | true =>
    rw [h rfl]
    exact promote_promote f

end Finding

namespace Lint

theorem sublist_ite_nil {α : Type} {b b' : Bool} (h : b = true → b' = true) (xs : List α) :
    (if b then xs else []).Sublist (if b' then xs else []) := by
  cases b with
  | false => exact List.nil_sublist _
  | true => rw [h rfl]

/-- The checks do not depend on each other, so one more of them leaves the findings of the others
where they are. -/
theorem findings_sublist {fewer more : LintOptions} (h : fewer.Within more) (input : LintInput)
    (ix : Index) :
    (findings (input.under fewer) ix).Sublist (findings (input.under more) ix) := by
  have halways := List.Sublist.refl (checkSyntax input.rejected ++ checkServices ix.rules.zipIdx ++
    checkDuplicates ix.rules ++ checkCatalog input.catalog ix.rules.zipIdx)
  have hmatches := sublist_ite_nil h.checkMatches (checkMatches input.files ix.rules.zipIdx)
  have hoverlaps := sublist_ite_nil h.checkOverlaps
    (checkShadowing ix.rules.zipIdx ++ checkOverlappingFiles ix input.files)
  exact (halways.append hmatches).append hoverlaps

end Lint

theorem LintReport.hasErrors_iff (r : LintReport) :
    r.hasErrors = true ↔ ∃ f ∈ r.findings, f.severity = .error := by
  rw [hasErrors, List.any_eq_true]
  simp only [beq_iff_eq]

theorem LintReport.isFailure_iff (r : LintReport) :
    r.isFailure = true ↔
      (∃ f ∈ r.findings, f.severity = .error) ∨ (r.strict = true ∧ r.findings ≠ []) := by
  rw [isFailure, Bool.or_eq_true, hasErrors_iff, Bool.and_eq_true, Bool.not_eq_true',
    List.isEmpty_eq_false_iff]

theorem LintReport.isFailure_iff_of_strict {r : LintReport} (h : r.strict = true) :
    r.isFailure = true ↔ r.findings ≠ [] := by
  rw [isFailure_iff]
  constructor
  · rintro (⟨f, hf, -⟩ | ⟨-, hsome⟩)
    · exact List.ne_nil_of_mem hf
    · exact hsome
  · intro hsome
    exact .inr ⟨h, hsome⟩

namespace Index

variable (ix : Index) (input : LintInput)

theorem findings_lint :
    (ix.lint input).findings = (Lint.findings input ix).map (·.judge input.options.strict) := by
  change (if input.options.strict then _ else _) = _
  cases input.options.strict with
  | false => exact (List.map_id _).symm
  | true => rfl

theorem filter_kind_lint (kind : FindingKind) :
    (ix.lint input).findings.filter (·.kind == kind) =
      ((Lint.checkFor kind input ix).filter (·.kind == kind)).map
        (·.judge input.options.strict) := by
  have hkind : (fun f : Finding => f.kind == kind) ∘ Finding.judge input.options.strict =
      fun f => f.kind == kind := by
    funext f
    exact congrArg (· == kind) (f.sameButJudged_judge _).kind
  rw [findings_lint, List.filter_map, hkind, Lint.filter_findings]

section Within

variable {fewer more : LintOptions} (h : fewer.Within more)
include h

theorem lint_sublist_judged :
    ((ix.lint (input.under fewer)).findings.map (·.judge more.strict)).Sublist
      (ix.lint (input.under more)).findings := by
  rw [findings_lint, findings_lint, List.map_map]
  have hjudge : (Finding.judge more.strict ∘ Finding.judge fewer.strict) =
      Finding.judge more.strict := funext (Finding.judge_judge h.strict)
  change ((Lint.findings (input.under fewer) ix).map
    (Finding.judge more.strict ∘ Finding.judge fewer.strict)).Sublist _
  rw [hjudge]
  exact (Lint.findings_sublist h input ix).map _

theorem lint_sublist_of_strict_eq (hstrict : fewer.strict = more.strict) :
    (ix.lint (input.under fewer)).findings.Sublist (ix.lint (input.under more)).findings := by
  rw [findings_lint, findings_lint]
  change ((Lint.findings (input.under fewer) ix).map (Finding.judge fewer.strict)).Sublist _
  rw [hstrict]
  exact (Lint.findings_sublist h input ix).map _

theorem isFailure_of_within (hfails : (ix.lint (input.under fewer)).isFailure = true) :
    (ix.lint (input.under more)).isFailure = true := by
  have hkept := lint_sublist_judged ix input h
  rw [LintReport.isFailure_iff] at hfails ⊢
  rcases hfails with ⟨f, hf, herror⟩ | ⟨hstrict, hsome⟩
  · left
    refine ⟨f.judge more.strict, hkept.subset (List.mem_map_of_mem hf), ?_⟩
    rw [(Finding.sameButJudged_judge more.strict f).severity, herror]
    exact if_neg fun hwarning => nomatch hwarning.2
  · right
    refine ⟨h.strict hstrict, ?_⟩
    intro hnone
    rw [hnone, List.sublist_nil, List.map_eq_nil_iff] at hkept
    exact hsome hkept

end Within

/-- Strictness changes labels only, and fails on anything; no option that is turned on takes a
finding away or lets a failing run pass. -/
theorem lint_options_monotone :
    (∀ options : LintOptions,
      List.Forall₂ (Finding.SameButJudged true)
        (ix.lint (input.under { options with strict := false })).findings
        (ix.lint (input.under { options with strict := true })).findings ∧
      ((ix.lint (input.under { options with strict := true })).isFailure = true ↔
        (ix.lint (input.under { options with strict := true })).findings ≠ [])) ∧
    ∀ fewer more : LintOptions, fewer.Within more →
      (fewer.strict = more.strict →
        (ix.lint (input.under fewer)).findings.Sublist (ix.lint (input.under more)).findings) ∧
      List.SublistForall₂ (Finding.SameButJudged more.strict)
        (ix.lint (input.under fewer)).findings (ix.lint (input.under more)).findings ∧
      ((ix.lint (input.under fewer)).isFailure = true →
        (ix.lint (input.under more)).isFailure = true) := by
  constructor
  · intro options
    refine ⟨?_, LintReport.isFailure_iff_of_strict rfl⟩
    rw [findings_lint, findings_lint, List.forall₂_map_left_iff, List.forall₂_map_right_iff]
    exact List.forall₂_same.mpr fun f _ => Finding.sameButJudged_judge true f
  · intro fewer more h
    refine ⟨lint_sublist_of_strict_eq ix input h, ?_, isFailure_of_within ix input h⟩
    refine List.sublistForall₂_iff.mpr ⟨_, ?_, lint_sublist_judged ix input h⟩
    rw [List.forall₂_map_right_iff]
    exact List.forall₂_same.mpr fun f _ => Finding.sameButJudged_judge more.strict f

theorem lint_options_monotone_docs :
    ∃ (ix : Index) (input : LintInput) (fewer more : LintOptions),
      Rules.parse ix.source "docs/*.md web\ndocs/ prose\n" = .ok ix.rules ∧
      fewer.Within more ∧ fewer.strict = more.strict ∧
      (ix.lint (input.under fewer)).findings.map Finding.kind = [.missingFileListing] ∧
      (ix.lint (input.under fewer)).isFailure = true ∧
      (ix.lint (input.under more)).findings.map Finding.kind =
        [.missingFileListing, .shadowedRule] ∧
      (ix.lint (input.under fewer)).findings.Sublist (ix.lint (input.under more)).findings ∧
      (ix.lint (input.under more)).isFailure = true := by
  have hwithin : LintOptions.Within { checkMatches := true }
      { checkMatches := true, checkOverlaps := true } := ⟨id, id, fun _ => rfl⟩
  obtain ⟨ix, hparse, hreports⟩ := exists_parsed "docs/*.md web\ndocs/ prose\n"
    (fun ix =>
      (ix.lint { options := { checkMatches := true } }).findings.map Finding.kind =
          [.missingFileListing] ∧
        (ix.lint { options := { checkMatches := true } }).isFailure = true ∧
        (ix.lint { options := { checkMatches := true, checkOverlaps := true } }).findings.map
          Finding.kind = [.missingFileListing, .shadowedRule])
    (by decide +kernel)
  obtain ⟨hfewer, hfails, hmore⟩ := of_decide_eq_true hreports
  obtain ⟨hsublist, -, hkept⟩ := (lint_options_monotone ix { options := {} }).2 _ _ hwithin
  exact ⟨ix, { options := {} }, _, _, hparse, hwithin, rfl, hfewer, hfails, hmore, hsublist rfl,
    hkept hfails⟩

end Index

end Ownership
