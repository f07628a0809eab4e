import Ownership.Proofs.Lint.Scans

set_option autoImplicit false

/-!
# Findings by kind

Each check makes findings of its own kinds, so a finding of a report is traced back to the check
that made it.
-/
namespace Ownership

namespace Finding

@[simp]
theorem promote_kind (f : Finding) : f.promote.kind = f.kind := by
  unfold promote
  split <;> rfl

@[simp]
theorem promote_rule (f : Finding) : f.promote.rule = f.rule := by
  unfold promote
  split <;> rfl

theorem promote_of_severity {f : Finding} (h : f.severity ≠ .warning) : f.promote = f :=
  if_neg h

end Finding

namespace Lint

variable {f : Finding}

theorem kind_of_mem_filterMap {α : Type} {kind : FindingKind} {check : α → Option Finding}
    (hkind : ∀ a g, check a = some g → g.kind = kind) {as : List α}
    (h : f ∈ as.filterMap check) : f.kind = kind := by
  obtain ⟨a, _, ha⟩ := List.mem_filterMap.mp h
  exact hkind a f ha

theorem kind_of_mem_checkSyntax {rejected : List LineError} (h : f ∈ checkSyntax rejected) :
    f.kind = .invalidPattern := by
  obtain ⟨e, _, rfl⟩ := List.mem_map.mp h
  rfl

theorem kind_of_mem_checkServices {rules : List (Rule × Nat)} (h : f ∈ checkServices rules) :
    f.kind = .emptyService := by
  refine kind_of_mem_filterMap ?_ h
  rintro ⟨rule, i⟩ g hg
  simp only [Option.ite_none_right_eq_some, Option.some.injEq] at hg
  obtain ⟨_, rfl⟩ := hg
  rfl

theorem duplicate?_eq_some {rules : List Rule} {r : Rule × Nat} (h : duplicate? rules r = some f) :
    ∃ earlier first, f = duplicateFinding r.1 r.2 earlier first := by
  unfold duplicate? at h
  split at h
  · next earlier first _ =>
    have hf := (Option.ite_none_right_eq_some.mp h).2
    exact ⟨earlier, first, (Option.some.inj hf).symm⟩
  · cases h

theorem kind_of_mem_checkDuplicates {rules : List Rule} (h : f ∈ checkDuplicates rules) :
    f.kind = .duplicatePattern := by
  rw [checkDuplicates_eq] at h
  refine kind_of_mem_filterMap ?_ h
  intro r g hg
  obtain ⟨earlier, first, rfl⟩ := duplicate?_eq_some hg
  rfl

theorem kind_of_mem_checkUnknown {catalog : Catalog} {rules : List (Rule × Nat)}
    (h : f ∈ checkUnknown catalog rules) : f.kind = .unknownService := by
  refine kind_of_mem_filterMap ?_ h
  rintro ⟨rule, i⟩ g hg
  simp only [Option.ite_none_left_eq_some, Option.some.injEq] at hg
  obtain ⟨_, rfl⟩ := hg
  rfl

theorem kind_of_mem_checkContacts {catalog : Catalog} (h : f ∈ checkContacts catalog) :
    f.kind = .serviceHasNoContact := by
  refine kind_of_mem_filterMap ?_ h
  rintro ⟨name, service⟩ g hg
  simp only [Option.ite_none_left_eq_some, Option.some.injEq] at hg
  obtain ⟨_, rfl⟩ := hg
  rfl

theorem kind_of_mem_checkCatalog {catalog : Option Catalog} {rules : List (Rule × Nat)}
    (h : f ∈ checkCatalog catalog rules) :
    f.kind = .unknownService ∨ f.kind = .serviceHasNoContact := by
  cases catalog with
  | none => exact absurd h List.not_mem_nil
  | some c =>
    rcases List.mem_append.mp h with h | h
    · exact .inl (kind_of_mem_checkUnknown h)
    · exact .inr (kind_of_mem_checkContacts h)

theorem kind_of_mem_checkUnused {files : List String} {rules : List (Rule × Nat)}
    (h : f ∈ checkUnused files rules) : f.kind = .unusedRule := by
  refine kind_of_mem_filterMap ?_ h
  rintro ⟨rule, i⟩ g hg
  simp only [Option.ite_none_left_eq_some, Option.some.injEq] at hg
  obtain ⟨_, rfl⟩ := hg
  rfl

theorem kind_of_mem_checkMatches {files : Option (List String)} {rules : List (Rule × Nat)}
    (h : f ∈ checkMatches files rules) :
    f.kind = .unusedRule ∨ f.kind = .missingFileListing := by
  cases files with
  | none =>
    obtain rfl := List.mem_singleton.mp h
    exact .inr rfl
  | some listing => exact .inl (kind_of_mem_checkUnused h)

theorem kind_of_mem_checkOverlappingFiles {ix : Index} {files : Option (List String)}
    (h : f ∈ checkOverlappingFiles ix files) : f.kind = .overlappingFiles := by
  simp only [checkOverlappingFiles] at h
  split at h
  · exact absurd h List.not_mem_nil
  · obtain rfl := List.mem_singleton.mp h
    rfl

theorem kind_of_mem_compareWithLater {rule : Rule} {i : Nat} {later : List (Rule × Nat)}
    (h : f ∈ compareWithLater rule i later) :
    f.kind = .shadowedRule ∨ f.kind = .overlappingRules := by
  unfold compareWithLater at h
  split at h
  · obtain rfl := List.mem_singleton.mp h
    exact .inl rfl
  · right
    refine kind_of_mem_filterMap ?_ h
    rintro ⟨other, j⟩ g hg
    simp only [Option.ite_none_right_eq_some, Option.some.injEq] at hg
    obtain ⟨_, rfl⟩ := hg
    rfl

theorem kind_of_mem_checkShadowing {rules : List (Rule × Nat)} (h : f ∈ checkShadowing rules) :
    f.kind = .shadowedRule ∨ f.kind = .overlappingRules := by
  induction rules with
  | nil => exact absurd h List.not_mem_nil
  | cons first later ih =>
    rcases List.mem_append.mp h with h | h
    · exact kind_of_mem_compareWithLater h
    · exact ih h

/-- The findings of the check that is responsible for a kind. -/
def checkFor (kind : FindingKind) (input : LintInput) (ix : Index) : List Finding :=
  let rules := ix.rules.zipIdx
  match kind with
  | .invalidPattern => checkSyntax input.rejected
  | .emptyService => checkServices rules
  | .duplicatePattern => checkDuplicates ix.rules
  | .unknownService | .serviceHasNoContact => checkCatalog input.catalog rules
  | .unusedRule | .missingFileListing =>
    if input.options.checkMatches then checkMatches input.files rules else []
  | .shadowedRule | .overlappingRules =>
    if input.options.checkOverlaps then checkShadowing rules else []
  | .overlappingFiles =>
    if input.options.checkOverlaps then checkOverlappingFiles ix input.files else []

theorem filter_kind_eq_nil {kind : FindingKind} {found : List Finding}
    (h : ∀ f ∈ found, f.kind ≠ kind) : found.filter (·.kind == kind) = [] := by
  rw [List.filter_eq_nil_iff]
  intro f hf
  rw [beq_iff_eq]
  exact h f hf

theorem filter_kind_ite (kind : FindingKind) (b : Bool) (found : List Finding) :
    (if b then found else []).filter (·.kind == kind) =
      if b then found.filter (·.kind == kind) else [] := by
  cases b <;> rfl

/-- The findings of one kind are those of the check for that kind, in its order. -/
theorem filter_findings (kind : FindingKind) (input : LintInput) (ix : Index) :
    (findings input ix).filter (·.kind == kind) =
      (checkFor kind input ix).filter (·.kind == kind) := by
  have hrejected (h : kind ≠ .invalidPattern) :
      (checkSyntax input.rejected).filter (·.kind == kind) = [] :=
    filter_kind_eq_nil fun f hf heq => h (heq.symm.trans (kind_of_mem_checkSyntax hf))
  have hservices (h : kind ≠ .emptyService) :
      (checkServices ix.rules.zipIdx).filter (·.kind == kind) = [] :=
    filter_kind_eq_nil fun f hf heq => h (heq.symm.trans (kind_of_mem_checkServices hf))
  have hduplicates (h : kind ≠ .duplicatePattern) :
      (checkDuplicates ix.rules).filter (·.kind == kind) = [] :=
    filter_kind_eq_nil fun f hf heq => h (heq.symm.trans (kind_of_mem_checkDuplicates hf))
  have hcatalog (h : ¬ (kind = .unknownService ∨ kind = .serviceHasNoContact)) :
      (checkCatalog input.catalog ix.rules.zipIdx).filter (·.kind == kind) = [] :=
    filter_kind_eq_nil fun f hf heq => h (heq ▸ kind_of_mem_checkCatalog hf)
  have hmatches (h : ¬ (kind = .unusedRule ∨ kind = .missingFileListing)) :
      (checkMatches input.files ix.rules.zipIdx).filter (·.kind == kind) = [] :=
    filter_kind_eq_nil fun f hf heq => h (heq ▸ kind_of_mem_checkMatches hf)
  have hshadowing (h : ¬ (kind = .shadowedRule ∨ kind = .overlappingRules)) :
      (checkShadowing ix.rules.zipIdx).filter (·.kind == kind) = [] :=
    filter_kind_eq_nil fun f hf heq => h (heq ▸ kind_of_mem_checkShadowing hf)
  have hfiles (h : kind ≠ .overlappingFiles) :
      (checkOverlappingFiles ix input.files).filter (·.kind == kind) = [] :=
    filter_kind_eq_nil fun f hf heq => h (heq.symm.trans (kind_of_mem_checkOverlappingFiles hf))
  simp only [findings, List.filter_append, filter_kind_ite]
  cases kind <;> simp [hrejected, hservices, hduplicates, hcatalog, hmatches, hshadowing, hfiles,
    checkFor, filter_kind_ite]

theorem mem_findings_iff {input : LintInput} {ix : Index} :
    f ∈ findings input ix ↔ f ∈ checkFor f.kind input ix := by
  have hmem (found : List Finding) : f ∈ found.filter (·.kind == f.kind) ↔ f ∈ found := by
    rw [List.mem_filter, beq_self_eq_true, and_iff_left rfl]
  rw [← hmem, filter_findings, hmem]

/-- Only the comparison of rules finds shadows and overlaps of rules. -/
theorem mem_findings_iff_of_comparison {input : LintInput} {ix : Index}
    (hf : f.kind = .shadowedRule ∨ f.kind = .overlappingRules) :
    f ∈ findings input ix ↔
      input.options.checkOverlaps = true ∧ f ∈ checkShadowing ix.rules.zipIdx := by
  rw [mem_findings_iff]
  rcases hf with hf | hf <;> rw [hf] <;> exact List.mem_ite_nil_right

end Lint

namespace Index

variable {ix : Index} {input : LintInput} {f : Finding}

theorem mem_lint_iff :
    f ∈ (ix.lint input).findings ↔ ∃ g ∈ Lint.findings input ix,
      f = if input.options.strict then g.promote else g := by
  unfold Index.lint
  cases input.options.strict with
  | true => simp [List.mem_map, eq_comm]
  | false => simp

theorem exists_mem_findings_of_mem_lint (h : f ∈ (ix.lint input).findings) :
    ∃ g ∈ Lint.findings input ix, g.kind = f.kind ∧ g.rule = f.rule := by
  obtain ⟨g, hg, rfl⟩ := mem_lint_iff.mp h
  refine ⟨g, hg, ?_⟩
  cases input.options.strict <;> simp

theorem exists_mem_lint_of_mem_findings (h : f ∈ Lint.findings input ix) :
    ∃ g ∈ (ix.lint input).findings, g.kind = f.kind ∧ g.rule = f.rule := by
  refine ⟨_, mem_lint_iff.mpr ⟨f, h, rfl⟩, ?_⟩
  cases input.options.strict <;> simp

theorem mem_lint_of_severity (h : f ∈ Lint.findings input ix) (hs : f.severity ≠ .warning) :
    f ∈ (ix.lint input).findings := by
  refine mem_lint_iff.mpr ⟨f, h, ?_⟩
  rw [Finding.promote_of_severity hs, ite_self]

theorem isFailure_of_rejected {e : LineError} (h : e ∈ input.rejected) :
    (ix.lint input).isFailure = true := by
  have hrejected : ∃ f ∈ Lint.checkSyntax input.rejected, f.kind = .invalidPattern ∧
      f.severity = .error :=
    ⟨_, List.mem_map_of_mem h, rfl, rfl⟩
  obtain ⟨f, hf, hkind, hseverity⟩ := hrejected
  have hfound : f ∈ Lint.findings input ix := by
    rw [Lint.mem_findings_iff, hkind]
    exact hf
  have hreported : f ∈ (ix.lint input).findings :=
    mem_lint_of_severity hfound (by rw [hseverity]; decide)
  have herrors : (ix.lint input).hasErrors = true :=
    List.any_eq_true.mpr ⟨f, hreported, by rw [hseverity]; rfl⟩
  rw [LintReport.isFailure, herrors, Bool.true_or]

theorem kind_ne_invalidPattern (h : input.rejected = []) :
    ∀ f ∈ (ix.lint input).findings, f.kind ≠ .invalidPattern := by
  intro f hf hkind
  obtain ⟨g, hg, hgkind, -⟩ := exists_mem_findings_of_mem_lint hf
  rw [Lint.mem_findings_iff, hgkind, hkind] at hg
  have hrejected : g ∈ Lint.checkSyntax input.rejected := hg
  rw [h] at hrejected
  exact absurd hrejected List.not_mem_nil

end Index

end Ownership
