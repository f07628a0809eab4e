import Ownership.Proofs.Index.LastMatch
import Ownership.Proofs.Lint.Findings
import Ownership.Proofs.Pattern.Compare

set_option autoImplicit false

/-!
# Shadowed and overlapping rules

Two rules of different services that accept a common path are reported, as a shadow or as an
overlap. A rule that is reported as shadowed never decides, so all of them may be deleted.
-/
namespace Ownership
open Ownership.Lint

namespace Lint

theorem checkShadowing_zipIdx (rules : List Rule) (start : Nat) (f : Finding) :
    f ∈ checkShadowing (rules.zipIdx start) ↔ ∃ i rule, rules[i]? = some rule ∧
      f ∈ compareWithLater rule (start + i) ((rules.drop (i + 1)).zipIdx (start + i + 1)) := by
  induction rules generalizing start with
  | nil => simp [checkShadowing]
  | cons r rules ih =>
    rw [List.zipIdx_cons, checkShadowing, List.mem_append, ih (start + 1)]
    constructor
    · rintro (h | ⟨i, rule, hi, h⟩)
      · exact ⟨0, r, rfl, h⟩
      · refine ⟨i + 1, rule, hi, ?_⟩
        rw [Nat.add_right_comm] at h
        exact h
    · rintro ⟨i, rule, hi, h⟩
      cases i with
      | zero =>
        obtain rfl : r = rule := by simpa using hi
        exact .inl h
      | succ i =>
        refine .inr ⟨i, rule, hi, ?_⟩
        rw [Nat.add_right_comm]
        exact h

theorem mem_later_iff {rules : List Rule} {i j : Nat} {rule : Rule} :
    (rule, j) ∈ (rules.drop (i + 1)).zipIdx (i + 1) ↔ i < j ∧ rules[j]? = some rule := by
  rw [List.mem_zipIdx_iff_le_and_getElem?_sub, List.getElem?_drop]
  constructor
  · rintro ⟨hle, hget⟩
    rw [Nat.add_sub_cancel' hle] at hget
    exact ⟨hle, hget⟩
  · rintro ⟨hlt, hget⟩
    refine ⟨hlt, ?_⟩
    rw [Nat.add_sub_cancel' hlt]
    exact hget

theorem exists_cover_of_mem_compareWithLater {rule : Rule} {i : Nat} {later : List (Rule × Nat)}
    {f : Finding} (h : f ∈ compareWithLater rule i later) (hkind : f.kind = .shadowedRule) :
    f.rule = some i ∧
      ∃ other j, (other, j) ∈ later ∧ other.compiled.covers rule.compiled = true := by
  unfold compareWithLater at h
  split at h
  · rename_i other j hfind
    obtain rfl := List.mem_singleton.mp h
    have hcovers := List.find?_some hfind
    exact ⟨rfl, other, j, List.mem_of_find?_eq_some hfind, hcovers⟩
  · obtain ⟨⟨other, j⟩, _, hf⟩ := List.mem_filterMap.mp h
    simp only [Option.ite_none_right_eq_some, Option.some.injEq] at hf
    obtain ⟨_, rfl⟩ := hf
    cases hkind

theorem exists_shadowFinding_of_covers {rule other : Rule} {i j : Nat}
    {later : List (Rule × Nat)} (hlater : (other, j) ∈ later)
    (hcovers : other.compiled.covers rule.compiled = true) :
    ∃ cover k, shadowFinding rule i cover k ∈ compareWithLater rule i later := by
  unfold compareWithLater
  split
  · next cover k _ => exact ⟨cover, k, List.mem_singleton_self _⟩
  · next hnone => exact absurd hcovers (List.find?_eq_none.mp hnone (other, j) hlater)

theorem mem_findings_of_mem_compareWithLater {ix : Index} {input : LintInput}
    (hcheck : input.options.checkOverlaps = true) {i : Nat} {rule : Rule}
    (hi : ix.rules[i]? = some rule) {f : Finding}
    (hf : f ∈ compareWithLater rule i ((ix.rules.drop (i + 1)).zipIdx (i + 1))) :
    f ∈ findings input ix := by
  refine (mem_findings_iff_of_comparison (kind_of_mem_compareWithLater hf)).mpr ⟨hcheck, ?_⟩
  refine (checkShadowing_zipIdx ix.rules 0 f).mpr ⟨i, rule, hi, ?_⟩
  simpa only [Nat.zero_add] using hf

end Lint

namespace Index

variable {ix : Index} {input : LintInput}

def IsShadowed (ix : Index) (input : LintInput) (i : Nat) : Prop :=
  ∃ f ∈ (ix.lint input).findings, f.kind = .shadowedRule ∧ f.rule = some i

instance (ix : Index) (input : LintInput) (i : Nat) : Decidable (ix.IsShadowed input i) :=
  inferInstanceAs (Decidable
    (∃ f ∈ (ix.lint input).findings, f.kind = .shadowedRule ∧ f.rule = some i))

theorem exists_cover_of_isShadowed {i : Nat} (h : ix.IsShadowed input i) :
    ∃ rule other j, ix.rules[i]? = some rule ∧ ix.rules[j]? = some other ∧ i < j ∧
      other.compiled.covers rule.compiled = true := by
  obtain ⟨f, hf, hkind, hrule⟩ := h
  obtain ⟨g, hg, hgkind, hgrule⟩ := exists_mem_findings_of_mem_lint hf
  rw [hkind] at hgkind
  rw [hrule] at hgrule
  obtain ⟨_, hcompare⟩ := (mem_findings_iff_of_comparison (.inl hgkind)).mp hg
  obtain ⟨k, rule, hk, hmem⟩ := (checkShadowing_zipIdx ix.rules 0 g).mp hcompare
  obtain ⟨hposition, other, j, hlater, hcovers⟩ :=
    exists_cover_of_mem_compareWithLater hmem hgkind
  simp only [Nat.zero_add] at hlater hposition
  obtain rfl : i = k := by
    rw [hgrule] at hposition
    exact Option.some.inj hposition
  obtain ⟨hlt, hj⟩ := mem_later_iff.mp hlater
  exact ⟨rule, other, j, hk, hj, hlt, hcovers⟩

theorem resolve_ne_of_isShadowed {i : Nat} (h : ix.IsShadowed input i) (path service : String) :
    ix.resolve path ≠ .owned service i := by
  intro hresolve
  obtain ⟨rule, other, j, hi, hj, hlt, hcovers⟩ := exists_cover_of_isShadowed h
  obtain ⟨rule', hi', haccept⟩ := accepts_of_resolve_eq_owned hresolve
  obtain rfl : rule = rule' := Option.some.inj (hi.symm.trans hi')
  have hother : other.accepts path = true := Pattern.acceptsSegments_of_covers hcovers haccept
  have hle := le_of_resolve_eq_owned hresolve hj hother
  omega

/-- Whatever else is checked, the rules that a report flags as shadowed decide no path, and any of
them can be deleted at once. -/
theorem shadowed_rules_removable {positions : List Nat}
    (h : ∀ i ∈ positions, ix.IsShadowed input i) :
    (∀ path service, ∀ i ∈ positions, ix.resolve path ≠ .owned service i) ∧
      ∀ path, ((ix.without positions).resolve path).service? = (ix.resolve path).service? := by
  have hnever : ∀ path service, ∀ i ∈ positions, ix.resolve path ≠ .owned service i :=
    fun path service i hi => resolve_ne_of_isShadowed (h i hi) path service
  refine ⟨hnever, fun path => service?_resolve_without ?_⟩
  intro service i hresolve hi
  exact hnever path service i hi hresolve

theorem shadowed_rules_removable_docs :
    ∃ ix : Index, Rules.parse ix.source "docs/*.md web\n/docs/[a-z]*.md api\ndocs/ prose\n" =
        .ok ix.rules ∧
      (∀ i ∈ [0, 1], ix.IsShadowed { options := { checkOverlaps := true } } i) ∧
      (∀ path service, ∀ i ∈ [0, 1], ix.resolve path ≠ .owned service i) ∧
      ∀ path, ((ix.without [0, 1]).resolve path).service? = (ix.resolve path).service? := by
  obtain ⟨ix, hparse, hflagged⟩ := exists_parsed
    "docs/*.md web\n/docs/[a-z]*.md api\ndocs/ prose\n"
    (fun ix => [0, 1].all (ix.IsShadowed { options := { checkOverlaps := true } }))
    (by decide +kernel)
  have h : ∀ i ∈ [0, 1], ix.IsShadowed { options := { checkOverlaps := true } } i := by
    simpa only [List.all_eq_true, decide_eq_true_eq] using hflagged
  exact ⟨ix, hparse, h, shadowed_rules_removable h⟩

end Index

end Ownership
