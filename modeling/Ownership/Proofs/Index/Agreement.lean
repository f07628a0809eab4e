import Ownership.Proofs.Impact.Partition
import Ownership.Report.Owner

set_option autoImplicit false

/-!
# All look-ups agree

Who owns a path can be asked in five ways: `resolve`, `explain`, the last of `acceptingIndices`, the
report on a change, and the view of one path. All of them answer with the last rule that accepts
the path, and none of them with anything else if no rule does.
-/
namespace Ownership

namespace Index

section Positions

variable {ix : Index} {path : String}

theorem resolve_eq_unmapped_iff :
    ix.resolve path = .unmapped ↔ ∀ rule ∈ ix.rules, rule.accepts path = false := by
  rw [← getLast?_acceptingRules_eq_none, resolve_eq]
  cases (ix.acceptingRules path).getLast? <;> simp

theorem getLast?_acceptingIndices :
    (ix.acceptingIndices path).getLast? = (ix.resolve path).rule? := by
  rw [acceptingIndices, List.getLast?_map, resolve_eq]
  cases (ix.acceptingRules path).getLast? <;> rfl

theorem mem_acceptingIndices {i : Nat} :
    i ∈ ix.acceptingIndices path ↔ ∃ rule, ix.rules[i]? = some rule ∧ rule.accepts path = true := by
  rw [acceptingIndices, List.mem_map]
  constructor
  · rintro ⟨⟨rule, j⟩, hmem, rfl⟩
    exact ⟨rule, mem_acceptingRules.mp hmem⟩
  · rintro ⟨rule, h⟩
    exact ⟨(rule, i), mem_acceptingRules.mpr h, rfl⟩

theorem pairwise_acceptingIndices : (ix.acceptingIndices path).Pairwise (· < ·) :=
  List.pairwise_map.mpr (pairwise_acceptingRules ix path)

end Positions

/-! ## Every rule's verdict -/

theorem accepted_explain (ix : Index) (path : String) :
    (ix.explain path).accepted =
      (ix.acceptingRules path).map fun r => ⟨r.2, r.1, r.1.accepts path⟩ := by
  rw [Explanation.accepted, explain, evaluate, List.filter_map]
  rfl

theorem outcome_eq (evaluations : List Evaluation) :
    outcome evaluations = match (evaluations.filter (·.accepted)).getLast? with
      | some v => .owned v.rule.service v.index
      | none => .unmapped := by
  rw [List.getLast?_filter]
  rfl

theorem result_explain (ix : Index) (path : String) :
    (ix.explain path).result = ix.resolve path := by
  have haccepted := accepted_explain ix path
  rw [Explanation.accepted] at haccepted
  change outcome (ix.explain path).evaluations = _
  rw [outcome_eq, haccepted, List.getLast?_map, resolve_eq]
  cases (ix.acceptingRules path).getLast? <;> rfl

theorem exists_ruleRef?_eq_some {ix : Index} {path : String} {i : Nat}
    (h : i ∈ ix.acceptingIndices path) :
    ∃ r, OwnerView.ruleRef? ix i = some r ∧ r.index = i := by
  obtain ⟨rule, hrule, -⟩ := mem_acceptingIndices.mp h
  exact ⟨_, congrArg (Option.map _) hrule, rfl⟩

theorem getLast?_filterMap_of_forall {α β : Type} {f : α → Option β} {xs : List α}
    (h : ∀ x ∈ xs, ∃ y, f x = some y) : (xs.filterMap f).getLast? = xs.getLast?.bind f := by
  rcases List.eq_nil_or_concat xs with rfl | ⟨init, last, rfl⟩
  · rfl
  · obtain ⟨y, hy⟩ := h last (by simp)
    simp [hy]

theorem accepting_ofExplanation (ix : Index) (path : String) (catalog : Catalog) (full : Bool) :
    (OwnerView.ofExplanation (ix.explain path) ix catalog full).accepting =
      (ix.acceptingIndices path).filterMap (OwnerView.ruleRef? ix) := by
  simp only [OwnerView.ofExplanation, accepted_explain, acceptingIndices, List.filterMap_map]
  rfl

theorem chosen_ofExplanation (ix : Index) (path : String) (catalog : Catalog) (full : Bool) :
    (OwnerView.ofExplanation (ix.explain path) ix catalog full).chosen =
      (ix.resolve path).rule?.bind (OwnerView.ruleRef? ix) := by
  simp only [OwnerView.ofExplanation, result_explain]

/-! ## Agreement -/

/-- What the ways to ask for the owner of one path have in common. -/
structure LookupsAgree (ix : Index) (path : String) : Prop where
  owned_iff : ∀ service i, ix.resolve path = .owned service i ↔
    ∃ rule, ix.IsLastMatch path i rule ∧ rule.service = service
  unmapped_iff : ix.resolve path = .unmapped ↔ ∀ rule ∈ ix.rules, rule.accepts path = false
  explained : (ix.explain path).result = ix.resolve path
  indices_increase : (ix.acceptingIndices path).Pairwise (· < ·)
  mem_indices : ∀ i, i ∈ ix.acceptingIndices path ↔
    ∃ rule, ix.rules[i]? = some rule ∧ rule.accepts path = true
  last_index : (ix.acceptingIndices path).getLast? = (ix.resolve path).rule?
  filed : ∀ paths, path ∈ paths → ∀ service,
    (∃ s ∈ (ix.impact paths).services, s.service = service ∧ path ∈ s.files) ↔
      (ix.resolve path).service? = some service
  left_over : ∀ paths, path ∈ paths →
    (path ∈ (ix.impact paths).unmapped ↔ ix.resolve path = .unmapped)
  shown_service : ∀ catalog full,
    (OwnerView.ofExplanation (ix.explain path) ix catalog full).service =
      (ix.resolve path).service?
  shown_rule : ∀ catalog full,
    (OwnerView.ofExplanation (ix.explain path) ix catalog full).chosen =
      (OwnerView.ofExplanation (ix.explain path) ix catalog full).accepting.getLast?
  shown_index : ∀ catalog full,
    (OwnerView.ofExplanation (ix.explain path) ix catalog full).chosen.map RuleRef.index =
      (ix.resolve path).rule?

/-- However it is asked, the last accepting rule decides. -/
theorem lookups_agree (ix : Index) (path : String) : ix.LookupsAgree path where
  owned_iff service i := resolve_eq_owned_iff
  unmapped_iff := resolve_eq_unmapped_iff
  explained := result_explain ix path
  indices_increase := pairwise_acceptingIndices
  mem_indices i := mem_acceptingIndices
  last_index := getLast?_acceptingIndices
  filed paths hpath service := by
    rw [filed_under_iff]
    exact and_iff_right hpath
  left_over paths hpath := by
    rw [filed_unmapped_iff, owner?_eq_none]
    exact and_iff_right hpath
  shown_service catalog full := by
    rw [← result_explain]
    rfl
  shown_rule catalog full := by
    rw [chosen_ofExplanation, accepting_ofExplanation, ← getLast?_acceptingIndices]
    refine (getLast?_filterMap_of_forall ?_).symm
    intro i hi
    exact (exists_ruleRef?_eq_some hi).imp fun _ => And.left
  shown_index catalog full := by
    rw [chosen_ofExplanation, ← getLast?_acceptingIndices]
    cases hlast : (ix.acceptingIndices path).getLast? with
    | none => rfl
    | some i =>
      obtain ⟨r, hr, rfl⟩ := exists_ruleRef?_eq_some (List.mem_of_getLast? hlast)
      exact congrArg (Option.map RuleRef.index) hr

end Index

end Ownership
