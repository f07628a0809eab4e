import Mathlib.Data.List.Basic
import Ownership.Index

set_option autoImplicit false

/-!
# The last accepting rule

The outcome for a path is read off the last of the rules that accept it. So rules that never decide
can be taken out, and where all accepting rules name one service their order does not matter.
-/
namespace Ownership.Index

theorem exists_parsed (text : String) (check : Index → Bool)
    (h : (Rules.parse defaultSource text).map (fun rules => check ⟨defaultSource, rules⟩) =
      .ok true) :
    ∃ ix : Index, Rules.parse ix.source text = .ok ix.rules ∧ check ix = true := by
  cases hrules : Rules.parse defaultSource text with
  | error e => simp [hrules, Except.map] at h
  | ok rules => exact ⟨⟨defaultSource, rules⟩, hrules, by simpa [hrules, Except.map] using h⟩

theorem resolve_eq (ix : Index) (path : String) :
    ix.resolve path = match (ix.acceptingRules path).getLast? with
      | some (rule, i) => .owned rule.service i
      | none => .unmapped := by
  simp only [acceptingRules, List.getLast?_filter]
  rfl

def acceptors (ix : Index) (path : String) : List Rule :=
  ix.rules.filter (·.accepts path)

theorem map_fst_filter_zipIdx (rules : List Rule) (p : Rule → Bool) (start : Nat) :
    ((rules.zipIdx start).filter fun r => p r.1).map Prod.fst = rules.filter p := by
  induction rules generalizing start with
  | nil => rfl
  | cons r rules ih =>
    rw [List.zipIdx_cons, List.filter_cons, List.filter_cons]
    cases p r with
    | true => exact congrArg (r :: ·) (ih (start + 1))
    | false => exact ih (start + 1)

theorem map_fst_acceptingRules (ix : Index) (path : String) :
    (ix.acceptingRules path).map Prod.fst = ix.acceptors path :=
  map_fst_filter_zipIdx ix.rules (·.accepts path) 0

theorem service?_resolve (ix : Index) (path : String) :
    (ix.resolve path).service? = (ix.acceptors path).getLast?.map Rule.service := by
  rw [resolve_eq, ← map_fst_acceptingRules, List.getLast?_map]
  cases (ix.acceptingRules path).getLast? <;> rfl

theorem mem_acceptingRules {ix : Index} {path : String} {rule : Rule} {i : Nat} :
    (rule, i) ∈ ix.acceptingRules path ↔ ix.rules[i]? = some rule ∧ rule.accepts path = true := by
  rw [acceptingRules, List.mem_filter, List.mem_zipIdx_iff_getElem?]
  rfl

def accepterNames (ix : Index) (path : String) : List String :=
  (ix.acceptors path).map Rule.service

theorem filterMap_acceptingIndices (ix : Index) (path : String) :
    (ix.acceptingIndices path).filterMap (ix.rules[·]?) = ix.acceptors path := by
  rw [acceptingIndices, List.filterMap_map, ← map_fst_acceptingRules, ← List.filterMap_eq_map]
  refine List.filterMap_congr ?_
  rintro ⟨rule, i⟩ hrule
  exact (mem_acceptingRules.mp hrule).1

theorem length_acceptingIndices (ix : Index) (path : String) :
    (ix.acceptingIndices path).length = (ix.accepterNames path).length := by
  rw [acceptingIndices, accepterNames, ← map_fst_acceptingRules, List.length_map, List.length_map,
    List.length_map]

theorem pairwise_acceptingRules (ix : Index) (path : String) :
    (ix.acceptingRules path).Pairwise fun r s => r.2 < s.2 := by
  have hpositions : (ix.rules.zipIdx.map Prod.snd).Pairwise (· < ·) := by
    rw [List.zipIdx_map_snd]
    exact List.pairwise_lt_range'
  exact (List.pairwise_map.mp hpositions).filter _

theorem getLast?_eq_some_iff_of_pairwise {α : Type} (key : α → Nat) {xs : List α}
    (hsorted : xs.Pairwise fun x y => key x < key y) {x : α} :
    xs.getLast? = some x ↔ x ∈ xs ∧ ∀ y ∈ xs, key y ≤ key x := by
  rcases List.eq_nil_or_concat xs with rfl | ⟨init, last, rfl⟩
  · simp
  · rw [List.concat_eq_append] at hsorted ⊢
    have hbefore : ∀ y ∈ init, key y < key last := fun y hy =>
      (List.pairwise_append.mp hsorted).2.2 y hy last (List.mem_singleton_self last)
    rw [List.getLast?_concat, Option.some.injEq]
    constructor
    · rintro rfl
      refine ⟨List.mem_append_right init (List.mem_singleton_self last), ?_⟩
      intro y hy
      rcases List.mem_append.mp hy with hy | hy
      · exact Nat.le_of_lt (hbefore y hy)
      · exact Nat.le_of_eq (congrArg key (List.mem_singleton.mp hy))
    · rintro ⟨hx, hmax⟩
      have hle := hmax last (List.mem_append_right init (List.mem_singleton_self last))
      rcases List.mem_append.mp hx with hx | hx
      · have hlt := hbefore x hx
        omega
      · exact (List.mem_singleton.mp hx).symm

/-- Rule `i` accepts the path and no rule after it does. -/
structure IsLastMatch (ix : Index) (path : String) (i : Nat) (rule : Rule) : Prop where
  at_position : ix.rules[i]? = some rule
  accepts : rule.accepts path = true
  none_later : ∀ j other, i < j → ix.rules[j]? = some other → other.accepts path = false

section LastMatch

variable {ix : Index} {path : String}

theorem getLast?_acceptingRules_eq_some {i : Nat} {rule : Rule} :
    (ix.acceptingRules path).getLast? = some (rule, i) ↔ ix.IsLastMatch path i rule := by
  rw [getLast?_eq_some_iff_of_pairwise Prod.snd (pairwise_acceptingRules ix path),
    mem_acceptingRules]
  constructor
  · rintro ⟨⟨hposition, haccepts⟩, hmax⟩
    refine ⟨hposition, haccepts, ?_⟩
    intro j other hlt hj
    cases haccept : other.accepts path with
    | false => rfl
    | true =>
      have hle : j ≤ i := hmax (other, j) (mem_acceptingRules.mpr ⟨hj, haccept⟩)
      omega
  · intro h
    refine ⟨⟨h.at_position, h.accepts⟩, ?_⟩
    rintro ⟨other, j⟩ hmem
    obtain ⟨hj, haccept⟩ := mem_acceptingRules.mp hmem
    refine Nat.le_of_not_lt fun hlt => ?_
    have hrejects := h.none_later j other hlt hj
    rw [haccept] at hrejects
    cases hrejects

theorem getLast?_acceptingRules_eq_none :
    (ix.acceptingRules path).getLast? = none ↔ ∀ rule ∈ ix.rules, rule.accepts path = false := by
  rw [List.getLast?_eq_none_iff, ← List.map_eq_nil_iff, map_fst_acceptingRules, acceptors,
    List.filter_eq_nil_iff]
  simp only [Bool.not_eq_true]

theorem resolve_eq_owned_iff {service : String} {i : Nat} :
    ix.resolve path = .owned service i ↔ ∃ rule, ix.IsLastMatch path i rule ∧
      rule.service = service := by
  rw [resolve_eq]
  constructor
  · intro h
    cases hlast : (ix.acceptingRules path).getLast? with
    | none => simp [hlast] at h
    | some last =>
      simp only [hlast, Resolution.owned.injEq] at h
      obtain ⟨rfl, rfl⟩ := h
      exact ⟨last.1, getLast?_acceptingRules_eq_some.mp hlast, rfl⟩
  · rintro ⟨rule, hmatch, rfl⟩
    rw [getLast?_acceptingRules_eq_some.mpr hmatch]

theorem le_of_resolve_eq_owned {service : String} {i j : Nat} {rule : Rule}
    (h : ix.resolve path = .owned service i) (hj : ix.rules[j]? = some rule)
    (haccept : rule.accepts path = true) : j ≤ i := by
  obtain ⟨winner, hmatch, _⟩ := resolve_eq_owned_iff.mp h
  refine Nat.le_of_not_lt fun hlt => ?_
  have hrejects := hmatch.none_later j rule hlt hj
  rw [haccept] at hrejects
  cases hrejects

theorem accepts_of_resolve_eq_owned {service : String} {i : Nat}
    (h : ix.resolve path = .owned service i) :
    ∃ rule, ix.rules[i]? = some rule ∧ rule.accepts path = true := by
  obtain ⟨rule, hmatch, _⟩ := resolve_eq_owned_iff.mp h
  exact ⟨rule, hmatch.at_position, hmatch.accepts⟩

end LastMatch

/-- The index without the rules at some positions; the other rules keep their order. -/
def without (ix : Index) (positions : List Nat) : Index :=
  { ix with rules := (ix.rules.zipIdx.filter fun r => r.2 ∉ positions).map Prod.fst }

theorem acceptors_without (ix : Index) (positions : List Nat) (path : String) :
    (ix.without positions).acceptors path =
      ((ix.acceptingRules path).filter fun r => r.2 ∉ positions).map Prod.fst := by
  rw [acceptors, without, List.filter_map, List.filter_filter, acceptingRules, List.filter_filter]
  congr 1
  apply List.filter_congr
  intro r _
  exact Bool.and_comm _ _

theorem getLast?_filter_eq {α : Type} {p : α → Bool} {xs : List α}
    (h : ∀ x, xs.getLast? = some x → p x = true) : (xs.filter p).getLast? = xs.getLast? := by
  cases hlast : xs.getLast? with
  | none =>
    rw [List.getLast?_eq_none_iff.mp hlast]
    rfl
  | some x =>
    obtain ⟨init, rfl⟩ := List.getLast?_eq_some_iff.mp hlast
    simp [List.filter_append, h x hlast]

/-- Rules that do not decide a path can be taken out together. -/
theorem service?_resolve_without {ix : Index} {positions : List Nat} {path : String}
    (h : ∀ service i, ix.resolve path = .owned service i → i ∉ positions) :
    ((ix.without positions).resolve path).service? = (ix.resolve path).service? := by
  rw [service?_resolve, service?_resolve, acceptors_without, ← map_fst_acceptingRules,
    List.getLast?_map, List.getLast?_map]
  rw [getLast?_filter_eq]
  intro last hlast
  have hresolve : ix.resolve path = .owned last.1.service last.2 := by rw [resolve_eq, hlast]
  simpa using h _ _ hresolve

end Ownership.Index
