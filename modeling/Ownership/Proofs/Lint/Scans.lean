import Mathlib.Data.Finset.Card
import Mathlib.Data.List.Induction
import Ownership.Lint
import Ownership.Proofs.Distinct
import Ownership.Proofs.Index.LastMatch

set_option autoImplicit false

/-!
# Scans of lint

Two checks of lint read a list once and carry what they have met. A repeated pattern is looked up
among the patterns before it, which is a search for the first rule that has it; files of several
services are counted and the first of them kept, which is their list cut off.
-/
namespace Ownership.Lint

/-! ## Repeated patterns -/

section Duplicates

variable {before later : List Rule} {firstSeen : List (String × Nat)} {rule : Rule} {text : String}

def firstUse? (rules : List Rule) (text : String) : Option (Rule × Nat) :=
  rules.zipIdx.find? fun (rule, _) => rule.pattern == text

/-- The finding about one rule, if the first rule with its pattern text stands before it. -/
def duplicate? (rules : List Rule) (r : Rule × Nat) : Option Finding :=
  match firstUse? rules r.1.pattern with
  | some (earlier, first) =>
    if first < r.2 then some (duplicateFinding r.1 r.2 earlier first) else none
  | none => none

theorem firstUse?_append (before later : List Rule) (text : String) :
    firstUse? (before ++ later) text = (firstUse? before text).or
      ((later.zipIdx before.length).find? fun (rule, _) => rule.pattern == text) := by
  rw [firstUse?, List.zipIdx_append, List.find?_append, Nat.zero_add, ← firstUse?]

theorem firstUse?_append_of_none (h : firstUse? before rule.pattern = none) (later : List Rule) :
    firstUse? (before ++ rule :: later) rule.pattern = some (rule, before.length) := by
  rw [firstUse?_append, h, Option.none_or, List.zipIdx_cons, List.find?_cons_of_pos]
  exact beq_self_eq_true _

theorem firstUse?_append_of_some {r : Rule × Nat} (h : firstUse? before text = some r)
    (later : List Rule) : firstUse? (before ++ later) text = some r := by
  rw [firstUse?_append, h, Option.some_or]

theorem firstUse?_concat_of_ne (h : rule.pattern ≠ text) :
    firstUse? (before ++ [rule]) text = firstUse? before text := by
  have hother : (rule.pattern == text) = false := beq_eq_false_iff_ne.mpr h
  rw [firstUse?_append, List.zipIdx_singleton, List.find?_singleton]
  simp only [hother, Bool.false_eq_true, if_false, Option.or_none]

theorem getElem?_of_firstUse? {r : Rule × Nat} (h : firstUse? before text = some r) :
    before[r.2]? = some r.1 :=
  List.mk_mem_zipIdx_iff_getElem?.mp (List.mem_of_find?_eq_some h)

/-- The positions are those of the first rules with each pattern text. -/
def Records (rules : List Rule) (firstSeen : List (String × Nat)) : Prop :=
  ∀ text, firstSeen.lookup text = (firstUse? rules text).map Prod.snd

theorem Records.concat_of_none (h : Records before firstSeen)
    (hnew : firstUse? before rule.pattern = none) :
    Records (before ++ [rule]) ((rule.pattern, before.length) :: firstSeen) := by
  intro text
  rw [List.lookup_cons]
  by_cases hsame : rule.pattern = text
  · subst hsame
    rw [beq_self_eq_true, firstUse?_append_of_none hnew]
    rfl
  · rw [beq_eq_false_iff_ne.mpr (Ne.symm hsame), firstUse?_concat_of_ne hsame]
    exact h text

theorem Records.concat_of_some (h : Records before firstSeen) {r : Rule × Nat}
    (hold : firstUse? before rule.pattern = some r) :
    Records (before ++ [rule]) firstSeen := by
  intro text
  by_cases hsame : rule.pattern = text
  · subst hsame
    rw [h rule.pattern, hold, firstUse?_append_of_some hold]
  · rw [h text, firstUse?_concat_of_ne hsame]

theorem duplicatesFrom_eq (h : Records before firstSeen) (later : List Rule) :
    duplicatesFrom (before ++ later) firstSeen (later.zipIdx before.length) =
      (later.zipIdx before.length).filterMap (duplicate? (before ++ later)) := by
  induction later generalizing before firstSeen with
  | nil => rfl
  | cons rule later ih =>
    have hsplit : before ++ rule :: later = before ++ [rule] ++ later := by simp
    have hlength : before.length + 1 = (before ++ [rule]).length := by simp
    have hlookup := h rule.pattern
    rw [List.zipIdx_cons, duplicatesFrom, List.filterMap_cons, duplicate?]
    cases hfirst : firstUse? before rule.pattern with
    | none =>
      rw [hfirst, Option.map_none] at hlookup
      simp only [hlookup, firstUse?_append_of_none hfirst, Nat.lt_irrefl, if_false]
      rw [hsplit, hlength]
      exact ih (h.concat_of_none hfirst)
    | some r =>
      have hearlier := getElem?_of_firstUse? hfirst
      obtain ⟨hlt, -⟩ := List.getElem?_eq_some_iff.mp hearlier
      rw [hfirst, Option.map_some] at hlookup
      simp only [hlookup, firstUse?_append_of_some hfirst, if_pos hlt,
        List.getElem?_append_left hlt, hearlier, Option.map_some, Option.toList_some]
      rw [hsplit, hlength, ih (h.concat_of_some hfirst)]
      rfl

/-- The scan gives for each rule what a search for the first rule with its pattern text gives. -/
theorem checkDuplicates_eq (rules : List Rule) :
    checkDuplicates rules = rules.zipIdx.filterMap (duplicate? rules) := by
  have hnone : Records [] [] := fun _ => rfl
  exact duplicatesFrom_eq hnone rules

end Duplicates

/-! ## Files of several services -/

section Files

variable (ix : Index)

/-- The files of a listing that rules of several services accept, each with the services. -/
def contestedFiles (files : List String) : List (String × List String) :=
  (files.filter fun file => 1 < (ix.accepterNames file).toFinset.card).map fun file =>
    (file, ix.accepterNames file)

def exampleText (file : String × List String) : String :=
  file.1 ++ " -> " ++ ", ".intercalate file.2

theorem length_eraseDups (services : List String) :
    services.eraseDups.length = services.toFinset.card := by
  have hsame : services.eraseDups.toFinset = services.toFinset := by
    ext service
    rw [List.mem_toFinset, List.mem_toFinset, List.mem_eraseDups]
  rw [← hsame, List.toFinset_card_of_nodup (Distinct.nodup_eraseDups services)]

theorem visit_eq (scan : OverlapScan) (file : String) :
    scan.visit ix file =
      if 1 < (ix.accepterNames file).toFinset.card then
        { total := scan.total + 1
          examples :=
            if scan.examples.length < maxExamples then
              scan.examples ++ [exampleText (file, ix.accepterNames file)]
            else scan.examples }
      else scan := by
  have hle := List.toFinset_card_le (ix.accepterNames file)
  simp only [OverlapScan.visit, ix.filterMap_acceptingIndices, ix.length_acceptingIndices]
  rw [← Index.accepterNames, length_eraseDups]
  by_cases hseveral : 1 < (ix.accepterNames file).toFinset.card
  · rw [if_pos hseveral, if_neg (by omega), if_neg (by omega)]
    rfl
  · have hfew : (ix.accepterNames file).toFinset.card < 2 := by omega
    rw [if_neg hseveral, if_pos hfew, ite_self]

theorem contestedFiles_concat (files : List String) (file : String) :
    contestedFiles ix (files ++ [file]) = contestedFiles ix files ++
      if 1 < (ix.accepterNames file).toFinset.card then [(file, ix.accepterNames file)] else [] := by
  rw [contestedFiles, List.filter_append, List.map_append, ← contestedFiles]
  by_cases hseveral : 1 < (ix.accepterNames file).toFinset.card <;> simp [hseveral]

theorem take_concat {α : Type} (n : Nat) (xs : List α) (x : α) :
    (xs ++ [x]).take n = if (xs.take n).length < n then xs.take n ++ [x] else xs.take n := by
  rw [List.length_take]
  by_cases hroom : xs.length < n
  · rw [if_pos (by omega), List.take_of_length_le (by simp; omega),
      List.take_of_length_le (Nat.le_of_lt hroom)]
  · rw [if_neg (by omega), List.take_append_of_le_length (Nat.le_of_not_lt hroom)]

/-- What the scan holds after some files: how many of them are contested, and the first of these. -/
theorem foldl_visit (files : List String) :
    files.foldl (OverlapScan.visit ix) ⟨0, []⟩ =
      ⟨(contestedFiles ix files).length,
        ((contestedFiles ix files).take maxExamples).map exampleText⟩ := by
  induction files using List.reverseRecOn with
  | nil => rfl
  | append_singleton files file ih =>
    rw [List.foldl_concat, ih, visit_eq, contestedFiles_concat]
    by_cases hseveral : 1 < (ix.accepterNames file).toFinset.card
    · rw [if_pos hseveral, if_pos hseveral, take_concat, List.length_append, List.length_map,
        apply_ite (List.map exampleText), List.map_append]
      rfl
    · rw [if_neg hseveral, if_neg hseveral, List.append_nil]

end Files

end Ownership.Lint
