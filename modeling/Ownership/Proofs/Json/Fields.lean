import Mathlib.Data.List.Induction
import Mathlib.Data.List.Nodup
import Ownership.Json.Basic

set_option autoImplicit false

/-!
# Sorted fields

A list of fields that is sorted by key has one place for every key. So fields with distinct keys
have one sorted arrangement, whatever order they came in.
-/
namespace Ownership.Json

variable {α : Type} {key : String} {value : α} {fields others : List (String × α)}

def SortedByKey (fields : List (String × α)) : Prop :=
  fields.Pairwise fun a b => a.1 < b.1

@[simp]
theorem getField?_setField_self (key : String) (value : α) (fields : List (String × α)) :
    getField? key (setField key value fields) = some value := by
  induction fields with
  | nil => simp [setField, getField?]
  | cons head rest ih =>
    by_cases hlt : key < head.1
    · simp [setField, getField?, hlt]
    · by_cases heq : key = head.1
      · simp [setField, getField?, heq]
      · simp [setField, getField?, hlt, heq, ih]

theorem getField?_setField_of_ne {other : String} (h : other ≠ key) :
    getField? other (setField key value fields) = getField? other fields := by
  induction fields with
  | nil => simp [setField, getField?, h]
  | cons head rest ih =>
    by_cases hlt : key < head.1
    · simp [setField, getField?, hlt, h]
    · by_cases heq : key = head.1
      · subst heq
        simp [setField, getField?, h]
      · simp [setField, getField?, hlt, heq, ih]

theorem eq_or_mem_of_mem_setField {field : String × α} (h : field ∈ setField key value fields) :
    field = (key, value) ∨ field ∈ fields := by
  induction fields with
  | nil => exact .inl (List.mem_singleton.mp h)
  | cons head rest ih =>
    unfold setField at h
    split at h
    · exact List.mem_cons.mp h
    · split at h
      · rcases List.mem_cons.mp h with h | h
        · exact .inl h
        · exact .inr (List.mem_cons_of_mem head h)
      · rcases List.mem_cons.mp h with h | h
        · exact .inr (h ▸ List.mem_cons_self)
        · exact (ih h).imp_right (List.mem_cons_of_mem head)

theorem SortedByKey.setField (h : SortedByKey fields) (key : String) (value : α) :
    SortedByKey (setField key value fields) := by
  induction fields with
  | nil => exact List.pairwise_singleton _ _
  | cons head rest ih =>
    obtain ⟨hhead, hrest⟩ := List.pairwise_cons.mp h
    unfold Json.setField
    split
    · next hlt =>
      refine List.pairwise_cons.mpr ⟨?_, h⟩
      intro field hfield
      rcases List.mem_cons.mp hfield with rfl | hfield
      · exact hlt
      · exact String.lt_trans hlt (hhead field hfield)
    · next hnlt =>
      split
      · next heq =>
        refine List.pairwise_cons.mpr ⟨?_, hrest⟩
        intro field hfield
        exact heq ▸ hhead field hfield
      · next hne =>
        refine List.pairwise_cons.mpr ⟨?_, ih hrest⟩
        intro field hfield
        rcases eq_or_mem_of_mem_setField hfield with rfl | hfield
        · have hle : head.1 ≤ key := String.not_lt.mp hnlt
          by_contra hnot
          exact hne (String.le_antisymm (String.not_lt.mp hnot) hle)
        · exact hhead field hfield

theorem setField_perm (hkey : key ∉ fields.map Prod.fst) :
    (setField key value fields).Perm ((key, value) :: fields) := by
  induction fields with
  | nil => exact .refl _
  | cons head rest ih =>
    rw [List.map_cons, List.mem_cons, not_or] at hkey
    obtain ⟨hne, hrest⟩ := hkey
    by_cases hlt : key < head.1
    · rw [setField, if_pos hlt]
    · rw [setField, if_neg hlt, if_neg hne]
      exact ((ih hrest).cons head).trans (.swap (key, value) head rest)

theorem sortFields_concat (fields : List (String × α)) (field : String × α) :
    sortFields (fields ++ [field]) = setField field.1 field.2 (sortFields fields) := by
  rw [sortFields, List.foldl_concat]
  rfl

theorem sortedByKey_sortFields (fields : List (String × α)) : SortedByKey (sortFields fields) := by
  induction fields using List.reverseRecOn with
  | nil => exact List.Pairwise.nil
  | append_singleton fields field ih =>
    rw [sortFields_concat]
    exact ih.setField field.1 field.2

theorem sortFields_perm (hkeys : (fields.map Prod.fst).Nodup) :
    (sortFields fields).Perm fields := by
  induction fields using List.reverseRecOn with
  | nil => exact .refl _
  | append_singleton fields field ih =>
    rw [List.map_append, List.nodup_append'] at hkeys
    obtain ⟨hbefore, -, hdisjoint⟩ := hkeys
    have hperm := ih hbefore
    have hnew : field.1 ∉ (sortFields fields).map Prod.fst := by
      intro hmem
      exact hdisjoint ((hperm.map Prod.fst).mem_iff.mp hmem) (List.mem_singleton_self field.1)
    rw [sortFields_concat]
    exact ((setField_perm hnew).trans (hperm.cons field)).trans
      (List.perm_append_singleton field fields).symm

theorem SortedByKey.eq_of_perm (h : SortedByKey fields) (hothers : SortedByKey others)
    (hperm : fields.Perm others) : fields = others := by
  refine hperm.eq_of_pairwise ?_ h hothers
  intro a b _ _ hab hba
  exact absurd (String.lt_trans hab hba) (String.lt_irrefl _)

theorem sortFields_eq_of_perm (hkeys : (fields.map Prod.fst).Nodup) (hperm : fields.Perm others) :
    sortFields fields = sortFields others := by
  have hkeys' : (others.map Prod.fst).Nodup := (hperm.map Prod.fst).nodup_iff.mp hkeys
  have hsorted : (sortFields fields).Perm (sortFields others) :=
    (sortFields_perm hkeys).trans (hperm.trans (sortFields_perm hkeys').symm)
  exact (sortedByKey_sortFields fields).eq_of_perm (sortedByKey_sortFields others) hsorted

end Ownership.Json
