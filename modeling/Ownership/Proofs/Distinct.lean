import Mathlib.Data.List.Induction
import Mathlib.Data.List.Nodup

set_option autoImplicit false

/-!
# First occurrences

`eraseDups` keeps each element where it first occurs. Read from the front one element at a time, a
list gives the next one a place at the end exactly when it is new. So a list of keys without repeats
stands in the order in which the keys are first met.
-/
namespace Ownership.Distinct

section Elements

variable {α : Type} [BEq α] [LawfulBEq α]

theorem eraseDups_concat_of_mem {xs : List α} {x : α} (h : x ∈ xs) :
    (xs ++ [x]).eraseDups = xs.eraseDups := by
  rw [List.eraseDups_append]
  simp [List.removeAll, h]

theorem eraseDups_concat_of_not_mem {xs : List α} {x : α} (h : x ∉ xs) :
    (xs ++ [x]).eraseDups = xs.eraseDups ++ [x] := by
  rw [List.eraseDups_append]
  simp [List.removeAll, h, List.eraseDups_cons]

theorem eraseDups_concat (xs : List α) (x : α) :
    (xs ++ [x]).eraseDups = if x ∈ xs.eraseDups then xs.eraseDups else xs.eraseDups ++ [x] := by
  split
  · next h => exact eraseDups_concat_of_mem (List.mem_eraseDups.mp h)
  · next h => exact eraseDups_concat_of_not_mem (mt List.mem_eraseDups.mpr h)

theorem nodup_eraseDups (xs : List α) : xs.eraseDups.Nodup := by
  induction xs using List.reverseRecOn with
  | nil => exact List.nodup_nil
  | append_singleton xs x ih =>
    by_cases h : x ∈ xs
    · rw [eraseDups_concat_of_mem h]
      exact ih
    · rw [eraseDups_concat_of_not_mem h]
      have hx : x ∉ xs.eraseDups := fun hmem => h (List.mem_eraseDups.mp hmem)
      refine List.Nodup.append ih (List.nodup_singleton x) ?_
      exact List.disjoint_singleton.mpr hx

theorem eraseDups_perm {xs ys : List α} (h : ∀ x, x ∈ xs ↔ x ∈ ys) :
    xs.eraseDups.Perm ys.eraseDups := by
  refine (List.perm_ext_iff_of_nodup (nodup_eraseDups xs) (nodup_eraseDups ys)).mpr ?_
  intro x
  rw [List.mem_eraseDups, List.mem_eraseDups]
  exact h x

end Elements

section Keys

variable {α β : Type} [BEq β] [LawfulBEq β] (key : α → Option β)

theorem eraseDups_filterMap_eraseDups [BEq α] [LawfulBEq α] (xs : List α) :
    (xs.eraseDups.filterMap key).eraseDups = (xs.filterMap key).eraseDups := by
  induction xs using List.reverseRecOn with
  | nil => rfl
  | append_singleton xs x ih =>
    have hmem : ∀ b, b ∈ xs.eraseDups.filterMap key ↔ b ∈ xs.filterMap key := by
      intro b
      simp only [List.mem_filterMap, List.mem_eraseDups]
    by_cases h : x ∈ xs
    · rw [eraseDups_concat_of_mem h, ih, List.filterMap_append]
      cases hkey : key x with
      | none => simp [hkey]
      | some b =>
        have hb : b ∈ xs.filterMap key := List.mem_filterMap.mpr ⟨x, h, hkey⟩
        simp [hkey, eraseDups_concat_of_mem hb]
    · rw [eraseDups_concat_of_not_mem h, List.filterMap_append, List.filterMap_append]
      cases hkey : key x with
      | none => simpa [hkey] using ih
      | some b =>
        by_cases hb : b ∈ xs.filterMap key
        · have hb' := (hmem b).mpr hb
          simpa [hkey, eraseDups_concat_of_mem hb, eraseDups_concat_of_mem hb'] using ih
        · have hb' : b ∉ xs.eraseDups.filterMap key := fun hin => hb ((hmem b).mp hin)
          simp [hkey, eraseDups_concat_of_not_mem hb, eraseDups_concat_of_not_mem hb', ih]

/-- Where a key is first met; the length of the list if it is not. -/
def firstIndex (xs : List α) (b : β) : Nat :=
  xs.findIdx fun x => key x == some b

theorem firstIndex_lt_length_iff {xs : List α} {b : β} :
    firstIndex key xs b < xs.length ↔ b ∈ xs.filterMap key := by
  rw [firstIndex, List.findIdx_lt_length, List.mem_filterMap]
  simp only [beq_iff_eq]

theorem firstIndex_append_of_mem {xs : List α} {b : β} (h : b ∈ xs.filterMap key) (ys : List α) :
    firstIndex key (xs ++ ys) b = firstIndex key xs b := by
  have hlt := (firstIndex_lt_length_iff key).mpr h
  rw [firstIndex, List.findIdx_append]
  exact if_pos hlt

theorem length_le_firstIndex_append {xs : List α} {b : β} (h : b ∉ xs.filterMap key)
    (ys : List α) : xs.length ≤ firstIndex key (xs ++ ys) b := by
  have hge : ¬ firstIndex key xs b < xs.length :=
    fun hlt => h ((firstIndex_lt_length_iff key).mp hlt)
  rw [firstIndex, List.findIdx_append]
  rw [firstIndex] at hge
  rw [if_neg hge]
  omega

theorem pairwise_firstIndex (xs : List α) :
    (xs.filterMap key).eraseDups.Pairwise fun a b =>
      firstIndex key xs a < firstIndex key xs b := by
  induction xs using List.reverseRecOn with
  | nil => exact List.Pairwise.nil
  | append_singleton xs x ih =>
    have hold : (xs.filterMap key).eraseDups.Pairwise fun a b =>
        firstIndex key (xs ++ [x]) a < firstIndex key (xs ++ [x]) b := by
      refine ih.imp_of_mem ?_
      intro a b ha hb hlt
      rw [firstIndex_append_of_mem key (List.mem_eraseDups.mp ha),
        firstIndex_append_of_mem key (List.mem_eraseDups.mp hb)]
      exact hlt
    rw [List.filterMap_append]
    cases hkey : key x with
    | none => simpa [hkey] using hold
    | some b =>
      have hlast : [x].filterMap key = [b] := by simp [hkey]
      rw [hlast]
      by_cases hb : b ∈ xs.filterMap key
      · rw [eraseDups_concat_of_mem hb]
        exact hold
      · rw [eraseDups_concat_of_not_mem hb]
        refine List.pairwise_append.mpr ⟨hold, List.pairwise_singleton _ _, ?_⟩
        intro a ha c hc
        obtain rfl := List.mem_singleton.mp hc
        have ha' : a ∈ xs.filterMap key := List.mem_eraseDups.mp ha
        have hlt := (firstIndex_lt_length_iff key).mpr ha'
        have hge := length_le_firstIndex_append key hb [x]
        rw [firstIndex_append_of_mem key ha']
        omega

end Keys

end Ownership.Distinct
