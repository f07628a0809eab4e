import Ownership.Proofs.Text.Lower
import Ownership.Codeowners

set_option autoImplicit false

/-!
# Inferred services

Whatever the pattern and the owner of a CODEOWNERS line are, the service named after them is a
word, so it fits into a column of a rules file.
-/
namespace Ownership.Codeowners

open Text

theorem nonblank_unifySlashes {cs : List Char} (h : ∀ c ∈ cs, isBlank c = false) :
    ∀ c ∈ Pattern.unifySlashes cs, isBlank c = false := by
  intro c hc
  obtain ⟨d, hd, rfl⟩ := List.mem_map.mp hc
  split
  · decide
  · exact h d hd

theorem isWord_of_serviceOfPattern? {pattern service : String} (h : IsWord pattern.toList)
    (hservice : serviceOfPattern? pattern = some service) : IsWord service.toList := by
  obtain ⟨segment, hlast, rfl⟩ := Option.map_eq_some_iff.mp hservice
  obtain ⟨hsegment, hliteral⟩ := List.mem_filter.mp (List.mem_of_getLast? hlast)
  have hne : segment ≠ [] := of_decide_eq_true (Bool.and_eq_true_iff.mp hliteral).1
  have htrim : ∀ c ∈ trim pattern.toList, isBlank c = false :=
    fun c hc => h.nonblank c (mem_of_mem_trim hc)
  rw [String.toList_ofList]
  exact IsWord.lower ⟨hne, fun c hc => nonblank_unifySlashes htrim c (mem_piece hsegment hc).1⟩

theorem mem_of_mem_dropAt {cs : List Char} {c : Char} (h : c ∈ dropAt cs) : c ∈ cs := by
  unfold dropAt at h
  split at h
  · exact List.mem_cons_of_mem _ h
  · exact h

theorem mem_of_mem_afterSlash {cs : List Char} {c : Char} (h : c ∈ afterSlash cs) : c ∈ cs := by
  unfold afterSlash at h
  split at h
  · next slash rest hrest =>
    have hc : c ∈ cs.dropWhile (· != '/') := hrest ▸ List.mem_cons_of_mem slash h
    exact List.dropWhile_subset _ hc
  · exact h

theorem isWord_of_serviceOfOwner? {owner service : String} (h : IsWord owner.toList)
    (hservice : serviceOfOwner? owner = some service) : IsWord service.toList := by
  unfold serviceOfOwner? at hservice
  dsimp only at hservice
  generalize hname : (afterSlash (dropAt (trim owner.toList))).map
    (fun c => if c = '-' then '_' else c) = name at hservice
  have hnonblank : ∀ c ∈ name, isBlank c = false := by
    intro c hc
    subst hname
    obtain ⟨d, hd, rfl⟩ := List.mem_map.mp hc
    split
    · decide
    · exact h.nonblank d (mem_of_mem_trim (mem_of_mem_dropAt (mem_of_mem_afterSlash hd)))
  split at hservice
  · cases hservice
  · next hlower =>
    rw [← Option.some.inj hservice, String.toList_ofList]
    refine IsWord.lower ⟨?_, hnonblank⟩
    rintro rfl
    exact hlower rfl

theorem isWord_fallbackService : IsWord fallbackService.toList := by
  have hnonblank : fallbackService.toList.all (fun c => !isBlank c) = true := by decide
  refine ⟨by decide, fun c hc => ?_⟩
  exact Bool.not_eq_true' (isBlank c) |>.mp (List.all_eq_true.mp hnonblank c hc)

theorem isWord_serviceOf {pattern owner : String} (hpattern : IsWord pattern.toList)
    (howner : IsWord owner.toList) : IsWord (serviceOf pattern owner).toList := by
  unfold serviceOf
  cases hp : serviceOfPattern? pattern with
  | some service => exact isWord_of_serviceOfPattern? hpattern hp
  | none =>
    cases ho : serviceOfOwner? owner with
    | some service => exact isWord_of_serviceOfOwner? howner ho
    | none => exact isWord_fallbackService

end Ownership.Codeowners
