import Ownership.Proofs.Location.Canonical
import Ownership.Proofs.Workspace.Changes

set_option autoImplicit false

/-!
# Paths under the root of a repository

A path that is written from the root of the file system means the same as the one that is written
from the root of the repository, as long as the latter root is given without `..`. The root is
compared part by part and never resolved, so `..` in it hides which paths are below it.
-/
namespace Ownership

namespace Location

section Root

variable {root path : String} (hroot : '\\' ∉ root.toList) (hpath : normalize none path = some path)
include hroot hpath

theorem normalize_join_resolve_iff :
    normalize (some root) (join (resolve root) path) = some path ↔
      belowRoot (some root) true (resolveSegments (pathSegments root) ++ pathSegments path) =
        pathSegments path := by
  have hcanonical := isCanonical_of_normalize hpath
  have hplain := isPlain_join hpath (isAbsolute_resolve root) (not_mem_resolve (by decide) hroot)
  have hsegments : pathSegments (join (resolve root) path) =
      resolveSegments (pathSegments root) ++ pathSegments path := by
    rw [pathSegments_join hcanonical.isAbsolute_eq_false, pathSegments_resolve]
  rw [normalize_of_isPlain hplain, isAbsolute_join (isAbsolute_resolve root), ← hsegments]
  refine hcanonical.ofSegments?_eq_some_iff ?_
  intro name hname
  exact isSegment_of_mem_pathSegments ((belowRoot_sublist _ _ _).subset hname)

/-- The root is found in front of the path if it has no `..` to resolve. If it has, then the path is
only found where nothing of the root remains and the path does not seem to lie below it. -/
theorem normalize_below_root_iff (habsolute : isAbsolute root = true) :
    normalize (some root) (join (resolve root) path) = some path ↔
      ".." ∉ pathSegments root ∨
        (resolve root = "/" ∧ ¬ pathSegments root <+: pathSegments path) := by
  rw [normalize_join_resolve_iff hroot hpath, resolve_eq_slash_iff, belowRoot,
    habsolute, Bool.true_and, Bool.true_and]
  by_cases hdots : ".." ∈ pathSegments root
  · have hshorter := length_resolveSegments_lt hdots
    rw [or_iff_right (not_not_intro hdots)]
    -- resolving took segments away, so a root that is found anyway takes some of the path's own
    split
    · next hfound =>
      have hlead := List.isPrefixOf_iff_prefix.mp hfound
      refine iff_of_false ?_ ?_
      · intro hsame
        have hlength := congrArg List.length hsame
        have hle := hlead.length_le
        rw [List.length_drop, List.length_append] at hlength
        rw [List.length_append] at hle
        omega
      · rintro ⟨hnone, hapart⟩
        rw [hnone, List.nil_append] at hlead
        exact hapart hlead
    · next hmissed =>
      rw [List.append_left_eq_self]
      refine (and_iff_left_of_imp ?_).symm
      intro hnone hlead
      rw [hnone, List.nil_append] at hmissed
      exact hmissed (List.isPrefixOf_iff_prefix.mpr hlead)
  · refine iff_of_true ?_ (.inl hdots)
    have hfound : (pathSegments root).isPrefixOf (pathSegments root ++ pathSegments path) = true :=
      List.isPrefixOf_iff_prefix.mpr (List.prefix_append _ _)
    rw [resolveSegments_eq_self hdots, if_pos hfound, List.drop_left]

end Root

section Given

variable {directory given : String} (hdirectory : isAbsolute directory = true) (git : Git)
include hdirectory

theorem isAbsolute_repositoryRoot :
    isAbsolute (repositoryRoot git (some given) directory) = true :=
  isAbsolute_join hdirectory given

omit hdirectory in
theorem dots_mem_repositoryRoot_iff (hdots : ".." ∉ pathSegments directory) :
    ".." ∈ pathSegments (repositoryRoot git (some given) directory) ↔
      ".." ∈ pathSegments given := by
  change ".." ∈ pathSegments (join directory given) ↔ _
  cases hgiven : isAbsolute given with
  | true => rw [join_of_isAbsolute hgiven]
  | false =>
    rw [pathSegments_join hgiven, List.mem_append]
    exact or_iff_right hdots

end Given

end Location

open Location

/-- Both spellings of a path mean the same under a root that is given without `..`, and then the
same service is named for both. -/
theorem Workspace.absolute_spelling_iff (git : Git) {directory given path : String}
    (hdirectory : isAbsolute directory = true) (hdots : ".." ∉ pathSegments directory)
    (hseparators : '\\' ∉ directory.toList) (hgiven : '\\' ∉ given.toList)
    (hpath : normalize none path = some path) :
    let root := repositoryRoot git (some given) directory
    (normalize (some root) (join (resolve root) path) = some path ↔
      ".." ∉ pathSegments given ∨
        (resolve root = "/" ∧ ¬ pathSegments root <+: pathSegments path)) ∧
    (normalize (some root) (join (resolve root) path) = some path →
      ∀ w : Workspace, w.root = root → ∀ explain format,
        w.whoOwns (join (resolve root) path) explain format = w.whoOwns path explain format) := by
  intro root
  have habsolute : isAbsolute root = true := isAbsolute_repositoryRoot hdirectory git
  have hroot : '\\' ∉ root.toList := not_mem_join (by decide) hseparators hgiven
  constructor
  · rw [normalize_below_root_iff hroot hpath habsolute, dots_mem_repositoryRoot_iff git hdots]
  · intro hmeans w hw explain format
    have hsame : normalize (some root) path = some path :=
      normalize_some_of_normalize_eq_self hpath root
    rw [whoOwns, whoOwns, hw, hmeans, hsame]

theorem Workspace.absolute_spelling_iff_dotted :
    isAbsolute "/w/sub" = true ∧ ".." ∉ pathSegments "/w/sub" ∧ '\\' ∉ "/w/sub".toList ∧
      '\\' ∉ "./team//docs/.".toList ∧
      normalize none "a b/it's.md" = some "a b/it's.md" ∧
      repositoryRoot .outside (some "./team//docs/.") "/w/sub" = "/w/sub/./team//docs/." ∧
      normalize (some "/w/sub/./team//docs/.") "/w/sub/team/docs/a b/it's.md" =
        some "a b/it's.md" ∧
      ∀ w : Workspace, w.root = "/w/sub/./team//docs/." → ∀ explain format,
        w.whoOwns "/w/sub/team/docs/a b/it's.md" explain format =
          w.whoOwns "a b/it's.md" explain format := by
  have hdirectory : isAbsolute "/w/sub" = true := by decide
  have hdots : ".." ∉ pathSegments "/w/sub" := by decide +kernel
  have hseparators : '\\' ∉ "/w/sub".toList := by decide
  have hgiven : '\\' ∉ "./team//docs/.".toList := by decide
  have hpath : normalize none "a b/it's.md" = some "a b/it's.md" := by decide +kernel
  have hroot : repositoryRoot .outside (some "./team//docs/.") "/w/sub" =
      "/w/sub/./team//docs/." := by
    decide +kernel
  have hspelled : join (resolve "/w/sub/./team//docs/.") "a b/it's.md" =
      "/w/sub/team/docs/a b/it's.md" := by
    decide +kernel
  have hspelling := absolute_spelling_iff .outside hdirectory hdots hseparators hgiven hpath
  simp only [hroot, hspelled] at hspelling
  have hmeans := hspelling.1.mpr (.inl (by decide +kernel))
  exact ⟨hdirectory, hdots, hseparators, hgiven, hpath, hroot, hmeans, hspelling.2 hmeans⟩

def nestedTree : Tree :=
  .directory
    [("w", .directory
      [("SERVICEOWNERS", .file "docs/** prose\n".toUTF8), ("sub", .directory [])])]

/-- From `/w/sub`, the root `..` is `/w`, but `/w/docs/a.md` is not seen to be below it. -/
theorem Workspace.absolute_spelling_lost_parent :
    isAbsolute "/w/sub" = true ∧ ".." ∉ pathSegments "/w/sub" ∧ '\\' ∉ "/w/sub".toList ∧
      '\\' ∉ "..".toList ∧ normalize none "docs/a.md" = some "docs/a.md" ∧
      repositoryRoot .outside (some "..") "/w/sub" = "/w/sub/.." ∧
      join (resolve "/w/sub/..") "docs/a.md" = "/w/docs/a.md" ∧
      normalize (some "/w/sub/..") "/w/docs/a.md" = some "w/docs/a.md" ∧
      ∃ w, load nestedTree "/w/sub/.." .builtin = .ok w ∧
        (w.ownerView? "docs/a.md" false).map (·.service) = some (some "prose") ∧
        (w.ownerView? "/w/docs/a.md" false).map (·.service) = some none := by
  obtain ⟨w, hload, hviews⟩ := exists_loaded nestedTree "/w/sub/.." .builtin
    (fun w => w.rejected = [] ∧
      (w.ownerView? "docs/a.md" false).map (·.service) = some (some "prose") ∧
      (w.ownerView? "/w/docs/a.md" false).map (·.service) = some none)
    (by decide +kernel)
  obtain ⟨hnone, hviews⟩ := of_decide_eq_true hviews
  refine ⟨by decide, by decide +kernel, by decide, by decide, by decide +kernel, by decide +kernel,
    by decide +kernel, by decide +kernel, w, ?_, hviews⟩
  exact load_eq_ok_iff_loadLenient.mpr ⟨hload, hnone⟩

end Ownership
