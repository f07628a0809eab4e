import Ownership.Proofs.Distinct
import Ownership.Proofs.Location.Resolved

set_option autoImplicit false

/-!
# Canonical paths

Whatever text a path is read from, it is canonical: it is told by its segments, and so one path has
one text. Read a second time it stays as it is if and only if it is plain, since blanks and quotes
at its ends may have stood behind a slash or inside of other quotes before.
-/
namespace Ownership.Location

/-- The text is that of its segments, of which there is one at least. -/
structure IsCanonical (path : String) : Prop where
  segments : pathSegments path ≠ []
  joined : "/".intercalate (pathSegments path) = path
  backslash : '\\' ∉ path.toList

namespace IsCanonical

variable {path other : String} (h : IsCanonical path)
include h

theorem eq_of_pathSegments (hother : IsCanonical other)
    (hsame : pathSegments path = pathSegments other) : path = other := by
  rw [← h.joined, ← hother.joined, hsame]

theorem ne_empty : path ≠ "" := by
  rintro rfl
  exact h.segments pathSegments_empty

theorem isAbsolute_eq_false : isAbsolute path = false := by
  rw [← h.joined]
  exact isAbsolute_intercalate fun name => isSegment_of_mem_pathSegments

theorem normalize_eq_self_iff (root : Option String) :
    normalize root path = some path ↔ IsPlain path := by
  constructor
  · exact isPlain_of_normalize_eq_self
  · intro hplain
    have hroot : belowRoot root false (pathSegments path) = pathSegments path := by
      cases root <;> rfl
    rw [normalize_of_isPlain hplain, h.isAbsolute_eq_false, hroot, Location.ofSegments?_eq_some_iff]
    exact ⟨h.segments, h.joined⟩

theorem ofSegments?_eq_some_iff {segments : List String}
    (hsegments : ∀ name ∈ segments, IsSegment name) :
    ofSegments? segments = some path ↔ segments = pathSegments path := by
  rw [Location.ofSegments?_eq_some_iff]
  constructor
  · rintro ⟨hsome, rfl⟩
    rw [pathSegments_intercalate hsome hsegments]
  · rintro rfl
    exact ⟨h.segments, h.joined⟩

end IsCanonical

theorem isCanonical_of_normalize {root : Option String} {path found : String}
    (h : normalize root path = some found) : IsCanonical found := by
  obtain ⟨segments, hkept, hne, hjoined⟩ := exists_segments_of_normalize h
  have hsegments : pathSegments found = segments := by
    rw [← hjoined]
    exact pathSegments_intercalate hne fun name hname =>
      isSegment_of_mem_pathSegments (hkept.subset hname)
  exact ⟨hsegments ▸ hne, hsegments ▸ hjoined, backslash_not_mem_normalize h⟩

theorem normalize_some_of_normalize_eq_self {path : String} (h : normalize none path = some path)
    (root : String) : normalize (some root) path = some path :=
  ((isCanonical_of_normalize h).normalize_eq_self_iff root).mpr (isPlain_of_normalize_eq_self h)

/-! ## Reading again -/

/-- What was read is left as it is by a second reading exactly if it is plain. If it is not, then
the second reading takes something off. -/
theorem normalize_again_iff {root : Option String} {path found : String}
    (h : normalize root path = some found) (again : Option String) :
    (normalize again found = some found ↔ IsPlain found) ∧
      ∀ next, normalize again found = some next → next ≠ found →
        next.toList.length < found.toList.length := by
  have hcanonical := isCanonical_of_normalize h
  refine ⟨hcanonical.normalize_eq_self_iff again, ?_⟩
  intro next hnext
  exact length_lt_of_normalize hnext hcanonical.backslash

theorem normalize_again_iff_below :
    normalize (some "/w") " '/w/./w\\it's//a b.md' " = some "w/it's/a b.md" ∧
      IsPlain "w/it's/a b.md" ∧
      normalize (some "/w") "w/it's/a b.md" = some "w/it's/a b.md" ∧
      normalize none "w/it's/a b.md" = some "w/it's/a b.md" := by
  have hread : normalize (some "/w") " '/w/./w\\it's//a b.md' " = some "w/it's/a b.md" := by
    decide +kernel
  have hplain : IsPlain "w/it's/a b.md" := by decide +kernel
  exact ⟨hread, hplain, (normalize_again_iff hread _).1.mpr hplain,
    (normalize_again_iff hread _).1.mpr hplain⟩

/-- Double quotes inside of single ones are met when it is too late for them, and so is a blank
behind a slash. -/
theorem normalize_again_ne_quoted :
    normalize none "'\"a\"'" = some "\"a\"" ∧ normalize none "\"a\"" = some "a" ∧
      normalize none "/ a" = some " a" ∧ normalize none " a" = some "a" := by
  decide +kernel

/-! ## Lists of paths -/

/-- The paths that some texts mean, each where the first of its texts stands, and no two of them
with the same segments. -/
structure ListsOnce (root : Option String) (texts paths : List String) : Prop where
  mem_iff : ∀ path, path ∈ paths ↔ ∃ text ∈ texts, normalize root text = some path
  distinct : paths.Nodup
  in_order : paths.Pairwise fun earlier later =>
    texts.findIdx (fun text => normalize root text == some earlier) <
      texts.findIdx fun text => normalize root text == some later
  backslash : ∀ path ∈ paths, '\\' ∉ path.toList
  joined : ∀ path ∈ paths, path = "/".intercalate (pathSegments path)
  nonempty : ∀ path ∈ paths, path ≠ "" ∧ pathSegments path ≠ []
  segments_distinct : (paths.map pathSegments).Nodup

theorem isCanonical_of_mem_normalizeAll {root : Option String} {texts : List String} {path : String}
    (h : path ∈ normalizeAll root texts) : IsCanonical path := by
  obtain ⟨text, -, hread⟩ := mem_normalizeAll.mp h
  exact isCanonical_of_normalize hread

/-- Paths that are told apart by their texts are told apart by their segments. -/
theorem normalizeAll_listsOnce (root : Option String) (texts : List String) :
    ListsOnce root texts (normalizeAll root texts) where
  mem_iff path := mem_normalizeAll
  distinct := Distinct.nodup_eraseDups _
  in_order := Distinct.pairwise_firstIndex (normalize root) texts
  backslash path hpath := (isCanonical_of_mem_normalizeAll hpath).backslash
  joined path hpath := (isCanonical_of_mem_normalizeAll hpath).joined.symm
  nonempty path hpath :=
    have hcanonical := isCanonical_of_mem_normalizeAll hpath
    ⟨hcanonical.ne_empty, hcanonical.segments⟩
  segments_distinct := by
    refine List.Nodup.map_on ?_ (Distinct.nodup_eraseDups _)
    intro path hpath other hother hsame
    exact (isCanonical_of_mem_normalizeAll hpath).eq_of_pathSegments
      (isCanonical_of_mem_normalizeAll hother) hsame

example : normalizeAll (some "/w") ["./b", "/w//a", "", "'b'", "a\\.", "/w"] = ["b", "a"] := by
  decide +kernel

end Ownership.Location
