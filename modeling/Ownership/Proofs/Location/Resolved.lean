import Ownership.Proofs.Location.Plain

set_option autoImplicit false

/-!
# Resolved locations

Joined locations have the segments of both. Resolving a location takes a segment back for each
`..`, so that none is left; it keeps a location without `..` as it is, and makes any other shorter.
-/
namespace Ownership.Location

/-! ## Segments of a location -/

theorem pathSegments_append_slash (front back : String) :
    pathSegments (front ++ "/" ++ back) = pathSegments front ++ pathSegments back := by
  rw [pathSegments, pathSegments, pathSegments, ← List.map_append, ← List.filter_append,
    ← Text.splitAll_append_cons, String.toList_append, String.toList_append, List.append_assoc]
  rfl

theorem pathSegments_empty : pathSegments "" = [] := rfl

theorem isSegment_of_mem_pathSegments {location name : String} (h : name ∈ pathSegments location) :
    IsSegment name := by
  obtain ⟨piece, hpiece, rfl⟩ := List.mem_map.mp h
  obtain ⟨hcut, hkept⟩ := List.mem_filter.mp hpiece
  rw [Bool.and_eq_true, decide_eq_true_eq, decide_eq_true_eq] at hkept
  have hne (cs : List Char) (hcs : piece ≠ cs) : String.ofList piece ≠ String.ofList cs := by
    intro heq
    apply hcs
    rw [← String.toList_ofList (l := piece), heq, String.toList_ofList]
  refine ⟨hne [] hkept.1, hne ['.'] hkept.2, ?_⟩
  rw [String.toList_ofList]
  intro hslash
  have hseparator := (Text.mem_piece hcut hslash).2
  exact absurd (beq_self_eq_true '/') (Bool.eq_false_iff.mp hseparator)

theorem isAbsolute_intercalate {names : List String} (h : ∀ name ∈ names, IsSegment name) :
    isAbsolute ("/".intercalate names) = false := by
  cases names with
  | nil => rfl
  | cons name names =>
    have hname := h name List.mem_cons_self
    obtain ⟨c, cs, hcs⟩ :=
      List.exists_cons_of_ne_nil (mt String.toList_eq_nil_iff.mp hname.ne_empty)
    have hslash : c ≠ '/' := fun heq => hname.slash (hcs ▸ heq ▸ List.mem_cons_self)
    rw [isAbsolute, beq_eq_false_iff_ne, String.toList_intercalate, List.map_cons, hcs]
    cases names with
    | nil => exact fun heq => hslash (Option.some.inj heq)
    | cons next names => exact fun heq => hslash (Option.some.inj heq)

/-! ## Joining -/

theorem join_of_isAbsolute {base rest : String} (h : isAbsolute rest = true) :
    join base rest = rest :=
  if_pos h

theorem join_eq_append (base : String) {rest : String} (h : isAbsolute rest = false) :
    (base = "" ∧ join base rest = rest) ∨
      ∃ front, (base = front ∨ base = front ++ "/") ∧ join base rest = front ++ "/" ++ rest := by
  rw [join, h, if_neg Bool.false_ne_true]
  split
  · next hclosed =>
    rw [Bool.or_eq_true, decide_eq_true_eq, decide_eq_true_eq] at hclosed
    rcases hclosed with rfl | hslash
    · exact .inl ⟨rfl, String.empty_append⟩
    · obtain ⟨front, hfront⟩ := List.getLast?_eq_some_iff.mp hslash
      have hbase : base = String.ofList front ++ "/" := by
        rw [← String.toList_inj, hfront, String.toList_append, String.toList_ofList]
        rfl
      exact .inr ⟨String.ofList front, .inr hbase, congrArg (· ++ rest) hbase⟩
  · exact .inr ⟨base, .inl rfl, rfl⟩

theorem pathSegments_join {base rest : String} (h : isAbsolute rest = false) :
    pathSegments (join base rest) = pathSegments base ++ pathSegments rest := by
  rcases join_eq_append base h with ⟨rfl, hjoin⟩ | ⟨front, hbase, hjoin⟩
  · rw [hjoin, pathSegments_empty, List.nil_append]
  · have hsame : pathSegments base = pathSegments front := by
      rcases hbase with rfl | rfl
      · rfl
      · have hclosed := pathSegments_append_slash front ""
        rwa [String.append_empty, pathSegments_empty, List.append_nil] at hclosed
    rw [hjoin, pathSegments_append_slash, hsame]

theorem isAbsolute_append {front : String} (h : isAbsolute front = true) (back : String) :
    isAbsolute (front ++ back) = true := by
  rw [isAbsolute, beq_iff_eq] at h ⊢
  obtain ⟨cs, hcs⟩ := List.head?_eq_some_iff.mp h
  rw [String.toList_append, hcs]
  rfl

theorem isAbsolute_join {base : String} (h : isAbsolute base = true) (rest : String) :
    isAbsolute (join base rest) = true := by
  unfold join
  split
  · assumption
  · split
    · exact isAbsolute_append h rest
    · rw [String.append_assoc]
      exact isAbsolute_append h _

theorem getLast?_join (base : String) {rest : String} (h : rest ≠ "") :
    (join base rest).toList.getLast? = rest.toList.getLast? := by
  have hrest : rest.toList ≠ [] := mt String.toList_eq_nil_iff.mp h
  obtain ⟨last, hlast⟩ := Option.isSome_iff_exists.mp (List.getLast?_isSome.mpr hrest)
  have hend (front : String) : (front ++ rest).toList.getLast? = rest.toList.getLast? := by
    rw [String.toList_append, List.getLast?_append, hlast, Option.some_or]
  unfold join
  split
  · rfl
  · split <;> exact hend _

theorem not_mem_join {c : Char} (hc : c ≠ '/') {base rest : String} (hbase : c ∉ base.toList)
    (hrest : c ∉ rest.toList) : c ∉ (join base rest).toList := by
  have hslash : c ∉ "/".toList := fun hmem => hc (List.mem_singleton.mp hmem)
  unfold join
  split
  · exact hrest
  · split
    · rw [String.toList_append, List.mem_append]
      exact not_or_intro hbase hrest
    · rw [String.toList_append, String.toList_append, List.mem_append, List.mem_append]
      exact not_or_intro (not_or_intro hbase hslash) hrest

/-! ## Resolving -/

/-- The place where a segment leads. Two dots lead back, but not beyond the top. -/
def enter (place : List String) (segment : String) : List String :=
  if segment = ".." then place.dropLast else place ++ [segment]

def resolveSegments (segments : List String) : List String :=
  segments.foldl enter []

/-- The location that an absolute one stands for, read off its text alone. -/
def resolve (location : String) : String :=
  "/" ++ "/".intercalate (resolveSegments (pathSegments location))

theorem enter_sublist (place : List String) (segment : String) :
    (enter place segment).Sublist (place ++ [segment]) := by
  unfold enter
  split
  · exact (List.dropLast_sublist place).trans (List.sublist_append_left _ _)
  · exact List.Sublist.refl _

theorem foldl_enter_sublist (segments place : List String) :
    (segments.foldl enter place).Sublist (place ++ segments) := by
  induction segments generalizing place with
  | nil => exact (List.append_nil place).symm ▸ List.Sublist.refl _
  | cons segment segments ih =>
    have hstep := (enter_sublist place segment).append (List.Sublist.refl segments)
    rw [List.append_assoc] at hstep
    exact (ih _).trans hstep

theorem resolveSegments_sublist (segments : List String) :
    (resolveSegments segments).Sublist segments :=
  foldl_enter_sublist segments []

theorem dots_not_mem_foldl_enter {place : List String} (h : ".." ∉ place) (segments : List String) :
    ".." ∉ segments.foldl enter place := by
  induction segments generalizing place with
  | nil => exact h
  | cons segment segments ih =>
    refine ih ?_
    unfold enter
    split
    · exact fun hmem => h ((List.dropLast_sublist place).subset hmem)
    · next hne =>
      rw [List.mem_append, List.mem_singleton]
      exact not_or_intro h (Ne.symm hne)

theorem dots_not_mem_resolveSegments (segments : List String) :
    ".." ∉ resolveSegments segments :=
  dots_not_mem_foldl_enter List.not_mem_nil segments

theorem foldl_enter_eq_append {segments : List String} (h : ".." ∉ segments) (place : List String) :
    segments.foldl enter place = place ++ segments := by
  induction segments generalizing place with
  | nil => exact (List.append_nil place).symm
  | cons segment segments ih =>
    obtain ⟨hne, hrest⟩ := not_or.mp (mt List.mem_cons.mpr h)
    rw [List.foldl_cons, enter, if_neg (Ne.symm hne), ih hrest, List.append_assoc]
    rfl

theorem resolveSegments_eq_self {segments : List String} (h : ".." ∉ segments) :
    resolveSegments segments = segments :=
  foldl_enter_eq_append h []

theorem length_resolveSegments_lt {segments : List String} (h : ".." ∈ segments) :
    (resolveSegments segments).length < segments.length := by
  refine Nat.lt_of_not_le fun hle => ?_
  have hsame := (resolveSegments_sublist segments).eq_of_length_le hle
  have hnone := dots_not_mem_resolveSegments segments
  rw [hsame] at hnone
  exact hnone h

theorem isSegment_of_mem_resolveSegments {location name : String}
    (h : name ∈ resolveSegments (pathSegments location)) : IsSegment name :=
  isSegment_of_mem_pathSegments ((resolveSegments_sublist _).subset h)

theorem isAbsolute_resolve (location : String) : isAbsolute (resolve location) = true :=
  isAbsolute_append rfl _

theorem pathSegments_resolve (location : String) :
    pathSegments (resolve location) = resolveSegments (pathSegments location) := by
  have hslash := pathSegments_append_slash ""
    ("/".intercalate (resolveSegments (pathSegments location)))
  rw [String.empty_append, pathSegments_empty, List.nil_append] at hslash
  rw [resolve, hslash]
  by_cases hnone : resolveSegments (pathSegments location) = []
  · rw [hnone]
    rfl
  · exact pathSegments_intercalate hnone fun name => isSegment_of_mem_resolveSegments

example : pathSegments (resolve "/w//sub/.././../../x/./y") = ["x", "y"] := by decide +kernel

theorem resolve_eq_slash_iff {location : String} :
    resolve location = "/" ↔ resolveSegments (pathSegments location) = [] := by
  constructor
  · intro h
    rw [← pathSegments_resolve, h]
    rfl
  · intro h
    rw [resolve, h]
    rfl

theorem not_mem_resolve {c : Char} (hc : c ≠ '/') {location : String}
    (h : c ∉ location.toList) : c ∉ (resolve location).toList := by
  have hkept : ("/".intercalate (resolveSegments (pathSegments location))).toList.Sublist
      location.toList := by
    have hsegments := intercalate_pathSegments_sublist location.toList
    rw [String.ofList_toList, String.toList_intercalate] at hsegments
    rw [String.toList_intercalate]
    exact (intercalate_sublist ((resolveSegments_sublist _).map _)).trans hsegments
  rw [resolve, String.toList_append, List.mem_append]
  exact not_or_intro (fun hmem => hc (List.mem_singleton.mp hmem)) fun hmem => h (hkept.subset hmem)

/-! ## Paths below a root -/

theorem isPlain_join {base path : String} (hpath : normalize none path = some path)
    (habsolute : isAbsolute base = true) (hbase : '\\' ∉ base.toList) :
    IsPlain (join base path) := by
  have hplain := isPlain_of_normalize_eq_self hpath
  have hhead : (join base path).toList.head? = some '/' :=
    beq_iff_eq.mp (isAbsolute_join habsolute path)
  have hne : path ≠ "" := by
    rintro rfl
    cases hpath
  constructor
  · intro c hc
    obtain rfl := Option.some.inj (hhead.symm.trans hc)
    decide
  · rw [getLast?_join base hne]
    exact hplain.last
  · intro q inner hq heq
    rw [heq] at hhead
    obtain rfl : q = '/' := Option.some.inj hhead
    exact absurd hq (by decide)
  · exact not_mem_join (by decide) hbase hplain.backslash

end Ownership.Location
