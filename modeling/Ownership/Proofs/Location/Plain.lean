import Ownership.Location
import Ownership.Proofs.Text.Pieces

set_option autoImplicit false

/-!
# Plain paths

Reading a path as a user may write it drops blanks, quotes, slashes and dots, and takes a backslash
for a slash. It never makes a text longer, and only a plain path stays as it is.
-/
namespace Ownership.Location

/-- No blank at either end, no pair of quotes around it, and no backslash in it. -/
structure IsPlain (path : String) : Prop where
  head : ∀ c, path.toList.head? = some c → Text.isBlank c = false
  last : ∀ c, path.toList.getLast? = some c → Text.isBlank c = false
  quotes : ∀ q inner, q = '"' ∨ q = '\'' → path.toList ≠ q :: (inner ++ [q])
  backslash : '\\' ∉ path.toList

/-! ## What is stripped -/

def strip (cs : List Char) : List Char :=
  unquote '\'' (unquote '"' (Text.trim cs))

theorem trim_sublist (cs : List Char) : (Text.trim cs).Sublist cs := by
  have hend : (Text.dropEndWhile Text.isBlank (cs.dropWhile Text.isBlank)).Sublist
      (cs.dropWhile Text.isBlank) := by
    rw [← List.reverse_sublist, Text.dropEndWhile, List.reverse_reverse]
    exact List.dropWhile_sublist _
  exact hend.trans (List.dropWhile_sublist _)

theorem unquote_sublist (q : Char) (cs : List Char) : (unquote q cs).Sublist cs := by
  cases cs with
  | nil => exact .slnil
  | cons c cs =>
    rw [unquote]
    split
    · exact (List.dropLast_sublist cs).trans (List.sublist_cons_self c cs)
    · exact .refl _

theorem strip_sublist (cs : List Char) : (strip cs).Sublist cs :=
  ((unquote_sublist _ _).trans (unquote_sublist _ _)).trans (trim_sublist cs)

theorem trim_eq_self_iff {cs : List Char} :
    Text.trim cs = cs ↔ (∀ c, cs.head? = some c → Text.isBlank c = false) ∧
      ∀ c, cs.getLast? = some c → Text.isBlank c = false := by
  rw [← Text.dropWhile_eq_self_iff_head, ← Text.dropEndWhile_eq_self_iff]
  constructor
  · intro h
    have hstart : cs.dropWhile Text.isBlank = cs := by
      refine (List.dropWhile_sublist _).eq_of_length_le ?_
      have hle : (Text.trim cs).length ≤ (cs.dropWhile Text.isBlank).length := by
        rw [Text.trim, Text.dropEndWhile, List.length_reverse]
        exact (List.dropWhile_sublist _).length_le.trans_eq List.length_reverse
      rwa [h] at hle
    refine ⟨hstart, ?_⟩
    rwa [Text.trim, hstart] at h
  · rintro ⟨hstart, hlast⟩
    rw [Text.trim, hstart, hlast]

theorem unquote_eq_self_iff {q : Char} {cs : List Char} :
    unquote q cs = cs ↔ ∀ inner, cs ≠ q :: (inner ++ [q]) := by
  cases cs with
  | nil => simp [unquote]
  | cons c cs =>
    rw [unquote]
    split
    · next hquoted =>
      obtain ⟨rfl, hlast⟩ := hquoted
      obtain ⟨inner, rfl⟩ := List.getLast?_eq_some_iff.mp hlast
      refine iff_of_false ?_ fun h => h inner rfl
      intro heq
      have hlen := congrArg List.length heq
      simp only [List.length_dropLast, List.length_append, List.length_cons] at hlen
      omega
    · next hbare =>
      refine iff_of_true rfl ?_
      rintro inner heq
      obtain ⟨rfl, rfl⟩ := List.cons.inj heq
      exact hbare ⟨rfl, List.getLast?_concat⟩

theorem strip_eq_self_iff {cs : List Char} :
    strip cs = cs ↔ Text.trim cs = cs ∧ unquote '"' cs = cs ∧ unquote '\'' cs = cs := by
  constructor
  · intro h
    have htrim : Text.trim cs = cs := by
      refine (trim_sublist cs).eq_of_length_le ?_
      have hle := ((unquote_sublist '\'' _).trans (unquote_sublist '"' (Text.trim cs))).length_le
      rwa [← strip, h] at hle
    rw [strip, htrim] at h
    have hdouble : unquote '"' cs = cs := by
      refine (unquote_sublist '"' cs).eq_of_length_le ?_
      have hle := (unquote_sublist '\'' (unquote '"' cs)).length_le
      rwa [h] at hle
    rw [hdouble] at h
    exact ⟨htrim, hdouble, h⟩
  · rintro ⟨htrim, hdouble, hsingle⟩
    rw [strip, htrim, hdouble, hsingle]

theorem isPlain_iff {path : String} :
    IsPlain path ↔ strip path.toList = path.toList ∧ '\\' ∉ path.toList := by
  rw [strip_eq_self_iff, trim_eq_self_iff, unquote_eq_self_iff, unquote_eq_self_iff]
  constructor
  · intro h
    exact ⟨⟨⟨h.head, h.last⟩, fun inner => h.quotes _ inner (.inl rfl),
      fun inner => h.quotes _ inner (.inr rfl)⟩, h.backslash⟩
  · rintro ⟨⟨⟨hhead, hlast⟩, hdouble, hsingle⟩, hbackslash⟩
    refine ⟨hhead, hlast, ?_, hbackslash⟩
    rintro q inner (rfl | rfl)
    · exact hdouble inner
    · exact hsingle inner

instance (path : String) : Decidable (IsPlain path) := decidable_of_iff _ isPlain_iff.symm

/-! ## Segments -/

structure IsSegment (name : String) : Prop where
  ne_empty : name ≠ ""
  ne_dot : name ≠ "."
  slash : '/' ∉ name.toList

instance (name : String) : Decidable (IsSegment name) :=
  decidable_of_iff (name ≠ "" ∧ name ≠ "." ∧ '/' ∉ name.toList)
    ⟨fun h => ⟨h.1, h.2.1, h.2.2⟩, fun h => ⟨h.ne_empty, h.ne_dot, h.slash⟩⟩

theorem intercalate_sublist {names kept : List (List Char)} (h : kept.Sublist names) :
    (['/'].intercalate kept).Sublist (['/'].intercalate names) := by
  induction h with
  | slnil => exact .refl _
  | @cons kept names name h ih =>
    by_cases hnames : names = []
    · subst hnames
      rw [List.sublist_nil.mp h]
      exact List.nil_sublist _
    · rw [List.intercalate_cons_of_ne_nil hnames]
      exact ih.trans (List.sublist_append_right _ _)
  | @cons_cons kept names name h ih =>
    by_cases hkept : kept = []
    · subst hkept
      rw [List.intercalate_singleton]
      by_cases hnames : names = []
      · simp only [hnames, List.intercalate_singleton, List.Sublist.refl]
      · rw [List.intercalate_cons_of_ne_nil hnames, List.append_assoc]
        exact List.sublist_append_left _ _
    · have hnames : names ≠ [] := fun hnil => hkept (List.sublist_nil.mp (hnil ▸ h))
      rw [List.intercalate_cons_of_ne_nil hkept, List.intercalate_cons_of_ne_nil hnames]
      exact (List.Sublist.refl _).append ih

theorem map_toList_pathSegments (cs : List Char) :
    (pathSegments (String.ofList cs)).map String.toList =
      (cs.splitOn '/').filter fun s => s ≠ [] && s ≠ ['.'] := by
  rw [pathSegments, String.toList_ofList, Text.splitAll_eq_splitOnP, List.map_map,
    List.splitOn_eq_splitOnP]
  have hid : String.toList ∘ String.ofList = id := funext fun _ => String.toList_ofList
  rw [hid, List.map_id]

theorem intercalate_pathSegments_sublist (cs : List Char) :
    ("/".intercalate (pathSegments (String.ofList cs))).toList.Sublist cs := by
  have hkept := intercalate_sublist (List.filter_sublist (l := cs.splitOn '/')
    (p := fun s => s ≠ [] && s ≠ ['.']))
  rw [List.intercalate_splitOn] at hkept
  rw [String.toList_intercalate, map_toList_pathSegments]
  exact hkept

theorem pathSegments_intercalate {names : List String} (hne : names ≠ [])
    (h : ∀ name ∈ names, IsSegment name) : pathSegments ("/".intercalate names) = names := by
  have hpieces : ∀ piece ∈ names.map String.toList, '/' ∉ piece := by
    intro piece hpiece
    obtain ⟨name, hname, rfl⟩ := List.mem_map.mp hpiece
    exact (h name hname).slash
  have hkept : ∀ piece ∈ names.map String.toList, (piece ≠ [] && piece ≠ ['.']) = true := by
    intro piece hpiece
    obtain ⟨name, hname, rfl⟩ := List.mem_map.mp hpiece
    have hempty : name.toList ≠ "".toList := mt String.toList_inj.mp (h name hname).ne_empty
    have hdot : name.toList ≠ ".".toList := mt String.toList_inj.mp (h name hname).ne_dot
    rw [Bool.and_eq_true, decide_eq_true_eq, decide_eq_true_eq]
    exact ⟨hempty, hdot⟩
  have hsplit := List.splitOn_intercalate '/' hpieces (by simpa using hne)
  have hmap := map_toList_pathSegments ("/".intercalate names).toList
  rw [String.ofList_toList, String.toList_intercalate] at hmap
  change _ = ((['/'].intercalate (names.map String.toList)).splitOn '/').filter _ at hmap
  rw [hsplit, List.filter_eq_self.mpr hkept] at hmap
  exact (List.map_inj_right fun _ _ => String.toList_inj.mp).mp hmap

theorem exists_pathSegments_eq {names : List String} (h : ∀ name ∈ names, IsSegment name) :
    ∃ path, pathSegments path = names := by
  by_cases hne : names = []
  · exact ⟨"", hne ▸ rfl⟩
  · exact ⟨"/".intercalate names, pathSegments_intercalate hne h⟩

/-! ## Reading a path -/

def segmentsRead (path : String) : List String :=
  pathSegments (String.ofList (Pattern.unifySlashes (strip path.toList)))

def ofSegments? (segments : List String) : Option String :=
  if segments = [] then none else some ("/".intercalate segments)

theorem ofSegments?_eq_some_iff {segments : List String} {path : String} :
    ofSegments? segments = some path ↔ segments ≠ [] ∧ "/".intercalate segments = path := by
  rw [ofSegments?]
  split
  · next hnone => exact iff_of_false nofun fun h => h.1 hnone
  · next hsome => rw [Option.some.injEq, and_iff_right hsome]

theorem normalize_eq_ofSegments? (root : Option String) (path : String) :
    normalize root path = ofSegments? (belowRoot root
      ((Pattern.unifySlashes (strip path.toList)).head? == some '/') (segmentsRead path)) := by
  unfold normalize
  dsimp only
  split
  · next hnone => exact (if_pos hnone).symm
  · next hsome => exact (if_neg hsome).symm

theorem backslash_not_mem_unifySlashes (cs : List Char) : '\\' ∉ Pattern.unifySlashes cs := by
  intro hmem
  obtain ⟨c, -, hc⟩ := List.mem_map.mp hmem
  split at hc
  · cases hc
  · next hne => exact hne hc

theorem unifySlashes_eq_self {cs : List Char} (h : '\\' ∉ cs) : Pattern.unifySlashes cs = cs := by
  have hsame : ∀ c ∈ cs, (if c = '\\' then '/' else c) = id c := by
    intro c hc
    have hne : c ≠ '\\' := fun heq => h (heq ▸ hc)
    exact if_neg hne
  rw [Pattern.unifySlashes, List.map_congr_left hsame, List.map_id]

theorem belowRoot_sublist (root : Option String) (absolute : Bool) (segments : List String) :
    (belowRoot root absolute segments).Sublist segments := by
  cases root with
  | none => exact .refl _
  | some root =>
    rw [belowRoot]
    split
    · exact List.drop_sublist _ _
    · exact .refl _

theorem exists_segments_of_normalize {root : Option String} {path found : String}
    (h : normalize root path = some found) :
    ∃ segments, segments.Sublist (segmentsRead path) ∧ segments ≠ [] ∧
      "/".intercalate segments = found := by
  rw [normalize_eq_ofSegments?] at h
  exact ⟨_, belowRoot_sublist _ _ _, ofSegments?_eq_some_iff.mp h⟩

section Normalized

variable {root : Option String} {path found : String} (h : normalize root path = some found)
include h

theorem normalize_sublist : found.toList.Sublist (Pattern.unifySlashes (strip path.toList)) := by
  obtain ⟨segments, hsegments, -, rfl⟩ := exists_segments_of_normalize h
  refine .trans ?_ (intercalate_pathSegments_sublist _)
  rw [String.toList_intercalate, String.toList_intercalate]
  exact intercalate_sublist (hsegments.map _)

theorem backslash_not_mem_normalize : '\\' ∉ found.toList :=
  fun hmem => backslash_not_mem_unifySlashes _ ((normalize_sublist h).subset hmem)

theorem length_le_strip_of_normalize : found.toList.length ≤ (strip path.toList).length :=
  (normalize_sublist h).length_le.trans_eq (List.length_map _)

theorem length_lt_of_normalize (hbackslash : '\\' ∉ path.toList) (hne : found ≠ path) :
    found.toList.length < path.toList.length := by
  have hle := (length_le_strip_of_normalize h).trans (strip_sublist path.toList).length_le
  refine lt_of_le_of_ne hle fun heq => hne ?_
  have hstrip : strip path.toList = path.toList :=
    (strip_sublist _).eq_of_length_le (heq ▸ length_le_strip_of_normalize h)
  have hkept := normalize_sublist h
  rw [hstrip, unifySlashes_eq_self hbackslash] at hkept
  exact String.toList_inj.mp (hkept.eq_of_length heq)

end Normalized

theorem isPlain_of_normalize_eq_self {root : Option String} {path : String}
    (h : normalize root path = some path) : IsPlain path :=
  isPlain_iff.mpr ⟨(strip_sublist _).eq_of_length_le (length_le_strip_of_normalize h),
    backslash_not_mem_normalize h⟩

theorem mem_normalizeAll {root : Option String} {texts : List String} {path : String} :
    path ∈ normalizeAll root texts ↔ ∃ text ∈ texts, normalize root text = some path := by
  rw [normalizeAll, List.mem_eraseDups, List.mem_filterMap]

/-- A plain path is read as it is, so only the root is left to take off. -/
theorem segmentsRead_of_isPlain {path : String} (h : IsPlain path) :
    segmentsRead path = pathSegments path := by
  obtain ⟨hstrip, hbackslash⟩ := isPlain_iff.mp h
  rw [segmentsRead, hstrip, unifySlashes_eq_self hbackslash, String.ofList_toList]

theorem normalize_of_isPlain {path : String} (h : IsPlain path) (root : Option String) :
    normalize root path = ofSegments? (belowRoot root (isAbsolute path) (pathSegments path)) := by
  obtain ⟨hstrip, hbackslash⟩ := isPlain_iff.mp h
  rw [normalize_eq_ofSegments?, segmentsRead_of_isPlain h, hstrip,
    unifySlashes_eq_self hbackslash, isAbsolute]

theorem normalize_eq_self_iff {names : List String} (hne : names ≠ [])
    (h : ∀ name ∈ names, IsSegment name) :
    normalize none ("/".intercalate names) = some ("/".intercalate names) ↔
      IsPlain ("/".intercalate names) := by
  constructor
  · exact isPlain_of_normalize_eq_self
  · intro hplain
    rw [normalize_of_isPlain hplain, pathSegments_intercalate hne h]
    exact if_neg hne

end Ownership.Location
