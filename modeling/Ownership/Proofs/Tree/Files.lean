import Ownership.Listing
import Ownership.Proofs.Json.Merge
import Ownership.Proofs.Location.Resolved
import Ownership.Proofs.Sorting
import Ownership.Proofs.Tree.Places

set_option autoImplicit false

/-!
# The files of a tree

Outside of version control the files of a repository are found by a walk through its tree, and their
paths are read like paths that a user writes. So the list has every file under its own path exactly
when all these paths are plain.
-/
namespace Ownership.Tree

/-- Every directory has its entries sorted by name, and every name can stand in a path. -/
inductive WellFormed : Tree → Prop where
  | file (content : ByteArray) : WellFormed (.file content)
  | directory {entries : List (String × Tree)} (hsorted : Json.SortedByKey entries)
      (hnames : ∀ entry ∈ entries, Location.IsSegment entry.1)
      (hinner : ∀ entry ∈ entries, WellFormed entry.2) : WellFormed (.directory entries)

/-- Whether a path leads to a regular file without passing through anything named `.git`. -/
def HasFile (t : Tree) (path : String) : Prop :=
  ∃ names content, t.at? names = some (.file content) ∧ ".git" ∉ names ∧
    path = "/".intercalate names

/-! ## The walk -/

theorem mem_filesOfEntries_iff {entries : List (String × Tree)} {names : List String} :
    names ∈ filesOfEntries entries ↔
      ∃ entry ∈ entries, entry.1 ≠ ".git" ∧ ∃ below ∈ entry.2.files, names = entry.1 :: below := by
  induction entries with
  | nil => simp [filesOfEntries]
  | cons entry entries ih =>
    obtain ⟨name, inner⟩ := entry
    rw [filesOfEntries, List.mem_append, ih]
    simp only [List.mem_cons, exists_eq_or_imp]
    refine or_congr_left ?_
    split
    · next hgit => simp [hgit]
    · next hgit => simp [hgit, eq_comm]

theorem at?_directory_cons {entries : List (String × Tree)} (name : String) (names : List String) :
    (directory entries).at? (name :: names) =
      (Json.getField? name entries).bind (·.at? names) :=
  at?_cons _ _ _

/-- The walk finds the regular files, each by the names that lead to it. -/
theorem mem_files_iff {t : Tree} (h : t.WellFormed) {names : List String} :
    names ∈ t.files ↔ (∃ content, t.at? names = some (.file content)) ∧ ".git" ∉ names := by
  induction h generalizing names with
  | file content =>
    cases names with
    | nil => simp [files, at?]
    | cons name names => simp [files, at?, child?]
  | @directory entries hsorted hnames hinner ih =>
    rw [files, mem_filesOfEntries_iff]
    cases names with
    | nil => simp [at?]
    | cons name names =>
      rw [at?_directory_cons, List.mem_cons, not_or]
      constructor
      · rintro ⟨entry, hentry, hgit, below, hbelow, heq⟩
        obtain ⟨rfl, rfl⟩ := List.cons.inj heq
        obtain ⟨⟨content, hfile⟩, hbelowGit⟩ := (ih entry hentry).mp hbelow
        have hfound := (Json.getField?_eq_some_iff hsorted.nodup).mpr hentry
        exact ⟨⟨content, by rw [hfound]; exact hfile⟩, Ne.symm hgit, hbelowGit⟩
      · rintro ⟨⟨content, hfile⟩, hgit, hbelowGit⟩
        obtain ⟨inner, hfound, hrest⟩ := Option.bind_eq_some_iff.mp hfile
        have hentry := Json.mem_of_getField? hfound
        exact ⟨_, hentry, Ne.symm hgit, names, (ih _ hentry).mpr ⟨⟨content, hrest⟩, hbelowGit⟩, rfl⟩

theorem isSegment_of_at? {t found : Tree} (h : t.WellFormed) {names : List String}
    (hfound : t.at? names = some found) : ∀ name ∈ names, Location.IsSegment name := by
  induction h generalizing names with
  | file content =>
    cases names with
    | nil => simp
    | cons name names => cases hfound
  | @directory entries hsorted hnames hinner ih =>
    cases names with
    | nil => simp
    | cons name names =>
      rw [at?_directory_cons] at hfound
      obtain ⟨inner, hname, hrest⟩ := Option.bind_eq_some_iff.mp hfound
      have hentry := Json.mem_of_getField? hname
      exact List.forall_mem_cons.mpr ⟨hnames _ hentry, ih _ hentry hrest⟩

theorem mem_map_files_iff {t : Tree} (h : t.WellFormed) {path : String} :
    path ∈ t.files.map ("/".intercalate ·) ↔ t.HasFile path := by
  rw [List.mem_map]
  constructor
  · rintro ⟨names, hnames, rfl⟩
    obtain ⟨⟨content, hfile⟩, hgit⟩ := (mem_files_iff h).mp hnames
    exact ⟨names, content, hfile, hgit, rfl⟩
  · rintro ⟨names, content, hfile, hgit, rfl⟩
    exact ⟨names, (mem_files_iff h).mpr ⟨⟨content, hfile⟩, hgit⟩, rfl⟩

theorem HasFile.normalize_eq_self_iff {entries : List (String × Tree)}
    (h : (directory entries).WellFormed) {path : String}
    (hpath : (directory entries).HasFile path) :
    Location.normalize none path = some path ↔ Location.IsPlain path := by
  obtain ⟨names, content, hfile, -, rfl⟩ := hpath
  refine Location.normalize_eq_self_iff ?_ (isSegment_of_at? h hfile)
  rintro rfl
  cases hfile

/-! ## Where the walk takes place -/

theorem parts_append_slash (front back : String) :
    parts (front ++ "/" ++ back) = parts front ++ parts back := by
  rw [parts, parts, parts, ← List.map_append, ← Text.splitAll_append_cons, String.toList_append,
    String.toList_append, List.append_assoc]
  rfl

theorem parts_name {name : String} (h : '/' ∉ name.toList) : parts name = [name] := by
  rw [parts, Text.splitAll_eq_singleton h, List.map_singleton, String.ofList_toList]

theorem locateFrom_empty {t : Tree} {place reached : List String}
    (h : t.locateFrom place [""] = .ok reached) : reached = place := by
  rw [locateFrom] at h
  cases hfound : t.at? place with
  | none =>
    rw [hfound] at h
    cases h
  | some found =>
    rw [hfound] at h
    cases found with
    | file content => cases h
    | directory entries =>
      dsimp only at h
      rw [if_pos (.inl rfl), locateFrom] at h
      exact (Except.ok.inj h).symm

theorem locateFrom_join {t : Tree} {root name : String} {place : List String}
    (hname : '/' ∉ name.toList) (h : t.locateFrom [] (parts root) = .ok place) :
    t.locateFrom [] (parts (Location.join root name)) = t.locateFrom place [name] := by
  have hrelative : Location.isAbsolute name = false := by
    rw [Location.isAbsolute, beq_eq_false_iff_ne]
    exact fun hhead => hname (List.mem_of_head? hhead)
  rcases Location.join_eq_append root hrelative with ⟨rfl, hjoin⟩ | ⟨front, rfl | rfl, hjoin⟩
  · rw [hjoin, locateFrom_empty h, parts_name hname]
  · rw [hjoin, parts_append_slash, parts_name hname, locateFrom_append, h]
    rfl
  · have hparts : parts (front ++ "/") = parts front ++ [""] := by
      have hempty : parts "" = [""] := parts_name (by decide)
      rw [← hempty, ← parts_append_slash, String.append_empty]
    rw [hparts, locateFrom_append] at h
    obtain ⟨reached, hreached, hrest⟩ := bind_eq_ok_iff.mp h
    rw [hjoin, parts_append_slash, parts_name hname, locateFrom_append, hreached,
      locateFrom_empty hrest]
    rfl

theorem exists_place_of_find {t found : Tree} {location : String}
    (h : t.find location = .ok found) :
    ∃ place, '\x00' ∉ location.toList ∧ t.locateFrom [] (parts location) = .ok place ∧
      t.at? place = some found := by
  obtain ⟨place, hplace, hrest⟩ := bind_eq_ok_iff.mp h
  rw [locate] at hplace
  split at hplace
  · cases hplace
  · next hnul =>
    refine ⟨place, hnul, hplace, ?_⟩
    split at hrest
    · next hfound =>
      rw [hfound]
      exact congrArg some (Except.ok.inj hrest)
    · cases hrest

theorem occupied_join_eq_false {t : Tree} {root name : String} {entries : List (String × Tree)}
    (hroot : t.find root = .ok (.directory entries)) (hname : Location.IsSegment name)
    (hdots : name ≠ "..") (hnone : Json.getField? name entries = none) :
    t.occupied (Location.join root name) = false := by
  obtain ⟨place, -, hplace, hfound⟩ := exists_place_of_find hroot
  have hmissing : t.locateFrom place [name] = .error .missing := by
    rw [locateFrom, hfound]
    dsimp only
    rw [if_neg (by simp [hname.ne_empty, hname.ne_dot]), if_neg hdots, hnone]
    rfl
  rw [occupied, find, locate]
  split
  · rfl
  · rw [locateFrom_join hname.slash hplace, hmissing]
    rfl

/-! ## The list -/

section Listing

variable {t : Tree} {root : String} {entries : List (String × Tree)}

theorem listing_eq (hroot : t.find root = .ok (.directory entries))
    (hgit : Json.getField? ".git" entries = none) (git : Git) :
    t.listing git root = .ok (sortPaths (((directory entries).files.map
      ("/".intercalate ·)).filterMap (Location.normalize none))).eraseReps := by
  have hname : Location.IsSegment ".git" := ⟨by decide, by decide, by decide⟩
  rw [listing, occupied_join_eq_false hroot hname (by decide) hgit, filesBelow, hroot]
  rfl

theorem exists_longest (paths : List String) :
    ∃ bound, ∀ path ∈ paths, path.toList.length ≤ bound := by
  induction paths with
  | nil => exact ⟨0, List.forall_mem_nil _⟩
  | cons path paths ih =>
    obtain ⟨bound, hbound⟩ := ih
    refine ⟨max path.toList.length bound, List.forall_mem_cons.mpr ⟨Nat.le_max_left _ _, ?_⟩⟩
    intro other hother
    exact (hbound other hother).trans (Nat.le_max_right _ _)

/-- If reading gives back all of finitely many paths, it leaves each as it is: one that it changed
would be what a longer one of them is read to, and so on without end. -/
theorem normalize_eq_self_of_onto {paths : List String}
    (honto : ∀ path ∈ paths, ∃ file ∈ paths, Location.normalize none file = some path) :
    ∀ path ∈ paths, Location.normalize none path = some path := by
  intro path hpath
  by_contra hchanged
  have hlonger : ∀ n, ∃ file ∈ paths, Location.normalize none file ≠ some file ∧
      n ≤ file.toList.length := by
    intro n
    induction n with
    | zero => exact ⟨path, hpath, hchanged, Nat.zero_le _⟩
    | succ n ih =>
      obtain ⟨file, hfile, hother, hle⟩ := ih
      obtain ⟨longer, hmem, hread⟩ := honto file hfile
      obtain ⟨source, -, hsource⟩ := honto longer hmem
      have hne : file ≠ longer := by
        rintro rfl
        exact hother hread
      have hlt := Location.length_lt_of_normalize hread
        (Location.backslash_not_mem_normalize hsource) hne
      refine ⟨longer, hmem, ?_, Nat.succ_le_of_lt (lt_of_le_of_lt hle hlt)⟩
      intro hself
      exact hne (Option.some.inj (hread.symm.trans hself))
  obtain ⟨bound, hbound⟩ := exists_longest paths
  obtain ⟨file, hfile, -, hle⟩ := hlonger (bound + 1)
  exact Nat.not_succ_le_self bound (hle.trans (hbound file hfile))

/-- Without version control the list has, in strict order, what the paths of the files are read to.
These are the paths of the files if and only if every one of them is plain. -/
theorem listing_is_exact_iff_plain (hroot : t.find root = .ok (.directory entries))
    (hgit : Json.getField? ".git" entries = none) (hformed : (directory entries).WellFormed)
    (git : Git) :
    ∃ paths, t.listing git root = .ok paths ∧ paths.Pairwise (· < ·) ∧
      (∀ path, path ∈ paths ↔
        ∃ file, (directory entries).HasFile file ∧ Location.normalize none file = some path) ∧
      ((∀ path, path ∈ paths ↔ (directory entries).HasFile path) ↔
        ∀ path, (directory entries).HasFile path → Location.IsPlain path) := by
  have hmem : ∀ path, path ∈ (sortPaths (((directory entries).files.map
      ("/".intercalate ·)).filterMap (Location.normalize none))).eraseReps ↔
      ∃ file, (directory entries).HasFile file ∧ Location.normalize none file = some path := by
    intro path
    simp only [mem_eraseReps, mem_sortPaths, List.mem_filterMap, mem_map_files_iff hformed]
  refine ⟨_, listing_eq hroot hgit git, pairwise_eraseReps (pairwise_sortPaths _), hmem, ?_⟩
  simp only [hmem]
  constructor
  · intro hexact path hpath
    have honto : ∀ path ∈ (directory entries).files.map ("/".intercalate ·),
        ∃ file ∈ (directory entries).files.map ("/".intercalate ·),
          Location.normalize none file = some path := by
      simp only [mem_map_files_iff hformed]
      exact fun path => (hexact path).mpr
    have hself := normalize_eq_self_of_onto honto path ((mem_map_files_iff hformed).mpr hpath)
    exact (HasFile.normalize_eq_self_iff hformed hpath).mp hself
  · intro hplain path
    have hself : ∀ file, (directory entries).HasFile file →
        Location.normalize none file = some file := fun file hfile =>
      (HasFile.normalize_eq_self_iff hformed hfile).mpr (hplain file hfile)
    constructor
    · rintro ⟨file, hfile, hread⟩
      rw [hself file hfile] at hread
      exact Option.some.inj hread ▸ hfile
    · intro hpath
      exact ⟨path, hpath, hself path hpath⟩

end Listing

def sourceEntries : List (String × Tree) :=
  [("README.md", .file .empty), ("src", .directory [("it's.rs", .file .empty)])]

theorem listing_is_exact_iff_plain_source :
    ∃ paths, (directory sourceEntries).listing .outside "/" = .ok paths ∧
      ∀ path, path ∈ paths ↔ (directory sourceEntries).HasFile path := by
  have hformed : (directory sourceEntries).WellFormed := by
    have hsorted : Json.SortedByKey sourceEntries :=
      List.pairwise_map.mp (by decide : ["README.md", "src"].Pairwise (· < ·))
    refine .directory hsorted (by decide) ?_
    refine List.forall_mem_cons.mpr ⟨.file _, List.forall_mem_singleton.mpr ?_⟩
    exact .directory (List.pairwise_singleton _ _) (by decide)
      (List.forall_mem_singleton.mpr (.file _))
  have hroot : (directory sourceEntries).find "/" = .ok (directory sourceEntries) := rfl
  obtain ⟨paths, hpaths, -, -, hexact⟩ := listing_is_exact_iff_plain hroot rfl hformed .outside
  refine ⟨paths, hpaths, hexact.mpr ?_⟩
  intro path hpath
  have hfiles : (directory sourceEntries).files.map ("/".intercalate ·) =
      ["README.md", "src/it's.rs"] := by decide +kernel
  have hplain : ∀ path ∈ ["README.md", "src/it's.rs"], Location.IsPlain path := by decide +kernel
  rw [← mem_map_files_iff hformed, hfiles] at hpath
  exact hplain path hpath

def blankEntries : List (String × Tree) :=
  [(" a", .file .empty)]

/-- A file whose name begins with a blank is listed as one that is not there. -/
theorem listing_not_exact_blank :
    (directory blankEntries).WellFormed ∧
      (directory blankEntries).listing .outside "/" = .ok ["a"] ∧
      (directory blankEntries).HasFile " a" ∧ ¬ (directory blankEntries).HasFile "a" := by
  have hformed : (directory blankEntries).WellFormed :=
    .directory (List.pairwise_singleton _ _) (by decide) (List.forall_mem_singleton.mpr (.file _))
  have hfiles : (directory blankEntries).files.map ("/".intercalate ·) = [" a"] := by
    decide +kernel
  refine ⟨hformed, by decide +kernel, ?_, ?_⟩
  · rw [← mem_map_files_iff hformed, hfiles]
    decide
  · rw [← mem_map_files_iff hformed, hfiles]
    decide

end Ownership.Tree
