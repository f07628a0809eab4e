import Ownership.Proofs.Index.Agreement
import Ownership.Proofs.Location.Plain
import Ownership.Proofs.Text.Pieces
import Ownership.Proofs.Workspace.Loading

set_option autoImplicit false

/-!
# One path and a change list

A text names the same repository path whether it is asked about by itself or stands in a change
list among other lines. So the answer about the one path is where the report on the change files
it.
-/
namespace Ownership

namespace Location

theorem normalize_empty (root : Option String) : normalize root "" = none := by
  cases root <;> rfl

theorem normalize_dropReturn (root : Option String) (line : List Char) :
    normalize root (String.ofList (Text.dropReturn line)) =
      normalize root (String.ofList line) := by
  simp only [normalize, String.toList_ofList, Text.trim_dropReturn]

end Location

namespace Workspace

/-! ## The lines of a change list -/

/-- The repository paths that a text of lines means, repetitions and all. -/
def readPaths (w : Workspace) (text : String) : List String :=
  (Text.lines text.toList).filterMap fun line =>
    Location.normalize (some w.root) (String.ofList line)

/-- The paths on which a text of lines is reported. -/
def changeList (w : Workspace) (text : String) : List String :=
  Location.normalizeAll (some w.root) ((Text.lines text.toList).map String.ofList)

/-- A line is dropped if no change list is different without it. -/
def Drops (w : Workspace) (line : String) : Prop :=
  ∀ before after, w.changeList (Text.joinLines (before ++ line :: after)) =
    w.changeList (Text.joinLines (before ++ after))

section Lines

variable (w : Workspace)

theorem changeList_eq (text : String) : w.changeList text = (w.readPaths text).eraseDups := by
  rw [changeList, Location.normalizeAll, List.filterMap_map, readPaths]
  rfl

theorem readPaths_eq (text : String) :
    w.readPaths text = (Text.splitAll (· == '\n') text.toList).filterMap fun line =>
      Location.normalize (some w.root) (String.ofList line) :=
  Text.filterMap_lines (Location.normalize_empty _) (Location.normalize_dropReturn _) _

theorem readPaths_line {line : String} (h : '\n' ∉ line.toList) :
    w.readPaths line = (Location.normalize (some w.root) line).toList := by
  rw [readPaths_eq, Text.splitAll_eq_singleton h, List.filterMap_cons, String.ofList_toList]
  cases Location.normalize (some w.root) line <;> rfl

theorem readPaths_joinLines (ls : List String) :
    w.readPaths (Text.joinLines ls) = ls.flatMap w.readPaths := by
  induction ls with
  | nil => rfl
  | cons line ls ih =>
    rw [List.flatMap_cons, ← ih]
    by_cases hls : ls = []
    · subst hls
      rw [Text.joinLines, String.intercalate_singleton]
      exact (List.append_nil _).symm
    · rw [readPaths_eq, Text.splitAll_joinLines_cons line hls, List.filterMap_append,
        ← readPaths_eq, ← readPaths_eq]

theorem changeList_insert {line : String} (h : '\n' ∉ line.toList) (before after : List String) :
    w.changeList (Text.joinLines (before ++ line :: after)) =
      (before.flatMap w.readPaths ++ ((Location.normalize (some w.root) line).toList ++
        after.flatMap w.readPaths)).eraseDups := by
  rw [changeList_eq, readPaths_joinLines, List.flatMap_append, List.flatMap_cons,
    readPaths_line w h]

theorem drops_iff {line : String} (h : '\n' ∉ line.toList) :
    w.Drops line ↔ Location.normalize (some w.root) line = none := by
  constructor
  · intro hdrops
    -- alone in its list, a line that means a path would be missed
    have halone := hdrops [] []
    rw [changeList_insert w h, changeList_eq, readPaths_joinLines] at halone
    cases hpath : Location.normalize (some w.root) line with
    | none => rfl
    | some path =>
      rw [hpath] at halone
      cases halone
  · intro hnone before after
    rw [changeList_insert w h, hnone, changeList_eq, readPaths_joinLines, List.flatMap_append]
    rfl

end Lines

/-! ## The answer about one path and the report on a change -/

def ownerView? (w : Workspace) (path : String) (explain : Bool) : Option OwnerView :=
  (Location.normalize (some w.root) path).map fun path =>
    .ofExplanation (w.index.explain path) w.index w.catalog explain

theorem whoOwns_eq (w : Workspace) (path : String) (explain : Bool) (format : OwnerFormat) :
    w.whoOwns path explain format = match w.ownerView? path explain with
      | none => .error (.invalidPath path)
      | some view => .ok (.ok (view.render format)) := by
  unfold whoOwns ownerView?
  cases Location.normalize (some w.root) path <;> rfl

def impactView (w : Workspace) (changes : ChangeSource) (paths : List String) (showFiles : Bool) :
    ImpactView where
  report := w.impactOf paths
  catalog := w.catalog
  diff := changes.range?
  showFiles := showFiles
  maxFiles := w.settings.impact.maxFiles

theorem impacted_eq_ok {w : Workspace} {git : Git} {changes : ChangeSource} {paths : List String}
    (h : changes.paths git w.root = .ok paths) (format : ImpactFormat) (showFiles : Bool) :
    ∃ exitCode, w.impacted git changes format showFiles =
      .ok ⟨(w.impactView changes paths showFiles).render format, exitCode⟩ := by
  rw [impacted, h]
  exact ⟨_, rfl⟩

end Workspace

/-- The change has a line, which is one of its paths as they are read, or a piece of its text. -/
inductive ChangeSource.Lists (git : Git) (root line : String) : ChangeSource → Prop where
  | read {changes : ChangeSource} {paths : List String}
      (hpaths : changes.paths git root = .ok paths) (hline : line ∈ paths) :
      Lists git root line changes
  | written (before after : List String) :
      Lists git root line (.lines (Text.joinLines (before ++ line :: after)))

/-- The report has the path of an answer in one place, the one that the answer tells. -/
structure ImpactReport.FiledAs (r : ImpactReport) (view : OwnerView) : Prop where
  once : r.listed.count view.path = 1
  owned : ∀ service, view.service = some service ↔
    ∃ s ∈ r.services, s.service = service ∧ view.path ∈ s.files
  unmapped : view.service = none ↔ view.path ∈ r.unmapped

namespace Index

variable (ix : Index) {path : String} (catalog : Catalog) (explain : Bool)

theorem service_ofExplanation :
    (OwnerView.ofExplanation (ix.explain path) ix catalog explain).service =
      ix.owner? path := by
  change (ix.explain path).result.service? = _
  rw [result_explain, owner?]

theorem filedAs_of_mem {paths : List String} (hpath : path ∈ paths) :
    (ix.impact paths).FiledAs (.ofExplanation (ix.explain path) ix catalog explain) where
  once := List.count_eq_one_of_mem (nodup_listed_impact ix paths) (mem_listed_impact.mpr hpath)
  owned service := by
    rw [service_ofExplanation]
    exact (and_iff_right hpath).symm.trans filed_under_iff.symm
  unmapped := by
    rw [service_ofExplanation]
    exact (and_iff_right hpath).symm.trans filed_unmapped_iff.symm

end Index

namespace Workspace

theorem exists_paths_of_lists {w : Workspace} {git : Git} {changes : ChangeSource}
    {line path : String} (hline : '\n' ∉ line.toList) (hlists : changes.Lists git w.root line)
    (hpath : Location.normalize (some w.root) line = some path) :
    ∃ paths, changes.paths git w.root = .ok paths ∧
      path ∈ Location.normalizeAll (some w.root) paths := by
  cases hlists with
  | @read changes paths hpaths hmem =>
    exact ⟨paths, hpaths, Location.mem_normalizeAll.mpr ⟨line, hmem, hpath⟩⟩
  | written before after =>
    refine ⟨_, rfl, ?_⟩
    change path ∈ w.changeList _
    rw [changeList_insert w hline, List.mem_eraseDups, hpath]
    exact List.mem_append_right _ List.mem_cons_self

theorem whoOwns_agrees_with_impacted (w : Workspace) {line : String} (hline : '\n' ∉ line.toList)
    (explain : Bool) (format : OwnerFormat) :
    (w.whoOwns line explain format = .error (.invalidPath line) ↔ w.Drops line) ∧
    (¬ w.Drops line → ∃ view, w.ownerView? line explain = some view ∧
      w.whoOwns line explain format = .ok (.ok (view.render format)) ∧
      ∀ git changes, changes.Lists git w.root line →
        ∃ paths, changes.paths git w.root = .ok paths ∧ (w.impactOf paths).FiledAs view ∧
          ∀ format showFiles, ∃ exitCode, w.impacted git changes format showFiles =
            .ok ⟨(w.impactView changes paths showFiles).render format, exitCode⟩) := by
  rw [drops_iff w hline, whoOwns_eq, ownerView?]
  cases hpath : Location.normalize (some w.root) line with
  | none => exact ⟨iff_of_true rfl rfl, fun hkept => absurd rfl hkept⟩
  | some path =>
    refine ⟨iff_of_false ?_ (Option.some_ne_none path), ?_⟩
    · intro hfails
      cases hfails
    · intro _
      refine ⟨_, rfl, rfl, ?_⟩
      intro git changes hlists
      obtain ⟨paths, hpaths, hmem⟩ := exists_paths_of_lists hline hlists hpath
      have hfiled := w.index.filedAs_of_mem w.catalog explain hmem
      exact ⟨paths, hpaths, hfiled, impacted_eq_ok hpaths⟩

theorem whoOwns_agrees_with_impacted_docs :
    ∃ w line view, loadLenient docsTree "/" .builtin = .ok w ∧ line = " '.\\docs//a.md'\r" ∧
      '\n' ∉ line.toList ∧ ¬ w.Drops line ∧ w.ownerView? line false = some view ∧
      (view.path, view.service) = ("docs/a.md", some "prose") ∧
      w.whoOwns line false .text = .ok (.ok (view.render .text)) ∧
      ∃ paths, (ChangeSource.lines (Text.joinLines ["README", line, "docs/a.md", ""])).paths
          .outside w.root = .ok paths ∧
        (w.impactOf paths).FiledAs view := by
  obtain ⟨w, hload, hanswer⟩ := exists_loaded docsTree "/" .builtin
    (fun w => (w.ownerView? " '.\\docs//a.md'\r" false).map (fun view =>
      (view.path, view.service)) = some ("docs/a.md", some "prose"))
    (by decide +kernel)
  obtain ⟨view, hview, hanswer⟩ := Option.map_eq_some_iff.mp (of_decide_eq_true hanswer)
  have hline : '\n' ∉ " '.\\docs//a.md'\r".toList := by decide
  have hagrees := whoOwns_agrees_with_impacted w hline false .text
  have hkept : ¬ w.Drops " '.\\docs//a.md'\r" := by
    intro hdrops
    have hfails := hagrees.1.mpr hdrops
    rw [whoOwns_eq, hview] at hfails
    cases hfails
  obtain ⟨view', hview', hok, hfiled⟩ := hagrees.2 hkept
  obtain rfl := Option.some.inj (hview.symm.trans hview')
  obtain ⟨paths, hpaths, hreport, -⟩ := hfiled .outside _ (.written ["README"] ["docs/a.md", ""])
  exact ⟨w, _, view, hload, rfl, hline, hkept, hview, hanswer, hok, paths, hpaths, hreport⟩

end Workspace

end Ownership
