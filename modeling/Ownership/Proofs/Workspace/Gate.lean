import Ownership.Proofs.Workspace.Changes

set_option autoImplicit false

/-!
# The exit code of a change

A change list is stopped by the paths that its lines mean and that no rule accepts, and by nothing
else: how the report is shown, what the catalog knows, and in which order the lines come has no
part in it.
-/
namespace Ownership

/-- The lines of a text that are not empty, without the returns at their ends. -/
def bareLines (text : String) : List (List Char) :=
  ((Text.lines text.toList).map Text.dropReturn).filter (· ≠ [])

/-- Whether two texts have the same lines, in whatever order, number and with whatever ends. -/
def SameLines (a b : String) : Prop :=
  (∀ line ∈ bareLines a, line ∈ bareLines b) ∧ ∀ line ∈ bareLines b, line ∈ bareLines a

instance (a b : String) : Decidable (SameLines a b) :=
  inferInstanceAs (Decidable (_ ∧ _))

theorem SameLines.mem_iff {a b : String} (h : SameLines a b) (line : List Char) :
    line ∈ bareLines a ↔ line ∈ bareLines b :=
  ⟨h.1 line, h.2 line⟩

namespace Workspace

def LeavesUnmapped (w : Workspace) (text : String) : Prop :=
  ∃ line ∈ Text.lines text.toList, ∃ path,
    Location.normalize (some w.root) (String.ofList line) = some path ∧
      ∀ rule ∈ w.index.rules, rule.accepts path = false

/-- What two workspaces have in common that judge changes alike. Nothing is asked of their catalogs
and their other settings. -/
structure GatesAs (v w : Workspace) : Prop where
  root : v.root = w.root
  rules : v.index.rules = w.index.rules
  failOnUnmapped : v.settings.impact.failOnUnmapped = w.settings.impact.failOnUnmapped

section Unmapped

variable {w : Workspace} {text : String}

theorem mem_changeList {path : String} :
    path ∈ w.changeList text ↔ ∃ line ∈ Text.lines text.toList,
      Location.normalize (some w.root) (String.ofList line) = some path := by
  rw [changeList_eq, List.mem_eraseDups, readPaths, List.mem_filterMap]

theorem hasUnmapped_iff :
    (w.impactOf ((Text.lines text.toList).map String.ofList)).hasUnmapped = true ↔
      w.LeavesUnmapped text := by
  rw [ImpactReport.hasUnmapped, Bool.not_eq_true', List.isEmpty_eq_false_iff_exists_mem]
  have hfiled (path : String) :
      path ∈ (w.impactOf ((Text.lines text.toList).map String.ofList)).unmapped ↔
        path ∈ w.changeList text ∧ ∀ rule ∈ w.index.rules, rule.accepts path = false := by
    rw [← Index.resolve_eq_unmapped_iff, ← Index.owner?_eq_none]
    exact Index.filed_unmapped_iff
  constructor
  · rintro ⟨path, hpath⟩
    obtain ⟨hlisted, hnone⟩ := (hfiled path).mp hpath
    obtain ⟨line, hline, hmeans⟩ := mem_changeList.mp hlisted
    exact ⟨line, hline, path, hmeans, hnone⟩
  · rintro ⟨line, hline, path, hmeans, hnone⟩
    have hlisted : path ∈ w.changeList text := mem_changeList.mpr ⟨line, hline, hmeans⟩
    exact ⟨path, (hfiled path).mpr ⟨hlisted, hnone⟩⟩

theorem leavesUnmapped_iff_bareLines :
    w.LeavesUnmapped text ↔ ∃ line ∈ bareLines text, ∃ path,
      Location.normalize (some w.root) (String.ofList line) = some path ∧
        ∀ rule ∈ w.index.rules, rule.accepts path = false := by
  constructor
  · rintro ⟨line, hline, path, hmeans, hnone⟩
    have hbare : Location.normalize (some w.root) (String.ofList (Text.dropReturn line)) =
        some path := (Location.normalize_dropReturn _ line).trans hmeans
    have hne : Text.dropReturn line ≠ [] := by
      intro hnil
      rw [hnil] at hbare
      cases (Location.normalize_empty (some w.root)).symm.trans hbare
    refine ⟨Text.dropReturn line, ?_, path, hbare, hnone⟩
    exact List.mem_filter.mpr ⟨List.mem_map_of_mem hline, decide_eq_true hne⟩
  · rintro ⟨bare, hbare, path, hmeans, hnone⟩
    obtain ⟨line, hline, rfl⟩ := List.mem_map.mp (List.mem_filter.mp hbare).1
    exact ⟨line, hline, path, (Location.normalize_dropReturn _ line).symm.trans hmeans, hnone⟩

end Unmapped

theorem leavesUnmapped_congr {v w : Workspace} {text other : String} (hgates : v.GatesAs w)
    (hsame : SameLines text other) : v.LeavesUnmapped text ↔ w.LeavesUnmapped other := by
  rw [leavesUnmapped_iff_bareLines, leavesUnmapped_iff_bareLines, hgates.root, hgates.rules]
  simp only [hsame.mem_iff]

theorem exists_impacted_lines (w : Workspace) (git : Git) (text : String) (format : ImpactFormat)
    (showFiles : Bool) : ∃ output, w.impacted git (.lines text) format showFiles =
      .ok ⟨output, if w.settings.impact.failOnUnmapped &&
        (w.impactOf ((Text.lines text.toList).map String.ofList)).hasUnmapped then 3 else 0⟩ :=
  ⟨_, rfl⟩

/-- The exit code tells whether the change has to be stopped, and depends on nothing that does not
count for this. -/
theorem impacted_exitCode (w : Workspace) (text : String) :
    (∀ git format showFiles, ∃ outcome,
      w.impacted git (.lines text) format showFiles = .ok outcome ∧
      (outcome.exitCode = 3 ↔ w.settings.impact.failOnUnmapped = true ∧ w.LeavesUnmapped text) ∧
      (outcome.exitCode ≠ 3 → outcome.exitCode = 0)) ∧
    ∀ (v : Workspace) (other : String), v.GatesAs w → SameLines other text →
      ∀ git git' format format' showFiles showFiles',
        (v.impacted git' (.lines other) format' showFiles').map Outcome.exitCode =
          (w.impacted git (.lines text) format showFiles).map Outcome.exitCode := by
  constructor
  · intro git format showFiles
    obtain ⟨output, hrun⟩ := exists_impacted_lines w git text format showFiles
    refine ⟨_, hrun, ?_⟩
    rw [← hasUnmapped_iff, ← Bool.and_eq_true]
    cases w.settings.impact.failOnUnmapped && _ with
    | false => exact ⟨iff_of_false nofun nofun, fun _ => rfl⟩
    | true => exact ⟨iff_of_true rfl rfl, fun hne => absurd rfl hne⟩
  · intro v other hgates hsame git git' format format' showFiles showFiles'
    obtain ⟨output, hrun⟩ := exists_impacted_lines w git text format showFiles
    obtain ⟨output', hrun'⟩ := exists_impacted_lines v git' other format' showFiles'
    have hunmapped := Bool.eq_iff_iff.mpr
      ((hasUnmapped_iff.trans (leavesUnmapped_congr hgates hsame)).trans hasUnmapped_iff.symm)
    rw [hrun, hrun', hgates.failOnUnmapped, hunmapped]
    rfl

def stopping : Settings :=
  { Settings.builtin with impact := { Settings.builtin.impact with failOnUnmapped := true } }

theorem impacted_exitCode_docs :
    ∃ w v text other, loadLenient docsTree "/" stopping = .ok w ∧
      text = "docs/a.md\nREADME" ∧ other = "README\r\n\ndocs/a.md\r\nREADME\n" ∧
      v = { w with
        catalog := .empty
        settings := { w.settings with impact := { w.settings.impact with maxFiles := 1 } } } ∧
      v.GatesAs w ∧ SameLines other text ∧ w.LeavesUnmapped text ∧
      (w.impacted .outside (.lines text) .text false).map Outcome.exitCode = .ok 3 ∧
      (v.impacted .outside (.lines other) .json true).map Outcome.exitCode = .ok 3 := by
  obtain ⟨w, hload, hstops⟩ := exists_loaded docsTree "/" stopping
    (fun w => (w.impacted .outside (.lines "docs/a.md\nREADME") .text false).toOption.any
      (·.exitCode == 3))
    (by decide +kernel)
  obtain ⟨outcome, hrun, hcode⟩ := exists_ok_of_any hstops
  have hexit : outcome.exitCode = 3 := beq_iff_eq.mp hcode
  obtain ⟨halways, hsame⟩ := impacted_exitCode w "docs/a.md\nREADME"
  have hunmapped : w.LeavesUnmapped "docs/a.md\nREADME" := by
    obtain ⟨outcome', hrun', hiff, -⟩ := halways .outside .text false
    obtain rfl := Except.ok.inj (hrun.symm.trans hrun')
    exact (hiff.mp hexit).2
  have hcodes : (w.impacted .outside (.lines "docs/a.md\nREADME") .text false).map
      Outcome.exitCode = .ok 3 := by
    rw [hrun, ← hexit]
    rfl
  have hlines : SameLines "README\r\n\ndocs/a.md\r\nREADME\n" "docs/a.md\nREADME" := by decide
  have hgates : GatesAs { w with
        catalog := .empty
        settings := { w.settings with impact := { w.settings.impact with maxFiles := 1 } } } w :=
    ⟨rfl, rfl, rfl⟩
  exact ⟨w, _, _, _, hload, rfl, rfl, rfl, hgates, hlines, hunmapped, hcodes,
    (hsame _ _ hgates hlines _ _ _ _ _ _).trans hcodes⟩

end Workspace

end Ownership
