import Ownership.Proofs.Impact.Order
import Ownership.Proofs.Json.Merge
import Ownership.Proofs.Lint.Options

set_option autoImplicit false

/-!
# Files of several services

Lint looks through a listing for the files that rules of several services accept, and the report on
a change keeps the services of every path that several rules accept. Both tell the same: lint counts
the files that the report on the whole listing has under two services or more, and shows the first
of them.
-/
namespace Ownership

namespace ImpactReport

def overlap? (r : ImpactReport) (path : String) : Option (List String) :=
  Json.getField? path r.overlaps

def isDivided (r : ImpactReport) (path : String) : Bool :=
  (r.overlap? path).any fun services => 1 < services.toFinset.card

/-- The divided files of a listing, in its order, each with the services that the report has. -/
def divided (r : ImpactReport) (files : List String) : List (String × List String) :=
  (files.filter r.isDivided).map fun file => (file, (r.overlap? file).getD [])

end ImpactReport

/-! ## Services of a path -/

namespace Index

variable {ix : Index} {paths : List String} {path : String}

theorem overlap?_impact_eq_some {services : List String} :
    (ix.impact paths).overlap? path = some services ↔
      path ∈ paths ∧ 1 < services.length ∧ services = ix.accepterNames path := by
  rw [ImpactReport.overlap?, overlaps_impact,
    Json.getField?_sortFields (ix.nodup_keys_contested paths), List.mem_map]
  simp only [contested, List.mem_filter, List.mem_eraseDups, decide_eq_true_eq, Prod.mk.injEq]
  constructor
  · rintro ⟨other, ⟨hother, hseveral⟩, rfl, rfl⟩
    exact ⟨hother, hseveral, rfl⟩
  · rintro ⟨hpath, hseveral, rfl⟩
    exact ⟨path, ⟨hpath, hseveral⟩, rfl, rfl⟩

theorem isDivided_impact (hpath : path ∈ paths) :
    (ix.impact paths).isDivided path = true ↔ 1 < (ix.accepterNames path).toFinset.card := by
  rw [ImpactReport.isDivided, Option.any_eq_true]
  constructor
  · rintro ⟨services, hfound, hdivided⟩
    obtain ⟨-, -, rfl⟩ := overlap?_impact_eq_some.mp hfound
    exact of_decide_eq_true hdivided
  · intro hdivided
    have hseveral := hdivided.trans_le (List.toFinset_card_le _)
    exact ⟨_, overlap?_impact_eq_some.mpr ⟨hpath, hseveral, rfl⟩, decide_eq_true hdivided⟩

theorem overlap?_of_isDivided (h : (ix.impact paths).isDivided path = true) :
    (ix.impact paths).overlap? path = some (ix.accepterNames path) := by
  rw [ImpactReport.isDivided, Option.any_eq_true] at h
  obtain ⟨services, hfound, -⟩ := h
  rw [hfound, (overlap?_impact_eq_some.mp hfound).2.2]

end Index

namespace Lint

variable {ix : Index} {files : List String}

/-- The two ways to see that a file has several services agree, file by file. -/
theorem contestedFiles_eq : contestedFiles ix files = (ix.impact files).divided files := by
  have hsame : ∀ file ∈ files, decide (1 < (ix.accepterNames file).toFinset.card) =
      (ix.impact files).isDivided file := by
    intro file hfile
    rw [Bool.eq_iff_iff, decide_eq_true_eq]
    exact (ix.isDivided_impact hfile).symm
  rw [contestedFiles, ImpactReport.divided, List.filter_congr hsame]
  refine List.map_congr_left ?_
  intro file hfile
  rw [Index.overlap?_of_isDivided (List.mem_filter.mp hfile).2]
  rfl

/-! ## The one finding -/

def overlapMessage (count : Nat) (examples : List (String × List String)) : String :=
  toString count ++ " file(s) match rules of more than one service (last match wins). Examples: " ++
    "; ".intercalate (examples.map fun (file, services) =>
      file ++ " -> " ++ ", ".intercalate services)

def overlapHint : String :=
  "Often fine. If it is confusing, tighten globs or add comments."

theorem checkOverlappingFiles_eq (ix : Index) (files : List String) :
    checkOverlappingFiles ix (some files) =
      if (ix.impact files).divided files = [] then []
      else [.general .overlappingFiles
        (overlapMessage ((ix.impact files).divided files).length
          (((ix.impact files).divided files).take 25)) (some overlapHint)] := by
  simp only [checkOverlappingFiles, Option.getD_some, foldl_visit, contestedFiles_eq,
    List.length_eq_zero_iff]
  rfl

end Lint

namespace ImpactReport

variable {r : ImpactReport} {files : List String}

theorem divided_eq_nil_iff : r.divided files = [] ↔ ¬ ∃ file ∈ files, r.isDivided file = true := by
  rw [divided, List.map_eq_nil_iff, List.filter_eq_nil_iff]
  simp only [not_exists, not_and]

theorem length_divided (h : files.Nodup) :
    (r.divided files).length = (files.toFinset.filter (r.isDivided · = true)).card := by
  rw [divided, List.length_map, ← List.toFinset_filter,
    List.toFinset_card_of_nodup (h.filter _)]

end ImpactReport

/-- The report of a lint run and the report on a listing tell the same about the files of several
services. -/
structure LintReport.AgreesOnOverlaps (l : LintReport) (r : ImpactReport) (files : List String) :
    Prop where
  at_most_one : (l.findings.filter (·.kind == .overlappingFiles)).length ≤ 1
  present_iff : (∃ f ∈ l.findings, f.kind = .overlappingFiles) ↔
    ∃ file ∈ files, ∃ services, Json.getField? file r.overlaps = some services ∧
      1 < services.toFinset.card
  message : ∀ f ∈ l.findings, f.kind = .overlappingFiles → f.message = Lint.overlapMessage
    (files.toFinset.filter (r.isDivided · = true)).card ((r.divided files).take 25)

namespace Index

variable (ix : Index) {input : LintInput} {files : List String}

theorem filter_lint_overlappingFiles (hoverlaps : input.options.checkOverlaps = true)
    (hfiles : input.files = some files) :
    (ix.lint input).findings.filter (·.kind == .overlappingFiles) =
      Lint.checkOverlappingFiles ix (some files) := by
  have hcheck : Lint.checkFor .overlappingFiles input ix =
      Lint.checkOverlappingFiles ix (some files) := by
    rw [Lint.checkFor, if_pos hoverlaps, hfiles]
  rw [filter_kind_lint, hcheck, Lint.checkOverlappingFiles_eq]
  split
  · rfl
  · cases input.options.strict <;> rfl

/-- With the rules compared and a listing at hand, lint says about the files of several services
what the report on the listing says. -/
theorem lint_agrees_on_overlaps (hoverlaps : input.options.checkOverlaps = true)
    (hfiles : input.files = some files) (hdistinct : files.Nodup) :
    (ix.lint input).AgreesOnOverlaps (ix.impact files) files := by
  have hfound := ix.filter_lint_overlappingFiles hoverlaps hfiles
  rw [Lint.checkOverlappingFiles_eq] at hfound
  have hmem (f : Finding) : f ∈ (ix.lint input).findings ∧ f.kind = .overlappingFiles ↔
      f ∈ (ix.lint input).findings.filter (·.kind == .overlappingFiles) := by
    rw [List.mem_filter, beq_iff_eq]
  constructor
  · rw [hfound]
    split
    · exact Nat.zero_le 1
    · exact Nat.le_refl 1
  · have hdivided : (∃ file ∈ files, (ix.impact files).isDivided file = true) ↔
        ∃ file ∈ files, ∃ services,
          Json.getField? file (ix.impact files).overlaps = some services ∧
            1 < services.toFinset.card := by
      simp only [ImpactReport.isDivided, ImpactReport.overlap?, Option.any_eq_true,
        decide_eq_true_eq]
    rw [← hdivided]
    simp only [hmem, hfound]
    split
    · next hnone => simpa using ImpactReport.divided_eq_nil_iff.mp hnone
    · next hsome => simpa using not_not.mp (mt ImpactReport.divided_eq_nil_iff.mpr hsome)
  · intro f hf hkind
    have hlisted := (hmem f).mp ⟨hf, hkind⟩
    rw [hfound] at hlisted
    split at hlisted
    · cases hlisted
    · obtain rfl := List.mem_singleton.mp hlisted
      rw [← ImpactReport.length_divided hdistinct]
      rfl

def listingInput (files : List String) : LintInput where
  options := { strict := true, checkOverlaps := true }
  files := some files

/-- A file that two rules of one service accept is kept in the report, but lint does not count
it. -/
theorem lint_agrees_on_overlaps_source :
    ∃ (ix : Index) (files : List String),
      Rules.parse ix.source "** all\nsrc/ core\ndocs/* all\n" = .ok ix.rules ∧
      files = ["src/b", "README", "docs/x", "src/a"] ∧ files.Nodup ∧
      (listingInput files).options.checkOverlaps = true ∧
      (listingInput files).files = some files ∧
      (ix.impact files).overlaps =
        [("docs/x", ["all", "all"]), ("src/a", ["all", "core"]), ("src/b", ["all", "core"])] ∧
      ((ix.lint (listingInput files)).findings.filter (·.kind == .overlappingFiles)).map
          (·.message) =
        ["2 file(s) match rules of more than one service (last match wins). Examples: " ++
          "src/b -> all, core; src/a -> all, core"] ∧
      (ix.lint (listingInput files)).AgreesOnOverlaps (ix.impact files) files := by
  obtain ⟨ix, hparse, hreports⟩ := exists_parsed "** all\nsrc/ core\ndocs/* all\n"
    (fun ix => (ix.impact ["src/b", "README", "docs/x", "src/a"]).overlaps =
        [("docs/x", ["all", "all"]), ("src/a", ["all", "core"]), ("src/b", ["all", "core"])] ∧
      ((ix.lint (listingInput ["src/b", "README", "docs/x", "src/a"])).findings.filter
          (·.kind == .overlappingFiles)).map (·.message) =
        ["2 file(s) match rules of more than one service (last match wins). Examples: " ++
          "src/b -> all, core; src/a -> all, core"])
    (by decide +kernel)
  obtain ⟨hoverlaps, hmessage⟩ := of_decide_eq_true hreports
  have hdistinct : ["src/b", "README", "docs/x", "src/a"].Nodup := by decide
  exact ⟨ix, _, hparse, rfl, hdistinct, rfl, rfl, hoverlaps, hmessage,
    ix.lint_agrees_on_overlaps rfl rfl hdistinct⟩

end Index

end Ownership
