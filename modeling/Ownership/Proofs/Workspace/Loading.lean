import Ownership.Command
import Ownership.Proofs.Except
import Ownership.Proofs.Lint.Findings
import Ownership.Proofs.Rules.Reading

set_option autoImplicit false

/-!
# Loading and lint

A workspace that loads leniently and has no rejected lines is the one that loads strictly. Lint
makes an error of every rejected line, under any options, so a run that succeeds vouches for the
strict loading.
-/
namespace Ownership

/-! ## Strict and lenient loading -/

namespace Workspace

section Loading

variable {t : Tree} {root : String} {settings : Settings} {w : Workspace}

theorem loadLenient_eq_ok_iff :
    loadLenient t root settings = .ok w ↔ ∃ text catalog, rulesText t root settings = .ok text ∧
      loadCatalog t root settings = .ok catalog ∧
      w = ⟨root, settings, ⟨settings.rulesFile, (Rules.parseLenient settings.rulesFile text).1⟩,
        (Rules.parseLenient settings.rulesFile text).2, catalog⟩ := by
  unfold loadLenient
  cases htext : rulesText t root settings with
  | error e => simp [bind, Except.bind]
  | ok text =>
    cases hcatalog : loadCatalog t root settings with
    | error e => simp [bind, Except.bind]
    | ok catalog => simp [bind, Except.bind, pure, Except.pure, eq_comm]

theorem load_eq_ok_iff :
    load t root settings = .ok w ↔ ∃ text rules catalog, rulesText t root settings = .ok text ∧
      Rules.parse settings.rulesFile text = .ok rules ∧
      loadCatalog t root settings = .ok catalog ∧
      w = ⟨root, settings, ⟨settings.rulesFile, rules⟩, [], catalog⟩ := by
  unfold load
  cases htext : rulesText t root settings with
  | error e => simp [bind, Except.bind]
  | ok text =>
    cases hrules : Rules.parse settings.rulesFile text with
    | error e => simp [bind, Except.bind, hrules, Except.mapError]
    | ok rules =>
      cases hcatalog : loadCatalog t root settings with
      | error e => simp [bind, Except.bind, hrules, Except.mapError]
      | ok catalog => simp [bind, Except.bind, pure, Except.pure, hrules, Except.mapError, eq_comm]

/-- Strict loading is lenient loading that rejects nothing. -/
theorem load_eq_ok_iff_loadLenient :
    load t root settings = .ok w ↔ loadLenient t root settings = .ok w ∧ w.rejected = [] := by
  -- the two meet a bad line and a bad catalog in different orders, so only success is compared
  rw [load_eq_ok_iff, loadLenient_eq_ok_iff]
  constructor
  · rintro ⟨text, rules, catalog, htext, hrules, hcatalog, rfl⟩
    obtain ⟨hlenient, hnone⟩ := Rules.parse_eq_ok_iff.mp hrules
    refine ⟨⟨text, catalog, htext, hcatalog, ?_⟩, rfl⟩
    rw [hlenient, hnone]
  · rintro ⟨⟨text, catalog, htext, hcatalog, rfl⟩, hnone⟩
    refine ⟨text, _, catalog, htext, Rules.parse_eq_ok_iff.mpr ⟨rfl, hnone⟩, hcatalog, ?_⟩
    congr 1

theorem exists_loaded (t : Tree) (root : String) (settings : Settings) (check : Workspace → Bool)
    (h : (loadLenient t root settings).toOption.any check = true) :
    ∃ w, loadLenient t root settings = .ok w ∧ check w = true :=
  exists_ok_of_any h

end Loading

/-! ## Lint runs -/

def withLint (w : Workspace) (options : LintOptions) : Workspace :=
  { w with settings := { w.settings with lint := options } }

theorem rejected_eq_nil_of_lint {w : Workspace} {t : Tree} {git : Git} {format : LintFormat}
    {outcome : Outcome} (h : w.lint t git format = .ok outcome)
    (hexit : outcome.exitCode = Outcome.success) : w.rejected = [] := by
  unfold lint at h
  cases hfiles : w.lintFiles t git with
  | error e =>
    rw [hfiles] at h
    cases h
  | ok files =>
    rw [hfiles] at h
    obtain rfl := Except.ok.inj h
    refine List.eq_nil_iff_forall_not_mem.mpr ?_
    intro e he
    have hfails : (w.lintReport files).isFailure = true := Index.isFailure_of_rejected he
    simp only [hfails, if_true] at hexit
    cases hexit

theorem lint_vouches_for_load (t : Tree) (root : String) (settings : Settings) (w : Workspace) :
    (loadLenient t root settings = .ok w →
      ∀ options git format outcome, (w.withLint options).lint t git format = .ok outcome →
        outcome.exitCode = Outcome.success → load t root settings = .ok w) ∧
    (load t root settings = .ok w →
      loadLenient t root settings = .ok w ∧
        ∀ options files, ∀ f ∈ ((w.withLint options).lintReport files).findings,
          f.kind ≠ .invalidPattern) := by
  constructor
  · intro hlenient options git format outcome hlint hexit
    have hnone : (w.withLint options).rejected = [] := rejected_eq_nil_of_lint hlint hexit
    exact load_eq_ok_iff_loadLenient.mpr ⟨hlenient, hnone⟩
  · intro hload
    obtain ⟨hlenient, hnone⟩ := load_eq_ok_iff_loadLenient.mp hload
    refine ⟨hlenient, ?_⟩
    intro options files
    exact Index.kind_ne_invalidPattern hnone

def docsTree : Tree :=
  .directory
    [("SERVICEOWNERS", .file "docs/** prose # all\n\ndocs/*.html web\n".toUTF8),
      ("services.yaml", .file "prose:\n  owners: ['@docs']\nweb:\n  owners: ['@web']\n".toUTF8)]

theorem lint_vouches_for_load_docs :
    ∃ w outcome, loadLenient docsTree "/" .builtin = .ok w ∧
      (w.withLint { strict := true }).lint docsTree .outside .text = .ok outcome ∧
      outcome.exitCode = Outcome.success ∧ load docsTree "/" .builtin = .ok w ∧
      ∀ options files, ∀ f ∈ ((w.withLint options).lintReport files).findings,
        f.kind ≠ .invalidPattern := by
  obtain ⟨w, hlenient, hpasses⟩ := exists_loaded docsTree "/" .builtin
    (fun w => ((w.withLint { strict := true }).lint docsTree .outside .text).toOption.any
      (·.exitCode == Outcome.success))
    (by decide +kernel)
  cases hlint : (w.withLint { strict := true }).lint docsTree .outside .text with
  | error e =>
    rw [hlint] at hpasses
    cases hpasses
  | ok outcome =>
    rw [hlint] at hpasses
    have hexit : outcome.exitCode = Outcome.success := beq_iff_eq.mp hpasses
    have hvouches := lint_vouches_for_load docsTree "/" .builtin w
    have hload := hvouches.1 hlenient _ _ _ _ hlint hexit
    exact ⟨w, outcome, hlenient, hlint, hexit, hload, (hvouches.2 hload).2⟩

end Workspace

end Ownership
