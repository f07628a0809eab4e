import Ownership.Command
import Ownership.Proofs.Except
import Ownership.Proofs.Tree.Places

set_option autoImplicit false

/-!
# The first rules file

A run of `init` ends in an error, or prints the converted rules, or writes these rules to the
configured place. Only the last of the three changes the tree, and then in one file.
-/
namespace Ownership.Codeowners

section Runs

variable (t : Tree) (root : String) (settings : Settings) (given : Option String)

def target (root : String) (settings : Settings) : String :=
  Location.join root settings.rulesFile

/-- All that a run can come to. -/
inductive Run (force : Bool) : Bool → Except InitError Outcome × Tree → Prop where
  | fails {write : Bool} (e : InitError) : Run force write (.error e, t)
  | prints {content : String} (hcontent : generate t root given = .ok content) :
      Run force false (.ok (.ok content), t)
  | writes {content : String} {t' : Tree} (hcontent : generate t root given = .ok content)
      (hwrite : writeRules t (target root settings) content force = .ok t') :
      Run force true (.ok (.ok ("Wrote " ++ target root settings)), t')

theorem run_init (write force : Bool) :
    Run t root settings given force write (init t root settings given write force) := by
  unfold init
  cases hcontent : generate t root given with
  | error e => exact .fails e
  | ok content =>
    cases write with
    | false => exact .prints hcontent
    | true =>
      cases hwrite : writeRules t (target root settings) content force with
      | error e =>
        rw [target] at hwrite
        simp only [if_true, hwrite]
        exact .fails e
      | ok t' =>
        have hrun : Run t root settings given force true
            (.ok (.ok ("Wrote " ++ target root settings)), t') := .writes hcontent hwrite
        rw [target] at hwrite
        simp only [if_true, hwrite]
        exact hrun

variable {t root settings given}

theorem init_eq_of_generate {content : String} (h : generate t root given = .ok content)
    (force : Bool) : init t root settings given false force = (.ok (.ok content), t) := by
  rw [init, h]
  rfl

theorem writeRules_eq_ok_iff {place content : String} {force : Bool} {t' : Tree} :
    writeRules t place content force = .ok t' ↔
      (t.occupied place = true → force = true) ∧ t.write place content = .ok t' := by
  unfold writeRules
  split
  · next hrefused =>
    rw [Bool.and_eq_true, Bool.not_eq_true'] at hrefused
    refine iff_of_false ?_ ?_
    · intro h
      cases h
    · rintro ⟨hforce, -⟩
      exact Bool.noConfusion (hrefused.2.symm.trans (hforce hrefused.1))
  · next hallowed =>
    rw [mapError_eq_ok_iff]
    refine (and_iff_right ?_).symm
    intro hoccupied
    simpa [hoccupied] using hallowed

end Runs

/-- A run that fails or that only prints leaves the tree as it is, and a file that is in the way
makes it fail. A run that writes changes the file of the rules and nothing else, and writes what
the same run would have printed. -/
theorem init_changes_rules_only (t : Tree) (root : String) (settings : Settings)
    (given : Option String) :
    (∀ write force e t', init t root settings given write force = (.error e, t') → t' = t) ∧
    (∀ force, (init t root settings given false force).2 = t) ∧
    (t.occupied (target root settings) = true →
      ∃ e, init t root settings given true false = (.error e, t)) ∧
    (∀ force outcome t', init t root settings given true force = (.ok outcome, t') →
      ∃ printed place, init t root settings given false force = (.ok (.ok printed), t) ∧
        t'.locate (target root settings) = .ok place ∧
        t.WritesAt t' place printed.toUTF8) := by
  refine ⟨?_, ?_, ?_, ?_⟩
  · intro write force e t' hinit
    have hrun := run_init t root settings given write force
    rw [hinit] at hrun
    cases hrun with
    | fails e => rfl
  · intro force
    have hrun := run_init t root settings given false force
    cases hinit : init t root settings given false force with
    | mk result t' =>
      rw [hinit] at hrun
      cases hrun with
      | fails e => rfl
      | prints hcontent => rfl
  · intro hoccupied
    have hrun := run_init t root settings given true false
    cases hinit : init t root settings given true false with
    | mk result t' =>
      rw [hinit] at hrun
      cases hrun with
      | fails e => exact ⟨e, rfl⟩
      | writes hcontent hwrite =>
        cases (writeRules_eq_ok_iff.mp hwrite).1 hoccupied
  · intro force outcome t' hinit
    have hrun := run_init t root settings given true force
    rw [hinit] at hrun
    cases hrun with
    | @writes content t' hcontent hwrite =>
      obtain ⟨place, hplace, hwrites⟩ :=
        Tree.writesAt_of_write (writeRules_eq_ok_iff.mp hwrite).2
      exact ⟨content, place, init_eq_of_generate hcontent force, hplace, hwrites⟩

/-- A checkout that already has rules, with a file to convert in one of the usual places. -/
def convertedTree : Tree :=
  .directory
    [(".github", .directory [("CODEOWNERS", .file "docs/ @org/Prose-Team\n".toUTF8)]),
      ("SERVICEOWNERS", .file "docs/** web\n".toUTF8)]

theorem init_changes_rules_only_forced :
    convertedTree.occupied (target "/" .builtin) = true ∧
      (∃ e, init convertedTree "/" .builtin none true false = (.error e, convertedTree)) ∧
      ∃ outcome t' place, init convertedTree "/" .builtin none true true = (.ok outcome, t') ∧
        init convertedTree "/" .builtin none false true =
          (.ok (.ok "# Generated from CODEOWNERS\n# pattern\tservice\ndocs/\tdocs\n"),
            convertedTree) ∧
        t'.locate (target "/" .builtin) = .ok place ∧
        convertedTree.WritesAt t' place
          "# Generated from CODEOWNERS\n# pattern\tservice\ndocs/\tdocs\n".toUTF8 := by
  have hoccupied : convertedTree.occupied (target "/" .builtin) = true := by decide +kernel
  obtain ⟨-, -, hrefuses, hwrites⟩ := init_changes_rules_only convertedTree "/" .builtin none
  have hprints : generate convertedTree "/" none =
      .ok "# Generated from CODEOWNERS\n# pattern\tservice\ndocs/\tdocs\n" := by
    decide +kernel
  have hprinted := @init_eq_of_generate _ _ .builtin _ _ hprints true
  have hsucceeds : (init convertedTree "/" .builtin none true true).1.isOk = true := by
    decide +kernel
  cases hinit : init convertedTree "/" .builtin none true true with
  | mk result t' =>
    rw [hinit] at hsucceeds
    cases result with
    | error e => cases hsucceeds
    | ok outcome =>
      obtain ⟨printed, place, hsame, hplace, hat⟩ := hwrites true outcome t' hinit
      obtain rfl : _ = printed := by simpa [Outcome.ok] using hprinted.symm.trans hsame
      exact ⟨hoccupied, hrefuses hoccupied, outcome, t', place, rfl, hprinted, hplace, hat⟩

end Ownership.Codeowners
