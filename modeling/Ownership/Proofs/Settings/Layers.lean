import Ownership.Proofs.Settings.Tables
import Ownership.Proofs.Toml.Tables
import Ownership.Workspace

set_option autoImplicit false

/-!
# Settings in force

The built-in settings, the table of a repository and the values given for a run are laid one on the
other. Each setting is the one that the highest layer gives.
-/
namespace Ownership

namespace Settings

structure IsUsable (s : Settings) : Prop where
  maxFiles : 0 < s.impact.maxFiles
  rulesFile : ∃ c ∈ s.rulesFile.toList, Text.isBlank c = false
  servicesFile : ∃ c ∈ s.servicesFile.toList, Text.isBlank c = false

theorem isBlank_eq_false_iff {s : String} :
    isBlank s = false ↔ ∃ c ∈ s.toList, Text.isBlank c = false := by
  rw [isBlank, ← Bool.not_eq_true, List.isEmpty_iff, Text.trim_eq_nil_iff]
  simp

theorem check_eq_ok_iff {s s' : Settings} : s.check = .ok s' ↔ s.IsUsable ∧ s' = s := by
  unfold check
  split
  · next hzero =>
    refine iff_of_false nofun ?_
    rintro ⟨husable, -⟩
    exact absurd hzero (Nat.ne_of_gt husable.maxFiles)
  split
  · next hblank =>
    refine iff_of_false nofun ?_
    rintro ⟨husable, -⟩
    exact Bool.noConfusion (hblank.symm.trans (isBlank_eq_false_iff.mpr husable.rulesFile))
  split
  · next hblank =>
    refine iff_of_false nofun ?_
    rintro ⟨husable, -⟩
    exact Bool.noConfusion (hblank.symm.trans (isBlank_eq_false_iff.mpr husable.servicesFile))
  · next hzero hrules hservices =>
    rw [Bool.not_eq_true] at hrules hservices
    have husable : s.IsUsable := ⟨Nat.pos_of_ne_zero hzero, isBlank_eq_false_iff.mp hrules,
      isBlank_eq_false_iff.mp hservices⟩
    simp [husable, eq_comm]

end Settings

namespace EffectiveSettings

/-- What the settings file of a repository gives: nothing when it is not there, or a table of known
keys. -/
inductive FileGives (t : Tree) (location : String) : Option Json → Prop where
  | missing (h : t.occupied location = false) : FileGives t location none
  | table {text : String} {table : Json} (hfile : t.occupied location = true)
      (htext : t.readText location = .ok text) (hparse : Toml.parse text = .ok table)
      (hkinds : Settings.isTable table = true) : FileGives t location (some table)

def below : Option Json → Settings
  | none => .builtin
  | some table => Settings.builtin.override (.ofTable table)

/-- The layers that take part, the lowest first. -/
def takingPart (location : String) (table? : Option Json) (overrides : Overrides) :
    List LayerSource :=
  .builtin :: ((table?.map fun _ => .repo location).toList ++
    if overrides = {} then [] else [.commandLine])

section Build

variable {t : Tree} {root location : String} {table? : Option Json}

theorem FileGives.readLayer_eq (h : FileGives t location table?) :
    readLayer t location = .ok (table?.map fun table => (location, table)) := by
  cases h with
  | missing h =>
    rw [readLayer, h]
    rfl
  | table hfile htext hparse hkinds =>
    rw [readLayer, if_pos hfile, htext]
    dsimp only
    rw [hparse]
    rfl

theorem FileGives.mergeLayers_eq (h : FileGives t location table?) :
    Json.mergeLayers (Settings.builtin.toLayer :: table?.toList) = (below table?).toLayer := by
  have hbuiltin : Json.merge .null Settings.builtin.toLayer = Settings.builtin.toLayer := rfl
  cases h with
  | missing h => exact hbuiltin
  | table hfile htext hparse hkinds =>
    change Json.merge (Json.merge .null Settings.builtin.toLayer) _ = _
    rw [hbuiltin]
    exact Settings.merge_toLayer hkinds (Toml.ordered_of_parse hparse) .builtin

theorem override_empty (s : Settings) : s.override {} = s := rfl

theorem FileGives.layers_eq (h : FileGives t location table?) (overrides : Overrides) :
    Json.mergeLayers ((layers (table?.map fun table => (location, table)) overrides).map
        Prod.snd) = ((below table?).override overrides).toLayer ∧
      (layers (table?.map fun table => (location, table)) overrides).map Prod.fst =
        takingPart location table? overrides := by
  have hsource : (layers (table?.map fun table => (location, table)) overrides).map Prod.snd =
      Settings.builtin.toLayer :: table?.toList ++
        if overrides = {} then [] else [overrides.toLayer] := by
    simp only [layers, Overrides.isEmpty_iff]
    cases table? <;> split <;> rfl
  refine ⟨?_, ?_⟩
  · rw [hsource]
    split
    · next hnone =>
      rw [List.append_nil, h.mergeLayers_eq, hnone, override_empty]
    · rw [Json.mergeLayers, List.foldl_append]
      change Json.merge (Json.mergeLayers _) _ = _
      rw [h.mergeLayers_eq, Settings.merge_toLayer overrides.isTable_toLayer
        overrides.ordered_toLayer, Overrides.ofTable_toLayer]
  · simp only [layers, takingPart, Overrides.isEmpty_iff]
    cases table? <;> split <;> rfl

theorem FileGives.build_eq_ok_iff (h : FileGives t location table?) (overrides : Overrides)
    (e : EffectiveSettings) :
    build (table?.map fun table => (location, table)) overrides = .ok e ↔
      ((below table?).override overrides).IsUsable ∧
        e = ⟨(below table?).override overrides, takingPart location table? overrides⟩ := by
  obtain ⟨hmerged, hsources⟩ := h.layers_eq overrides
  unfold build
  simp only [hmerged, hsources, Settings.read_toLayer]
  cases hcheck : ((below table?).override overrides).check with
  | error fault =>
    refine iff_of_false nofun ?_
    rintro ⟨husable, -⟩
    rw [Settings.check_eq_ok_iff.mpr ⟨husable, rfl⟩] at hcheck
    cases hcheck
  | ok s =>
    obtain ⟨husable, rfl⟩ := Settings.check_eq_ok_iff.mp hcheck
    simp [husable, eq_comm]

/-- The settings in force are usable ones, and each is the value given for the run, or else the one
of the repository, or else the built-in one. -/
theorem in_force_iff_usable (h : FileGives t (Location.join root fileName) table?)
    (overrides : Overrides) (e : EffectiveSettings) :
    load t root overrides = .ok e ↔
      ((below table?).override overrides).IsUsable ∧
        e = ⟨(below table?).override overrides,
          takingPart (Location.join root fileName) table? overrides⟩ := by
  unfold load
  rw [h.readLayer_eq]
  exact h.build_eq_ok_iff overrides e

end Build

def tunedText : String :=
  "services_file = 'teams.yaml'\n[impacted]\nmax_files = 0\n[lint]\nstrict = true\n"

def tunedTree : Tree :=
  .directory [(fileName, .file tunedText.toUTF8)]

theorem in_force_iff_usable_tuned :
    load tunedTree "/" { maxFiles := some 7, strict := some false } =
      .ok ⟨⟨"SERVICEOWNERS", "teams.yaml", ⟨"HEAD~1...HEAD", 7, false⟩, ⟨false, false, false⟩⟩,
        [.builtin, .repo "/.serviceowners.toml", .commandLine]⟩ := by
  obtain ⟨table, hparse, hcheck⟩ := exists_ok_of_any
    (by decide +kernel : (Toml.parse tunedText).toOption.any (fun table =>
      Settings.isTable table && decide (Overrides.ofTable table =
        { servicesFile := some "teams.yaml", maxFiles := some 0, strict := some true })) = true)
  obtain ⟨hkinds, hgiven⟩ := Bool.and_eq_true_iff.mp hcheck
  have hgives : FileGives tunedTree (Location.join "/" fileName) (some table) :=
    .table (by decide +kernel) (by decide +kernel) hparse hkinds
  refine (in_force_iff_usable hgives { maxFiles := some 7, strict := some false } _).mpr ?_
  have hplace : Location.join "/" fileName = "/.serviceowners.toml" := by decide +kernel
  rw [below, of_decide_eq_true hgiven, hplace]
  exact ⟨⟨by decide, ⟨'S', by decide⟩, ⟨'t', by decide⟩⟩, rfl⟩

end EffectiveSettings

end Ownership
