import Ownership.Proofs.Except
import Ownership.Proofs.Json.Merge
import Ownership.Proofs.Text.Pieces
import Ownership.Settings.Read

set_option autoImplicit false

/-!
# Tables of settings

A table of known keys, each with a value of its kind, gives some of the settings. Laid on settings
it makes settings again: what the table gives counts, and what it leaves out stays as it was. The
values that are given for one run are such a table.
-/
namespace Ownership

namespace Json

/-! ## Values of known kinds -/

def text? : Json → Option String
  | .str s => some s
  | _ => none

def count? : Json → Option Nat
  | .int n => if 0 ≤ n then some n.toNat else none
  | _ => none

def flag? : Json → Option Bool
  | .bool b => some b
  | _ => none

/-- A way to write values, read back by `read?`, that no layer merges into. -/
structure IsLeaf {α : Type} (write : α → Json) (read? : Json → Option α) : Prop where
  read_write : ∀ a, read? (write a) = some a
  eq_write : ∀ v a, read? v = some a → v = write a
  merge_write : ∀ old a, merge old (write a) = write a

theorem isLeaf_text : IsLeaf .str text? where
  read_write _ := rfl
  eq_write v a h := by
    cases v <;> cases h
    rfl
  merge_write old a := by rw [merge]; simp

theorem isLeaf_flag : IsLeaf .bool flag? where
  read_write _ := rfl
  eq_write v a h := by
    cases v <;> cases h
    rfl
  merge_write old a := by rw [merge]; simp

theorem isLeaf_count : IsLeaf ofNat count? where
  read_write a := by simp [ofNat, count?]
  eq_write v a h := by
    cases v with
    | int n =>
      rw [count?] at h
      split at h
      · next hn =>
        obtain rfl := Option.some.inj h
        rw [ofNat, Int.toNat_of_nonneg hn]
      · cases h
    | _ => cases h
  merge_write old a := by rw [ofNat, merge]; simp

theorem IsLeaf.bind_map {α : Type} {write : α → Json} {read? : Json → Option α}
    (h : IsLeaf write read?) (a : Option α) : (a.map write).bind read? = a := by
  cases a with
  | none => rfl
  | some a => exact h.read_write a

theorem IsLeaf.lay_eq {α : Type} {write : α → Json} {read? : Json → Option α}
    (h : IsLeaf write read?) (old : α) {found : Option Json}
    (hkind : ∀ v, found = some v → (read? v).isSome = true) :
    lay (write old) found = write ((found.bind read?).getD old) := by
  cases found with
  | none => rfl
  | some v =>
    obtain ⟨a, ha⟩ := Option.isSome_iff_exists.mp (hkind v rfl)
    rw [lay, h.eq_write v a ha, h.merge_write, Option.bind_some, h.read_write]
    rfl

end Json

/-! ## Tables of settings -/

theorem sortedByKey_of_keys {α : Type} {fields : List (String × α)} (keys : List String)
    (h : (fields.map Prod.fst).Sublist keys) (hkeys : keys.Pairwise (· < ·)) :
    Json.SortedByKey fields :=
  List.pairwise_map.mp (hkeys.sublist h)

namespace Settings

def isText (v : Json) : Bool := v.text?.isSome
def isCount (v : Json) : Bool := v.count?.isSome
def isFlag (v : Json) : Bool := v.flag?.isSome

def impactKinds : List (String × (Json → Bool)) :=
  [("diff", isText), ("max_files", isCount), ("fail_on_unmapped", isFlag)]

def lintKinds : List (String × (Json → Bool)) :=
  [("strict", isFlag), ("check_matches", isFlag), ("check_overlaps", isFlag)]

def kinds : List (String × (Json → Bool)) :=
  [("serviceowners_file", isText), ("services_file", isText),
    ("impacted", Json.hasFields impactKinds), ("lint", Json.hasFields lintKinds)]

def isTable (table : Json) : Bool :=
  Json.hasFields kinds table

def override (s : Settings) (o : Overrides) : Settings where
  rulesFile := o.rulesFile.getD s.rulesFile
  servicesFile := o.servicesFile.getD s.servicesFile
  impact :=
    ⟨o.diff.getD s.impact.diff, o.maxFiles.getD s.impact.maxFiles,
      o.failOnUnmapped.getD s.impact.failOnUnmapped⟩
  lint :=
    ⟨o.strict.getD s.lint.strict, o.checkMatches.getD s.lint.checkMatches,
      o.checkOverlaps.getD s.lint.checkOverlaps⟩

end Settings

def Overrides.ofTable (table : Json) : Overrides where
  rulesFile := (table.at? ["serviceowners_file"]).bind Json.text?
  servicesFile := (table.at? ["services_file"]).bind Json.text?
  diff := (table.at? ["impacted", "diff"]).bind Json.text?
  maxFiles := (table.at? ["impacted", "max_files"]).bind Json.count?
  failOnUnmapped := (table.at? ["impacted", "fail_on_unmapped"]).bind Json.flag?
  strict := (table.at? ["lint", "strict"]).bind Json.flag?
  checkMatches := (table.at? ["lint", "check_matches"]).bind Json.flag?
  checkOverlaps := (table.at? ["lint", "check_overlaps"]).bind Json.flag?

/-! ## Reading what was written -/

theorem ImpactSettings.read_layer (i : ImpactSettings) :
    ImpactSettings.read (.obj
      [("diff", .str i.diff), ("fail_on_unmapped", .bool i.failOnUnmapped),
        ("max_files", .ofNat i.maxFiles)]) = .ok i := by
  have hcount : Json.readNat (.ofNat i.maxFiles) = .ok i.maxFiles := by
    simp [Json.ofNat, Json.readNat]
  simp [ImpactSettings.read, Json.readRecord, Draft.set, Draft.finish, hcount, Json.readString,
    Json.readBool, Json.require, Except.map, bind, Except.bind, pure, Except.pure]

theorem LintOptions.read_layer (l : LintOptions) :
    LintOptions.read (.obj
      [("check_matches", .bool l.checkMatches), ("check_overlaps", .bool l.checkOverlaps),
        ("strict", .bool l.strict)]) = .ok l := by
  simp [LintOptions.read, Json.readRecord, Draft.set, Draft.finish,
    Json.readBool, Json.require, Except.map, bind, Except.bind, pure, Except.pure]

theorem Settings.read_toLayer (s : Settings) : Settings.read s.toLayer = .ok s := by
  simp [Settings.read, toLayer, Json.readRecord, Draft.set, Draft.finish, Json.readString,
    ImpactSettings.read_layer, LintOptions.read_layer,
    Json.require, Except.map, bind, Except.bind, pure, Except.pure]

/-! ## One layer -/

section Layer

variable {table : Json} (hkinds : Settings.isTable table = true) (hordered : table.Ordered)

include hkinds

theorem Settings.kind_of_section {key : String} {kind : Json → Bool}
    (hkind : Json.getField? key Settings.kinds = some kind) :
    ∀ v, table.at? [key] = some v → kind v = true :=
  fun _ hv => Json.kind_of_at? hkinds hkind hv

theorem Settings.kind_of_entry {key name : String} {kind : Json → Bool}
    {inner : List (String × (Json → Bool))}
    (hinner : Json.getField? key Settings.kinds = some (Json.hasFields inner))
    (hkind : Json.getField? name inner = some kind) :
    ∀ v, table.at? [key, name] = some v → kind v = true := by
  intro v hv
  have hpath := Json.at?_at? table [key] name
  rw [List.singleton_append, hv] at hpath
  obtain ⟨found, hfound, hat⟩ := Option.bind_eq_some_iff.mp hpath
  exact Json.kind_of_at? (Settings.kind_of_section hkinds hinner found hfound) hkind hat

include hordered

theorem ImpactSettings.lay_layer (i : ImpactSettings) :
    Json.lay (.obj
        [("diff", .str i.diff), ("fail_on_unmapped", .bool i.failOnUnmapped),
          ("max_files", .ofNat i.maxFiles)]) (table.at? ["impacted"]) =
      .obj
        [("diff", .str (((table.at? ["impacted", "diff"]).bind Json.text?).getD i.diff)),
          ("fail_on_unmapped", .bool
            (((table.at? ["impacted", "fail_on_unmapped"]).bind Json.flag?).getD
              i.failOnUnmapped)),
          ("max_files", .ofNat
            (((table.at? ["impacted", "max_files"]).bind Json.count?).getD i.maxFiles))] := by
  rw [Json.lay_obj_eq Settings.impactKinds (Settings.kind_of_section hkinds rfl)
    (fun _ hv => hordered.at? hv)
    (sortedByKey_of_keys ["diff", "fail_on_unmapped", "max_files"] (.refl _) (by decide))
    (by simp [Settings.impactKinds])]
  have hdiff := Json.isLeaf_text.lay_eq i.diff
    (Settings.kind_of_entry hkinds rfl rfl : ∀ v, table.at? ["impacted", "diff"] = some v → _)
  have hfails := Json.isLeaf_flag.lay_eq i.failOnUnmapped
    (Settings.kind_of_entry hkinds rfl rfl :
      ∀ v, table.at? ["impacted", "fail_on_unmapped"] = some v → _)
  have hmax := Json.isLeaf_count.lay_eq i.maxFiles
    (Settings.kind_of_entry hkinds rfl rfl : ∀ v, table.at? ["impacted", "max_files"] = some v → _)
  simp only [List.map_cons, List.map_nil, Json.at?_at?, List.singleton_append, hdiff, hfails, hmax]

theorem LintOptions.lay_layer (l : LintOptions) :
    Json.lay (.obj
        [("check_matches", .bool l.checkMatches), ("check_overlaps", .bool l.checkOverlaps),
          ("strict", .bool l.strict)]) (table.at? ["lint"]) =
      .obj
        [("check_matches", .bool
            (((table.at? ["lint", "check_matches"]).bind Json.flag?).getD l.checkMatches)),
          ("check_overlaps", .bool
            (((table.at? ["lint", "check_overlaps"]).bind Json.flag?).getD l.checkOverlaps)),
          ("strict", .bool (((table.at? ["lint", "strict"]).bind Json.flag?).getD l.strict))] := by
  rw [Json.lay_obj_eq Settings.lintKinds (Settings.kind_of_section hkinds rfl)
    (fun _ hv => hordered.at? hv)
    (sortedByKey_of_keys ["check_matches", "check_overlaps", "strict"] (.refl _) (by decide))
    (by simp [Settings.lintKinds])]
  have hmatches := Json.isLeaf_flag.lay_eq l.checkMatches
    (Settings.kind_of_entry hkinds rfl rfl :
      ∀ v, table.at? ["lint", "check_matches"] = some v → _)
  have hoverlaps := Json.isLeaf_flag.lay_eq l.checkOverlaps
    (Settings.kind_of_entry hkinds rfl rfl :
      ∀ v, table.at? ["lint", "check_overlaps"] = some v → _)
  have hstrict := Json.isLeaf_flag.lay_eq l.strict
    (Settings.kind_of_entry hkinds rfl rfl : ∀ v, table.at? ["lint", "strict"] = some v → _)
  simp only [List.map_cons, List.map_nil, Json.at?_at?, List.singleton_append, hmatches,
    hoverlaps, hstrict]

/-- A table of known keys on settings gives settings again, with the values of the table. -/
theorem Settings.merge_toLayer (s : Settings) :
    Json.merge s.toLayer table = (s.override (.ofTable table)).toLayer := by
  change Json.lay s.toLayer (some table) = _
  have hroot : ∀ v, some table = some v → Json.hasFields Settings.kinds v = true := by
    rintro v ⟨rfl⟩
    exact hkinds
  have hsorted : ∀ v, some table = some v → v.Ordered := by
    rintro v ⟨rfl⟩
    exact hordered
  rw [toLayer, Json.lay_obj_eq Settings.kinds hroot hsorted
    (sortedByKey_of_keys ["impacted", "lint", "serviceowners_file", "services_file"] (.refl _)
      (by decide))
    (by simp [Settings.kinds])]
  have hrules := Json.isLeaf_text.lay_eq s.rulesFile
    (Settings.kind_of_section hkinds rfl : ∀ v, table.at? ["serviceowners_file"] = some v → _)
  have hservices := Json.isLeaf_text.lay_eq s.servicesFile
    (Settings.kind_of_section hkinds rfl : ∀ v, table.at? ["services_file"] = some v → _)
  simp only [List.map_cons, List.map_nil, Option.bind_some, hrules, hservices,
    ImpactSettings.lay_layer hkinds hordered, LintOptions.lay_layer hkinds hordered]
  rfl

end Layer

/-! ## The values of a run as a layer -/

namespace Overrides

variable {key other : String} {fields : List (String × Json)}

theorem getField?_optionalSection :
    Json.getField? key (optionalSection other fields) =
      if key = other ∧ fields ≠ [] then some (.obj fields) else none := by
  cases fields <;> simp [optionalSection, Json.getField?]

theorem optionalSection_eq_nil_iff : optionalSection key fields = [] ↔ fields = [] := by
  cases fields <;> simp [optionalSection]

theorem keys_optionalSection : ((optionalSection key fields).map Prod.fst).Sublist [key] := by
  cases fields <;> simp [optionalSection]

theorem mem_optionalSection {field : String × Json} (h : field ∈ optionalSection key fields) :
    field = (key, .obj fields) := by
  cases fields <;> simp_all [optionalSection]

theorem isEmpty_iff (o : Overrides) : o.isEmpty = true ↔ o = {} := by
  obtain ⟨rulesFile, servicesFile, diff, maxFiles, failOnUnmapped, strict, checkMatches,
    checkOverlaps⟩ := o
  simp only [isEmpty, Overrides.fields, List.isEmpty_iff, List.append_eq_nil_iff,
    optionalSection_eq_nil_iff, Json.optional_eq_nil_iff, Option.map_eq_none_iff, mk.injEq]
  tauto

/-! ### The sections -/

variable (o : Overrides)

def impactFields : List (String × Json) :=
  Json.optional "diff" (o.diff.map .str) ++
    Json.optional "fail_on_unmapped" (o.failOnUnmapped.map .bool) ++
    Json.optional "max_files" (o.maxFiles.map .ofNat)

def lintFields : List (String × Json) :=
  Json.optional "check_matches" (o.checkMatches.map .bool) ++
    Json.optional "check_overlaps" (o.checkOverlaps.map .bool) ++
    Json.optional "strict" (o.strict.map .bool)

theorem fields_eq : o.fields =
    optionalSection "impacted" o.impactFields ++ optionalSection "lint" o.lintFields ++
      Json.optional "serviceowners_file" (o.rulesFile.map .str) ++
      Json.optional "services_file" (o.servicesFile.map .str) := rfl

theorem keys_fields : (o.fields.map Prod.fst).Sublist
    ["impacted", "lint", "serviceowners_file", "services_file"] := by
  simp only [fields_eq, List.map_append]
  exact ((keys_optionalSection.append keys_optionalSection).append Json.keys_optional).append
    Json.keys_optional

theorem keys_impactFields :
    (o.impactFields.map Prod.fst).Sublist ["diff", "fail_on_unmapped", "max_files"] := by
  simp only [impactFields, List.map_append]
  exact (Json.keys_optional.append Json.keys_optional).append Json.keys_optional

theorem keys_lintFields :
    (o.lintFields.map Prod.fst).Sublist ["check_matches", "check_overlaps", "strict"] := by
  simp only [lintFields, List.map_append]
  exact (Json.keys_optional.append Json.keys_optional).append Json.keys_optional

theorem mem_fields {field : String × Json} (h : field ∈ o.fields) :
    field = ("impacted", .obj o.impactFields) ∨ field = ("lint", .obj o.lintFields) ∨
      (∃ text, field = ("serviceowners_file", .str text)) ∨
      (∃ text, field = ("services_file", .str text)) := by
  simp only [fields_eq, List.mem_append, or_assoc] at h
  rcases h with h | h | h | h
  · exact .inl (mem_optionalSection h)
  · exact .inr (.inl (mem_optionalSection h))
  · obtain ⟨hkey, hvalue⟩ := Json.mem_optional.mp h
    obtain ⟨text, -, htext⟩ := Option.map_eq_some_iff.mp hvalue
    exact .inr (.inr (.inl ⟨text, Prod.ext hkey htext.symm⟩))
  · obtain ⟨hkey, hvalue⟩ := Json.mem_optional.mp h
    obtain ⟨text, -, htext⟩ := Option.map_eq_some_iff.mp hvalue
    exact .inr (.inr (.inr ⟨text, Prod.ext hkey htext.symm⟩))

theorem mem_impactFields {field : String × Json} (h : field ∈ o.impactFields) :
    (∃ text, field = ("diff", .str text)) ∨ (∃ b, field = ("fail_on_unmapped", .bool b)) ∨
      (∃ n, field = ("max_files", .ofNat n)) := by
  simp only [impactFields, List.mem_append, or_assoc, Json.mem_optional, Option.map_eq_some_iff]
    at h
  rcases h with ⟨hkey, a, -, hv⟩ | ⟨hkey, a, -, hv⟩ | ⟨hkey, a, -, hv⟩
  · exact .inl ⟨a, Prod.ext hkey hv.symm⟩
  · exact .inr (.inl ⟨a, Prod.ext hkey hv.symm⟩)
  · exact .inr (.inr ⟨a, Prod.ext hkey hv.symm⟩)

theorem mem_lintFields {field : String × Json} (h : field ∈ o.lintFields) :
    ∃ key ∈ ["check_matches", "check_overlaps", "strict"], ∃ b, field = (key, .bool b) := by
  simp only [lintFields, List.mem_append, or_assoc, Json.mem_optional, Option.map_eq_some_iff]
    at h
  rcases h with ⟨hkey, a, -, hv⟩ | ⟨hkey, a, -, hv⟩ | ⟨hkey, a, -, hv⟩
  all_goals exact ⟨field.1, by simp [hkey], a, Prod.ext rfl hv.symm⟩

theorem isTable_toLayer : Settings.isTable o.toLayer = true := by
  refine Json.hasFields_iff.mpr ⟨o.fields, rfl, ?_⟩
  intro field hfield
  rcases o.mem_fields hfield with rfl | rfl | ⟨text, rfl⟩ | ⟨text, rfl⟩
  · refine ⟨_, rfl, Json.hasFields_iff.mpr ⟨o.impactFields, rfl, ?_⟩⟩
    intro entry hentry
    rcases o.mem_impactFields hentry with ⟨text, rfl⟩ | ⟨b, rfl⟩ | ⟨n, rfl⟩
    · exact ⟨_, rfl, rfl⟩
    · exact ⟨_, rfl, rfl⟩
    · refine ⟨_, rfl, ?_⟩
      rw [Settings.isCount, Json.isLeaf_count.read_write]
      rfl
  · refine ⟨_, rfl, Json.hasFields_iff.mpr ⟨o.lintFields, rfl, ?_⟩⟩
    intro entry hentry
    obtain ⟨key, hkey, b, rfl⟩ := o.mem_lintFields hentry
    simp only [List.mem_cons, List.not_mem_nil, or_false] at hkey
    rcases hkey with rfl | rfl | rfl
    all_goals exact ⟨_, rfl, rfl⟩
  · exact ⟨_, rfl, rfl⟩
  · exact ⟨_, rfl, rfl⟩

theorem ordered_toLayer : o.toLayer.Ordered := by
  have hsorted := sortedByKey_of_keys _ o.keys_fields (by decide)
  refine Json.ordered_obj_iff.mpr ⟨hsorted, ?_⟩
  intro key v hv
  rcases o.mem_fields (Json.mem_of_getField? hv) with h | h | ⟨text, h⟩ | ⟨text, h⟩
  · cases h
    refine Json.ordered_obj_iff.mpr ⟨sortedByKey_of_keys _ o.keys_impactFields (by decide), ?_⟩
    intro name entry hentry
    rcases o.mem_impactFields (Json.mem_of_getField? hentry) with ⟨a, h⟩ | ⟨a, h⟩ | ⟨a, h⟩
    all_goals
      cases h
      exact Json.ordered_of_ne_obj nofun
  · cases h
    refine Json.ordered_obj_iff.mpr ⟨sortedByKey_of_keys _ o.keys_lintFields (by decide), ?_⟩
    intro name entry hentry
    obtain ⟨_, -, b, h⟩ := o.mem_lintFields (Json.mem_of_getField? hentry)
    cases h
    exact Json.ordered_of_ne_obj nofun
  all_goals
    cases h
    exact Json.ordered_of_ne_obj nofun

section Lookups

variable (name : String)

theorem at?_impacted :
    o.toLayer.at? ["impacted", name] = Json.getField? name o.impactFields := by
  rw [toLayer, Json.at?_obj_cons, fields_eq]
  simp only [Json.getField?_append, getField?_optionalSection, Json.getField?_optional]
  cases hfields : o.impactFields with
  | nil => simp [Json.getField?]
  | cons => simp [Json.at?_obj_singleton]

theorem at?_lint : o.toLayer.at? ["lint", name] = Json.getField? name o.lintFields := by
  rw [toLayer, Json.at?_obj_cons, fields_eq]
  simp only [Json.getField?_append, getField?_optionalSection, Json.getField?_optional]
  cases hfields : o.lintFields with
  | nil => simp [Json.getField?]
  | cons => simp [Json.at?_obj_singleton]

theorem at?_rulesFile : o.toLayer.at? ["serviceowners_file"] = o.rulesFile.map .str := by
  rw [toLayer, Json.at?_obj_singleton, fields_eq]
  simp [Json.getField?_append, getField?_optionalSection, Json.getField?_optional]

theorem at?_servicesFile : o.toLayer.at? ["services_file"] = o.servicesFile.map .str := by
  rw [toLayer, Json.at?_obj_singleton, fields_eq]
  simp [Json.getField?_append, getField?_optionalSection, Json.getField?_optional]

end Lookups

theorem ofTable_toLayer : ofTable o.toLayer = o := by
  simp [ofTable, at?_impacted, at?_lint, at?_rulesFile, at?_servicesFile, impactFields,
    lintFields, Json.getField?_append, Json.getField?_optional, Json.isLeaf_text.bind_map,
    Json.isLeaf_flag.bind_map, Json.isLeaf_count.bind_map]

end Overrides

end Ownership
