import Mathlib.Data.List.Forall2
import Mathlib.Data.List.TakeDrop
import Ownership.Catalog.Document
import Ownership.Proofs.Json.Merge
import Ownership.Proofs.Text.Pieces
import Ownership.Proofs.Yaml.Keys

set_option autoImplicit false

/-!
# Entries of a catalog

A catalog document is read as a whole or not at all. When each of its entries gives a service, the
catalog has these services and no others; otherwise the message calls an entry that gives none. A
key that is no name is called as YAML writes it. A few keys cannot be written, and an entry with one
of them is called by the empty text.
-/
namespace Ownership.Catalog

/-! ## Entries -/

def IsName (name : String) : Prop :=
  ∃ c ∈ name.toList, Text.isBlank c = false

/-- What a value tells about a service: nothing when it is left open, and otherwise what its table
reads as. -/
inductive Describes : Datum → Service → Prop where
  | blank : Describes .null {}
  | table {fields : List (Datum × Datum)} {s : Service}
      (h : Service.read .yaml (.table fields) = .ok s) : Describes (.table fields) s

/-- The name and the service that an entry gives. -/
inductive Gives : Datum × Datum → String × Service → Prop where
  | intro {name : String} {value : Datum} {s : Service} (hname : IsName name)
      (h : Describes value s) : Gives (.text name, value) (name, s)

/-- How a message calls the entry of a key: by its name, or by the key as it is written when that is
no name. -/
inductive Calls : Datum → String → Prop where
  | name {name : String} (h : IsName name) : Calls (.text name) name
  | written {key : Datum} {shown : String} (hkey : ∀ name, key = .text name → ¬ IsName name)
      (h : Yaml.write key = some shown) : Calls key shown

/-- The same, but a key that cannot be written is left out. -/
def CallsOrOmits (key : Datum) (name : String) : Prop :=
  Calls key name ∨ Yaml.write key = none ∧ name = ""

def nested? : Datum × Datum → Option (List (Datum × Datum))
  | (.text key, .table entries) => if key = "services" then some entries else none
  | _ => none

def textKey? : Datum × Datum → Option String
  | (.text name, _) => some name
  | _ => none

/-- The entries of the table under `services`, or of the whole document when there is none. -/
def serviceTable (entries : List (Datum × Datum)) : List (Datum × Datum) :=
  (entries.findSome? nested?).getD entries

/-- A catalog has the services that the entries give, each once and under its own name. -/
structure Holds (c : Catalog) (entries : List (Datum × Datum)) : Prop where
  names_nodup : c.names.Nodup
  mem_names_iff : ∀ name, name ∈ c.names ↔ ∃ value, (.text name, value) ∈ entries
  get?_eq_some_iff : ∀ name s, c.get? name = some s ↔
    ∃ value, (.text name, value) ∈ entries ∧ Describes value s

/-- What reading entries gives: a catalog that holds them when each gives a service, and otherwise
a message that calls one that gives none. -/
structure AllOrNothing (calls : Datum → String → Prop) (entries : List (Datum × Datum))
    (result : Except CatalogError Catalog) : Prop where
  reads_iff : (∃ c, result = .ok c) ↔ ∀ e ∈ entries, ∃ given, Gives e given
  holds : ∀ c, result = .ok c → c.Holds entries
  refuses : ∀ error, result = .error error →
    ∃ key value name reason, (key, value) ∈ entries ∧ (¬ ∃ given, Gives (key, value) given) ∧
      error = .invalid name reason ∧ calls key name

theorem isName_iff {name : String} : IsName name ↔ Text.trim name.toList ≠ [] := by
  rw [Ne, Text.trim_eq_nil_iff, IsName]
  simp only [not_forall, Bool.not_eq_true, exists_prop]

/-! ## One entry -/

theorem readName_eq_ok_iff {key : Datum} {name : String} :
    readName key = .ok name ↔ key = .text name ∧ IsName name := by
  cases key with
  | text text =>
    rw [readName, isName_iff]
    by_cases hblank : Text.trim text.toList = []
    · rw [hblank]
      refine iff_of_false nofun ?_
      rintro ⟨heq, hname⟩
      obtain rfl := Datum.text.inj heq
      exact hname hblank
    · rw [if_neg (mt List.isEmpty_iff.mp hblank)]
      constructor
      · intro h
        obtain rfl := Except.ok.inj h
        exact ⟨rfl, hblank⟩
      · rintro ⟨heq, -⟩
        obtain rfl := Datum.text.inj heq
        rfl
  | _ => exact iff_of_false nofun fun h => nomatch h.1

theorem readName_error {key : Datum} {error : CatalogError} (h : readName key = .error error) :
    (∀ name, key = .text name → ¬ IsName name) ∧
      ∃ reason, error = .invalid ((Yaml.write key).getD "") reason := by
  constructor
  · rintro name rfl hname
    cases h.symm.trans (readName_eq_ok_iff.mpr ⟨rfl, hname⟩)
  · unfold readName at h
    split at h
    · split at h
      · exact ⟨_, (Except.error.inj h).symm⟩
      · cases h
    · exact ⟨_, (Except.error.inj h).symm⟩

theorem readService_eq_ok_iff {name : String} {value : Datum} {s : Service} :
    readService name value = .ok s ↔ Describes value s := by
  cases value with
  | null =>
    constructor
    · intro h
      obtain rfl := Except.ok.inj h
      exact .blank
    · rintro ⟨⟩
      rfl
  | table fields =>
    rw [readService, mapError_eq_ok_iff]
    constructor
    · exact .table
    · rintro ⟨⟩
      assumption
  | _ => exact iff_of_false nofun nofun

theorem readService_error {name : String} {value : Datum} {error : CatalogError}
    (h : readService name value = .error error) : ∃ reason, error = .invalid name reason := by
  unfold readService at h
  split at h
  · cases h
  · next fields =>
    cases hread : Service.read .yaml (.table fields) with
    | ok s => rw [hread] at h; cases h
    | error reason => rw [hread] at h; exact ⟨reason, (Except.error.inj h).symm⟩
  · exact ⟨_, (Except.error.inj h).symm⟩

/-! ## The entries that are read -/

theorem text_same_iff {text : String} {key : Datum} :
    (Datum.text text).same key = true ↔ key = .text text := by
  cases key with
  | text other =>
    rw [Datum.same, beq_iff_eq, Datum.text.injEq]
    exact eq_comm
  | _ => exact iff_of_false (by simp [Datum.same]) nofun

/-- An entry is taken out where its key is found first; the others are left in some order. -/
theorem takeEntry?_cases (key : Datum) (entries : List (Datum × Datum)) :
    ((∀ e ∈ entries, key.same e.1 = false) ∧ takeEntry? key entries = none) ∨
      ∃ before k value after rest, entries = before ++ (k, value) :: after ∧
        (∀ e ∈ before, key.same e.1 = false) ∧ key.same k = true ∧
        takeEntry? key entries = some (value, rest) ∧ rest.Perm (before ++ after) := by
  have hsplit := List.takeWhile_append_dropWhile (p := fun e : Datum × Datum => !key.same e.1)
    (l := entries)
  have hhead := List.head?_dropWhile_not (fun e : Datum × Datum => !key.same e.1) entries
  unfold takeEntry?
  simp only [List.span_eq_takeWhile_dropWhile]
  cases hdrop : entries.dropWhile fun e => !key.same e.1 with
  | nil =>
    refine .inl ⟨?_, rfl⟩
    simpa using List.dropWhile_eq_nil_iff.mp hdrop
  | cons found after =>
    rw [hdrop] at hsplit hhead
    have hbefore : ∀ e ∈ entries.takeWhile fun e => !key.same e.1, key.same e.1 = false := by
      intro e he
      simpa using List.mem_takeWhile_imp he
    have hk : key.same found.1 = true := by simpa using hhead
    right
    cases hlast : after.getLast? with
    | none =>
      obtain rfl := List.getLast?_eq_none_iff.mp hlast
      refine ⟨_, found.1, found.2, [], _, hsplit.symm, hbefore, hk, rfl, ?_⟩
      rw [List.append_nil]
    | some last =>
      obtain ⟨front, rfl⟩ := List.getLast?_eq_some_iff.mp hlast
      refine ⟨_, found.1, found.2, front ++ [last], _ ++ last :: front, hsplit.symm, hbefore, hk,
        ?_, List.Perm.append_left _ (List.perm_append_singleton last front).symm⟩
      dsimp only
      rw [hlast, List.dropLast_concat]

theorem nested?_eq_none {e : Datum × Datum} (h : servicesKey.same e.1 = false) :
    nested? e = none := by
  unfold nested?
  split
  · next key fields =>
    refine if_neg ?_
    rintro rfl
    exact Bool.noConfusion (h.symm.trans (text_same_iff.mpr rfl))
  · rfl

theorem textKey?_eq_some_iff {e : Datum × Datum} {name : String} :
    textKey? e = some name ↔ ∃ value, e = (.text name, value) := by
  obtain ⟨key, value⟩ := e
  constructor
  · intro h
    cases key <;> cases h
    exact ⟨value, rfl⟩
  · rintro ⟨value, h⟩
    cases h
    rfl

section Distinct

variable {entries : List (Datum × Datum)}
  (hkeys : entries.Pairwise fun a b => a.1.same b.1 = false)
include hkeys

theorem serviceEntries_perm : (serviceEntries entries).Perm (serviceTable entries) := by
  rcases takeEntry?_cases servicesKey entries with ⟨hnone, htake⟩ |
    ⟨before, k, value, after, rest, rfl, hbefore, hk, htake, hrest⟩
  · have hall : entries.findSome? nested? = none :=
      List.findSome?_eq_none_iff.mpr fun e he => nested?_eq_none (hnone e he)
    rw [serviceEntries, htake, serviceTable, hall]
    exact .refl _
  · obtain rfl := text_same_iff.mp hk
    obtain ⟨-, hlater, -⟩ := List.pairwise_append.mp hkeys
    have hafter : ∀ e ∈ after, servicesKey.same e.1 = false := (List.pairwise_cons.mp hlater).1
    have hskip : before.findSome? nested? = none :=
      List.findSome?_eq_none_iff.mpr fun e he => nested?_eq_none (hbefore e he)
    have hend : after.findSome? nested? = none :=
      List.findSome?_eq_none_iff.mpr fun e he => nested?_eq_none (hafter e he)
    rw [serviceEntries, htake, serviceTable, List.findSome?_append, hskip, Option.none_or,
      List.findSome?_cons]
    cases value with
    | table fields => exact .refl _
    | _ =>
      change (rest ++ [(servicesKey, _)]).Perm
        ((after.findSome? nested?).getD (before ++ (servicesKey, _) :: after))
      rw [hend]
      exact (hrest.append_right _).trans
        ((List.perm_append_singleton _ _).trans List.perm_middle.symm)

theorem nodup_textKeys : (entries.filterMap textKey?).Nodup := by
  refine hkeys.filterMap _ ?_
  intro a b hdiffer name hname other hother hsame
  obtain ⟨value, rfl⟩ := textKey?_eq_some_iff.mp hname
  obtain ⟨value', rfl⟩ := textKey?_eq_some_iff.mp hother
  exact Bool.noConfusion (hdiffer.symm.trans (text_same_iff.mpr (congrArg _ hsame.symm)))

end Distinct

/-! ## Reading entries -/

theorem readEntries_eq_ok_iff {entries : List (Datum × Datum)} {c d : Catalog} :
    readEntries c entries = .ok d ↔ ∃ services, List.Forall₂ Gives entries services ∧
      d = ⟨services.foldl (fun sorted field => Json.setField field.1 field.2 sorted)
        c.services⟩ := by
  induction entries generalizing c with
  | nil =>
    constructor
    · intro h
      exact ⟨[], .nil, (Except.ok.inj h).symm⟩
    · rintro ⟨services, hgives, rfl⟩
      cases hgives
      rfl
  | cons e entries ih =>
    obtain ⟨key, value⟩ := e
    rw [readEntries, bind_eq_ok_iff]
    constructor
    · rintro ⟨name, hname, h⟩
      obtain ⟨s, hs, h⟩ := bind_eq_ok_iff.mp h
      obtain ⟨services, hgives, rfl⟩ := ih.mp h
      obtain ⟨rfl, hnonblank⟩ := readName_eq_ok_iff.mp hname
      exact ⟨(name, s) :: services, .cons (.intro hnonblank (readService_eq_ok_iff.mp hs)) hgives,
        rfl⟩
    · rintro ⟨services, hgives, rfl⟩
      obtain ⟨given, rest, hgiven, hrest, rfl⟩ := List.forall₂_cons_left_iff.mp hgives
      obtain ⟨hnonblank, hs⟩ := hgiven
      exact ⟨_, readName_eq_ok_iff.mpr ⟨rfl, hnonblank⟩,
        bind_eq_ok_iff.mpr ⟨_, readService_eq_ok_iff.mpr hs, ih.mpr ⟨rest, hrest, rfl⟩⟩⟩

theorem readEntries_error {entries : List (Datum × Datum)} {c : Catalog} {error : CatalogError}
    (h : readEntries c entries = .error error) :
    ∃ key value name reason, (key, value) ∈ entries ∧ (¬ ∃ given, Gives (key, value) given) ∧
      error = .invalid name reason ∧ CallsOrOmits key name := by
  induction entries generalizing c with
  | nil => cases h
  | cons e entries ih =>
    obtain ⟨key, value⟩ := e
    rw [readEntries] at h
    rcases bind_eq_error_iff.mp h with hname | ⟨name, hname, hservices⟩
    · obtain ⟨hkey, reason, rfl⟩ := readName_error hname
      refine ⟨key, value, _, reason, List.mem_cons_self, ?_, rfl, ?_⟩
      · rintro ⟨given, ⟨hnonblank, -⟩⟩
        exact hkey _ rfl hnonblank
      · cases hwrite : Yaml.write key with
        | none => exact .inr ⟨hwrite, rfl⟩
        | some shown => exact .inl (.written hkey hwrite)
    · obtain ⟨rfl, hnonblank⟩ := readName_eq_ok_iff.mp hname
      rcases bind_eq_error_iff.mp hservices with hservice | ⟨s, -, hlater⟩
      · obtain ⟨reason, rfl⟩ := readService_error hservice
        refine ⟨_, value, name, reason, List.mem_cons_self, ?_, rfl, .inl (.name hnonblank)⟩
        rintro ⟨given, ⟨-, hdescribes⟩⟩
        cases hservice.symm.trans (readService_eq_ok_iff.mpr hdescribes)
      · obtain ⟨key', value', name', reason, hmem, hrest⟩ := ih hlater
        exact ⟨key', value', name', reason, List.mem_cons_of_mem _ hmem, hrest⟩

section Given

variable {entries : List (Datum × Datum)} {services : List (String × Service)}
  (h : List.Forall₂ Gives entries services)
include h

theorem map_fst_of_gives : services.map Prod.fst = entries.filterMap textKey? := by
  induction h with
  | nil => rfl
  | cons hgives _ ih =>
    cases hgives
    rw [List.map_cons, ih]
    rfl

theorem exists_given {e : Datum × Datum} (he : e ∈ entries) :
    ∃ given ∈ services, Gives e given := by
  induction h with
  | nil => cases he
  | cons hgives _ ih =>
    rcases List.mem_cons.mp he with rfl | he
    · exact ⟨_, List.mem_cons_self, hgives⟩
    · obtain ⟨given, hmem, hgiven⟩ := ih he
      exact ⟨given, List.mem_cons_of_mem _ hmem, hgiven⟩

theorem exists_entry {given : String × Service} (hgiven : given ∈ services) :
    ∃ e ∈ entries, Gives e given := by
  induction h with
  | nil => cases hgiven
  | cons hgives _ ih =>
    rcases List.mem_cons.mp hgiven with rfl | hgiven
    · exact ⟨_, List.mem_cons_self, hgives⟩
    · obtain ⟨e, hmem, he⟩ := ih hgiven
      exact ⟨e, List.mem_cons_of_mem _ hmem, he⟩

theorem mem_services_iff {name : String} {s : Service} :
    (name, s) ∈ services ↔ ∃ value, (.text name, value) ∈ entries ∧ Describes value s := by
  constructor
  · intro hmem
    obtain ⟨e, he, hgives⟩ := exists_entry h hmem
    obtain ⟨-, hdescribes⟩ := hgives
    exact ⟨_, he, hdescribes⟩
  · rintro ⟨value, he, hdescribes⟩
    obtain ⟨given, hmem, hgives⟩ := exists_given h he
    obtain ⟨-, hother⟩ := hgives
    -- a value describes one service only, since reading it gives one
    have hread : readService name value = .ok s := readService_eq_ok_iff.mpr hdescribes
    cases hread.symm.trans (readService_eq_ok_iff.mpr hother)
    exact hmem

theorem holds_sortFields (hkeys : (entries.filterMap textKey?).Nodup) :
    Catalog.Holds ⟨Json.sortFields services⟩ entries := by
  rw [← map_fst_of_gives h] at hkeys
  have hperm := (Json.sortFields_perm hkeys).map Prod.fst
  constructor
  · exact hperm.nodup_iff.mpr hkeys
  · intro name
    change name ∈ (Json.sortFields services).map Prod.fst ↔ _
    rw [hperm.mem_iff, map_fst_of_gives h, List.mem_filterMap]
    constructor
    · rintro ⟨e, he, hkey⟩
      obtain ⟨value, rfl⟩ := textKey?_eq_some_iff.mp hkey
      exact ⟨value, he⟩
    · rintro ⟨value, he⟩
      exact ⟨_, he, rfl⟩
  · intro name s
    exact (Json.getField?_sortFields hkeys).trans (mem_services_iff h)

end Given

theorem readEntries_allOrNothing {entries : List (Datum × Datum)}
    (hkeys : (entries.filterMap textKey?).Nodup) :
    AllOrNothing CallsOrOmits entries (readEntries .empty entries) := by
  have hreads (c : Catalog) (h : readEntries .empty entries = .ok c) :
      ∃ services, List.Forall₂ Gives entries services ∧ c = ⟨Json.sortFields services⟩ :=
    readEntries_eq_ok_iff.mp h
  constructor
  · constructor
    · rintro ⟨c, hc⟩ e he
      obtain ⟨services, hgives, -⟩ := hreads c hc
      obtain ⟨given, -, hgiven⟩ := exists_given hgives he
      exact ⟨given, hgiven⟩
    · intro hall
      by_contra hnone
      obtain ⟨error, herror⟩ := exists_error_iff.mpr hnone
      obtain ⟨key, value, name, reason, hmem, hnot, -⟩ := readEntries_error herror
      exact hnot (hall _ hmem)
  · intro c hc
    obtain ⟨services, hgives, rfl⟩ := hreads c hc
    exact holds_sortFields hgives hkeys
  · intro error herror
    exact readEntries_error herror

/-! ## Documents -/

theorem Holds.of_perm {c : Catalog} {entries others : List (Datum × Datum)} (h : c.Holds entries)
    (hperm : entries.Perm others) : c.Holds others where
  names_nodup := h.names_nodup
  mem_names_iff name := by simpa only [hperm.mem_iff] using h.mem_names_iff name
  get?_eq_some_iff name s := by simpa only [hperm.mem_iff] using h.get?_eq_some_iff name s

theorem AllOrNothing.of_perm {calls : Datum → String → Prop}
    {entries others : List (Datum × Datum)} {result : Except CatalogError Catalog}
    (h : AllOrNothing calls entries result) (hperm : entries.Perm others) :
    AllOrNothing calls others result where
  reads_iff := by simpa only [hperm.mem_iff] using h.reads_iff
  holds c hc := (h.holds c hc).of_perm hperm
  refuses error herror := by simpa only [hperm.mem_iff] using h.refuses error herror

theorem nested?_eq_some {e : Datum × Datum} {fields : List (Datum × Datum)}
    (h : nested? e = some fields) : e.2 = .table fields := by
  unfold nested? at h
  split at h
  · obtain ⟨-, hfields⟩ := Option.ite_none_right_eq_some.mp h
    exact congrArg _ (Option.some.inj hfields)
  · cases h

theorem pairwise_serviceTable {nodes : List Yaml.Node} {entries : List (Datum × Datum)}
    (h : Yaml.IsBuilt nodes (.table entries)) :
    (serviceTable entries).Pairwise fun a b => a.1.same b.1 = false := by
  obtain ⟨hkeys, hvalues⟩ := h.table_inv
  unfold serviceTable
  cases hnested : entries.findSome? nested? with
  | none => exact hkeys
  | some fields =>
    obtain ⟨e, he, hfields⟩ := List.exists_of_findSome?_eq_some hnested
    have hbuilt := hvalues e he
    rw [nested?_eq_some hfields] at hbuilt
    exact hbuilt.table_inv.1

/-- A document that is a table gives its services, or calls an entry that is none; an entry whose
key cannot be written is called by the empty text. -/
theorem parse_allOrNothing {text : String} {entries : List (Datum × Datum)}
    (h : Yaml.parse text = .ok (.table entries)) :
    AllOrNothing CallsOrOmits (serviceTable entries) (parse text) := by
  obtain ⟨nodes, hbuilt⟩ := Yaml.isBuilt_of_parse h
  have hperm := serviceEntries_perm hbuilt.table_inv.1
  have hkeys : ((serviceEntries entries).filterMap textKey?).Nodup :=
    (hperm.filterMap _).nodup_iff.mpr (nodup_textKeys (pairwise_serviceTable hbuilt))
  have hparse : parse text = readEntries .empty (serviceEntries entries) := by
    rw [parse, h]
    rfl
  rw [hparse]
  exact (readEntries_allOrNothing hkeys).of_perm hperm

theorem exists_table (text : String) (check : List (Datum × Datum) → Bool)
    (h : (match Yaml.parse text with
      | .ok (.table entries) => check entries
      | _ => false) = true) :
    ∃ entries, Yaml.parse text = .ok (.table entries) ∧ check entries = true := by
  split at h
  · next entries hparse => exact ⟨entries, hparse, h⟩
  · cases h

theorem parse_allOrNothing_services :
    ∃ entries,
      Yaml.parse "version: 1\nservices:\n  web:\n  api:\n    owners: [alice]\n" =
        .ok (.table entries) ∧
      (serviceTable entries).filterMap textKey? = ["web", "api"] ∧
      (parse "version: 1\nservices:\n  web:\n  api:\n    owners: [alice]\n").toOption.map
        names = some ["api", "web"] ∧
      AllOrNothing CallsOrOmits (serviceTable entries)
        (parse "version: 1\nservices:\n  web:\n  api:\n    owners: [alice]\n") := by
  obtain ⟨entries, hparse, hnames⟩ := exists_table
    "version: 1\nservices:\n  web:\n  api:\n    owners: [alice]\n"
    (fun entries => (serviceTable entries).filterMap textKey? = ["web", "api"])
    (by decide +kernel)
  exact ⟨entries, hparse, of_decide_eq_true hnames, by decide +kernel, parse_allOrNothing hparse⟩

/-- The key is a table whose only key is one with a single entry itself, which cannot be written, so
the message calls no entry. -/
theorem parse_not_allOrNothing_unwritable :
    ∃ entries, Yaml.parse "? \x7b? \x7ba: b\x7d : \x7d\n" = .ok (.table entries) ∧
      ¬ AllOrNothing Calls (serviceTable entries) (parse "? \x7b? \x7ba: b\x7d : \x7d\n") := by
  obtain ⟨entries, hparse, hcheck⟩ := exists_table "? \x7b? \x7ba: b\x7d : \x7d\n"
    (fun entries => (serviceTable entries).all fun e =>
      (textKey? e).isNone && (Yaml.write e.1).isNone) (by decide +kernel)
  have hfails : (parse "? \x7b? \x7ba: b\x7d : \x7d\n").toOption.isNone = true := by decide +kernel
  refine ⟨entries, hparse, ?_⟩
  intro h
  cases hresult : parse "? \x7b? \x7ba: b\x7d : \x7d\n" with
  | ok c =>
    rw [hresult] at hfails
    cases hfails
  | error error =>
    obtain ⟨key, value, name, reason, hmem, -, -, hcalls⟩ := h.refuses error hresult
    have hkey := List.all_eq_true.mp hcheck _ hmem
    rw [Bool.and_eq_true, Option.isNone_iff_eq_none, Option.isNone_iff_eq_none] at hkey
    cases hcalls with
    | name => cases hkey.1
    | written hname hwrite => cases hkey.2.symm.trans hwrite

end Ownership.Catalog
