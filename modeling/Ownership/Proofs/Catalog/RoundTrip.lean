import Ownership.Catalog.Read
import Ownership.Proofs.Datum.Records

set_option autoImplicit false

/-!
# Services read back

A service is written without the fields that are empty, and an owner as a table with one entry. Data
that say this, in whatever order, are read as the same service.
-/
namespace Ownership

/-! ## Texts and owners -/

namespace Datum

variable {style : DatumStyle} {v : Json} {d : Datum}

theorem readText_of_says (s : String) (d : Datum) (h : d.Says (.str s)) :
    readText style d = .ok s := by
  cases h
  rfl

theorem readOptionalText_of_says {t : Option String} (hv : some v = t.map .str) (h : d.Says v) :
    readOptionalText style d = .ok t := by
  obtain ⟨s, rfl, rfl⟩ := Option.map_eq_some_iff.mp hv.symm
  cases h
  rfl

theorem readTexts_of_says {as : List String} (h : d.Says (.strings as)) :
    d.readList style (readText style) = .ok as :=
  readList_of_says readText_of_says h

end Datum

namespace Json

variable {key : String} {v : Json}

theorem optional_ite {b : Bool} :
    optional key (if b then none else some v) = if b then [] else [(key, v)] := by
  cases b <;> rfl

theorem eq_of_some_eq_ite {b : Bool} {w : Json} (h : some w = if b then none else some v) :
    w = v :=
  Option.some.inj (Option.some_eq_ite_none_left.mp h).2

theorem exists_text_iff {t : Option String} : (∃ w, some w = t.map str) ↔ t.isSome = true := by
  cases t <;> simp

theorem exists_ite_iff {b : Bool} :
    (∃ w, some w = if b then none else some v) ↔ b = false := by
  cases b <;> simp

end Json

namespace OwnerRef

theorem read_of_says (o : OwnerRef) (d : Datum) (h : d.Says o.toJson) :
    OwnerRef.read d = .ok o := by
  cases o <;> cases h with
  | table hperm hsaid =>
    cases hsaid with
    | cons hvalue hrest =>
      cases hvalue
      cases hrest
      rw [List.perm_singleton.mp hperm]
      rfl

theorem says_ofJson (o : OwnerRef) : (Datum.ofJson o.toJson).Says o.toJson := by
  cases o
  all_goals
    refine Datum.says_ofJson_obj (List.nodup_singleton _) (List.forall_mem_singleton.mpr ?_)
    exact Datum.says_ofJson_str _

end OwnerRef

/-! ## Contacts -/

namespace Contact

variable (c : Contact)

def slots : List (String × Option Json) :=
  [("slack", c.slack.map .str), ("email", c.email.map .str)]

/-- The contact as far as the fields in `seen` tell. -/
def part (seen : List String) : Contact where
  slack := if "slack" ∈ seen then c.slack else none
  email := if "email" ∈ seen then c.email else none

theorem toJson_eq : c.toJson = .obj (Json.given c.slots) := by
  simp [toJson, slots, Json.given]

theorem setField_of_says {style : DatumStyle} (seen : List String) (key : String) (v : Json)
    (d : Datum) (hslot : (key, some v) ∈ c.slots) (h : d.Says v) :
    setField style (c.part seen) key d = .ok (c.part (key :: seen)) := by
  simp only [slots, List.mem_cons, Prod.mk.injEq, List.not_mem_nil, or_false] at hslot
  rcases hslot with ⟨rfl, hv⟩ | ⟨rfl, hv⟩
  all_goals
    rw [setField, Datum.readOptionalText_of_says hv h]
    simp [part, Except.map]

theorem nodup_slots : (c.slots.map Prod.fst).Nodup := by
  change ["slack", "email"].Nodup
  decide

theorem part_eq_self {seen : List String}
    (h : ∀ key, key ∈ seen ↔ ∃ v, (key, some v) ∈ c.slots) : c.part seen = c := by
  simp only [part, h, slots, List.mem_cons, List.not_mem_nil, or_false, Prod.mk.injEq,
    String.reduceEq, true_and, false_and, false_or, Json.exists_text_iff]
  cases c with
  | mk slack email => cases slack <;> cases email <;> rfl

theorem eq_of_isEmpty (h : c.isEmpty = true) : c = {} := by
  obtain ⟨slack, email⟩ := c
  simpa [isEmpty] using h

theorem read_of_says (style : DatumStyle) {d : Datum} (h : d.Says c.toJson) :
    Contact.read style d = .ok c := by
  rw [toJson_eq] at h
  obtain ⟨seen, hread, hseen⟩ := Datum.readRecord_of_says c.part
    c.setField_of_says c.nodup_slots h
  rw [c.part_eq_self hseen] at hread
  exact hread

theorem says_ofJson : (Datum.ofJson c.toJson).Says c.toJson := by
  rw [toJson_eq]
  refine Datum.says_ofJson_given c.nodup_slots ?_
  intro key v hslot
  simp only [slots, List.mem_cons, Prod.mk.injEq, List.not_mem_nil, or_false] at hslot
  rcases hslot with ⟨-, hv⟩ | ⟨-, hv⟩
  all_goals exact Datum.says_ofJson_text hv

end Contact

/-! ## Services -/

namespace Service

variable (s : Service)

def slots : List (String × Option Json) :=
  [("description", s.description.map .str),
    ("owners", if s.owners.isEmpty then none else some (.arr (s.owners.map OwnerRef.toJson))),
    ("contact", if s.contact.isEmpty then none else some s.contact.toJson),
    ("docs", s.docs.map .str), ("runbook", s.runbook.map .str), ("oncall", s.oncall.map .str),
    ("dashboards", if s.dashboards.isEmpty then none else some (.strings s.dashboards)),
    ("tags", if s.tags.isEmpty then none else some (.strings s.tags))]

def part (seen : List String) : Service where
  description := if "description" ∈ seen then s.description else none
  owners := if "owners" ∈ seen then s.owners else []
  contact := if "contact" ∈ seen then s.contact else {}
  docs := if "docs" ∈ seen then s.docs else none
  runbook := if "runbook" ∈ seen then s.runbook else none
  oncall := if "oncall" ∈ seen then s.oncall else none
  dashboards := if "dashboards" ∈ seen then s.dashboards else []
  tags := if "tags" ∈ seen then s.tags else []

theorem toJson_eq : s.toJson = .obj (Json.given s.slots) := by
  simp only [toJson, slots, Json.given, List.flatMap_cons, List.flatMap_nil, List.append_nil,
    List.append_assoc, Json.optional_ite]

theorem setField_of_says {style : DatumStyle} (seen : List String) (key : String) (v : Json)
    (d : Datum) (hslot : (key, some v) ∈ s.slots) (h : d.Says v) :
    setField style (s.part seen) key d = .ok (s.part (key :: seen)) := by
  simp only [slots, List.mem_cons, Prod.mk.injEq, List.not_mem_nil, or_false] at hslot
  rcases hslot with ⟨rfl, hv⟩ | ⟨rfl, hv⟩ | ⟨rfl, hv⟩ | ⟨rfl, hv⟩ | ⟨rfl, hv⟩ | ⟨rfl, hv⟩ |
    ⟨rfl, hv⟩ | ⟨rfl, hv⟩
  · rw [setField, Datum.readOptionalText_of_says hv h]
    simp [part, Except.map]
  · cases Json.eq_of_some_eq_ite hv
    rw [setField, Datum.readList_of_says OwnerRef.read_of_says h]
    simp [part, Except.map]
  · cases Json.eq_of_some_eq_ite hv
    rw [setField, Contact.read_of_says _ style h]
    simp [part, Except.map]
  · rw [setField, Datum.readOptionalText_of_says hv h]
    simp [part, Except.map]
  · rw [setField, Datum.readOptionalText_of_says hv h]
    simp [part, Except.map]
  · rw [setField, Datum.readOptionalText_of_says hv h]
    simp [part, Except.map]
  · cases Json.eq_of_some_eq_ite hv
    rw [setField, Datum.readTexts_of_says h]
    simp [part, Except.map]
  · cases Json.eq_of_some_eq_ite hv
    rw [setField, Datum.readTexts_of_says h]
    simp [part, Except.map]

theorem part_eq_self {seen : List String}
    (h : ∀ key, key ∈ seen ↔ ∃ v, (key, some v) ∈ s.slots) : s.part seen = s := by
  have htext (t : Option String) : (if t.isSome = true then t else none) = t := by
    cases t <;> rfl
  have hlist {α : Type} (as : List α) : (if as.isEmpty = false then as else []) = as := by
    cases as <;> rfl
  have hcontact : (if s.contact.isEmpty = false then s.contact else {}) = s.contact := by
    cases hempty : s.contact.isEmpty with
    | false => rfl
    | true => exact (s.contact.eq_of_isEmpty hempty).symm
  simp only [part, h, slots, List.mem_cons, List.not_mem_nil, or_false, Prod.mk.injEq,
    String.reduceEq, true_and, false_and, false_or, Json.exists_text_iff, Json.exists_ite_iff,
    htext, hlist, hcontact]

theorem nodup_slots : (s.slots.map Prod.fst).Nodup := by
  change fieldNames.Nodup
  decide

theorem read_of_says (style : DatumStyle) {d : Datum} (h : d.Says s.toJson) :
    Service.read style d = .ok s := by
  rw [toJson_eq] at h
  obtain ⟨seen, hread, hseen⟩ := Datum.readRecord_of_says s.part s.setField_of_says s.nodup_slots h
  rw [s.part_eq_self hseen] at hread
  exact hread

theorem says_ofJson : (Datum.ofJson s.toJson).Says s.toJson := by
  rw [toJson_eq]
  refine Datum.says_ofJson_given s.nodup_slots ?_
  intro key v hslot
  simp only [slots, List.mem_cons, Prod.mk.injEq, List.not_mem_nil, or_false] at hslot
  rcases hslot with ⟨-, hv⟩ | ⟨-, hv⟩ | ⟨-, hv⟩ | ⟨-, hv⟩ | ⟨-, hv⟩ | ⟨-, hv⟩ | ⟨-, hv⟩ | ⟨-, hv⟩
  · exact Datum.says_ofJson_text hv
  · cases Json.eq_of_some_eq_ite hv
    exact Datum.says_ofJson_map OwnerRef.says_ofJson s.owners
  · cases Json.eq_of_some_eq_ite hv
    exact s.contact.says_ofJson
  · exact Datum.says_ofJson_text hv
  · exact Datum.says_ofJson_text hv
  · exact Datum.says_ofJson_text hv
  · cases Json.eq_of_some_eq_ite hv
    exact Datum.says_ofJson_map Datum.says_ofJson_str s.dashboards
  · cases Json.eq_of_some_eq_ite hv
    exact Datum.says_ofJson_map Datum.says_ofJson_str s.tags

/-- A service that is written as JSON and read again is the same, in whatever order its fields
arrive; the reader of YAML takes the same data, where an owner is a table with one key. -/
theorem read_written :
    (∀ style, Service.read style (.ofJson s.toJson) = .ok s) ∧
      ∀ style d, d.Says s.toJson → Service.read style d = .ok s :=
  ⟨fun style => s.read_of_says style s.says_ofJson, fun style _ h => s.read_of_says style h⟩

theorem read_written_blank :
    ∃ (s : Service) (d : Datum),
      s = { owners := [.team ""], contact := { email := some " " }, tags := ["x"] } ∧
      d = .table
        [(.text "tags", .list [.text "x"]),
          (.text "owners", .list [.table [(.text "team", .text "")]]),
          (.text "contact", .table [(.text "email", .text " ")])] ∧
      d.Says s.toJson ∧ Service.read .yaml d = .ok s := by
  have howner : (Datum.table [(.text "team", .text "")]).Says (OwnerRef.team "").toJson :=
    @Datum.Says.table [("team", .text "")] _ _ (.refl _) (.cons (.text "") .nil)
  have hcontact : (Datum.table [(.text "email", .text " ")]).Says
      (Contact.mk none (some " ")).toJson :=
    @Datum.Says.table [("email", .text " ")] _ _ (.refl _) (.cons (.text " ") .nil)
  have hsaid : (Datum.table
      [(.text "tags", .list [.text "x"]),
        (.text "owners", .list [.table [(.text "team", .text "")]]),
        (.text "contact", .table [(.text "email", .text " ")])]).Says
      (Service.toJson { owners := [.team ""], contact := { email := some " " }, tags := ["x"] }) :=
    @Datum.Says.table [("tags", _), ("owners", _), ("contact", _)] _ _
      (List.perm_append_singleton _ [_, _]).symm
      (.cons (.list (.cons howner .nil)) (.cons hcontact (.cons (.list (.cons (.text "x") .nil))
        .nil)))
  exact ⟨_, _, rfl, rfl, hsaid, (read_written _).2 .yaml _ hsaid⟩

end Service

end Ownership
