import Ownership.Datum
import Ownership.Proofs.Except
import Ownership.Proofs.Json.Merge

set_option autoImplicit false

/-!
# Records as they are written

Data say what a JSON value says when they differ from it in the order of fields at most. A record
is read field by field, and what has been read of it does not depend on the order: so it is enough
to look at one field at a time.
-/
namespace Ownership

namespace Json

def given (slots : List (String × Option Json)) : List (String × Json) :=
  slots.flatMap fun (key, v) => optional key v

theorem mem_given {slots : List (String × Option Json)} {key : String} {v : Json} :
    (key, v) ∈ given slots ↔ (key, some v) ∈ slots := by
  rw [given, List.mem_flatMap]
  constructor
  · rintro ⟨⟨other, found⟩, hslot, hfield⟩
    obtain ⟨hkey, hfound⟩ := mem_optional.mp hfield
    cases hkey
    cases hfound
    exact hslot
  · intro hslot
    exact ⟨_, hslot, mem_optional.mpr ⟨rfl, rfl⟩⟩

theorem keys_given (slots : List (String × Option Json)) :
    ((given slots).map Prod.fst).Sublist (slots.map Prod.fst) := by
  induction slots with
  | nil => exact .refl _
  | cons slot slots ih =>
    rw [given, List.flatMap_cons, List.map_append]
    exact keys_optional.append ih

end Json

namespace Datum

/-! ## Data that say what a value says -/

mutual

/-- The data say what the value says; the fields of an object may come in any order. -/
inductive Says : Datum → Json → Prop where
  | null : Says .null .null
  | bool (b : Bool) : Says (.bool b) (.bool b)
  | int (n : Int) : Says (.int n) (.int n)
  | float (x : Binary64) : Says (.float x) (.float x)
  | text (s : String) : Says (.text s) (.str s)
  | list {ds : List Datum} {items : List Json} (h : ItemsSay ds items) :
    Says (.list ds) (.arr items)
  | table {entries said : List (String × Datum)} {fields : List (String × Json)}
      (hperm : entries.Perm said) (h : FieldsSay said fields) :
    Says (.table (entries.map fun (key, d) => (.text key, d))) (.obj fields)

inductive ItemsSay : List Datum → List Json → Prop where
  | nil : ItemsSay [] []
  | cons {d : Datum} {item : Json} {ds : List Datum} {items : List Json} (h : Says d item)
      (hs : ItemsSay ds items) : ItemsSay (d :: ds) (item :: items)

inductive FieldsSay : List (String × Datum) → List (String × Json) → Prop where
  | nil : FieldsSay [] []
  | cons {key : String} {d : Datum} {v : Json} {said : List (String × Datum)}
      {fields : List (String × Json)} (h : Says d v) (hs : FieldsSay said fields) :
    FieldsSay ((key, d) :: said) ((key, v) :: fields)

end

theorem FieldsSay.keys_eq {said : List (String × Datum)} {fields : List (String × Json)}
    (h : FieldsSay said fields) : said.map Prod.fst = fields.map Prod.fst := by
  induction said generalizing fields with
  | nil =>
    cases h
    rfl
  | cons e said ih =>
    cases h with
    | cons _ hs => rw [List.map_cons, List.map_cons, ih hs]

theorem FieldsSay.exists_field {said : List (String × Datum)} {fields : List (String × Json)}
    (h : FieldsSay said fields) {key : String} {d : Datum} (hd : (key, d) ∈ said) :
    ∃ v, (key, v) ∈ fields ∧ d.Says v := by
  induction said generalizing fields with
  | nil => cases hd
  | cons e said ih =>
    cases h with
    | cons hsaid hs =>
      rcases List.mem_cons.mp hd with heq | hd
      · cases heq
        exact ⟨_, List.mem_cons_self, hsaid⟩
      · obtain ⟨v, hv, hsaid'⟩ := ih hs hd
        exact ⟨v, List.mem_cons_of_mem _ hv, hsaid'⟩

/-! ## Values as data -/

theorem itemsSay_ofItems {items : List Json} (h : ∀ item ∈ items, (ofJson item).Says item) :
    ItemsSay (ofItems items) items := by
  induction items with
  | nil => exact .nil
  | cons item items ih =>
    obtain ⟨hitem, hitems⟩ := List.forall_mem_cons.mp h
    exact .cons hitem (ih hitems)

theorem fieldsSay_ofFields {fields : List (String × Json)}
    (h : ∀ field ∈ fields, (ofJson field.2).Says field.2) :
    FieldsSay (ofFields fields) fields := by
  induction fields with
  | nil => exact .nil
  | cons field fields ih =>
    obtain ⟨hfield, hfields⟩ := List.forall_mem_cons.mp h
    exact .cons hfield (ih hfields)

theorem says_ofJson_obj {fields : List (String × Json)} (hkeys : (fields.map Prod.fst).Nodup)
    (h : ∀ field ∈ fields, (ofJson field.2).Says field.2) :
    (ofJson (.obj fields)).Says (.obj fields) := by
  have hsaid := fieldsSay_ofFields h
  rw [ofJson]
  refine .table (Json.sortFields_perm ?_) hsaid
  rw [hsaid.keys_eq]
  exact hkeys

theorem says_ofJson_given {slots : List (String × Option Json)}
    (hkeys : (slots.map Prod.fst).Nodup)
    (h : ∀ key v, (key, some v) ∈ slots → (ofJson v).Says v) :
    (ofJson (.obj (Json.given slots))).Says (.obj (Json.given slots)) := by
  refine says_ofJson_obj (hkeys.sublist (Json.keys_given slots)) ?_
  rintro ⟨key, v⟩ hfield
  exact h key v (Json.mem_given.mp hfield)

theorem says_ofJson_map {α : Type} {write : α → Json} (h : ∀ a, (ofJson (write a)).Says (write a))
    (as : List α) : (ofJson (.arr (as.map write))).Says (.arr (as.map write)) := by
  rw [ofJson]
  refine .list (itemsSay_ofItems ?_)
  intro item hitem
  obtain ⟨a, -, rfl⟩ := List.mem_map.mp hitem
  exact h a

theorem says_ofJson_str (s : String) : (ofJson (.str s)).Says (.str s) := by
  rw [ofJson]
  exact .text s

theorem says_ofJson_text {t : Option String} {v : Json} (hv : some v = t.map .str) :
    (ofJson v).Says v := by
  obtain ⟨s, -, rfl⟩ := Option.map_eq_some_iff.mp hv.symm
  exact says_ofJson_str s

/-! ## Reading lists and records -/

section Lists

variable {α : Type} {read : Datum → Except String α} {write : α → Json}
  (hread : ∀ a d, d.Says (write a) → read d = .ok a)
include hread

theorem mapM_of_itemsSay {as : List α} {ds : List Datum} (h : ItemsSay ds (as.map write)) :
    ds.mapM read = .ok as := by
  induction as generalizing ds with
  | nil =>
    cases h
    rfl
  | cons a as ih =>
    cases h with
    | cons hsaid hs =>
      exact mapM_cons_eq_ok_iff.mpr ⟨a, as, hread a _ hsaid, ih hs, rfl⟩

theorem readList_of_says {style : DatumStyle} {as : List α} {d : Datum}
    (h : d.Says (.arr (as.map write))) : d.readList style read = .ok as := by
  cases h with
  | list hitems => exact mapM_of_itemsSay hread hitems

end Lists

section Records

variable {α : Type} {style : DatumStyle} {names : List String}
  {set : α → String → Datum → Except String α} (part : List String → α)

/-- `part seen` is what is known of a record when the fields in `seen` have been read. -/
theorem readFields_eq_ok {entries : List (String × Datum)}
    (hset : ∀ seen, ∀ e ∈ entries, set (part seen) e.1 e.2 = .ok (part (e.1 :: seen)))
    (hkeys : (entries.map Prod.fst).Nodup) {seen : List String}
    (hnew : ∀ e ∈ entries, e.1 ∉ seen) :
    readFields style names set seen (part seen) (entries.map fun (key, d) => (.text key, d)) =
      .ok (part ((entries.map Prod.fst).reverse ++ seen)) := by
  induction entries generalizing seen with
  | nil => rfl
  | cons e entries ih =>
    obtain ⟨hfirst, hlater⟩ := List.nodup_cons.mp hkeys
    have hkept : ∀ e' ∈ entries, e'.1 ∉ e.1 :: seen := by
      intro e' he'
      rw [List.mem_cons, not_or]
      refine ⟨?_, hnew e' (List.mem_cons_of_mem e he')⟩
      intro heq
      exact hfirst (heq ▸ List.mem_map_of_mem he')
    have hfield : readFields style names set seen (part seen)
        ((e :: entries).map fun (key, d) => (.text key, d)) =
          readFields style names set (e.1 :: seen) (part (e.1 :: seen))
            (entries.map fun (key, d) => (.text key, d)) := by
      have hseen : (e.1 ∈ seen && e.1 ∈ names) = false := by
        simp [hnew e List.mem_cons_self]
      simp only [List.map_cons, readFields, untag, hseen, hset seen e List.mem_cons_self]
      rfl
    rw [hfield, ih (fun seen e' he' => hset seen e' (List.mem_cons_of_mem e he')) hlater hkept,
      List.map_cons, List.reverse_cons, List.append_assoc, List.singleton_append]

/-- A record is read back when each of its fields is, whatever has been read before. -/
theorem readRecord_of_says {slots : List (String × Option Json)} {expected : String}
    (hset : ∀ seen key v d, (key, some v) ∈ slots → d.Says v →
      set (part seen) key d = .ok (part (key :: seen)))
    (hkeys : (slots.map Prod.fst).Nodup) {d : Datum} (h : d.Says (.obj (Json.given slots))) :
    ∃ read, d.readRecord style expected names set (part []) = .ok (part read) ∧
      ∀ key, key ∈ read ↔ ∃ v, (key, some v) ∈ slots := by
  cases h with
  | @table entries said fields hperm hsaid =>
    have hnames : (entries.map Prod.fst).Perm ((Json.given slots).map Prod.fst) := by
      rw [← hsaid.keys_eq]
      exact hperm.map Prod.fst
    have hfields : ∀ seen, ∀ e ∈ entries, set (part seen) e.1 e.2 = .ok (part (e.1 :: seen)) := by
      intro seen e he
      obtain ⟨v, hv, hd⟩ := hsaid.exists_field (hperm.mem_iff.mp he)
      exact hset seen e.1 v e.2 (Json.mem_given.mp hv) hd
    have hnodup : (entries.map Prod.fst).Nodup :=
      hnames.nodup_iff.mpr (hkeys.sublist (Json.keys_given slots))
    refine ⟨_, readFields_eq_ok part hfields hnodup (fun _ _ => List.not_mem_nil), ?_⟩
    intro key
    rw [List.append_nil, List.mem_reverse, hnames.mem_iff, List.mem_map]
    constructor
    · rintro ⟨⟨key, v⟩, hfield, rfl⟩
      exact ⟨v, Json.mem_given.mp hfield⟩
    · rintro ⟨v, hslot⟩
      exact ⟨(key, v), Json.mem_given.mpr hslot, rfl⟩

end Records

/-! ## Where a field of a record comes from -/

section Fields

variable {α β : Type} {style : DatumStyle} {names : List String} {name : String}
  {set : α → String → Datum → Except String α} {seen : List String} {record result : α}
  {entries : List (Datum × Datum)}

theorem readFields_cons_eq_ok {key d : Datum}
    (h : readFields style names set seen record ((key, d) :: entries) = .ok result) :
    ∃ other changed, key.untag = .text other ∧ (other ∈ seen → other ∉ names) ∧
      set record other d = .ok changed ∧
      readFields style names set (other :: seen) changed entries = .ok result := by
  unfold readFields at h
  split at h
  · next other hkey =>
    split at h
    · cases h
    · next hnew =>
      obtain ⟨changed, hset, hrest⟩ := bind_eq_ok_iff.mp h
      refine ⟨other, changed, hkey, ?_, hset, hrest⟩
      simpa using hnew
  · cases h

variable {proj : α → β}
  (hother : ∀ record other d changed, other ≠ name → set record other d = .ok changed →
    proj changed = proj record)
include hother

/-- A field that was read stays as it is: no other one touches it, and it may not come again. -/
theorem proj_of_seen (hname : name ∈ names) (hseen : name ∈ seen)
    (h : readFields style names set seen record entries = .ok result) :
    proj result = proj record := by
  induction entries generalizing seen record with
  | nil =>
    cases h
    rfl
  | cons e entries ih =>
    obtain ⟨other, changed, -, hnew, hset, hrest⟩ := readFields_cons_eq_ok h
    have hne : other ≠ name := by
      rintro rfl
      exact hnew hseen hname
    rw [ih (List.mem_cons_of_mem other hseen) hrest, hother record other e.2 changed hne hset]

theorem exists_set_of_readFields (hname : name ∈ names)
    (h : readFields style names set seen record entries = .ok result) {key d : Datum}
    (hmem : (key, d) ∈ entries) (hkey : key.untag = .text name) :
    ∃ before after, set before name d = .ok after ∧ proj result = proj after := by
  induction entries generalizing seen record with
  | nil => cases hmem
  | cons e entries ih =>
    obtain ⟨other, changed, huntag, -, hset, hrest⟩ := readFields_cons_eq_ok h
    rcases List.mem_cons.mp hmem with rfl | hmem
    · cases huntag.symm.trans hkey
      exact ⟨record, changed, hset, proj_of_seen hother hname List.mem_cons_self hrest⟩
    · exact ih hrest hmem

end Fields

end Datum

end Ownership
