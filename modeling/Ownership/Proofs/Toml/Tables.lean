import Ownership.Proofs.Except
import Ownership.Proofs.Json.Merge
import Ownership.Toml.Document

set_option autoImplicit false

/-!
# Tables of a document

Every table of a document that reads has its keys sorted, each of them once, however headers and
dotted keys put it together.
-/
namespace Ownership.Toml

open Json (Ordered SortedByKey)

namespace Item

theorem fieldsToJson_setField (key : String) (item : Item) (fields : Fields) :
    fieldsToJson (Json.setField key item fields) =
      Json.setField key item.toJson (fieldsToJson fields) := by
  induction fields with
  | nil => rfl
  | cons head rest ih =>
    obtain ⟨k, found⟩ := head
    rw [fieldsToJson, Json.setField, Json.setField]
    split
    · rfl
    · split
      · rfl
      · rw [fieldsToJson, ih]

theorem getField?_fieldsToJson (key : String) (fields : Fields) :
    Json.getField? key (fieldsToJson fields) = (Json.getField? key fields).map toJson := by
  induction fields with
  | nil => rfl
  | cons head rest ih =>
    obtain ⟨k, found⟩ := head
    rw [fieldsToJson, Json.getField?, Json.getField?]
    split
    · rfl
    · exact ih

end Item

namespace Fields

def IsOrdered (fields : Fields) : Prop :=
  Ordered (.obj (Item.fieldsToJson fields))

theorem isOrdered_nil : IsOrdered [] :=
  Json.ordered_obj_iff.mpr ⟨.nil, nofun⟩

theorem IsOrdered.item {fields : Fields} (h : fields.IsOrdered) {key : String} {item : Item}
    (hitem : Json.getField? key fields = some item) : item.toJson.Ordered := by
  refine (Json.ordered_obj_iff.mp h).2 key item.toJson ?_
  rw [Item.getField?_fieldsToJson, hitem]
  rfl

theorem IsOrdered.setField {fields : Fields} (h : fields.IsOrdered) (key : String) {item : Item}
    (hitem : item.toJson.Ordered) : IsOrdered (Json.setField key item fields) := by
  obtain ⟨hsorted, hinside⟩ := Json.ordered_obj_iff.mp h
  rw [IsOrdered, Item.fieldsToJson_setField]
  refine Json.ordered_obj_iff.mpr ⟨hsorted.setField key _, ?_⟩
  intro other v hv
  by_cases hother : other = key
  · subst hother
    rw [Json.getField?_setField_self] at hv
    exact Option.some.inj hv ▸ hitem
  · rw [Json.getField?_setField_of_ne hother] at hv
    exact hinside other v hv

theorem ordered_table {origin : Origin} {inner : Fields} :
    (Item.table origin inner).toJson.Ordered ↔ inner.IsOrdered := by
  rw [Item.toJson, IsOrdered]

theorem ordered_tables {others : List Fields} {last : Fields} :
    (Item.tables others last).toJson.Ordered := by
  rw [Item.toJson]
  exact Json.ordered_of_ne_obj nofun

/-- What keeps the order in the table it changes keeps it all the way up. -/
theorem IsOrdered.alter {dotted : Bool} {change : Origin → Fields → Except Fault Fields}
    (hchange : ∀ origin (fields fields' : Fields), fields.IsOrdered →
      change origin fields = .ok fields' → fields'.IsOrdered)
    {path : List String} {origin : Origin} {fields fields' : Fields} (h : fields.IsOrdered)
    (hrun : fields.alter dotted change path origin = .ok fields') : fields'.IsOrdered := by
  induction path generalizing origin fields fields' with
  | nil =>
    rw [Fields.alter] at hrun
    exact hchange origin fields fields' h hrun
  | cons key path ih =>
    rw [Fields.alter] at hrun
    cases hfound : Json.getField? key fields with
    | none =>
      rw [hfound] at hrun
      obtain ⟨inner, hinner, hset⟩ := bind_eq_ok_iff.mp hrun
      obtain rfl := Except.ok.inj hset
      exact h.setField key (ordered_table.mpr (ih isOrdered_nil hinner))
    | some found =>
      rw [hfound] at hrun
      cases found with
      | value v => cases hrun
      | table made inner =>
        dsimp only at hrun
        split at hrun
        · cases hrun
        · obtain ⟨inner', hinner, hset⟩ := bind_eq_ok_iff.mp hrun
          obtain rfl := Except.ok.inj hset
          exact h.setField key (ordered_table.mpr (ih (ordered_table.mp (h.item hfound)) hinner))
      | tables others last =>
        obtain ⟨last', -, hset⟩ := bind_eq_ok_iff.mp hrun
        obtain rfl := Except.ok.inj hset
        exact h.setField key ordered_tables

theorem isOrdered_addTo {dotted : Bool} {key : String} {v : Json} (hv : v.Ordered)
    (origin : Origin) (fields fields' : Fields) (h : fields.IsOrdered)
    (hrun : addTo dotted key v origin fields = .ok fields') : fields'.IsOrdered := by
  unfold addTo at hrun
  split at hrun
  · cases hrun
  · split at hrun
    · obtain rfl := Except.ok.inj hrun
      refine h.setField key ?_
      rw [Item.toJson]
      exact hv
    · cases hrun

theorem IsOrdered.insert {fields fields' : Fields} (h : fields.IsOrdered) {key : List String}
    {v : Json} (hv : v.Ordered) (hrun : fields.insert key v = .ok fields') :
    fields'.IsOrdered := by
  unfold Fields.insert at hrun
  split at hrun
  · exact h.alter (isOrdered_addTo hv) hrun
  · cases hrun

theorem IsOrdered.openTable {fields fields' : Fields} (h : fields.IsOrdered) {key : String}
    (hrun : openTable key fields = .ok fields') : fields'.IsOrdered := by
  unfold Fields.openTable at hrun
  split at hrun
  · obtain rfl := Except.ok.inj hrun
    exact h.setField key (ordered_table.mpr isOrdered_nil)
  · next inner hfound =>
    obtain rfl := Except.ok.inj hrun
    exact h.setField key (ordered_table.mpr (ordered_table.mp (h.item hfound)))
  · cases hrun

theorem IsOrdered.openElement {fields fields' : Fields} (h : fields.IsOrdered) {key : String}
    (hrun : openElement key fields = .ok fields') : fields'.IsOrdered := by
  unfold Fields.openElement at hrun
  split at hrun
  · obtain rfl := Except.ok.inj hrun
    exact h.setField key ordered_tables
  · obtain rfl := Except.ok.inj hrun
    exact h.setField key ordered_tables
  · cases hrun

theorem IsOrdered.atHeader {act : String → Fields → Except Fault Fields}
    (hact : ∀ key (fields fields' : Fields), fields.IsOrdered → act key fields = .ok fields' →
      fields'.IsOrdered)
    {fields fields' : Fields} (h : fields.IsOrdered) {header : List String}
    (hrun : fields.atHeader act header = .ok fields') : fields'.IsOrdered := by
  unfold Fields.atHeader at hrun
  split at hrun
  · next last _ => exact h.alter (fun _ => hact last) hrun
  · cases hrun

end Fields

/-! ## Values -/

section Numbers

variable {cs rest rest' : List Char} {v : Json}

theorem ordered_of_integer {n : Int} (h : integer n rest = .ok (v, rest')) : v.Ordered := by
  unfold integer at h
  split at h
  · cases h
    exact Json.ordered_of_ne_obj nofun
  · cases h

theorem ordered_of_float {negative : Bool} {text : List Char}
    (h : float negative text rest = .ok (v, rest')) : v.Ordered := by
  unfold float at h
  split at h
  · split at h
    · cases h
      exact Json.ordered_of_ne_obj nofun
    · cases h
    · cases h
      exact Json.ordered_of_ne_obj nofun
  · cases h

theorem ordered_of_readBased {base : Nat} {isDigit : Char → Bool}
    (h : readBased base isDigit cs = .ok (v, rest)) : v.Ordered := by
  obtain ⟨⟨digits, left⟩, -, hvalue⟩ := bind_eq_ok_iff.mp h
  dsimp only at hvalue
  split at hvalue
  · exact ordered_of_integer hvalue
  · cases hvalue

theorem ordered_of_readDecimal {negative : Bool}
    (h : readDecimal negative cs = .ok (v, rest)) : v.Ordered := by
  obtain ⟨⟨whole, left⟩, -, hfraction⟩ := bind_eq_ok_iff.mp h
  dsimp only at hfraction
  split at hfraction
  all_goals
    obtain ⟨⟨fraction, left⟩, -, hexponent⟩ := bind_eq_ok_iff.mp hfraction
    obtain ⟨⟨exponent, left⟩, -, hnumber⟩ := bind_eq_ok_iff.mp hexponent
    dsimp only at hnumber
    split at hnumber
    · split at hnumber
      · exact ordered_of_integer hnumber
      · cases hnumber
    · exact ordered_of_float hnumber

theorem ordered_of_readNumber (h : readNumber cs = .ok (v, rest)) : v.Ordered := by
  unfold readNumber at h
  split at h
  · exact ordered_of_readBased h
  · exact ordered_of_readBased h
  · exact ordered_of_readBased h
  · dsimp only at h
    split at h
    · cases h
      exact Json.ordered_of_ne_obj nofun
    · cases h
      exact Json.ordered_of_ne_obj nofun
    · exact ordered_of_readDecimal h

theorem ordered_of_readScalar (h : readScalar cs = .ok (v, rest)) : v.Ordered := by
  obtain ⟨found, -, hvalue⟩ := bind_eq_ok_iff.mp h
  cases found with
  | none => exact ordered_of_readNumber hvalue
  | some left =>
    cases hvalue
    refine Json.ordered_obj_iff.mpr ⟨List.pairwise_singleton _ _, ?_⟩
    intro key inner hinner
    obtain ⟨-, rfl⟩ := Prod.mk.inj (List.mem_singleton.mp (Json.mem_of_getField? hinner))
    exact Json.ordered_of_ne_obj nofun

end Numbers

section Values

variable {readValue : List Char → Except Fault (Json × List Char)}

theorem exists_of_readEntry {cs rest : List Char} {key : List String} {v : Json}
    (h : readEntry readValue cs = .ok ((key, v), rest)) :
    ∃ after, readValue after = .ok (v, rest) := by
  obtain ⟨⟨found, left⟩, -, hequals⟩ := bind_eq_ok_iff.mp h
  dsimp only at hequals
  split at hequals
  · obtain ⟨⟨inner, left⟩, hvalue, hentry⟩ := bind_eq_ok_iff.mp hequals
    cases hentry
    exact ⟨_, hvalue⟩
  · cases hequals

theorem isOrdered_of_readEntries
    (hvalue : ∀ cs v rest, readValue cs = .ok (v, rest) → v.Ordered) {fuel : Nat}
    {fields fields' : Fields} {cs rest : List Char} (h : fields.IsOrdered)
    (hrun : readEntries readValue fuel fields cs = .ok (fields', rest)) : fields'.IsOrdered := by
  induction fuel generalizing fields cs with
  | zero => cases hrun
  | succ fuel ih =>
    rw [readEntries] at hrun
    obtain ⟨⟨⟨key, v⟩, left⟩, hentry, hthen⟩ := bind_eq_ok_iff.mp hrun
    obtain ⟨longer, hinsert, hnext⟩ := bind_eq_ok_iff.mp hthen
    obtain ⟨after, hread⟩ := exists_of_readEntry hentry
    have hlonger := h.insert (hvalue after v left hread) hinsert
    split at hnext
    · exact ih hlonger hnext
    · cases hnext
      exact hlonger
    · cases hnext

end Values

theorem ordered_of_readWord {word : String} {v v' : Json} {cs rest : List Char} (hv : v.Ordered)
    (h : readWord word v cs = .ok (v', rest)) : v'.Ordered := by
  unfold readWord at h
  split at h
  · cases h
    exact hv
  · cases h

theorem ordered_of_readValue {depth : Nat} {cs rest : List Char} {v : Json}
    (h : readValue depth cs = .ok (v, rest)) : v.Ordered := by
  -- the functional induction has no hypothesis for the values inside, so it goes by the depth
  induction depth using Nat.strongRecOn generalizing cs v rest with
  | ind depth ih =>
    revert h
    fun_cases readValue depth cs with
    | case1 rest' depth =>
      intro h
      obtain ⟨⟨items, left⟩, -, harray⟩ := bind_eq_ok_iff.mp h
      cases harray
      exact Json.ordered_of_ne_obj nofun
    | case2 rest' depth rest'' =>
      intro h
      cases h
      exact Fields.isOrdered_nil
    | case3 rest' depth =>
      intro h
      obtain ⟨⟨fields, left⟩, hfields, htable⟩ := bind_eq_ok_iff.mp h
      cases htable
      exact isOrdered_of_readEntries (fun cs v rest => ih depth (Nat.lt_succ_self depth))
        Fields.isOrdered_nil hfields
    | case4 => nofun
    | case5 =>
      intro h
      obtain ⟨⟨text, left⟩, -, hstring⟩ := bind_eq_ok_iff.mp h
      cases hstring
      exact Json.ordered_of_ne_obj nofun
    | case6 => exact ordered_of_readWord (Json.ordered_of_ne_obj nofun)
    | case7 => exact ordered_of_readWord (Json.ordered_of_ne_obj nofun)
    | case8 => exact ordered_of_readScalar
    | case9 => nofun

/-! ## Documents -/

namespace State

theorem isOrdered_of_addHeader {act : String → Fields → Except Fault Fields}
    (hact : ∀ key (fields fields' : Fields), fields.IsOrdered → act key fields = .ok fields' →
      fields'.IsOrdered)
    {s s' : State} (h : s.root.IsOrdered) {header : List String}
    (hrun : s.addHeader act header = .ok s') : s'.root.IsOrdered := by
  obtain ⟨root, hroot, hstate⟩ := bind_eq_ok_iff.mp hrun
  cases hstate
  exact h.atHeader hact hroot

theorem isOrdered_of_addEntry {s s' : State} (h : s.root.IsOrdered) {key : List String} {v : Json}
    (hv : v.Ordered) (hrun : s.addEntry key v = .ok s') : s'.root.IsOrdered := by
  obtain ⟨root, hroot, hstate⟩ := bind_eq_ok_iff.mp hrun
  cases hstate
  exact h.alter (fun _ _ _ hfields hinsert => hfields.insert hv hinsert) hroot

theorem isOrdered_of_readFrom {fuel : Nat} {s s' : State} {cs : List Char}
    (h : s.root.IsOrdered) (hrun : readFrom fuel s cs = .ok s') : s'.root.IsOrdered := by
  induction fuel generalizing s cs with
  | zero => cases hrun
  | succ fuel ih =>
    rw [readFrom] at hrun
    split at hrun
    · cases hrun
      exact h
    · obtain ⟨⟨header, left⟩, -, hheader⟩ := bind_eq_ok_iff.mp hrun
      dsimp only at hheader
      split at hheader
      · obtain ⟨next, hnext, hend⟩ := bind_eq_ok_iff.mp hheader
        obtain ⟨after, -, hrest⟩ := bind_eq_ok_iff.mp hend
        exact ih (isOrdered_of_addHeader (fun _ _ _ hfields => hfields.openElement) h hnext) hrest
      · cases hheader
    · obtain ⟨⟨header, left⟩, -, hheader⟩ := bind_eq_ok_iff.mp hrun
      dsimp only at hheader
      split at hheader
      · obtain ⟨next, hnext, hend⟩ := bind_eq_ok_iff.mp hheader
        obtain ⟨after, -, hrest⟩ := bind_eq_ok_iff.mp hend
        exact ih (isOrdered_of_addHeader (fun _ _ _ hfields => hfields.openTable) h hnext) hrest
      · cases hheader
    · split at hrun
      · obtain ⟨after, -, hrest⟩ := bind_eq_ok_iff.mp hrun
        exact ih h hrest
      · obtain ⟨⟨⟨key, v⟩, left⟩, hentry, hthen⟩ := bind_eq_ok_iff.mp hrun
        obtain ⟨next, hnext, hend⟩ := bind_eq_ok_iff.mp hthen
        obtain ⟨after, -, hrest⟩ := bind_eq_ok_iff.mp hend
        obtain ⟨_, hvalue⟩ := exists_of_readEntry hentry
        exact ih (isOrdered_of_addEntry h (ordered_of_readValue hvalue) hnext) hrest

end State

theorem ordered_of_parse {text : String} {table : Json} (h : parse text = .ok table) :
    table.Ordered := by
  obtain ⟨s, hs, htable⟩ := bind_eq_ok_iff.mp h
  obtain rfl := Except.ok.inj htable
  exact State.isOrdered_of_readFrom Fields.isOrdered_nil hs

end Ownership.Toml
