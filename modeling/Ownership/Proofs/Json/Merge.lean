import Ownership.Proofs.Json.Fields
import Ownership.Settings.Merge

set_option autoImplicit false

/-!
# Merging onto known keys

A layer that has no other keys than the object below it leaves the keys of that object as they are,
and changes the value under each of its own.
-/
namespace Ownership.Json

section Lookup

variable {α : Type} {key other : String} {value : α} {fields : List (String × α)}

theorem getField?_eq_none_iff : getField? key fields = none ↔ key ∉ fields.map Prod.fst := by
  induction fields with
  | nil => simp [getField?]
  | cons head rest ih =>
    by_cases h : key = head.1
    · simp [getField?, h]
    · simp [getField?, h, ih]

theorem mem_of_getField? (h : getField? key fields = some value) : (key, value) ∈ fields := by
  induction fields with
  | nil => cases h
  | cons head rest ih =>
    rw [getField?] at h
    split at h
    · next heq =>
      obtain rfl := Option.some.inj h
      exact heq ▸ List.mem_cons_self
    · exact List.mem_cons_of_mem head (ih h)

theorem SortedByKey.nodup (h : SortedByKey fields) : (fields.map Prod.fst).Nodup := by
  rw [List.Nodup, List.pairwise_map]
  refine h.imp ?_
  intro a b hlt heq
  rw [heq] at hlt
  exact String.lt_irrefl _ hlt

theorem getField?_eq_some_iff (h : (fields.map Prod.fst).Nodup) :
    getField? key fields = some value ↔ (key, value) ∈ fields := by
  refine ⟨mem_of_getField?, ?_⟩
  intro hmem
  induction fields with
  | nil => cases hmem
  | cons head rest ih =>
    rw [List.map_cons, List.nodup_cons] at h
    rcases List.mem_cons.mp hmem with rfl | hrest
    · rw [getField?, if_pos rfl]
    · have hne : key ≠ head.1 := by
        rintro rfl
        exact h.1 (List.mem_map.mpr ⟨_, hrest, rfl⟩)
      rw [getField?, if_neg hne]
      exact ih h.2 hrest

theorem getField?_sortFields (h : (fields.map Prod.fst).Nodup) :
    getField? key (sortFields fields) = some value ↔ (key, value) ∈ fields := by
  rw [getField?_eq_some_iff (sortedByKey_sortFields fields).nodup]
  exact (sortFields_perm h).mem_iff

theorem setField_eq_map (h : SortedByKey fields) (hkey : key ∈ fields.map Prod.fst) :
    setField key value fields =
      fields.map fun field => (field.1, if field.1 = key then value else field.2) := by
  induction fields with
  | nil => cases hkey
  | cons head rest ih =>
    obtain ⟨hhead, hrest⟩ := List.pairwise_cons.mp h
    by_cases heq : key = head.1
    · subst heq
      have hsame : ∀ field ∈ rest,
          (field.1, if field.1 = head.1 then value else field.2) = id field := by
        intro field hfield
        have hne : field.1 ≠ head.1 := fun heq =>
          String.lt_irrefl _ (heq ▸ hhead field hfield)
        rw [if_neg hne]
        rfl
      rw [setField, if_neg (String.lt_irrefl _), if_pos rfl, List.map_cons,
        List.map_congr_left hsame, List.map_id, if_pos rfl]
    · have hkey' : key ∈ rest.map Prod.fst := (List.mem_cons.mp hkey).resolve_left heq
      obtain ⟨field, hfield, rfl⟩ := List.mem_map.mp hkey'
      have hnlt : ¬ field.1 < head.1 := fun hlt =>
        String.lt_irrefl _ (String.lt_trans hlt (hhead field hfield))
      rw [setField, if_neg hnlt, if_neg heq, List.map_cons, ih hrest hkey',
        if_neg (Ne.symm heq)]

theorem getField?_append (key : String) (xs ys : List (String × α)) :
    getField? key (xs ++ ys) = (getField? key xs).or (getField? key ys) := by
  induction xs with
  | nil => rfl
  | cons x xs ih =>
    by_cases h : key = x.1
    · simp [getField?, h]
    · simp [getField?, h, ih]

end Lookup

/-! ## Fields that may be left out -/

section Optional

variable {key other : String} {v : Option Json}

theorem getField?_optional :
    getField? key (optional other v) = if key = other then v else none := by
  cases v <;> simp [optional, getField?]

theorem optional_eq_nil_iff : optional key v = [] ↔ v = none := by
  cases v <;> simp [optional]

theorem keys_optional : ((optional key v).map Prod.fst).Sublist [key] := by
  cases v <;> simp [optional]

theorem mem_optional {field : String × Json} :
    field ∈ optional key v ↔ field.1 = key ∧ v = some field.2 := by
  cases v <;> simp [optional, Prod.ext_iff, eq_comm]

end Optional

/-! ## One layer on another -/

def lay (old : Json) : Option Json → Json
  | none => old
  | some new => merge old new

theorem mergeFields_eq_map {base upper : List (String × Json)} (hbase : SortedByKey base)
    (hupper : (upper.map Prod.fst).Nodup)
    (hknown : ∀ key ∈ upper.map Prod.fst, key ∈ base.map Prod.fst) :
    mergeFields base upper =
      base.map fun field => (field.1, lay field.2 (getField? field.1 upper)) := by
  induction upper generalizing base with
  | nil =>
    rw [mergeFields]
    exact (List.map_id base).symm
  | cons head rest ih =>
    obtain ⟨key, value⟩ := head
    rw [List.map_cons, List.nodup_cons] at hupper
    rw [List.map_cons, List.forall_mem_cons] at hknown
    obtain ⟨hkey, hrest⟩ := hknown
    obtain ⟨old, hold⟩ : ∃ old, getField? key base = some old := by
      rw [← Option.ne_none_iff_exists']
      exact fun hnone => getField?_eq_none_iff.mp hnone hkey
    have hkeys : (setField key (merge old value) base).map Prod.fst = base.map Prod.fst := by
      rw [setField_eq_map hbase hkey, List.map_map]
      rfl
    rw [mergeFields, hold]
    change mergeFields (setField key (merge old value) base) rest = _
    rw [ih (hbase.setField key _) hupper.2 (hkeys ▸ hrest), setField_eq_map hbase hkey,
      List.map_map]
    apply List.map_congr_left
    intro field hfield
    by_cases hfirst : field.1 = key
    · have hvalue : field.2 = old := by
        have hmem : (key, field.2) ∈ base := hfirst ▸ hfield
        have hlookup := (getField?_eq_some_iff hbase.nodup).mpr hmem
        exact Option.some.inj (hlookup.symm.trans hold)
      have hnone : getField? key rest = none := getField?_eq_none_iff.mpr hupper.1
      simp [getField?, hfirst, hnone, hvalue, lay]
    · simp [getField?, hfirst]

/-! ## Tables of known keys -/

/-- Every object that keys lead to has its fields sorted. -/
def Ordered (v : Json) : Prop :=
  ∀ path fields, v.at? path = some (.obj fields) → SortedByKey fields

def hasFields (kinds : List (String × (Json → Bool))) : Json → Bool
  | .obj fields => fields.all fun field => (getField? field.1 kinds).any (· field.2)
  | _ => false

theorem at?_obj_cons (fields : List (String × Json)) (key : String) (path : List String) :
    at? (.obj fields) (key :: path) = (getField? key fields).bind (at? · path) := by
  rw [at?]
  cases getField? key fields <;> rfl

theorem at?_obj_singleton (fields : List (String × Json)) (key : String) :
    at? (.obj fields) [key] = getField? key fields := by
  rw [at?_obj_cons]
  cases getField? key fields <;> rfl

theorem at?_at? (v : Json) (path : List String) (key : String) :
    (v.at? path).bind (at? · [key]) = v.at? (path ++ [key]) := by
  induction path generalizing v with
  | nil => rfl
  | cons first path ih =>
    cases v with
    | obj fields =>
      rw [List.cons_append, at?_obj_cons, at?_obj_cons, Option.bind_assoc]
      exact congrArg _ (funext ih)
    | _ => rfl

theorem ordered_of_ne_obj {v : Json} (h : ∀ fields, v ≠ .obj fields) : Ordered v := by
  intro path fields hat
  cases path with
  | nil => exact absurd (Option.some.inj hat) (h fields)
  | cons key path =>
    cases v with
    | obj inner => exact absurd rfl (h inner)
    | _ => cases hat

theorem ordered_obj_iff {fields : List (String × Json)} :
    Ordered (.obj fields) ↔
      SortedByKey fields ∧ ∀ key v, getField? key fields = some v → Ordered v := by
  constructor
  · intro h
    refine ⟨h [] fields rfl, ?_⟩
    intro key v hv path inner hinner
    apply h (key :: path)
    rw [at?_obj_cons, hv]
    exact hinner
  · rintro ⟨hsorted, hinside⟩ path inner hinner
    cases path with
    | nil =>
      cases hinner
      exact hsorted
    | cons key path =>
      rw [at?_obj_cons] at hinner
      obtain ⟨v, hv, hat⟩ := Option.bind_eq_some_iff.mp hinner
      exact hinside key v hv path inner hat

theorem Ordered.at? {v inner : Json} {key : String} (h : Ordered v)
    (hinner : v.at? [key] = some inner) : Ordered inner := by
  cases v with
  | obj fields =>
    rw [at?_obj_singleton] at hinner
    exact (ordered_obj_iff.mp h).2 key inner hinner
  | _ => cases hinner

theorem hasFields_iff {kinds : List (String × (Json → Bool))} {v : Json} :
    hasFields kinds v = true ↔ ∃ fields, v = .obj fields ∧
      ∀ field ∈ fields, ∃ kind, getField? field.1 kinds = some kind ∧ kind field.2 = true := by
  cases v <;> simp [hasFields, Option.any_eq_true]

theorem kind_of_at? {kinds : List (String × (Json → Bool))} {v inner : Json} {key : String}
    {kind : Json → Bool} (h : hasFields kinds v = true) (hkind : getField? key kinds = some kind)
    (hinner : v.at? [key] = some inner) : kind inner = true := by
  obtain ⟨fields, rfl, hfields⟩ := hasFields_iff.mp h
  rw [at?_obj_singleton] at hinner
  obtain ⟨kind', hkind', hholds⟩ := hfields _ (mem_of_getField? hinner)
  obtain rfl := Option.some.inj (hkind'.symm.trans hkind)
  exact hholds

/-- A table of known keys is laid on an object field by field. -/
theorem lay_obj_eq (kinds : List (String × (Json → Bool))) {base : List (String × Json)}
    {found : Option Json} (hkinds : ∀ v, found = some v → hasFields kinds v = true)
    (hordered : ∀ v, found = some v → Ordered v) (hbase : SortedByKey base)
    (hknown : ∀ key ∈ kinds.map Prod.fst, key ∈ base.map Prod.fst) :
    lay (.obj base) found =
      .obj (base.map fun field => (field.1, lay field.2 (found.bind (at? · [field.1])))) := by
  cases found with
  | none => exact congrArg Json.obj (List.map_id base).symm
  | some v =>
    obtain ⟨fields, rfl, hfields⟩ := hasFields_iff.mp (hkinds v rfl)
    have hsorted := (ordered_obj_iff.mp (hordered _ rfl)).1
    have hupper : ∀ key ∈ fields.map Prod.fst, key ∈ base.map Prod.fst := by
      intro key hkey
      obtain ⟨field, hfield, rfl⟩ := List.mem_map.mp hkey
      obtain ⟨kind, hkind, -⟩ := hfields field hfield
      exact hknown _ (List.mem_map.mpr ⟨_, mem_of_getField? hkind, rfl⟩)
    rw [lay, merge, mergeFields_eq_map hbase hsorted.nodup hupper]
    congr 1
    apply List.map_congr_left
    intro field _
    rw [Option.bind_some, at?_obj_singleton]

end Ownership.Json
