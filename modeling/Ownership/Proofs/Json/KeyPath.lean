import Ownership.Proofs.Json.Merge

set_option autoImplicit false

/-!
# Layers seen along a path of keys

What merged layers have at a path of keys is decided by the last layer that says anything about it:
by a value there, or by something in the way that has no keys. A layer that says nothing about a
path leaves what is there, and a layer that lies on top can be laid on again.
-/
namespace Ownership.Json

def IsObject (v : Json) : Prop :=
  ∃ fields, v = .obj fields

/-- Something that is no object stands at a proper front of the path. -/
def Blocks (v : Json) (path : List String) : Prop :=
  ∃ front key back above, path = front ++ key :: back ∧ v.at? front = some above ∧ ¬ above.IsObject

/-- Nothing stands at the path, and nothing is in its way. -/
def Silent (v : Json) (path : List String) : Prop :=
  v.at? path = none ∧ ¬ v.Blocks path

/-! ## One step along a path -/

section Steps

variable {v : Json} {key : String} {path : List String}

theorem at?_cons_of_not_isObject (h : ¬ v.IsObject) : v.at? (key :: path) = none := by
  cases v with
  | obj fields => exact absurd ⟨fields, rfl⟩ h
  | _ => rfl

theorem at?_cons (v : Json) (key : String) (path : List String) :
    v.at? (key :: path) = (v.at? [key]).bind (at? · path) := by
  cases v with
  | obj fields => rw [at?_obj_cons, at?_obj_singleton]
  | _ => rfl

theorem not_blocks_nil (v : Json) : ¬ v.Blocks [] := by
  rintro ⟨front, key, back, above, hpath, -⟩
  exact absurd hpath.symm (List.append_ne_nil_of_right_ne_nil _ (List.cons_ne_nil _ _))

theorem blocks_cons_iff :
    v.Blocks (key :: path) ↔
      ¬ v.IsObject ∨ ∃ inner, v.at? [key] = some inner ∧ inner.Blocks path := by
  constructor
  · rintro ⟨front, next, back, above, hpath, habove, hother⟩
    cases front with
    | nil =>
      obtain rfl := Option.some.inj habove
      exact .inl hother
    | cons first front =>
      rw [List.cons_append] at hpath
      obtain ⟨rfl, hrest⟩ := List.cons.inj hpath
      rw [at?_cons] at habove
      obtain ⟨inner, hinner, habove⟩ := Option.bind_eq_some_iff.mp habove
      exact .inr ⟨inner, hinner, front, next, back, above, hrest, habove, hother⟩
  · rintro (hother | ⟨inner, hinner, front, next, back, above, rfl, habove, hother⟩)
    · exact ⟨[], key, path, v, rfl, rfl, hother⟩
    · refine ⟨key :: front, next, back, above, rfl, ?_, hother⟩
      rw [at?_cons, hinner]
      exact habove

theorem at?_eq_none_of_blocks (h : v.Blocks path) : v.at? path = none := by
  induction path generalizing v with
  | nil => exact absurd h (not_blocks_nil v)
  | cons key path ih =>
    obtain hother | ⟨inner, hinner, hblocks⟩ := blocks_cons_iff.mp h
    · exact at?_cons_of_not_isObject hother
    · rw [at?_cons, hinner]
      exact ih hblocks

theorem not_silent_nil (v : Json) : ¬ v.Silent [] :=
  fun h => nomatch h.1

theorem silent_cons_iff :
    v.Silent (key :: path) ↔
      v.IsObject ∧ ∀ inner, v.at? [key] = some inner → inner.Silent path := by
  rw [Silent, at?_cons, Option.bind_eq_none_iff, blocks_cons_iff, not_or, not_not, not_exists]
  constructor
  · rintro ⟨hnone, hobject, hopen⟩
    exact ⟨hobject, fun inner hinner => ⟨hnone inner hinner, fun h => hopen inner ⟨hinner, h⟩⟩⟩
  · rintro ⟨hobject, hsilent⟩
    exact ⟨fun inner hinner => (hsilent inner hinner).1, hobject,
      fun inner h => (hsilent inner h.1).2 h.2⟩

end Steps

/-! ## One layer on another -/

theorem merge_of_not_isObject (base : Json) {upper : Json} (h : ¬ upper.IsObject) :
    merge base upper = upper := by
  cases upper with
  | obj fields => exact absurd ⟨fields, rfl⟩ h
  | _ => rfl

theorem merge_obj_of_not_isObject {base : Json} (h : ¬ base.IsObject)
    (fields : List (String × Json)) : merge base (.obj fields) = .obj fields := by
  cases base with
  | obj old => exact absurd ⟨old, rfl⟩ h
  | _ => rfl

theorem isObject_merge (base : Json) {upper : Json} (h : upper.IsObject) :
    (merge base upper).IsObject := by
  obtain ⟨fields, rfl⟩ := h
  cases base with
  | obj old => exact ⟨mergeFields old fields, rfl⟩
  | _ => exact ⟨fields, rfl⟩

theorem getField?_mergeFields (base : List (String × Json)) {upper : List (String × Json)}
    (hupper : (upper.map Prod.fst).Nodup) (key : String) :
    getField? key (mergeFields base upper) = match getField? key base with
      | none => getField? key upper
      | some old => some (lay old (getField? key upper)) := by
  induction upper generalizing base with
  | nil =>
    rw [mergeFields]
    cases getField? key base <;> rfl
  | cons head rest ih =>
    obtain ⟨first, value⟩ := head
    rw [List.map_cons, List.nodup_cons] at hupper
    rw [mergeFields, ih _ hupper.2]
    by_cases heq : key = first
    · subst heq
      rw [getField?_setField_self, getField?_eq_none_iff.mpr hupper.1, getField?, if_pos rfl]
      cases getField? key base <;> rfl
    · rw [getField?_setField_of_ne heq, getField?, if_neg heq]

theorem at?_merge_singleton (base : Json) {upper : Json} (hobject : upper.IsObject)
    (hupper : upper.Ordered) (key : String) :
    (merge base upper).at? [key] = match base.at? [key] with
      | none => upper.at? [key]
      | some old => some (lay old (upper.at? [key])) := by
  obtain ⟨fields, rfl⟩ := hobject
  by_cases hbase : base.IsObject
  · obtain ⟨old, rfl⟩ := hbase
    rw [merge, at?_obj_singleton, at?_obj_singleton, at?_obj_singleton]
    exact getField?_mergeFields old (ordered_obj_iff.mp hupper).1.nodup key
  · rw [merge_obj_of_not_isObject hbase, at?_cons_of_not_isObject hbase]

section Onto

variable {upper : Json} {path : List String}

theorem at?_merge_of_silent (base : Json) (hupper : upper.Ordered) (h : upper.Silent path) :
    (merge base upper).at? path = base.at? path := by
  induction path generalizing base upper with
  | nil => exact absurd h (not_silent_nil upper)
  | cons key path ih =>
    obtain ⟨hobject, hinner⟩ := silent_cons_iff.mp h
    rw [at?_cons, at?_cons base key path, at?_merge_singleton base hobject hupper]
    cases hold : base.at? [key] with
    | none =>
      have hnone := h.1
      rw [at?_cons] at hnone
      exact hnone
    | some old =>
      cases hnew : upper.at? [key] with
      | none => rfl
      | some new => exact ih old (hupper.at? hnew) (hinner new hnew)

theorem at?_merge_of_some (base : Json) (hupper : upper.Ordered) {v : Json}
    (h : upper.at? path = some v) :
    (merge base upper).at? path = some ((base.at? path).elim v (merge · v)) := by
  induction path generalizing base upper with
  | nil =>
    obtain rfl := Option.some.inj h
    rfl
  | cons key path ih =>
    rw [at?_cons] at h
    obtain ⟨new, hnew, hv⟩ := Option.bind_eq_some_iff.mp h
    have hobject : upper.IsObject := by
      by_contra hother
      rw [at?_cons_of_not_isObject hother] at hnew
      cases hnew
    rw [at?_cons, at?_cons base key path, at?_merge_singleton base hobject hupper, hnew]
    cases base.at? [key] with
    | none => exact hv
    | some old => exact ih old (hupper.at? hnew) hv

theorem at?_merge_of_blocks (base : Json) (hupper : upper.Ordered) (h : upper.Blocks path) :
    (merge base upper).at? path = none := by
  induction path generalizing base upper with
  | nil => exact absurd h (not_blocks_nil upper)
  | cons key path ih =>
    by_cases hobject : upper.IsObject
    · obtain hother | ⟨new, hnew, hblocks⟩ := blocks_cons_iff.mp h
      · exact absurd hobject hother
      · rw [at?_cons, at?_merge_singleton base hobject hupper, hnew]
        cases base.at? [key] with
        | none => exact at?_eq_none_of_blocks hblocks
        | some old => exact ih old (hupper.at? hnew) hblocks
    · rw [merge_of_not_isObject base hobject, at?_cons_of_not_isObject hobject]

end Onto

/-! ## Order and repetition -/

theorem SortedByKey.mergeFields {base : List (String × Json)} (h : SortedByKey base)
    (upper : List (String × Json)) : SortedByKey (mergeFields base upper) := by
  induction upper generalizing base with
  | nil => exact h
  | cons head rest ih => exact ih (h.setField head.1 _)

theorem eq_or_eq_mergeFields_of_merge {base upper : Json} {fields : List (String × Json)}
    (h : merge base upper = .obj fields) : upper = .obj fields ∨
      ∃ old new, base = .obj old ∧ upper = .obj new ∧ fields = mergeFields old new := by
  by_cases hupper : upper.IsObject
  · obtain ⟨new, rfl⟩ := hupper
    by_cases hbase : base.IsObject
    · obtain ⟨old, rfl⟩ := hbase
      exact .inr ⟨old, new, rfl, rfl, (Json.obj.inj h).symm⟩
    · exact .inl ((merge_obj_of_not_isObject hbase new).symm.trans h)
  · exact .inl ((merge_of_not_isObject base hupper).symm.trans h)

theorem Ordered.merge {base upper : Json} (hbase : base.Ordered) (hupper : upper.Ordered) :
    (base.merge upper).Ordered := by
  intro path fields hat
  by_cases hsilent : upper.Silent path
  · exact hbase path fields (at?_merge_of_silent base hupper hsilent ▸ hat)
  · cases hnew : upper.at? path with
    | none =>
      have hblocks : upper.Blocks path := by
        by_contra hopen
        exact hsilent ⟨hnew, hopen⟩
      rw [at?_merge_of_blocks base hupper hblocks] at hat
      cases hat
    | some new =>
      rw [at?_merge_of_some base hupper hnew] at hat
      cases hold : base.at? path with
      | none =>
        rw [hold] at hat
        exact hupper path fields (hnew.trans hat)
      | some old =>
        rw [hold] at hat
        rcases eq_or_eq_mergeFields_of_merge (Option.some.inj hat) with
          rfl | ⟨inner, outer, rfl, rfl, rfl⟩
        · exact hupper path fields hnew
        · exact (hbase path inner hold).mergeFields outer

theorem induction_at {motive : Json → Prop} (leaf : ∀ v, ¬ v.IsObject → motive v)
    (object : ∀ fields, (∀ key v, getField? key fields = some v → motive v) → motive (.obj fields))
    (v : Json) : motive v :=
  match v with
  | .obj fields => object fields fun key v h =>
    have hsmaller : sizeOf v < sizeOf fields := by
      have hmem := List.sizeOf_lt_of_mem (mem_of_getField? h)
      simp only [Prod.mk.sizeOf_spec] at hmem
      omega
    induction_at leaf object v
  | .null | .bool _ | .int _ | .float _ | .str _ | .arr _ => leaf _ nofun
termination_by sizeOf v

theorem null_merge (v : Json) : merge .null v = v := by
  cases v <;> rfl

theorem exists_laid_of_merge {base : Json} {fields merged : List (String × Json)}
    (hbase : base.Ordered) (hupper : (obj fields).Ordered)
    (hmerged : base.merge (.obj fields) = .obj merged) {key : String} {new : Json}
    (hnew : getField? key fields = some new) :
    ∃ old : Json, old.Ordered ∧ getField? key merged = some (old.merge new) := by
  have hlookup := at?_merge_singleton base ⟨fields, rfl⟩ hupper key
  rw [hmerged, at?_obj_singleton, at?_obj_singleton, hnew] at hlookup
  cases hold : base.at? [key] with
  | none =>
    rw [hold] at hlookup
    refine ⟨.null, ordered_of_ne_obj nofun, ?_⟩
    rw [null_merge]
    exact hlookup
  | some old =>
    rw [hold] at hlookup
    exact ⟨old, hbase.at? hold, hlookup⟩

theorem merge_merge {base upper : Json} (hbase : base.Ordered) (hupper : upper.Ordered) :
    merge (merge base upper) upper = merge base upper := by
  induction upper using induction_at generalizing base with
  | leaf v hv => rw [merge_of_not_isObject _ hv, merge_of_not_isObject _ hv]
  | object fields ih =>
    obtain ⟨hsorted, hinner⟩ := ordered_obj_iff.mp hupper
    obtain ⟨merged, hmerged⟩ := isObject_merge base ⟨fields, rfl⟩
    have hkeys : SortedByKey merged := (hbase.merge hupper) [] merged (congrArg some hmerged)
    have hknown : ∀ key ∈ fields.map Prod.fst, key ∈ merged.map Prod.fst := by
      intro key hkey
      obtain ⟨field, hfield, rfl⟩ := List.mem_map.mp hkey
      have hnew := (getField?_eq_some_iff hsorted.nodup).mpr hfield
      obtain ⟨old, -, hlaid⟩ := exists_laid_of_merge hbase hupper hmerged hnew
      exact List.mem_map.mpr ⟨_, mem_of_getField? hlaid, rfl⟩
    rw [hmerged, merge, mergeFields_eq_map hkeys hsorted.nodup hknown]
    congr 1
    refine (List.map_congr_left ?_).trans (List.map_id merged)
    intro field hfield
    cases hnew : getField? field.1 fields with
    | none => rfl
    | some new =>
      obtain ⟨old, hold, hlaid⟩ := exists_laid_of_merge hbase hupper hmerged hnew
      have hvalue : field.2 = old.merge new := Option.some.inj
        (((getField?_eq_some_iff hkeys.nodup).mpr hfield).symm.trans hlaid)
      have hagain := ih field.1 new hnew hold (hinner field.1 new hnew)
      exact Prod.ext rfl (hvalue ▸ hagain)

/-! ## A stack of layers -/

theorem mergeLayers_concat (layers : List Json) (last : Json) :
    mergeLayers (layers ++ [last]) = (mergeLayers layers).merge last :=
  List.foldl_concat ..

theorem ordered_mergeLayers {layers : List Json} (h : ∀ layer ∈ layers, layer.Ordered) :
    (mergeLayers layers).Ordered := by
  induction layers using List.reverseRecOn with
  | nil => exact ordered_of_ne_obj nofun
  | append_singleton layers last ih =>
    obtain ⟨hbelow, hlast⟩ := List.forall_mem_append.mp h
    rw [mergeLayers_concat]
    exact (ih hbelow).merge (hlast last (List.mem_singleton_self last))

theorem at?_mergeLayers_append {above : List Json} {path : List String}
    (hordered : ∀ layer ∈ above, layer.Ordered) (hsilent : ∀ layer ∈ above, layer.Silent path)
    (below : List Json) :
    (mergeLayers (below ++ above)).at? path = (mergeLayers below).at? path := by
  induction above using List.reverseRecOn with
  | nil => rw [List.append_nil]
  | append_singleton above last ih =>
    obtain ⟨habove, hlast⟩ := List.forall_mem_append.mp hordered
    obtain ⟨hquiet, hlastQuiet⟩ := List.forall_mem_append.mp hsilent
    rw [← List.append_assoc, mergeLayers_concat,
      at?_merge_of_silent _ (hlast last (List.mem_singleton_self last))
        (hlastQuiet last (List.mem_singleton_self last))]
    exact ih habove hquiet

theorem at?_mergeLayers_middle {last : Json} {above : List Json} {path : List String}
    (hordered : ∀ layer ∈ above, layer.Ordered) (hsilent : ∀ layer ∈ above, layer.Silent path)
    (below : List Json) : (mergeLayers (below ++ last :: above)).at? path =
      ((mergeLayers below).merge last).at? path := by
  have happend := at?_mergeLayers_append hordered hsilent (below ++ [last])
  rw [List.append_assoc, mergeLayers_concat] at happend
  exact happend

theorem mergeLayers_repeat {layers : List Json} (hne : layers ≠ [])
    (hordered : ∀ layer ∈ layers, layer.Ordered) :
    mergeLayers (layers ++ [layers.getLast hne]) = mergeLayers layers := by
  have hsplit := List.dropLast_append_getLast hne
  have hbelow : ∀ layer ∈ layers.dropLast, layer.Ordered := fun layer hlayer =>
    hordered layer (List.dropLast_subset layers hlayer)
  have hmerged : mergeLayers layers =
      (mergeLayers layers.dropLast).merge (layers.getLast hne) := by
    rw [← mergeLayers_concat, hsplit]
  rw [mergeLayers_concat, hmerged]
  exact merge_merge (ordered_mergeLayers hbelow) (hordered _ (List.getLast_mem hne))

def LastToSpeak (layers : List Json) (path : List String) (last : Json) : Prop :=
  ∃ below above, layers = below ++ last :: above ∧ ¬ last.Silent path ∧
    ∀ layer ∈ above, layer.Silent path

/-- What stands at a path is what the last layer to speak about it has there. Where that is an
object, the layers below may add to it. -/
theorem mergeLayers_along {layers : List Json} (hne : layers ≠ [])
    (hordered : ∀ layer ∈ layers, layer.Ordered) :
    (∀ path last, LastToSpeak layers path last →
      (∀ v, last.at? path = some v → ¬ v.IsObject → (mergeLayers layers).at? path = some v) ∧
      (∀ v, last.at? path = some v → v.IsObject →
        ∃ merged, (mergeLayers layers).at? path = some merged ∧ merged.IsObject) ∧
      (last.Blocks path → (mergeLayers layers).at? path = none)) ∧
    (∀ path, (∀ layer ∈ layers, layer.Silent path) → (mergeLayers layers).at? path = none) ∧
    mergeLayers (layers ++ [layers.getLast hne]) = mergeLayers layers := by
  refine ⟨?_, ?_, mergeLayers_repeat hne hordered⟩
  · rintro path last ⟨below, above, rfl, -, hsilent⟩
    obtain ⟨-, hordered⟩ := List.forall_mem_append.mp hordered
    obtain ⟨hlast, habove⟩ := List.forall_mem_cons.mp hordered
    rw [at?_mergeLayers_middle habove hsilent]
    refine ⟨?_, ?_, at?_merge_of_blocks _ hlast⟩
    · intro v hv hleaf
      rw [at?_merge_of_some _ hlast hv]
      cases (mergeLayers below).at? path with
      | none => rfl
      | some old => exact congrArg some (merge_of_not_isObject old hleaf)
    · intro v hv hobject
      refine ⟨_, at?_merge_of_some _ hlast hv, ?_⟩
      cases (mergeLayers below).at? path with
      | none => exact hobject
      | some old => exact isObject_merge old hobject
  · intro path hsilent
    have hnothing := at?_mergeLayers_append hordered hsilent []
    rw [List.nil_append] at hnothing
    rw [hnothing]
    cases path with
    | nil => exact absurd (hsilent _ (List.getLast_mem hne)) (not_silent_nil _)
    | cons key path => rfl

theorem ordered_singleton {key : String} {v : Json} (h : v.Ordered) :
    (obj [(key, v)]).Ordered := by
  refine ordered_obj_iff.mpr ⟨List.pairwise_singleton _ _, ?_⟩
  intro other inner hinner
  obtain ⟨-, rfl⟩ := Prod.mk.inj (List.mem_singleton.mp (mem_of_getField? hinner))
  exact h

def numberLayer : Json := .obj [("a", .int 5)]

def nullLayer : Json := .obj [("a", .obj [("c", .null)])]

def erasingLayers : List Json :=
  [.obj [("a", .obj [("b", .int 1)])], numberLayer, nullLayer]

/-- A value without keys takes away what lies below it, and a layer above starts again from
nothing. -/
theorem mergeLayers_along_erased :
    (∀ layer ∈ erasingLayers, layer.Ordered) ∧
      LastToSpeak erasingLayers ["a", "b"] numberLayer ∧ numberLayer.Blocks ["a", "b"] ∧
      (mergeLayers erasingLayers).at? ["a", "b"] = none ∧
      LastToSpeak erasingLayers ["a", "c"] nullLayer ∧ nullLayer.at? ["a", "c"] = some .null ∧
      (mergeLayers erasingLayers).at? ["a", "c"] = some .null ∧
      mergeLayers (erasingLayers ++ [nullLayer]) = mergeLayers erasingLayers := by
  have hordered : ∀ layer ∈ erasingLayers, layer.Ordered := by
    simp only [erasingLayers, List.forall_mem_cons]
    exact ⟨ordered_singleton (ordered_singleton (ordered_of_ne_obj nofun)),
      ordered_singleton (ordered_of_ne_obj nofun),
      ordered_singleton (ordered_singleton (ordered_of_ne_obj nofun)), List.forall_mem_nil _⟩
  obtain ⟨hspoken, -, hrepeat⟩ := mergeLayers_along (List.cons_ne_nil _ _) hordered
  have hblocks : numberLayer.Blocks ["a", "b"] := ⟨["a"], "b", [], .int 5, rfl, rfl, nofun⟩
  have hquiet : nullLayer.Silent ["a", "b"] := by
    refine silent_cons_iff.mpr ⟨⟨_, rfl⟩, ?_⟩
    intro inner hinner
    obtain rfl := Option.some.inj hinner
    refine silent_cons_iff.mpr ⟨⟨_, rfl⟩, ?_⟩
    intro inner hinner
    cases hinner
  have hnumber : LastToSpeak erasingLayers ["a", "b"] numberLayer :=
    ⟨[_], [nullLayer], rfl, fun hsilent => hsilent.2 hblocks, List.forall_mem_singleton.mpr hquiet⟩
  have hnull : LastToSpeak erasingLayers ["a", "c"] nullLayer :=
    ⟨[_, numberLayer], [], rfl, (fun hsilent => nomatch hsilent.1), List.forall_mem_nil _⟩
  exact ⟨hordered, hnumber, hblocks, (hspoken _ _ hnumber).2.2 hblocks, hnull, rfl,
    (hspoken _ _ hnull).1 .null rfl nofun, hrepeat⟩

end Ownership.Json
