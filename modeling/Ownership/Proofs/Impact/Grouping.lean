import Ownership.Impact
import Ownership.Proofs.Distinct
import Ownership.Proofs.Index.LastMatch
import Ownership.Proofs.Json.Fields
import Ownership.Proofs.Sorting

set_option autoImplicit false

/-!
# The pass over the changed paths

What the pass holds after some paths is told by these paths alone: the owners in the order of their
first paths, each at the slot where its name stands, and under each of them its distinct paths. One
more path changes it as that description says, and so the report is the description sorted.
-/
namespace Ownership

namespace Index

def owner? (ix : Index) (path : String) : Option String :=
  (ix.resolve path).service?

/-- The distinct paths of one owner, in order; those of nobody for `none`. -/
def pathsOf (ix : Index) (paths : List String) (owner : Option String) : List String :=
  paths.eraseDups.filter fun path => ix.owner? path == owner

def filesOf (ix : Index) (paths : List String) (owner : Option String) : List String :=
  sortPaths (ix.pathsOf paths owner)

/-- The owners of some paths, each where the first of its paths stands. -/
def owners (ix : Index) (paths : List String) : List String :=
  (paths.filterMap ix.owner?).eraseDups

def contested (ix : Index) (paths : List String) : List String :=
  paths.eraseDups.filter fun path => 1 < (ix.accepterNames path).length

variable {ix : Index} {paths : List String} {path service : String}

theorem owner?_eq_some : ix.owner? path = some service ↔ ∃ i, ix.resolve path = .owned service i := by
  rw [owner?]
  cases ix.resolve path with
  | owned name i => simp [Resolution.service?]
  | unmapped => simp [Resolution.service?]

theorem owner?_eq_none : ix.owner? path = none ↔ ix.resolve path = .unmapped := by
  rw [owner?]
  cases ix.resolve path with
  | owned name i => simp [Resolution.service?]
  | unmapped => simp [Resolution.service?]

theorem mem_owners : service ∈ ix.owners paths ↔ ∃ path ∈ paths, ix.owner? path = some service := by
  rw [owners, List.mem_eraseDups, List.mem_filterMap]

theorem nodup_owners (ix : Index) (paths : List String) : (ix.owners paths).Nodup :=
  Distinct.nodup_eraseDups _

theorem mem_pathsOf {owner : Option String} :
    path ∈ ix.pathsOf paths owner ↔ path ∈ paths ∧ ix.owner? path = owner := by
  rw [pathsOf, List.mem_filter, List.mem_eraseDups, beq_iff_eq]

theorem pathsOf_of_not_mem_owners (h : service ∉ ix.owners paths) :
    ix.pathsOf paths (some service) = [] := by
  refine List.eq_nil_iff_forall_not_mem.mpr ?_
  intro path hpath
  exact h (mem_owners.mpr ⟨path, mem_pathsOf.mp hpath⟩)

/-! ## The rule that decides -/

theorem owner?_eq_getLast? (ix : Index) (path : String) :
    ix.owner? path = (ix.accepterNames path).getLast? := by
  rw [owner?, service?_resolve, accepterNames, List.getLast?_map]

theorem accepterNames_eq_nil (h : ix.owner? path = none) : ix.accepterNames path = [] :=
  List.getLast?_eq_none_iff.mp (ix.owner?_eq_getLast? path ▸ h)

theorem winner_acceptingIndices (ix : Index) (path : String) :
    ((ix.acceptingIndices path).getLast?.bind (ix.rules[·]?)).map Rule.service =
      ix.owner? path := by
  rw [owner?, resolve_eq, acceptingIndices, List.getLast?_map]
  cases hlast : (ix.acceptingRules path).getLast? with
  | none => rfl
  | some r =>
    have hrule := mem_acceptingRules.mp (List.mem_of_getLast? hlast)
    change (ix.rules[r.2]?).map Rule.service = some r.1.service
    rw [hrule.1]
    rfl

/-! ## One more path -/

theorem pathsOf_concat (h : path ∉ paths) (owner : Option String) :
    ix.pathsOf (paths ++ [path]) owner =
      ix.pathsOf paths owner ++ if ix.owner? path = owner then [path] else [] := by
  rw [pathsOf, Distinct.eraseDups_concat_of_not_mem h, List.filter_append, List.filter_singleton,
    Bool.cond_eq_ite, ← pathsOf]
  simp only [beq_iff_eq]

theorem owners_concat_of_none (h : ix.owner? path = none) :
    ix.owners (paths ++ [path]) = ix.owners paths := by
  rw [owners, List.filterMap_append]
  simp [h, owners]

theorem owners_concat_of_some (h : ix.owner? path = some service) :
    ix.owners (paths ++ [path]) =
      if service ∈ ix.owners paths then ix.owners paths else ix.owners paths ++ [service] := by
  have hlast : [path].filterMap ix.owner? = [service] := by simp [h]
  rw [owners, List.filterMap_append, hlast, Distinct.eraseDups_concat, ← owners]

theorem owners_concat_of_mem (h : path ∈ paths) : ix.owners (paths ++ [path]) = ix.owners paths := by
  cases howner : ix.owner? path with
  | none => exact owners_concat_of_none howner
  | some service =>
    rw [owners_concat_of_some howner, if_pos (mem_owners.mpr ⟨path, h, howner⟩)]

theorem contested_concat (h : path ∉ paths) :
    ix.contested (paths ++ [path]) =
      ix.contested paths ++ if 1 < (ix.accepterNames path).length then [path] else [] := by
  rw [contested, Distinct.eraseDups_concat_of_not_mem h, List.filter_append, List.filter_singleton,
    Bool.cond_eq_ite, ← contested]
  simp only [decide_eq_true_eq]

theorem sortFields_contested_concat (h : path ∉ paths) :
    Json.sortFields ((ix.contested (paths ++ [path])).map fun p => (p, ix.accepterNames p)) =
      if 1 < (ix.accepterNames path).length then
        Json.setField path (ix.accepterNames path)
          (Json.sortFields ((ix.contested paths).map fun p => (p, ix.accepterNames p)))
      else Json.sortFields ((ix.contested paths).map fun p => (p, ix.accepterNames p)) := by
  rw [contested_concat h, List.map_append]
  by_cases hmany : 1 < (ix.accepterNames path).length
  · rw [if_pos hmany, if_pos hmany, List.map_singleton, Json.sortFields_concat]
  · rw [if_neg hmany, if_neg hmany, List.map_nil, List.append_nil]

end Index

/-! ## Slots -/

theorem lookup_zipIdx {names : List String} {name : String} (h : name ∈ names) (start : Nat) :
    (names.zipIdx start).lookup name = some (start + names.idxOf name) := by
  induction names generalizing start with
  | nil => cases h
  | cons first names ih =>
    rw [List.zipIdx_cons, List.lookup_cons]
    by_cases hfirst : name = first
    · subst hfirst
      simp
    · have hname : name ∈ names := (List.mem_cons.mp h).resolve_left hfirst
      have hne : first ≠ name := Ne.symm hfirst
      rw [beq_eq_false_iff_ne.mpr hfirst, List.idxOf_cons_ne names hne]
      dsimp only
      rw [ih hname (start + 1)]
      exact congrArg some (by omega)

theorem lookup_zipIdx_eq_none {names : List String} {name : String} (h : name ∉ names)
    (start : Nat) : (names.zipIdx start).lookup name = none := by
  induction names generalizing start with
  | nil => rfl
  | cons first names ih =>
    obtain ⟨hfirst, hrest⟩ := not_or.mp (h ∘ List.mem_cons.mpr)
    rw [List.zipIdx_cons, List.lookup_cons, beq_eq_false_iff_ne.mpr hfirst]
    exact ih hrest (start + 1)

theorem modify_map_idxOf {β : Type} {names : List String} {name : String} (hnames : names.Nodup)
    (h : name ∈ names) (entry : String → β) (change : β → β) :
    (names.map entry).modify (names.idxOf name) change =
      names.map fun n => if n = name then change (entry n) else entry n := by
  induction names with
  | nil => cases h
  | cons first names ih =>
    obtain ⟨hfirst, hrest⟩ := List.nodup_cons.mp hnames
    by_cases hname : first = name
    · subst hname
      have hothers : names.map entry =
          names.map fun n => if n = first then change (entry n) else entry n := by
        refine List.map_congr_left ?_
        intro n hn
        refine (if_neg ?_).symm
        rintro rfl
        exact hfirst hn
      rw [List.idxOf_cons_self, List.map_cons, List.map_cons, if_pos rfl, ← hothers]
      rfl
    · have hmem : name ∈ names := (List.mem_cons.mp h).resolve_left (Ne.symm hname)
      rw [List.idxOf_cons_ne names hname, List.map_cons, List.map_cons, if_neg hname,
        List.modify_succ_cons, ih hrest hmem]

namespace Grouping

/-- The services of the grouping are `names`, each in the slot where its name stands. -/
structure Holds (g : Grouping) (names : List String) (files : String → List String) : Prop where
  distinct : names.Nodup
  services : g.services = names.map fun name => ⟨name, files name⟩
  slots : g.slots = names.zipIdx

namespace Holds

variable {g : Grouping} {names : List String} {files : String → List String} {service : String}
  (h : g.Holds names files)
include h

theorem fileAt_idxOf (hmem : service ∈ names) (path : String) :
    g.fileAt (names.idxOf service) path = { g with
      services := names.map fun name =>
        ⟨name, files name ++ if service = name then [path] else []⟩ } := by
  have hentries (name : String) :
      (if name = service then ⟨name, files name ++ [path]⟩ else ⟨name, files name⟩ : ServiceImpact) =
        ⟨name, files name ++ if service = name then [path] else []⟩ := by
    by_cases hname : service = name
    · rw [if_pos hname, if_pos hname.symm]
    · rw [if_neg hname, if_neg (Ne.symm hname), List.append_nil]
  simp only [fileAt, h.services, modify_map_idxOf h.distinct hmem, hentries]

theorem slotFor_of_mem (hmem : service ∈ names) :
    g.slotFor service = (names.idxOf service, g) := by
  simp only [slotFor, h.slots, lookup_zipIdx hmem, Nat.zero_add]

theorem slotFor_of_not_mem (hnew : service ∉ names) (hfiles : files service = []) :
    g.slotFor service = ((names ++ [service]).idxOf service, { g with
      services := (names ++ [service]).map fun name => ⟨name, files name⟩
      slots := (names ++ [service]).zipIdx }) := by
  simp only [slotFor, h.slots, lookup_zipIdx_eq_none hnew, h.services, List.map_append,
    List.zipIdx_append, List.idxOf_append_of_notMem hnew]
  simp [hfiles]

/-- A path is filed under its service, which stands behind the others if it is new. -/
theorem fileUnder_eq (hfiles : service ∉ names → files service = []) (path : String) :
    g.fileUnder service path = { g with
      services := (if service ∈ names then names else names ++ [service]).map fun name =>
        ⟨name, files name ++ if service = name then [path] else []⟩
      slots := (if service ∈ names then names else names ++ [service]).zipIdx } := by
  by_cases hmem : service ∈ names
  · simp only [fileUnder, h.slotFor_of_mem hmem, h.fileAt_idxOf hmem, if_pos hmem, ← h.slots]
  · have hdistinct : (names ++ [service]).Nodup :=
      h.distinct.append (List.nodup_singleton service) (List.disjoint_singleton.mpr hmem)
    have hlast : service ∈ names ++ [service] :=
      List.mem_append_right names (List.mem_singleton_self service)
    simp only [fileUnder, h.slotFor_of_not_mem hmem (hfiles hmem), if_neg hmem]
    exact fileAt_idxOf ⟨hdistinct, rfl, rfl⟩ hlast path

end Holds

theorem visit_of_seen {ix : Index} {g : Grouping} {path : String} (h : path ∈ g.seen) :
    g.visit ix path = g :=
  if_pos (List.contains_iff_mem.mpr h)

theorem visit_of_new {ix : Index} {g : Grouping} {path : String} (h : path ∉ g.seen) :
    g.visit ix path = match ix.owner? path with
      | none => { g with seen := g.seen ++ [path], unmapped := g.unmapped ++ [path] }
      | some service =>
        let g := { g with seen := g.seen ++ [path] }.fileUnder service path
        if 1 < (ix.accepterNames path).length then
          { g with overlaps := Json.setField path (ix.accepterNames path) g.overlaps }
        else g := by
  have hnew : g.seen.contains path = false := by simpa using h
  simp only [visit, hnew, Bool.false_eq_true, if_false, Index.filterMap_acceptingIndices,
    Index.length_acceptingIndices, ← Index.winner_acceptingIndices]
  cases (ix.acceptingIndices path).getLast?.bind (ix.rules[·]?) <;> rfl

/-- What the pass holds after some paths. -/
def after (ix : Index) (paths : List String) : Grouping where
  services := (ix.owners paths).map fun service => ⟨service, ix.pathsOf paths (some service)⟩
  unmapped := ix.pathsOf paths none
  overlaps := Json.sortFields
    ((ix.contested paths).map fun path => (path, ix.accepterNames path))
  slots := (ix.owners paths).zipIdx
  seen := paths.eraseDups

section Run

variable (ix : Index) {paths : List String} {path : String}

theorem visit_after_of_mem (h : path ∈ paths) :
    (after ix paths).visit ix path = after ix (paths ++ [path]) := by
  rw [visit_of_seen (List.mem_eraseDups.mpr h)]
  simp only [after, Index.pathsOf, Index.contested, Index.owners_concat_of_mem h,
    Distinct.eraseDups_concat_of_mem h]

/-- The services after some paths, as those of any grouping that has their names in the slots. -/
theorem holds_after (ix : Index) (paths seen : List String) :
    Holds { after ix paths with seen := seen } (ix.owners paths)
      fun service => ix.pathsOf paths (some service) :=
  ⟨ix.nodup_owners paths, rfl, rfl⟩

theorem visit_after_of_not_mem (h : path ∉ paths) :
    (after ix paths).visit ix path = after ix (paths ++ [path]) := by
  rw [visit_of_new (mt List.mem_eraseDups.mp h)]
  cases howner : ix.owner? path with
  | none =>
    have hnames : ix.accepterNames path = [] := Index.accepterNames_eq_nil howner
    simp [after, Index.pathsOf_concat h, Index.contested_concat h, howner, hnames,
      Index.owners_concat_of_none howner, Distinct.eraseDups_concat_of_not_mem h]
  | some service =>
    have hnew : service ∉ ix.owners paths → ix.pathsOf paths (some service) = [] :=
      Index.pathsOf_of_not_mem_owners
    have hfile := (holds_after ix paths (paths.eraseDups ++ [path])).fileUnder_eq hnew path
    simp only [after, Index.pathsOf_concat h, Index.sortFields_contested_concat h, howner,
      Index.owners_concat_of_some howner, Distinct.eraseDups_concat_of_not_mem h] at hfile ⊢
    rw [hfile]
    by_cases hmany : 1 < (ix.accepterNames path).length <;> simp [hmany]

theorem foldl_visit (paths : List String) :
    paths.foldl (visit ix) empty = after ix paths := by
  induction paths using List.reverseRecOn with
  | nil => rfl
  | append_singleton paths path ih =>
    rw [List.foldl_append, ih]
    by_cases h : path ∈ paths
    · exact visit_after_of_mem ix h
    · exact visit_after_of_not_mem ix h

end Run

end Grouping

/-- The report on changed paths, owner by owner. -/
theorem Index.impact_eq (ix : Index) (paths : List String) :
    ix.impact paths =
      { services := (ix.owners paths).map fun service => ⟨service, ix.filesOf paths (some service)⟩
        unmapped := ix.filesOf paths none
        overlaps := Json.sortFields
          ((ix.contested paths).map fun path => (path, ix.accepterNames path)) } := by
  simp only [impact, Grouping.foldl_visit, Grouping.finish, Grouping.after, filesOf, List.map_map]
  rfl

theorem Index.impact_congr (ix : Index) {paths others : List String}
    (h : paths.eraseDups = others.eraseDups) : ix.impact paths = ix.impact others := by
  have howners : ix.owners paths = ix.owners others := by
    rw [owners, owners, ← Distinct.eraseDups_filterMap_eraseDups, h,
      Distinct.eraseDups_filterMap_eraseDups]
  simp only [impact_eq, howners, filesOf, pathsOf, contested, h]

end Ownership
