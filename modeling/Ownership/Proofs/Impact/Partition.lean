import Mathlib.Data.Finset.Dedup
import Mathlib.Data.Finset.Card
import Ownership.Proofs.Impact.Grouping

set_option autoImplicit false

/-!
# The report is a partition

A report on changed paths files every one of them once: under the service that owns it, or with the
unmapped ones. The services stand in the order of the first paths that they own.
-/
namespace Ownership

namespace Index

theorem services_impact (ix : Index) (paths : List String) :
    (ix.impact paths).services =
      (ix.owners paths).map fun service => ⟨service, ix.filesOf paths (some service)⟩ := by
  rw [impact_eq]

theorem unmapped_impact (ix : Index) (paths : List String) :
    (ix.impact paths).unmapped = ix.filesOf paths none := by
  rw [impact_eq]

theorem serviceNames_impact (ix : Index) (paths : List String) :
    (ix.impact paths).serviceNames = ix.owners paths := by
  rw [ImpactReport.serviceNames, services_impact, List.map_map]
  exact List.map_id _

theorem nodup_serviceNames_impact (ix : Index) (paths : List String) :
    (ix.impact paths).serviceNames.Nodup := by
  rw [serviceNames_impact]
  exact ix.nodup_owners paths

section Files

variable {ix : Index} {paths : List String}

theorem mem_filesOf {owner : Option String} {path : String} :
    path ∈ ix.filesOf paths owner ↔ path ∈ paths ∧ ix.owner? path = owner := by
  rw [filesOf, mem_sortPaths, mem_pathsOf]

theorem nodup_filesOf (owner : Option String) : (ix.filesOf paths owner).Nodup := by
  have hdistinct := Distinct.nodup_eraseDups paths
  exact (List.mergeSort_perm _ _).nodup_iff.mpr (hdistinct.filter _)

theorem pairwise_filesOf (owner : Option String) :
    (ix.filesOf paths owner).Pairwise (· < ·) := by
  have hsorted : (ix.filesOf paths owner).Pairwise (· ≤ ·) := pairwise_sortPaths _
  refine (hsorted.and (nodup_filesOf owner)).imp ?_
  rintro a b ⟨hle, hne⟩
  by_contra hlt
  exact hne (String.le_antisymm hle (String.not_lt.mp hlt))

theorem mem_services_impact {s : ServiceImpact} :
    s ∈ (ix.impact paths).services ↔
      s.service ∈ ix.owners paths ∧ s.files = ix.filesOf paths (some s.service) := by
  rw [services_impact, List.mem_map]
  constructor
  · rintro ⟨service, hservice, rfl⟩
    exact ⟨hservice, rfl⟩
  · rintro ⟨hservice, hfiles⟩
    refine ⟨s.service, hservice, ?_⟩
    rw [← hfiles]

theorem filed_under_iff {path service : String} :
    (∃ s ∈ (ix.impact paths).services, s.service = service ∧ path ∈ s.files) ↔
      path ∈ paths ∧ ix.owner? path = some service := by
  constructor
  · rintro ⟨s, hs, rfl, hpath⟩
    rw [(mem_services_impact.mp hs).2] at hpath
    exact mem_filesOf.mp hpath
  · rintro ⟨hpath, howner⟩
    refine ⟨⟨service, ix.filesOf paths (some service)⟩, ?_, rfl, mem_filesOf.mpr ⟨hpath, howner⟩⟩
    exact mem_services_impact.mpr ⟨mem_owners.mpr ⟨path, hpath, howner⟩, rfl⟩

theorem filed_unmapped_iff {path : String} :
    path ∈ (ix.impact paths).unmapped ↔ path ∈ paths ∧ ix.owner? path = none := by
  rw [unmapped_impact]
  exact mem_filesOf

end Files

end Index

namespace ImpactReport

def listed (r : ImpactReport) : List String :=
  r.services.flatMap (·.files) ++ r.unmapped

theorem totalFiles_eq (r : ImpactReport) : r.totalFiles = r.listed.length := by
  have hsum : ∀ services : List ServiceImpact,
      services.foldr (fun s count => s.files.length + count) r.unmapped.length =
        (services.flatMap (·.files)).length + r.unmapped.length := by
    intro services
    induction services with
    | nil => simp
    | cons s services ih =>
      rw [List.foldr_cons, List.flatMap_cons, List.length_append, ih]
      omega
  rw [totalFiles, listed, List.length_append, hsum]

/-- The report files the distinct paths among `paths` by their owners in `ix`. -/
structure IsPartition (r : ImpactReport) (ix : Index) (paths : List String) : Prop where
  listed_once : ∀ path ∈ paths, r.listed.count path = 1
  listed_only : ∀ path ∈ r.listed, path ∈ paths
  under_service : ∀ path ∈ paths, ∀ service,
    (∃ s ∈ r.services, s.service = service ∧ path ∈ s.files) ↔
      ∃ i, ix.resolve path = .owned service i
  in_unmapped : ∀ path ∈ paths, path ∈ r.unmapped ↔ ix.resolve path = .unmapped
  names_distinct : r.serviceNames.Nodup
  files_nonempty : ∀ s ∈ r.services, s.files ≠ []
  names_by_first_path : r.serviceNames.Pairwise fun earlier later =>
    paths.findIdx (fun path => (ix.resolve path).service? == some earlier) <
      paths.findIdx fun path => (ix.resolve path).service? == some later
  files_sorted : ∀ s ∈ r.services, s.files.Pairwise (· < ·)
  unmapped_sorted : r.unmapped.Pairwise (· < ·)
  total : r.totalFiles = paths.toFinset.card

end ImpactReport

namespace Index

theorem mem_listed_impact {ix : Index} {paths : List String} {path : String} :
    path ∈ (ix.impact paths).listed ↔ path ∈ paths := by
  rw [ImpactReport.listed, List.mem_append, List.mem_flatMap, filed_unmapped_iff]
  constructor
  · rintro (⟨s, hs, hpath⟩ | ⟨hpath, _⟩)
    · exact (filed_under_iff.mp ⟨s, hs, rfl, hpath⟩).1
    · exact hpath
  · intro hpath
    cases howner : ix.owner? path with
    | none => exact .inr ⟨hpath, rfl⟩
    | some service =>
      obtain ⟨s, hs, _, hfile⟩ := filed_under_iff.mpr ⟨hpath, howner⟩
      exact .inl ⟨s, hs, hfile⟩

/-- Different owners share no path, and an owned path is not unmapped. -/
theorem nodup_listed_impact (ix : Index) (paths : List String) :
    (ix.impact paths).listed.Nodup := by
  have hnames := ix.nodup_owners paths
  rw [ImpactReport.listed, services_impact, unmapped_impact, List.flatMap_map]
  refine List.Nodup.append (List.nodup_flatMap.mpr ⟨?_, ?_⟩) (nodup_filesOf none) ?_
  · intro service _
    exact nodup_filesOf (some service)
  · refine hnames.imp ?_
    intro a b hab path ha hb
    have howner := (mem_filesOf.mp ha).2.symm.trans (mem_filesOf.mp hb).2
    exact hab (Option.some.inj howner)
  · intro path howned hunmapped
    obtain ⟨service, _, hpath⟩ := List.mem_flatMap.mp howned
    have howner := (mem_filesOf.mp hpath).2.symm.trans (mem_filesOf.mp hunmapped).2
    cases howner

theorem totalFiles_impact (ix : Index) (paths : List String) :
    (ix.impact paths).totalFiles = paths.toFinset.card := by
  have hsame : (ix.impact paths).listed.toFinset = paths.toFinset := by
    ext path
    rw [List.mem_toFinset, List.mem_toFinset, mem_listed_impact]
  rw [ImpactReport.totalFiles_eq, ← hsame]
  exact (List.toFinset_card_of_nodup (nodup_listed_impact ix paths)).symm

/-- The report on changed paths is their partition by owner. -/
theorem impact_isPartition (ix : Index) (paths : List String) :
    (ix.impact paths).IsPartition ix paths where
  listed_once path hpath :=
    List.count_eq_one_of_mem (nodup_listed_impact ix paths) (mem_listed_impact.mpr hpath)
  listed_only path hpath := mem_listed_impact.mp hpath
  under_service path hpath service := by
    rw [filed_under_iff, owner?_eq_some]
    exact and_iff_right hpath
  in_unmapped path hpath := by
    rw [filed_unmapped_iff, owner?_eq_none]
    exact and_iff_right hpath
  names_distinct := nodup_serviceNames_impact ix paths
  files_nonempty s hs := by
    obtain ⟨howner, hfiles⟩ := mem_services_impact.mp hs
    obtain ⟨path, hpath⟩ := mem_owners.mp howner
    rw [hfiles]
    exact List.ne_nil_of_mem (mem_filesOf.mpr hpath)
  names_by_first_path := by
    rw [serviceNames_impact]
    exact Distinct.pairwise_firstIndex ix.owner? paths
  files_sorted s hs := by
    rw [(mem_services_impact.mp hs).2]
    exact pairwise_filesOf _
  unmapped_sorted := by
    rw [unmapped_impact]
    exact pairwise_filesOf none
  total := totalFiles_impact ix paths

end Index

end Ownership
