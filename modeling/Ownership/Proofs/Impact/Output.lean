import Mathlib.Algebra.BigOperators.Group.List.Basic
import Mathlib.Algebra.GroupWithZero.Nat
import Ownership.Proofs.Impact.Order
import Ownership.Proofs.Json.Merge

set_option autoImplicit false

/-!
# Reports as data

The output of a report has the files of each service under its name. The services of a report have
distinct names, so none takes the place of another there, and the report can be restored from what
was put out.
-/
namespace Ownership

namespace ImpactOutput

/-- The report that an output stands for: the services in their order, each with the files under its
name. -/
def toReport (o : ImpactOutput) : ImpactReport where
  services := o.impactedServices.filterMap fun name =>
    (Json.getField? name o.services).map fun entry => ⟨name, entry.files⟩
  unmapped := o.unmappedFiles
  overlaps := o.overlaps

/-- The output lists the services of the report in their order, has one entry for each and no other,
and counts the files that it lists. -/
structure AccountsFor (o : ImpactOutput) (r : ImpactReport) : Prop where
  names : o.impactedServices = r.services.map (·.service)
  names_distinct : o.impactedServices.Nodup
  entry : ∀ s ∈ r.services, ∀ found, (s.service, found) ∈ o.services ↔
    found = ⟨s.files.length, s.files⟩
  entries_perm : (o.services.map Prod.fst).Perm o.impactedServices
  total : o.totalFiles = (o.services.map fun (_, found) => found.count).sum + o.unmappedFiles.length

end ImpactOutput

namespace ImpactView

variable {v : ImpactView} (hnames : v.report.serviceNames.Nodup)
include hnames

theorem nodup_keys_services : ((v.report.services.map fun s =>
    (s.service, (⟨s.files.length, s.files⟩ : ServiceFiles))).map Prod.fst).Nodup := by
  rw [List.map_map]
  exact hnames

theorem services_output_perm : v.output.services.Perm
    (v.report.services.map fun s => (s.service, ⟨s.files.length, s.files⟩)) :=
  Json.sortFields_perm (nodup_keys_services hnames)

theorem getField?_output {s : ServiceImpact} (hs : s ∈ v.report.services) :
    Json.getField? s.service v.output.services = some ⟨s.files.length, s.files⟩ := by
  refine (Json.getField?_sortFields (nodup_keys_services hnames)).mpr ?_
  exact List.mem_map_of_mem hs

theorem toReport_output : v.output.toReport = v.report := by
  have hservices : (v.report.services.map (·.service)).filterMap (fun name =>
      (Json.getField? name v.output.services).map fun entry =>
        (⟨name, entry.files⟩ : ServiceImpact)) = v.report.services := by
    rw [List.filterMap_map]
    refine (List.filterMap_congr fun s hs => ?_).trans List.filterMap_some
    rw [Function.comp_apply, getField?_output hnames hs]
    rfl
  rw [ImpactOutput.toReport]
  exact congrArg (ImpactReport.mk · v.report.unmapped v.report.overlaps) hservices

theorem sum_counts_output :
    (v.output.services.map fun (_, found) => found.count).sum =
      (v.report.services.flatMap (·.files)).length := by
  rw [((services_output_perm hnames).map _).sum_eq, List.map_map, List.length_flatMap]
  rfl

theorem output_accountsFor : v.output.AccountsFor v.report where
  names := rfl
  names_distinct := hnames
  entry s hs found := by
    have hkeys : (v.output.services.map Prod.fst).Nodup :=
      (Json.sortedByKey_sortFields _).nodup
    rw [← Json.getField?_eq_some_iff hkeys, getField?_output hnames hs, Option.some.injEq, eq_comm]
  entries_perm := by
    have hperm := (services_output_perm hnames).map Prod.fst
    rw [List.map_map] at hperm
    exact hperm
  total := by
    rw [sum_counts_output hnames]
    exact (ImpactReport.totalFiles_eq v.report).trans List.length_append

end ImpactView

namespace Index

/-- Whatever else is shown with two reports, they are the same if their outputs are; and an output
has the whole of its report. -/
theorem impact_output_lossless (ix : Index) (paths others : List String) (view other : ImpactView) :
    { view with report := ix.impact paths }.output.AccountsFor (ix.impact paths) ∧
      ({ view with report := ix.impact paths }.output =
          { other with report := ix.impact others }.output →
        ix.impact paths = ix.impact others) := by
  have hnames := ix.nodup_serviceNames_impact paths
  have hothers := ix.nodup_serviceNames_impact others
  refine ⟨ImpactView.output_accountsFor (v := { view with report := ix.impact paths }) hnames, ?_⟩
  intro houtput
  calc ix.impact paths
      = { view with report := ix.impact paths }.output.toReport :=
        (ImpactView.toReport_output (v := { view with report := ix.impact paths }) hnames).symm
    _ = { other with report := ix.impact others }.output.toReport := by rw [houtput]
    _ = ix.impact others :=
        ImpactView.toReport_output (v := { other with report := ix.impact others }) hothers

theorem impact_output_lossless_apps :
    ∃ (ix : Index) (paths others : List String) (view other : ImpactView),
      Rules.parse ix.source "apps/** web\napps/api/** api\n" = .ok ix.rules ∧
      paths = ["apps/b", "apps/api/x", "LICENSE"] ∧
      others = ["apps/b", "apps/api/x", "apps/b", "LICENSE"] ∧ other.showFiles = true ∧
      { view with report := ix.impact paths }.output.impactedServices = ["web", "api"] ∧
      { view with report := ix.impact paths }.output =
        { other with report := ix.impact others }.output ∧
      { view with report := ix.impact paths }.output.AccountsFor (ix.impact paths) ∧
      ix.impact paths = ix.impact others := by
  obtain ⟨ix, hparse, hnames⟩ := exists_parsed "apps/** web\napps/api/** api\n"
    (fun ix => (ix.impact ["apps/b", "apps/api/x", "LICENSE"]).serviceNames = ["web", "api"])
    (by decide +kernel)
  have hdistinct : ["apps/b", "apps/api/x", "LICENSE"].eraseDups =
      ["apps/b", "apps/api/x", "apps/b", "LICENSE"].eraseDups := by decide
  have houtput : (ImpactView.mk (ix.impact ["apps/b", "apps/api/x", "LICENSE"]) .empty none false
        50).output =
      (ImpactView.mk (ix.impact ["apps/b", "apps/api/x", "apps/b", "LICENSE"]) .empty none true
        50).output := by
    rw [ix.impact_congr hdistinct]
    rfl
  obtain ⟨haccounts, heq⟩ := impact_output_lossless ix ["apps/b", "apps/api/x", "LICENSE"]
    ["apps/b", "apps/api/x", "apps/b", "LICENSE"] ⟨ix.impact [], .empty, none, false, 50⟩
    ⟨ix.impact [], .empty, none, true, 50⟩
  exact ⟨ix, _, _, _, ⟨ix.impact [], .empty, none, true, 50⟩, hparse, rfl, rfl, rfl,
    of_decide_eq_true hnames, houtput, haccounts, heq houtput⟩

end Index

end Ownership
