import Ownership.Proofs.Impact.Partition
import Ownership.Proofs.Json.Fields
import Ownership.Report.Impact

set_option autoImplicit false

/-!
# The order of the changed paths

A report depends on the set of changed paths; how they are ordered and repeated shows in the order
of its services alone. Text, Markdown and comment rank the services, so there nothing shows.
-/
namespace Ownership

namespace ImpactReport

theorem filesFor?_eq_some_iff {r : ImpactReport} (hnames : r.serviceNames.Nodup) {service : String}
    {files : List String} :
    r.filesFor? service = some files ↔ ⟨service, files⟩ ∈ r.services := by
  rw [filesFor?, Option.map_eq_some_iff]
  constructor
  · rintro ⟨s, hfind, rfl⟩
    have hname : s.service = service := by simpa using List.find?_some hfind
    subst hname
    exact List.mem_of_find?_eq_some hfind
  · intro hmem
    cases hfind : r.services.find? (·.service == service) with
    | none =>
      have hother := List.find?_eq_none.mp hfind _ hmem
      simp at hother
    | some s =>
      have hname : s.service = service := by simpa using List.find?_some hfind
      have hs : s = ⟨service, files⟩ :=
        List.inj_on_of_nodup_map hnames (List.mem_of_find?_eq_some hfind) hmem hname
      exact ⟨s, rfl, congrArg ServiceImpact.files hs⟩

end ImpactReport

/-! ## Ranks -/

namespace ImpactView

theorem ranksBefore_iff {a b : ServiceImpact} :
    ranksBefore a b = true ↔ b.files.length < a.files.length ∨
      a.files.length = b.files.length ∧ a.service ≤ b.service := by
  simp only [ranksBefore, Bool.or_eq_true, Bool.and_eq_true, decide_eq_true_eq, beq_iff_eq,
    gt_iff_lt]

theorem ranksBefore_trans (a b c : ServiceImpact) (hab : ranksBefore a b = true)
    (hbc : ranksBefore b c = true) : ranksBefore a c = true := by
  rw [ranksBefore_iff] at hab hbc ⊢
  rcases hab with hab | ⟨hab, hnames⟩
  · left
    omega
  · rcases hbc with hbc | ⟨hbc, hnames'⟩
    · left
      omega
    · exact .inr ⟨hab.trans hbc, String.le_trans hnames hnames'⟩

theorem ranksBefore_total (a b : ServiceImpact) :
    (ranksBefore a b || ranksBefore b a) = true := by
  rw [Bool.or_eq_true, ranksBefore_iff, ranksBefore_iff]
  rcases Nat.lt_trichotomy a.files.length b.files.length with hlt | heq | hlt
  · exact .inr (.inl hlt)
  · rcases String.le_total a.service b.service with hle | hle
    · exact .inl (.inr ⟨heq, hle⟩)
    · exact .inr (.inr ⟨heq.symm, hle⟩)
  · exact .inl (.inl hlt)

theorem service_eq_of_ranksBefore {a b : ServiceImpact} (hab : ranksBefore a b = true)
    (hba : ranksBefore b a = true) : a.service = b.service := by
  rw [ranksBefore_iff] at hab hba
  rcases hab with hab | ⟨hab, hnames⟩
  · omega
  · rcases hba with hba | ⟨-, hnames'⟩
    · omega
    · exact String.le_antisymm hnames hnames'

/-- Names that are distinct leave no choice in the ranking. -/
theorem mergeSort_ranksBefore_eq {services others : List ServiceImpact}
    (hnames : (services.map (·.service)).Nodup) (hperm : services.Perm others) :
    services.mergeSort ranksBefore = others.mergeSort ranksBefore := by
  have hranked : (services.mergeSort ranksBefore).Perm (others.mergeSort ranksBefore) :=
    (List.mergeSort_perm _ _).trans (hperm.trans (List.mergeSort_perm _ _).symm)
  refine hranked.eq_of_pairwise ?_
    (List.pairwise_mergeSort ranksBefore_trans ranksBefore_total services)
    (List.pairwise_mergeSort ranksBefore_trans ranksBefore_total others)
  intro a b ha hb hab hba
  -- two services that each rank before the other agree in their names, and names are distinct
  have ha' : a ∈ services := (List.mergeSort_perm _ _).mem_iff.mp ha
  have hb' : b ∈ services := hperm.mem_iff.mpr ((List.mergeSort_perm _ _).mem_iff.mp hb)
  exact List.inj_on_of_nodup_map hnames ha' hb' (service_eq_of_ranksBefore hab hba)

end ImpactView

/-! ## Reports on the same paths -/

namespace ImpactReport

/-- The reports differ at most in the order of their services. -/
structure Rearranges (r s : ImpactReport) : Prop where
  services : r.services.Perm s.services
  names_distinct : r.serviceNames.Nodup
  unmapped : r.unmapped = s.unmapped
  overlaps : r.overlaps = s.overlaps

namespace Rearranges

variable {r s : ImpactReport} (h : r.Rearranges s)
include h

theorem filesFor?_eq (service : String) : r.filesFor? service = s.filesFor? service := by
  have hnames : s.serviceNames.Nodup :=
    (h.services.map ServiceImpact.service).nodup_iff.mp h.names_distinct
  ext files
  rw [filesFor?_eq_some_iff h.names_distinct, filesFor?_eq_some_iff hnames]
  exact h.services.mem_iff

theorem isEmpty_eq : r.isEmpty = s.isEmpty := by
  rw [isEmpty, isEmpty, h.services.isEmpty_eq, h.unmapped]

theorem hasUnmapped_eq : r.hasUnmapped = s.hasUnmapped := by
  rw [hasUnmapped, hasUnmapped, h.unmapped]

theorem ranked_eq (view : ImpactView) :
    { view with report := r }.ranked = { view with report := s }.ranked :=
  ImpactView.mergeSort_ranksBefore_eq h.names_distinct h.services

theorem toText_eq (view : ImpactView) :
    { view with report := r }.toText = { view with report := s }.toText := by
  simp only [ImpactView.toText, h.isEmpty_eq, h.hasUnmapped_eq, h.unmapped, h.services.length_eq,
    h.ranked_eq view]
  rfl

theorem toMarkdown_eq (view : ImpactView) :
    { view with report := r }.toMarkdown = { view with report := s }.toMarkdown := by
  simp only [ImpactView.toMarkdown, h.isEmpty_eq, h.hasUnmapped_eq, h.unmapped,
    h.services.length_eq, h.ranked_eq view]
  rfl

theorem toComment_eq (view : ImpactView) :
    { view with report := r }.toComment = { view with report := s }.toComment := by
  simp only [ImpactView.toComment, ImpactView.commentLines, ImpactView.commentUnmappedLines,
    h.hasUnmapped_eq, h.unmapped, h.ranked_eq view]
  rfl

end Rearranges

end ImpactReport

namespace Index

theorem overlaps_impact (ix : Index) (paths : List String) :
    (ix.impact paths).overlaps = Json.sortFields
      ((ix.contested paths).map fun path => (path, ix.accepterNames path)) := by
  rw [impact_eq]

theorem nodup_keys_contested (ix : Index) (paths : List String) :
    (((ix.contested paths).map fun path => (path, ix.accepterNames path)).map Prod.fst).Nodup := by
  rw [List.map_map]
  change ((ix.contested paths).map id).Nodup
  rw [List.map_id]
  exact (Distinct.nodup_eraseDups paths).filter _

section SamePaths

variable (ix : Index) {paths others : List String} (hsame : ∀ path, path ∈ paths ↔ path ∈ others)
include hsame

theorem filesOf_eq (owner : Option String) : ix.filesOf paths owner = ix.filesOf others owner := by
  have hperm : (ix.filesOf paths owner).Perm (ix.filesOf others owner) := by
    have hfiltered :=
      (Distinct.eraseDups_perm hsame).filter fun path => ix.owner? path == owner
    exact (List.mergeSort_perm _ _).trans (hfiltered.trans (List.mergeSort_perm _ _).symm)
  refine hperm.eq_of_pairwise ?_ (pairwise_filesOf owner) (pairwise_filesOf owner)
  intro a b _ _ hab hba
  exact absurd (String.lt_trans hab hba) (String.lt_irrefl a)

theorem owners_perm : (ix.owners paths).Perm (ix.owners others) := by
  refine Distinct.eraseDups_perm ?_
  intro service
  simp only [List.mem_filterMap, hsame]

theorem services_perm : (ix.impact paths).services.Perm (ix.impact others).services := by
  rw [services_impact, services_impact]
  simp only [ix.filesOf_eq hsame]
  exact (ix.owners_perm hsame).map _

theorem overlaps_eq : (ix.impact paths).overlaps = (ix.impact others).overlaps := by
  have hperm : (ix.contested paths).Perm (ix.contested others) :=
    (Distinct.eraseDups_perm hsame).filter _
  rw [overlaps_impact, overlaps_impact]
  exact Json.sortFields_eq_of_perm (ix.nodup_keys_contested paths) (hperm.map _)

theorem impact_rearranges : (ix.impact paths).Rearranges (ix.impact others) where
  services := ix.services_perm hsame
  names_distinct := ix.nodup_serviceNames_impact paths
  unmapped := by
    rw [unmapped_impact, unmapped_impact]
    exact ix.filesOf_eq hsame none
  overlaps := ix.overlaps_eq hsame

end SamePaths

/-- What the order and the repetition of the changed paths cannot change in a report: anything but
the order of its services. -/
structure SameUpToOrder (r s : ImpactReport) : Prop where
  services : r.services.Perm s.services
  files : ∀ service, r.filesFor? service = s.filesFor? service
  unmapped : r.unmapped = s.unmapped
  overlaps : r.overlaps = s.overlaps
  text : ∀ view : ImpactView,
    { view with report := r }.toText = { view with report := s }.toText
  markdown : ∀ view : ImpactView,
    { view with report := r }.toMarkdown = { view with report := s }.toMarkdown
  comment : ∀ view : ImpactView,
    { view with report := r }.toComment = { view with report := s }.toComment

theorem impact_sameUpToOrder (ix : Index) {paths others : List String}
    (hsame : ∀ path, path ∈ paths ↔ path ∈ others) :
    SameUpToOrder (ix.impact paths) (ix.impact others) :=
  have h := ix.impact_rearranges hsame
  { services := h.services
    files := h.filesFor?_eq
    unmapped := h.unmapped
    overlaps := h.overlaps
    text := h.toText_eq
    markdown := h.toMarkdown_eq
    comment := h.toComment_eq }

theorem impact_sameUpToOrder_apps :
    ∃ (ix : Index) (paths others : List String),
      Rules.parse ix.source "apps/** web\napps/api/** api\n" = .ok ix.rules ∧
      paths = ["apps/api/x", "LICENSE", "apps/y", "apps/api/x"] ∧
      others = ["apps/y", "apps/y", "apps/api/x", "LICENSE"] ∧
      (∀ path, path ∈ paths ↔ path ∈ others) ∧
      (ix.impact paths).serviceNames = ["api", "web"] ∧
      (ix.impact others).serviceNames = ["web", "api"] ∧
      SameUpToOrder (ix.impact paths) (ix.impact others) := by
  obtain ⟨ix, hparse, hnames⟩ := exists_parsed "apps/** web\napps/api/** api\n"
    (fun ix => (ix.impact ["apps/api/x", "LICENSE", "apps/y", "apps/api/x"]).serviceNames =
        ["api", "web"] &&
      (ix.impact ["apps/y", "apps/y", "apps/api/x", "LICENSE"]).serviceNames = ["web", "api"])
    (by decide +kernel)
  rw [Bool.and_eq_true, decide_eq_true_eq, decide_eq_true_eq] at hnames
  have hsame : ∀ path, path ∈ ["apps/api/x", "LICENSE", "apps/y", "apps/api/x"] ↔
      path ∈ ["apps/y", "apps/y", "apps/api/x", "LICENSE"] := by
    intro path
    simp only [List.mem_cons, List.not_mem_nil, or_false]
    constructor
    · rintro (rfl | rfl | rfl | rfl) <;> simp
    · rintro (rfl | rfl | rfl | rfl) <;> simp
  exact ⟨ix, _, _, hparse, rfl, rfl, hsame, hnames.1, hnames.2, ix.impact_sameUpToOrder hsame⟩

end Index

end Ownership
