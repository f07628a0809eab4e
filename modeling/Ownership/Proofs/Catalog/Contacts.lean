import Ownership.Proofs.Catalog.Entries
import Ownership.Proofs.Datum.Records
import Ownership.Proofs.Lint.Options

set_option autoImplicit false

/-!
# Services that can be reached

Lint misses a way to reach a service when neither an owner nor a channel nor an address is given.
It does not look at the texts: a handle that is written without its kind is never blank, and what
is given under a name is taken as it is.
-/
namespace Ownership

/-! ## Owners as they are written -/

namespace OwnerRef

theorem handle_ofHandle (text : String) :
    (ofHandle text).handle = String.ofList (Text.trim text.toList) := by
  simp only [ofHandle]
  split
  · rfl
  · split <;> rfl

theorem exists_nonblank_of_read {text : String} {owner : OwnerRef}
    (h : OwnerRef.read (.text text) = .ok owner) :
    ∃ c ∈ owner.handle.toList, Text.isBlank c = false := by
  have hread : OwnerRef.read (.text text) =
      if (Text.trim text.toList).isEmpty then .error "owner must not be empty"
      else .ok (ofHandle text) := rfl
  rw [hread] at h
  split at h
  · cases h
  · next hne =>
    cases h
    rw [List.isEmpty_iff, Text.trim_eq_nil_iff] at hne
    simp only [not_forall, Bool.not_eq_true, exists_prop] at hne
    obtain ⟨c, hc, hnonblank⟩ := hne
    rw [handle_ofHandle, String.toList_ofList]
    exact ⟨c, (Text.mem_trim_iff hnonblank).mpr hc, hnonblank⟩

end OwnerRef

namespace Service

def addresses (s : Service) : List String :=
  s.owners.map OwnerRef.handle ++ s.contact.slack.toList ++ s.contact.email.toList

def IsReachable (s : Service) : Prop :=
  ∃ address ∈ s.addresses, ∃ c ∈ address.toList, Text.isBlank c = false

instance (s : Service) : Decidable s.IsReachable :=
  decidable_of_iff
    (s.addresses.any fun address => address.toList.any fun c => !Text.isBlank c)
    (by simp [IsReachable])

/-- One of the owners in a service's table is a handle alone, without a word on its kind. -/
def HasBareOwner (fields : List (Datum × Datum)) : Prop :=
  ∃ key value items handle, (key, value) ∈ fields ∧ key.untag = .text "owners" ∧
    value.untag = .list items ∧ Datum.text handle ∈ items

theorem hasContact_iff {s : Service} : s.hasContact = true ↔ s.addresses ≠ [] := by
  obtain ⟨_, owners, ⟨slack, email⟩, _, _, _, _, _⟩ := s
  cases owners <;> cases slack <;> cases email <;> simp [hasContact, Contact.isEmpty, addresses]

theorem owners_of_setField {style : DatumStyle} (s : Service) (other : String) (d : Datum)
    (changed : Service) (hne : other ≠ "owners") (h : setField style s other d = .ok changed) :
    changed.owners = s.owners := by
  unfold setField at h
  split at h
  case h_2 => exact absurd rfl hne
  case h_9 =>
    cases h
    rfl
  all_goals
    obtain ⟨_, -, rfl⟩ := map_eq_ok_iff.mp h
    rfl

theorem owners_of_read {style : DatumStyle} {fields : List (Datum × Datum)} {s : Service}
    (h : Service.read style (.table fields) = .ok s) {key value : Datum}
    (hmem : (key, value) ∈ fields) (hkey : key.untag = .text "owners") :
    value.readList style OwnerRef.read = .ok s.owners := by
  obtain ⟨before, after, hset, howners⟩ :=
    Datum.exists_set_of_readFields owners_of_setField (by decide : "owners" ∈ fieldNames) h hmem
      hkey
  obtain ⟨owners, hread, rfl⟩ := map_eq_ok_iff.mp hset
  rw [howners]
  exact hread

theorem isReachable_of_hasBareOwner {style : DatumStyle} {fields : List (Datum × Datum)}
    {s : Service} (h : Service.read style (.table fields) = .ok s) (hbare : HasBareOwner fields) :
    s.IsReachable := by
  obtain ⟨key, value, items, handle, hmem, hkey, hitems, hhandle⟩ := hbare
  have howners := owners_of_read h hmem hkey
  rw [Datum.readList, hitems] at howners
  obtain ⟨owner, howner, hread⟩ := exists_mem_of_mapM howners hhandle
  refine ⟨owner.handle, ?_, OwnerRef.exists_nonblank_of_read hread⟩
  rw [addresses, List.append_assoc]
  exact List.mem_append_left _ (List.mem_map_of_mem howner)

end Service

/-! ## Missing contacts in a report -/

def LintReport.MissesContact (r : LintReport) (name : String) : Prop :=
  ∃ f ∈ r.findings, f.kind = .serviceHasNoContact ∧
    f.message = "Service '" ++ name ++ "' has no owners and no contact (slack/email)."

theorem Index.missesContact_of_hasContact_eq_false {ix : Index} {input : LintInput} {c : Catalog}
    (hcatalog : input.catalog = some c) {name : String} {s : Service}
    (hs : (name, s) ∈ c.services) (h : s.hasContact = false) :
    (ix.lint input).MissesContact name := by
  have hcheck : ∃ f ∈ Lint.checkContacts c, f.kind = .serviceHasNoContact ∧
      f.message = "Service '" ++ name ++ "' has no owners and no contact (slack/email)." :=
    ⟨_, List.mem_filterMap.mpr ⟨(name, s), hs, if_neg (by simp [h])⟩, rfl, rfl⟩
  obtain ⟨f, hf, hkind, hmessage⟩ := hcheck
  have hfound : f ∈ Lint.findings input ix := by
    rw [Lint.mem_findings_iff, hkind]
    change f ∈ Lint.checkCatalog input.catalog ix.rules.zipIdx
    rw [hcatalog]
    exact List.mem_append_right _ hf
  have hjudged := f.sameButJudged_judge input.options.strict
  refine ⟨f.judge input.options.strict, ?_, hjudged.kind.trans hkind,
    hjudged.message.trans hmessage⟩
  rw [Index.findings_lint]
  exact List.mem_map_of_mem hfound

namespace Catalog

/-! ## Services of a document -/

theorem holds_of_parse {text : String} {entries : List (Datum × Datum)} {c : Catalog}
    (h : Yaml.parse text = .ok (.table entries)) (hc : parse text = .ok c) :
    c.Holds (serviceTable entries) := by
  obtain ⟨nodes, hbuilt⟩ := Yaml.isBuilt_of_parse h
  have hperm := serviceEntries_perm hbuilt.table_inv.1
  have hkeys : ((serviceEntries entries).filterMap textKey?).Nodup :=
    (hperm.filterMap _).nodup_iff.mpr (nodup_textKeys (pairwise_serviceTable hbuilt))
  rw [parse, h] at hc
  exact ((readEntries_allOrNothing hkeys).holds c hc).of_perm hperm

theorem exists_entry_of_get? {text : String} {c : Catalog} (h : parse text = .ok c) {name : String}
    {s : Service} (hs : c.get? name = some s) :
    ∃ entries value, Yaml.parse text = .ok (.table entries) ∧
      (.text name, value) ∈ serviceTable entries ∧ Describes value s := by
  cases hdocument : Yaml.parse text with
  | error fault =>
    rw [parse, hdocument] at h
    cases h
  | ok d =>
    cases d with
    | table entries =>
      obtain ⟨value, hvalue⟩ := ((holds_of_parse hdocument h).get?_eq_some_iff name s).mp hs
      exact ⟨entries, value, rfl, hvalue⟩
    | null =>
      rw [parse, hdocument] at h
      cases h
      cases hs
    | _ =>
      rw [parse, hdocument] at h
      cases h

/-- A service that no finding is about has an owner, a channel or an address; and if one of its
owners is written as a handle alone, some text among these is not blank. -/
theorem unreported_is_given {text : String} {c : Catalog} (h : parse text = .ok c) (ix : Index)
    {input : LintInput} (hcatalog : input.catalog = some c) {name : String} {s : Service}
    (hs : c.get? name = some s) (hunreported : ¬ (ix.lint input).MissesContact name) :
    s.addresses ≠ [] ∧
      ∃ entries fields, Yaml.parse text = .ok (.table entries) ∧
        (.text name, .table fields) ∈ serviceTable entries ∧
        Service.read .yaml (.table fields) = .ok s ∧
        (Service.HasBareOwner fields → s.IsReachable) := by
  have hcontact : s.hasContact = true := by
    by_contra hnone
    rw [Bool.not_eq_true] at hnone
    exact hunreported
      (Index.missesContact_of_hasContact_eq_false hcatalog (Json.mem_of_getField? hs) hnone)
  obtain ⟨entries, value, hdocument, hentry, hdescribes⟩ := exists_entry_of_get? h hs
  refine ⟨Service.hasContact_iff.mp hcontact, entries, ?_⟩
  cases hdescribes with
  | blank => cases hcontact
  | table hread =>
    exact ⟨_, hdocument, hentry, hread, Service.isReachable_of_hasBareOwner hread⟩

theorem not_missesContact_of_isClean {r : LintReport} (h : r.isClean = true) (name : String) :
    ¬ r.MissesContact name := by
  rintro ⟨f, hf, -⟩
  rw [LintReport.isClean, List.isEmpty_iff] at h
  rw [h] at hf
  cases hf

theorem unreported_is_given_bare :
    ∃ c s, parse "api:\n  owners:\n  - team: ''\n  - ' al '\n" = .ok c ∧ c.get? "api" = some s ∧
      s.addresses = ["", "al"] ∧
      ¬ ((Index.mk defaultSource []).lint { options := {}, catalog := some c }).MissesContact
        "api" ∧
      s.addresses ≠ [] ∧
      ∃ entries fields,
        Yaml.parse "api:\n  owners:\n  - team: ''\n  - ' al '\n" = .ok (.table entries) ∧
        (.text "api", .table fields) ∈ serviceTable entries ∧
        Service.read .yaml (.table fields) = .ok s ∧
        (Service.HasBareOwner fields → s.IsReachable) := by
  obtain ⟨c, hparse, hcheck⟩ := exists_ok_of_any
    (by decide +kernel : (parse "api:\n  owners:\n  - team: ''\n  - ' al '\n").toOption.any
      (fun c => (c.get? "api").map Service.addresses = some ["", "al"] ∧
        ((Index.mk defaultSource []).lint
          { options := {}, catalog := some c }).isClean = true) = true)
  obtain ⟨haddresses, hclean⟩ := of_decide_eq_true hcheck
  obtain ⟨s, hs, haddresses⟩ := Option.map_eq_some_iff.mp haddresses
  have hunreported := not_missesContact_of_isClean hclean "api"
  exact ⟨c, s, hparse, hs, haddresses, hunreported,
    unreported_is_given hparse _ rfl hs hunreported⟩

/-- A channel is given, but without a name. -/
theorem unreported_not_isReachable_blank :
    ∃ c s, parse "api:\n  contact:\n    slack: ''\n" = .ok c ∧ c.get? "api" = some s ∧
      ¬ ((Index.mk defaultSource []).lint { options := {}, catalog := some c }).MissesContact
        "api" ∧
      ¬ s.IsReachable := by
  obtain ⟨c, hparse, hcheck⟩ := exists_ok_of_any
    (by decide +kernel : (parse "api:\n  contact:\n    slack: ''\n").toOption.any
      (fun c => (c.get? "api").map (fun s => decide s.IsReachable) = some false ∧
        ((Index.mk defaultSource []).lint
          { options := {}, catalog := some c }).isClean = true) = true)
  obtain ⟨hblank, hclean⟩ := of_decide_eq_true hcheck
  obtain ⟨s, hs, hblank⟩ := Option.map_eq_some_iff.mp hblank
  exact ⟨c, s, hparse, hs, not_missesContact_of_isClean hclean "api", of_decide_eq_false hblank⟩

end Catalog

end Ownership
