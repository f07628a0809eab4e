import Ownership.Proofs.Except
import Ownership.Yaml.Document

set_option autoImplicit false

/-!
# Keys of YAML tables

A table in the data of a document has no key twice: its keys are compared when it is built, and what
it holds is built in the same way.
-/
namespace Ownership.Yaml

variable {entries : List (Datum × Datum)}

/-! ## Scalars are no tables -/

theorem plainValue_ne_table (s : String) : plainValue s ≠ .ok (.table entries) := by
  unfold plainValue
  split
  · exact nofun
  · split
    · exact nofun
    · intro h
      obtain ⟨n, -, h⟩ := bind_eq_ok_iff.mp h
      split at h
      · cases h
      · split at h
        · cases h
        · split at h <;> cases h

theorem untaggedValue_ne_table (plain : Bool) (text : String) :
    untaggedValue plain text ≠ .ok (.table entries) := by
  unfold untaggedValue
  split
  · exact plainValue_ne_table text
  · exact nofun

theorem scalarValue_ne_table (tag : Option String) (plain : Bool) (text : String) :
    scalarValue tag plain text ≠ .ok (.table entries) := by
  intro h
  unfold scalarValue at h
  split at h
  · obtain ⟨d, -, hd⟩ := map_eq_ok_iff.mp h
    cases hd
  · exact untaggedValue_ne_table plain text h
  · -- the core tags, each with values of its own kind
    split at h
    · obtain ⟨b, -, hb⟩ := map_eq_ok_iff.mp h
      cases hb
    · split at h
      · obtain ⟨n?, -, h⟩ := bind_eq_ok_iff.mp h
        obtain ⟨n, -, h⟩ := bind_eq_ok_iff.mp h
        cases h
      · split at h
        · obtain ⟨x, -, hx⟩ := map_eq_ok_iff.mp h
          cases hx
        · split at h
          · split at h <;> cases h
          · cases h

theorem eq_table_of_withTag {tag : Option String} {d : Datum}
    (h : withTag tag d = .table entries) : d = .table entries := by
  unfold withTag at h
  split at h
  · cases h
  · exact h

/-! ## Built tables -/

theorem pairwise_of_checkKeys (h : checkKeys entries = .ok ()) :
    entries.Pairwise fun a b => a.1.same b.1 = false := by
  induction entries with
  | nil => exact .nil
  | cons e entries ih =>
    rw [checkKeys] at h
    split at h
    · cases h
    · next hnew =>
      rw [Bool.not_eq_true, List.any_eq_false] at hnew
      refine .cons ?_ (ih h)
      intro other hother
      simpa using hnew other hother

def IsBuilt (nodes : List Node) (d : Datum) : Prop :=
  ∃ depth node s t, (build nodes depth node).run s = .ok (d, t)

theorem IsBuilt.table_inv {nodes : List Node} (h : IsBuilt nodes (.table entries)) :
    (entries.Pairwise fun a b => a.1.same b.1 = false) ∧ ∀ e ∈ entries, IsBuilt nodes e.2 := by
  obtain ⟨depth, node, s, t, h⟩ := h
  unfold build at h
  split at h
  · obtain ⟨d, hd, hrest⟩ := bind_eq_ok_iff.mp h
    cases hrest
    exact absurd hd (scalarValue_ne_table _ _ _)
  · obtain ⟨items, u, -, h⟩ := run_bind_eq_ok_iff.mp h
    cases eq_table_of_withTag (congrArg Prod.fst (Except.ok.inj h))
  · obtain ⟨built, u, hbuilt, h⟩ := run_bind_eq_ok_iff.mp h
    obtain ⟨done, v, hkeys, h⟩ := run_bind_eq_ok_iff.mp h
    cases eq_table_of_withTag (congrArg Prod.fst (Except.ok.inj h))
    obtain ⟨checked, hcheck, -⟩ := bind_eq_ok_iff.mp hkeys
    refine ⟨pairwise_of_checkKeys hcheck, ?_⟩
    intro e he
    obtain ⟨x, -, s₁, t₁, hentry⟩ := exists_of_mem_run_mapM hbuilt he
    obtain ⟨keyNode, s₂, -, hentry⟩ := run_bind_eq_ok_iff.mp hentry
    obtain ⟨key, s₃, -, hentry⟩ := run_bind_eq_ok_iff.mp hentry
    obtain ⟨valueNode, s₄, -, hentry⟩ := run_bind_eq_ok_iff.mp hentry
    obtain ⟨value, s₅, hvalue, hentry⟩ := run_bind_eq_ok_iff.mp hentry
    cases hentry
    exact ⟨_, valueNode, s₄, _, hvalue⟩
  · cases h

theorem isBuilt_of_parse {text : String} (h : parse text = .ok (.table entries)) :
    ∃ nodes, IsBuilt nodes (.table entries) := by
  obtain ⟨tokens, -, h⟩ := bind_eq_ok_iff.mp h
  obtain ⟨root, -, h⟩ := bind_eq_ok_iff.mp h
  cases root with
  | none => cases Except.ok.inj h
  | some root =>
    obtain ⟨⟨d, t⟩, hbuilt, hd⟩ := map_eq_ok_iff.mp h
    cases hd
    exact ⟨root.nodes, maxDepth, root, _, t, hbuilt⟩

end Ownership.Yaml
