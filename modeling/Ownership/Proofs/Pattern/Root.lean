import Ownership.Proofs.Pattern.Compare
import Ownership.Proofs.Pattern.Spelling

set_option autoImplicit false

/-!
# Patterns that name the root

A text that names no segment means the repository root, which is no pattern. It is refused as such
when it is nothing but an anchor. The check comes before `.` is dropped from the segments, so any
other spelling of the root compiles: to no segments, or to `**` if it ends in a slash. A pattern
without segments has nothing but `**` among them, and so passes for one that accepts every path.
-/
namespace Ownership.Pattern

/-- A text that is not blank, and has nothing but empty pieces and `.` between its slashes. -/
structure NamesRoot (raw : String) : Prop where
  written : ∃ c ∈ raw.toList, Text.isBlank c = false
  pieces : ∀ piece ∈ Text.splitAll (· == '/') (spelling raw), piece = [] ∨ piece = ['.']

theorem spelling_ne_nil_iff {raw : String} :
    spelling raw ≠ [] ↔ ∃ c ∈ raw.toList, Text.isBlank c = false := by
  rw [spelling, unifySlashes, ne_eq, List.map_eq_nil_iff, Text.trim_eq_nil_iff]
  simp only [not_forall, Bool.not_eq_true, exists_prop]

theorem names_eq_nil_iff {raw : String} :
    names raw = [] ↔
      ∀ piece ∈ Text.splitAll (· == '/') (spelling raw), piece = [] ∨ piece = ['.'] := by
  rw [names, pathSegments, List.map_eq_nil_iff, List.filter_eq_nil_iff, String.toList_ofList]
  refine forall₂_congr fun piece _ => ?_
  rw [Bool.and_eq_true, decide_eq_true_eq, decide_eq_true_eq, not_and_or, not_not, not_not]

theorem namesRoot_iff {raw : String} :
    NamesRoot raw ↔ spelling raw ≠ [] ∧ names raw = [] := by
  rw [spelling_ne_nil_iff, names_eq_nil_iff]
  constructor
  · intro h
    exact ⟨h.written, h.pieces⟩
  · intro h
    exact ⟨h.1, h.2⟩

instance (raw : String) : Decidable (NamesRoot raw) :=
  decidable_of_iff _ namesRoot_iff.symm

theorem compile_of_namesRoot {raw : String} (h : NamesRoot raw) :
    compile raw =
      if IsAnchor (spelling raw) then .error (.rootOnly raw)
      else .ok ⟨raw, if endsInSlash raw then [.anyDepth] else [], endsInSlash raw⟩ := by
  obtain ⟨hne, hnames⟩ := namesRoot_iff.mp h
  rw [compile_eq, if_neg hne, hnames]
  rfl

theorem compile_eq_rootOnly_iff {raw : String} :
    compile raw = .error (.rootOnly raw) ↔ NamesRoot raw ∧ IsAnchor (spelling raw) := by
  constructor
  · intro h
    rw [compile_eq] at h
    split at h
    · cases h
    · next hne =>
      split at h
      · next hanchor =>
        exact ⟨namesRoot_iff.mpr ⟨hne, pathSegments_of_isAnchor hanchor⟩, hanchor⟩
      · rcases mapM_classify_cases (names raw) with ⟨segments, hread⟩ | ⟨segment, cause, hread⟩
        · rw [hread] at h
          cases h
        · rw [hread] at h
          cases h
  · rintro ⟨hroot, hanchor⟩
    rw [compile_of_namesRoot hroot, if_pos hanchor]

theorem namesRoot_of_segments_eq_nil {raw : String} {p : Pattern} (h : compile raw = .ok p)
    (hnil : p.segments = []) : NamesRoot raw := by
  obtain ⟨hne, -, segments, hread, rfl⟩ := compile_eq_ok_iff.mp h
  obtain ⟨rfl, -⟩ := assemble_eq_nil_iff.mp hnil
  refine namesRoot_iff.mpr ⟨hne, ?_⟩
  cases hnames : names raw with
  | nil => rfl
  | cons name rest =>
    rw [hnames] at hread
    obtain ⟨s, more, -, -, hcons⟩ := mapM_cons_eq_ok_iff.mp hread
    cases hcons

theorem exists_compiled_root_iff {raw : String} (hroot : NamesRoot raw) (holds : Pattern → Prop) :
    (∃ p, compile raw = .ok p ∧ holds p) ↔ ¬ IsAnchor (spelling raw) ∧
      holds ⟨raw, if endsInSlash raw then [.anyDepth] else [], endsInSlash raw⟩ := by
  rw [compile_of_namesRoot hroot]
  split
  · next hanchor => exact iff_of_false nofun fun h => h.1 hanchor
  · next hanchor =>
    constructor
    · rintro ⟨p, hp, hholds⟩
      cases hp
      exact ⟨hanchor, hholds⟩
    · rintro ⟨-, hholds⟩
      exact ⟨_, rfl, hholds⟩

theorem segments_root_eq_nil_iff (directory : Bool) :
    (if directory then [Segment.anyDepth] else []) = [] ↔ directory = false := by
  cases directory with
  | false => exact iff_of_true rfl rfl
  | true => exact iff_of_false nofun nofun

theorem forall_accepts_root_iff (raw : String) (directory : Bool) :
    (∀ path, Pattern.accepts ⟨raw, if directory then [.anyDepth] else [], directory⟩ path = true) ↔
      directory = true := by
  cases directory with
  | false =>
    refine iff_of_false ?_ nofun
    intro hall
    have hcut := acceptsSegments_iff_cut.mp (hall "a")
    cases hcut
  | true =>
    refine iff_of_true ?_ rfl
    intro path
    refine acceptsSegments_iff_cut.mpr ?_
    rw [← List.append_nil (pathSegments path)]
    exact .run _ .nil

/-- Of the spellings of the root the anchors alone are refused as such. The others give a pattern
without segments, which no other text gives, or with a final slash a pattern of every path. -/
theorem compile_root_iff (raw : String) :
    (compile raw = .error (.rootOnly raw) ↔ NamesRoot raw ∧ IsAnchor (spelling raw)) ∧
      ((∃ p, compile raw = .ok p ∧ p.segments = []) ↔
        NamesRoot raw ∧ ¬ IsAnchor (spelling raw) ∧ endsInSlash raw = false) ∧
      ((NamesRoot raw ∧ ∃ p, compile raw = .ok p ∧ ∀ path, p.accepts path = true) ↔
        NamesRoot raw ∧ ¬ IsAnchor (spelling raw) ∧ endsInSlash raw = true) := by
  refine ⟨compile_eq_rootOnly_iff, ?_, ?_⟩
  · have hroot : (∃ p, compile raw = .ok p ∧ p.segments = []) → NamesRoot raw := by
      rintro ⟨p, hp, hnil⟩
      exact namesRoot_of_segments_eq_nil hp hnil
    rw [← and_iff_right_of_imp hroot]
    refine and_congr_right fun hroot => ?_
    rw [exists_compiled_root_iff hroot (·.segments = []), segments_root_eq_nil_iff]
  · refine and_congr_right fun hroot => ?_
    rw [exists_compiled_root_iff hroot (fun p => ∀ path, p.accepts path = true),
      forall_accepts_root_iff]

/-- Behind an anchor, or without a slash after it, `.` is not seen to be the root. -/
theorem compile_root_dot :
    NamesRoot "." ∧ compile "." = .ok ⟨".", [], false⟩ ∧
      NamesRoot "/./" ∧ compile "/./" = .ok ⟨"/./", [.anyDepth], true⟩ := by
  have hdot : NamesRoot "." := by decide +kernel
  have hclosed : NamesRoot "/./" := by decide +kernel
  refine ⟨hdot, ?_, hclosed, ?_⟩
  · rw [compile_of_namesRoot hdot, if_neg (by decide +kernel)]
    rfl
  · rw [compile_of_namesRoot hclosed, if_neg (by decide +kernel)]
    rfl

/-! ## Patterns of `**` alone -/

theorem cut_nil_iff {segments : List Segment} :
    Wild.Cut Segment.accepts (segments.map Segment.step) [] ↔
      segments.all (· == .anyDepth) = true := by
  induction segments with
  | nil => exact iff_of_true .nil rfl
  | cons s rest ih =>
    rw [List.map_cons, List.all_cons, Bool.and_eq_true, beq_iff_eq]
    by_cases hs : s = .anyDepth
    · subst hs
      rw [← ih, and_iff_right rfl, Segment.step, ← Wild.accepts_iff_cut, Wild.accepts_run_nil,
        Wild.accepts_iff_cut]
    · rw [Segment.step_of_ne hs]
      refine iff_of_false ?_ fun h => hs h.1
      intro hcut
      cases hcut

theorem acceptsEverything_iff_accepts_root {p : Pattern} :
    p.acceptsEverything = true ↔ p.accepts "" = true := by
  rw [accepts, Location.pathSegments_empty, acceptsSegments_iff_cut, steps, cut_nil_iff,
    acceptsEverything]

theorem accepts_of_acceptsEverything {p : Pattern} (hne : p.segments ≠ [])
    (h : p.acceptsEverything = true) (path : String) : p.accepts path = true := by
  obtain ⟨s, rest, hsegments⟩ := List.exists_cons_of_ne_nil hne
  rw [acceptsEverything, hsegments, List.all_cons, Bool.and_eq_true, beq_iff_eq] at h
  obtain ⟨rfl, hrest⟩ := h
  rw [accepts, acceptsSegments_iff_cut, steps, hsegments, List.map_cons]
  rw [← List.append_nil (pathSegments path)]
  exact .run _ (cut_nil_iff.mpr hrest)

theorem segments_eq_nil_iff {raw : String} {p : Pattern} (h : compile raw = .ok p) :
    p.segments = [] ↔ NamesRoot raw ∧ endsInSlash raw = false := by
  constructor
  · intro hnil
    refine ⟨namesRoot_of_segments_eq_nil h hnil, ?_⟩
    obtain ⟨-, -, segments, -, rfl⟩ := compile_eq_ok_iff.mp h
    exact (assemble_eq_nil_iff.mp hnil).2
  · rintro ⟨hroot, hslash⟩
    obtain ⟨-, hsegments⟩ := (exists_compiled_root_iff hroot (· = p)).mp ⟨p, h, rfl⟩
    rw [← hsegments, hslash]
    rfl

/-- Whether a pattern accepts every path can be read off its segments, unless its text names the
root without a final slash: then it has no segment, and accepts the root alone. -/
theorem acceptsEverything_iff {raw : String} {p : Pattern} (h : compile raw = .ok p) :
    ((p.acceptsEverything = true ↔ ∀ path, p.accepts path = true) ↔
        ¬ (NamesRoot raw ∧ endsInSlash raw = false)) ∧
      (NamesRoot raw ∧ endsInSlash raw = false → p.acceptsEverything = true ∧
        ∀ path, p.accepts path = true ↔ pathSegments path = []) := by
  rw [← segments_eq_nil_iff h]
  have hroot : p.segments = [] → ∀ path, p.accepts path = true ↔ pathSegments path = [] := by
    intro hnil path
    rw [accepts, acceptsSegments_iff_cut, steps, hnil, List.map_nil]
    generalize pathSegments path = parts
    constructor
    · intro hcut
      cases hcut
      rfl
    · rintro rfl
      exact .nil
  have heverything : p.segments = [] → p.acceptsEverything = true := by
    intro hnil
    rw [acceptsEverything, hnil, List.all_nil]
  refine ⟨⟨?_, ?_⟩, fun hnil => ⟨heverything hnil, hroot hnil⟩⟩
  · intro hiff hnil
    have hsome := (hroot hnil "a").mp (hiff.mp (heverything hnil) "a")
    exact absurd hsome (by decide)
  · intro hne
    constructor
    · exact accepts_of_acceptsEverything hne
    · intro hall
      exact acceptsEverything_iff_accepts_root.mpr (hall "")

theorem acceptsEverything_iff_depth : ∃ p, compile "/./**/" = .ok p ∧
    p.acceptsEverything = true ∧ ∀ path, p.accepts path = true := by
  obtain ⟨p, hp, hcheck⟩ := exists_ok_of_any
    (by decide +kernel : (compile "/./**/").toOption.any acceptsEverything = true)
  have hnot : ¬ (NamesRoot "/./**/" ∧ endsInSlash "/./**/" = false) := by decide +kernel
  exact ⟨p, hp, hcheck, ((acceptsEverything_iff hp).1.mpr hnot).mp hcheck⟩

/-- `.` compiles to a pattern that is said to accept every path, and accepts no file. -/
theorem acceptsEverything_dot : ∃ p, compile "." = .ok p ∧ p.acceptsEverything = true ∧
    p.accepts "a" = false := by
  obtain ⟨p, hp, hcheck⟩ := exists_ok_of_any
    (by decide +kernel : (compile ".").toOption.any
      (fun p => p.acceptsEverything && !p.accepts "a") = true)
  rw [Bool.and_eq_true, Bool.not_eq_true'] at hcheck
  exact ⟨p, hp, hcheck⟩

end Ownership.Pattern
