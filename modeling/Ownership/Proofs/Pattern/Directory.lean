import Ownership.Proofs.Pattern.Compare
import Ownership.Proofs.Pattern.Spelling

set_option autoImplicit false

/-!
# Everything below a directory

A slash behind a pattern asks for all that is below what the pattern accepts, and so does `/**`:
both give the pattern a last segment `**`, unless it has one already.
-/
namespace Ownership.Pattern
open Wild

/-- Whether a pattern accepts a path or some directory on the way to it. -/
def AcceptsStart (p : Pattern) (path : String) : Prop :=
  ∃ front, front <+: pathSegments path ∧ p.acceptsSegments front = true

/-! ## A last `**` -/

theorem endInDepth_concat (segments : List Segment) :
    endInDepth (segments ++ [.anyDepth]) = segments ++ [.anyDepth] := by
  rw [endInDepth, if_pos List.getLast?_concat]

theorem endInDepth_endInDepth (segments : List Segment) :
    endInDepth (endInDepth segments) = endInDepth segments := by
  by_cases hlast : segments.getLast? = some .anyDepth
  · have hends : endInDepth segments = segments := if_pos hlast
    rw [hends, hends]
  · have hends : endInDepth segments = segments ++ [.anyDepth] := if_neg hlast
    rw [hends, endInDepth_concat]

theorem endInDepth_cons (s : Segment) {segments : List Segment} (h : segments ≠ []) :
    endInDepth (s :: segments) = s :: endInDepth segments := by
  unfold endInDepth
  rw [List.getLast?_cons_of_ne_nil h]
  split <;> rfl

theorem mergeDepths_cons {s : Segment} {rest : List Segment}
    (h : s = .anyDepth → rest.head? ≠ some .anyDepth) :
    mergeDepths (s :: rest) = s :: mergeDepths rest := by
  rw [mergeDepths]
  rintro rest' rfl rfl
  exact h rfl rfl

theorem mergeDepths_concat_depth (segments : List Segment) :
    mergeDepths (segments ++ [.anyDepth]) = endInDepth (mergeDepths segments) := by
  fun_induction mergeDepths segments with
  | case1 rest ih => exact ih
  | case2 s rest hne ih =>
    cases rest with
    | nil =>
      cases s <;> rfl
    | cons t rest =>
      have hmore : mergeDepths (t :: rest) ≠ [] :=
        mt mergeDepths_eq_nil_iff.mp (List.cons_ne_nil t rest)
      rw [endInDepth_cons s hmore, ← ih]
      refine mergeDepths_cons ?_
      rintro rfl hhead
      obtain rfl : t = .anyDepth := Option.some.inj hhead
      exact hne rest rfl rfl
  | case3 => rfl

theorem assemble_true_eq (directory : Bool) (segments : List Segment) :
    assemble true segments = endInDepth (assemble directory segments) := by
  cases directory with
  | false => rfl
  | true => exact (endInDepth_endInDepth _).symm

theorem cut_endInDepth_iff {segments : List Segment} {path : List String} :
    Cut Segment.accepts ((endInDepth segments).map Segment.step) path ↔
      ∃ front, front <+: path ∧ Cut Segment.accepts (segments.map Segment.step) front := by
  by_cases hlast : segments.getLast? = some .anyDepth
  · obtain ⟨init, rfl⟩ := List.getLast?_eq_some_iff.mp hlast
    rw [endInDepth_concat, List.map_append]
    constructor
    · intro h
      exact ⟨path, List.prefix_rfl, h⟩
    · -- what is behind the front goes to the `**` that is there
      rintro ⟨front, hfront, h⟩
      obtain ⟨start, hstart, hcut⟩ := cut_concat_run_iff.mp h
      exact cut_concat_run_iff.mpr ⟨start, hstart.trans hfront, hcut⟩
  · have hends : endInDepth segments = segments ++ [.anyDepth] := if_neg hlast
    rw [hends, List.map_append]
    exact cut_concat_run_iff

theorem accepts_iff_acceptsStart {p q : Pattern} (h : q.segments = endInDepth p.segments)
    (path : String) : q.accepts path = true ↔ p.AcceptsStart path := by
  rw [accepts, acceptsSegments_iff_cut, steps, h, cut_endInDepth_iff]
  simp only [AcceptsStart, acceptsSegments_iff_cut, steps]

/-! ## A text with a slash or `/**` behind it -/

theorem spelling_append {raw ending : String} (hraw : spelling raw ≠ [])
    (hlast : ∀ c, raw.toList.getLast? = some c → Text.isBlank c = false)
    (hending : ∀ c, ending.toList.getLast? = some c → Text.isBlank c = false) :
    spelling (raw ++ ending) = spelling raw ++ unifySlashes ending.toList := by
  have htrim : Text.trim raw.toList ≠ [] := mt List.map_eq_nil_iff.mpr hraw
  rw [spelling, String.toList_append, Text.trim_append htrim hlast hending]
  exact List.map_append

theorem isAnchor_of_concat_slash {cs : List Char} (h : IsAnchor (cs ++ ['/']))
    (hlast : cs.getLast? = some '/') : IsAnchor cs := by
  obtain ⟨dots, slashes, heq⟩ := h
  cases slashes with
  | zero =>
    cases dots with
    | zero => cases cs <;> cases heq
    | succ dots =>
      rw [List.replicate_succ', List.flatten_append, List.replicate_zero, List.append_nil,
        List.flatten_singleton, List.append_cons _ '.', List.append_left_inj] at heq
      rw [heq, List.getLast?_concat] at hlast
      cases hlast
  | succ slashes =>
    rw [List.replicate_succ', ← List.append_assoc, List.append_left_inj] at heq
    exact ⟨dots, slashes, heq⟩

theorem mapM_classify_congr {names : List String} {raw : String} {segments : List Segment}
    (h : names.mapM (classify raw) = .ok segments) (other : String) :
    names.mapM (classify other) = .ok segments := by
  rcases mapM_classify_cases names with ⟨_, hread⟩ | ⟨_, _, hread⟩
  · rw [hread] at h ⊢
    exact h
  · rw [hread] at h
    cases h

section Shorthand

variable {raw : String} {p : Pattern} (h : compile raw = .ok p)
  (hlast : ∀ c, raw.toList.getLast? = some c → Text.isBlank c = false)
include h hlast

theorem compile_append_slash (hne : p.segments ≠ []) :
    compile (raw ++ "/") = .ok ⟨raw ++ "/", endInDepth p.segments, true⟩ := by
  obtain ⟨hraw, hanchor, segments, hread, rfl⟩ := compile_eq_ok_iff.mp h
  have hspelling : spelling (raw ++ "/") = spelling raw ++ ['/'] :=
    spelling_append hraw hlast (Text.nonblank_last rfl rfl)
  have hnames : names (raw ++ "/") = names raw := by
    rw [names, hspelling, pathSegments_append_cons]
    exact List.append_nil _
  have hslash : endsInSlash (raw ++ "/") = true := by
    rw [endsInSlash, hspelling, List.getLast?_concat]
    rfl
  refine compile_eq_ok_iff.mpr ⟨?_, ?_, segments, ?_, ?_⟩
  · rw [hspelling]
    exact List.append_ne_nil_of_right_ne_nil _ (List.cons_ne_nil _ _)
  · intro hlonger
    have hnil : names raw = [] := hnames ▸ pathSegments_of_isAnchor hlonger
    rw [hnil] at hread
    obtain rfl := Except.ok.inj hread
    have hends : endsInSlash raw = true := by
      by_contra hends
      exact hne (assemble_eq_nil_iff.mpr ⟨rfl, Bool.eq_false_iff.mpr hends⟩)
    rw [hspelling] at hlonger
    exact hanchor (isAnchor_of_concat_slash hlonger (beq_iff_eq.mp hends))
  · rw [hnames]
    exact mapM_classify_congr hread _
  · rw [hslash, assemble_true_eq (endsInSlash raw)]

theorem compile_append_depth :
    compile (raw ++ "/**") = .ok ⟨raw ++ "/**", endInDepth p.segments, false⟩ := by
  obtain ⟨hraw, -, segments, hread, rfl⟩ := compile_eq_ok_iff.mp h
  have hspelling : spelling (raw ++ "/**") = spelling raw ++ '/' :: ['*', '*'] :=
    spelling_append hraw hlast (Text.nonblank_last rfl rfl)
  have hnames : names (raw ++ "/**") = names raw ++ ["**"] := by
    rw [names, hspelling, pathSegments_append_cons]
    rfl
  have hslash : endsInSlash (raw ++ "/**") = false := by
    rw [endsInSlash, hspelling, List.append_cons, List.getLast?_append]
    rfl
  have hdepth : ["**"].mapM (classify (raw ++ "/**")) = .ok [.anyDepth] := rfl
  have hmore : names (raw ++ "/**") ≠ [] := by
    rw [hnames]
    exact List.append_ne_nil_of_right_ne_nil _ (List.cons_ne_nil _ _)
  rw [compile_eq_of_names_ne_nil hmore, hnames, List.mapM_append,
    mapM_classify_congr hread, hdepth, hslash]
  change Except.ok (⟨_, mergeDepths (segments ++ [.anyDepth]), _⟩ : Pattern) = _
  rw [mergeDepths_concat_depth, ← assemble_true_eq]
  rfl

end Shorthand

/-- A slash and `/**` behind a pattern mean the same: what begins with something it accepts. -/
theorem compile_below {raw : String} {p : Pattern} (h : compile raw = .ok p)
    (hne : p.segments ≠ [])
    (hlast : ∀ c, raw.toList.getLast? = some c → Text.isBlank c = false) :
    ∃ q r, compile (raw ++ "/") = .ok q ∧ compile (raw ++ "/**") = .ok r ∧
      q.segments = r.segments ∧
      ∀ path, (q.accepts path = true ↔ p.AcceptsStart path) ∧
        (r.accepts path = true ↔ p.AcceptsStart path) :=
  ⟨_, _, compile_append_slash h hlast hne, compile_append_depth h hlast, rfl,
    fun path => ⟨accepts_iff_acceptsStart rfl path, accepts_iff_acceptsStart rfl path⟩⟩

theorem compile_below_wildcard : ∃ p q r : Pattern, compile " ./docs\\[a-c]*" = .ok p ∧
    p.segments ≠ [] ∧ compile (" ./docs\\[a-c]*" ++ "/") = .ok q ∧
    compile (" ./docs\\[a-c]*" ++ "/**") = .ok r ∧ q.segments = r.segments ∧
    q.accepts "docs/api/v1/a.md" = true ∧ r.accepts "docs/api/v1/a.md" = true := by
  obtain ⟨p, hp, hcheck⟩ := exists_ok_of_any
    (by decide +kernel : (compile " ./docs\\[a-c]*").toOption.any
      (fun p => !p.segments.isEmpty && p.acceptsSegments ["docs", "api"]) = true)
  rw [Bool.and_eq_true, Bool.not_eq_true', List.isEmpty_eq_false_iff] at hcheck
  have hlast : ∀ c, " ./docs\\[a-c]*".toList.getLast? = some c → Text.isBlank c = false :=
    Text.nonblank_last rfl rfl
  obtain ⟨q, r, hq, hr, hsame, haccepts⟩ := compile_below hp hcheck.1 hlast
  have hstart : p.AcceptsStart "docs/api/v1/a.md" :=
    ⟨["docs", "api"], by decide +kernel, hcheck.2⟩
  exact ⟨p, q, r, hp, hcheck.1, hq, hr, hsame, (haccepts _).1.mpr hstart,
    (haccepts _).2.mpr hstart⟩

end Ownership.Pattern
