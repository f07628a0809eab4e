import Mathlib.Data.List.Basic
import Ownership.Proofs.Except
import Ownership.Proofs.Location.Resolved

set_option autoImplicit false

/-!
# Spellings of a pattern

Blanks around a pattern, backslashes, anchors, doubled slashes and `.` are matters of spelling. Of a
text that names some segment only the named segments and the final slash count, so two texts that
agree in these compile alike.
-/
namespace Ownership.Pattern

def spelling (raw : String) : List Char :=
  unifySlashes (Text.trim raw.toList)

/-- The segments that a text names: all between its slashes but the empty ones and `.`. -/
def names (raw : String) : List String :=
  pathSegments (String.ofList (spelling raw))

def endsInSlash (raw : String) : Bool :=
  (spelling raw).getLast? == some '/'

/-- Some `./`, and slashes after them. -/
def IsAnchor (cs : List Char) : Prop :=
  ∃ dots slashes, cs = (List.replicate dots ['.', '/']).flatten ++ List.replicate slashes '/'

def assemble (directory : Bool) (segments : List Segment) : List Segment :=
  if directory then endInDepth (mergeDepths segments) else mergeDepths segments

/-! ## Anchors -/

theorem pathSegments_append_cons (front back : List Char) :
    pathSegments (String.ofList (front ++ '/' :: back)) =
      pathSegments (String.ofList front) ++ pathSegments (String.ofList back) := by
  have htext : String.ofList (front ++ '/' :: back) =
      String.ofList front ++ "/" ++ String.ofList back := by
    simp only [← String.toList_inj, String.toList_append, String.toList_ofList, List.append_assoc]
    rfl
  rw [htext, Location.pathSegments_append_slash]

theorem pathSegments_slash (cs : List Char) :
    pathSegments (String.ofList ('/' :: cs)) = pathSegments (String.ofList cs) :=
  pathSegments_append_cons [] cs

theorem pathSegments_dot_slash (cs : List Char) :
    pathSegments (String.ofList ('.' :: '/' :: cs)) = pathSegments (String.ofList cs) :=
  pathSegments_append_cons ['.'] cs

theorem exists_dropDotSlashes (cs : List Char) :
    ∃ dots, cs = (List.replicate dots ['.', '/']).flatten ++ dropDotSlashes cs := by
  fun_induction dropDotSlashes cs with
  | case1 cs ih =>
    obtain ⟨dots, hdots⟩ := ih
    refine ⟨dots + 1, ?_⟩
    rw [List.replicate_succ, List.flatten_cons, List.append_assoc, ← hdots]
    rfl
  | case2 cs hne => exact ⟨0, rfl⟩

theorem dropDotSlashes_append (dots : Nat) {cs : List Char} (h : dropDotSlashes cs = cs) :
    dropDotSlashes ((List.replicate dots ['.', '/']).flatten ++ cs) = cs := by
  induction dots with
  | zero => exact h
  | succ dots ih => exact ih

theorem dropAnchor_suffix (cs : List Char) : dropAnchor cs <:+ cs := by
  obtain ⟨dots, hdots⟩ := exists_dropDotSlashes cs
  have hrest : dropDotSlashes cs <:+ cs := ⟨_, hdots.symm⟩
  unfold dropAnchor
  split
  · next rest hslash => exact (hslash ▸ List.suffix_cons '/' rest).trans hrest
  · exact hrest

theorem pathSegments_dropAnchor (cs : List Char) :
    pathSegments (String.ofList (dropAnchor cs)) = pathSegments (String.ofList cs) := by
  have hdots : pathSegments (String.ofList (dropDotSlashes cs)) =
      pathSegments (String.ofList cs) := by
    fun_induction dropDotSlashes cs with
    | case1 cs ih => rw [ih, pathSegments_dot_slash]
    | case2 cs hne => rfl
  rw [← hdots, dropAnchor]
  split
  · next rest hslash => rw [hslash, pathSegments_slash]
  · rfl

theorem all_dropAnchor_iff {cs : List Char} :
    (dropAnchor cs).all (· == '/') = true ↔ IsAnchor cs := by
  have hslash : (dropAnchor cs).all (· == '/') = (dropDotSlashes cs).all (· == '/') := by
    unfold dropAnchor
    split
    · next rest hrest => rw [hrest, List.all_cons, beq_self_eq_true, Bool.true_and]
    · rfl
  rw [hslash]
  constructor
  · intro hall
    obtain ⟨dots, hdots⟩ := exists_dropDotSlashes cs
    have hslashes : ∀ c ∈ dropDotSlashes cs, c = '/' := by
      intro c hc
      exact beq_iff_eq.mp (List.all_eq_true.mp hall c hc)
    rw [List.eq_replicate_of_mem hslashes] at hdots
    exact ⟨dots, _, hdots⟩
  · rintro ⟨dots, slashes, rfl⟩
    have hself : dropDotSlashes (List.replicate slashes '/') = List.replicate slashes '/' := by
      cases slashes <;> rfl
    rw [dropDotSlashes_append dots hself, List.all_eq_true]
    intro c hc
    rw [List.eq_of_mem_replicate hc]
    rfl

instance (cs : List Char) : Decidable (IsAnchor cs) :=
  decidable_of_iff _ all_dropAnchor_iff

theorem pathSegments_of_isAnchor {cs : List Char} (h : IsAnchor cs) :
    pathSegments (String.ofList cs) = [] := by
  obtain ⟨dots, slashes, rfl⟩ := h
  induction dots with
  | zero =>
    induction slashes with
    | zero => rfl
    | succ slashes ih => exact (pathSegments_slash _).trans ih
  | succ dots ih => exact (pathSegments_dot_slash _).trans ih

/-! ## Reading the named segments -/

/-- The reading of a segment depends on the whole pattern only in the text of its error. -/
theorem classify_cases (name : String) :
    (∃ s, ∀ raw, classify raw name = .ok s) ∨
      ∃ cause, ∀ raw, classify raw name = .error (.invalidSegment raw name cause) := by
  unfold classify
  split
  · exact .inl ⟨.anyDepth, fun _ => rfl⟩
  · split
    · split
      · next glob hglob => exact .inl ⟨.wildcard glob, fun _ => rfl⟩
      · next cause hcause => exact .inr ⟨cause, fun _ => rfl⟩
    · exact .inl ⟨.literal name, fun _ => rfl⟩

theorem mapM_classify_cases (names : List String) :
    (∃ segments, ∀ raw, names.mapM (classify raw) = .ok segments) ∨
      ∃ name cause, ∀ raw, names.mapM (classify raw) = .error (.invalidSegment raw name cause) := by
  induction names with
  | nil => exact .inl ⟨[], fun _ => rfl⟩
  | cons name names ih =>
    rcases classify_cases name with ⟨s, hs⟩ | ⟨cause, hcause⟩
    · rcases ih with ⟨segments, hsegments⟩ | ⟨later, cause, hcause⟩
      · refine .inl ⟨s :: segments, fun raw => ?_⟩
        rw [List.mapM_cons, hs, hsegments]
        rfl
      · refine .inr ⟨later, cause, fun raw => ?_⟩
        rw [List.mapM_cons, hs, hcause]
        rfl
    · refine .inr ⟨name, cause, fun raw => ?_⟩
      rw [List.mapM_cons, hcause]
      rfl

theorem mergeDepths_eq_nil_iff {segments : List Segment} :
    mergeDepths segments = [] ↔ segments = [] := by
  fun_induction mergeDepths segments with
  | case1 rest ih => exact ih.trans (iff_of_false nofun nofun)
  | case2 s rest hne ih => exact iff_of_false nofun nofun
  | case3 => exact Iff.rfl

theorem mem_of_mem_mergeDepths {segments : List Segment} {s : Segment}
    (h : s ∈ mergeDepths segments) : s ∈ segments := by
  fun_induction mergeDepths segments with
  | case1 rest ih => exact List.mem_cons_of_mem _ (ih h)
  | case2 first rest hne ih =>
    rcases List.mem_cons.mp h with rfl | h
    · exact List.mem_cons_self
    · exact List.mem_cons_of_mem first (ih h)
  | case3 => exact h

theorem assemble_eq_nil_iff {directory : Bool} {segments : List Segment} :
    assemble directory segments = [] ↔ segments = [] ∧ directory = false := by
  cases directory with
  | false => exact mergeDepths_eq_nil_iff.trans (and_iff_left rfl).symm
  | true =>
    refine iff_of_false ?_ nofun
    change endInDepth (mergeDepths segments) ≠ []
    unfold endInDepth
    split
    · next hlast =>
      intro hnil
      rw [hnil] at hlast
      cases hlast
    · exact List.append_ne_nil_of_right_ne_nil _ (List.cons_ne_nil _ _)

theorem mem_assemble {directory : Bool} {segments : List Segment} {s : Segment}
    (h : s ∈ assemble directory segments) : s ∈ segments ∨ s = .anyDepth := by
  unfold assemble endInDepth at h
  split at h
  · split at h
    · exact .inl (mem_of_mem_mergeDepths h)
    · rcases List.mem_append.mp h with h | h
      · exact .inl (mem_of_mem_mergeDepths h)
      · exact .inr (List.mem_singleton.mp h)
  · exact .inl (mem_of_mem_mergeDepths h)

/-! ## The pattern of a text -/

/-- A text is refused when it is blank or nothing but an anchor. Otherwise the pattern depends on
the named segments and the final slash. -/
theorem compile_eq (raw : String) :
    compile raw =
      if spelling raw = [] then .error .empty
      else if IsAnchor (spelling raw) then .error (.rootOnly raw)
      else (names raw).mapM (classify raw) >>= fun segments =>
        .ok ⟨raw, assemble (endsInSlash raw) segments, endsInSlash raw⟩ := by
  unfold compile
  split
  · next htrim =>
    rw [spelling, htrim]
    rfl
  · next htrim =>
    have hspelling : spelling raw = unifySlashes (Text.trim raw.toList) := rfl
    have hne : spelling raw ≠ [] := mt List.map_eq_nil_iff.mp htrim
    rw [if_neg hne]
    dsimp only
    rw [← hspelling]
    split
    · next hall => rw [if_pos (all_dropAnchor_iff.mp hall)]
    · next hall =>
      have hanchor : ¬ IsAnchor (spelling raw) := mt all_dropAnchor_iff.mpr hall
      have hbody : dropAnchor (spelling raw) ≠ [] := by
        intro hnil
        rw [hnil] at hall
        exact hall rfl
      have hlast : (dropAnchor (spelling raw)).getLast? = (spelling raw).getLast? := by
        obtain ⟨front, hfront⟩ := dropAnchor_suffix (spelling raw)
        rw [← List.getLast?_append_of_ne_nil front hbody, hfront]
      rw [if_neg hanchor, pathSegments_dropAnchor, hlast]
      rfl

theorem compile_eq_ok_iff {raw : String} {p : Pattern} :
    compile raw = .ok p ↔ spelling raw ≠ [] ∧ ¬ IsAnchor (spelling raw) ∧
      ∃ segments, (names raw).mapM (classify raw) = .ok segments ∧
        p = ⟨raw, assemble (endsInSlash raw) segments, endsInSlash raw⟩ := by
  rw [compile_eq]
  split
  · next hnil => exact iff_of_false nofun fun h => h.1 hnil
  · next hne =>
    rw [and_iff_right hne]
    split
    · next hanchor => exact iff_of_false nofun fun h => h.1 hanchor
    · next hanchor =>
      rw [and_iff_right hanchor, bind_eq_ok_iff]
      simp only [Except.ok.injEq, eq_comm]

/-! ## Spellings of one pattern -/

theorem compile_eq_of_names_ne_nil {raw : String} (h : names raw ≠ []) :
    compile raw = (names raw).mapM (classify raw) >>= fun segments =>
      .ok ⟨raw, assemble (endsInSlash raw) segments, endsInSlash raw⟩ := by
  have hanchor : ¬ IsAnchor (spelling raw) := mt pathSegments_of_isAnchor h
  have hne : spelling raw ≠ [] := by
    intro hnil
    exact hanchor ⟨0, 0, hnil⟩
  rw [compile_eq, if_neg hne, if_neg hanchor]

/-- Texts that name the same segments and agree on the final slash compile alike. -/
theorem compile_respelled {first second : String} (hnamed : names first ≠ [])
    (hnames : names first = names second) (hslash : endsInSlash first = endsInSlash second) :
    (∃ p q, compile first = .ok p ∧ compile second = .ok q ∧ p.segments = q.segments ∧
        p.directory = q.directory ∧ ∀ path, p.accepts path = q.accepts path) ∨
      ∃ segment cause, compile first = .error (.invalidSegment first segment cause) ∧
        compile second = .error (.invalidSegment second segment cause) := by
  rw [compile_eq_of_names_ne_nil hnamed, compile_eq_of_names_ne_nil (hnames ▸ hnamed), ← hnames,
    ← hslash]
  rcases mapM_classify_cases (names first) with ⟨segments, hread⟩ | ⟨segment, cause, hread⟩
  · rw [hread, hread]
    exact .inl ⟨_, _, rfl, rfl, rfl, rfl, fun _ => rfl⟩
  · rw [hread, hread]
    exact .inr ⟨segment, cause, rfl, rfl⟩

theorem compile_respelled_docs :
    names ".\\docs//**\\./[a-c]*/" ≠ [] ∧
      names ".\\docs//**\\./[a-c]*/" = names "/docs/./**/[a-c]*//./\\" ∧
      endsInSlash ".\\docs//**\\./[a-c]*/" = endsInSlash "/docs/./**/[a-c]*//./\\" ∧
      ∃ p q, compile ".\\docs//**\\./[a-c]*/" = .ok p ∧
        compile "/docs/./**/[a-c]*//./\\" = .ok q ∧ p.segments = q.segments ∧
        p.directory = q.directory ∧ ∀ path, p.accepts path = q.accepts path := by
  have hnamed : names ".\\docs//**\\./[a-c]*/" ≠ [] := by decide +kernel
  have hnames : names ".\\docs//**\\./[a-c]*/" = names "/docs/./**/[a-c]*//./\\" := by
    decide +kernel
  have hslash : endsInSlash ".\\docs//**\\./[a-c]*/" =
      endsInSlash "/docs/./**/[a-c]*//./\\" := by
    decide +kernel
  have hok : (compile ".\\docs//**\\./[a-c]*/").toOption.isSome = true := by decide +kernel
  refine ⟨hnamed, hnames, hslash, (compile_respelled hnamed hnames hslash).resolve_right ?_⟩
  rintro ⟨segment, cause, herror, -⟩
  rw [herror] at hok
  cases hok

end Ownership.Pattern
