import Mathlib.Data.List.TakeWhile
import Ownership.Text.Basic

set_option autoImplicit false

/-!
# Pieces of a text

What cutting a text gives back: a text that was put together from words comes apart into these
words, and lines that were joined are the lines of the result.
-/
namespace Ownership.Text

/-! ## Pieces between separators -/

theorem splitAll_eq_splitOnP (p : Char → Bool) (cs : List Char) :
    splitAll p cs = cs.splitOnP p := by
  induction cs with
  | nil => rfl
  | cons c cs ih =>
    obtain ⟨piece, rest, hcs⟩ := List.exists_cons_of_ne_nil (List.splitOnP_ne_nil p cs)
    rw [List.splitOnP_cons_eq_if_modifyHead, hcs, List.modifyHead_cons]
    rw [hcs] at ih
    unfold splitAll at ih ⊢
    rw [List.foldr_cons, ih]

theorem splitAll_eq_singleton {x : Char} {cs : List Char} (h : x ∉ cs) :
    splitAll (· == x) cs = [cs] := by
  rw [splitAll_eq_splitOnP]
  refine List.splitOnP_eq_singleton ?_
  intro c hc
  rw [beq_eq_false_iff_ne]
  rintro rfl
  exact h hc

theorem splitAll_append_cons (x : Char) (front back : List Char) :
    splitAll (· == x) (front ++ x :: back) =
      splitAll (· == x) front ++ splitAll (· == x) back := by
  rw [splitAll_eq_splitOnP, splitAll_eq_splitOnP, splitAll_eq_splitOnP]
  exact List.splitOnP_append_cons _ _ (beq_self_eq_true x)

theorem length_splitAll (x : Char) (cs : List Char) :
    (splitAll (· == x) cs).length = cs.count x + 1 := by
  induction cs with
  | nil => rfl
  | cons c cs ih =>
    rw [splitAll_eq_splitOnP] at ih ⊢
    rw [List.splitOnP_cons_eq_if_modifyHead, List.count_cons]
    split
    · rw [List.length_cons, ih]
    · rw [List.length_modifyHead, ih, Nat.add_zero]

theorem exists_splitAll_eq_concat (x : Char) (cs : List Char) :
    ∃ front last, splitAll (· == x) cs = front ++ [last] ∧ last <:+ cs := by
  by_cases hx : x ∈ cs
  · obtain ⟨back, rest, hcs, hback⟩ := List.eq_append_cons_of_mem (List.mem_reverse.mpr hx)
    have hlast : cs = rest.reverse ++ x :: back.reverse := by
      rw [← List.reverse_reverse cs, hcs, List.reverse_append, List.reverse_cons,
        List.append_assoc, List.singleton_append]
    refine ⟨splitAll (· == x) rest.reverse, back.reverse, ?_, ?_⟩
    · rw [hlast, splitAll_append_cons, splitAll_eq_singleton (mt List.mem_reverse.mp hback)]
    · rw [hlast]
      exact (List.suffix_cons x _).trans (List.suffix_append _ _)
  · exact ⟨[], cs, splitAll_eq_singleton hx, List.suffix_rfl⟩

theorem mem_piece {p : Char → Bool} {cs piece : List Char} (h : piece ∈ splitAll p cs) {c : Char}
    (hc : c ∈ piece) : c ∈ cs ∧ p c = false := by
  rw [splitAll_eq_splitOnP] at h
  induction cs generalizing piece with
  | nil =>
    rw [List.splitOnP_nil, List.mem_singleton] at h
    subst h
    cases hc
  | cons d cs ih =>
    have later {piece : List Char} (h : piece ∈ cs.splitOnP p) (hc : c ∈ piece) :
        c ∈ d :: cs ∧ p c = false :=
      ⟨List.mem_cons_of_mem d (ih h hc).1, (ih h hc).2⟩
    obtain ⟨first, rest, hcs⟩ := List.exists_cons_of_ne_nil (List.splitOnP_ne_nil p cs)
    rw [List.splitOnP_cons_eq_if_modifyHead] at h
    split at h
    · rcases List.mem_cons.mp h with rfl | h
      · cases hc
      · exact later h hc
    · next hd =>
      rw [hcs, List.modifyHead_cons] at h
      rcases List.mem_cons.mp h with rfl | h
      · rcases List.mem_cons.mp hc with rfl | hc
        · exact ⟨List.mem_cons_self, by simpa using hd⟩
        · exact later (hcs ▸ List.mem_cons_self) hc
      · exact later (hcs ▸ List.mem_cons_of_mem first h) hc

/-! ## Words -/

structure IsWord (cs : List Char) : Prop where
  ne_nil : cs ≠ []
  nonblank : ∀ c ∈ cs, isBlank c = false

theorem isWord_iff {cs : List Char} :
    IsWord cs ↔ cs ≠ [] ∧ cs.all (fun c => !isBlank c) = true := by
  simp only [List.all_eq_true, Bool.not_eq_true']
  constructor
  · intro h
    exact ⟨h.ne_nil, h.nonblank⟩
  · intro h
    exact ⟨h.1, h.2⟩

instance (cs : List Char) : Decidable (IsWord cs) :=
  decidable_of_iff' _ isWord_iff

theorem IsWord.not_mem {word : List Char} (h : IsWord word) {blank : Char}
    (hblank : isBlank blank = true) : blank ∉ word := by
  intro hmem
  exact Bool.noConfusion (hblank.symm.trans (h.nonblank blank hmem))

theorem isWord_of_mem_columns {cs word : List Char} (h : word ∈ columns cs) : IsWord word := by
  obtain ⟨hpiece, hne⟩ := List.mem_filter.mp h
  exact ⟨by simpa using hne, fun c hc => (mem_piece hpiece hc).2⟩

theorem IsWord.columns_eq {word : List Char} (h : IsWord word) : columns word = [word] := by
  rw [columns, splitAll_eq_splitOnP, List.splitOnP_eq_singleton h.nonblank]
  exact List.filter_cons_of_pos (by simpa using h.ne_nil)

theorem IsWord.columns_append_cons {word : List Char} (h : IsWord word) {blank : Char}
    (hblank : isBlank blank = true) (cs : List Char) :
    columns (word ++ blank :: cs) = word :: columns cs := by
  rw [columns, columns, splitAll_eq_splitOnP, splitAll_eq_splitOnP,
    List.splitOnP_append_cons_of_forall_mem h.nonblank blank hblank]
  exact List.filter_cons_of_pos (by simpa using h.ne_nil)

theorem columns_cons_blank {c : Char} (h : isBlank c = true) (cs : List Char) :
    columns (c :: cs) = columns cs := by
  unfold columns splitAll
  rw [List.foldr_cons, if_pos h]
  rfl

theorem columns_append_of_blank {margin : List Char} (h : ∀ c ∈ margin, isBlank c = true)
    (cs : List Char) : columns (margin ++ cs) = columns cs := by
  induction margin with
  | nil => rfl
  | cons c margin ih =>
    obtain ⟨hc, hmargin⟩ := List.forall_mem_cons.mp h
    rw [List.cons_append, columns_cons_blank hc, ih hmargin]

theorem columns_cons_ne_nil {c : Char} (h : isBlank c = false) (cs : List Char) :
    columns (c :: cs) ≠ [] := by
  unfold columns splitAll
  rw [List.foldr_cons, h]
  cases cs.foldr _ _ <;> exact List.cons_ne_nil _ _

theorem columns_eq_nil_iff {cs : List Char} :
    columns cs = [] ↔ ∀ c ∈ cs, isBlank c = true := by
  induction cs with
  | nil => exact iff_of_true rfl (List.forall_mem_nil _)
  | cons c cs ih =>
    rw [List.forall_mem_cons]
    cases hc : isBlank c with
    | true =>
      rw [columns_cons_blank hc, ih]
      exact (and_iff_right rfl).symm
    | false =>
      refine iff_of_false (columns_cons_ne_nil hc cs) ?_
      intro h
      exact Bool.noConfusion h.1

theorem columns_concat_blank {blank : Char} (h : isBlank blank = true) (cs : List Char) :
    columns (cs ++ [blank]) = columns cs := by
  have hend : splitAll isBlank (cs ++ [blank]) = splitAll isBlank cs ++ [[]] := by
    rw [splitAll_eq_splitOnP, splitAll_eq_splitOnP, List.splitOnP_append_cons _ _ h,
      List.splitOnP_nil]
  rw [columns, hend, List.filter_append]
  exact List.append_nil _

theorem IsWord.columns_append_of_blank {word : List Char} (h : IsWord word) {margin : List Char}
    (hmargin : ∀ c ∈ margin, isBlank c = true) : columns (word ++ margin) = [word] := by
  cases margin with
  | nil => rw [List.append_nil, h.columns_eq]
  | cons c margin =>
    obtain ⟨hc, hmargin⟩ := List.forall_mem_cons.mp hmargin
    rw [h.columns_append_cons hc, columns_eq_nil_iff.mpr hmargin]

theorem trim_eq_nil_iff {cs : List Char} : trim cs = [] ↔ ∀ c ∈ cs, isBlank c = true := by
  rw [trim, dropEndWhile, List.reverse_eq_nil_iff, List.dropWhile_eq_nil_iff]
  simp only [List.mem_reverse]
  constructor
  · intro h c hc
    rw [← List.takeWhile_append_dropWhile (p := isBlank) (l := cs)] at hc
    rcases List.mem_append.mp hc with hc | hc
    · exact List.mem_takeWhile_imp hc
    · exact h c hc
  · intro h c hc
    exact h c (List.dropWhile_subset _ hc)

theorem trim_concat_blank {c : Char} (h : isBlank c = true) (cs : List Char) :
    trim (cs ++ [c]) = trim cs := by
  rw [trim, trim, List.dropWhile_append]
  split
  · next hempty =>
    rw [List.isEmpty_iff.mp hempty, List.dropWhile_cons_of_pos h, List.dropWhile_nil]
  · rw [dropEndWhile, List.reverse_concat, List.dropWhile_cons_of_pos h, dropEndWhile]

theorem dropWhile_eq_self_iff_head {p : Char → Bool} {cs : List Char} :
    cs.dropWhile p = cs ↔ ∀ c, cs.head? = some c → p c = false := by
  cases cs with
  | nil => simp
  | cons c cs =>
    cases hc : p c with
    | true =>
      rw [List.dropWhile_cons_of_pos hc]
      refine iff_of_false ?_ fun h => Bool.noConfusion (hc.symm.trans (h c rfl))
      intro heq
      have hle := (List.dropWhile_sublist p (l := cs)).length_le
      rw [heq, List.length_cons] at hle
      omega
    | false => simp [hc]

theorem dropEndWhile_eq_self_iff {p : Char → Bool} {cs : List Char} :
    dropEndWhile p cs = cs ↔ ∀ c, cs.getLast? = some c → p c = false := by
  rw [← List.head?_reverse, ← dropWhile_eq_self_iff_head, dropEndWhile, List.reverse_eq_iff]

theorem trim_of_last {cs : List Char} (h : ∀ c, cs.getLast? = some c → isBlank c = false) :
    trim cs = cs.dropWhile isBlank := by
  refine dropEndWhile_eq_self_iff.mpr ?_
  intro c hc
  obtain ⟨front, hfront⟩ := List.dropWhile_suffix (l := cs) isBlank
  refine h c ?_
  rw [← hfront, List.getLast?_append, hc, Option.some_or]

theorem nonblank_last {cs : List Char} {last : Char} (h : cs.getLast? = some last)
    (hlast : isBlank last = false) : ∀ c, cs.getLast? = some c → isBlank c = false := by
  intro c hc
  rw [h] at hc
  exact Option.some.inj hc ▸ hlast

theorem trim_append {cs ending : List Char} (hne : trim cs ≠ [])
    (hlast : ∀ c, cs.getLast? = some c → isBlank c = false)
    (hending : ∀ c, ending.getLast? = some c → isBlank c = false) :
    trim (cs ++ ending) = trim cs ++ ending := by
  have hboth : ∀ c, (cs ++ ending).getLast? = some c → isBlank c = false := by
    intro c hc
    rw [List.getLast?_append, Option.or_eq_some_iff] at hc
    rcases hc with hc | ⟨-, hc⟩
    · exact hending c hc
    · exact hlast c hc
  rw [trim_of_last hlast] at hne
  rw [trim_of_last hboth, trim_of_last hlast, List.dropWhile_append,
    if_neg (mt List.isEmpty_iff.mp hne)]

theorem mem_of_mem_trim {cs : List Char} {c : Char} (h : c ∈ trim cs) : c ∈ cs := by
  have hc : c ∈ (cs.dropWhile isBlank).reverse.dropWhile isBlank := List.mem_reverse.mp h
  exact List.dropWhile_subset isBlank (List.mem_reverse.mp (List.dropWhile_subset isBlank hc))

theorem mem_trim_iff {cs : List Char} {c : Char} (h : isBlank c = false) :
    c ∈ trim cs ↔ c ∈ cs := by
  have hkept (cs : List Char) (hc : c ∈ cs) : c ∈ cs.dropWhile isBlank := by
    rw [← List.takeWhile_append_dropWhile (p := isBlank) (l := cs)] at hc
    rcases List.mem_append.mp hc with hc | hc
    · exact Bool.noConfusion (h.symm.trans (List.mem_takeWhile_imp hc))
    · exact hc
  refine ⟨mem_of_mem_trim, ?_⟩
  intro hc
  exact List.mem_reverse.mpr (hkept _ (List.mem_reverse.mpr (hkept cs hc)))

/-! ## Lines -/

theorem dropReturn_eq_self {line : List Char} (h : line.getLast? ≠ some '\r') :
    dropReturn line = line := by
  unfold dropReturn
  split
  · next hlast => exact absurd hlast h
  · rfl

theorem dropReturn_concat (cs : List Char) : dropReturn (cs ++ ['\r']) = cs := by
  unfold dropReturn
  rw [List.getLast?_concat]
  exact List.dropLast_concat

theorem trim_dropReturn (line : List Char) : trim (dropReturn line) = trim line := by
  by_cases hlast : line.getLast? = some '\r'
  · obtain ⟨cs, rfl⟩ := List.getLast?_eq_some_iff.mp hlast
    rw [dropReturn_concat, trim_concat_blank (by decide)]
  · rw [dropReturn_eq_self hlast]

/-- A carriage return is blank, so a line that ends in a word keeps its end. -/
theorem dropReturn_append_word {word : List Char} (h : IsWord word) (cs : List Char) :
    dropReturn (cs ++ word) = cs ++ word := by
  apply dropReturn_eq_self
  intro hlast
  obtain ⟨last, hword⟩ := Option.isSome_iff_exists.mp (List.getLast?_isSome.mpr h.ne_nil)
  rw [List.getLast?_append, hword, Option.some_or] at hlast
  have hreturn : '\r' ∈ word := Option.some.inj hlast ▸ List.mem_of_getLast? hword
  exact h.not_mem (by decide) hreturn

theorem endLines_append {rest : List (List Char)} (h : rest ≠ []) (pieces : List (List Char)) :
    endLines (pieces ++ rest) = pieces.map dropReturn ++ endLines rest := by
  induction pieces with
  | nil => rfl
  | cons piece pieces ih =>
    obtain ⟨next, later, hnext⟩ :=
      List.exists_cons_of_ne_nil (List.append_ne_nil_of_right_ne_nil pieces h)
    rw [List.cons_append, hnext]
    change dropReturn piece :: endLines (next :: later) = _
    rw [← hnext, ih]
    rfl

theorem endLines_concat_nil (pieces : List (List Char)) :
    endLines (pieces ++ [[]]) = pieces.map dropReturn := by
  rw [endLines_append (List.cons_ne_nil _ _)]
  exact List.append_nil _

theorem splitAll_joinLines {ls : List String} (hne : ls ≠ []) (h : ∀ l ∈ ls, '\n' ∉ l.toList) :
    splitAll (· == '\n') (joinLines ls).toList = ls.map String.toList := by
  have hpieces : ∀ piece ∈ ls.map String.toList, '\n' ∉ piece := by
    intro piece hpiece
    obtain ⟨l, hl, rfl⟩ := List.mem_map.mp hpiece
    exact h l hl
  have hsplit := List.splitOn_intercalate '\n' hpieces (by simpa using hne)
  rw [List.splitOn_eq_splitOnP] at hsplit
  rw [joinLines, String.toList_intercalate, splitAll_eq_splitOnP]
  exact hsplit

theorem lines_joinLines {ls : List String} (h : ∀ l ∈ ls, '\n' ∉ l.toList) :
    lines (joinLines (ls ++ [""])).toList = ls.map fun l => dropReturn l.toList := by
  have hended : ∀ l ∈ ls ++ [""], '\n' ∉ l.toList := by
    intro l hl
    rcases List.mem_append.mp hl with hl | hl
    · exact h l hl
    · rw [List.mem_singleton.mp hl]
      exact List.not_mem_nil
  have hpieces : (ls ++ [""]).map String.toList = ls.map String.toList ++ [[]] :=
    List.map_append
  rw [lines, splitAll_joinLines (by simp) hended, hpieces, endLines_concat_nil, List.map_map]
  rfl

theorem splitAll_joinLines_cons (line : String) {ls : List String} (h : ls ≠ []) :
    splitAll (· == '\n') (joinLines (line :: ls)).toList =
      splitAll (· == '\n') line.toList ++ splitAll (· == '\n') (joinLines ls).toList := by
  rw [joinLines, String.intercalate_cons_of_ne_nil h, String.toList_append, String.toList_append,
    List.append_assoc]
  exact splitAll_append_cons '\n' _ _

/-- What does not see a return at the end, and finds nothing in an empty line, finds the same in
the lines of a text as in its pieces. -/
theorem filterMap_lines {β : Type} {f : List Char → Option β} (hempty : f [] = none)
    (hreturn : ∀ line, f (dropReturn line) = f line) (cs : List Char) :
    (lines cs).filterMap f = (splitAll (· == '\n') cs).filterMap f := by
  rw [lines]
  induction splitAll (· == '\n') cs with
  | nil => rfl
  | cons line rest ih =>
    cases rest with
    | nil =>
      cases line with
      | nil => exact (List.filterMap_cons_none hempty).symm
      | cons c line => rfl
    | cons next rest =>
      change (dropReturn line :: endLines (next :: rest)).filterMap f = _
      rw [List.filterMap_cons, hreturn, ih]
      exact List.filterMap_cons.symm

end Ownership.Text
