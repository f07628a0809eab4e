import Ownership.Proofs.Glob.Affix
import Ownership.Proofs.Glob.Collapse

set_option autoImplicit false

/-!
# Characters in bytes

A glob takes bytes. It takes the characters that its segment is read to take where every byte it
tests on its own is a whole character: in a text of one-byte characters, and in any text if the
segment has no `?` and lists only one-byte characters in its classes.
-/
namespace Ownership.Glob
open Ownership.Wild
open Ownership.Text

/-! ## Classes -/

theorem le_iff_toNat_le {a b : Char} : a ≤ b ↔ a.toNat ≤ b.toNat := Iff.rfl

section OneByte

variable {c : Char} {b : UInt8} (hform : String.utf8EncodeChar c = [b]) (hb : b.toNat < 128)

include hform hb

theorem toNat_of_form : b.toNat = c.toNat :=
  (encode_eq_singleton (by rw [hform]; exact List.mem_singleton_self b) hb).2

theorem mem_form_iff {x : Char} : b ∈ String.utf8EncodeChar x ↔ x = c := by
  constructor
  · intro hmem
    have hx := (encode_eq_singleton hmem hb).2
    exact Char.toNat_inj.mp (hx.symm.trans (toNat_of_form hform hb))
  · rintro rfl
    rw [hform]
    exact List.mem_singleton_self b

theorem getLastD_le_iff {x : Char} : (String.utf8EncodeChar x).getLastD 0 ≤ b ↔ x ≤ c := by
  have hc := toNat_of_form hform hb
  rw [UInt8.le_iff_toNat_le, le_iff_toNat_le]
  by_cases hx : IsAscii x
  · rw [encode_of_isAscii hx]
    change (UInt8.ofNat x.toNat).toNat ≤ b.toNat ↔ _
    rw [toNat_ofNat_of_isAscii hx, hc]
  · have hlt : ¬ x.toNat < 128 := hx
    have hmem : (String.utf8EncodeChar x).getLastD 0 ∈ String.utf8EncodeChar x := by
      rw [List.getLastD_eq_getLast?, List.getLast?_eq_some_getLast String.utf8EncodeChar_ne_nil]
      exact List.getLast_mem _
    have hle := le_toNat_of_mem_encode hx hmem
    omega

theorem le_headD_iff {y : Char} : b ≤ (String.utf8EncodeChar y).headD 0 ↔ c ≤ y := by
  have hc := toNat_of_form hform hb
  rw [UInt8.le_iff_toNat_le, le_iff_toNat_le]
  by_cases hy : IsAscii y
  · rw [encode_of_isAscii hy, List.headD_cons, toNat_ofNat_of_isAscii hy, hc]
  · have hlt : ¬ y.toNat < 128 := hy
    obtain ⟨first, rest, h⟩ := List.exists_cons_of_ne_nil (String.utf8EncodeChar_ne_nil (c := y))
    have hle := le_toNat_of_mem_encode hy (h ▸ List.mem_cons_self)
    rw [h, List.headD_cons]
    omega

omit hform in
theorem not_mem_part {x : Char} {part : List UInt8} (hpart : part.Sublist (String.utf8EncodeChar x))
    (hlen : part.length < (String.utf8EncodeChar x).length) : b ∉ part := by
  intro hmem
  rw [(encode_eq_singleton (hpart.subset hmem) hb).1] at hlen
  exact List.not_mem_nil (List.length_eq_zero_iff.mp (Nat.lt_one_iff.mp hlen) ▸ hmem)

theorem exists_mem_byteRanges_iff {x y : Char} :
    (∃ s ∈ byteRanges x y, s.1 ≤ b ∧ b ≤ s.2) ↔ x ≤ c ∧ c ≤ y := by
  have hlen : ∀ z : Char, 0 < (String.utf8EncodeChar z).length := fun z =>
    List.length_pos_iff.mpr String.utf8EncodeChar_ne_nil
  have hinit : b ∉ (String.utf8EncodeChar x).dropLast := by
    refine not_mem_part hb (List.dropLast_sublist _) ?_
    rw [List.length_dropLast]
    exact Nat.sub_one_lt_of_lt (hlen x)
  have htail : b ∉ (String.utf8EncodeChar y).tail := by
    refine not_mem_part hb (List.tail_sublist _) ?_
    rw [List.length_tail]
    exact Nat.sub_one_lt_of_lt (hlen y)
  simp only [byteRanges, bytes_cons, bytes_nil, List.append_nil]
  split
  · next heq =>
    subst heq
    rw [exists_mem_singles_iff, mem_form_iff hform hb]
    exact le_antisymm_iff
  · simp only [List.mem_append, List.mem_cons, or_and_right, exists_or, exists_eq_left,
      exists_mem_singles_iff, hinit, htail, false_or, or_false, getLastD_le_iff hform hb,
      le_headD_iff hform hb]

theorem contains_eq_containsChar (k : ByteClass) : k.contains b = k.containsChar c := by
  have hlists : (k.ranges.any fun r => (byteRanges r.1 r.2).any fun s => s.1 ≤ b && b ≤ s.2) =
      k.lists c := by
    rw [Bool.eq_iff_iff]
    simp only [ByteClass.lists, List.any_eq_true, Bool.and_eq_true, decide_eq_true_eq,
      exists_mem_byteRanges_iff hform hb]
  rw [ByteClass.contains, ByteClass.containsChar, hlists]

end OneByte

def InOrder (ranges : List (Char × Char)) : Prop :=
  ∀ r ∈ ranges, r.1 ≤ r.2

theorem inOrder_rangesOf {stretches : List Stretch} (h : ∀ s ∈ stretches, ¬ s.IsReversed)
    (dash : Bool) : InOrder (rangesOf stretches dash) := by
  intro r hr
  rcases List.mem_append.mp hr with hr | hr
  · obtain ⟨s, hs, rfl⟩ := List.mem_map.mp hr
    exact Stretch.first_le_last (h s hs)
  · split at hr
    · obtain rfl := List.mem_singleton.mp hr
      exact le_refl '-'
    · cases hr

theorem inOrder_of_readClass {body : List Char} {k : ByteClass} (h : readClass body = .ok k) :
    InOrder k.ranges := by
  by_cases hne : members body = []
  · rw [readClass, hne] at h
    cases h
    exact List.forall_mem_nil _
  · obtain ⟨stretches, dash, hwritten⟩ := exists_areWritten hne
    obtain ⟨horder, rfl⟩ := (readClass_eq_ok_iff_ranges hwritten).mp h
    exact inOrder_rangesOf horder dash

namespace CharTest

/-- Tests that take one-byte characters only, or one character's whole form. -/
def IsWhole : CharTest → Prop
  | .char _ => True
  | .any => False
  | .oneOf k => k.negated = false ∧ ∀ c, k.lists c = true → IsAscii c

theorem Alike.isWhole {t u : CharTest} (h : t.Alike u) (ht : t.IsWhole) : u.IsWhole := by
  cases h with
  | refl => exact ht
  | oneOf hnegated hlists =>
    refine ⟨hnegated.trans ht.1, ?_⟩
    intro c hc
    exact ht.2 c ((hlists c).symm.trans hc)

end CharTest

theorem toNat_lt_of_contains {k : ByteClass} (horder : InOrder k.ranges)
    (hwhole : (CharTest.oneOf k).IsWhole) {b : UInt8} (h : k.contains b = true) :
    b.toNat < 128 := by
  obtain ⟨hnegated, hascii⟩ := hwhole
  have hlists : ∀ r ∈ k.ranges, ∀ c, r.1 ≤ c → c ≤ r.2 → IsAscii c := by
    intro r hr c hfirst hlast
    exact hascii c (lists_iff_lists.mpr ⟨r, hr, hfirst, hlast⟩)
  simp only [ByteClass.contains, hnegated, Bool.bne_false, List.any_eq_true, Bool.and_eq_true,
    decide_eq_true_eq] at h
  obtain ⟨r, hr, s, hs, -, hle⟩ := h
  have hfirst := hlists r hr r.1 le_rfl (horder r hr)
  have hlast := hlists r hr r.2 (horder r hr) le_rfl
  have hbound : ∀ c, IsAscii c → (UInt8.ofNat c.toNat).toNat < 128 := by
    intro c hc
    rw [toNat_ofNat_of_isAscii hc]
    exact hc
  rw [UInt8.le_iff_toNat_le] at hle
  simp only [byteRanges, bytes_cons, bytes_nil, List.append_nil, encode_of_isAscii hfirst,
    encode_of_isAscii hlast] at hs
  split at hs
  · obtain rfl := List.mem_singleton.mp hs
    exact lt_of_le_of_lt hle (hbound _ hfirst)
  · obtain rfl := List.mem_singleton.mp hs
    exact lt_of_le_of_lt hle (hbound _ hlast)

/-! ## Steps -/

/-- The block of steps takes, of the bytes in question, the forms of the characters that pass. -/
structure Fits (inQuestion : UInt8 → Prop) (t : CharTest) (block : List (Step ByteTest)) :
    Prop where
  takes : ∀ c, (∀ b ∈ String.utf8EncodeChar c, inQuestion b) → t.passes c = true →
    Cut ByteTest.passes block (String.utf8EncodeChar c)
  whole : ∀ xs, (∀ b ∈ xs, inQuestion b) → Cut ByteTest.passes block xs →
    ∃ c, xs = String.utf8EncodeChar c ∧ t.passes c = true

/-- Steps for bytes that fit the steps for characters one by one. -/
inductive Spells (inQuestion : UInt8 → Prop) :
    List (Step CharTest) → List (Step ByteTest) → Prop where
  | nil : Spells inQuestion [] []
  | run {steps : List (Step CharTest)} {spelled : List (Step ByteTest)}
      (rest : Spells inQuestion steps spelled) :
      Spells inQuestion (.run :: steps) (.run :: spelled)
  | one {t : CharTest} {block : List (Step ByteTest)} {steps : List (Step CharTest)}
      {spelled : List (Step ByteTest)} (h : Fits inQuestion t block)
      (rest : Spells inQuestion steps spelled) :
      Spells inQuestion (.one t :: steps) (block ++ spelled)

section Spelled

variable {inQuestion : UInt8 → Prop} {t : CharTest} {block spelled : List (Step ByteTest)}
  {steps : List (Step CharTest)}

/-- Wherever the block is taken inside a text, it takes one character of the text. -/
theorem Fits.exists_of_cut (h : Fits inQuestion t block) {cs : List Char} {xs ys : List UInt8}
    (hcs : ∀ b ∈ bytes cs, inQuestion b) (heq : bytes cs = xs ++ ys)
    (hcut : Cut ByteTest.passes (block ++ spelled) ys) :
    ∃ front c back, cs = front ++ c :: back ∧ bytes front = xs ∧ t.passes c = true ∧
      Cut ByteTest.passes spelled (bytes back) := by
  obtain ⟨taken, left, rfl, htaken, hleft⟩ := hcut.of_append
  have hinside : ∀ b ∈ taken, inQuestion b := by
    intro b hb
    refine hcs b ?_
    rw [heq]
    exact List.mem_append_right _ (List.mem_append_left _ hb)
  obtain ⟨c, rfl, hc⟩ := h.whole taken hinside htaken
  obtain ⟨front, back, rfl, hfront, rfl⟩ := exists_of_bytes_eq heq
  exact ⟨front, c, back, rfl, hfront, hc, hleft⟩

theorem inQuestion_of_append {front back : List Char} {c : Char}
    (h : ∀ b ∈ bytes (front ++ c :: back), inQuestion b) : ∀ b ∈ bytes back, inQuestion b := by
  simp only [bytes_append, bytes_cons, List.forall_mem_append] at h
  exact h.2.2

/-- The steps for bytes take of a text what those for characters take. What a run leaves may begin
inside a character, but the next form that is found shows where one begins. -/
theorem Spells.cut_of_bytes (h : Spells inQuestion steps spelled) :
    ∀ cs, (∀ b ∈ bytes cs, inQuestion b) →
      (Cut ByteTest.passes spelled (bytes cs) → Cut CharTest.passes steps cs) ∧
      ∀ xs ys, bytes cs = xs ++ ys → Cut ByteTest.passes spelled ys →
        ∃ front back, cs = front ++ back ∧ Cut CharTest.passes steps back := by
  induction h with
  | nil =>
    intro cs _
    constructor
    · intro hcut
      generalize hxs : bytes cs = xs at hcut
      cases hcut
      rw [bytes_eq_nil_iff.mp hxs]
      exact .nil
    · intro xs ys _ _
      exact ⟨cs, [], (List.append_nil cs).symm, .nil⟩
  | run rest ih =>
    intro cs hcs
    constructor
    · intro hcut
      obtain ⟨taken, left, hleft, hrest⟩ := cut_run_iff.mp hcut
      obtain ⟨front, back, rfl, hback⟩ := (ih cs hcs).2 taken left hleft hrest
      exact .run front hback
    · intro xs ys hys hcut
      obtain ⟨taken, left, rfl, hrest⟩ := cut_run_iff.mp hcut
      rw [← List.append_assoc] at hys
      obtain ⟨front, back, rfl, hback⟩ := (ih cs hcs).2 (xs ++ taken) left hys hrest
      exact ⟨front, back, rfl, .run [] hback⟩
  | one hfits rest ih =>
    intro cs hcs
    constructor
    · intro hcut
      obtain ⟨front, c, back, rfl, hfront, hc, hleft⟩ :=
        hfits.exists_of_cut hcs (List.nil_append _).symm hcut
      rw [bytes_eq_nil_iff.mp hfront]
      exact .one hc ((ih back (inQuestion_of_append hcs)).1 hleft)
    · intro xs ys hys hcut
      obtain ⟨front, c, back, rfl, -, hc, hleft⟩ := hfits.exists_of_cut hcs hys hcut
      exact ⟨front, c :: back, rfl, .one hc ((ih back (inQuestion_of_append hcs)).1 hleft)⟩

theorem Spells.bytes_of_cut (h : Spells inQuestion steps spelled) {cs : List Char}
    (hcs : ∀ b ∈ bytes cs, inQuestion b) (hcut : Cut CharTest.passes steps cs) :
    Cut ByteTest.passes spelled (bytes cs) := by
  induction h generalizing cs with
  | nil =>
    cases hcut
    exact .nil
  | run rest ih =>
    obtain ⟨taken, left, rfl, hrest⟩ := cut_run_iff.mp hcut
    rw [bytes_append, List.forall_mem_append] at hcs
    rw [bytes_append]
    exact .run (bytes taken) (ih hcs.2 hrest)
  | one hfits rest ih =>
    obtain ⟨c, left, rfl, hc, hrest⟩ := cut_one_iff.mp hcut
    rw [bytes_cons, List.forall_mem_append] at hcs
    rw [bytes_cons]
    exact (hfits.takes c hcs.1 hc).append (ih hcs.2 hrest)

theorem Spells.cut_bytes_iff (h : Spells inQuestion steps spelled) {cs : List Char}
    (hcs : ∀ b ∈ bytes cs, inQuestion b) :
    Cut ByteTest.passes spelled (bytes cs) ↔ Cut CharTest.passes steps cs :=
  ⟨(h.cut_of_bytes cs hcs).1, h.bytes_of_cut hcs⟩

end Spelled

/-! ## Segments -/

section Parts

variable {inQuestion : UInt8 → Prop}

/-- A test of one byte fits when it passes, of the bytes in question, the one-byte characters that
pass the test of characters, and nothing else does. -/
theorem fits_of_agree {t : CharTest} {u : ByteTest}
    (hbyte : ∀ b, inQuestion b → u.passes b = true → b.toNat < 128)
    (hchar : ∀ c, (∀ b ∈ String.utf8EncodeChar c, inQuestion b) → t.passes c = true → IsAscii c)
    (hagree : ∀ c b, String.utf8EncodeChar c = [b] → b.toNat < 128 → u.passes b = t.passes c) :
    Fits inQuestion t [.one u] where
  takes c hin hc := by
    have hascii := hchar c hin hc
    have hform := encode_of_isAscii hascii
    have hb : (UInt8.ofNat c.toNat).toNat < 128 := by
      rw [toNat_ofNat_of_isAscii hascii]
      exact hascii
    refine cut_singleton_iff.mpr ⟨_, hform, ?_⟩
    rw [hagree c _ hform hb, hc]
  whole xs hin hcut := by
    obtain ⟨b, rfl, hb⟩ := cut_singleton_iff.mp hcut
    have hlt := hbyte b (hin b (List.mem_singleton_self b)) hb
    obtain ⟨c, -, hform⟩ := exists_isAscii hlt
    exact ⟨c, hform.symm, by rw [← hagree c b hform hlt, hb]⟩

theorem fits_literal (c : Char) {block : List (Step ByteTest)}
    (h : Part.steps (.literal c) = .ok block) : Fits inQuestion (.char c) block where
  takes d _ hd := by
    obtain rfl : c = d := beq_iff_eq.mp hd
    exact (cut_literal_iff h).mpr (bytes_singleton c).symm
  whole xs _ hcut :=
    ⟨c, ((cut_literal_iff h).mp hcut).trans (bytes_singleton c), beq_self_eq_true c⟩

theorem fits_closed {k : ByteClass} (horder : InOrder k.ranges)
    (h : (∀ b, inQuestion b → b.toNat < 128) ∨ (CharTest.oneOf k).IsWhole) :
    Fits inQuestion (.oneOf k) [.one (.oneOf k)] := by
  refine fits_of_agree ?_ ?_ fun c b hform hb => contains_eq_containsChar hform hb k
  · intro b hin hb
    rcases h with hsmall | hwhole
    · exact hsmall b hin
    · exact toNat_lt_of_contains horder hwhole hb
  · intro c hin hc
    rcases h with hsmall | hwhole
    · exact isAscii_of_bytes fun b hb => hsmall b (hin b hb)
    · rw [CharTest.passes, ByteClass.containsChar, hwhole.1, Bool.bne_false] at hc
      exact hwhole.2 c hc

theorem fits_any (h : ∀ b, inQuestion b → b.toNat < 128) :
    Fits inQuestion .any [.one .any] :=
  fits_of_agree (fun b hin _ => h b hin)
    (fun _ hin _ => isAscii_of_bytes fun b hb => h b (hin b hb)) fun _ _ _ _ => rfl

theorem exists_spells (inQuestion : UInt8 → Prop) {ps : List Part} {steps : List (Step CharTest)}
    (h : charSteps ps = .ok steps)
    (hgood : (∀ b, inQuestion b → b.toNat < 128) ∨ ∀ t, .one t ∈ steps → t.IsWhole) :
    ∃ spelled, readParts ps = .ok spelled ∧ Spells inQuestion steps spelled := by
  induction ps generalizing steps with
  | nil =>
    cases h
    exact ⟨[], rfl, .nil⟩
  | cons p ps ih =>
    obtain ⟨here, there, hp, hps, rfl⟩ := exists_of_charSteps_cons h
    obtain ⟨spelled, hread, hspells⟩ :=
      ih hps (hgood.imp_right fun hwhole t ht => hwhole t (List.mem_cons_of_mem _ ht))
    cases p with
    | star =>
      obtain rfl := Except.ok.inj hp
      exact ⟨_, readParts_cons rfl hread, .run hspells⟩
    | any =>
      obtain rfl := Except.ok.inj hp
      have hsmall := hgood.resolve_right fun hwhole => hwhole .any List.mem_cons_self
      exact ⟨_, readParts_cons rfl hread, .one (fits_any hsmall) hspells⟩
    | closed body =>
      obtain ⟨k, hk, rfl⟩ := charStep_closed_eq_ok_iff.mp hp
      have hstep : (Part.closed body).steps = .ok [.one (.oneOf k)] := by
        rw [Part.steps, hk]
        rfl
      have hfits := fits_closed (inOrder_of_readClass hk)
        (hgood.imp_right fun hwhole => hwhole _ List.mem_cons_self)
      exact ⟨_, readParts_cons hstep hread, .one hfits hspells⟩
    | literal c =>
      obtain rfl := Except.ok.inj hp
      obtain ⟨block, hblock⟩ := exists_steps_literal c
      exact ⟨_, readParts_cons hblock hread, .one (fits_literal c hblock) hspells⟩

end Parts

theorem Collapsed.isWhole {steps fewer : List (Step CharTest)} (h : Collapsed steps fewer)
    (hwhole : ∀ t, .one t ∈ steps → t.IsWhole) : ∀ t, .one t ∈ fewer → t.IsWhole := by
  induction h with
  | nil => exact hwhole
  | one hsame rest ih =>
    intro t ht
    rcases List.mem_cons.mp ht with heq | ht
    · obtain rfl := Step.one.inj heq
      exact hsame.isWhole (hwhole _ List.mem_cons_self)
    · exact ih (fun u hu => hwhole u (List.mem_cons_of_mem _ hu)) t ht
  | run rest ih =>
    intro t ht
    rcases List.mem_cons.mp ht with heq | ht
    · cases heq
    · exact ih (fun u hu => hwhole u (List.mem_cons_of_mem _ hu)) t ht
  | again rest ih => exact ih fun u hu => hwhole u (List.mem_cons_of_mem _ hu)

theorem exists_ofSegment {segment : String} {spelled : List (Step ByteTest)}
    (h : readParts (parts (collapseStars segment.toList)) = .ok spelled) :
    ∃ g, ofSegment segment = .ok g ∧ g.text.toList = collapseStars segment.toList := by
  have hread : readGlob (escape (String.ofList (collapseStars segment.toList)).toList) =
      .ok [spelled] := by
    rw [String.toList_ofList, readGlob_escape, h]
    rfl
  refine ⟨⟨_, _, hread⟩, ?_, String.toList_ofList⟩
  unfold ofSegment
  dsimp only
  split
  · next branches hbranches =>
    congr 1
    exact ext_text rfl
  · next e he =>
    rw [hread] at he
    cases he

/-- A segment that can be read compiles, and takes the characters it is read to take, as long as
the path has one-byte characters only or no byte is tested that may be part of a character. -/
theorem accepts_iff_cut_characters {segment : String} {steps : List (Step CharTest)}
    (h : readCharacters segment = .ok steps) :
    ∃ g, ofSegment segment = .ok g ∧ ∀ path : String,
      ((∀ c ∈ path.toList, IsAscii c) ∨ ∀ t, .one t ∈ steps → t.IsWhole) →
        (g.accepts path = true ↔ Cut CharTest.passes steps path.toList) := by
  obtain ⟨fewer, hfewer, hruns⟩ := (keepsSteps_of_charSteps segment.toList steps h).here
  obtain ⟨spelled, hread, -⟩ := exists_spells (fun _ => False) hfewer (.inl nofun)
  obtain ⟨g, hg, htext⟩ := exists_ofSegment hread
  have hsteps := (branches_eq g).1
  rw [htext, hread] at hsteps
  obtain rfl := Except.ok.inj hsteps
  refine ⟨g, hg, ?_⟩
  intro path hpath
  obtain ⟨spelled, hspelled, hspells⟩ :=
    exists_spells (· ∈ bytes path.toList) hfewer (hpath.imp toNat_lt_of_mem_bytes hruns.isWhole)
  rw [hread] at hspelled
  obtain rfl := Except.ok.inj hspelled
  rw [accepts_iff_cut, hspells.cut_bytes_iff fun _ hb => hb, hruns.cut_iff]

theorem accepts_iff_cut_characters_readme :
    ∃ g, ofSegment "[!a]?*.md" = .ok g ∧ g.accepts "b1x.md" = true := by
  have hread : readCharacters "[!a]?*.md" =
      .ok [.one (.oneOf ⟨true, [('a', 'a')]⟩), .one .any, .run, .one (.char '.'),
        .one (.char 'm'), .one (.char 'd')] := by decide +kernel
  obtain ⟨g, hg, haccepts⟩ := accepts_iff_cut_characters hread
  refine ⟨g, hg, (haccepts "b1x.md" (.inl (by simp [IsAscii]))).mpr ?_⟩
  exact .one (by decide) (.one (by decide) (.run ['x'] (.one (by decide) (.one (by decide)
    (.one (by decide) .nil)))))

/-- `?` refuses one character that is two bytes long, and `??` takes it. -/
theorem accepts_ne_cut_characters_accent :
    (∃ g steps, ofSegment "?" = .ok g ∧ readCharacters "?" = .ok steps ∧
      Cut CharTest.passes steps "é".toList ∧ g.accepts "é" = false) ∧
    ∃ g steps, ofSegment "??" = .ok g ∧ readCharacters "??" = .ok steps ∧
      ¬ Cut CharTest.passes steps "é".toList ∧ g.accepts "é" = true := by
  obtain ⟨one, hone, hrefuses⟩ := exists_ok_of_any
    (by decide +kernel : (ofSegment "?").toOption.any (!·.accepts "é") = true)
  obtain ⟨two, htwo, haccepts⟩ := exists_ok_of_any
    (by decide +kernel : (ofSegment "??").toOption.any (·.accepts "é") = true)
  have hread : readCharacters "?" = .ok [.one .any] := by decide +kernel
  have hreads : readCharacters "??" = .ok [.one .any, .one .any] := by decide +kernel
  refine ⟨⟨one, _, hone, hread, .one rfl .nil, by simpa using hrefuses⟩,
    two, _, htwo, hreads, ?_, haccepts⟩
  rw [← Wild.accepts_iff_cut]
  decide

end Ownership.Glob
