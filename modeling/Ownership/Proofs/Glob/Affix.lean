import Ownership.Proofs.Glob.Parts
import Ownership.Proofs.Text.Bytes
import Ownership.Proofs.Wild.Cut

set_option autoImplicit false

/-!
# Literal ends of a wildcard segment

What a wildcard segment accepts begins with its literal start and ends with its literal end, byte
for byte. A star and one literal accept nothing else than that asks for.
-/
namespace Ownership.Glob
open Ownership.Wild

def literalSteps (cs : List Char) : List (Step ByteTest) :=
  (Text.bytes cs).map fun b => .one (.byte b)

theorem literalSteps_append (as bs : List Char) :
    literalSteps (as ++ bs) = literalSteps as ++ literalSteps bs := by
  rw [literalSteps, Text.bytes_append, List.map_append]
  rfl

theorem cut_bytes_iff {bs xs : List UInt8} :
    Cut ByteTest.passes (bs.map fun b => .one (.byte b)) xs ↔ xs = bs := by
  induction bs generalizing xs with
  | nil =>
    constructor
    · intro h
      cases h with
      | nil => rfl
    · rintro rfl
      exact .nil
  | cons b bs ih =>
    constructor
    · intro h
      cases h with
      | @one t x steps xs hb rest =>
        obtain rfl := ih.mp rest
        obtain rfl : b = x := by simpa [ByteTest.passes] using hb
        rfl
    · rintro rfl
      exact .one (by simp [ByteTest.passes]) (ih.mpr rfl)

theorem cut_literalSteps_iff {cs : List Char} {xs : List UInt8} :
    Cut ByteTest.passes (literalSteps cs) xs ↔ xs = Text.bytes cs :=
  cut_bytes_iff

theorem cut_singleton_iff {t : ByteTest} {xs : List UInt8} :
    Cut ByteTest.passes [.one t] xs ↔ ∃ b, xs = [b] ∧ t.passes b = true := by
  rw [cut_one_iff]
  constructor
  · rintro ⟨b, rest, rfl, hb, hrest⟩
    cases hrest
    exact ⟨b, rfl, hb⟩
  · rintro ⟨b, rfl, hb⟩
    exact ⟨b, [], rfl, hb, .nil⟩

theorem exists_mem_singles_iff {xs : List UInt8} {b : UInt8} :
    (∃ s ∈ xs.map fun x => (x, x), s.1 ≤ b ∧ b ≤ s.2) ↔ b ∈ xs := by
  constructor
  · rintro ⟨s, hs, hle⟩
    obtain ⟨x, hx, rfl⟩ := List.mem_map.mp hs
    rwa [← UInt8.le_antisymm hle.1 hle.2]
  · intro hmem
    exact ⟨(b, b), List.mem_map.mpr ⟨b, hmem, rfl⟩, UInt8.le_refl b, UInt8.le_refl b⟩

theorem contains_single_iff {c : Char} {b : UInt8} :
    ByteClass.contains ⟨false, [(c, c)]⟩ b = true ↔ b ∈ Text.bytes [c] := by
  rw [← exists_mem_singles_iff]
  simp [ByteClass.contains, byteRanges]

/-- A literal takes its own form, also where it is escaped to a class of its own. -/
theorem cut_literal_iff {c : Char} {block : List (Step ByteTest)}
    (h : Part.steps (.literal c) = .ok block) {xs : List UInt8} :
    Cut ByteTest.passes block xs ↔ xs = Text.bytes [c] := by
  rw [Part.steps] at h
  split at h
  · next hescaped =>
    obtain rfl := Except.ok.inj h
    have hascii : Text.IsAscii c := by
      rcases isEscaped_iff.mp hescaped with rfl | rfl | rfl | rfl <;> decide
    have hform : Text.bytes [c] = [UInt8.ofNat c.toNat] := by
      rw [Text.bytes_singleton, Text.encode_of_isAscii hascii]
    simp only [cut_singleton_iff, ByteTest.passes, contains_single_iff, hform,
      List.mem_singleton, exists_eq_right]
  · obtain rfl := Except.ok.inj h
    exact cut_bytes_iff

section Parts

theorem isEscaped_of_not_isMeta {c : Char} (h : isMeta c = false) : isEscaped c = false := by
  simp only [isMeta, List.mem_cons, List.not_mem_nil, or_false, decide_eq_false_iff_not,
    not_or] at h
  simp [isEscaped, h]

theorem parts_plain {c : Char} (h : isMeta c = false) (cs : List Char) :
    parts (c :: cs) = .literal c :: parts cs := by
  simp only [isMeta, List.mem_cons, List.not_mem_nil, or_false, decide_eq_false_iff_not,
    not_or] at h
  refine parts_literal h.1 h.2.1 ?_
  rw [opensClass, if_neg h.2.2.1]

theorem parts_plain_append {start : List Char} (h : ∀ c ∈ start, isMeta c = false)
    (cs : List Char) : parts (start ++ cs) = start.map .literal ++ parts cs := by
  induction start with
  | nil => rfl
  | cons c start ih =>
    rw [List.forall_mem_cons] at h
    rw [List.cons_append, parts_plain h.1, ih h.2]
    rfl

/-- So does such text after a segment: it closes no class, and no class reaches into it. -/
theorem parts_append_plain {ending : List Char} (h : ∀ c ∈ ending, isMeta c = false)
    (cs : List Char) : parts (cs ++ ending) = parts cs ++ ending.map .literal := by
  have hclose : ']' ∉ ending := fun hmem => absurd (h ']' hmem) (by decide)
  induction cs using partsInduction with
  | nil => simpa [parts_nil] using parts_plain_append h []
  | star cs ih => rw [List.cons_append, parts_star, parts_star, ih]; rfl
  | any cs ih => rw [List.cons_append, parts_any, parts_any, ih]; rfl
  | closed body rest hbody ih =>
    rw [List.cons_append, List.append_assoc, List.cons_append, parts_closed hbody,
      parts_closed hbody, ih]
    rfl
  | literal c cs hstar hany hopens ih =>
    have hlonger : opensClass c (cs ++ ending) = none := by
      rw [← hopens, opensClass, opensClass, classLength_append_of_not_mem hclose]
    rw [List.cons_append, parts_literal hstar hany hlonger, parts_literal hstar hany hopens, ih]
    rfl

theorem readParts_plain {cs : List Char} (h : ∀ c ∈ cs, isMeta c = false) :
    readParts (cs.map .literal) = .ok (literalSteps cs) := by
  induction cs with
  | nil => rfl
  | cons c cs ih =>
    rw [List.forall_mem_cons] at h
    have hc : Part.steps (.literal c) = .ok (literalSteps [c]) := by
      rw [Part.steps, isEscaped_of_not_isMeta h.1]
      rfl
    rw [List.map_cons, readParts_cons hc (ih h.2), ← literalSteps_append]
    rfl

theorem readParts_append {ps qs : List Part} {ss : List (Step ByteTest)}
    (h : readParts (ps ++ qs) = .ok ss) :
    ∃ first second, readParts ps = .ok first ∧ readParts qs = .ok second ∧
      ss = first ++ second := by
  induction ps generalizing ss with
  | nil => exact ⟨[], ss, rfl, h, rfl⟩
  | cons p ps ih =>
    obtain ⟨here, there, hp, hrest, rfl⟩ := exists_of_readParts_cons h
    obtain ⟨first, second, hfirst, hsecond, rfl⟩ := ih hrest
    exact ⟨here ++ first, second, readParts_cons hp hfirst, hsecond,
      (List.append_assoc here first second).symm⟩

end Parts

section Acceptance

variable (g : Glob)

def steps : List (Step ByteTest) :=
  g.branches.headD []

theorem branches_eq : readParts (parts g.text.toList) = .ok g.steps ∧ g.branches = [g.steps] := by
  have h := g.reads
  rw [readGlob_escape] at h
  cases hread : readParts (parts g.text.toList) with
  | error e => simp [hread, Except.map] at h
  | ok ss =>
    obtain hbranches : [ss] = g.branches := by simpa [hread, Except.map] using h
    rw [steps, ← hbranches]
    exact ⟨rfl, rfl⟩

def acceptsBytes (bytes : List UInt8) : Bool :=
  g.branches.any fun steps => Wild.accepts ByteTest.passes steps bytes

theorem accepts_eq_acceptsBytes (segment : String) :
    g.accepts segment = g.acceptsBytes (Text.bytes segment.toList) := rfl

theorem acceptsBytes_iff_cut (bytes : List UInt8) :
    g.acceptsBytes bytes = true ↔ Cut ByteTest.passes g.steps bytes := by
  rw [acceptsBytes, (branches_eq g).2, List.any_cons, List.any_nil, Bool.or_false,
    Wild.accepts_iff_cut]

theorem accepts_iff_cut (segment : String) :
    g.accepts segment = true ↔ Cut ByteTest.passes g.steps (Text.bytes segment.toList) := by
  rw [accepts_eq_acceptsBytes, acceptsBytes_iff_cut]

theorem not_isMeta_of_mem_takeWhile {cs : List Char} :
    ∀ c ∈ cs.takeWhile (!isMeta ·), isMeta c = false := by
  intro c hc
  have h := List.all_eq_true.mp List.all_takeWhile c hc
  simpa using h

theorem literalStart_isPrefix {segment : String} (h : g.accepts segment = true) :
    Text.bytes g.literalStart <+: Text.bytes segment.toList := by
  have hread := (branches_eq g).1
  have hplain : ∀ c ∈ g.literalStart, isMeta c = false := not_isMeta_of_mem_takeWhile
  have htext : g.literalStart ++ g.text.toList.dropWhile (!isMeta ·) = g.text.toList :=
    List.takeWhile_append_dropWhile
  rw [← htext, parts_plain_append hplain] at hread
  obtain ⟨first, second, hfirst, _, hsteps⟩ := readParts_append hread
  rw [readParts_plain hplain] at hfirst
  cases hfirst
  rw [accepts_iff_cut, hsteps] at h
  obtain ⟨start, rest, hbytes, hstart, _⟩ := h.of_append
  rw [hbytes, cut_literalSteps_iff.mp hstart]
  exact List.prefix_append _ _

theorem literalEnd_isSuffix {segment : String} (h : g.accepts segment = true) :
    Text.bytes g.literalEnd <:+ Text.bytes segment.toList := by
  have hread := (branches_eq g).1
  have hplain : ∀ c ∈ g.literalEnd, isMeta c = false := by
    intro c hc
    exact not_isMeta_of_mem_takeWhile c (List.mem_reverse.mp hc)
  have htext : (g.text.toList.reverse.dropWhile (!isMeta ·)).reverse ++ g.literalEnd =
      g.text.toList := by
    rw [literalEnd, ← List.reverse_append, List.takeWhile_append_dropWhile, List.reverse_reverse]
  rw [← htext, parts_append_plain hplain] at hread
  obtain ⟨first, second, _, hsecond, hsteps⟩ := readParts_append hread
  rw [readParts_plain hplain] at hsecond
  cases hsecond
  rw [accepts_iff_cut, hsteps] at h
  obtain ⟨rest, ending, hbytes, _, hending⟩ := h.of_append
  rw [hbytes, cut_literalSteps_iff.mp hending]
  exact List.suffix_append _ _

variable {g}

theorem starThenLiteral?_eq_some {ending : List Char} (h : g.starThenLiteral? = some ending) :
    g.text.toList = '*' :: ending ∧ ∀ c ∈ ending, isMeta c = false := by
  unfold starThenLiteral? at h
  split at h
  · rename_i rest htext
    split at h
    · cases h
    · rename_i hmeta
      cases h
      exact ⟨htext, by simpa using hmeta⟩
  · cases h

theorem literalThenStar?_eq_some {start : List Char} (h : g.literalThenStar? = some start) :
    g.text.toList = start ++ ['*'] ∧ ∀ c ∈ start, isMeta c = false := by
  unfold literalThenStar? at h
  split at h
  · rename_i rest htext
    split at h
    · cases h
    · rename_i hmeta
      cases h
      refine ⟨?_, by simpa using hmeta⟩
      rw [← List.reverse_cons, ← htext, List.reverse_reverse]
  · cases h

theorem takeWhile_plain_append {cs : List Char} (h : ∀ c ∈ cs, isMeta c = false) {mark : Char}
    (hmark : isMeta mark = true) (rest : List Char) :
    (cs ++ mark :: rest).takeWhile (!isMeta ·) = cs := by
  rw [List.takeWhile_append_of_pos (by simpa using h),
    List.takeWhile_cons_of_neg (by simp [hmark]), List.append_nil]

theorem literalEnds_of_starThenLiteral? {ending : List Char}
    (h : g.starThenLiteral? = some ending) : g.literalStart = [] ∧ g.literalEnd = ending := by
  obtain ⟨htext, hplain⟩ := starThenLiteral?_eq_some h
  have hback : ∀ c ∈ ending.reverse, isMeta c = false := by simpa using hplain
  rw [literalStart, literalEnd, htext, List.reverse_cons,
    takeWhile_plain_append hback (by decide), List.reverse_reverse]
  exact ⟨rfl, rfl⟩

theorem literalEnds_of_literalThenStar? {start : List Char}
    (h : g.literalThenStar? = some start) : g.literalStart = start ∧ g.literalEnd = [] := by
  obtain ⟨htext, hplain⟩ := literalThenStar?_eq_some h
  rw [literalStart, literalEnd, htext, takeWhile_plain_append hplain (by decide),
    List.reverse_concat]
  exact ⟨rfl, rfl⟩

theorem eq_nil_of_both_shapes {ending start : List Char}
    (hending : g.starThenLiteral? = some ending) (hstart : g.literalThenStar? = some start) :
    ending = [] := by
  rw [← (literalEnds_of_starThenLiteral? hending).2, (literalEnds_of_literalThenStar? hstart).2]

theorem accepts_of_isSuffix {ending : List Char} (h : g.starThenLiteral? = some ending)
    {segment : String} (hend : Text.bytes ending <:+ Text.bytes segment.toList) :
    g.accepts segment = true := by
  obtain ⟨htext, hplain⟩ := starThenLiteral?_eq_some h
  have hread := (branches_eq g).1
  rw [htext, parts_star, ← List.append_nil ending, parts_plain_append hplain, parts_nil,
    List.append_nil, readParts_cons (p := .star) rfl (readParts_plain hplain)] at hread
  have hsteps : .run :: literalSteps ending = g.steps := Except.ok.inj hread
  obtain ⟨block, hblock⟩ := hend
  rw [accepts_iff_cut, ← hsteps, ← hblock]
  exact .run block (cut_literalSteps_iff.mpr rfl)

theorem accepts_of_isPrefix {start : List Char} (h : g.literalThenStar? = some start)
    {segment : String} (hstart : Text.bytes start <+: Text.bytes segment.toList) :
    g.accepts segment = true := by
  obtain ⟨htext, hplain⟩ := literalThenStar?_eq_some h
  have hread := (branches_eq g).1
  rw [htext, parts_plain_append hplain, parts_star, parts_nil] at hread
  obtain ⟨first, second, hfirst, hsecond, hsteps⟩ := readParts_append hread
  rw [readParts_plain hplain] at hfirst
  cases hfirst
  obtain rfl : [Step.run] = second := Except.ok.inj hsecond
  obtain ⟨block, hblock⟩ := hstart
  rw [accepts_iff_cut, hsteps, ← hblock]
  have hrun : Cut ByteTest.passes [.run] (block ++ []) := .run block .nil
  rw [List.append_nil] at hrun
  exact (cut_literalSteps_iff.mpr rfl).append hrun

end Acceptance

end Ownership.Glob
