import Mathlib.Data.List.Forall2
import Ownership.Proofs.Codeowners.Service
import Ownership.Proofs.Rules.Line

set_option autoImplicit false

/-!
# A converted file reads back

A CODEOWNERS text is a list of assignments. Its conversion has one line for each of them, after
two comments; these lines read as the rules of the assignments as soon as their patterns compile.
-/
namespace Ownership.Codeowners

open Text

/-! ## Assignments -/

structure Assignment where
  pattern : String
  owner : String
  isWord_pattern : IsWord pattern.toList
  isWord_owner : IsWord owner.toList
  notComment : pattern.toList.head? ≠ some '#'

def assignment? (raw : List Char) : Option Assignment :=
  match h : columns raw with
  | pattern :: owner :: _ =>
    if hcomment : pattern.head? = some '#' then none
    else
      have hpattern : pattern ∈ columns raw := h ▸ List.mem_cons_self
      have howner : owner ∈ columns raw := h ▸ List.mem_cons_of_mem pattern List.mem_cons_self
      some {
        pattern := String.ofList pattern
        owner := String.ofList owner
        isWord_pattern := String.toList_ofList.symm ▸ isWord_of_mem_columns hpattern
        isWord_owner := String.toList_ofList.symm ▸ isWord_of_mem_columns howner
        notComment := String.toList_ofList.symm ▸ hcomment }
  | _ => none

def assignments (text : String) : List Assignment :=
  (lines text.toList).filterMap assignment?

namespace Assignment

def service (a : Assignment) : String :=
  serviceOf a.pattern a.owner

theorem isWord_service (a : Assignment) : IsWord a.service.toList :=
  isWord_serviceOf a.isWord_pattern a.isWord_owner

def row (a : Assignment) : String :=
  a.pattern ++ "\t" ++ a.service

theorem toList_row (a : Assignment) :
    a.row.toList = a.pattern.toList ++ '\t' :: a.service.toList := by
  rw [row, String.toList_append, String.toList_append, List.append_assoc]
  rfl

/-- Whether the service of a row would be read as a comment. -/
def HidesService (a : Assignment) : Prop :=
  Rules.OpensComment (Rules.quotedAfter false a.pattern.toList) a.service.toList

instance (a : Assignment) : Decidable a.HidesService :=
  inferInstanceAs (Decidable (Rules.OpensComment _ _))

def Compiles (a : Assignment) : Prop :=
  ∃ compiled, Pattern.compile a.pattern = .ok compiled

instance (a : Assignment) : Decidable a.Compiles :=
  match h : Pattern.compile a.pattern with
  | .ok compiled => .isTrue ⟨compiled, h⟩
  | .error _ => .isFalse fun ⟨_, hc⟩ => by cases h.symm.trans hc

end Assignment

/-! ## The converted text -/

theorem convertLine?_eq (raw : List Char) :
    convertLine? raw = (assignment? raw).map Assignment.row := by
  unfold convertLine? assignment?
  split
  · next first rest hcolumns =>
    split
    · next pattern owner more h =>
      have hhead : '#' :: first = pattern := (List.cons.inj (hcolumns.symm.trans h)).1
      subst hhead
      rfl
    · rfl
  · next pattern owner more hcomment hcolumns =>
    split
    · next pattern' owner' more' h =>
      obtain ⟨hpattern, hrest⟩ := List.cons.inj (h.symm.trans hcolumns)
      obtain ⟨howner, -⟩ := List.cons.inj hrest
      subst hpattern howner
      have hhead : pattern'.head? ≠ some '#' := by
        intro hhead
        obtain ⟨tail, htail⟩ := List.head?_eq_some_iff.mp hhead
        exact hcomment tail htail
      rw [dif_neg hhead]
      rfl
    · next hfew => exact absurd hcolumns (hfew pattern owner more)
  · next hcomment hfew =>
    split
    · next pattern owner more h => exact absurd h (hfew pattern owner more)
    · rfl

theorem convert_eq (text : String) :
    convert text = joinLines
      ("# Generated from CODEOWNERS" :: "# pattern\tservice" ::
        (assignments text).map Assignment.row ++ [""]) := by
  have hrows : (lines text.toList).filterMap convertLine? =
      (assignments text).map Assignment.row := by
    rw [funext convertLine?_eq, assignments, List.map_filterMap]
  rw [convert, hrows]
  rfl

theorem Assignment.newline_not_mem_row (a : Assignment) : '\n' ∉ a.row.toList := by
  have hblank : isBlank '\n' = true := by decide
  rw [a.toList_row, List.mem_append, List.mem_cons]
  rintro (h | h | h)
  · exact a.isWord_pattern.not_mem hblank h
  · exact absurd h (by decide)
  · exact a.isWord_service.not_mem hblank h

theorem Assignment.dropReturn_row (a : Assignment) : dropReturn a.row.toList = a.row.toList := by
  have h := dropReturn_append_word a.isWord_service (a.pattern.toList ++ ['\t'])
  rw [List.append_assoc] at h
  rw [a.toList_row]
  exact h

theorem lines_convert (text : String) :
    lines (convert text).toList =
      "# Generated from CODEOWNERS".toList :: "# pattern\tservice".toList ::
        (assignments text).map (·.row.toList) := by
  have hrows : ((assignments text).map Assignment.row).map (fun l => dropReturn l.toList) =
      (assignments text).map (·.row.toList) := by
    rw [List.map_map]
    exact List.map_congr_left fun a _ => a.dropReturn_row
  rw [convert_eq, lines_joinLines, List.map_cons, List.map_cons, hrows]
  · rfl
  · intro l hl
    rcases List.mem_cons.mp hl with rfl | hl
    · decide
    · rcases List.mem_cons.mp hl with rfl | hl
      · decide
      · obtain ⟨a, -, rfl⟩ := List.mem_map.mp hl
        exact a.newline_not_mem_row

theorem readLines_convert (source text : String) :
    Rules.readLines source (convert text) =
      Rules.readFrom source 3 ((assignments text).map (·.row.toList)) := by
  have hfirst : Rules.readLine source 1 "# Generated from CODEOWNERS".toList = none :=
    Rules.readLine_comment source 1 " Generated from CODEOWNERS".toList
  have hsecond : Rules.readLine source 2 "# pattern\tservice".toList = none :=
    Rules.readLine_comment source 2 " pattern\tservice".toList
  simp only [Rules.readLines, lines_convert, Rules.readFrom, hfirst, hsecond]

/-! ## Rules for assignments -/

structure Carries (a : Assignment) (r : Rule) : Prop where
  pattern : r.pattern = a.pattern
  service : r.service = a.service
  named : r.service ≠ ""

/-- Whether the converted text reads as one rule for each assignment, in their order. -/
def ReadsBack (source text : String) : Prop :=
  ∃ rules, Rules.parse source (convert text) = .ok rules ∧
    List.Forall₂ Carries (assignments text) rules

theorem Assignment.readLine_row {a : Assignment} (h : ¬ a.HidesService) (source : String)
    (number : Nat) :
    Rules.readLine source number a.row.toList =
      some ((Rule.ofPattern a.pattern a.service (some number)).mapError
        fun e => ⟨source, number, .pattern e⟩) := by
  have hkept : ¬ Rules.OpensComment false a.pattern.toList := fun hopens => a.notComment hopens.2
  have htab : isBlank '\t' = true := by decide
  have hread := Rules.readLine_pair a.isWord_pattern a.isWord_service hkept h htab source number
  rw [String.ofList_toList, String.ofList_toList] at hread
  rw [a.toList_row]
  exact hread

theorem Assignment.carries {a : Assignment} {r : Rule} (hpattern : r.pattern = a.pattern)
    (hservice : r.service = a.service) : Carries a r := by
  refine ⟨hpattern, hservice, ?_⟩
  intro hempty
  have hnil : a.service.toList = "".toList := congrArg String.toList (hservice.symm.trans hempty)
  exact a.isWord_service.ne_nil hnil

theorem readFrom_rows {as : List Assignment} (hshown : ∀ a ∈ as, ¬ a.HidesService)
    (hcompile : ∀ a ∈ as, a.Compiles) (source : String) (number : Nat) :
    ∃ rules : List Rule, Rules.readFrom source number (as.map (·.row.toList)) =
      rules.map .ok ∧ List.Forall₂ Carries as rules := by
  induction as generalizing number with
  | nil => exact ⟨[], rfl, .nil⟩
  | cons a as ih =>
    obtain ⟨hshow, hshown⟩ := List.forall_mem_cons.mp hshown
    obtain ⟨⟨compiled, hc⟩, hcompile⟩ := List.forall_mem_cons.mp hcompile
    obtain ⟨rules, hrules, hcarry⟩ := ih hshown hcompile (number + 1)
    obtain ⟨r, hr, hpattern, hservice, -⟩ := Rule.exists_of_compile hc a.service (some number)
    refine ⟨r :: rules, ?_, .cons (Assignment.carries hpattern hservice) hcarry⟩
    rw [List.map_cons, Rules.readFrom, Assignment.readLine_row hshow, hr, hrules]
    rfl

theorem compiles_of_carries {as : List Assignment} {rules : List Rule}
    (h : List.Forall₂ Carries as rules) : ∀ a ∈ as, a.Compiles := by
  induction h with
  | nil => exact fun a ha => absurd ha List.not_mem_nil
  | @cons a r as rules hr hrs ih =>
    have ha : a.Compiles := ⟨r.compiled, hr.pattern ▸ r.isCompiled⟩
    exact List.forall_mem_cons.mpr ⟨ha, ih⟩

/-- Where every row shows its service, a bad pattern is all that the reading can refuse. -/
theorem readsBack_iff_compiles (source text : String)
    (hshown : ∀ a ∈ assignments text, ¬ a.HidesService) :
    ReadsBack source text ↔ ∀ a ∈ assignments text, a.Compiles := by
  constructor
  · rintro ⟨rules, -, hcarry⟩
    exact compiles_of_carries hcarry
  · intro hcompile
    obtain ⟨rules, hrules, hcarry⟩ := readFrom_rows hshown hcompile source 3
    refine ⟨rules, ?_, hcarry⟩
    rw [Rules.parse, readLines_convert, hrules, Rules.firstError_map_ok]

/-- The quote in the last pattern keeps the service `#x` from being a comment. -/
theorem readsBack_iff_compiles_open_quote :
    (assignments "*.js\t@a/Web-UI b\r\n*.lock\nit's/#x @a").map (·.pattern) =
        ["*.js", "it's/#x"] ∧
      (∀ a ∈ assignments "*.js\t@a/Web-UI b\r\n*.lock\nit's/#x @a", ¬ a.HidesService) ∧
      ReadsBack defaultSource "*.js\t@a/Web-UI b\r\n*.lock\nit's/#x @a" := by
  have hshown : ∀ a ∈ assignments "*.js\t@a/Web-UI b\r\n*.lock\nit's/#x @a",
      ¬ a.HidesService := by
    decide +kernel
  have hcompile : ∀ a ∈ assignments "*.js\t@a/Web-UI b\r\n*.lock\nit's/#x @a", a.Compiles := by
    decide +kernel
  have hreads := (readsBack_iff_compiles defaultSource _ hshown).mpr hcompile
  exact ⟨by decide +kernel, hshown, hreads⟩

theorem not_readsBack_of_error {source text : String} {e : LineError}
    (h : Rules.parse source (convert text) = .error e) : ¬ ReadsBack source text := by
  rintro ⟨rules, hrules, -⟩
  cases h.symm.trans hrules

/-- The reading refuses the pattern of the whole repository, and takes the name `#x` for a
comment. -/
theorem not_readsBack_root_or_hidden :
    (assignments "/ @a").map (·.pattern) = ["/"] ∧
      ¬ ReadsBack defaultSource "/ @a" ∧
      (assignments "/#x/ @a").map (·.pattern) = ["/#x/"] ∧
      ¬ ReadsBack defaultSource "/#x/ @a" := by
  have hroot : Rules.parse defaultSource (convert "/ @a") =
      .error ⟨defaultSource, 3, .pattern (.rootOnly "/")⟩ := by
    decide +kernel
  have hhidden : Rules.parse defaultSource (convert "/#x/ @a") =
      .error ⟨defaultSource, 3, .columnCount 1 "/#x/\t#x"⟩ := by
    decide +kernel
  exact ⟨by decide +kernel, not_readsBack_of_error hroot, by decide +kernel,
    not_readsBack_of_error hhidden⟩

end Ownership.Codeowners
