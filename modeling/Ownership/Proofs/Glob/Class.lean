import Ownership.Glob.Basic

set_option autoImplicit false

/-!
# Classes in wildcard segments

The text of a class is a sign, perhaps, and members, of which only the first may be `]`.
`classLength` finds the one such text that a `[` opens, and `tokens` reads it to a single test.
-/
namespace Ownership.Glob
open Ownership.Wild

def isSign (c : Char) : Bool := c = '!' || c = '^'

def members : List Char → List Char
  | [] => []
  | c :: cs => if isSign c then cs else c :: cs

def isNegated : List Char → Bool
  | [] => false
  | c :: _ => isSign c

/-- A list of members that the next `]` closes. -/
def AreMembers (ms : List Char) : Prop := ms ≠ [] ∧ ']' ∉ ms.tail

def readClass (body : List Char) : Except GlobError ByteClass :=
  ((members body).foldlM OpenClass.add ⟨isNegated body, true, false, []⟩).map OpenClass.close

/-- How many characters the members take that begin `ms`, their closing `]` included. -/
def membersLength : List Char → Option Nat
  | [] => none
  | m :: ms => if m = ']' then (ms.idxOf? ']').map (2 + ·) else ((m :: ms).idxOf? ']').map (1 + ·)

theorem classLength_nil : classLength [] = none := rfl

theorem classLength_cons (c : Char) (cs : List Char) :
    classLength (c :: cs) =
      if isSign c then (membersLength cs).map (1 + ·) else membersLength (c :: cs) := by
  by_cases hbang : c = '!'
  · subst hbang
    cases cs with
    | nil => rfl
    | cons d ds =>
      by_cases hd : d = ']' <;>
        simp [classLength, isSign, membersLength, hd, Function.comp_def, ← Nat.add_assoc]
  · by_cases hcaret : c = '^'
    · subst hcaret
      cases cs with
      | nil => rfl
      | cons d ds =>
        by_cases hd : d = ']' <;>
          simp [classLength, isSign, membersLength, hd, Function.comp_def, ← Nat.add_assoc]
    · by_cases hc : c = ']' <;>
        simp [classLength, isSign, membersLength, hbang, hcaret, hc]

theorem idxOf?_append_cons {x : Char} {before : List Char} (h : x ∉ before) (after : List Char) :
    (before ++ x :: after).idxOf? x = some before.length := by
  induction before with
  | nil => simp [List.idxOf?_cons]
  | cons b before ih =>
    rw [List.mem_cons, not_or] at h
    have hb : (b == x) = false := beq_eq_false_iff_ne.mpr (Ne.symm h.1)
    rw [List.cons_append, List.idxOf?_cons, hb, ih h.2]
    rfl

theorem exists_of_idxOf? {x : Char} {cs : List Char} {n : Nat} (h : cs.idxOf? x = some n) :
    ∃ before after, cs = before ++ x :: after ∧ x ∉ before ∧ n = before.length := by
  have hmem : x ∈ cs := List.isSome_idxOf?.mp (by rw [h]; rfl)
  obtain ⟨before, after, rfl, hx⟩ := List.eq_append_cons_of_mem hmem
  rw [idxOf?_append_cons hx] at h
  exact ⟨before, after, rfl, hx, (Option.some.inj h).symm⟩

theorem membersLength_append {ms : List Char} (h : AreMembers ms) (rest : List Char) :
    membersLength (ms ++ ']' :: rest) = some (ms.length + 1) := by
  obtain ⟨hne, hmem⟩ := h
  cases ms with
  | nil => exact absurd rfl hne
  | cons m ms =>
    rw [List.tail_cons] at hmem
    by_cases hm : m = ']'
    · subst hm
      simp only [List.cons_append, membersLength, if_true, idxOf?_append_cons hmem, Option.map_some,
        List.length_cons]
      congr 1
      omega
    · have hms : ']' ∉ m :: ms := by
        rw [List.mem_cons, not_or]
        exact ⟨Ne.symm hm, hmem⟩
      have hidx := idxOf?_append_cons hms rest
      rw [List.cons_append] at hidx
      simp only [List.cons_append, membersLength, if_neg hm, hidx, Option.map_some]
      congr 1
      omega

theorem exists_members {cs : List Char} {n : Nat} (h : membersLength cs = some n) :
    ∃ ms rest, cs = ms ++ ']' :: rest ∧ AreMembers ms ∧ n = ms.length + 1 := by
  cases cs with
  | nil => simp [membersLength] at h
  | cons c cs =>
    by_cases hc : c = ']'
    · subst hc
      simp only [membersLength, if_true] at h
      obtain ⟨k, hk, rfl⟩ := Option.map_eq_some_iff.mp h
      obtain ⟨before, after, rfl, hx, rfl⟩ := exists_of_idxOf? hk
      refine ⟨']' :: before, after, rfl, ⟨List.cons_ne_nil _ _, hx⟩, ?_⟩
      rw [List.length_cons]
      omega
    · simp only [membersLength, if_neg hc] at h
      obtain ⟨k, hk, rfl⟩ := Option.map_eq_some_iff.mp h
      obtain ⟨before, after, hcs, hx, rfl⟩ := exists_of_idxOf? hk
      refine ⟨before, after, hcs, ⟨?_, ?_⟩, Nat.add_comm _ _⟩
      · rintro rfl
        exact hc (List.cons.inj hcs).1
      · exact fun hmem => hx (List.mem_of_mem_tail hmem)

theorem classLength_append {body : List Char} (h : AreMembers (members body))
    (rest : List Char) : classLength (body ++ ']' :: rest) = some (body.length + 1) := by
  cases body with
  | nil => exact absurd rfl h.1
  | cons c cs =>
    rw [List.cons_append, classLength_cons]
    by_cases hc : isSign c = true
    · simp only [members, if_pos hc] at h
      rw [if_pos hc, membersLength_append h, Option.map_some, List.length_cons]
      congr 1
      omega
    · simp only [members, if_neg hc] at h
      rw [if_neg hc]
      exact membersLength_append h rest

theorem exists_body {cs : List Char} {n : Nat} (h : classLength cs = some n) :
    ∃ body rest, cs = body ++ ']' :: rest ∧ AreMembers (members body) ∧ n = body.length + 1 := by
  cases cs with
  | nil => simp [classLength_nil] at h
  | cons c cs =>
    rw [classLength_cons] at h
    by_cases hc : isSign c = true
    · rw [if_pos hc] at h
      obtain ⟨k, hk, rfl⟩ := Option.map_eq_some_iff.mp h
      obtain ⟨ms, rest, rfl, hms, rfl⟩ := exists_members hk
      refine ⟨c :: ms, rest, rfl, ?_, ?_⟩
      · simpa only [members, if_pos hc] using hms
      · rw [List.length_cons]
        omega
    · rw [if_neg hc] at h
      obtain ⟨ms, rest, hcs, hms, rfl⟩ := exists_members h
      refine ⟨ms, rest, hcs, ?_, rfl⟩
      cases ms with
      | nil => exact absurd rfl hms.1
      | cons m ms =>
        obtain rfl := (List.cons.inj hcs).1
        simpa only [members, if_neg hc] using hms

theorem classLength_append_of_not_mem {post : List Char} (h : ']' ∉ post) (front : List Char) :
    classLength (front ++ post) = classLength front := by
  cases hf : classLength front with
  | some n =>
    obtain ⟨body, rest, rfl, hbody, rfl⟩ := exists_body hf
    rw [List.append_assoc, List.cons_append]
    exact classLength_append hbody (rest ++ post)
  | none =>
    cases hp : classLength (front ++ post) with
    | none => rfl
    | some n =>
      obtain ⟨body, rest, heq, hbody, rfl⟩ := exists_body hp
      rcases List.append_eq_append_iff.mp heq with ⟨mid, _, rfl⟩ | ⟨mid, rfl, hmid⟩
      · simp at h
      · cases mid with
        | nil =>
          rw [List.nil_append] at hmid
          exact absurd (hmid ▸ List.mem_cons_self) h
        | cons m mid =>
          obtain ⟨rfl, rfl⟩ := List.cons.inj hmid
          rw [classLength_append hbody] at hf
          exact absurd hf (by simp)

theorem add_fresh {k k' : OpenClass} {c : Char} (h : k.add c = .ok k')
    (hk : k.fresh = false ∨ k.pending = false) : k'.fresh = false := by
  obtain ⟨negated, fresh, pending, ranges⟩ := k
  cases pending with
  | true =>
    have hfresh : fresh = false := by simpa using hk
    subst hfresh
    cases ranges with
    | nil =>
      obtain rfl : _ = k' := by simpa [OpenClass.add, OpenClass.extend] using h
      rfl
    | cons r ranges =>
      simp only [OpenClass.add, OpenClass.extend, if_true] at h
      split at h
      · cases h
      · cases h
        rfl
  | false =>
    simp only [OpenClass.add, Bool.false_eq_true, if_false] at h
    split at h
    · rename_i hdash
      rw [Bool.and_eq_true, Bool.not_eq_true'] at hdash
      cases h
      exact hdash.2
    · cases h
      rfl

/-- The tokens of a class whose reading stands at `k` and that ends after the members `ms`. -/
def classTokens (k : OpenClass) (ms rest : List Char) : Except GlobError (List Token) := do
  let closed ← ms.foldlM OpenClass.add k
  (tokens .outside rest).map (.step (.one (.oneOf closed.close)) :: ·)

theorem classTokens_cons (k : OpenClass) (m : Char) (ms rest : List Char) :
    classTokens k (m :: ms) rest = k.add m >>= fun k' => classTokens k' ms rest := by
  simp only [classTokens, List.foldlM_cons, bind_assoc]

theorem tokens_inside {k : OpenClass} (hk : k.fresh = false) {ms : List Char} (h : ']' ∉ ms)
    (rest : List Char) : tokens (.inside k) (ms ++ ']' :: rest) = classTokens k ms rest := by
  induction ms generalizing k with
  | nil => simp [tokens, hk, classTokens, pure_bind]
  | cons m ms ih =>
    rw [List.mem_cons, not_or] at h
    have hm : (decide (m = ']') && !k.fresh) = false := by simp [Ne.symm h.1]
    rw [classTokens_cons, List.cons_append, tokens, hm]
    cases hadd : k.add m with
    | error e => rfl
    | ok k' => exact ih (add_fresh hadd (.inl hk)) h.2

theorem tokens_fresh (negated : Bool) {ms : List Char} (h : AreMembers ms) (rest : List Char) :
    tokens (.inside ⟨negated, true, false, []⟩) (ms ++ ']' :: rest) =
      classTokens ⟨negated, true, false, []⟩ ms rest := by
  obtain ⟨hne, hmem⟩ := h
  cases ms with
  | nil => exact absurd rfl hne
  | cons m ms =>
    have hm : (decide (m = ']') && !true) = false := by simp
    rw [classTokens_cons, List.cons_append, tokens, hm]
    cases hadd : OpenClass.add ⟨negated, true, false, []⟩ m with
    | error e => rfl
    | ok k' => exact tokens_inside (add_fresh hadd (.inr rfl)) hmem rest

theorem tokens_opening {body : List Char} (h : AreMembers (members body)) (rest : List Char) :
    tokens .opening (body ++ ']' :: rest) =
      readClass body >>= fun c =>
        (tokens .outside rest).map (.step (.one (.oneOf c)) :: ·) := by
  have hread : (readClass body >>= fun c =>
        (tokens .outside rest).map (.step (.one (.oneOf c)) :: ·)) =
      classTokens ⟨isNegated body, true, false, []⟩ (members body) rest := by
    unfold readClass classTokens
    cases (members body).foldlM OpenClass.add ⟨isNegated body, true, false, []⟩ <;> rfl
  rw [hread]
  cases body with
  | nil => exact absurd rfl h.1
  | cons c cs =>
    by_cases hc : isSign c = true
    · simp only [members, isNegated, if_pos hc] at h ⊢
      rw [List.cons_append, tokens, hc]
      exact (if_pos hc).trans (tokens_fresh true h rest)
    · simp only [members, isNegated, if_neg hc] at h ⊢
      rw [Bool.not_eq_true] at hc
      rw [hc, ← tokens_fresh false h rest, List.cons_append, tokens, tokens]
      simp only [Bool.not_true, Bool.and_false, Bool.false_eq_true, if_false]
      exact if_neg (by simpa [isSign] using hc)

end Ownership.Glob
