import Mathlib.Data.List.TakeDrop
import Ownership.Proofs.Except
import Ownership.Proofs.Json.Fields
import Ownership.Tree

set_option autoImplicit false

/-!
# Places in a tree

What stands at a place is a file with its bytes or a directory. A write puts one file at the place
that its location leads to, and leaves what stands at every other place.
-/
namespace Ownership.Tree

inductive Node where
  | file (content : ByteArray)
  | directory

def node : Tree → Node
  | .file content => .file content
  | .directory _ => .directory

def nodeAt? (t : Tree) (place : List String) : Option Node :=
  (t.at? place).map node

/-! ## Following names -/

theorem at?_cons (t : Tree) (name : String) (place : List String) :
    t.at? (name :: place) = (t.child? name).bind (·.at? place) := by
  rw [at?]
  cases t.child? name <;> rfl

theorem at?_append (t : Tree) (xs ys : List String) :
    t.at? (xs ++ ys) = (t.at? xs).bind (·.at? ys) := by
  induction xs generalizing t with
  | nil => rfl
  | cons x xs ih =>
    rw [List.cons_append, at?_cons, at?_cons, Option.bind_assoc]
    exact congrArg _ (funext ih)

theorem nodeAt?_cons_directory (entries : List (String × Tree)) (name : String)
    (place : List String) :
    (directory entries).nodeAt? (name :: place) =
      (Json.getField? name entries).bind (·.nodeAt? place) := by
  rw [nodeAt?, at?_cons, Option.map_bind]
  rfl

theorem nodeAt?_append {t inner : Tree} {place : List String} (h : t.at? place = some inner)
    (below : List String) : t.nodeAt? (place ++ below) = inner.nodeAt? below := by
  rw [nodeAt?, at?_append, h]
  rfl

theorem nodeAt?_eq_directory_iff {t : Tree} {place : List String} :
    t.nodeAt? place = some .directory ↔ ∃ entries, t.at? place = some (.directory entries) := by
  rw [nodeAt?]
  cases t.at? place with
  | none => simp
  | some found => cases found <;> simp [node]

/-! ## Putting a file -/

theorem at?_put_self (t : Tree) (place : List String) (new : Tree) :
    (t.put place new).at? place = some new := by
  induction place generalizing t with
  | nil => cases t <;> rfl
  | cons name place ih =>
    cases t with
    | file content => simp [put, at?_cons, child?, Json.getField?, ih]
    | directory entries => simp [put, at?_cons, child?, ih]

theorem nodeAt?_put_of_ne {t : Tree} {place other : List String} {name : String}
    {entries : List (String × Tree)} (hplace : t.at? place = some (.directory entries))
    (hfree : ∀ inner, Json.getField? name entries ≠ some (.directory inner)) (content : ByteArray)
    (hother : other ≠ place ++ [name]) :
    (t.put (place ++ [name]) (.file content)).nodeAt? other = t.nodeAt? other := by
  induction place generalizing t other with
  | nil =>
    obtain rfl : t = .directory entries := Option.some.inj hplace
    cases other with
    | nil => rfl
    | cons head below =>
      rw [List.nil_append, put, nodeAt?_cons_directory, nodeAt?_cons_directory]
      by_cases hhead : head = name
      · subst hhead
        obtain ⟨next, below, rfl⟩ : ∃ next rest, below = next :: rest := by
          cases below with
          | nil => exact absurd rfl hother
          | cons next rest => exact ⟨next, rest, rfl⟩
        rw [Json.getField?_setField_self]
        cases hold : Json.getField? head entries with
        | none => rfl
        | some old =>
          cases old with
          | file _ => rfl
          | directory inner => exact absurd hold (hfree inner)
      · rw [Json.getField?_setField_of_ne hhead]
  | cons first place ih =>
    cases t with
    | file _ => cases hplace
    | directory siblings =>
      obtain ⟨inner, hinner, hrest⟩ := Option.bind_eq_some_iff.mp
        ((at?_cons _ first place).symm.trans hplace)
      change Json.getField? first siblings = some inner at hinner
      cases other with
      | nil => rfl
      | cons head below =>
        rw [List.cons_append, put, hinner, nodeAt?_cons_directory, nodeAt?_cons_directory]
        by_cases hhead : head = first
        · subst hhead
          have hbelow : below ≠ place ++ [name] := fun heq => hother (heq ▸ rfl)
          rw [Json.getField?_setField_self, hinner]
          exact ih hrest hbelow
        · rw [Json.getField?_setField_of_ne hhead]

/-! ## Following locations -/

theorem locateFrom_append (t : Tree) (place first second : List String) :
    t.locateFrom place (first ++ second) =
      t.locateFrom place first >>= fun reached => t.locateFrom reached second := by
  induction first generalizing place with
  | nil => rfl
  | cons part first ih =>
    rw [List.cons_append, locateFrom, locateFrom]
    cases t.at? place with
    | none => rfl
    | some found =>
      cases found with
      | file _ => rfl
      | directory entries =>
        dsimp only
        split
        · exact ih place
        · split
          · exact ih place.dropLast
          · split
            · exact ih (place ++ [part])
            · rfl

theorem isSome_getField?_iff {t : Tree} {place : List String} {entries : List (String × Tree)}
    (h : t.at? place = some (.directory entries)) (name : String) :
    (Json.getField? name entries).isSome = (t.nodeAt? (place ++ [name])).isSome := by
  rw [nodeAt?_append h, nodeAt?_cons_directory]
  cases Json.getField? name entries <;> rfl

/-- What a location leads to stays what it leads to while directories stay directories and nothing
goes away. -/
theorem locateFrom_mono {t t' : Tree}
    (hdirectory : ∀ place, t.nodeAt? place = some .directory → t'.nodeAt? place = some .directory)
    (hthere : ∀ place, (t.nodeAt? place).isSome → (t'.nodeAt? place).isSome)
    {place parts reached : List String} (h : t.locateFrom place parts = .ok reached) :
    t'.locateFrom place parts = .ok reached := by
  induction parts generalizing place with
  | nil => exact h
  | cons part parts ih =>
    rw [locateFrom] at h ⊢
    cases hfound : t.at? place with
    | none =>
      rw [hfound] at h
      cases h
    | some found =>
      rw [hfound] at h
      cases found with
      | file _ => cases h
      | directory entries =>
        obtain ⟨entries', hfound'⟩ := nodeAt?_eq_directory_iff.mp
          (hdirectory place (nodeAt?_eq_directory_iff.mpr ⟨entries, hfound⟩))
        rw [hfound']
        dsimp only at h ⊢
        split at h
        · next hstay =>
          rw [if_pos hstay]
          exact ih h
        · next hstay =>
          rw [if_neg hstay]
          split at h
          · next hup =>
            rw [if_pos hup]
            exact ih h
          · next hup =>
            rw [if_neg hup]
            split at h
            · next hdown =>
              rw [isSome_getField?_iff hfound] at hdown
              have hdown' := hthere _ hdown
              rw [← isSome_getField?_iff hfound'] at hdown'
              rw [if_pos hdown']
              exact ih h
            · cases h

theorem locateFrom_name {t : Tree} {place : List String} {name : String}
    (hdirectory : t.nodeAt? place = some .directory) (hempty : name ≠ "") (hdot : name ≠ ".")
    (hdots : name ≠ "..") (hthere : (t.nodeAt? (place ++ [name])).isSome) :
    t.locateFrom place [name] = .ok (place ++ [name]) := by
  obtain ⟨entries, hentries⟩ := nodeAt?_eq_directory_iff.mp hdirectory
  rw [← isSome_getField?_iff hentries] at hthere
  rw [locateFrom, hentries]
  dsimp only
  rw [if_neg (by simp [hempty, hdot]), if_neg hdots, if_pos hthere, locateFrom]

/-! ## Writing -/

/-- The one difference between two trees is the file at a place. -/
structure WritesAt (t t' : Tree) (place : List String) (content : ByteArray) : Prop where
  written : t'.nodeAt? place = some (.file content)
  others : ∀ other, other ≠ place → t'.nodeAt? other = t.nodeAt? other

theorem WritesAt.locateFrom {t t' : Tree} {place : List String} {content : ByteArray}
    (h : t.WritesAt t' place content) (hfree : t.nodeAt? place ≠ some .directory)
    {start parts reached : List String} (hreached : t.locateFrom start parts = .ok reached) :
    t'.locateFrom start parts = .ok reached := by
  refine locateFrom_mono ?_ ?_ hreached
  · intro other hother
    have hne : other ≠ place := fun heq => hfree (heq ▸ hother)
    rw [h.others other hne, hother]
  · intro other hother
    by_cases heq : other = place
    · rw [heq, h.written]
      rfl
    · rw [h.others other heq]
      exact hother

theorem lastName?_eq_some {location : String} {around : List String} {name : String}
    (h : lastName? location = some (around, name, false)) :
    parts location = around ++ [name] ∧ name ≠ "" := by
  unfold lastName? at h
  split at h
  · next slashes found rest hspan =>
    obtain ⟨rfl, rfl, hslashes⟩ : rest.reverse = around ∧ found = name ∧
        (!slashes.isEmpty) = false := by
      simpa using h
    have hnil : slashes = [] := by simpa using hslashes
    subst hnil
    rw [List.span_eq_takeWhile_dropWhile, Prod.mk.injEq] at hspan
    obtain ⟨htake, hdrop⟩ := hspan
    have hparts : (parts location).reverse = found :: rest := by
      rw [← List.takeWhile_append_dropWhile (p := (· = "")) (l := (parts location).reverse), htake,
        hdrop]
      rfl
    refine ⟨?_, ?_⟩
    · rw [← List.reverse_reverse (parts location), hparts, List.reverse_cons]
    · have hhead := List.head?_dropWhile_not (· = "") (parts location).reverse
      rw [hdrop] at hhead
      simpa using hhead
  · cases h

theorem exists_put_of_write {t t' : Tree} {location text : String}
    (h : t.write location text = .ok t') :
    ∃ around name place entries, '\x00' ∉ location.toList ∧ parts location = around ++ [name] ∧
      name ≠ "" ∧ name ≠ "." ∧ name ≠ ".." ∧ t.locateFrom [] around = .ok place ∧
      t.at? place = some (.directory entries) ∧
      (∀ inner, Json.getField? name entries ≠ some (.directory inner)) ∧
      t' = t.put (place ++ [name]) (.file text.toUTF8) := by
  by_cases hnul : '\x00' ∈ location.toList
  · rw [write, if_pos hnul] at h
    cases h
  cases hlast : lastName? location with
  | none =>
    rw [write, if_neg hnul, hlast] at h
    cases h
  | some last =>
    obtain ⟨around, name, slash⟩ := last
    rw [write, if_neg hnul, hlast] at h
    obtain ⟨place, hplace, hrun⟩ := bind_eq_ok_iff.mp h
    cases hfound : t.at? place with
    | none =>
      rw [hfound] at hrun
      cases hrun
    | some found =>
      rw [hfound] at hrun
      cases found with
      | file content => cases hrun
      | directory entries =>
        dsimp only at hrun
        by_cases hclosed : name = "." ∨ name = ".." ∨ slash = true
        · rw [if_pos hclosed] at hrun
          cases hrun
        · rw [if_neg hclosed] at hrun
          simp only [not_or, Bool.not_eq_true] at hclosed
          obtain ⟨hdot, hdots, rfl⟩ := hclosed
          obtain ⟨hparts, hname⟩ := lastName?_eq_some hlast
          refine ⟨around, name, place, entries, hnul, hparts, hname, hdot, hdots, hplace, hfound,
            ?_⟩
          split at hrun
          · cases hrun
          · next hfree => exact ⟨hfree, (Except.ok.inj hrun).symm⟩

/-- The file that a write makes is what its location leads to afterwards, and no other place has
changed. -/
theorem writesAt_of_write {t t' : Tree} {location text : String}
    (h : t.write location text = .ok t') :
    ∃ place, t'.locate location = .ok place ∧ t.WritesAt t' place text.toUTF8 := by
  obtain ⟨around, name, place, entries, hnul, hparts, hname, hdot, hdots, hplace, hfound, hfree,
    rfl⟩ := exists_put_of_write h
  have hwrites : t.WritesAt (t.put (place ++ [name]) (.file text.toUTF8)) (place ++ [name])
      text.toUTF8 := by
    refine ⟨?_, fun other => nodeAt?_put_of_ne hfound hfree text.toUTF8⟩
    rw [nodeAt?, at?_put_self]
    rfl
  refine ⟨place ++ [name], ?_, hwrites⟩
  have hwas : t.nodeAt? (place ++ [name]) ≠ some .directory := by
    intro hwas
    obtain ⟨inner, hinner⟩ := nodeAt?_eq_directory_iff.mp hwas
    rw [at?_append, hfound, Option.bind_some, at?_cons] at hinner
    obtain ⟨child, hchild, hself⟩ := Option.bind_eq_some_iff.mp hinner
    obtain rfl : child = .directory inner := Option.some.inj hself
    exact hfree inner hchild
  have hdirectory := hwrites.others place (by simp)
  rw [nodeAt?_eq_directory_iff.mpr ⟨entries, hfound⟩] at hdirectory
  have hthere := congrArg Option.isSome hwrites.written
  have haround := hwrites.locateFrom hwas hplace
  rw [locate, if_neg hnul, hparts, locateFrom_append, haround]
  exact locateFrom_name hdirectory hname hdot hdots hthere

end Ownership.Tree
