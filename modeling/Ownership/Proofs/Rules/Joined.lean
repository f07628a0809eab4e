import Mathlib.Data.List.Basic
import Ownership.Proofs.Rules.Reading

set_option autoImplicit false

/-!
# Joined rules files

No line knows of another: two texts with a line feed between them read as the first and then the
second, whose lines only have later numbers. Quotes and comments end with their line, and an end of
line that is missing or doubled says nothing.
-/
namespace Ownership

/-! ## Later lines -/

def Rule.moveDown (count : Nat) (r : Rule) : Rule :=
  { r with line := r.line.map (· + count) }

def LineError.moveDown (count : Nat) (e : LineError) : LineError :=
  { e with line := e.line + count }

theorem Rule.ofPattern_add (pattern service : String) (number count : Nat) :
    Rule.ofPattern pattern service (some (number + count)) =
      (Rule.ofPattern pattern service (some number)).map (Rule.moveDown count) := by
  unfold Rule.ofPattern
  split <;> rfl

namespace Rules

def moveDown (count : Nat) : Except LineError Rule → Except LineError Rule
  | .ok rule => .ok (rule.moveDown count)
  | .error e => .error (e.moveDown count)

theorem readLine_add (source : String) (number count : Nat) (raw : List Char) :
    readLine source (number + count) raw = (readLine source number raw).map (moveDown count) := by
  unfold readLine
  split
  · rfl
  · next pattern service _ =>
    rw [Rule.ofPattern_add]
    cases Rule.ofPattern (String.ofList pattern) (String.ofList service) (some number) <;> rfl
  · rfl

theorem readFrom_add (source : String) (number count : Nat) (raws : List (List Char)) :
    readFrom source (number + count) raws =
      (readFrom source number raws).map (moveDown count) := by
  induction raws generalizing number with
  | nil => rfl
  | cons raw raws ih =>
    rw [readFrom, readFrom, readLine_add, Nat.add_right_comm, ih]
    cases readLine source number raw <;> rfl

/-! ## More lines -/

theorem readFrom_append (source : String) (number : Nat) (raws more : List (List Char)) :
    readFrom source number (raws ++ more) =
      readFrom source number raws ++ readFrom source (number + raws.length) more := by
  rw [readFrom_eq, readFrom_eq, readFrom_eq, List.zipIdx_append, List.filterMap_append]

/-- The last line of a text has its end or lacks it; an empty one is no line, and the others are the
same unless a return is taken for a part of the end. -/
theorem readFrom_ended {cs : List Char} (h : cs.getLast? ≠ some '\r') (source : String)
    (number : Nat) :
    readFrom source number ((Text.splitAll (· == '\n') cs).map Text.dropReturn) =
      readFrom source number (Text.lines cs) := by
  obtain ⟨front, last, hsplit, hlast⟩ := Text.exists_splitAll_eq_concat '\n' cs
  rw [Text.lines, hsplit, Text.endLines_append (List.cons_ne_nil _ _), List.map_append,
    readFrom_append, readFrom_append]
  congr 1
  cases last with
  | nil => rfl
  | cons c last =>
    have hkeep : Text.dropReturn (c :: last) = c :: last := by
      apply Text.dropReturn_eq_self
      obtain ⟨before, rfl⟩ := hlast
      intro hreturn
      rw [List.getLast?_append, hreturn, Option.some_or] at h
      exact h rfl
    rw [List.map_singleton, hkeep]
    rfl

theorem readLines_join {first : String} (h : first.toList.getLast? ≠ some '\r')
    (source second : String) :
    readLines source (first ++ "\n" ++ second) = readLines source first ++
      (readLines source second).map (moveDown (first.toList.count '\n' + 1)) := by
  have hlines : Text.lines (first ++ "\n" ++ second).toList =
      (Text.splitAll (· == '\n') first.toList).map Text.dropReturn ++
        Text.lines second.toList := by
    obtain ⟨front, last, hsplit, -⟩ := Text.exists_splitAll_eq_concat '\n' second.toList
    have hsome : Text.splitAll (· == '\n') second.toList ≠ [] := by simp [hsplit]
    rw [String.toList_append, String.toList_append, List.append_assoc]
    change Text.endLines (Text.splitAll (· == '\n') (first.toList ++ '\n' :: second.toList)) = _
    rw [Text.splitAll_append_cons, Text.endLines_append hsome, Text.lines]
  rw [readLines, hlines, readFrom_append, readFrom_ended h, List.length_map, Text.length_splitAll,
    readFrom_add]
  rfl

/-- Two texts with a line feed between them are read one after the other; the lines of the second
are numbered on from those of the first. -/
theorem parseLenient_join {first : String} (h : first.toList.getLast? ≠ some '\r')
    (source second : String) :
    parseLenient source (first ++ "\n" ++ second) =
      let count := first.toList.count '\n' + 1
      ((parseLenient source first).1 ++
          (parseLenient source second).1.map (Rule.moveDown count),
        (parseLenient source first).2 ++
          (parseLenient source second).2.map (LineError.moveDown count)) := by
  simp only [parseLenient, readLines_join h, List.filterMap_append, List.filterMap_map,
    List.map_filterMap]
  refine congrArg₂ Prod.mk (congrArg (_ ++ ·) (List.filterMap_congr ?_))
    (congrArg (_ ++ ·) (List.filterMap_congr ?_))
  · intro verdict _
    cases verdict <;> rfl
  · intro verdict _
    cases verdict <;> rfl

theorem parseLenient_join_open_quote :
    "a/** x\r\n\"b".toList.getLast? ≠ some '\r' ∧
      (parseLenient defaultSource ("a/** x\r\n\"b" ++ "\n" ++ "\n # it's\nc y # z\nd")).1.map
          (fun rule => (rule.pattern, rule.service, rule.line)) =
        [("a/**", "x", some 1), ("c", "y", some 5)] ∧
      (parseLenient defaultSource ("a/** x\r\n\"b" ++ "\n" ++ "\n # it's\nc y # z\nd")).2.map
          LineError.line = [2, 6] ∧
      parseLenient defaultSource ("a/** x\r\n\"b" ++ "\n" ++ "\n # it's\nc y # z\nd") =
        ((parseLenient defaultSource "a/** x\r\n\"b").1 ++
            (parseLenient defaultSource "\n # it's\nc y # z\nd").1.map (Rule.moveDown 2),
          (parseLenient defaultSource "a/** x\r\n\"b").2 ++
            (parseLenient defaultSource "\n # it's\nc y # z\nd").2.map (LineError.moveDown 2)) := by
  have hlast : "a/** x\r\n\"b".toList.getLast? ≠ some '\r' := by decide
  exact ⟨hlast, by decide +kernel, by decide +kernel, parseLenient_join hlast defaultSource _⟩

/-- A return at the end of the first text would be taken into the end of its line. -/
example :
    (parseLenient defaultSource ("a\r" ++ "\n" ++ "b")).2.map LineError.fault =
        [.columnCount 1 "a", .columnCount 1 "b"] ∧
      (parseLenient defaultSource "a\r").2.map LineError.fault = [.columnCount 1 "a\r"] := by
  decide +kernel

end Rules

end Ownership
