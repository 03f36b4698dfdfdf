/-
  Lines and positions. A line ends at a carriage return with a line feed, or at either of them
  alone. `splitLines` takes the breaks away; `positionAt` says on which line and in which column
  an offset stands, and its line is one of those.
-/

namespace ScriptLexer

/-- The lines of a text without their breaks. There is always at least one. -/
def splitLines : List Char → List (List Char)
  | [] => [[]]
  | '\r' :: '\n' :: rest => [] :: splitLines rest
  | c :: rest =>
    if c = '\r' ∨ c = '\n' then [] :: splitLines rest
    else match splitLines rest with
      | [] => [[c]]
      | line :: lines => (c :: line) :: lines

/-- Every break replaced by a line feed. -/
def normalizeBreaks : List Char → List Char
  | [] => []
  | '\r' :: '\n' :: rest => '\n' :: normalizeBreaks rest
  | c :: rest => (if c = '\r' then '\n' else c) :: normalizeBreaks rest

/-- A place in a text: line and column count from one, the offset from zero. -/
structure Position where
  line : Nat
  column : Nat
  offset : Nat
deriving DecidableEq, Repr

/-- An offset moved to the nearest one inside a text of the given length. -/
def clampOffset (length : Nat) (offset : Int) : Nat := min offset.toNat length

/-- The place of an offset, moved into the text if need be. -/
def positionAt (source : List Char) (offset : Int) : Position :=
  let k := clampOffset source.length offset
  let before := splitLines (source.take k)
  ⟨before.length, (before.getLastD []).length + 1, k⟩

theorem splitLines_ne_nil (text : List Char) : splitLines text ≠ [] := by
  fun_cases splitLines text <;> simp_all

end ScriptLexer
