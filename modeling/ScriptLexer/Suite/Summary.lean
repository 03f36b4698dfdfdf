import ScriptLexer.Json

/-
  The summary of a suite run: how many cases there were and how they came out, and the share of
  those that passed, in percent (`coverage?`).
-/

namespace ScriptLexer

structure Summary where
  name : String
  total : Int
  success : Int
  failure : Int
  crash : Int
deriving DecidableEq, Repr

namespace Summary

/-- The percentage of cases that passed; with no case at all, zero. The share is rounded before
it is made a percentage. There is none if the counts are out of all proportion. -/
def coverage? (s : Summary) : Option Binary64 :=
  if s.total = 0 then some .zero else (Binary64.divide? s.success s.total).map (·.times 100)

/-- The summary as it is stored. -/
def toJson (s : Summary) (coverage : Binary64) : Json :=
  .object [("name", .text s.name), ("total", .whole s.total), ("success", .whole s.success),
    ("failure", .whole s.failure), ("crash", .whole s.crash), ("coverage", .number coverage)]

/-- The line that is printed: counts, coverage, and its change since the run before. -/
def line (s : Summary) (coverage previous : Binary64) : String :=
  let change := fixedPlaces 2 true (coverage.sub previous)
  s!"{s.name}: {s.success} / {s.total} ({fixedPlaces 2 false coverage}% {change}%)"

end Summary

end ScriptLexer
