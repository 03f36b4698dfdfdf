/-
  Spans: half-open ranges of characters. A span carries the fact that it does not run backwards,
  so only bounds that come from outside have to be checked (`Span.ofBounds`).
-/

namespace ScriptLexer

/-- A half-open range of character offsets. -/
structure Span where
  start : Int
  stop : Int
  ordered : start ≤ stop := by omega
deriving DecidableEq, Repr

namespace Span

/-- The number of characters in the range. -/
def size (s : Span) : Int := s.stop - s.start

/-- The `length` characters from offset `start` on. -/
def cover (start length : Nat) : Span := ⟨start, start + length, by omega⟩

/-- The same range, `by` characters further on. -/
def shift (s : Span) (distance : Nat) : Span :=
  ⟨s.start + distance, s.stop + distance, by have := s.ordered; omega⟩

/-- Bounds that run backwards and so make no span. -/
structure Inverted where
  start : Int
  stop : Int
deriving DecidableEq, Repr

def Inverted.message (e : Inverted) : String :=
  s!"span start {e.start} is after end {e.stop}"

/-- The span between two bounds, if they are in order. -/
def ofBounds (start stop : Int) : Except Inverted Span :=
  if h : start ≤ stop then .ok ⟨start, stop, h⟩ else .error ⟨start, stop⟩

@[simp] theorem size_cover (start length : Nat) : (cover start length).size = length := by
  simp only [size, cover]
  omega

theorem shift_cover (start length distance : Nat) :
    (cover start length).shift distance = cover (distance + start) length := by
  simp only [shift, cover, Span.mk.injEq]
  omega

end Span

end ScriptLexer
