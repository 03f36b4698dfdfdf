import ScriptLexer.Scan.Run

/-
  Words. A word takes its whole run; whatever cannot stand in an identifier is a stray.
-/

namespace ScriptLexer

def wordMark (c : Char) : Mark :=
  if isIdentPart c then .keep c else .stray .unexpectedToken c

/-- The marks of a word that begins with `head`. -/
def wordMarks (head : Char) (rest : List Char) : List Mark :=
  .keep head :: (run rest).map wordMark

/-- The word that begins with `head`. -/
def readWord (head : Char) (rest : List Char) : Construct :=
  let marks := wordMarks head rest
  { kind := .word
    value := .word (Word.ofText (String.ofList (Mark.text marks)))
    size := Mark.extent marks
    taken := marks.length
    faults := Mark.faults 0 marks
    size_pos := Mark.extent_pos rfl _
    size_le_taken := Mark.extent_le_length _ }

end ScriptLexer
