/-
  Dates and times of a configuration file, and the two forms in which they are shown: by
  themselves, and inside a larger value with all their parts named.
-/

namespace ScriptLexer

structure Date where
  year : Nat
  month : Nat
  day : Nat
deriving DecidableEq, Repr

namespace Date

def isLeapYear (year : Nat) : Bool := year % 4 == 0 && (year % 100 != 0 || year % 400 == 0)

def daysInMonth (year month : Nat) : Nat :=
  if month = 2 then (if isLeapYear year then 29 else 28)
  else if month = 4 ∨ month = 6 ∨ month = 9 ∨ month = 11 then 30
  else 31

/-- A date that the calendar has; its years begin with one. -/
def isValid (d : Date) : Bool :=
  1 ≤ d.year && 1 ≤ d.month && d.month ≤ 12 && 1 ≤ d.day && d.day ≤ daysInMonth d.year d.month

end Date

structure TimeOfDay where
  hour : Nat
  minute : Nat
  second : Nat
  microsecond : Nat
deriving DecidableEq, Repr

/-- A date, a time, or both. `offset` is the distance from universal time in minutes. -/
inductive Moment
  | date (d : Date)
  | time (t : TimeOfDay)
  | dateTime (d : Date) (t : TimeOfDay) (offset : Option Int)
deriving DecidableEq, Repr

/-- A number with zeros in front. -/
def padded (width n : Nat) : String :=
  let digits := Nat.repr n
  String.ofList (List.replicate (width - digits.length) '0') ++ digits

namespace Date

def plain (d : Date) : String := s!"{padded 4 d.year}-{padded 2 d.month}-{padded 2 d.day}"

def parts (d : Date) : List Nat := [d.year, d.month, d.day]

end Date

namespace TimeOfDay

def plain (t : TimeOfDay) : String :=
  let fraction := if t.microsecond = 0 then "" else "." ++ padded 6 t.microsecond
  s!"{padded 2 t.hour}:{padded 2 t.minute}:{padded 2 t.second}{fraction}"

/-- Hour and minute, and what follows down to the last part that is not zero. -/
def parts (t : TimeOfDay) : List Nat :=
  [t.hour, t.minute] ++
    if t.microsecond ≠ 0 then [t.second, t.microsecond]
    else if t.second ≠ 0 then [t.second] else []

end TimeOfDay

namespace Moment

def plainOffset (minutes : Int) : String :=
  let sign := if minutes < 0 then "-" else "+"
  s!"{sign}{padded 2 (minutes.natAbs / 60)}:{padded 2 (minutes.natAbs % 60)}"

/-- A moment by itself. -/
def plain : Moment → String
  | date d => d.plain
  | time t => t.plain
  | dateTime d t offset =>
    let zone := match offset with
      | some minutes => plainOffset minutes
      | none => ""
    s!"{d.plain} {t.plain}{zone}"

def call (name : String) (parts : List String) : String :=
  "datetime." ++ name ++ "(" ++ ", ".intercalate parts ++ ")"

/-- An offset in whole days and the seconds of a day. -/
def namedOffset (minutes : Int) : String :=
  if minutes = 0 then "datetime.timezone.utc"
  else
    let seconds := s!"seconds={(minutes * 60) % 86400}"
    let days := if minutes < 0 then ["days=-1"] else []
    call "timezone" [call "timedelta" (days ++ [seconds])]

/-- A moment with its parts named. -/
def named : Moment → String
  | date d => call "date" (d.parts.map Nat.repr)
  | time t => call "time" (t.parts.map Nat.repr)
  | dateTime d t offset =>
    let zone := match offset with
      | some minutes => ["tzinfo=" ++ namedOffset minutes]
      | none => []
    call "datetime" ((d.parts ++ t.parts).map Nat.repr ++ zone)

end Moment

end ScriptLexer
