import ScriptLexer.Toml.Builder
import ScriptLexer.Toml.Scalar

/-
  Reading TOML: values with parts, and documents as statements on lines. The tables of a document
  are put together by `Toml.Members`; `Toml.read` reads a document.
-/

namespace ScriptLexer

namespace TomlReader

/-! ## Values -/

mutual

/-- A value with `room` for what is nested in it: an array takes two parts of it and an inline
table three. `fuel` bounds the depth and length of what is read. -/
def value (room : Nat) : Nat → List Char → Except TomlFault (Ahead Toml)
  | 0, _ => malformed
  | fuel + 1, '[' :: rest => do
    if room < 2 then throw .tooDeep
    match ← skipLines false rest with
    | ']' :: rest => return (.array [], rest)
    | rest =>
      let (items, rest) ← arrayItems (room - 2) fuel rest
      return (.array items, rest)
  | fuel + 1, '\x7b' :: rest => do
    if room < 3 then throw .tooDeep
    match skipSpace rest with
    | '\x7d' :: rest => return (.table [], rest)
    | rest =>
      let (members, rest) ← inlineMembers (room - 3) fuel [] rest
      return (.table (Toml.Members.finish members), rest)
  | _ + 1, cs => scalar cs
termination_by structural fuel => fuel

/-- The elements of an array up to its end; a comma may stand behind the last one. -/
def arrayItems (room : Nat) : Nat → List Char → Except TomlFault (Ahead (List Toml))
  | 0, _ => malformed
  | fuel + 1, cs => do
    let (item, rest) ← value room fuel cs
    match ← skipLines false rest with
    | ']' :: rest => return ([item], rest)
    | ',' :: rest =>
      match ← skipLines false rest with
      | ']' :: rest => return ([item], rest)
      | rest =>
        let (items, rest) ← arrayItems room fuel rest
        return (item :: items, rest)
    | _ => malformed
termination_by structural fuel => fuel

/-- A key and its value. -/
def keyValue (room : Nat) : Nat → List Char → Except TomlFault (Ahead (List String × Toml))
  | 0, _ => malformed
  | fuel + 1, cs => do
    let (key, rest) ← dottedKey fuel cs
    match rest with
    | '=' :: rest =>
      let (v, rest) ← value room fuel (skipSpace rest)
      return ((key, v), rest)
    | _ => malformed
termination_by structural fuel => fuel

/-- The members of an inline table up to its end; no comma stands behind the last one. -/
def inlineMembers (room : Nat) : Nat → Toml.Members → List Char →
    Except TomlFault (Ahead Toml.Members)
  | 0, _, _ => malformed
  | fuel + 1, members, cs => do
    let ((key, v), rest) ← keyValue room fuel cs
    match members.assign 0 v (key.getLastD "") key.dropLast with
    | none => malformed
    | some members =>
      match skipSpace rest with
      | '\x7d' :: rest => return (members, rest)
      | ',' :: rest => inlineMembers room fuel members (skipSpace rest)
      | _ => malformed
termination_by structural fuel => fuel

end

/-! ## Documents -/

/-- The tables so far, and the header under which the next keys belong. -/
structure Document where
  header : List String := []
  part : Nat := 0
  members : Toml.Members := []

/-- Enters a table under a header whose key has been read. -/
def Document.enter (d : Document) (key : List String)
    (change : List String → String → Toml.Members → Option Toml.Members) :
    Except TomlFault Document :=
  match change key.dropLast (key.getLastD "") d.members with
  | some members => .ok ⟨key, d.part + 1, members⟩
  | none => malformed

/-- Sets a key below the header. -/
def Document.assign (d : Document) (key : List String) (v : Toml) : Except TomlFault Document :=
  match Toml.Members.atTable (Toml.Members.assign d.part v (key.getLastD "") key.dropLast) d.header
      d.members with
  | some members => .ok { d with members := members }
  | none => malformed

/-- The statement in front: a header, a key with its value, or nothing. -/
def statement (room fuel : Nat) (d : Document) (cs : List Char) : Except TomlFault (Ahead Document) :=
  match cs with
  | '[' :: '[' :: rest => do
    let (key, rest) ← dottedKey fuel (skipSpace rest)
    let d ← d.enter key fun path key members => members.append path key
    match rest with
    | ']' :: ']' :: rest => return (d, rest)
    | _ => malformed
  | '[' :: rest => do
    let (key, rest) ← dottedKey fuel (skipSpace rest)
    let d ← d.enter key fun path key members => members.declare path key
    match rest with
    | ']' :: rest => return (d, rest)
    | _ => malformed
  | c :: _ =>
    if isBareKey c || c == '"' || c == '\'' then do
      let ((key, v), rest) ← keyValue room fuel cs
      return (← d.assign key v, rest)
    else if c == '#' || c == '\n' then .ok (d, cs)
    else malformed
  | [] => .ok (d, [])

/-- The statements of a document, each on a line. `fuel` bounds their number and length. -/
def statements (room : Nat) : Nat → Document → List Char → Except TomlFault Document
  | 0, _, _ => malformed
  | fuel + 1, d, cs => do
    let (d, rest) ← statement room fuel d (skipSpace cs)
    match ← skipComment (skipSpace rest) with
    | [] => return d
    | '\n' :: rest => statements room fuel d rest
    | _ => malformed

/-- Line breaks of two characters count as line feeds. -/
def joinBreaks : List Char → List Char
  | '\r' :: '\n' :: rest => '\n' :: joinBreaks rest
  | c :: rest => c :: joinBreaks rest
  | [] => []

end TomlReader

/-- Reads a document as a table, with `room` for what is nested in its values. -/
def Toml.read (room : Nat) (text : List Char) : Except TomlFault Toml := do
  let cs := TomlReader.joinBreaks text
  let d ← TomlReader.statements room (2 * cs.length + 4) {} cs
  return .table (Toml.Members.finish d.members)

end ScriptLexer
