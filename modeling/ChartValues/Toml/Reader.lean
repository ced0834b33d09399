import ChartValues.Toml.Scalar
import ChartValues.Toml.Table

/-!
# Reading TOML

A TOML text is a sequence of lines, each empty, a key with its value, or the header of a table. `parse`
gives the table of the whole text, or nothing if any line is malformed or defines something twice.
-/

namespace ChartValues.Toml

/-- What follows a comment, if there is one; a comment holds no controls. -/
def skipComment (cs : List Char) : List Char :=
  match cs with
  | '#' :: rest => rest.dropWhile isText
  | _ => cs

/-- What follows the end of a line, or the end of the text, behind spaces and a comment. -/
def endLine (cs : List Char) : Option (List Char) :=
  match skipComment (skipSpace cs) with
  | [] => some []
  | rest => newline? rest

/-- The text behind spaces, comments and ends of lines. -/
def skipLines : Nat → List Char → List Char
  | 0, cs => cs
  | fuel + 1, cs =>
    let rest := skipSpace cs
    match newline? (skipComment rest) with
    | some rest => skipLines fuel rest
    | none => rest

def readKeyPart (cs : List Char) : Option (String × List Char) :=
  match cs with
  | '"' :: _ => readKeyString cs
  | '\'' :: _ => readKeyString cs
  | _ =>
    let name := cs.takeWhile isBare
    if name.isEmpty then none else some (String.ofList name, cs.drop name.length)

def readKey : Nat → List Char → Option (List String × List Char)
  | 0, _ => none
  | fuel + 1, cs => do
    let (part, rest) ← readKeyPart (skipSpace cs)
    match skipSpace rest with
    | '.' :: rest =>
      let (parts, rest) ← readKey fuel rest
      return (part :: parts, rest)
    | rest => return ([part], rest)

/-- The path and the last part of a key. -/
def splitKey (parts : List String) : List String × String :=
  (parts.dropLast, parts.getLast?.getD "")

mutual

def readValue : Nat → List Char → Option (Value × List Char)
  | 0, _ => none
  | fuel + 1, cs =>
    match cs with
    | '[' :: rest => do
      let (elements, rest) ← readElements fuel [] rest
      return (.array elements, rest)
    | '\x7b' :: rest => do
      match skipSpace rest with
      | '\x7d' :: rest => return (.table [], rest)
      | rest =>
        let (entries, rest) ← readPairs fuel [] rest
        return (.table (Node.entriesToValues entries), rest)
    | _ => readScalar cs

/-- The elements of an array, up to and past its closing bracket. -/
def readElements : Nat → List Value → List Char → Option (List Value × List Char)
  | 0, _, _ => none
  | fuel + 1, acc, cs =>
    match skipLines (cs.length + 1) cs with
    | ']' :: rest => some (acc.reverse, rest)
    | cs => do
      let (v, rest) ← readValue fuel cs
      match skipLines (rest.length + 1) rest with
      | ',' :: rest => readElements fuel (v :: acc) rest
      | ']' :: rest => some ((v :: acc).reverse, rest)
      | _ => none

/-- The pairs of an inline table, up to and past its closing brace. -/
def readPairs : Nat → Entries → List Char → Option (Entries × List Char)
  | 0, _, _ => none
  | fuel + 1, entries, cs => do
    let (parts, rest) ← readKey (cs.length + 1) cs
    let (v, rest) ← readValue fuel (skipSpace (← expectChar '=' rest))
    let (path, key) := splitKey parts
    let entries ← entries.insert path key v
    match skipSpace rest with
    | ',' :: rest => readPairs fuel entries rest
    | '\x7d' :: rest => some (entries, rest)
    | _ => none

end

/-- A text read up to some line: the finished tables and the one that lines now add to. -/
structure State where
  root : Entries := []
  /-- The header of the current table; empty before the first header. -/
  path : List String := []
  isArray : Bool := false
  current : Entries := []

namespace State

/-- Put the current table in its place. -/
def finish (s : State) : Option Entries :=
  let (path, key) := splitKey s.path
  if s.path.isEmpty then some s.current
  else if s.isArray then Entries.append path key s.current s.root
  else Entries.close path key s.current s.root

def enter (s : State) (path : List String) (isArray : Bool) : Option State := do
  let root ← s.finish
  if isArray then return { root, path, isArray }
  else return { root, path, isArray, current := ← root.opened path }

def add (s : State) (parts : List String) (v : Value) : Option State := do
  let (path, key) := splitKey parts
  return { s with current := ← s.current.insert path key v }

end State

def readHeader (cs : List Char) : Option (List String × Bool × List Char) :=
  match cs with
  | '[' :: '[' :: rest => do
    let (path, rest) ← readKey (rest.length + 1) rest
    let rest ← expectChar ']' (← expectChar ']' rest)
    return (path, true, ← endLine rest)
  | '[' :: rest => do
    let (path, rest) ← readKey (rest.length + 1) rest
    return (path, false, ← endLine (← expectChar ']' rest))
  | _ => none

def readPair (cs : List Char) : Option (List String × Value × List Char) := do
  let (parts, rest) ← readKey (cs.length + 1) cs
  let rest := skipSpace (← expectChar '=' rest)
  let (v, rest) ← readValue (2 * rest.length + 2) rest
  return (parts, v, ← endLine rest)

def readAll : Nat → State → List Char → Option State
  | 0, _, _ => none
  | fuel + 1, s, cs =>
    match skipSpace cs with
    | [] => some s
    | '[' :: rest => do
      let (path, isArray, rest) ← readHeader ('[' :: rest)
      readAll fuel (← s.enter path isArray) rest
    | rest =>
      match endLine rest with
      | some rest => readAll fuel s rest
      | none => do
        let (parts, v, rest) ← readPair rest
        readAll fuel (← s.add parts v) rest

/-- The table of a text; a byte order mark at its start counts for nothing. -/
def parse (text : String) : Option Value := do
  let cs := match text.toList with
    | '\uFEFF' :: cs => cs
    | cs => cs
  let s ← readAll (cs.length + 2) {} cs
  return .table (Node.entriesToValues (← s.finish))

end ChartValues.Toml
