import ChartValues.Markdown.Html

/-!
# Lines of Markdown

A line is read from its start: first the indentation, counted in columns with tabs to every fourth one,
then the marks that open blocks. Everything here looks at one line only.
-/

namespace ChartValues.Markdown

inductive LineEnding where
  | none
  | feed
  | returnFeed
  deriving DecidableEq, Repr

structure Line where
  text : List Char
  ending : LineEnding
  deriving DecidableEq, Repr

/-- The lines of a text; a text that ends with an end of line has no empty line behind it. -/
def Line.ofText : List Char → List Char → List Line
  | [], [] => []
  | acc, [] => [⟨acc.reverse, .none⟩]
  | acc, '\r' :: '\n' :: cs => ⟨acc.reverse, .returnFeed⟩ :: ofText [] cs
  | acc, c :: cs =>
    if c = '\n' ∨ c = '\r' then ⟨acc.reverse, .feed⟩ :: ofText [] cs else ofText (c :: acc) cs

structure Cursor where
  rest : List Char
  column : Nat := 0
  /-- Columns of the tab before `rest` that have not been used. -/
  pending : Nat := 0
  deriving DecidableEq, Repr

namespace Cursor

/-- Skip up to `n` columns of indentation: how many were missing, and the new place. -/
def skip : Nat → Cursor → Nat × Cursor
  | 0, c => (0, c)
  | n + 1, c =>
    if 0 < c.pending then skip n { c with pending := c.pending - 1 }
    else
      match c.rest with
      | ' ' :: rest => skip n ⟨rest, c.column + 1, 0⟩
      | '\t' :: rest =>
        let width := 4 - c.column % 4
        skip n ⟨rest, c.column + width, width - 1⟩
      | _ => (n + 1, c)

def atEnd (c : Cursor) : Bool := c.rest.isEmpty

def isBlank (c : Cursor) : Bool := c.rest.all isSpace

def skipAll (c : Cursor) : List Char := c.rest.dropWhile fun d => d == ' ' || d == '\t'

/-- Move past `n` characters that are no tabs. -/
def advance (n : Nat) (c : Cursor) : Cursor := ⟨c.rest.drop n, c.column + n, 0⟩

/-- Move past the mark of a quotation and the blank behind it. -/
def quoteMark? (c : Cursor) : Option Cursor :=
  match c.rest with
  | '>' :: _ => if c.pending = 0 then some ((c.advance 1).skip 1).2 else none
  | _ => none

end Cursor

/-! ## Marks -/

/-- A line of three or more of the same mark, with nothing else but blanks. -/
def isRule (cs : List Char) : Bool :=
  match cs with
  | c :: _ =>
    (c == '*' || c == '-' || c == '_') &&
      (cs.filter (!isSpace ·)).all (· == c) && 3 ≤ cs.count c
  | [] => false

def headingLevel? (cs : List Char) : Option Nat :=
  let level := (cs.takeWhile (· == '#')).length
  if 1 ≤ level ∧ level ≤ 6 ∧ ((cs.drop level).head?.all isWhite) then some level else none

/-- The text of a heading's line without its marks at both ends. -/
def headingText (level : Nat) (cs : List Char) : List Char :=
  let reversed := ((cs.drop level).dropWhile isSpace).reverse.dropWhile isSpace
  let bare := reversed.dropWhile (· == '#')
  if bare.isEmpty then []
  else if bare.length < reversed.length ∧ bare.head?.any isSpace then
    (bare.dropWhile isSpace).reverse
  else reversed.reverse

def isUnderline (cs : List Char) : Bool :=
  match cs with
  | c :: _ => (c == '=' || c == '-') && (cs.dropWhile (· == c)).all isSpace
  | [] => false

/-- The fence that opens a block of code: its character and length. -/
def fence? (cs : List Char) : Option (Char × Nat) :=
  match cs with
  | c :: _ =>
    let count := (cs.takeWhile (· == c)).length
    if (c = '\x60' ∧ !(cs.drop count).contains '\x60' ∨ c = '~') ∧ 3 ≤ count then some (c, count)
    else none
  | [] => none

def closesFence (fence : Char × Nat) (cs : List Char) : Bool :=
  let count := (cs.takeWhile (· == fence.1)).length
  fence.2 ≤ count && (cs.drop count).all isSpace

structure ListMark where
  /-- What the items of one list share. -/
  char : Char
  number : Nat
  /-- The columns that belong to the item's indentation. -/
  indent : Nat
  deriving DecidableEq, Repr

/-- The character, number and length of an item's mark. -/
def bareMark? (cs : List Char) : Option (Char × Nat × Nat) :=
  match cs with
  | c :: _ =>
    if c = '-' ∨ c = '+' ∨ c = '*' then if isRule cs then none else some (c, 0, 1)
    else
      let digits := cs.takeWhile Char.isDigit
      let number := digits.foldl (fun n d => n * 10 + (d.toNat - '0'.toNat)) 0
      match cs.drop digits.length with
      | d :: _ =>
        if 1 ≤ digits.length ∧ digits.length ≤ 9 ∧ (d = '.' ∨ d = ')') then
          some (d, number, digits.length + 1)
        else none
      | [] => none
  | [] => none

/-- The mark of an item behind `outer` columns of indentation, and the place behind it. -/
def listMark? (outer : Nat) (c : Cursor) : Option (ListMark × Cursor) := do
  let (char, number, length) ← bareMark? c.rest
  let behind := c.advance length
  let (missing, spaced) := behind.skip 1
  if missing = 1 ∧ !behind.atEnd then none
  else
    let indent := outer + length + 1
    if spaced.isBlank then some (⟨char, number, indent⟩, spaced)
    else
      let (missing, text) := spaced.skip 4
      if missing = 0 then some (⟨char, number, indent⟩, spaced)
      else some (⟨char, number, indent + (4 - missing)⟩, text)

/-- Whether a line that is indented by less than four columns ends the paragraph before it. `inside` says
whether the line belongs to all blocks around the paragraph: if so, neither an empty item nor one with
another number than 1 does. -/
def interrupts (inside : Bool) (c : Cursor) : Bool :=
  let cs := c.rest
  cs.isEmpty || isRule cs || (headingLevel? cs).isSome || (fence? cs).isSome ||
    cs.head? == some '>' || (strongEnd cs).isSome ||
    match listMark? 0 c with
    | some (mark, behind) =>
      !inside || ((mark.char != '.' && mark.char != ')' || mark.number == 1) && !behind.isBlank)
    | none => false

end ChartValues.Markdown
