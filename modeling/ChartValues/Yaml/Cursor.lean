import ChartValues.Document.Basic

/-!
# A cursor in a YAML text

The unread characters with the place they start at. Reading is by single characters, by line breaks
and by runs that hold no break; each keeps the column and the line in step. The index counts bytes, the
column characters.
-/

namespace ChartValues.Yaml

def isBreak (c : Char) : Bool :=
  c == '\n' || c == '\r' || c == '\u0085' || c == '\u2028' || c == '\u2029'

def isSpace (c : Char) : Bool := c == ' ' || c == '\t'

/-- The characters a text may hold at all. -/
def isAllowed (c : Char) : Bool :=
  let n := c.toNat
  n == 0x09 || n == 0x0A || n == 0x0D || (0x20 ≤ n && n ≤ 0x7E) || n == 0x85 ||
    (0xA0 ≤ n && n ≤ 0xFFFD) || 0x10000 ≤ n

/-- Letters, digits, `_` and `-`: the characters of anchors, handles and directive names. -/
def isNameChar (c : Char) : Bool := c.isAlphanum || c == '_' || c == '-'

def hexValue? (c : Char) : Option Nat :=
  if '0' ≤ c ∧ c ≤ '9' then some (c.toNat - '0'.toNat)
  else if 'a' ≤ c ∧ c ≤ 'f' then some (c.toNat - 'a'.toNat + 10)
  else if 'A' ≤ c ∧ c ≤ 'F' then some (c.toNat - 'A'.toNat + 10)
  else none

/-- The unread text and its place. -/
structure Cursor where
  rest : List Char
  index : Nat := 0
  line : Nat := 0
  column : Nat := 0
  deriving Repr

namespace Cursor

/-- The next character but `k`. -/
def peek (c : Cursor) (k : Nat) : Option Char := c.rest[k]?

def isAt (c : Cursor) (k : Nat) (ch : Char) : Bool := c.peek k == some ch

def atEnd (c : Cursor) : Bool := c.rest.isEmpty

def atBreak (c : Cursor) : Bool := (c.peek 0).any isBreak

def atSpace (c : Cursor) : Bool := (c.peek 0).any isSpace

/-- Whether the text ends or a line break is next. -/
def atBreakOrEnd (c : Cursor) : Bool := (c.peek 0).all isBreak

/-- Whether a character is blank or a break, or the text has ended there. -/
def blankAt (c : Cursor) (k : Nat) : Bool := (c.peek k).all fun ch => isSpace ch || isBreak ch

/-- Move `n` characters on within a line. -/
def advance (c : Cursor) (n : Nat) : Cursor :=
  { c with
    rest := c.rest.drop n
    index := c.index + Line.byteLength (c.rest.take n)
    column := c.column + n }

def skipBreak (c : Cursor) : Cursor :=
  match c.rest with
  | '\r' :: '\n' :: rest => ⟨rest, c.index + 2, c.line + 1, 0⟩
  | ch :: rest => if isBreak ch then ⟨rest, c.index + ch.utf8Size, c.line + 1, 0⟩ else c
  | [] => c

/-- The text a line break stands for: a line feed, save for the two separators. -/
def breakText (c : Cursor) : List Char :=
  match c.rest with
  | ch :: _ =>
    if ch = '\u2028' ∨ ch = '\u2029' then [ch] else if isBreak ch then ['\n'] else []
  | [] => []

/-- Move past the characters that satisfy `p`, none of which is a break. -/
def skipWhile (c : Cursor) (p : Char → Bool) : Cursor := c.advance (c.rest.takeWhile p).length

def skipSpaces (c : Cursor) : Cursor := c.skipWhile isSpace

def skipComment (c : Cursor) : Cursor :=
  if c.isAt 0 '#' then c.skipWhile fun ch => !isBreak ch else c

/-- Three equal marks at the start of a line, with a blank or the end behind them. -/
def atMarker (c : Cursor) (mark : Char) : Bool :=
  c.column == 0 && c.isAt 0 mark && c.isAt 1 mark && c.isAt 2 mark && c.blankAt 3

/-- Whether a line that starts or ends a document is next. -/
def atDocumentMarker (c : Cursor) : Bool := c.atMarker '-' || c.atMarker '.'

/-- Move to the end of a line on which only blanks and a comment may follow, and past its break. -/
def finishLine (c : Cursor) : Option Cursor :=
  let c := c.skipSpaces.skipComment
  if c.atBreakOrEnd then some c.skipBreak else none

end Cursor

end ChartValues.Yaml
