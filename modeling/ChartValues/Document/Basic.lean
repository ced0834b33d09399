import ChartValues.Text.Blank

/-!
# Documents

A values document is a name and a text, seen as lines numbered from one. A line ends at a line feed;
one carriage return before the line feed belongs to the line's end. The rest after the last line feed
is a line of its own if it is not empty. Each line knows the bytes it spans in the text.

Main operations: `Document.lines`, `Document.line?`, `Document.prefixAt`.
-/

namespace ChartValues

/-- A cursor: a line, counted from one, and a column, counted in characters from zero. -/
structure Position where
  line : Nat
  column : Nat
  deriving DecidableEq, Repr

/-- A range of byte offsets, `stop` excluded. -/
structure Span where
  start : Nat
  stop : Nat
  deriving DecidableEq, Repr

/-- Why a position does not fit a document. -/
inductive PositionError where
  | lineOutOfRange (line total : Nat)
  | columnOutOfRange (line column length : Nat)
  deriving DecidableEq, Repr

def PositionError.message : PositionError → String
  | lineOutOfRange line total => s!"line {line} is out of range (document has {total} lines)"
  | columnOutOfRange line column length =>
    s!"column {column} is past the end of line {line} ({length} characters)"

/-- One line of a document, without its end. -/
structure Line where
  text : String
  span : Span
  deriving DecidableEq, Repr

namespace Line

def byteLength (cs : List Char) : Nat := cs.foldr (fun c n => c.utf8Size + n) 0

/-- The line whose characters are `reversed`, back to front, starting at byte `start`. -/
def ofReversed (start : Nat) (reversed : List Char) : Line :=
  ⟨String.ofList reversed.reverse, ⟨start, start + byteLength reversed⟩⟩

/-- A line's characters, back to front, without the carriage return of its end. -/
def dropReturn : List Char → List Char
  | '\r' :: cs => cs
  | cs => cs

/-- Cut a text into lines: `reversed` is the part of the current line already read, back to front,
and `start` the byte where that line starts. -/
def split (start : Nat) (reversed : List Char) : List Char → List Line
  | [] => if reversed.isEmpty then [] else [ofReversed start reversed]
  | c :: cs =>
    if c = '\n' then
      ofReversed start (dropReturn reversed) :: split (start + byteLength reversed + 1) [] cs
    else split start (c :: reversed) cs

end Line

/-- A named text. -/
structure Document where
  name : String
  source : String
  deriving DecidableEq, Repr

namespace Document

def lines (d : Document) : List Line := Line.split 0 [] d.source.toList

def lineCount (d : Document) : Nat := d.lines.length

/-- The `n`-th element of a list, counted from one. -/
def nth? (xs : List α) : Nat → Option α
  | 0 => none
  | n + 1 => xs[n]?

def line? (d : Document) (n : Nat) : Option String := (nth? d.lines n).map Line.text

def span? (d : Document) (n : Nat) : Option Span := (nth? d.lines n).map Line.span

/-- The texts of the lines with their numbers. -/
def numbered (d : Document) : List (Nat × String) :=
  d.lines.mapIdx fun i line => (i + 1, line.text)

/-- The text of the cursor's line up to the cursor. The line just past the last one counts as
empty. -/
def prefixAt (d : Document) (p : Position) : Except PositionError String :=
  let total := d.lineCount
  if p.line = 0 ∨ total + 1 < p.line then .error (.lineOutOfRange p.line total)
  else
    let text := ((d.line? p.line).getD "").toList
    if text.length < p.column then .error (.columnOutOfRange p.line p.column text.length)
    else .ok (String.ofList (text.take p.column))

/-- `n` filled with blanks on the left to four columns. -/
def padded (n : Nat) : String :=
  let digits := toString n
  String.ofList (List.replicate (4 - digits.length) ' ') ++ digits

def render (d : Document) : String :=
  String.join (d.numbered.map fun (n, text) => padded n ++ " | " ++ text ++ "\n")

end Document

end ChartValues
