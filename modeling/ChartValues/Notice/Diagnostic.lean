import ChartValues.Notice.Basic
import ChartValues.Text.Width

/-!
# Notices in a terminal

A notice as a user reads it: the severity and the message, the line of the document it is about with a
mark under it, and the notes. Columns are those of a terminal: tabs reach to the next multiple of four,
and wide characters take two.
-/

namespace ChartValues.Diagnostic

def tabWidth : Nat := 4

/-- The characters of a line, each with its first byte and the columns it takes. -/
def measure (byte column : Nat) : List Char → List (Char × Nat × Nat)
  | [] => []
  | c :: cs =>
    let width := if c = '\t' then tabWidth - column % tabWidth else Text.width c
    (c, byte, width) :: measure (byte + c.utf8Size) (column + width) cs

/-- A line as it is shown: tabs are blanks. -/
def shown (cells : List (Char × Nat × Nat)) : List Char :=
  cells.flatMap fun (c, _, width) => if c = '\t' then List.replicate width ' ' else [c]

/-- The marks under a line, for the bytes of a span. -/
def carets (span : Span) (stop : Nat) (cells : List (Char × Nat × Nat)) : List Char :=
  let mark (byte size width : Nat) : List Char :=
    if byte < span.stop ∧ span.start < byte + size then List.replicate width '^'
    else if byte < span.stop then List.replicate width ' '
    else []
  (cells.flatMap fun (c, byte, width) => mark byte c.utf8Size width) ++ mark stop 1 1

/-- A line's characters without returns and zero characters at its end. -/
def trimLine (s : String) : List Char :=
  (s.toList.reverse.dropWhile fun c => c == '\r' || c == '\n' || c.toNat == 0).reverse

/-- The last line that starts at or before a byte, with its number. -/
def lineAt (lines : List Line) (byte : Nat) : Nat × Line :=
  let before := lines.takeWhile (·.span.start ≤ byte)
  (before.length, before.getLast?.getD ⟨"", ⟨0, 0⟩⟩)

/-- Blanks as wide as the line number, and one more. -/
def gutter (padding : Nat) : String := String.ofList (List.replicate (padding + 1) ' ')

/-- A note: its first line behind a sign, the others below it. -/
def note (padding : Nat) (text : String) : String :=
  String.join (((Document.mk "" text).lines).mapIdx fun i l =>
    gutter padding ++ (if i = 0 then "= " else "  ") ++ l.text ++ "\n")

/-- The part of a document that a span is about, with a label under it. -/
def snippet (d : Document) (span : Span) (label : String) : String × Nat :=
  let (number, line) := lineAt d.lines span.start
  let padding := (toString number).length
  let text := trimLine line.text
  let cells := measure line.span.start 0 text
  let column := (cells.filter fun (_, byte, _) => byte < span.start).length + 1
  let stop := line.span.start + Line.byteLength text
  let bar := gutter padding ++ "│"
  (gutter padding ++ "┌─ " ++ d.name ++ ":" ++ toString number ++ ":" ++ toString column ++ "\n" ++
    bar ++ "\n" ++
    toString number ++ " │ " ++ String.ofList (shown cells) ++ "\n" ++
    bar ++ " " ++ String.ofList (carets span stop cells) ++ " " ++ label ++ "\n" ++
    bar ++ "\n", padding)

/-- The whole text, with an empty line at its end. -/
def render (d : Document) (n : Notice) : String :=
  let (body, padding) := match n.span with
    | some span => snippet d span Notice.spanLabel
    | none => ("", 0)
  n.severity.name ++ ": " ++ n.message ++ "\n" ++ body ++
    String.join (n.notes.map (note padding)) ++ "\n"

end ChartValues.Diagnostic
