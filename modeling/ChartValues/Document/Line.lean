import ChartValues.Text.Blank
import ChartValues.Text.Word

/-!
# Reading a line

What a single line of a values document says: how deep it is indented, whether it carries a key at
all, the chart an annotation names, the top-level key it opens, and the key before its first colon.
All recognisers work on the characters of the line.
-/

namespace ChartValues.Line

open ChartValues.Text

/-- The number of leading blanks. -/
def indentation (text : String) : Nat := (text.toList.takeWhile isBlank).length

/-- A line that carries no key: blank, or a comment from its first character on. -/
def isBlankOrComment (text : String) : Bool :=
  match trimStart text.toList with
  | [] => true
  | c :: _ => c == '#'

def isRefChar (c : Char) : Bool := isWord c || c == '-' || c == '.' || c == '/'

/-- The reference that follows a `#`: blanks, an `@` and a run of reference characters. -/
def refAfterHash (cs : List Char) : Option (List Char) :=
  match trimStart cs with
  | '@' :: rest =>
    match rest.takeWhile isRefChar with
    | [] => none
    | run => some run
  | _ => none

/-- The reference of the first `#` that is followed by one. -/
def chartRefChars : List Char → Option (List Char)
  | [] => none
  | c :: cs =>
    if c = '#' then
      match refAfterHash cs with
      | some run => some run
      -- A later `#` of the same line may still be followed by one.
      | none => chartRefChars cs
    else chartRefChars cs

/-- The chart that an annotation anywhere on the line names. -/
def chartRef (text : String) : Option String := (chartRefChars text.toList).map String.ofList

/-- What stands before the last colon of a run of characters. -/
def beforeLastColon : List Char → Option (List Char)
  | [] => none
  | c :: cs =>
    match beforeLastColon cs with
    | some key => some (c :: key)
    | none => if c = ':' then some [] else none

/-- The key of a line that starts with one: the longest blank-free, non-empty text that a colon
follows. Comments have none. -/
def topLevelKeyChars (cs : List Char) : Option (List Char) :=
  if cs.head? = some '#' then none
  else
    match beforeLastColon (cs.takeWhile fun c => !isBlank c) with
    | some (c :: key) => some (c :: key)
    | _ => none

/-- The key of a zero-indent `key:` line. -/
def topLevelKey (text : String) : Option String :=
  (topLevelKeyChars text.toList).map String.ofList

/-- What stands before the first colon, if there is a colon. -/
def beforeColon : List Char → Option (List Char)
  | [] => none
  | c :: cs => if c = ':' then some [] else (beforeColon cs).map (c :: ·)

/-- The key of a `key:` line at any depth: the trimmed text before the first colon. A line whose first
character is a colon has none. -/
def key (text : String) : Option String :=
  match beforeColon text.toList with
  | some (c :: cs) => some (String.ofList (trim (c :: cs)))
  | _ => none

/-- The key being typed: a text with no colon yet, trimmed; nothing if it is blank or a comment. -/
def bareKey (text : String) : Option String :=
  if text.toList.contains ':' then none
  else
    match trim text.toList with
    | [] => none
    | c :: cs => if c = '#' then none else some (String.ofList (c :: cs))

end ChartValues.Line
