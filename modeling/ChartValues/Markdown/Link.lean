import ChartValues.Markdown.Html
import ChartValues.Text.Punctuation

/-!
# Links in Markdown

Destinations, titles, labels and definitions. Only the text of a link is shown, so these readers tell
where a part ends and, for labels, which definition they name.
-/

namespace ChartValues.Markdown

open Text

/-- What follows a destination between angle brackets. -/
def afterBracketed : List Char → Option (List Char)
  | [] => none
  | '\\' :: c :: cs =>
    if isAsciiPunctuation c then afterBracketed cs else afterBracketed (c :: cs)
  | c :: cs =>
    if c = '>' then some cs
    else if c = '<' ∨ c = '\n' ∨ c = '\r' then none
    else afterBracketed cs

/-- What follows a destination without brackets, inside `depth` parentheses. -/
def afterPlain (depth : Nat) : List Char → Option (List Char)
  | [] => if depth = 0 then some [] else none
  | '\\' :: c :: cs =>
    if isAsciiPunctuation c then afterPlain depth cs else afterPlain depth (c :: cs)
  | c :: cs =>
    if c.toNat ≤ 0x20 then if depth = 0 then some (c :: cs) else none
    else if c = '(' then if 32 < depth then none else afterPlain (depth + 1) cs
    else if c = ')' then if depth = 0 then some (c :: cs) else afterPlain (depth - 1) cs
    else afterPlain depth cs

def afterDestination (cs : List Char) : Option (List Char) :=
  match cs with
  | '<' :: rest => afterBracketed rest
  | _ => afterPlain 0 cs

def afterTitleEnd (closing : Char) : List Char → Option (List Char)
  | [] => none
  | '\\' :: c :: cs =>
    if isAsciiPunctuation c then afterTitleEnd closing cs else afterTitleEnd closing (c :: cs)
  | c :: cs =>
    if c = closing then some cs
    else if closing = ')' ∧ c = '(' then none
    else afterTitleEnd closing cs

def afterTitle (cs : List Char) : Option (List Char) :=
  match cs with
  | '"' :: rest => afterTitleEnd '"' rest
  | '\'' :: rest => afterTitleEnd '\'' rest
  | '(' :: rest => afterTitleEnd ')' rest
  | _ => none

/-- What follows the destination and title of a link, both in parentheses. -/
def afterTarget (cs : List Char) : Option (List Char) :=
  match cs with
  | '(' :: rest => do
    let rest := (← afterDestination (rest.dropWhile isWhite)).dropWhile isWhite
    let rest := match afterTitle rest with
      | some rest => rest.dropWhile isWhite
      | none => rest
    match rest with
    | ')' :: rest => some rest
    | _ => none
  | _ => none

/-! ## Labels -/

/-- A letter in the case that labels are compared in. -/
def foldCase (c : Char) : List Char :=
  let n := c.toNat
  if (0x41 ≤ n && n ≤ 0x5A) || (0xC0 ≤ n && n ≤ 0xDE && n != 0xD7) || (0x391 ≤ n && n ≤ 0x3A9) ||
      (0x410 ≤ n && n ≤ 0x42F) then [Char.ofNat (n + 32)]
  else if 0x400 ≤ n && n ≤ 0x40F then [Char.ofNat (n + 80)]
  else if (0x100 ≤ n && n ≤ 0x12F) || (0x132 ≤ n && n ≤ 0x137) || (0x14A ≤ n && n ≤ 0x177) then
    [Char.ofNat (n + 1 - n % 2)]
  else if n == 0xDF || n == 0x1E9E then ['s', 's']
  else if n == 0x3C2 then [Char.ofNat 0x3C3]
  else [c]

def words (cs : List Char) : List (List Char) := (cs.splitOnP isWhite).filter (!·.isEmpty)

/-- The form in which labels are compared: runs of white space count as one blank, case not at all. -/
def normalize (label : List Char) : List Char :=
  List.intercalate [' '] ((words label).map (·.flatMap foldCase))

/-- The label up to its closing bracket and what follows that: at most 999 characters, not all blank, no
bracket inside. -/
def readLabel : Nat → List Char → List Char → Option (List Char × List Char)
  | 0, _, _ => none
  | _, _, [] => none
  | fuel + 1, acc, c :: cs =>
    if c = ']' then
      if acc.all isWhite || 999 < acc.length then none else some (acc.reverse, cs)
    else if c = '[' then none
    else if c = '\\' then
      match cs with
      | d :: rest =>
        if d = '[' ∨ d = ']' ∨ d = '\\' then readLabel fuel (d :: c :: acc) rest
        else readLabel fuel (c :: acc) cs
      | [] => none
    else readLabel fuel (c :: acc) cs

def label? (cs : List Char) : Option (List Char × List Char) := readLabel (cs.length + 1) [] cs

/-! ## Definitions -/

/-- What follows the end of a line behind spaces. -/
def afterLineEnd (cs : List Char) : Option (List Char) :=
  match cs.dropWhile isSpace with
  | [] => some []
  | '\n' :: rest => some rest
  | _ => none

/-- The definition that starts a paragraph: its label and the text behind it. The title, if there is
one, has to end its line; if it does not and stands in a line of its own, the definition goes without. -/
def definition? (cs : List Char) : Option (List Char × List Char) :=
  match cs with
  | '[' :: rest => do
    let (label, rest) ← label? rest
    match rest with
    | ':' :: rest =>
      let start := rest.dropWhile isWhite
      let rest ← afterDestination start
      if start.isEmpty || rest.length = start.length then none
      else
        let behind := rest.dropWhile isWhite
        let titled := if behind.length = rest.length then none
          else (afterTitle behind).bind afterLineEnd
        match titled with
        | some rest => some (normalize label, rest)
        | none => (afterLineEnd rest).map (normalize label, ·)
    | _ => none
  | _ => none

end ChartValues.Markdown
