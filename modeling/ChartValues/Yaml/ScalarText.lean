import ChartValues.Yaml.Cursor

/-!
# The content of scalars

How the characters of a scalar become its content. Plain and quoted scalars fold their line breaks: one
break between two words is a space, further breaks stay. Block scalars keep their lines (`|`) or fold
them (`>`), and chomp the breaks at their end.
-/

namespace ChartValues.Yaml

/-- A scalar being read: its content so far and the blanks after it whose fate is still open. All
texts are kept back to front. -/
structure Folding where
  content : List Char := []
  /-- Spaces and tabs since the content, as long as no break has been seen. -/
  blanks : List Char := []
  /-- Whether a break has been seen since the content. -/
  broken : Bool := false
  /-- The first break since the content. -/
  first : List Char := []
  /-- The breaks after the first. -/
  more : List Char := []

namespace Folding

/-- The content with the blanks behind it folded in. -/
def joined (f : Folding) : List Char :=
  if f.broken then
    if f.first = ['\n'] then
      if f.more.isEmpty then ' ' :: f.content else f.more ++ f.content
    else f.more ++ f.first ++ f.content
  else f.blanks ++ f.content

def settle (f : Folding) : Folding := { content := f.joined }

def push (f : Folding) (ch : Char) : Folding := { content := ch :: f.joined }

def space (f : Folding) (ch : Char) : Folding :=
  if f.broken then f else { f with blanks := ch :: f.blanks }

def newline (f : Folding) (text : List Char) : Folding :=
  if f.broken then { f with more := text ++ f.more }
  else { f with blanks := [], first := text, broken := true }

end Folding

/-- Read spaces, tabs and breaks into the folding. A tab within the first `indent` columns of a later
line is an error. -/
def readBlanks (indent : Nat) : Nat → Cursor → Folding → Option (Cursor × Folding)
  | 0, c, f => some (c, f)
  | fuel + 1, c, f =>
    match c.rest with
    | [] => some (c, f)
    | ch :: _ =>
      if isSpace ch then
        if f.broken && c.column < indent && ch == '\t' then none
        else readBlanks indent fuel (c.advance 1) (f.space ch)
      else if isBreak ch then readBlanks indent fuel c.skipBreak (f.newline c.breakText)
      else some (c, f)

/-! ## Plain scalars -/

/-- Whether `ch`, with `next` behind it, ends a plain scalar. -/
def endsPlain (flow : Bool) (ch : Char) (next : Option Char) : Bool :=
  (ch == ':' && next.all fun n => isSpace n || isBreak n) ||
    (flow && (ch == ',' || ch == '[' || ch == ']' || ch == '\x7b' || ch == '\x7d'))

/-- Whether a colon stands right before a mark of flow style, which is an error. -/
def isStrayColon (flow : Bool) (ch : Char) (next : Option Char) : Bool :=
  flow && ch == ':' && next.any fun n =>
    n == ',' || n == '?' || n == '[' || n == ']' || n == '\x7b' || n == '\x7d'

/-- Read a run without blanks; also the number of its characters. -/
def plainRun (flow : Bool) (f : Folding) (count : Nat) : List Char → Option (Folding × Nat)
  | [] => some (f, count)
  | ch :: rest =>
    if isSpace ch || isBreak ch then some (f, count)
    else if isStrayColon flow ch rest.head? then none
    else if endsPlain flow ch rest.head? then some (f, count)
    else plainRun flow (f.push ch) (count + 1) rest

/-- Read a plain scalar whose later lines are indented by at least `indent` columns. -/
def readPlain (flow : Bool) (indent : Nat) : Nat → Cursor → Folding → Option (Cursor × Folding)
  | 0, c, f => some (c, f)
  | fuel + 1, c, f =>
    if c.atDocumentMarker || c.isAt 0 '#' then some (c, f)
    else
      match plainRun flow f 0 c.rest with
      | none => none
      | some (f, count) =>
        let c := c.advance count
        if !(c.atSpace || c.atBreak) then some (c, f)
        else
          match readBlanks indent (c.rest.length + 1) c f with
          | none => none
          | some (c, f) =>
            if !flow && c.column < indent then some (c, f) else readPlain flow indent fuel c f

/-! ## Quoted scalars -/

def hexNumber (n : Nat) (cs : List Char) : Option Nat :=
  if cs.length < n then none
  else (cs.take n).foldlM (fun value ch => (hexValue? ch).map (value * 16 + ·)) 0

/-- What a backslash escape stands for, given the characters behind the backslash, with the number of
characters it takes. -/
def unescape : List Char → Option (Char × Nat)
  | [] => none
  | ch :: rest =>
    let number (n : Nat) : Option (Char × Nat) :=
      (hexNumber n rest).bind fun value =>
        if (0xD800 ≤ value && value ≤ 0xDFFF) || 0x10FFFF < value then none
        else some (Char.ofNat value, n + 1)
    match ch with
    | '0' => some (Char.ofNat 0, 1)
    | 'a' => some (Char.ofNat 7, 1)
    | 'b' => some (Char.ofNat 8, 1)
    | 't' => some ('\t', 1)
    | '\t' => some ('\t', 1)
    | 'n' => some ('\n', 1)
    | 'v' => some (Char.ofNat 11, 1)
    | 'f' => some (Char.ofNat 12, 1)
    | 'r' => some ('\r', 1)
    | 'e' => some (Char.ofNat 27, 1)
    | ' ' => some (' ', 1)
    | '"' => some ('"', 1)
    | '/' => some ('/', 1)
    | '\\' => some ('\\', 1)
    | 'N' => some ('\u0085', 1)
    | '_' => some ('\u00A0', 1)
    | 'L' => some ('\u2028', 1)
    | 'P' => some ('\u2029', 1)
    | 'x' => number 2
    | 'u' => number 4
    | 'U' => number 8
    | _ => none

/-- Read the text behind an opening quote. -/
def readQuoted (single : Bool) : Nat → Cursor → Folding → Option (Cursor × Folding)
  | 0, _, _ => none
  | fuel + 1, c, f =>
    if c.atDocumentMarker then none
    else
      match c.rest with
      | [] => none
      | ch :: rest =>
        if isSpace ch || isBreak ch then
          match readBlanks 0 (c.rest.length + 1) c f with
          | none => none
          | some (c, f) => readQuoted single fuel c f.settle
        else if single then
          if ch = '\'' then
            if rest.head? = some '\'' then readQuoted single fuel (c.advance 2) (f.push '\'')
            else some (c.advance 1, f)
          else readQuoted single fuel (c.advance 1) (f.push ch)
        else if ch = '"' then some (c.advance 1, f)
        else if ch = '\\' then
          if rest.head?.any isBreak then
            match readBlanks 0 (c.rest.length + 1) (c.advance 1).skipBreak
                { f with broken := true } with
            | none => none
            | some (c, f) => readQuoted single fuel c f.settle
          else
            match unescape rest with
            | none => none
            | some (ch, count) => readQuoted single fuel (c.advance (count + 1)) (f.push ch)
        else readQuoted single fuel (c.advance 1) (f.push ch)

/-! ## Block scalars -/

/-- What becomes of the breaks at the end of a block scalar. -/
inductive Chomping where
  /-- One break is kept. -/
  | clip
  /-- No break is kept. -/
  | strip
  /-- All breaks are kept. -/
  | keep
  deriving DecidableEq, Repr

def readChomping (c : Cursor) : Option (Chomping × Cursor) :=
  if c.isAt 0 '+' then some (.keep, c.advance 1)
  else if c.isAt 0 '-' then some (.strip, c.advance 1)
  else none

/-- The indentation mark at the cursor; it must not be zero. -/
def readIncrement (c : Cursor) : Option (Option Nat × Cursor) :=
  match c.peek 0 with
  | some ch =>
    if ch.isDigit then
      if ch = '0' then none else some (some (ch.toNat - '0'.toNat), c.advance 1)
    else some (none, c)
  | none => some (none, c)

/-- The marks behind `|` or `>`: chomping and indentation, in either order. -/
def readHeader (c : Cursor) : Option (Chomping × Option Nat × Cursor) :=
  match readChomping c with
  | some (chomping, c) => (readIncrement c).map fun (increment, c) => (chomping, increment, c)
  | none =>
    (readIncrement c).map fun (increment, c) =>
      match increment, readChomping c with
      | some n, some (chomping, c) => (chomping, some n, c)
      | _, _ => (.clip, increment, c)

/-- Read the spaces of the indentation and empty lines. With no indentation known yet (`none`) all
leading spaces are read. Gives the breaks, back to front, and the greatest column reached. -/
def readIndentation (indent : Option Nat) :
    Nat → Cursor → (breaks : List Char) → (reached : Nat) → Option (Cursor × List Char × Nat)
  | 0, c, breaks, reached => some (c, breaks, reached)
  | fuel + 1, c, breaks, reached =>
    let available := (c.rest.takeWhile (· == ' ')).length
    let c := c.advance (match indent with
      | some n => min available (n - c.column)
      | none => available)
    let reached := max reached c.column
    if (indent.all fun n => c.column < n) && c.isAt 0 '\t' then none
    else if c.atBreak then
      readIndentation indent fuel c.skipBreak (c.breakText ++ breaks) reached
    else some (c, breaks, reached)

/-- Read the lines of a block scalar indented by `indent`. `content` is the text so far, `first` the
break of the last line and `more` the breaks behind it, all back to front; `spaced` tells whether the
last line started with a blank. -/
def readLines (literal : Bool) (indent : Nat) :
    Nat → Cursor → (content first more : List Char) → (spaced : Bool) →
      Option (Cursor × List Char × List Char × List Char)
  | 0, c, content, first, more, _ => some (c, content, first, more)
  | fuel + 1, c, content, first, more, spaced =>
    if c.column ≠ indent || c.atEnd then some (c, content, first, more)
    else
      let blank := c.atSpace
      -- A break becomes a blank only between two lines of which neither starts with one.
      let folded := !literal && first == ['\n'] && !spaced && !blank
      let content :=
        if folded then (if more.isEmpty then ' ' :: content else more ++ content)
        else more ++ first ++ content
      let line := c.rest.takeWhile fun ch => !isBreak ch
      let c := c.advance line.length
      match readIndentation (some indent) (c.rest.length + 1) c.skipBreak [] 0 with
      | none => none
      | some (next, more, _) =>
        readLines literal indent fuel next (line.reverse ++ content) c.breakText more blank

/-- Read a block scalar from behind its mark, `parent` being the indentation around it. -/
def readBlock (literal : Bool) (parent : Int) (c : Cursor) : Option (Cursor × List Char) := do
  let (chomping, increment, c) ← readHeader c
  let c ← c.finishLine
  let given := increment.map fun n => if 0 ≤ parent then parent.toNat + n else n
  let fuel := c.rest.length + 1
  let (c, more, reached) ← readIndentation given fuel c [] 0
  let indent := given.getD (max (max reached (parent + 1).toNat) 1)
  let (c, content, first, more) ← readLines literal indent fuel c [] [] more false
  let content := match chomping with
    | .clip => first ++ content
    | .strip => content
    | .keep => more ++ first ++ content
  return (c, content.reverse)

end ChartValues.Yaml
