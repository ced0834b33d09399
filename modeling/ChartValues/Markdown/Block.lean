import ChartValues.Markdown.Line
import ChartValues.Markdown.Link

/-!
# Blocks of Markdown

The structure of a text: paragraphs, headings, code, quotations and lists. `blocks` reads it line by
line with a stack of the open blocks that hold others; a line first goes through the open blocks it
continues, then opens new ones, and what is left belongs to a paragraph or another block of lines.
Blocks that show nothing (HTML, rules, definitions) leave no trace but the labels of definitions.
-/

namespace ChartValues.Markdown

/-- A block that shows something. -/
inductive Block where
  | paragraph (text : List Char)
  | heading (text : List Char)
  | code (lines : List (List Char))
  | quote (children : List Block)
  /-- Items; the paragraphs of a tight list stand without space around them. -/
  | list (tight : Bool) (items : List Block)
  | item (children : List Block)
  deriving Repr, Inhabited

/-- An open block that holds others. -/
inductive Container where
  | root
  | quote
  | list (mark : Char) (tight : Bool)
  | item (indent : Nat)
  deriving DecidableEq, Repr

/-- An open block with what it holds so far, the last first. -/
structure Frame where
  container : Container
  children : List Block := []

def Frame.close (f : Frame) : Block :=
  match f.container with
  | .list _ tight => .list tight f.children.reverse
  | .item _ => .item f.children.reverse
  | _ => .quote f.children.reverse

/-- A text read up to some line. -/
structure Builder where
  /-- The open blocks, the innermost first. -/
  stack : List Frame
  /-- Whether the line before was blank. -/
  afterBlank : Bool := false
  /-- Whether the innermost item has nothing but its mark. -/
  emptyItem : Bool := false
  labels : List (List Char) := []

namespace Builder

def add (b : Builder) (block : Block) : Builder :=
  match b.stack with
  | f :: rest => { b with stack := { f with children := block :: f.children } :: rest }
  | [] => b

def push (b : Builder) (c : Container) : Builder := { b with stack := ⟨c, []⟩ :: b.stack }

def top (b : Builder) : Container :=
  match b.stack with
  | f :: _ => f.container
  | [] => .root

def pop (b : Builder) : Builder :=
  match b.stack with
  | f :: g :: rest =>
    let emptyItem := match f.container with
      | .list _ true => false
      | _ => b.emptyItem
    { b with stack := { g with children := f.close :: g.children } :: rest, emptyItem }
  | _ => b

/-- Close blocks until `depth` are open inside the root. -/
def popTo (depth : Nat) : Nat → Builder → Builder
  | 0, b => b
  | n + 1, b => if depth + 1 < b.stack.length then popTo depth n b.pop else b

/-- Note that the list around the innermost item has space between its blocks. -/
def loosen (b : Builder) : Builder :=
  match b.stack with
  | f :: ⟨.list mark _, items⟩ :: rest => { b with stack := f :: ⟨.list mark false, items⟩ :: rest }
  | _ => b

/-- An item that starts with a blank line and goes on with another one holds nothing. -/
def finishEmptyItem (b : Builder) : Builder :=
  let b := match b.top with
    | .item _ => if b.emptyItem && b.afterBlank then b.pop else b
    | _ => b
  { b with emptyItem := false }

/-- Get ready for a block that is no item: close an open list, and note a blank line before the block. -/
def startBlock (b : Builder) : Builder :=
  let b := b.finishEmptyItem
  let b := match b.top with
    | .list _ _ => b.pop
    | _ => b
  if b.afterBlank then { b.loosen with afterBlank := false } else b

/-- Get ready for an item: go on with the open list if its mark is the same, else open a new one. -/
def startItem (b : Builder) (mark : Char) : Builder :=
  let b := b.finishEmptyItem
  let fresh (b : Builder) : Builder := { b.push (.list mark true) with afterBlank := false }
  match b.stack with
  | ⟨.list m tight, items⟩ :: rest =>
    if m = mark then
      { b with stack := ⟨.list m (tight && !b.afterBlank), items⟩ :: rest, afterBlank := false }
    else fresh b.startBlock
  | _ => fresh b.startBlock

/-- Note a blank line. An empty item with a blank line behind it takes nothing more. -/
def noteBlank (b : Builder) : Builder :=
  match b.stack with
  | ⟨.quote, _⟩ :: _ => b
  | ⟨.item indent, children⟩ :: rest =>
    let indent := if b.emptyItem then 0 else indent
    { b with stack := ⟨.item indent, children⟩ :: rest, afterBlank := true }
  | _ => { b with afterBlank := true }

end Builder

/-! ## Lines inside open blocks -/

/-- How many of the open blocks, outermost first, a line continues, and the place behind their marks. -/
def enter : List Container → Cursor → Nat × Cursor
  | [], c => (0, c)
  | container :: inner, c =>
    let next (c : Cursor) : Nat × Cursor :=
      let (n, c) := enter inner c
      (n + 1, c)
    match container with
    | .quote =>
      match (c.skip 3).2.quoteMark? with
      | some c => next c
      | none => (0, c)
    | .item indent =>
      let (missing, behind) := c.skip indent
      if missing = 0 || behind.atEnd then next behind else (0, c)
    | _ => next c

/-- The open blocks inside the root, outermost first. -/
def Builder.containers (b : Builder) : List Container :=
  ((b.stack.map Frame.container).reverse).drop 1

/-- The place in a line that continues all open blocks. -/
def inside? (open_ : List Container) (l : Line) : Option Cursor :=
  let (n, c) := enter open_ ⟨l.text, 0, 0⟩
  if n = open_.length then some c else none

/-- The lines that one line of code shows: columns of a broken tab stand in a line of their own, and so
does an end of line of two characters. -/
def codeLines (c : Cursor) (ending : LineEnding) : List (List Char) :=
  let blanks := if 0 < c.pending then [List.replicate c.pending ' '] else []
  blanks ++
    match ending with
    | .feed => [c.rest]
    | .returnFeed => if c.rest.isEmpty then [[]] else [c.rest, []]
    | .none => if c.rest.isEmpty then [] else [c.rest]

/-- The lines of fenced code and what follows its end. -/
def readFenced (open_ : List Container) (indent : Nat) (fence : Char × Nat) :
    List Line → List (List Char) × List Line
  | [] => ([], [])
  | l :: ls =>
    match inside? open_ l with
    | none => ([], l :: ls)
    | some c =>
      let (missing, unindented) := c.skip 4
      if 0 < missing && closesFence fence unindented.rest then ([], ls)
      else
        let (more, rest) := readFenced open_ indent fence ls
        (codeLines (c.skip indent).2 l.ending ++ more, rest)

/-- The lines of indented code, whether blank lines follow it, and the lines behind. `blanks` are blank
lines that count only if more code follows. -/
def readIndented (open_ : List Container) (blanks : List (List Char)) :
    List Line → List (List Char) × Bool × List Line
  | [] => ([], !blanks.isEmpty, [])
  | l :: ls =>
    match inside? open_ l with
    | none => ([], !blanks.isEmpty, l :: ls)
    | some c =>
      let (missing, behind) := c.skip 4
      if missing = 0 || behind.atEnd then
        let shown := codeLines behind l.ending
        if behind.isBlank then readIndented open_ (blanks ++ shown) ls
        else
          let (more, blank, rest) := readIndented open_ [] ls
          (blanks ++ shown ++ more, blank, rest)
      else ([], !blanks.isEmpty, l :: ls)

/-- The lines behind a block of HTML whose latest line is `line`. -/
def afterHtmlBlock (open_ : List Container) (stop : BlockEnd) (line : List Char) :
    List Line → List Line
  | [] => []
  | l :: ls =>
    let ends := match stop with
      | .text closing => occurs closing.toList line
      | .blankLine => false
    if ends then l :: ls
    else
      match inside? open_ l with
      | none => l :: ls
      | some c =>
        if stop = .blankLine && c.isBlank then l :: ls else afterHtmlBlock open_ stop c.rest ls

/-- The further lines of a paragraph, whether an underline follows them, and the lines behind. -/
def readParagraph (open_ : List Container) : List Line → List (List Char) × Bool × List Line
  | [] => ([], false, [])
  | l :: ls =>
    let (n, c) := enter open_ ⟨l.text, 0, 0⟩
    let inside := n == open_.length
    let (missing, behind) := c.skip 4
    if 0 < missing && inside && isUnderline behind.rest then ([], true, ls)
    else if 0 < missing && interrupts inside behind then ([], false, l :: ls)
    else
      let text := c.skipAll
      if text.isEmpty then ([], false, l :: ls)
      else
        let (more, underlined, rest) := readParagraph open_ ls
        (text :: more, underlined, rest)

/-- The text of lines without the blanks at its end that would break the last line. -/
def joinLines (lines : List (List Char)) : List Char :=
  let text := List.intercalate ['\n'] lines
  let bare := (text.reverse.dropWhile isSpace).reverse
  if bare.length + 2 ≤ text.length then bare else text

/-! ## Reading -/

/-- Open the blocks whose marks stand at a place. `none` if the line ends behind an item's mark. -/
def openBlocks : Nat → Builder → Cursor → Builder × Option Cursor
  | 0, b, c => (b, some c)
  | fuel + 1, b, c =>
    let (missing, behind) := c.skip 4
    if missing = 0 then (b, some c)
    else
      match listMark? (4 - missing) behind with
      | some (mark, behind) =>
        let b := (b.startItem mark.char).push (.item mark.indent)
        if behind.isBlank then ({ b with emptyItem := true }, none) else openBlocks fuel b behind
      | none =>
        match behind.quoteMark? with
        | some behind => openBlocks fuel (b.startBlock.push .quote) behind
        | none => (b, some c)

/-- Read the block of lines that starts with `l` at a place indented by `indent` columns. -/
def readLeaf (b : Builder) (c : Cursor) (indent : Nat) (l : Line) (ls : List Line) :
    Builder × List Line :=
  let b := b.startBlock
  let open_ := b.containers
  match htmlEnd c.rest with
  | some stop => (b, afterHtmlBlock open_ stop c.rest ls)
  | none =>
    if isRule c.rest then (b, ls)
    else
      match headingLevel? c.rest with
      | some level => (b.add (.heading (headingText level c.rest)), ls)
      | none =>
        match fence? c.rest with
        | some fence =>
          let (code, rest) := readFenced open_ indent fence ls
          (b.add (.code code), rest)
        | none =>
          let (more, underlined, rest) := readParagraph open_ ls
          let lines := c.rest :: more
          match definition? (List.intercalate ['\n'] lines) with
          | some (label, behind) =>
            -- Lines behind the definition are read again, as a block of their own.
            let left := if behind.isEmpty then 0 else behind.count '\n' + 1
            ({ b with labels := label :: b.labels }, (l :: ls).drop (lines.length - left))
          | none =>
            let text := joinLines lines
            (b.add (if underlined then .heading text else .paragraph text), rest)

def readBlock (b : Builder) (l : Line) (ls : List Line) : Builder × List Line :=
  let (n, c) := enter b.containers ⟨l.text, 0, 0⟩
  let b := b.popTo n b.stack.length
  match openBlocks (l.text.length + 1) b c with
  | (b, none) => (b, ls)
  | (b, some c) =>
    if c.isBlank then (b.noteBlank, ls)
    else
      let (missing, behind) := c.skip 4
      if missing = 0 then
        let b := { b.startBlock with afterBlank := false }
        let (more, blank, rest) := readIndented b.containers [] ls
        ({ b.add (.code (codeLines behind l.ending ++ more)) with afterBlank := blank }, rest)
      else readLeaf b behind (4 - missing) l ls

def readBlocks : Nat → Builder → List Line → Builder
  | 0, b, _ => b
  | _, b, [] => b
  | fuel + 1, b, l :: ls =>
    let (b, rest) := readBlock b l ls
    readBlocks fuel b rest

/-- The blocks of a text and the labels that have definitions. -/
def blocks (text : List Char) : List Block × List (List Char) :=
  let lines := Line.ofText [] text
  let b := readBlocks (lines.length + 1) { stack := [⟨.root, []⟩] } lines
  let b := b.popTo 0 b.stack.length
  match b.stack with
  | f :: _ => (f.children.reverse, b.labels)
  | [] => ([], b.labels)

end ChartValues.Markdown
