import ChartValues.Markdown.Entity
import ChartValues.Markdown.Link
import ChartValues.Text.Blank

/-!
# Markdown inside a block

What the text of a paragraph or a heading shows once its markup is read: plain text, code and ends of
lines. Emphasis, links and images leave the text they hold, HTML leaves nothing, escapes and named
characters become what they stand for. `spans` does the reading: first to nodes, among them runs of
delimiters and opening brackets, which are then matched.
-/

namespace ChartValues.Markdown

open Text

inductive Span where
  | text (cs : List Char)
  | code (cs : List Char)
  | lineEnd
  deriving DecidableEq, Repr

/-- A run of `*` or `_`. -/
structure Delimiter where
  char : Char
  /-- The characters not yet used by emphasis. -/
  count : Nat
  /-- The characters of the whole run. -/
  length : Nat
  canOpen : Bool
  canClose : Bool
  deriving DecidableEq, Repr

/-- A node before delimiters are matched. -/
inductive Node where
  | span (s : Span)
  | delimiter (d : Delimiter)
  /-- The bracket that may open a link or an image. -/
  | bracket (image : Bool)
  deriving DecidableEq, Repr

/-! ## Emphasis -/

/-- Whether a run that may open and one that may close emphasis belong together: of runs that may do
both, lengths that sum to a multiple of three do not unless both are such. -/
def Delimiter.pairs (opener closer : Delimiter) : Bool :=
  opener.char == closer.char && opener.canOpen && opener.count != 0 &&
    !((opener.canClose || closer.canOpen) && closer.length % 3 != 0 &&
      (opener.length + closer.length) % 3 == 0)

/-- Split off the nearest run before a closer that pairs with it; `before` has the nearest first. What
lies between the two can no longer match. -/
def nearestOpener (closer : Delimiter) :
    List Node → List Node → Option (List Node × Delimiter × List Node)
  | _, [] => none
  | between, .delimiter d :: rest =>
    if d.pairs closer then some (between.reverse, d, rest)
    else nearestOpener closer (.delimiter d :: between) rest
  | between, n :: rest => nearestOpener closer (n :: between) rest

/-- A node that can no longer match. -/
def Node.settle : Node → Node
  | delimiter d => .span (.text (List.replicate d.count d.char))
  | n => n

/-- Use up a closing run: `before` are the nodes before it, nearest first. -/
def closeRun : Nat → Delimiter → List Node → List Node
  | 0, closer, before => .delimiter closer :: before
  | fuel + 1, closer, before =>
    if closer.count = 0 then before
    else
      match nearestOpener closer [] before with
      | none => (if closer.canOpen then .delimiter closer else (Node.delimiter closer).settle) :: before
      | some (between, opener, rest) =>
        -- Two characters of each run make strong emphasis, one of each makes emphasis.
        let used := if 2 ≤ opener.count ∧ 2 ≤ closer.count then 2 else 1
        let opener := { opener with count := opener.count - used }
        closeRun fuel { closer with count := closer.count - used }
          (between.map Node.settle ++ .delimiter opener :: rest)

/-- Match the delimiters of nodes from left to right; the result has the last node first. -/
def matchRuns : List Node → List Node → List Node
  | before, [] => before
  | before, .delimiter d :: rest =>
    if d.canClose then matchRuns (closeRun (d.count + 1) d before) rest
    else matchRuns (.delimiter d :: before) rest
  | before, n :: rest => matchRuns (n :: before) rest

def resolve (nodes : List Node) : List Node := (matchRuns [] nodes).reverse.map Node.settle

def Node.toSpan : Node → Span
  | span s => s
  | delimiter d => .text (List.replicate d.count d.char)
  | bracket image => .text (if image then ['!', '['] else ['['])

/-! ## Reading -/

/-- Whether a run between two characters may open and close emphasis. -/
def flanking (char before after : Char) : Bool × Bool :=
  let left := !isBlank after && (!isPunctuation after || isBlank before || isPunctuation before)
  let right := !isBlank before && (!isPunctuation before || isBlank after || isPunctuation after)
  if char = '_' then
    (left && (!right || isPunctuation before), right && (!left || isPunctuation after))
  else (left, right)

/-- The text before a run of exactly `count` backticks, and what follows that run. -/
def codeEnd (count : Nat) : Nat → List Char → List Char → Option (List Char × List Char)
  | 0, _, _ => none
  | _, _, [] => none
  | fuel + 1, acc, c :: cs =>
    if c = '\x60' then
      let run := ((c :: cs).takeWhile (· == '\x60')).length
      if run = count then some (acc.reverse, (c :: cs).drop run)
      else codeEnd count fuel (List.replicate run '\x60' ++ acc) ((c :: cs).drop run)
    else codeEnd count fuel (c :: acc) cs

/-- The content of a code span: ends of lines are blanks, and one blank goes at either end if there is
one at both and something else between. -/
def codeContent (cs : List Char) : List Char :=
  let cs := cs.map fun c => if c = '\n' then ' ' else c
  if cs.all (· == ' ') then cs
  else
    match cs, cs.getLast? with
    | ' ' :: rest, some ' ' => rest.dropLast
    | _, _ => cs

def entity? (cs : List Char) : Option (List Char × List Char) :=
  let numeric (digits : List Char) (most base : Nat) (rest : List Char) :
      Option (List Char × List Char) :=
    let n := digits.foldl (fun n c => n * base +
      (if c.isDigit then c.toNat - 48 else c.toLower.toNat - 87)) 0
    match rest with
    | ';' :: rest =>
      if digits.isEmpty || most < digits.length then none
      else if n = 0 then some (['\uFFFD'], rest)
      else if n.isValidChar then some ([Char.ofNat n], rest)
      else none
    | _ => none
  let isHex (c : Char) : Bool := c.isDigit || ('a' ≤ c.toLower && c.toLower ≤ 'f')
  match cs with
  | '#' :: x :: rest =>
    if x = 'x' ∨ x = 'X' then
      let digits := rest.takeWhile isHex
      numeric digits 6 16 (rest.drop digits.length)
    else
      let digits := (x :: rest).takeWhile Char.isDigit
      numeric digits 7 10 ((x :: rest).drop digits.length)
  | _ =>
    let name := cs.takeWhile Char.isAlphanum
    match cs.drop name.length with
    | ';' :: rest => (namedCharacter? (String.ofList name)).map (·, rest)
    | _ => none

def isAddressChar (c : Char) : Bool :=
  c.isAlphanum || ".!#$%&'*+/=?^_\x60\x7b|\x7d~-".toList.contains c

/-- Whether a text is a name of a host: parts of letters, digits and inner dashes. -/
def isHost (cs : List Char) : Bool :=
  (cs.splitOnP (· == '.')).all fun part =>
    !part.isEmpty && part.length ≤ 63 && part.all (fun c => c.isAlphanum || c == '-') &&
      part.head? != some '-' && part.getLast? != some '-'

/-- The text of a link between angle brackets, behind the opening one, and what follows. -/
def autolink? (cs : List Char) : Option (List Char × List Char) :=
  let inner := cs.takeWhile fun c => c != '>' && c != '<' && 0x20 < c.toNat
  match cs.drop inner.length with
  | '>' :: rest =>
    let scheme := inner.takeWhile fun c => c.isAlphanum || c == '+' || c == '.' || c == '-'
    let isUri := inner[scheme.length]? == some ':' && 2 ≤ scheme.length && scheme.length ≤ 32 &&
      scheme.head?.any Char.isAlpha
    let address := inner.takeWhile isAddressChar
    let isAddress := !address.isEmpty && inner[address.length]? == some '@' &&
      isHost (inner.drop (address.length + 1))
    if isUri || isAddress then some (inner, rest) else none
  | _ => none

/-- An opening bracket that may still be matched. -/
structure OpenBracket where
  image : Bool
  active : Bool
  /-- The number of nodes before the bracket's own. -/
  index : Nat
  /-- The text behind the bracket. -/
  rest : List Char
  deriving Repr

/-- A text in the course of being read. -/
structure Reading where
  /-- The nodes so far, the last one first. -/
  nodes : List Node := []
  brackets : List OpenBracket := []
  /-- The character before the rest of the text. -/
  previous : Char := '\n'

namespace Reading

def push (r : Reading) (n : Node) (previous : Char) : Reading :=
  { r with nodes := n :: r.nodes, previous }

def pushText (r : Reading) (cs : List Char) (previous : Char) : Reading :=
  r.push (.span (.text cs)) previous

/-- Turn the nodes behind a bracket into the text of a link, if it is one. -/
def link (r : Reading) (b : OpenBracket) (outer : List OpenBracket) : Reading :=
  let inner := r.nodes.take (r.nodes.length - b.index - 1)
  let before := r.nodes.drop (r.nodes.length - b.index)
  let outer := if b.image then outer
    else outer.map fun o => if o.image then o else { o with active := false }
  { nodes := (resolve inner.reverse).reverse ++ before, brackets := outer, previous := ']' }

end Reading

/-- What follows a link's end behind its closing bracket: a target, a label of a definition, or nothing
if the link's own text is such a label. -/
def afterLink (defined : List Char → Bool) (text rest : List Char) : Option (List Char) :=
  let ownText := match label? (text ++ [']']) with
    | some (label, []) => defined (normalize label)
    | _ => false
  (afterTarget rest).or <|
    match rest with
    | '[' :: ']' :: behind => if ownText then some behind else none
    | '[' :: behind =>
      match label? behind with
      | some (label, behind) => if defined (normalize label) then some behind else none
      | none => if ownText then some rest else none
    | _ => if ownText then some rest else none

def read (defined : List Char → Bool) : Nat → Reading → List Char → Reading
  | 0, r, _ => r
  | _, r, [] => r
  | fuel + 1, r, c :: cs =>
    if c = '\\' then
      match cs with
      | '\n' :: rest => read defined fuel (r.push (.span .lineEnd) '\n') rest
      | d :: rest =>
        if isAsciiPunctuation d then read defined fuel (r.pushText [d] d) rest
        else read defined fuel (r.pushText [c] c) cs
      | [] => r.pushText [c] c
    else if c = '\x60' then
      let run := ((c :: cs).takeWhile (· == '\x60')).length
      let rest := (c :: cs).drop run
      match codeEnd run (rest.length + 1) [] rest with
      | some (content, rest) =>
        read defined fuel (r.push (.span (.code (codeContent content))) '\x60') rest
      | none => read defined fuel (r.pushText (List.replicate run c) c) rest
    else if c = '<' then
      match autolink? cs with
      | some (text, rest) => read defined fuel (r.pushText text '>') rest
      | none =>
        match afterHtml (c :: cs) with
        | some rest => read defined fuel { r with previous := '>' } rest
        | none => read defined fuel (r.pushText [c] c) cs
    else if c = '&' then
      match entity? cs with
      | some (text, rest) => read defined fuel (r.pushText text ';') rest
      | none => read defined fuel (r.pushText [c] c) cs
    else if c = '*' ∨ c = '_' then
      let run := ((c :: cs).takeWhile (· == c)).length
      let rest := (c :: cs).drop run
      let (canOpen, canClose) := flanking c r.previous (rest.head?.getD '\n')
      let d : Delimiter := ⟨c, run, run, canOpen, canClose⟩
      read defined fuel (r.push (.delimiter d) c) rest
    else if c = '!' ∧ cs.head? = some '[' then
      let b : OpenBracket := ⟨true, true, r.nodes.length, cs.drop 1⟩
      read defined fuel { r.push (.bracket true) '[' with brackets := b :: r.brackets } (cs.drop 1)
    else if c = '[' then
      let b : OpenBracket := ⟨false, true, r.nodes.length, cs⟩
      read defined fuel { r.push (.bracket false) '[' with brackets := b :: r.brackets } cs
    else if c = ']' then
      match r.brackets with
      | [] => read defined fuel (r.pushText [c] c) cs
      | b :: outer =>
        let text := b.rest.take (b.rest.length - cs.length - 1)
        match if b.active then afterLink defined text cs else none with
        | some rest => read defined fuel (r.link b outer) rest
        | none => read defined fuel { r.pushText [c] c with brackets := outer } cs
    else if c = '\n' then read defined fuel (r.push (.span .lineEnd) c) cs
    else if c = Char.ofNat 0 then read defined fuel (r.pushText ['\uFFFD'] c) cs
    else if isSpace c then
      let run := (c :: cs).takeWhile isSpace
      let rest := (c :: cs).drop run.length
      if rest.head? = some '\n' ∧ 2 ≤ run.length then read defined fuel { r with previous := c } rest
      else read defined fuel (r.pushText run c) rest
    else
      let plain := cs.takeWhile fun c => c.isAlphanum
      read defined fuel (r.pushText (c :: plain) (plain.getLast?.getD c)) (cs.drop plain.length)

/-- What a text shows; `defined` tells which labels have a definition. -/
def spans (defined : List Char → Bool) (text : List Char) : List Span :=
  (resolve (read defined (text.length + 1) {} text).nodes.reverse).map Node.toSpan

end ChartValues.Markdown
