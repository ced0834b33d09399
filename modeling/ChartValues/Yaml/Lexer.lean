import ChartValues.Yaml.ScalarText
import ChartValues.Yaml.Token

/-!
# Cutting a YAML text into tokens

The lexer keeps the indentation of the open block collections, the depth of flow collections, and for
each flow level the place of a token that may turn out to be a key: only the colon behind it tells, so
the key's own token is put into the list of tokens after the fact.

Main statement of the module: `tokens`, which is `none` if the text is malformed.
-/

namespace ChartValues.Yaml

/-- A token that becomes a key if a colon follows it on the same line. -/
structure KeyPlace where
  /-- Whether a colon has to follow. -/
  required : Bool
  /-- How many tokens stand before it. -/
  number : Nat
  index : Nat
  line : Nat
  column : Nat
  deriving Repr

/-- The state of the lexer between two tokens. -/
structure Lexer where
  cursor : Cursor
  /-- The tokens so far, the last one first. -/
  tokens : List Token := []
  /-- The number of tokens so far. -/
  count : Nat := 0
  /-- The column of the innermost open block collection. -/
  indent : Int := -1
  /-- The columns of the collections around it. -/
  outer : List Int := []
  flowLevel : Nat := 0
  /-- Whether a key may start here. -/
  keyAllowed : Bool := true
  /-- The possible key of the current flow level. -/
  keyPlace : Option KeyPlace := none
  /-- The possible keys of the levels around it. -/
  outerKeys : List (Option KeyPlace) := []

namespace Lexer

/-! ## Tokens and indentation -/

def emit (l : Lexer) (t : Token) : Lexer := { l with tokens := t :: l.tokens, count := l.count + 1 }

/-- Put `t` behind the first `depth` elements. -/
def insertBehind (t : Token) : Nat → List Token → List Token
  | 0, ts => t :: ts
  | _ + 1, [] => [t]
  | depth + 1, u :: ts => u :: insertBehind t depth ts

/-- Put a token before the one numbered `number`. -/
def insertAt (l : Lexer) (number : Nat) (t : Token) : Lexer :=
  { l with tokens := insertBehind t (l.count - number) l.tokens, count := l.count + 1 }

/-- Close the block collections that start right of `column`. -/
def unrollTo (column : Int) : Lexer → List Int → Lexer
  | l, [] => l
  | l, indent :: outer =>
    if column < l.indent then
      unrollTo column { l.emit .blockEnd with indent := indent, outer := outer } outer
    else l

/-- Close the block collections that start right of `column`; in flow style none is open. -/
def unroll (l : Lexer) (column : Int) : Lexer :=
  if l.flowLevel = 0 then unrollTo column l l.outer else l

/-- Open a block collection at `column` if it is right of the innermost one, putting its token before
the one numbered `number`, or at the end. -/
def roll (l : Lexer) (column : Nat) (number : Option Nat) (t : Token) : Lexer :=
  if l.flowLevel = 0 ∧ l.indent < column then
    let l := { l with indent := column, outer := l.indent :: l.outer }
    match number with
    | some n => l.insertAt n t
    | none => l.emit t
  else l

/-! ## Possible keys -/

/-- Forget the possible key of this level; an error if it had to be one. -/
def dropKey (l : Lexer) : Option Lexer :=
  match l.keyPlace with
  | some place => if place.required then none else some { l with keyPlace := none }
  | none => some l

/-- The next token as a possible key. It has to be one where the innermost block collection starts. -/
def placeHere (l : Lexer) : KeyPlace where
  required := l.flowLevel = 0 ∧ l.indent = l.cursor.column
  number := l.count
  index := l.cursor.index
  line := l.cursor.line
  column := l.cursor.column

def saveKey (l : Lexer) : Option Lexer :=
  if l.keyAllowed then (l.dropKey).map fun l => { l with keyPlace := some l.placeHere } else some l

/-- A key lies on one line and is at most 1024 bytes long. -/
def isOutdated (c : Cursor) (place : KeyPlace) : Bool :=
  place.line < c.line || place.index + 1024 < c.index

/-- Forget a key that is out of reach; an error if it had to be one. -/
def refreshKey (c : Cursor) : Option KeyPlace → Option (Option KeyPlace)
  | none => some none
  | some place =>
    if isOutdated c place then (if place.required then none else some none) else some (some place)

def refreshKeys (l : Lexer) : Option Lexer := do
  let place ← refreshKey l.cursor l.keyPlace
  let outer ← l.outerKeys.mapM (refreshKey l.cursor)
  return { l with keyPlace := place, outerKeys := outer }

/-! ## Space between tokens -/

/-- Move past spaces, comments and line breaks. Tabs count as space where no key may start. A byte order mark at the
start of the text is passed over too, but stands in a column of its own. -/
def skipToToken : Nat → Lexer → Lexer
  | 0, l => l
  | fuel + 1, l =>
    let c := if l.cursor.index = 0 ∧ l.cursor.isAt 0 '\uFEFF' then l.cursor.advance 1 else l.cursor
    let tabs := l.flowLevel ≠ 0 || !l.keyAllowed
    let c := (c.skipWhile fun ch => ch == ' ' || (tabs && ch == '\t')).skipComment
    if c.atBreak then
      skipToToken fuel
        { l with cursor := c.skipBreak, keyAllowed := l.keyAllowed || l.flowLevel = 0 }
    else { l with cursor := c }

/-! ## Indicators -/

/-- Take `n` characters as the token `t`. -/
def take (l : Lexer) (n : Nat) (t : Token) : Lexer :=
  { l.emit t with cursor := l.cursor.advance n }

/-- The mark that starts or ends a document. -/
def documentMarker (l : Lexer) (t : Token) : Option Lexer :=
  ((l.unroll (-1)).dropKey).map fun l => { l with keyAllowed := false }.take 3 t

def flowStart (l : Lexer) (t : Token) : Option Lexer :=
  (l.saveKey).map fun l =>
    { l with
      keyPlace := none
      outerKeys := l.keyPlace :: l.outerKeys
      flowLevel := l.flowLevel + 1
      keyAllowed := true }.take 1 t

def flowEnd (l : Lexer) (t : Token) : Option Lexer :=
  (l.dropKey).map fun l =>
    let l := match l.flowLevel, l.outerKeys with
      | level + 1, place :: outer =>
        { l with flowLevel := level, keyPlace := place, outerKeys := outer }
      | _, _ => l
    { l with keyAllowed := false }.take 1 t

def flowEntry (l : Lexer) : Option Lexer :=
  (l.dropKey).map fun l => { l with keyAllowed := true }.take 1 .flowEntry

def blockEntry (l : Lexer) : Option Lexer :=
  if l.flowLevel = 0 ∧ !l.keyAllowed then none
  else
    ((l.roll l.cursor.column none .blockSequenceStart).dropKey).map fun l =>
      { l with keyAllowed := true }.take 1 .blockEntry

def explicitKey (l : Lexer) : Option Lexer :=
  if l.flowLevel = 0 ∧ !l.keyAllowed then none
  else
    ((l.roll l.cursor.column none .blockMappingStart).dropKey).map fun l =>
      { l with keyAllowed := l.flowLevel = 0 }.take 1 .key

/-- The colon of a value: the possible key of this level becomes one. -/
def colon (l : Lexer) : Option Lexer :=
  match l.keyPlace with
  | some place =>
    -- The key has been read already: its own token, and that of a mapping it starts, go before it.
    let l := l.insertAt place.number .key
    let l := l.roll place.column (some place.number) .blockMappingStart
    some ({ l with keyPlace := none, keyAllowed := false }.take 1 .value)
  | none =>
    if l.flowLevel = 0 ∧ !l.keyAllowed then none
    else
      let l := l.roll l.cursor.column none .blockMappingStart
      some ({ l with keyAllowed := l.flowLevel = 0 }.take 1 .value)

/-! ## Names, tags and directives -/

def readName (c : Cursor) : String × Cursor :=
  let name := c.rest.takeWhile isNameChar
  (String.ofList name, c.advance name.length)

/-- An anchor or an alias, from its mark on. -/
def anchor (l : Lexer) (make : String → Token) : Option Lexer := do
  let l ← l.saveKey
  let (name, c) := readName (l.cursor.advance 1)
  let ends := c.blankAt 0 || (c.peek 0).any fun ch =>
    ch == '?' || ch == ':' || ch == ',' || ch == ']' || ch == '\x7d' || ch == '%' || ch == '@' ||
      ch == '\x60'
  if name.isEmpty || !ends then none
  else some ({ l with keyAllowed := false, cursor := c }.emit (make name))

/-- The characters of a tag beside name characters; inside angle brackets also commas and square
brackets. -/
def isTagChar (verbatim : Bool) (ch : Char) : Bool :=
  isNameChar ch || ";/?:@&=+$.%!~*'()".toList.contains ch ||
    (verbatim && (ch == ',' || ch == '[' || ch == ']'))

/-- The octet written as `%XX`. -/
def readOctet : List Char → Option UInt8
  | '%' :: a :: b :: _ => do return (16 * (← hexValue? a) + (← hexValue? b)).toUInt8
  | _ => none

/-- How many octets the UTF-8 sequence of a lead octet has. -/
def sequenceLength (b : UInt8) : Option Nat :=
  if b < 0x80 then some 1
  else if 0xC0 ≤ b && b < 0xE0 then some 2
  else if 0xE0 ≤ b && b < 0xF0 then some 3
  else if 0xF0 ≤ b && b < 0xF8 then some 4
  else none

def readTail : Nat → List Char → Option (List UInt8)
  | 0, _ => some []
  | n + 1, cs => do
    let b ← readOctet cs
    if 0x80 ≤ b && b ≤ 0xBF then return b :: (← readTail n (cs.drop 3)) else none

/-- Read the characters of a tag, decoding escaped octets. -/
def readTagChars (verbatim : Bool) : Nat → Cursor → List UInt8 → Option (Cursor × List UInt8)
  | 0, c, bytes => some (c, bytes)
  | fuel + 1, c, bytes =>
    match c.rest with
    | [] => some (c, bytes)
    | ch :: _ =>
      if !isTagChar verbatim ch then some (c, bytes)
      else if ch = '%' then do
        let lead ← readOctet c.rest
        let n ← sequenceLength lead
        let tail ← readTail (n - 1) (c.rest.drop 3)
        readTagChars verbatim fuel (c.advance (3 * n)) (bytes ++ lead :: tail)
      else readTagChars verbatim fuel (c.advance 1) (bytes ++ (String.ofList [ch]).toUTF8.toList)

/-- Read a tag's text; with nothing before it, it must not be empty. -/
def readTagText (verbatim : Bool) (head : String) (c : Cursor) : Option (String × Cursor) := do
  let (c', bytes) ← readTagChars verbatim (c.rest.length + 1) c []
  if head.isEmpty && bytes.isEmpty then none
  else
    let text ← String.fromUTF8? ⟨bytes.toArray⟩
    return ((head.drop 1).toString ++ text, c')

/-- Read a handle: an exclamation mark, name characters and, if it is there, a second mark. -/
def readHandle (c : Cursor) : Option (String × Cursor) :=
  if !c.isAt 0 '!' then none
  else
    let (name, c) := readName (c.advance 1)
    if c.isAt 0 '!' then some ("!" ++ name ++ "!", c.advance 1) else some ("!" ++ name, c)

/-- The two parts of a tag: the handle and the rest. -/
def readTag (c : Cursor) : Option (String × String × Cursor) :=
  if c.isAt 1 '<' then do
    let (suffix, c) ← readTagText true "" (c.advance 2)
    if c.isAt 0 '>' then return ("", suffix, c.advance 1) else none
  else do
    let (handle, c) ← readHandle c
    if handle.length > 1 && handle.endsWith "!" then
      let (suffix, c) ← readTagText false "" c
      return (handle, suffix, c)
    else
      let (suffix, c) ← readTagText false handle c
      return if suffix.isEmpty then ("", "!", c) else ("!", suffix, c)

def tag (l : Lexer) : Option Lexer := do
  let l ← l.saveKey
  let (handle, suffix, c) ← readTag l.cursor
  if (l.flowLevel ≠ 0 && c.isAt 0 ',') || c.blankAt 0 then
    return { l with keyAllowed := false, cursor := c }.emit (.tag handle suffix)
  else none

/-- A number of at most nine digits. -/
def readNumber (c : Cursor) : Option (Nat × Cursor) :=
  let digits := c.rest.takeWhile Char.isDigit
  if digits.isEmpty || 9 < digits.length then none
  else some (digits.foldl (fun n ch => n * 10 + (ch.toNat - '0'.toNat)) 0, c.advance digits.length)

def readVersion (c : Cursor) : Option (Token × Cursor) := do
  let (major, c) ← readNumber c.skipSpaces
  if c.isAt 0 '.' then
    let (minor, c) ← readNumber (c.advance 1)
    return (.version major minor, c)
  else none

def readTagDirective (c : Cursor) : Option (Token × Cursor) := do
  let (handle, c) ← readHandle c.skipSpaces
  if (handle ≠ "!" && !handle.endsWith "!") || !c.atSpace then none
  else
    let (expansion, c) ← readTagText true "" c.skipSpaces
    if c.blankAt 0 then return (.tagDirective handle expansion, c) else none

def directive (l : Lexer) : Option Lexer := do
  let l ← (l.unroll (-1)).dropKey
  let (name, c) := readName (l.cursor.advance 1)
  if name.isEmpty || !c.blankAt 0 then none
  else
    let (token, c) ← match name with
      | "YAML" => readVersion c
      | "TAG" => readTagDirective c
      | _ => none
    let c ← c.finishLine
    return { l with keyAllowed := false, cursor := c }.emit token

/-! ## Scalars -/

def blockScalar (l : Lexer) (literal : Bool) : Option Lexer := do
  let l ← l.dropKey
  let (c, content) ← readBlock literal l.indent (l.cursor.advance 1)
  return { l with keyAllowed := true, cursor := c }.emit (.scalar (String.ofList content) false)

def quotedScalar (l : Lexer) (single : Bool) : Option Lexer := do
  let l ← l.saveKey
  let (c, f) ← readQuoted single (l.cursor.rest.length + 1) (l.cursor.advance 1) {}
  return { l with keyAllowed := false, cursor := c }.emit
    (.scalar (String.ofList f.content.reverse) false)

/-- A plain scalar; a key may follow if it ends with a line. -/
def plainScalar (l : Lexer) : Option Lexer := do
  let l ← l.saveKey
  let (c, f) ← readPlain (l.flowLevel ≠ 0) (l.indent + 1).toNat (l.cursor.rest.length + 1) l.cursor {}
  return { l with keyAllowed := f.broken, cursor := c }.emit
    (.scalar (String.ofList f.content.reverse) true)

/-! ## One token after the other -/

/-- The marks that no plain scalar starts with, save for some of them with no blank behind. -/
def isIndicator (ch : Char) : Bool := "-?:,[]\x7b\x7d#&*!|>'\"%@\x60".toList.contains ch

def startsPlain (l : Lexer) (ch : Char) : Bool :=
  let c := l.cursor
  (!isIndicator ch && !c.blankAt 0) || (ch == '-' && !(c.peek 1).any isSpace) ||
    (l.flowLevel == 0 && (ch == '?' || ch == ':') && !c.blankAt 1)

/-- Read the token at the cursor, which stands on its first character `ch`. -/
def next (l : Lexer) (ch : Char) : Option Lexer :=
  let c := l.cursor
  let flow := l.flowLevel ≠ 0
  if c.column = 0 ∧ ch = '%' then l.directive
  else if c.atMarker '-' then l.documentMarker .documentStart
  else if c.atMarker '.' then l.documentMarker .documentEnd
  else if ch = '[' then l.flowStart .flowSequenceStart
  else if ch = '\x7b' then l.flowStart .flowMappingStart
  else if ch = ']' then l.flowEnd .flowSequenceEnd
  else if ch = '\x7d' then l.flowEnd .flowMappingEnd
  else if ch = ',' then l.flowEntry
  else if ch = '-' ∧ c.blankAt 1 then l.blockEntry
  else if ch = '?' ∧ (flow ∨ c.blankAt 1) then l.explicitKey
  else if ch = ':' ∧ (flow ∨ c.blankAt 1) then l.colon
  else if ch = '*' then l.anchor .alias
  else if ch = '&' then l.anchor .anchor
  else if ch = '!' then l.tag
  else if ch = '|' ∧ ¬flow then l.blockScalar true
  else if ch = '>' ∧ ¬flow then l.blockScalar false
  else if ch = '\'' then l.quotedScalar true
  else if ch = '"' then l.quotedScalar false
  else if l.startsPlain ch then l.plainScalar
  else none

/-- Close everything at the end of the text. -/
def finish (l : Lexer) : Option (List Token) :=
  ((l.unroll (-1)).dropKey).map fun l => (l.emit .streamEnd).tokens.reverse

def run : Nat → Lexer → Option (List Token)
  | 0, _ => none
  | fuel + 1, l => do
    let l ← (skipToToken (l.cursor.rest.length + 1) l).refreshKeys
    let l := l.unroll l.cursor.column
    match l.cursor.rest with
    | [] => l.finish
    | ch :: _ => run fuel (← l.next ch)

end Lexer

/-- The tokens of a text; `none` if it is malformed. -/
def tokens (text : String) : Option (List Token) :=
  let cs := text.toList
  if cs.all isAllowed then Lexer.run (cs.length + 2) { cursor := { rest := cs } } else none

end ChartValues.Yaml
