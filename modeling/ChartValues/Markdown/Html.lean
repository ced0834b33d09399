import ChartValues.Text.Blank

/-!
# HTML in Markdown

Where a piece of HTML ends. Markdown passes HTML through, so nothing but its extent matters: `afterHtml`
is what follows a tag, a comment or another construct at the start of a text, and `BlockEnd` says where a
block of HTML lines stops.
-/

namespace ChartValues.Markdown

/-- What follows the first occurrence of a text. -/
def afterText (needle : List Char) : List Char → Option (List Char)
  | [] => if needle.isEmpty then some [] else none
  | c :: cs =>
    if needle.isPrefixOf (c :: cs) then some ((c :: cs).drop needle.length) else afterText needle cs

def occurs (needle : List Char) (cs : List Char) : Bool := (afterText needle cs).isSome

def isWhite (c : Char) : Bool :=
  c == ' ' || c == '\t' || c == '\n' || c == '\r' || c.toNat == 11 || c.toNat == 12

/-- White space that does not end a line. -/
def isSpace (c : Char) : Bool := c == ' ' || c == '\t' || c.toNat == 11 || c.toNat == 12

def afterTagName : List Char → Option (List Char)
  | c :: cs => if c.isAlpha then some (cs.dropWhile fun c => c.isAlphanum || c == '-') else none
  | [] => none

def afterValue (cs : List Char) : Option (List Char) :=
  match cs with
  | '"' :: rest => afterText ['"'] rest
  | '\'' :: rest => afterText ['\''] rest
  | _ =>
    let plain := cs.takeWhile fun c =>
      !isWhite c && c != '"' && c != '\'' && c != '=' && c != '<' && c != '>' && c != '\x60'
    if plain.isEmpty then none else some (cs.drop plain.length)

def afterAttribute (cs : List Char) : Option (List Char) :=
  match cs with
  | c :: rest =>
    if c.isAlpha || c == '_' || c == ':' then
      let rest := rest.dropWhile fun c =>
        c.isAlphanum || c == '_' || c == '.' || c == ':' || c == '-'
      match rest.dropWhile isWhite with
      | '=' :: value => afterValue (value.dropWhile isWhite)
      | _ => some rest
    else none
  | [] => none

def afterAttributes : Nat → List Char → Option (List Char)
  | 0, _ => none
  | fuel + 1, cs =>
    let rest := cs.dropWhile isWhite
    match rest with
    | '>' :: rest => some rest
    | '/' :: '>' :: rest => some rest
    | _ =>
      if rest.length = cs.length then none
      else (afterAttribute rest).bind (afterAttributes fuel)

def afterTag (cs : List Char) : Option (List Char) :=
  match cs with
  | '<' :: '/' :: rest =>
    match (afterTagName rest).map (·.dropWhile isWhite) with
    | some ('>' :: rest) => some rest
    | _ => none
  | '<' :: rest => (afterTagName rest).bind (afterAttributes (cs.length + 1))
  | _ => none

/-- What follows a comment, an instruction, a declaration or a section of character data. -/
def afterSpecial (cs : List Char) : Option (List Char) :=
  match cs with
  | '<' :: '!' :: '-' :: '-' :: rest =>
    match rest with
    | '>' :: rest => some rest
    | '-' :: '>' :: rest => some rest
    | _ => afterText "-->".toList rest
  | '<' :: '?' :: rest => afterText "?>".toList rest
  | '<' :: '!' :: rest =>
    if "[CDATA[".toList.isPrefixOf rest then afterText "]]>".toList rest
    else if rest.head?.any Char.isAlpha then afterText ['>'] rest
    else none
  | _ => none

def afterHtml (cs : List Char) : Option (List Char) := (afterTag cs).or (afterSpecial cs)

/-! ## Blocks -/

inductive BlockEnd where
  /-- With the first line that holds the text. -/
  | text (closing : String)
  /-- Before the first blank line. -/
  | blankLine
  deriving DecidableEq, Repr

def lower (cs : List Char) : List Char := cs.map Char.toLower

/-- The elements whose content is raw text. -/
def rawElements : List (String × String) :=
  [("pre", "</pre>"), ("style", "</style>"), ("script", "</script>"), ("textarea", "</textarea>")]

def blockElements : List String :=
  ["address", "article", "aside", "base", "basefont", "blockquote", "body", "caption", "center",
    "col", "colgroup", "dd", "details", "dialog", "dir", "div", "dl", "dt", "fieldset", "figcaption",
    "figure", "footer", "form", "frame", "frameset", "h1", "h2", "h3", "h4", "h5", "h6", "head",
    "header", "hr", "html", "iframe", "legend", "li", "link", "main", "menu", "menuitem", "nav",
    "noframes", "ol", "optgroup", "option", "p", "param", "search", "section", "summary", "table",
    "tbody", "td", "tfoot", "th", "thead", "title", "tr", "track", "ul"]

/-- The end of a raw element, a comment or another special construct that starts behind `<`. -/
def specialEnd (cs : List Char) : Option BlockEnd :=
  let raw := rawElements.find? fun (name, _) =>
    name.toList.isPrefixOf (lower cs) &&
      (cs.drop name.length).head?.all fun c => isWhite c || c == '>'
  match raw with
  | some (_, closing) => some (.text closing)
  | none =>
    if "!--".toList.isPrefixOf cs then some (.text "-->")
    else if "?".toList.isPrefixOf cs then some (.text "?>")
    else if "![CDATA[".toList.isPrefixOf cs then some (.text "]]>")
    else
      match cs with
      | '!' :: c :: _ => if c.isAlpha then some (.text ">") else none
      | _ => none

def startsBlockElement (cs : List Char) : Bool :=
  let cs := match cs with
    | '/' :: rest => rest
    | _ => cs
  let name := cs.takeWhile Char.isAlphanum
  let rest := cs.drop name.length
  blockElements.contains (String.ofList (lower name)) &&
    (rest.head?.all fun c => isWhite c || c == '>' || (c == '/' && rest[1]? == some '>'))

/-- The end of a block of HTML that may interrupt a paragraph. -/
def strongEnd (line : List Char) : Option BlockEnd :=
  match line with
  | '<' :: rest =>
    (specialEnd rest).or (if startsBlockElement rest then some .blankLine else none)
  | _ => none

/-- The end of any block of HTML. A tag that stands alone in its line starts one. -/
def htmlEnd (line : List Char) : Option BlockEnd :=
  (strongEnd line).or <|
    match afterTag line with
    | some rest => if rest.all isWhite then some .blankLine else none
    | none => none

end ChartValues.Markdown
