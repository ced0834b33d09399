/-!
# Shell scripts

The part of the shell language that scripts in place of a values command are written in: simple
commands with quoting, parameters and arithmetic, redirections to the standard streams, pipelines,
lists, loops and conditions.
-/

namespace ChartValues.Script

/-! ## Words -/

/-- One piece of a word. -/
inductive Piece where
  | text (cs : List Char)
  /-- The value of a parameter; split into fields unless `quoted`. -/
  | parameter (name : String) (quoted : Bool)
  | arithmetic (expression : List Char)
  /-- A pair of quotes, which makes a word even if there is nothing between them. -/
  | quotes
  /-- A quote that is never closed. -/
  | unclosed
  deriving DecidableEq, Repr

abbrev Word := List Piece

inductive Redirect where
  | outputToErrors
  | errorsToOutput
  | dropOutput
  | dropErrors
  | noInput
  deriving DecidableEq, Repr

inductive Token where
  | word (w : Word)
  | redirect (r : Redirect)
  /-- `;` or the end of a line. -/
  | separator
  | pipe
  | andThen
  | orElse
  | openGroup
  | closeGroup
  deriving DecidableEq, Repr

def isNameChar (c : Char) : Bool := c.isAlphanum || c == '_'

/-- The parameter behind a dollar sign and the number of its characters. -/
def parameterName : List Char → Option (String × Nat)
  | '\x7b' :: cs =>
    let name := cs.takeWhile (· ≠ '\x7d')
    if name.length < cs.length then some (String.ofList name, name.length + 2) else none
  | c :: cs =>
    if c.isAlpha || c == '_' then
      let name := (c :: cs).takeWhile isNameChar
      some (String.ofList name, name.length)
    else if c.isDigit || c == '$' || c == '?' || c == '#' || c == '@' || c == '*' then
      some (String.ofList [c], 1)
    else none
  | [] => none

/-- The characters before a closing `))`. -/
def beforeParens : List Char → Option (List Char)
  | ')' :: ')' :: _ => some []
  | c :: cs => (beforeParens cs).map (c :: ·)
  | [] => none

/-- What a dollar sign introduces, given the characters behind it: a piece and its length. -/
def dollar (quoted : Bool) (cs : List Char) : Piece × Nat :=
  match cs with
  | '(' :: '(' :: rest =>
    match beforeParens rest with
    | some inner => (.arithmetic inner, inner.length + 4)
    | none => (.text ['$'], 0)
  | _ =>
    match parameterName cs with
    | some (name, count) => (.parameter name quoted, count)
    | none => (.text ['$'], 0)

/-- Read the inside of double quotes, up to and past the closing one. -/
def doubleQuoted : Nat → List Char → Word → Word × List Char
  | 0, cs, acc => (acc.reverse, cs)
  | _, [], acc => ((.unclosed :: acc).reverse, [])
  | fuel + 1, c :: cs, acc =>
    if c = '"' then (acc.reverse, cs)
    else if c = '$' then
      let (piece, count) := dollar true cs
      doubleQuoted fuel (cs.drop count) (piece :: acc)
    else if c = '\\' then
      match cs with
      | '\n' :: rest => doubleQuoted fuel rest acc
      | d :: rest =>
        if d = '"' ∨ d = '\\' ∨ d = '$' ∨ d = '\x60' then doubleQuoted fuel rest (.text [d] :: acc)
        else doubleQuoted fuel rest (.text [c, d] :: acc)
      | [] => doubleQuoted fuel [] (.text [c] :: acc)
    else doubleQuoted fuel cs (.text [c] :: acc)

def endsWord (c : Char) : Bool :=
  c == ' ' || c == '\t' || c == '\n' || c == ';' || c == '|' || c == '&' || c == '<' || c == '>' ||
    c == '(' || c == ')'

def readWord : Nat → List Char → Word → Word × List Char
  | 0, cs, acc => (acc.reverse, cs)
  | _, [], acc => (acc.reverse, [])
  | fuel + 1, c :: cs, acc =>
    if endsWord c then (acc.reverse, c :: cs)
    else if c = '\'' then
      let inner := cs.takeWhile (· ≠ '\'')
      let last : Piece := if inner.length < cs.length then .quotes else .unclosed
      readWord fuel (cs.drop (inner.length + 1)) (last :: .text inner :: acc)
    else if c = '"' then
      let (pieces, rest) := doubleQuoted (cs.length + 1) cs []
      readWord fuel rest (.quotes :: pieces.reverse ++ acc)
    else if c = '\\' then
      match cs with
      | '\n' :: rest => readWord fuel rest acc
      | d :: rest => readWord fuel rest (.text [d] :: acc)
      | [] => (acc.reverse, [])
    else if c = '$' then
      let (piece, count) := dollar false cs
      readWord fuel (cs.drop count) (piece :: acc)
    else readWord fuel cs (.text [c] :: acc)

/-- The word's text if it is written without quotes and expansions. -/
def plainText (w : Word) : Option String :=
  (w.mapM fun (p : Piece) => match p with
    | .text cs => some cs
    | _ => none).map fun (css : List (List Char)) => String.ofList css.flatten

/-- Read the redirections this language knows; `>` and `<` take the next word as their target. -/
def readRedirect (cs : List Char) : Option (Redirect × List Char) :=
  let target (rest : List Char) : List Char :=
    let rest := rest.dropWhile (· == ' ')
    (readWord (rest.length + 1) rest []).2
  match cs with
  | '>' :: '&' :: '2' :: rest => some (.outputToErrors, rest)
  | '1' :: '>' :: '&' :: '2' :: rest => some (.outputToErrors, rest)
  | '2' :: '>' :: '&' :: '1' :: rest => some (.errorsToOutput, rest)
  | '2' :: '>' :: rest => some (.dropErrors, target rest)
  | '1' :: '>' :: rest => some (.dropOutput, target rest)
  | '>' :: '>' :: rest => some (.dropOutput, target rest)
  | '>' :: rest => some (.dropOutput, target rest)
  | '<' :: rest => some (.noInput, target rest)
  | _ => none

def tokenize : Nat → List Char → List Token
  | 0, _ => []
  | _, [] => []
  | fuel + 1, c :: cs =>
    if c = ' ' ∨ c = '\t' then tokenize fuel cs
    else if c = '#' then tokenize fuel (cs.dropWhile (· ≠ '\n'))
    else if c = '\n' ∨ c = ';' then .separator :: tokenize fuel cs
    else
      match readRedirect (c :: cs) with
      | some (r, rest) => .redirect r :: tokenize fuel rest
      | none =>
        match c, cs with
        | '|', '|' :: rest => .orElse :: tokenize fuel rest
        | '|', rest => .pipe :: tokenize fuel rest
        | '&', '&' :: rest => .andThen :: tokenize fuel rest
        | '&', rest => .separator :: tokenize fuel rest
        | '(', rest => .openGroup :: tokenize fuel rest
        | ')', rest => .closeGroup :: tokenize fuel rest
        | _, _ =>
          let (w, rest) := readWord (cs.length + 2) (c :: cs) []
          .word w :: tokenize fuel rest

/-! ## Commands -/

inductive Command where
  | nothing
  | simple (words : List Word)
  | redirected (inner : Command) (r : Redirect)
  | pipe (first second : Command)
  | sequence (first second : Command)
  | andThen (first second : Command)
  | orElse (first second : Command)
  | negate (inner : Command)
  | loop (condition body : Command)
  | branch (condition yes no : Command)
  | each (name : String) (words : List Word) (body : Command)
  | group (inner : Command)
  deriving Repr, Inhabited

/-- The words that end a list of commands. -/
def isCloser (s : String) : Bool :=
  s == "do" || s == "done" || s == "then" || s == "else" || s == "elif" || s == "fi" || s == "\x7d"

def atCloser : List Token → Bool
  | [] => true
  | .closeGroup :: _ => true
  | .word w :: _ => (plainText w).any isCloser
  | _ => false

/-- Move past a word that has to be there. -/
def expect (s : String) : List Token → Option (List Token)
  | .word w :: rest => if plainText w = some s then some rest else none
  | _ => none

/-- The leading words and redirections of a simple command. -/
def simpleParts : List Token → List Word → List Redirect → List Word × List Redirect × List Token
  | .word w :: rest, words, redirects => simpleParts rest (w :: words) redirects
  | .redirect r :: rest, words, redirects => simpleParts rest words (r :: redirects)
  | rest, words, redirects => (words.reverse, redirects.reverse, rest)

def trailingRedirects : List Token → Command → Command × List Token
  | .redirect r :: rest, c => trailingRedirects rest (.redirected c r)
  | rest, c => (c, rest)

def leadingWords : List Token → List Word → List Word × List Token
  | .word w :: rest, words => leadingWords rest (w :: words)
  | rest, words => (words.reverse, rest)

def readSimple (tokens : List Token) : Command × List Token :=
  let (words, redirects, rest) := simpleParts tokens [] []
  (redirects.foldl Command.redirected (.simple words), rest)

mutual

/-- Read a list of commands up to a word that closes it. -/
def readList : Nat → List Token → Option (Command × List Token)
  | 0, _ => none
  | fuel + 1, tokens =>
    match tokens with
    | .separator :: rest => readList fuel rest
    | _ =>
      if atCloser tokens then some (.nothing, tokens)
      else do
        let (first, rest) ← readAndOr fuel tokens
        let (more, rest) ← readList fuel rest
        return (.sequence first more, rest)

/-- Read pipelines joined by `&&` and `||`. -/
def readAndOr : Nat → List Token → Option (Command × List Token)
  | 0, _ => none
  | fuel + 1, tokens => do
    let (first, rest) ← readPipeline fuel tokens
    readAndOrRest fuel first rest

/-- The pipelines behind the first one, from left to right. -/
def readAndOrRest : Nat → Command → List Token → Option (Command × List Token)
  | 0, _, _ => none
  | fuel + 1, first, tokens =>
    match tokens with
    | .andThen :: rest => do
      let (second, rest) ← readPipeline fuel rest
      readAndOrRest fuel (.andThen first second) rest
    | .orElse :: rest => do
      let (second, rest) ← readPipeline fuel rest
      readAndOrRest fuel (.orElse first second) rest
    | rest => some (first, rest)

/-- Read commands joined by pipes. -/
def readPipeline : Nat → List Token → Option (Command × List Token)
  | 0, _ => none
  | fuel + 1, tokens =>
    match expect "!" tokens with
    | some rest => do
      let (inner, rest) ← readPipeline fuel rest
      return (.negate inner, rest)
    | none => do
      let (first, rest) ← readCommand fuel tokens
      match rest with
      | .pipe :: rest =>
        let (second, rest) ← readPipeline fuel rest
        return (.pipe first second, rest)
      | rest => return (first, rest)

def readCommand : Nat → List Token → Option (Command × List Token)
  | 0, _ => none
  | fuel + 1, tokens =>
    match tokens with
    | .openGroup :: rest => do
      let (inner, rest) ← readList fuel rest
      match rest with
      | .closeGroup :: rest => return trailingRedirects rest (.group inner)
      | _ => none
    | .word w :: rest =>
      match plainText w with
      | some "while" => do
        let (condition, rest) ← readList fuel rest
        let (body, rest) ← readList fuel (← expect "do" rest)
        return trailingRedirects (← expect "done" rest) (.loop condition body)
      | some "until" => do
        let (condition, rest) ← readList fuel rest
        let (body, rest) ← readList fuel (← expect "do" rest)
        return trailingRedirects (← expect "done" rest) (.loop (.negate condition) body)
      | some "if" => readBranch fuel rest
      | some "for" =>
        match rest with
        | .word name :: rest => do
          let (words, rest) := leadingWords (← expect "in" rest) []
          let (body, rest) ← readList fuel (← expect "do" (rest.dropWhile (· == .separator)))
          return trailingRedirects (← expect "done" rest)
            (.each ((plainText name).getD "") words body)
        | _ => none
      | some "\x7b" => do
        let (inner, rest) ← readList fuel rest
        return trailingRedirects (← expect "\x7d" rest) inner
      | _ => some (readSimple tokens)
    | .redirect _ :: _ => some (readSimple tokens)
    | _ => none

/-- Read a condition behind `if` or `elif`. -/
def readBranch : Nat → List Token → Option (Command × List Token)
  | 0, _ => none
  | fuel + 1, tokens => do
    let (condition, rest) ← readList fuel tokens
    let (yes, rest) ← readList fuel (← expect "then" rest)
    match expect "else" rest, expect "elif" rest with
    | some rest, _ =>
      let (no, rest) ← readList fuel rest
      return trailingRedirects (← expect "fi" rest) (.branch condition yes no)
    | none, some rest =>
      let (no, rest) ← readBranch fuel rest
      return (.branch condition yes no, rest)
    | none, none => return trailingRedirects (← expect "fi" rest) (.branch condition yes .nothing)

end

inductive Error where
  | unterminatedQuote
  | unexpectedEnd
  deriving DecidableEq, Repr

def Error.message : Error → String
  | unterminatedQuote => "Syntax error: Unterminated quoted string"
  | unexpectedEnd => "Syntax error: end of file unexpected"

/-- Whether a token has a quote that is never closed. -/
def Token.isUnclosed : Token → Bool
  | word w => w.contains .unclosed
  | _ => false

def parse (script : String) : Except Error Command :=
  let tokens := tokenize (script.length + 1) script.toList
  if tokens.any Token.isUnclosed then .error .unterminatedQuote
  else
    match readList (4 * tokens.length + 8) tokens with
    | some (c, []) => .ok c
    | _ => .error .unexpectedEnd

end ChartValues.Script
