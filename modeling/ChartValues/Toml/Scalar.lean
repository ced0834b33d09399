import ChartValues.Toml.Value

/-!
# TOML scalars

Strings in their four forms, numbers, booleans and dates. Each reader takes the rest of the text and
gives a value with what follows it, or nothing if the text is not of its form.
-/

namespace ChartValues.Toml

/-! ## Characters -/

def isSpace (c : Char) : Bool := c == ' ' || c == '\t'

/-- A character that may stand in a text: no control but the tab. -/
def isText (c : Char) : Bool := c == '\t' || (0x20 ≤ c.toNat && c.toNat ≠ 0x7F)

/-- A character of a key without quotes. -/
def isBare (c : Char) : Bool := c.isAlphanum || c == '_' || c == '-'

def skipSpace (cs : List Char) : List Char := cs.dropWhile isSpace

/-- What follows an end of line. -/
def newline? : List Char → Option (List Char)
  | '\n' :: rest => some rest
  | '\r' :: '\n' :: rest => some rest
  | _ => none

def hexValue (c : Char) : Option Nat :=
  if c.isDigit then some (c.toNat - '0'.toNat)
  else if 'a' ≤ c ∧ c ≤ 'f' then some (c.toNat - 'a'.toNat + 10)
  else if 'A' ≤ c ∧ c ≤ 'F' then some (c.toNat - 'A'.toNat + 10)
  else none

/-! ## Strings -/

/-- The character written by `count` hexadecimal digits. -/
def codePoint (count : Nat) (cs : List Char) : Option (Char × List Char) := do
  let digits ← (cs.take count).mapM hexValue
  let n := digits.foldl (fun n d => n * 16 + d) 0
  if digits.length = count ∧ n.isValidChar then some (Char.ofNat n, cs.drop count) else none

def readEscape : List Char → Option (Char × List Char)
  | 'b' :: rest => some (Char.ofNat 8, rest)
  | 't' :: rest => some ('\t', rest)
  | 'n' :: rest => some ('\n', rest)
  | 'f' :: rest => some (Char.ofNat 12, rest)
  | 'r' :: rest => some ('\r', rest)
  | '"' :: rest => some ('"', rest)
  | '\\' :: rest => some ('\\', rest)
  | 'u' :: rest => codePoint 4 rest
  | 'U' :: rest => codePoint 8 rest
  | _ => none

/-- The inside of a string in double quotes. -/
def readBasic : Nat → List Char → List Char → Option (String × List Char)
  | 0, _, _ => none
  | fuel + 1, acc, cs =>
    match cs with
    | '"' :: rest => some (String.ofList acc.reverse, rest)
    | '\\' :: rest =>
      match readEscape rest with
      | some (c, rest) => readBasic fuel (c :: acc) rest
      | none => none
    | c :: rest => if isText c then readBasic fuel (c :: acc) rest else none
    | [] => none

/-- The inside of a string in single quotes. -/
def readLiteral (cs : List Char) : Option (String × List Char) :=
  let inner := cs.takeWhile fun c => c ≠ '\'' && isText c
  match cs.drop inner.length with
  | '\'' :: rest => some (String.ofList inner, rest)
  | _ => none

def skipBlankLines : Nat → List Char → List Char
  | 0, cs => cs
  | fuel + 1, cs =>
    let cs := skipSpace cs
    match newline? cs with
    | some rest => skipBlankLines fuel rest
    | none => cs

/-- The inside of a string of several lines between three times `quote`; escapes count if `escapes`. A
run of quotes closes it if it has three of them, and up to two more belong to the text. -/
def readLines (quote : Char) (escapes : Bool) :
    Nat → List Char → List Char → Option (String × List Char)
  | 0, _, _ => none
  | fuel + 1, acc, cs =>
    match cs with
    | [] => none
    | c :: rest =>
      if c = quote then
        let count := (cs.takeWhile (· == quote)).length
        if 3 ≤ count then
          let extra := min (count - 3) 2
          some (String.ofList (List.replicate extra quote ++ acc).reverse, cs.drop (extra + 3))
        else readLines quote escapes fuel (List.replicate count quote ++ acc) (cs.drop count)
      else if escapes && c == '\\' then
        match newline? (skipSpace rest) with
        | some rest => readLines quote escapes fuel acc (skipBlankLines (rest.length + 1) rest)
        | none =>
          match readEscape rest with
          | some (d, rest) => readLines quote escapes fuel (d :: acc) rest
          | none => none
      else
        match newline? cs with
        | some rest => readLines quote escapes fuel ('\n' :: acc) rest
        | none => if isText c then readLines quote escapes fuel (c :: acc) rest else none

/-- The text without an end of line at its start. -/
def dropNewline (cs : List Char) : List Char := (newline? cs).getD cs

def readString (cs : List Char) : Option (String × List Char) :=
  match cs with
  | '"' :: '"' :: '"' :: rest => readLines '"' true (cs.length + 1) [] (dropNewline rest)
  | '"' :: rest => readBasic (cs.length + 1) [] rest
  | '\'' :: '\'' :: '\'' :: rest => readLines '\'' false (cs.length + 1) [] (dropNewline rest)
  | '\'' :: rest => readLiteral rest
  | _ => none

/-- A string in one line, as keys may have it. -/
def readKeyString (cs : List Char) : Option (String × List Char) :=
  match cs with
  | '"' :: rest => readBasic (cs.length + 1) [] rest
  | '\'' :: rest => readLiteral rest
  | _ => none

/-! ## Numbers -/

/-- Digits with single underscores between them. -/
def readDigits (isDigit : Char → Bool) : List Char → Option (List Char × List Char)
  | c :: cs => if isDigit c then some (more [c] cs) else none
  | [] => none
where
  more (acc : List Char) : List Char → List Char × List Char
    | '_' :: c :: cs => if isDigit c then more (c :: acc) cs else (acc.reverse, '_' :: c :: cs)
    | c :: cs => if isDigit c then more (c :: acc) cs else (acc.reverse, c :: cs)
    | [] => (acc.reverse, [])

def digitsValue (base : Nat) (digits : List Char) : Nat :=
  digits.foldl (fun n c => n * base + (hexValue c).getD 0) 0

/-- An integer that fits 64 bits. -/
def fit (n : Int) : Option Value :=
  if -Int.pow 2 63 ≤ n ∧ n < Int.pow 2 63 then some (.integer n) else none

/-- An integer in base 16, 8 or 2 behind its mark. -/
def readBased (base : Nat) (isDigit : Char → Bool) (cs : List Char) : Option (Value × List Char) := do
  let (digits, rest) ← readDigits isDigit cs
  return (← fit (digitsValue base digits), rest)

def readSign : List Char → Bool × List Char
  | '-' :: rest => (true, rest)
  | '+' :: rest => (false, rest)
  | cs => (false, cs)

/-- The whole part of a decimal number: no leading zero. -/
def readWhole : List Char → Option (List Char × List Char)
  | '0' :: rest => some (['0'], rest)
  | cs => readDigits Char.isDigit cs

/-- The fraction and the exponent of a number, with their text. -/
def readFraction (cs : List Char) : Option (List Char × List Char) :=
  let exponent (cs : List Char) : Option (List Char × List Char) :=
    match cs with
    | c :: rest =>
      if c = 'e' ∨ c = 'E' then do
        let (negative, rest) := readSign rest
        let (digits, rest) ← readDigits Char.isDigit rest
        return ('e' :: (if negative then '-' :: digits else digits), rest)
      else some ([], cs)
    | [] => some ([], [])
  match cs with
  | '.' :: rest => do
    let (digits, rest) ← readDigits Char.isDigit rest
    let (e, rest) ← exponent rest
    return ('.' :: digits ++ e, rest)
  | _ => exponent cs

def readDecimal (cs : List Char) : Option (Value × List Char) := do
  let (negative, rest) := readSign cs
  match rest with
  | 'i' :: 'n' :: 'f' :: rest => return (.float "inf", rest)
  | 'n' :: 'a' :: 'n' :: rest => return (.float "nan", rest)
  | _ =>
    let (whole, rest) ← readWhole rest
    let (fraction, rest) ← readFraction rest
    let sign := if negative then ['-'] else []
    if fraction.isEmpty then
      let n : Int := digitsValue 10 whole
      return (← fit (if negative then -n else n), rest)
    else return (.float (String.ofList (sign ++ whole ++ fraction)), rest)

/-! ## Dates -/

/-- Exactly `count` digits, between two bounds. -/
def fixedDigits (count low high : Nat) (cs : List Char) : Option (Nat × List Char) :=
  let digits := cs.take count
  let n := digitsValue 10 digits
  if digits.length = count ∧ digits.all Char.isDigit ∧ low ≤ n ∧ n ≤ high then
    some (n, cs.drop count)
  else none

def daysIn (year month : Nat) : Nat :=
  if month = 2 then
    if year % 4 = 0 ∧ (year % 100 ≠ 0 ∨ year % 400 = 0) then 29 else 28
  else if month = 4 ∨ month = 6 ∨ month = 9 ∨ month = 11 then 30
  else 31

/-- Move past one character that has to be there. -/
def expectChar (c : Char) : List Char → Option (List Char)
  | d :: rest => if d = c then some rest else none
  | [] => none

def afterDay (cs : List Char) : Option (List Char) := do
  let (year, rest) ← fixedDigits 4 0 9999 cs
  let (month, rest) ← fixedDigits 2 1 12 (← expectChar '-' rest)
  let (_, rest) ← fixedDigits 2 1 (daysIn year month) (← expectChar '-' rest)
  return rest

def afterTime (cs : List Char) : Option (List Char) := do
  let (_, rest) ← fixedDigits 2 0 23 cs
  let (_, rest) ← fixedDigits 2 0 59 (← expectChar ':' rest)
  let (_, rest) ← fixedDigits 2 0 60 (← expectChar ':' rest)
  match rest with
  | '.' :: c :: more => if c.isDigit then return more.dropWhile Char.isDigit else none
  | _ => return rest

def afterOffset (cs : List Char) : Option (List Char) :=
  match cs with
  | 'Z' :: rest => some rest
  | 'z' :: rest => some rest
  | c :: rest =>
    if c = '+' ∨ c = '-' then do
      let (_, rest) ← fixedDigits 2 0 23 rest
      let (_, rest) ← fixedDigits 2 0 59 (← expectChar ':' rest)
      return rest
    else some cs
  | [] => some []

/-- What follows a date: a day, a day with a time and maybe an offset, or a time. -/
def afterDate (cs : List Char) : Option (List Char) :=
  match afterDay cs with
  | some rest =>
    match rest with
    | c :: more =>
      if c = 'T' ∨ c = 't' ∨ c = ' ' then
        match afterTime more with
        | some rest => afterOffset rest
        | none => if c = ' ' then some rest else none
      else some rest
    | [] => some []
  | none => afterTime cs

def readDate (cs : List Char) : Option (Value × List Char) :=
  (afterDate cs).map fun rest => (.date (String.ofList (cs.take (cs.length - rest.length))), rest)

/-! ## Any scalar -/

def readScalar (cs : List Char) : Option (Value × List Char) :=
  match cs with
  | 't' :: 'r' :: 'u' :: 'e' :: rest => some (.boolean true, rest)
  | 'f' :: 'a' :: 'l' :: 's' :: 'e' :: rest => some (.boolean false, rest)
  | '0' :: 'x' :: rest => readBased 16 (fun c => (hexValue c).isSome) rest
  | '0' :: 'o' :: rest => readBased 8 (fun c => '0' ≤ c && c ≤ '7') rest
  | '0' :: 'b' :: rest => readBased 2 (fun c => c == '0' || c == '1') rest
  | '"' :: _ => (readString cs).map fun (s, rest) => (.string s, rest)
  | '\'' :: _ => (readString cs).map fun (s, rest) => (.string s, rest)
  | _ => (readDate cs).or (readDecimal cs)

end ChartValues.Toml
