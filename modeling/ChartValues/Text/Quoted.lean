import ChartValues.Text.Printable

/-!
# Quoted text

Two ways to put a text between double quotes. `quote` is the form of scalar texts and of structured
output: only the quote, the backslash and the controls below the space are escaped. `quoteVisible` is
the form of log lines: whatever is not printable is escaped by its code point.
-/

namespace ChartValues.Text

/-- The lower-case hexadecimal digit of a number below 16. -/
def hexDigit (n : Nat) : Char := Nat.digitChar n

/-- `n` in hexadecimal with no leading zero. -/
def hex (n : Nat) : List Char := Nat.toDigits 16 n

/-- `n` in hexadecimal, filled with zeros to four digits. -/
def hex4 (n : Nat) : List Char :=
  [hexDigit (n / 4096 % 16), hexDigit (n / 256 % 16), hexDigit (n / 16 % 16), hexDigit (n % 16)]

/-- One character between the quotes of `quote`. -/
def escape (c : Char) : List Char :=
  if c = '"' then ['\\', '"']
  else if c = '\\' then ['\\', '\\']
  else if c = '\n' then ['\\', 'n']
  else if c = '\r' then ['\\', 'r']
  else if c = '\t' then ['\\', 't']
  else if c.toNat = 8 then ['\\', 'b']
  else if c.toNat = 12 then ['\\', 'f']
  else if c.toNat < 0x20 then '\\' :: 'u' :: hex4 c.toNat
  else [c]

def quoteChars (cs : List Char) : List Char := '"' :: cs.flatMap escape ++ ['"']

/-- A text between double quotes, escaping the quote, the backslash and the controls. -/
def quote (s : String) : String := String.ofList (quoteChars s.toList)

/-- One character between the quotes of `quoteVisible`. -/
def escapeVisible (c : Char) : List Char :=
  if c = '"' then ['\\', '"']
  else if c = '\\' then ['\\', '\\']
  else if c = '\n' then ['\\', 'n']
  else if c = '\r' then ['\\', 'r']
  else if c = '\t' then ['\\', 't']
  else if c.toNat = 0 then ['\\', '0']
  else if isPrintable c then [c]
  else ['\\', 'u', '\x7b'] ++ hex c.toNat ++ ['\x7d']

/-- A text between double quotes, escaping whatever is not printable. -/
def quoteVisible (s : String) : String :=
  String.ofList ('"' :: s.toList.flatMap escapeVisible ++ ['"'])

end ChartValues.Text
