import ChartValues.Command.Process
import ChartValues.Text.Blank

/-!
# Standard utilities

The small programs that scripts in place of a values command are made of: writing text (`echo`,
`printf`), passing and cutting the input (`cat`, `head`, `tail`, `tr`) and waiting (`sleep`). Each is a
function from its arguments and its input to a finished process.
-/

namespace ChartValues.Utility

open Text

/-- A process that fails with a line on its error stream. -/
def fail (status : Nat) (message : String) : Process :=
  { errors := Utf8.encode (message ++ "\n"), exit := .code status }

/-! ## Escapes -/

def isOctal (c : Char) : Bool := '0' ≤ c && c ≤ '7'

/-- Up to `count` leading octal digits as a byte, and what follows them. -/
def octal (count : Nat) (cs : List Char) : UInt8 × List Char :=
  let digits := (cs.take count).takeWhile isOctal
  (UInt8.ofNat (digits.foldl (fun n c => n * 8 + (c.toNat - '0'.toNat)) 0), cs.drop digits.length)

def letterEscape (c : Char) : Option UInt8 :=
  match c with
  | 'a' => some 7
  | 'b' => some 8
  | 'f' => some 12
  | 'n' => some 10
  | 'r' => some 13
  | 't' => some 9
  | 'v' => some 11
  | '\\' => some 92
  | _ => none

def charBytes (c : Char) : List UInt8 := Utf8.encode (String.ofList [c])

/-- The escape behind a backslash: its bytes and what follows. With `zeroFirst` an octal number starts
with a zero that is not counted among its three digits. -/
def readEscape (zeroFirst : Bool) (cs : List Char) : List UInt8 × List Char :=
  match cs with
  | [] => ([92], [])
  | c :: rest =>
    if zeroFirst && c == '0' then
      let (byte, rest) := octal 3 rest
      ([byte], rest)
    else if isOctal c then
      let (byte, rest) := octal 3 cs
      ([byte], rest)
    else
      match letterEscape c with
      | some byte => ([byte], rest)
      | none => (92 :: charBytes c, rest)

/-- A text with its escapes replaced; `false` if `\c` cuts it off. -/
def unescape : Nat → List Char → List UInt8 × Bool
  | 0, _ => ([], true)
  | _, [] => ([], true)
  | _, '\\' :: 'c' :: _ => ([], false)
  | fuel + 1, '\\' :: cs =>
    let (bytes, rest) := readEscape true cs
    let (more, whole) := unescape fuel rest
    (bytes ++ more, whole)
  | fuel + 1, c :: cs =>
    let (more, whole) := unescape fuel cs
    (charBytes c ++ more, whole)

/-! ## Writing -/

/-- Write the arguments with blanks between them; `-n` leaves the end of the line out, and escapes are
replaced in a shell's own `echo` or after `-e`. -/
def echo (escapes : Bool) (args : List String) : Process :=
  let (newline, escapes, args) :=
    match args with
    | "-n" :: rest => (false, escapes, rest)
    | "-e" :: rest => if escapes then (true, escapes, args) else (true, true, rest)
    | _ => (true, escapes, args)
  let text := " ".intercalate args
  let last : List UInt8 := if newline then [10] else []
  if escapes then
    let (bytes, whole) := unescape (text.length + 1) text.toList
    { output := if whole then bytes ++ last else bytes }
  else { output := Utf8.encode text ++ last }

inductive FormatPart where
  | bytes (bs : List UInt8)
  | directive (left zero : Bool) (width : Nat) (precision : Option Nat) (conversion : Char)
  deriving Repr

/-- The number that leading digits write. -/
def number (cs : List Char) : Nat × List Char :=
  let digits := cs.takeWhile Char.isDigit
  (digits.foldl (fun n c => n * 10 + (c.toNat - '0'.toNat)) 0, cs.drop digits.length)

def readDirective (cs : List Char) : Option (FormatPart × List Char) :=
  let flags := cs.takeWhile fun c => c == '-' || c == '0' || c == '+' || c == ' ' || c == '#'
  let (width, rest) := number (cs.drop flags.length)
  let (precision, rest) := match rest with
    | '.' :: rest =>
      let (p, rest) := number rest
      (some p, rest)
    | _ => (none, rest)
  match rest with
  | c :: rest => some (.directive (flags.contains '-') (flags.contains '0') width precision c, rest)
  | [] => none

def readFormat : Nat → List Char → List FormatPart
  | 0, _ => []
  | _, [] => []
  | fuel + 1, '%' :: '%' :: cs => .bytes [37] :: readFormat fuel cs
  | fuel + 1, '%' :: cs =>
    match readDirective cs with
    | some (part, rest) => part :: readFormat fuel rest
    | none => [.bytes [37]]
  | fuel + 1, '\\' :: cs =>
    let (bytes, rest) := readEscape false cs
    .bytes bytes :: readFormat fuel rest
  | fuel + 1, c :: cs => .bytes (charBytes c) :: readFormat fuel cs

def pad (left zero : Bool) (width : Nat) (bytes : List UInt8) : List UInt8 :=
  let fill (b : UInt8) : List UInt8 := List.replicate (width - bytes.length) b
  if left then bytes ++ fill 32
  else if zero then fill 48 ++ bytes
  else fill 32 ++ bytes

/-- The whole number that a text writes, 0 if it writes none. -/
def integer (s : String) : Int :=
  match s.toList with
  | '-' :: cs => -(number cs).1
  | '+' :: cs => (number cs).1
  | cs => (number cs).1

def convert (left zero : Bool) (width : Nat) (precision : Option Nat) (conversion : Char)
    (arg : String) : List UInt8 :=
  let cut (bytes : List UInt8) : List UInt8 := match precision with
    | some p => bytes.take p
    | none => bytes
  match conversion with
  | 's' => pad left false width (cut (Utf8.encode arg))
  | 'b' => pad left false width (cut (unescape (arg.length + 1) arg.toList).1)
  | 'c' => pad left false width ((Utf8.encode arg).take 1)
  | 'x' => pad left zero width (Utf8.encode (String.ofList (Nat.toDigits 16 (integer arg).toNat)))
  | 'o' => pad left zero width (Utf8.encode (String.ofList (Nat.toDigits 8 (integer arg).toNat)))
  | _ => pad left zero width (Utf8.encode (toString (integer arg)))

/-- Apply a format once: the bytes and the arguments left. -/
def applyFormat : List FormatPart → List String → List UInt8 × List String
  | [], args => ([], args)
  | .bytes bs :: parts, args =>
    let (more, left) := applyFormat parts args
    (bs ++ more, left)
  | .directive l z w p c :: parts, args =>
    let (more, left) := applyFormat parts args.tail
    (convert l z w p c (args.head?.getD "") ++ more, left)

/-- Apply a format until it has taken all arguments. -/
def applyAll (parts : List FormatPart) : Nat → List String → List UInt8
  | 0, _ => []
  | fuel + 1, args =>
    let (bytes, left) := applyFormat parts args
    if left.isEmpty || left.length == args.length then bytes
    else bytes ++ applyAll parts fuel left

def printf (args : List String) : Process :=
  match args with
  | [] => fail 1 "printf: missing operand"
  | format :: args =>
    let parts := readFormat (format.length + 1) format.toList
    { output := applyAll parts (args.length + 1) args }

/-! ## Reading -/

/-- What a named input holds: `count` bytes of an endless one are enough. -/
def readInput (files : FileTree) (input : List UInt8) (count : Nat) (name : String) :
    Except FileError (List UInt8) :=
  if name = "-" then .ok input
  else if name = "/dev/null" then .ok []
  else if name = "/dev/zero" then .ok (List.replicate count 0)
  else files.readBytes name

/-- The message of an operating system error without its number. -/
def reason : FileError → String
  | .notFound => "No such file or directory"
  | .permissionDenied => "Permission denied"
  | .notDirectory => "Not a directory"
  | .isDirectory => "Is a directory"
  | _ => "File name too long"

def cat (files : FileTree) (input : List UInt8) (args : List String) : Process :=
  let names := if args.isEmpty then ["-"] else args
  let pass (p : Process) (name : String) : Process :=
    match readInput files input 0 name with
    | .ok bytes => { p with output := p.output ++ bytes }
    | .error e =>
      let line := "cat: " ++ name ++ ": " ++ reason e ++ "\n"
      { p with errors := p.errors ++ Utf8.encode line, exit := .code 1 }
  names.foldl pass {}

/-- A count of bytes or of lines, possibly from the start. -/
inductive Count where
  | bytes (n : Nat)
  | lines (n : Nat)
  | fromByte (n : Nat)
  | fromLine (n : Nat)
  deriving DecidableEq, Repr

def countOf (isBytes : Bool) (s : String) : Count :=
  match s.toList with
  | '+' :: cs => if isBytes then .fromByte (number cs).1 else .fromLine (number cs).1
  | cs => if isBytes then .bytes (number cs).1 else .lines (number cs).1

/-- The count and the file names in the arguments of `head` and `tail`. -/
def readCount : List String → Count × List String
  | "-c" :: n :: rest => (countOf true n, rest)
  | "-n" :: n :: rest => (countOf false n, rest)
  | option :: rest =>
    match option.toList with
    | '-' :: 'c' :: c :: cs => (countOf true (String.ofList (c :: cs)), rest)
    | '-' :: 'n' :: c :: cs => (countOf false (String.ofList (c :: cs)), rest)
    | '-' :: c :: cs =>
      if c.isDigit then (countOf false (String.ofList (c :: cs)), rest) else (.lines 10, option :: rest)
    | _ => (.lines 10, option :: rest)
  | [] => (.lines 10, [])

/-- The bytes up to the end of the `n`th line. -/
def takeLines : Nat → List UInt8 → List UInt8
  | 0, _ => []
  | _, [] => []
  | n + 1, b :: bs => if b = 10 then b :: takeLines n bs else b :: takeLines (n + 1) bs

/-- The bytes behind the end of the `n`th line. -/
def dropLines : Nat → List UInt8 → List UInt8
  | 0, bs => bs
  | _, [] => []
  | n + 1, b :: bs => if b = 10 then dropLines n bs else dropLines (n + 1) bs

/-- The number of lines; a last line without an end counts. -/
def countLines (bs : List UInt8) : Nat :=
  bs.count 10 + (if bs.getLast?.any (· ≠ 10) then 1 else 0)

/-- Run a utility that takes a count and at most one input. -/
def counted (name : String) (files : FileTree) (input : List UInt8) (args : List String)
    (cut : Count → List UInt8 → List UInt8) : Process :=
  let (count, names) := readCount args
  let enough := match count with
    | .bytes n => n
    | _ => 0
  let file := names.head?.getD "-"
  match readInput files input enough file with
  | .ok bytes => { output := cut count bytes }
  | .error e => fail 1 (name ++ ": cannot open '" ++ file ++ "' for reading: " ++ reason e)

def head (files : FileTree) (input : List UInt8) (args : List String) : Process :=
  counted "head" files input args fun count bytes => match count with
    | .bytes n | .fromByte n => bytes.take n
    | .lines n | .fromLine n => takeLines n bytes

def tail (files : FileTree) (input : List UInt8) (args : List String) : Process :=
  counted "tail" files input args fun count bytes => match count with
    | .bytes n => bytes.drop (bytes.length - n)
    | .lines n => dropLines (countLines bytes - n) bytes
    | .fromByte n => bytes.drop (n - 1)
    | .fromLine n => dropLines (n - 1) bytes

/-- The bytes of a set: escapes and ranges. -/
def byteSet : Nat → List Char → List UInt8
  | 0, _ => []
  | _, [] => []
  | fuel + 1, '\\' :: cs =>
    let (bytes, rest) := readEscape false cs
    bytes ++ byteSet fuel rest
  | fuel + 1, a :: '-' :: b :: cs =>
    (List.range (b.toNat + 1 - a.toNat)).map (fun i => UInt8.ofNat (a.toNat + i)) ++ byteSet fuel cs
  | fuel + 1, c :: cs => charBytes c ++ byteSet fuel cs

/-- The byte that takes the place of `b`: the one at its index in the second set, whose last byte stands
for all that are missing. -/
def replaceByte (set1 set2 : List UInt8) (b : UInt8) : UInt8 :=
  match set1.idxOf? b with
  | some i => (set2[i]?.or set2.getLast?).getD b
  | none => b

def tr (input : List UInt8) (args : List String) : Process :=
  let set (s : String) : List UInt8 := byteSet (s.length + 1) s.toList
  match args with
  | ["-d", s] => { output := input.filter fun b => !(set s).contains b }
  | [s, t] =>
    let set1 := set s
    let set2 := set t
    { output := input.map (replaceByte set1 set2) }
  | _ => fail 1 "tr: missing operand"

/-- A duration in seconds as milliseconds. -/
def milliseconds (s : String) : Nat :=
  let (whole, rest) := number s.toList
  let fraction := match rest with
    | '.' :: cs => ((cs.takeWhile Char.isDigit) ++ ['0', '0', '0']).take 3
    | _ => []
  let unit := match rest.getLast? with
    | some 'm' => 60
    | some 'h' => 3600
    | _ => 1
  (whole * 1000 + (number fraction).1) * unit

def sleep (args : List String) : Process :=
  { duration := (args.map milliseconds).foldl (· + ·) 0 }

/-! ## By name -/

def find? (files : FileTree) (name : String) :
    Option ((args : List String) → (input : List UInt8) → Process) :=
  match name with
  | "echo" => some fun args _ => echo false args
  | "printf" => some fun args _ => printf args
  | "true" => some fun _ _ => {}
  | "false" => some fun _ _ => { exit := .code 1 }
  | "sleep" => some fun args _ => sleep args
  | "cat" => some fun args input => cat files input args
  | "head" => some fun args input => head files input args
  | "tail" => some fun args input => tail files input args
  | "tr" => some fun args input => tr input args
  | _ => none

/-- The program's name in a path to one of the standard directories, or the name itself. -/
def programName (command : String) : String :=
  if command.startsWith "/usr/bin/" then (command.drop 9).toString
  else if command.startsWith "/bin/" then (command.drop 5).toString
  else command

end ChartValues.Utility
