import ChartValues.Command.Script
import ChartValues.Command.Utility

/-!
# Running scripts

The meaning of a script: a function from a state of the shell to a state. The state holds variables, the
streams and the time that has passed; a script that asks for more steps than it is given simply stops.
-/

namespace ChartValues

/-- A shell between two commands. -/
structure Shell where
  /-- The name the script runs under, its parameter 0. -/
  name : String
  params : List String := []
  bindings : List (String × String) := []
  files : FileTree := .empty
  input : List UInt8 := []
  /-- What has been written, the latest piece first. -/
  output : List (List UInt8) := []
  errors : List (List UInt8) := []
  status : Nat := 0
  /-- How the shell ended, if it did. -/
  ended : Option Exit := none
  /-- The milliseconds that commands waited. -/
  elapsed : Nat := 0

namespace Shell

open Script

/-! ## Expansion -/

def processId : String := "1"

def binding? (s : Shell) (name : String) : Option String :=
  s.bindings.lookup name

def assign (s : Shell) (name value : String) : Shell :=
  { s with bindings := (name, value) :: s.bindings.filter (·.1 ≠ name) }

/-- The value of a parameter; an unset one is empty, or what stands behind `:-`. -/
def parameter (s : Shell) (name : String) : String :=
  match name.splitOn ":-" with
  | [name, fallback] =>
    let value := simple name
    if value.isEmpty then fallback else value
  | _ => simple name
where
  /-- The value of a parameter without a fallback. -/
  simple (name : String) : String :=
    if name = "$" then processId
    else if name = "?" then toString s.status
    else if name = "#" then toString s.params.length
    else if name = "@" ∨ name = "*" then " ".intercalate s.params
    else if name = "0" then s.name
    else
      match name.toNat? with
      | some n => (s.params[n - 1]?).getD ""
      | none => (s.binding? name).getD ""

inductive Operand where
  | number (n : Int)
  | operator (c : Char)
  deriving DecidableEq, Repr

def operands (s : Shell) : Nat → List Char → List Operand
  | 0, _ => []
  | _, [] => []
  | fuel + 1, c :: cs =>
    if c.isDigit then
      let (n, rest) := Utility.number (c :: cs)
      .number n :: operands s fuel rest
    else if isNameChar c then
      let name := (c :: cs).takeWhile isNameChar
      .number (Utility.integer (s.parameter (String.ofList name))) ::
        operands s fuel ((c :: cs).drop name.length)
    else if c == ' ' || c == '$' then operands s fuel cs
    else .operator c :: operands s fuel cs

mutual

/-- A sum of products. -/
def sum : Nat → List Operand → Int × List Operand
  | 0, ts => (0, ts)
  | fuel + 1, ts =>
    let (n, rest) := product fuel ts
    sumRest fuel n rest

def sumRest : Nat → Int → List Operand → Int × List Operand
  | 0, n, ts => (n, ts)
  | fuel + 1, n, ts =>
    match ts with
    | .operator '+' :: rest =>
      let (m, rest) := product fuel rest
      sumRest fuel (n + m) rest
    | .operator '-' :: rest =>
      let (m, rest) := product fuel rest
      sumRest fuel (n - m) rest
    | _ => (n, ts)

/-- A product of factors. -/
def product : Nat → List Operand → Int × List Operand
  | 0, ts => (0, ts)
  | fuel + 1, ts =>
    let (n, rest) := factor fuel ts
    productRest fuel n rest

def productRest : Nat → Int → List Operand → Int × List Operand
  | 0, n, ts => (n, ts)
  | fuel + 1, n, ts =>
    match ts with
    | .operator '*' :: rest =>
      let (m, rest) := factor fuel rest
      productRest fuel (n * m) rest
    | .operator '/' :: rest =>
      let (m, rest) := factor fuel rest
      productRest fuel (n.tdiv m) rest
    | .operator '%' :: rest =>
      let (m, rest) := factor fuel rest
      productRest fuel (n.tmod m) rest
    | _ => (n, ts)

/-- A number, a negated factor or a sum in brackets. -/
def factor : Nat → List Operand → Int × List Operand
  | 0, ts => (0, ts)
  | fuel + 1, ts =>
    match ts with
    | .number n :: rest => (n, rest)
    | .operator '-' :: rest =>
      let (n, rest) := factor fuel rest
      (-n, rest)
    | .operator '(' :: rest =>
      let (n, rest) := sum fuel rest
      (n, rest.drop 1)
    | _ => (0, ts)

end

def arithmetic (s : Shell) (cs : List Char) : Int :=
  let ts := s.operands (cs.length + 1) cs
  (sum (4 * ts.length + 8) ts).1

/-- The pieces of a text between blanks. -/
def split (value : String) : List (List Char) :=
  (value.toList.splitOnP fun c => c == ' ' || c == '\t' || c == '\n').filter (!·.isEmpty)

/-- Add fields to those so far, of which the last one is still open if there is one. -/
def addFields (closed : List (List Char)) (current : Option (List Char)) :
    List (List Char) → List (List Char) × Option (List Char)
  | [] => (closed, current)
  | [f] => (closed, some (current.getD [] ++ f))
  | f :: rest => addFields (closed ++ [current.getD [] ++ f]) none rest

def expandPieces (s : Shell) (closed : List (List Char)) (current : Option (List Char)) :
    Word → List (List Char)
  | [] => closed ++ current.toList
  | piece :: rest =>
    match piece with
    | .text cs => expandPieces s closed (some (current.getD [] ++ cs)) rest
    | .quotes => expandPieces s closed (some (current.getD [])) rest
    | .unclosed => expandPieces s closed current rest
    | .arithmetic e =>
      expandPieces s closed (some (current.getD [] ++ (toString (s.arithmetic e)).toList)) rest
    | .parameter name true =>
      if name = "@" then
        let (closed, current) := addFields closed current (s.params.map String.toList)
        expandPieces s closed current rest
      else expandPieces s closed (some (current.getD [] ++ (s.parameter name).toList)) rest
    | .parameter name false =>
      let (closed, current) := addFields closed current (split (s.parameter name))
      expandPieces s closed current rest

def expand (s : Shell) (words : List Word) : List String :=
  words.flatMap fun w => (s.expandPieces [] none w).map String.ofList

/-- The name and the value of an assignment, if a word is one. -/
def assignment? (w : Word) : Option (String × Word) :=
  let name := (w.takeWhile fun p => match p with
    | .text [c] => isNameChar c
    | _ => false).flatMap fun p => match p with
    | .text cs => cs
    | _ => []
  match w.drop name.length with
  | .text ['='] :: value =>
    match name with
    | c :: _ => if c.isDigit then none else some (String.ofList name, value)
    | [] => none
  | _ => none

/-! ## Simple commands -/

/-- Take over what a process wrote and how it ended. -/
def absorb (s : Shell) (p : Process) : Shell :=
  { s with
    output := p.output :: s.output
    errors := p.errors :: s.errors
    elapsed := s.elapsed + p.duration
    status := match p.exit with
      | .code n => n
      | .signal n => 128 + n }

/-- The number of a signal written `9`, `KILL` or `SIGKILL`. -/
def signalOf (name : String) : Nat :=
  match name.toNat? with
  | some n => n
  | none =>
    match Exit.signalNames.idxOf? (if name.startsWith "SIG" then name else "SIG" ++ name) with
    | some i => i + 1
    | none => 15

/-- The answer of `test`. -/
def test (files : FileTree) : List String → Bool
  | ["-n", a] => !a.isEmpty
  | ["-z", a] => a.isEmpty
  | ["-e", a] => (files.find a).toOption.isSome
  | ["-f", a] => files.isFile a
  | ["-d", a] => (files.find a).toOption.isSome && !files.isFile a
  | [a] => !a.isEmpty
  | "!" :: rest => !test files rest
  | [a, op, b] =>
    let (x, y) := (Utility.integer a, Utility.integer b)
    match op with
    | "=" => a = b
    | "!=" => a ≠ b
    | "-lt" => x < y
    | "-le" => x ≤ y
    | "-gt" => x > y
    | "-ge" => x ≥ y
    | "-eq" => x = y
    | "-ne" => x ≠ y
    | _ => false
  | _ => false

def withStatus (s : Shell) (ok : Bool) : Shell := { s with status := if ok then 0 else 1 }

/-- Run a command by its name. -/
def call (s : Shell) (name : String) (args : List String) : Shell :=
  match name with
  | ":" => s.withStatus true
  | "true" => s.withStatus true
  | "false" => s.withStatus false
  | "echo" => s.absorb (Utility.echo true args)
  | "test" => s.withStatus (test s.files args)
  | "[" => s.withStatus (test s.files args.dropLast)
  | "shift" => { s with params := s.params.drop 1, status := 0 }
  | "set" => { s with status := 0 }
  | "exit" =>
    let status := match args.head?.bind String.toNat? with
      | some n => n % 256
      | none => s.status
    { s with status := status, ended := some (.code status) }
  | "kill" =>
    let (signal, targets) := match args with
      | ["-s", name, target] => (signalOf name, [target])
      | [option, target] => (signalOf (option.drop 1).toString, [target])
      | targets => (15, targets)
    if targets = [processId] then { s with ended := some (.signal signal) } else s.withStatus false
  | _ =>
    match Utility.find? s.files (Utility.programName name) with
    | some program => s.absorb (program args s.input)
    | none => s.absorb (Utility.fail 127 (s.name ++ ": 1: " ++ name ++ ": not found"))

/-- Run a simple command: its assignments, then its words. -/
def runSimple (s : Shell) (words : List Word) : Shell :=
  match words with
  | [] => s
  | w :: rest =>
    match assignment? w with
    | some (name, value) =>
      runSimple
        { s.assign name (String.ofList (s.expandPieces [] none value).flatten) with status := 0 } rest
    | none =>
      match s.expand words with
      | "exec" :: name :: args =>
        let s := s.call name args
        { s with ended := s.ended.or (some (.code s.status)) }
      | name :: args => s.call name args
      | [] => s.withStatus true

/-! ## Commands -/

/-- Send what `inner` wrote after `before` elsewhere. -/
def redirect (r : Redirect) (before inner : Shell) : Shell :=
  let newOutput := inner.output.take (inner.output.length - before.output.length)
  let newErrors := inner.errors.take (inner.errors.length - before.errors.length)
  match r with
  | .outputToErrors => { inner with output := before.output, errors := newOutput ++ inner.errors }
  | .errorsToOutput => { inner with errors := before.errors, output := newErrors ++ inner.output }
  | .dropOutput => { inner with output := before.output }
  | .dropErrors => { inner with errors := before.errors }
  | .noInput => { inner with input := before.input }

/-- The exit of a shell inside another one: only a signal reaches the outer shell. -/
def outerEnd : Option Exit → Option Exit
  | some (.signal n) => some (.signal n)
  | _ => none

mutual

def run : Nat → Command → Shell → Shell
  | 0, _, s => s
  | fuel + 1, c, s =>
    if s.ended.isSome then s
    else
      match c with
      | .nothing => s
      | .simple words => s.runSimple words
      | .redirected inner r =>
        let start := if r = .noInput then { s with input := [] } else s
        redirect r s (run fuel inner start)
      | .pipe first second =>
        let a := run fuel first { s with output := [] }
        let b := run fuel second { s with input := a.output.reverse.flatten, errors := a.errors }
        { b with
          input := s.input, bindings := s.bindings, elapsed := max a.elapsed b.elapsed
          ended := (outerEnd a.ended).or (outerEnd b.ended) }
      | .sequence first second => run fuel second (run fuel first s)
      | .andThen first second =>
        let s := run fuel first s
        if s.status = 0 then run fuel second s else s
      | .orElse first second =>
        let s := run fuel first s
        if s.status = 0 then s else run fuel second s
      | .negate inner =>
        let s := run fuel inner s
        s.withStatus (s.status ≠ 0)
      | .branch condition yes no =>
        let s := run fuel condition s
        if s.status = 0 then run fuel yes s else run fuel no { s with status := 0 }
      | .loop condition body => runLoop fuel condition body 0 s
      | .each name words body => runEach fuel name body (s.expand words) s
      | .group inner =>
        let t := run fuel inner s
        { t with bindings := s.bindings, ended := outerEnd t.ended }

/-- Run a loop while its condition holds; `last` is the status of the body's last run. -/
def runLoop : Nat → Command → Command → Nat → Shell → Shell
  | 0, _, _, _, s => s
  | fuel + 1, condition, body, last, s =>
    let s := run fuel condition s
    if s.ended.isSome then s
    else if s.status = 0 then
      let s := run fuel body s
      if s.ended.isSome then s else runLoop fuel condition body s.status s
    else { s with status := last }

/-- Run a loop over fields. -/
def runEach : Nat → String → Command → List String → Shell → Shell
  | 0, _, _, _, s => s
  | _, _, _, [], s => s
  | fuel + 1, name, body, field :: fields, s =>
    if s.ended.isSome then s
    else runEach fuel name body fields (run fuel body (s.assign name field))

end

def stepLimit : Nat := 1000000

/-- The process of a script run under a name with parameters. -/
def execute (files : FileTree) (script name : String) (params : List String)
    (input : List UInt8) : Process :=
  match Script.parse script with
  | .error e => Utility.fail 2 (name ++ ": 1: " ++ e.message)
  | .ok command =>
    let s := run stepLimit command { name, params, files, input }
    { output := s.output.reverse.flatten
      errors := s.errors.reverse.flatten
      exit := s.ended.getD (.code s.status)
      duration := s.elapsed }

end Shell

/-! ## A system -/

def Shell.invoke (files : FileTree) (args : List String) (input : List UInt8) : Process :=
  match args with
  | "-c" :: script :: name :: params => Shell.execute files script name params input
  | ["-c", script] => Shell.execute files script "sh" [] input
  | ["-c"] => Utility.fail 2 "sh: 0: -c requires an argument"
  | path :: params =>
    match files.readText path with
    | .ok script => Shell.execute files script path params input
    | .error _ => Utility.fail 2 ("sh: 0: cannot open " ++ path ++ ": No such file")
  | [] => Shell.execute files (Text.Utf8.decodeLossy input) "sh" [] input

/-- Runs the standard utilities and the shell over a tree of files, none of which can be executed. -/
def systemRunner (files : FileTree) : Runner := fun command args =>
  let name := Utility.programName command
  if name = "sh" then .ok (Shell.invoke files args [])
  else
    match Utility.find? files name with
    | some program => .ok (program args [])
    | none =>
      if command = "." ∨ command = ".." then .error .permissionDenied
      else if command.toList.contains '/' then
        match files.find command with
        | .ok _ => .error .permissionDenied
        | .error e => .error e
      else .error .notFound

end ChartValues
