/-!
# Options

Words of a command line as options and arguments. An option is written `--name VALUE`, `--name=VALUE`,
`-n VALUE`, `-nVALUE` or, if it takes no value, `--name`; behind `--` everything is an argument. Each
option says which values it takes and whether it may be given more than once.
-/

namespace ChartValues.CommandLine

/-- An option that a command knows. -/
structure OptionSpec where
  name : String
  short : Option Char := none
  /-- Which values it takes; none if it takes no value. -/
  accepts : Option (String → Bool) := none
  repeatable : Bool := false

/-- The words of a command line, read. -/
structure Words where
  /-- The options given, each with its value, in order. -/
  options : List (String × String) := []
  arguments : List String := []

/-- Why reading stops before the last word. -/
inductive Stop where
  | usage
  | help
  | version
  deriving DecidableEq, Repr

namespace Words

def has (w : Words) (name : String) : Bool := w.options.any (·.1 == name)

def value? (w : Words) (name : String) : Option String := w.options.lookup name

def values (w : Words) (name : String) : List String :=
  w.options.filterMap fun (n, v) => if n = name then some v else none

/-- Add an option; one that is given twice or with a value it does not take is not understood. -/
def give (w : Words) (spec : OptionSpec) (value : String) : Except Stop Words :=
  if !spec.repeatable && w.has spec.name then .error .usage
  else if !(spec.accepts.all fun accepts => accepts value) then .error .usage
  else .ok { w with options := w.options ++ [(spec.name, value)] }

end Words

/-- Whether a word is an argument or a value rather than an option: it does not start with a dash, or
is nothing else. -/
def isPlain (word : String) : Bool := !word.startsWith "-" || word = "-"

/-- What a word asks for. -/
inductive Ask where
  | argument (word : String)
  | endOfOptions
  /-- An option, perhaps with a value in the same word. -/
  | long (name : String) (value : Option String)
  | short (char : Char) (value : Option String)
  deriving DecidableEq, Repr

def Ask.ofWord (word : String) : Ask :=
  if isPlain word then argument word
  else if word = "--" then endOfOptions
  else
    match word.toList with
    | '-' :: '-' :: cs =>
      let name := cs.takeWhile (· ≠ '=')
      match cs.drop name.length with
      | '=' :: value => long (String.ofList name) (some (String.ofList value))
      | _ => long (String.ofList name) none
    | '-' :: c :: '=' :: value => short c (some (String.ofList value))
    | '-' :: c :: d :: cs => short c (some (String.ofList (d :: cs)))
    | '-' :: c :: _ => short c none
    | _ => argument word

/-- The option that a word asks for. -/
def Ask.spec? (specs : List OptionSpec) : Ask → Option (OptionSpec × Option String)
  | long name value => (specs.find? (·.name = name)).map (·, value)
  | short c value => (specs.find? (·.short = some c)).map (·, value)
  | _ => none

/-- Whether a word asks for help or the version. -/
def Ask.stop? (hasVersion : Bool) : Ask → Option Stop
  | long "help" none => some .help
  | short 'h' _ => some .help
  | long "version" none => if hasVersion then some .version else none
  | short 'V' _ => if hasVersion then some .version else none
  | _ => none

/-- How reading goes on behind a word. -/
inductive Next where
  | done (w : Words)
  /-- The next word is the value of this option. -/
  | awaiting (w : Words) (spec : OptionSpec)

def Words.option (w : Words) (specs : List OptionSpec) (hasVersion : Bool) (ask : Ask) :
    Except Stop Next :=
  match ask.stop? hasVersion with
  | some stop => .error stop
  | none =>
    match ask.spec? specs with
    | none => .error .usage
    | some (spec, value) =>
      match spec.accepts, value with
      | some _, some value => (w.give spec value).map .done
      | some _, none => .ok (.awaiting w spec)
      | none, none => (w.give spec "").map .done
      | none, some _ => .error .usage

/-- Read the words of a command that takes `count` arguments. -/
def readWords (specs : List OptionSpec) (count : Nat) :
    (w : Words) → (awaited : Option OptionSpec) → (literal : Bool) → List String → Except Stop Words
  | w, none, _, [] => .ok w
  | _, some _, _, [] => .error .usage
  | w, some spec, literal, word :: rest =>
    if isPlain word then
      match w.give spec word with
      | .ok w => readWords specs count w none literal rest
      | .error stop => .error stop
    else .error .usage
  | w, none, literal, word :: rest =>
    let ask := if literal then Ask.argument word else Ask.ofWord word
    match ask with
    | .argument word =>
      if w.arguments.length < count then
        readWords specs count { w with arguments := w.arguments ++ [word] } none literal rest
      else .error .usage
    | .endOfOptions => readWords specs count w none true rest
    | ask =>
      match w.option specs false ask with
      | .ok (.done w) => readWords specs count w none literal rest
      | .ok (.awaiting w spec) => readWords specs count w (some spec) literal rest
      | .error stop => .error stop

/-- Read the words before the name of a command: the options, the name, and the words behind it. -/
def readLeading (specs : List OptionSpec) :
    (w : Words) → (awaited : Option OptionSpec) → List String →
      Except Stop (Words × String × List String)
  | _, _, [] => .error .usage
  | w, some spec, word :: rest =>
    if isPlain word then
      match w.give spec word with
      | .ok w => readLeading specs w none rest
      | .error stop => .error stop
    else .error .usage
  | w, none, word :: rest =>
    match Ask.ofWord word with
    | .argument name => .ok (w, name, rest)
    | .endOfOptions => .error .usage
    | ask =>
      match w.option specs true ask with
      | .ok (.done w) => readLeading specs w none rest
      | .ok (.awaiting w spec) => readLeading specs w (some spec) rest
      | .error stop => .error stop

end ChartValues.CommandLine
