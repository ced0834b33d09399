import ChartValues.Command.Process
import ChartValues.Completion
import ChartValues.Fetch.Fixture
import ChartValues.Fetch.Helm
import ChartValues.Toml.Reader

/-!
# Configuration

Where values come from and which documents get completions. A configuration is read from a TOML text
with two tables, `provider` and `documents`; whatever is left out has a default, and whatever is not
known is refused.
-/

namespace ChartValues

inductive ProviderKind where
  /-- A command prints them. -/
  | helm
  /-- Files of a directory hold them. -/
  | fixtures
  deriving DecidableEq, Repr

structure Config where
  kind : ProviderKind := .helm
  command : String := "helm"
  args : List String := ["show", "values"]
  /-- The milliseconds after which the command is given up. -/
  timeoutMs : Option Nat := none
  fixturesDir : Option String := none
  /-- The globs that file names of documents are matched against. -/
  patterns : List String := ["*values.yaml", "*values.yml"]
  deriving DecidableEq, Repr

inductive ConfigError where
  | unreadable (path : String) (cause : FileError)
  /-- The text is no TOML or does not describe a configuration. -/
  | malformed (path : String)
  | pattern (text : String) (cause : Glob.Error)
  | missingFixturesDir
  deriving DecidableEq, Repr

def ConfigError.message : ConfigError → String
  | unreadable path cause => "cannot read config `" ++ path ++ "`: " ++ cause.message
  | malformed path => "invalid config `" ++ path ++ "`: malformed TOML"
  | pattern text cause => "invalid document pattern `" ++ text ++ "`: " ++ cause.message
  | missingFixturesDir => "provider kind `fixtures` requires `fixtures_dir`"

namespace Config

/-! ## Reading -/

def withProvider (c : Config) (v : Toml.Value) : Option Config := do
  let fields ← v.asRecord ["kind", "command", "args", "timeout_ms", "fixtures_dir"]
  let kind ← Toml.withDefault (·.asChoice ["helm", "fixtures"]) "helm" fields "kind"
  return { c with
    kind := if kind = "helm" then .helm else .fixtures
    command := ← Toml.withDefault (·.asString) c.command fields "command"
    args := ← Toml.withDefault (·.asList Toml.Value.asString) c.args fields "args"
    timeoutMs := ← Toml.optional (·.asNatural) fields "timeout_ms"
    fixturesDir := ← Toml.optional (·.asString) fields "fixtures_dir" }

def withDocuments (c : Config) (v : Toml.Value) : Option Config := do
  let fields ← v.asRecord ["patterns"]
  return { c with
    patterns := ← Toml.withDefault (·.asList Toml.Value.asString) c.patterns fields "patterns" }

def ofValue (v : Toml.Value) : Option Config := do
  let fields ← v.asRecord ["provider", "documents"]
  let c ← Toml.withDefault (({} : Config).withProvider ·) {} fields "provider"
  Toml.withDefault (c.withDocuments ·) c fields "documents"

def ofToml (text : String) : Option Config := (Toml.parse text).bind ofValue

/-- Take a relative directory of fixtures from where the configuration's file lies. -/
def relativeTo (c : Config) (path : String) : Config :=
  match c.fixturesDir, Path.parent? path with
  | some dir, some base => { c with fixturesDir := some (Path.join base dir) }
  | _, _ => c

def load (files : FileTree) (path : String) : Except ConfigError Config :=
  match files.readText path with
  | .error e => .error (.unreadable path e)
  | .ok text =>
    match ofToml text with
    | none => .error (.malformed path)
    | some c => .ok (c.relativeTo path)

/-! ## Using -/

/-- The patterns of documents, or the first one that is malformed. -/
def readPatterns : List String → Except ConfigError (List Glob)
  | [] => .ok []
  | text :: rest =>
    match Glob.ofString text with
    | .error e => .error (.pattern text e)
    | .ok glob => (readPatterns rest).map (glob :: ·)

def documentPatterns (c : Config) : Except ConfigError (List Glob) := readPatterns c.patterns

/-- The patterns of a run that is told none. -/
def defaultPatterns : List Glob :=
  match ({} : Config).documentPatterns with
  | .ok patterns => patterns
  | .error _ => []

def valuesCommand (c : Config) : ValuesCommand := ⟨c.command, c.args, c.timeoutMs⟩

def provider (c : Config) (files : FileTree) (run : Runner) : Except ConfigError (Provider Unit) :=
  match c.kind with
  | .helm => .ok (c.valuesCommand.provider run)
  | .fixtures =>
    match c.fixturesDir with
    | some dir => .ok (Fixture.provider files dir)
    | none => .error .missingFixturesDir

/-- The source of completions: of two faults, that of the provider is told. -/
def source (c : Config) (files : FileTree) (run : Runner) : Except ConfigError (Source Unit) := do
  let provider ← c.provider files run
  let patterns ← c.documentPatterns
  return { provider, state := (), patterns }

end Config

/-- The source of completions over a provider, with the default patterns. -/
def Source.ofProvider (provider : Provider σ) (state : σ) : Source σ :=
  { provider, state, patterns := Config.defaultPatterns }

end ChartValues
