import ChartValues.Command.Shell
import ChartValues.CommandLine.Encode
import ChartValues.CommandLine.Invocation
import ChartValues.Markdown.Terminal
import ChartValues.Notice.Diagnostic
import ChartValues.Suite.Run

/-!
# Commands

What each command does, as a report: completion at a cursor, the blocks of a document, the path at a
cursor, a chart's values flattened, one candidate resolved, and suites of cases.
-/

namespace ChartValues.CommandLine

/-- What a run can see: the files, and how commands are run. -/
structure World where
  files : FileTree
  run : Runner

def World.config (w : World) (path : Option String) : Except ConfigError Config :=
  match path with
  | some path => Config.load w.files path
  | none => .ok {}

def World.source (w : World) (path : Option String) : Except ConfigError (Source Unit) := do
  (← w.config path).source w.files w.run

/-- Go on with a document, or stop if it cannot be read. -/
def World.withDocument (w : World) (file : String) (f : Document → Report) : Report :=
  match w.files.readText file with
  | .ok text => f ⟨file, text⟩
  | .error e => Report.failure ("cannot read '" ++ file ++ "': " ++ e.message)

/-- The lines of an answer: one per item, or all of it as structured output. -/
def answerLines (json : Bool) (r : Response) : List Emission :=
  if json then [.output r.toJson.pretty]
  else r.items.map fun i =>
    .output ("\t".intercalate ([i.label, i.insertText] ++ i.detail.toList))

/-- Write an answer behind what has been reported: its lines, then its notices. A notice that is more
than a warning makes the run fail. -/
def deliver (d : Document) (json : Bool) (response : Response) (report : Report) : Report where
  emissions := report.emissions ++ answerLines json response ++
    response.notices.map fun n => .message (Diagnostic.render d n)
  exitCode := if response.notices.all Notice.isWarning then report.exitCode else 1

def complete (w : World) (config : Option String) (file : String) (p : Position) (json : Bool) :
    Report :=
  match w.source config with
  | .error e => Report.failure e.message
  | .ok source =>
    if !Source.isApplicable source.patterns file then
      { emissions := [Report.line ("note: '" ++ file ++
          "' does not match any values document pattern")] }
    else
      w.withDocument file fun d =>
        (source.serve d p false (deliver d json)
          { emissions := Report.events (source.completeEvents d p false) }).1

def blocks (w : World) (file : String) : Report :=
  w.withDocument file fun d =>
    { emissions := Report.events d.scanEvents ++ d.scan.toList.map fun b =>
        .output (toString b.startLine ++ "-" ++ toString b.keyLine ++ "\t" ++ b.topKey ++ "\t" ++
          b.chartRef.getD "-") }

def path (w : World) (file : String) (p : Position) : Report :=
  w.withDocument file fun d =>
    match d.pathAt p with
    | .ok path => { emissions := Report.events (d.pathEvents p) ++ [.output path.render] }
    | .error e => Report.failure e.message

def entryLine (e : Entry) : String :=
  let value := match e.scalarText, e.kind with
    | some text, some kind => text ++ " (" ++ kind.name ++ ")"
    | _, _ => "(object)"
  e.sortKey.text ++ "\t" ++ e.dotted ++ "\t" ++ value

def flatten (w : World) (config : Option String) (chartRef : String) (json : Bool) : Report :=
  match (do (← w.config config).provider w.files w.run : Except ConfigError (Provider Unit)) with
  | .error e => Report.failure e.message
  | .ok provider =>
    let events := Report.events (provider.events chartRef)
    match (provider.fetch chartRef false ()).1 with
    | .error e => Report.failure e.render events
    | .ok tree =>
      let lines := if json then [(Json.array (tree.flatten.map Entry.toJson)).pretty]
        else tree.flatten.map entryLine
      { emissions := events ++ lines.map .output }

def resolve (w : World) (config : Option String) (file : String) (p : Position) (label : String)
    (json : Bool) : Report :=
  match w.source config with
  | .error e => Report.failure e.message
  | .ok source =>
    -- Other than in `complete`, the name of the file is not compared with the patterns.
    w.withDocument file fun d =>
      let events := Report.events (source.completeEvents d p false)
      let (response, source) := source.complete d p false
      match response.items.find? (·.label = label) with
      | none =>
        Report.failure ("no candidate labelled '" ++ label ++ "' at " ++ toString p.line ++ ":" ++
          toString p.column) events
      | some item =>
        let item := source.resolve item
        let text :=
          if json then
            let action := ((source.execute item).map Source.ShowValues.toJson).getD .null
            (Json.object [("item", item.toJson), ("action", action)]).sorted.pretty
          else
            match item.documentation with
            | some text => Markdown.toTerminalText text
            | none => item.label
        { emissions := events ++ [.output text] }

def execute (w : World) (i : Invocation) : Report :=
  let config := i.settings.config
  match i.command with
  | .complete file p json => complete w config file p json
  | .blocks file => blocks w file
  | .path file p => path w file p
  | .flatten chartRef json => flatten w config chartRef json
  | .resolve file p label json => resolve w config file p label json
  | .test path categories => Suite.run w.files i.settings.colored path categories
  | .listCategories path => Suite.list w.files path

/-! ## Runs -/

/-- What a finished run has written and its exit code. -/
structure Outcome where
  exitCode : Nat
  output : String := ""
  errors : String := ""
  deriving DecidableEq, Repr

def usage : String :=
  "Completion for annotated Helm values files\n\n" ++
  "Usage: chartcomp [OPTIONS] <COMMAND>\n\n" ++
  "Commands:\n" ++
  "  complete FILE --line N --column N [--json]\n" ++
  "  blocks FILE\n" ++
  "  path FILE --line N --column N\n" ++
  "  flatten CHART [--json]\n" ++
  "  resolve FILE --line N --column N --label LABEL [--json]\n" ++
  "  test PATH [--category NAME]... [--list-categories]\n\n" ++
  "Options: --no-color, --config FILE, --log-level LEVEL, --log-format FORMAT\n"

/-- The filter of a run: the one asked for by the environment if it is well formed, with a complaint if
it is not. -/
def logFilter (level : Log.Level) (environment : Option String) : Log.Filter × String :=
  match environment with
  | none => (.ofLevel level, "")
  | some text =>
    match Log.Filter.parse text with
    | .ok filter => (filter, "")
    | .error e =>
      (.ofLevel level, "invalid log filter " ++ Text.quoteVisible text ++ ": " ++ e.message ++
        "\nfalling back to default logging\n")

/-- Run the program: its arguments, what it can see, and the log filter of the environment. -/
def run (args : List String) (w : World) (environment : Option String) : Outcome :=
  match Invocation.ofArgs args with
  | .error .usage => { exitCode := 2, errors := usage }
  | .error .help => { exitCode := 0, output := usage }
  | .error .version => { exitCode := 0, output := "chartcomp 0.1.0\n" }
  | .ok i =>
    let (filter, complaint) := logFilter i.settings.level environment
    let report := execute w i
    { exitCode := report.exitCode
      output := report.standardOutput
      errors := complaint ++ report.standardError filter i.settings.format }

end ChartValues.CommandLine
