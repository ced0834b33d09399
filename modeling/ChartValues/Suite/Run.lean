import ChartValues.Report
import ChartValues.Suite.Basic
import ChartValues.Suite.Case

/-!
# Running suites

Running the selected cases of a suite and telling how they came out: a line per case under its category,
the failures with their reasons, and a summary. The exit code is zero if there were cases and all passed.
-/

namespace ChartValues.Suite

def paint (colored : Bool) (code text : String) : String :=
  if colored then "\x1b[" ++ code ++ "m" ++ text ++ "\x1b[0m" else text

/-- A file's name without the endings of a case file. -/
def stripSuffix : Nat → List Char → List Char
  | 0, cs => cs
  | fuel + 1, cs =>
    if caseSuffix.toList.isSuffixOf cs then
      stripSuffix fuel (cs.take (cs.length - caseSuffix.length))
    else cs

/-- A case's name for the user: its description, or the name of its file. -/
def Verdict.label (v : Verdict) : String :=
  v.description.getD <|
    match Path.fileName? v.path with
    | some name => String.ofList (stripSuffix name.length name.toList)
    | none => "?"

def Verdict.line (colored : Bool) (v : Verdict) : Emission :=
  let mark := if v.passed then paint colored "32" "PASS" else paint colored "31" "FAIL"
  Report.line ("  " ++ mark ++ "  " ++ v.label)

def verdicts (files : FileTree) (selected : List (String × List String)) :
    List (String × List (Verdict × List Log.Event)) :=
  selected.map fun (c, paths) => (c, paths.map (runFile files))

def failureLines (v : Verdict) : List Emission :=
  match v.failure with
  | none => []
  | some reason =>
    [Report.line "", Report.line ("  --- " ++ v.path ++ " ---")] ++
      (Document.mk "" reason).lines.map fun l => Report.line ("  " ++ l.text)

def summary (colored : Bool) (all : List Verdict) : List Emission :=
  let passed := (all.filter Verdict.passed).length
  let failed := all.length - passed
  let text :=
    if failed = 0 then
      "test result: " ++ paint colored "32" "ok" ++ ". " ++ toString passed ++ " passed, 0 failed"
    else
      "test result: " ++ paint colored "31" "FAILED" ++ ". " ++ toString passed ++ " passed, " ++
        toString failed ++ " failed (of " ++ toString (passed + failed) ++ ")"
  [Report.line "", Report.line text]

def runSelected (files : FileTree) (colored : Bool) (selected : List (String × List String)) :
    Report :=
  let results := verdicts files selected
  let all := results.flatMap fun (_, rs) => rs.map Prod.fst
  let failures := all.filter (!·.passed)
  let body := results.flatMap fun (c, rs) =>
    [Report.line "", Report.line (paint colored "1" (label c))] ++
      rs.flatMap fun (v, events) => Report.events events ++ [v.line colored]
  let told := if failures.isEmpty then []
    else [Report.line "", Report.line "failures:"] ++ failures.flatMap failureLines
  { emissions := body ++ told ++ summary colored all
    exitCode := if failures.isEmpty then 0 else 1 }

def nothingFound (path : String) : Emission :=
  Report.line ("no " ++ caseSuffix ++ " files found in " ++ path)

def unknownCategory (s : Suite) (name : String) : Emission :=
  Report.line ("warning: category '" ++ name ++ "' not found (available: " ++
    ", ".intercalate (s.categories.map fun (c, _) => label c) ++ ")")

/-- Run the cases of a path, only those in the requested categories unless the path is a file. -/
def run (files : FileTree) (colored : Bool) (path : String) (requested : List String) : Report :=
  let suite := load files path
  if suite.categories.isEmpty then { emissions := [nothingFound path], exitCode := 1 }
  else
    let requested := if files.isFile path then [] else requested
    let warnings := (suite.unknown requested).map suite.unknownCategory
    let selected := suite.select requested
    if selected.isEmpty then
      { emissions := warnings ++ [Report.line "no matching categories found"], exitCode := 1 }
    else
      let report := runSelected files colored selected
      { report with emissions := warnings ++ report.emissions }

def list (files : FileTree) (path : String) : Report :=
  if files.isFile path then { emissions := [Report.line "(single file, no categories)"] }
  else
    let suite := load files path
    if suite.categories.isEmpty then { emissions := [nothingFound path] }
    else
      { emissions := Report.line "available categories:" ::
          suite.categories.map fun (c, paths) =>
            Report.line ("  " ++ label c ++ " (" ++ toString paths.length ++ " cases)") }

end ChartValues.Suite
