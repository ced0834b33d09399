import ChartValues.Fetch.Basic
import ChartValues.File.Tree

/-!
# Values from a directory

A directory with one file per chart. The file is named for the chart, each slash of the reference
written as two underscores, so that all files lie in the directory itself.
-/

namespace ChartValues.Fixture

def fileName (chartRef : String) : String :=
  String.ofList (chartRef.toList.flatMap fun c => if c = '/' then ['_', '_'] else [c]) ++ ".yaml"

def path (directory chartRef : String) : String := Path.join directory (fileName chartRef)

def fetch (files : FileTree) (directory chartRef : String) (cancelled : Bool) :
    Except FetchError Tree :=
  if cancelled then .error (.ofCancelled chartRef)
  else
    let path := path directory chartRef
    match files.readText path with
    | .ok text => parseValues chartRef text
    | .error e =>
      .error ⟨.executionFailed, chartRef, "cannot read `" ++ path ++ "`: " ++ e.message⟩

/-- A provider that reads charts from a directory. -/
def provider (files : FileTree) (directory : String) : Provider Unit where
  fetch chartRef cancelled _ := (fetch files directory chartRef cancelled, ())

end ChartValues.Fixture
