import ChartValues.Block.Basic
import ChartValues.Document.Basic
import ChartValues.Document.Line
import ChartValues.Log.Event

/-!
# Scanning a document for blocks

One pass over the lines. An annotation waits for a top-level key on its own line or the next one; each
top-level key commits a block and takes the annotation that waits for it. Events tell what the scan
did and are computed from the same steps.
-/

namespace ChartValues

/-- An annotation that waits for its key. -/
structure Pending where
  chartRef : String
  line : Nat
  deriving DecidableEq, Repr

/-- The state of a scan between two lines. -/
structure Scan where
  blocks : Blocks := {}
  pending : Option Pending := none
  /-- The number of blocks committed so far. -/
  ordinal : Nat := 0
  deriving DecidableEq, Repr

namespace Scan

/-- Whether an annotation can no longer reach line `number`: it reaches its own line and the next. -/
def isStale (number : Nat) (p : Pending) : Bool := p.line + 1 < number

/-- The annotation that waits when the key of line `number` is read. -/
def waiting (s : Scan) (number : Nat) (text : String) : Option Pending :=
  match Line.chartRef text with
  -- An annotation on the line takes the place of one that still waits.
  | some chartRef => some ⟨chartRef, number⟩
  | none => s.pending.filter fun p => !isStale number p

/-- The block that a top-level key on line `number` opens. -/
def block (s : Scan) (number : Nat) (text key : String) : Block :=
  match s.waiting number text with
  | some p => ⟨key, some p.chartRef, p.line, number, s.ordinal⟩
  | none => ⟨key, none, number, number, s.ordinal⟩

def step (s : Scan) (number : Nat) (text : String) : Scan :=
  match Line.topLevelKey text with
  | none => { s with pending := s.waiting number text }
  | some key =>
    { blocks := s.blocks.commit (s.block number text key)
      pending := none
      ordinal := s.ordinal + 1 }

def run (s : Scan) (lines : List (Nat × String)) : Scan :=
  lines.foldl (fun s (number, text) => s.step number text) s

def event (message : String) (fields : List (String × Log.Value)) : Log.Event :=
  ⟨.debug, "valuesdoc::scanner", message, fields⟩

/-- What reading a line reports about an annotation that came too early. -/
def staleEvents (s : Scan) (number : Nat) : List Log.Event :=
  match s.pending with
  | some p =>
    if isStale number p then
      [event "annotation not followed by a top-level key, dropped"
        [("chart_ref", .text p.chartRef), ("line", .number p.line)]]
    else []
  | none => []

def commitEvents (blocks : Blocks) (b : Block) : List Log.Event :=
  event "committed block"
      [("top_key", .text b.topKey), ("chart_ref", .text (Log.optionText b.chartRef)),
        ("start_line", .number b.startLine)] ::
    match blocks.replaced b with
    | some previous =>
      [event "duplicate top-level key replaces earlier block"
        [("top_key", .text previous.topKey), ("line", .number previous.keyLine)]]
    | none => []

def stepEvents (s : Scan) (number : Nat) (text : String) : List Log.Event :=
  s.staleEvents number ++
    match Line.topLevelKey text with
    | none => []
    | some key => commitEvents s.blocks (s.block number text key)

def runEvents (s : Scan) : List (Nat × String) → List Log.Event
  | [] => []
  | (number, text) :: rest => s.stepEvents number text ++ (s.step number text).runEvents rest

end Scan

def Document.scan (d : Document) : Blocks := (Scan.run {} d.numbered).blocks

def Document.scanEvents (d : Document) : List Log.Event := Scan.runEvents {} d.numbered

end ChartValues
