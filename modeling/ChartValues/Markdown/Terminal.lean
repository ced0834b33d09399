import ChartValues.Markdown.Block
import ChartValues.Markdown.Inline

/-!
# Markdown as terminal text

Headings and paragraphs become lines with an empty line behind them, items start with a dash, code keeps
its backticks, and blocks of code are indented by four blanks.
-/

namespace ChartValues.Markdown

def Span.chars : Span → List Char
  | text cs => cs
  | code cs => '\x60' :: cs ++ ['\x60']
  | lineEnd => ['\n']

mutual

/-- What a block shows; `tight` says whether it stands in an item of a tight list. -/
def charsIn (defined : List Char → Bool) (tight : Bool) : Block → List Char
  | .paragraph text =>
    (spans defined text).flatMap Span.chars ++ (if tight then [] else ['\n', '\n'])
  | .heading text => (spans defined text).flatMap Span.chars ++ ['\n', '\n']
  | .code lines => lines.flatMap (fun l => [' ', ' ', ' ', ' '] ++ l ++ ['\n']) ++ ['\n']
  | .quote children => charsOf defined false children
  | .list tight items => charsOf defined tight items
  | .item children => ['-', ' '] ++ charsOf defined tight children ++ ['\n']

def charsOf (defined : List Char → Bool) (tight : Bool) : List Block → List Char
  | [] => []
  | b :: rest => charsIn defined tight b ++ charsOf defined tight rest

end

/-- A Markdown text as plain text for a terminal, without the blanks at its end. -/
def toTerminalText (markdown : String) : String :=
  let (blocks, labels) := blocks markdown.toList
  Text.trimmedEnd (String.ofList (charsOf (labels.contains ·) false blocks))

end ChartValues.Markdown
