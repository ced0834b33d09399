import ChartValues.Block.Scan
import ChartValues.Cache
import ChartValues.CursorPath
import ChartValues.File.Glob
import ChartValues.File.Path
import ChartValues.Notice.Basic
import ChartValues.Tree.Candidate

/-!
# Completion

A request is a document and a cursor. `plan` decides from these alone whether values are needed and of
which chart; `Source.complete` then takes them from its cache or its provider and answers with items or
with a notice. Items carry what `resolve` and `execute` need to find their node again.
-/

namespace ChartValues

/-- What an accepted item replaces: a line counted from zero, and columns in characters. -/
structure EditRange where
  line : Nat
  start : Nat
  stop : Nat
  deriving DecidableEq, Repr

/-- Whether an item's key holds an object or a value. -/
inductive ItemKind where
  | object
  | value
  deriving DecidableEq, Repr

def ItemKind.name : ItemKind → String
  | object => "object"
  | value => "value"

/-- Where an item comes from. -/
structure Origin where
  chartRef : String
  path : List String
  deriving DecidableEq, Repr

/-- One completion offered to the host. -/
structure Item where
  label : String
  insertText : String
  kind : ItemKind
  /-- The default value with its kind, for a key that holds a value. -/
  detail : Option String
  editRange : EditRange
  documentation : Option String
  sortKey : String
  origin : Origin
  deriving DecidableEq, Repr

def Item.ofCandidate (c : Candidate) (chartRef : String) (range : EditRange) : Item where
  label := c.label
  insertText := c.insertText
  kind := if c.isObject then .object else .value
  detail :=
    match c.scalarText, c.kind with
    | some text, some kind => some (text ++ " (" ++ kind.name ++ ")")
    | _, _ => none
  editRange := range
  documentation := none
  sortKey := c.sortKey.text
  origin := ⟨chartRef, c.path⟩

structure Response where
  items : List Item := []
  notices : List Notice := []
  cancelled : Bool := false
  deriving DecidableEq, Repr

namespace Response

def ofCancelled : Response := { cancelled := true }

/-- An answer that only tells the user something. -/
def ofNotice (n : Notice) : Response := { notices := [n] }

end Response

/-! ## Deciding what a request needs -/

/-- What a request comes to before any values are fetched. -/
inductive Plan where
  /-- No block encloses the cursor. -/
  | noBlock
  /-- The block of this key names no chart. -/
  | unannotated (topKey : String)
  /-- The position does not fit the document. -/
  | unresolved (error : PositionError)
  /-- The path does not start with the block's key. -/
  | outside (path : CursorPath) (topKey : String)
  /-- The values of `chartRef` are needed at `path` inside `block`. -/
  | needs (block : Block) (chartRef : String) (path : CursorPath)
  deriving DecidableEq, Repr

def Document.plan (d : Document) (p : Position) : Plan :=
  match d.scan.locate p.line with
  | none => .noBlock
  | some block =>
    match block.chartRef with
    | none => .unannotated block.topKey
    | some chartRef =>
      match d.pathAt p with
      | .error e => .unresolved e
      | .ok path =>
        match path.relativeTo block.topKey with
        | none => .outside path block.topKey
        | some _ => .needs block chartRef path

/-- What an accepted item replaces: the key being typed, or nothing at the cursor. -/
def Document.editRange (d : Document) (p : Position) (path : CursorPath) : EditRange :=
  let start := match path.inProgress, d.prefixAt p with
    | some _, .ok typed => Line.indentation typed
    | _, _ => p.column
  -- Hosts count lines from zero.
  ⟨p.line - 1, start, p.column⟩

def itemsIn (tree : Tree) (path : CursorPath) (topKey chartRef : String) (range : EditRange) :
    List Item :=
  (candidates tree.flatten path topKey).map fun c => Item.ofCandidate c chartRef range

/-- The answer once the values have been asked for. -/
def Document.answer (d : Document) (p : Position) (block : Block) (chartRef : String)
    (path : CursorPath) : Except FetchError Tree → Response
  | .ok tree => { items := itemsIn tree path block.topKey chartRef (d.editRange p path) }
  | .error e =>
    if e.kind = .cancelled then .ofCancelled
    -- A block that names a chart starts on the line of its annotation.
    else .ofNotice (Notice.ofFetchError e (d.span? block.startLine))

def Plan.response : Plan → Response
  | unresolved e => .ofNotice { severity := .warning, message := e.message }
  | _ => {}

/-! ## A source of completions -/

/-- A provider with its state, the trees fetched so far, and the patterns of the documents that get
completions. -/
structure Source (σ : Type) where
  provider : Provider σ
  state : σ
  cache : Cache := {}
  patterns : List Glob := []

namespace Source

/-- Whether a document of this name gets completions: only its file name counts, or the whole name if
it has none. -/
def isApplicable (patterns : List Glob) (name : String) : Bool :=
  let file := (Path.fileName? name).getD name
  patterns.any (·.accepts file)

def complete (s : Source σ) (d : Document) (p : Position) (cancelled : Bool) :
    Response × Source σ :=
  if cancelled then (.ofCancelled, s)
  else
    match d.plan p with
    | .needs block chartRef path =>
      let (result, cache, state) := s.cache.getOrFetch s.provider chartRef cancelled s.state
      (d.answer p block chartRef path result, { s with cache := cache, state := state })
    | other => (other.response, s)

/-- Answer a request and hand the response to a host, which goes from one state to the next by
`deliver`. -/
def serve (s : Source σ) (d : Document) (p : Position) (cancelled : Bool)
    (deliver : Response → η → η) (host : η) : η × Source σ :=
  let (response, s) := s.complete d p cancelled
  (deliver response host, s)

def lookup (s : Source σ) (origin : Origin) : Option Tree :=
  (s.cache.get? origin.chartRef).bind (·.get? origin.path)

/-- The first line of a node's documentation: its chart, path and kind. -/
def heading (origin : Origin) (node : Tree) : String :=
  let kind := match node.kind? with
    | some kind => " (" ++ kind.name ++ ")"
    | none => ""
  "**" ++ origin.chartRef ++ "** `" ++ ".".intercalate origin.path ++ "`" ++ kind

/-- The documentation of a node: its heading, and its values as a code block. -/
def document (origin : Origin) (node : Tree) : String :=
  let key := origin.path.getLast?.getD ""
  heading origin node ++ "\n\n```yaml\n" ++ node.keyedYaml key ++ "```\n"

def resolve (s : Source σ) (item : Item) : Item :=
  match s.lookup item.origin with
  | some node => { item with documentation := some (document item.origin node) }
  | none => item

/-- What the host does when an item is executed: show the default values below its key. -/
structure ShowValues where
  chartRef : String
  path : List String
  yaml : String
  deriving DecidableEq, Repr

/-- The action of an item, if its node is known and has a key. -/
def execute (s : Source σ) (item : Item) : Option ShowValues :=
  match s.lookup item.origin, item.origin.path.getLast? with
  | some node, some key =>
    some ⟨item.origin.chartRef, item.origin.path, node.keyedYaml key⟩
  | _, _ => none

/-! ## Reports -/

def event (level : Log.Level) (message : String) (fields : List (String × Log.Value)) :
    Log.Event := ⟨level, "completion::source", message, fields⟩

def planEvents (d : Document) (p : Position) : Plan → List Log.Event
  | .noBlock => [event .debug "no block encloses the cursor" [("line", .number p.line)]]
  | .unannotated topKey => [event .debug "block has no chart annotation" [("top_key", .text topKey)]]
  | .unresolved e => [event .warn "cannot resolve cursor path" [("error", .text e.message)]]
  | .outside path topKey =>
    d.pathEvents p ++ [event .debug "cursor is outside the annotated key"
      [("path", .text path.render), ("top_key", .text topKey)]]
  | .needs _ _ _ => d.pathEvents p

def resultEvents (path : CursorPath) (topKey chartRef : String) :
    Except FetchError Tree → List Log.Event
  | .ok tree => candidateEvents tree.flatten path topKey
  | .error e =>
    match e.kind with
    | .cancelled => [event .debug "completion request cancelled" [("chart_ref", .quoted chartRef)]]
    | .parseFailed => [event .error "chart values could not be parsed" [("error", .text e.render)]]
    | _ => [event .warn "chart values are unavailable" [("error", .text e.render)]]

def completeEvents (s : Source σ) (d : Document) (p : Position) (cancelled : Bool) :
    List Log.Event :=
  if cancelled then []
  else
    let plan := d.plan p
    d.scanEvents ++ planEvents d p plan ++
      match plan with
      | .needs block chartRef path =>
        s.cache.events s.provider chartRef ++
          resultEvents path block.topKey chartRef
            (s.cache.getOrFetch s.provider chartRef cancelled s.state).1
      | _ => []

end Source

end ChartValues
