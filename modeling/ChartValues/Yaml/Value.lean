import ChartValues.Text.Quoted
import ChartValues.Yaml.Node
import ChartValues.Yaml.Scalar

/-!
# YAML values

The value of a YAML text: its nodes with the scalars resolved, the aliases replaced by what they point
at and tags kept where they name an own type. A mapping has no key twice; nesting is limited to 128
levels, and replacing aliases to a hundred times the size of the document.

Main operations: `parse`, and `Value.json`, which writes a value as JSON where JSON can hold it.
-/

namespace ChartValues.Yaml

inductive Value where
  | null
  | boolean (b : Bool)
  | number (n : Number)
  | string (s : String)
  | sequence (items : List Value)
  | mapping (pairs : List (Value × Value))
  | tagged (tag : String) (value : Value)
  deriving Repr, Inhabited

namespace Value

def ofScalar : Scalar → Value
  | .null => null
  | .boolean b => boolean b
  | .number n => number n
  | .text s => string s

/-! ## Equality of keys -/

mutual

/-- Whether two values count as the same key. -/
def same : Value → Value → Bool
  | null, null => true
  | boolean a, boolean b => a == b
  | number m, number n => m.same n
  | string s, string t => s == t
  | sequence xs, sequence ys => sameItems xs ys
  | mapping ps, mapping qs => ps.length == qs.length && samePairs ps qs
  | tagged t v, tagged u w => t == u && v.same w
  | _, _ => false

def sameItems : List Value → List Value → Bool
  | [], [] => true
  | x :: xs, y :: ys => x.same y && sameItems xs ys
  | _, _ => false

/-- Whether each pair is among the others. -/
def samePairs : List (Value × Value) → List (Value × Value) → Bool
  | [], _ => true
  | (k, v) :: ps, qs => (qs.any fun (k', v') => k.same k' && v.same v') && samePairs ps qs

end

def hasKey (key : Value) (pairs : List (Value × Value)) : Bool := pairs.any fun (k, _) => key.same k

/-! ## JSON -/

/-- How exponents of numbers are written in JSON: `1e+16`, `1e-07`. -/
def jsonLayout : Decimal.Layout := ⟨true, 2⟩

/-- A number in JSON; those that are not finite are null. -/
def jsonNumber : Number → String
  | .integer n => toString n
  | .float (.finite negative m e) => jsonLayout.finite negative m e
  | .float _ => "null"

/-- A key in JSON, where only texts, truth values and finite numbers can stand. -/
def jsonKey : Value → Option String
  | string s => some (Text.quote s)
  | boolean b => some (if b then "\"true\"" else "\"false\"")
  | number (.integer n) => some ("\"" ++ toString n ++ "\"")
  | number (.float (.finite negative m e)) =>
    some ("\"" ++ jsonLayout.finite negative m e ++ "\"")
  | _ => none

mutual

/-- The value as JSON text without blanks; `none` if it holds a key that JSON cannot. -/
def json : Value → Option String
  | null => some "null"
  | boolean b => some (if b then "true" else "false")
  | number n => some (jsonNumber n)
  | string s => some (Text.quote s)
  | sequence items => (jsonItems items).map fun texts => "[" ++ ",".intercalate texts ++ "]"
  | mapping pairs => (jsonPairs pairs).map fun texts => "\x7b" ++ ",".intercalate texts ++ "\x7d"
  | tagged tag value =>
    (json value).map fun text => "\x7b" ++ Text.quote ("!" ++ tag) ++ ":" ++ text ++ "\x7d"

def jsonItems : List Value → Option (List String)
  | [] => some []
  | v :: rest => do return (← json v) :: (← jsonItems rest)

def jsonPairs : List (Value × Value) → Option (List String)
  | [] => some []
  | (k, v) :: rest => do return ((← jsonKey k) ++ ":" ++ (← json v)) :: (← jsonPairs rest)

end

end Value

/-! ## Anchors

An anchor is numbered by the count of different names before it. A name that is used again gets a
new number, which the next new name then shares: of two anchors with one number the later one counts. -/

namespace Node

/-- The names of anchors seen so far with their numbers, the latest first. -/
abbrev Names := List (String × Nat)

/-- The number of an anchor that comes after `names`. -/
def anchorNumber (names : Names) : Nat := (names.map Prod.fst).eraseDups.length

/-- The number an anchor gets, and the names after it. -/
def label (anchor : Option String) (names : Names) : Option Nat × Names :=
  match anchor with
  | none => (none, names)
  | some name =>
    let number := anchorNumber names
    (some number, (name, number) :: names)

mutual

/-- Number the anchors and find the number that each alias means; `none` if an alias names no anchor
before it. -/
def resolve : Node String → Names → Option (Node Nat × Names)
  | .alias name, names => (names.lookup name).map fun number => (.alias number, names)
  | .scalar anchor tag content plain, names =>
    let (number, names) := label anchor names
    some (.scalar number tag content plain, names)
  | .sequence anchor tag items, names => do
    let (number, names) := label anchor names
    let (items, names) ← resolveItems items names
    return (.sequence number tag items, names)
  | .mapping anchor tag pairs, names => do
    let (number, names) := label anchor names
    let (pairs, names) ← resolvePairs pairs names
    return (.mapping number tag pairs, names)

def resolveItems : List (Node String) → Names → Option (List (Node Nat) × Names)
  | [], names => some ([], names)
  | item :: items, names => do
    let (item, names) ← resolve item names
    let (items, names) ← resolveItems items names
    return (item :: items, names)

def resolvePairs : List (Node String × Node String) → Names →
    Option (List (Node Nat × Node Nat) × Names)
  | [], names => some ([], names)
  | (key, value) :: pairs, names => do
    let (key, names) ← resolve key names
    let (value, names) ← resolve value names
    let (pairs, names) ← resolvePairs pairs names
    return ((key, value) :: pairs, names)

end

mutual

/-- The nodes with an anchor, each before those inside it. -/
def anchored : Node Nat → List (Nat × Node Nat)
  | .alias _ => []
  | .scalar anchor tag content plain =>
    anchor.toList.map fun n => (n, .scalar anchor tag content plain)
  | .sequence anchor tag items =>
    (anchor.toList.map fun n => (n, .sequence anchor tag items)) ++ anchoredItems items
  | .mapping anchor tag pairs =>
    (anchor.toList.map fun n => (n, .mapping anchor tag pairs)) ++ anchoredPairs pairs

def anchoredItems : List (Node Nat) → List (Nat × Node Nat)
  | [] => []
  | item :: items => anchored item ++ anchoredItems items

def anchoredPairs : List (Node Nat × Node Nat) → List (Nat × Node Nat)
  | [] => []
  | (key, value) :: pairs => anchored key ++ anchored value ++ anchoredPairs pairs

end

mutual

/-- The size of a node: one for a scalar or an alias, two more than the parts for a collection. -/
def size : Node Nat → Nat
  | .alias _ => 1
  | .scalar _ _ _ _ => 1
  | .sequence _ _ items => 2 + sizeItems items
  | .mapping _ _ pairs => 2 + sizePairs pairs

def sizeItems : List (Node Nat) → Nat
  | [] => 0
  | item :: items => size item + sizeItems items

def sizePairs : List (Node Nat × Node Nat) → Nat
  | [] => 0
  | (key, value) :: pairs => size key + size value + sizePairs pairs

end

end Node

/-! ## From nodes to values -/

namespace Value

/-- The own type that a tag names, if it starts with an exclamation mark; a mark alone names itself. -/
def ownTag? : Option String → Option String
  | none => none
  | some tag =>
    match tag.toList with
    | ['!'] => some "!"
    | '!' :: name => some (String.ofList name)
    | _ => none

/-- Put a tag that names an own type around a value. -/
def withTag (tag : Option String) (value : Value) : Value :=
  match ownTag? tag with
  | none => value
  | some name => tagged name value

def ofScalarNode (tag : Option String) (content : String) (plain : Bool) : Option Value :=
  let untagged := if plain then Scalar.ofPlain content else some (.text content)
  match ownTag? tag, tag with
  | some _, _ => untagged.map fun s => withTag tag (ofScalar s)
  | none, some tag => (Scalar.ofTagged tag content).map ofScalar
  | none, none => untagged.map ofScalar

/-- What loading needs to know of the whole document. -/
structure Source where
  /-- The nodes with an anchor, the last one first. -/
  anchored : List (Nat × Node Nat)
  /-- How many aliases may be replaced. -/
  limit : Nat

/-- Loading counts the aliases it replaces. -/
abbrev Load (α : Type) := StateT Nat Option α

/-- The node that an alias points at, counting the step. -/
def follow (source : Source) : Node Nat → Load (Node Nat)
  | .alias target => do
    modify (· + 1)
    if source.limit < (← get) then failure
    else
      match source.anchored.lookup target with
      | some node => pure node
      | none => failure
  | node => pure node

/-- Load pairs in order, refusing a key that is already there. -/
def loadPairs (load : Node Nat → Load Value) :
    List (Node Nat × Node Nat) → (before : List (Value × Value)) → Load (List (Value × Value))
  | [], before => pure before.reverse
  | (key, value) :: rest, before => do
    let key ← load key
    if hasKey key before then failure
    else
      let value ← load value
      loadPairs load rest ((key, value) :: before)

/-- The value of a node that is no alias; `load` loads its parts and is absent at the deepest level. -/
def ofNode (load : Option (Node Nat → Load Value)) : Node Nat → Load Value
  | .alias _ => failure
  | .scalar _ tag content plain =>
    match ofScalarNode tag content plain with
    | some value => pure value
    | none => failure
  | .sequence _ tag items =>
    match load with
    | none => failure
    | some load => do
      let items ← items.mapM load
      return withTag tag (sequence items)
  | .mapping _ tag pairs =>
    match load with
    | none => failure
    | some load => do
      let pairs ← loadPairs load pairs []
      return withTag tag (mapping pairs)

/-- The value of a node with at most `depth` levels of collections. -/
def load (source : Source) : Nat → Node Nat → Load Value
  | 0, node => do ofNode none (← follow source node)
  | depth + 1, node => do ofNode (some (load source depth)) (← follow source node)

def maxDepth : Nat := 128

end Value

/-- The value of a YAML text, which is null if it holds no document; `none` if the text is malformed,
holds more than one document or breaks a limit. -/
def parse (text : String) : Option Value := do
  match ← document (← tokens text) with
  | none => return .null
  | some node =>
    let (node, _) ← node.resolve []
    let source : Value.Source := ⟨node.anchored.reverse, 100 * node.size⟩
    let (value, _) ← (Value.load source Value.maxDepth node).run 0
    return value

end ChartValues.Yaml
