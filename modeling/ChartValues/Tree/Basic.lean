import ChartValues.Text.Quoted

/-!
# Values trees

A chart's default values as a tree: objects hold named children in order, everything else is a scalar
with a display text and a kind. `get?` follows a path of keys, `toYaml` writes a tree in block style.
-/

namespace ChartValues

/-- What kind of value a scalar stands for. A list is a scalar: its items have no keys. -/
inductive Kind where
  | string
  | number
  | boolean
  | null
  | sequence
  deriving DecidableEq, Repr

def Kind.name : Kind → String
  | string => "string"
  | number => "number"
  | boolean => "boolean"
  | null => "null"
  | sequence => "sequence"

/-- Default values: a scalar with its display text, or an object with its children in order. -/
inductive Tree where
  | scalar (text : String) (kind : Kind)
  | object (fields : List (String × Tree))
  deriving Repr, BEq, Inhabited

namespace Tree

/-- The scalar of a string: its text is quoted. -/
def string (s : String) : Tree := scalar (Text.quote s) .string

def number (text : String) : Tree := scalar text .number

def boolean (b : Bool) : Tree := scalar (if b then "true" else "false") .boolean

def null : Tree := scalar "null" .null

def empty : Tree := object []

def isObject : Tree → Bool
  | object _ => true
  | scalar _ _ => false

def text? : Tree → Option String
  | object _ => none
  | scalar text _ => some text

def kind? : Tree → Option Kind
  | object _ => none
  | scalar _ kind => some kind

def fields? : Tree → Option (List (String × Tree))
  | object fields => some fields
  | scalar _ _ => none

/-- The value stored under a key. -/
def lookup (key : String) : List (String × α) → Option α
  | [] => none
  | (k, v) :: rest => if k = key then some v else lookup key rest

/-- Store a value under a key: in the place of the key if it is there, else at the end. -/
def insert (key : String) (value : α) : List (String × α) → List (String × α)
  | [] => [(key, value)]
  | (k, v) :: rest => if k = key then (k, value) :: rest else (k, v) :: insert key value rest

/-- The pairs in order; a repeated key keeps its first place and its last value. -/
def ofPairs (pairs : List (String × α)) : List (String × α) :=
  pairs.foldl (fun fields (k, v) => insert k v fields) []

def child? (t : Tree) (key : String) : Option Tree :=
  match t with
  | object fields => lookup key fields
  | scalar _ _ => none

/-- The node at the end of a path of keys. -/
def get? (t : Tree) : List String → Option Tree
  | [] => some t
  | key :: path =>
    match t.child? key with
    | some child => child.get? path
    | none => none

def spaces (n : Nat) : String := String.ofList (List.replicate n ' ')

mutual

/-- The node in block style, every line indented by `indent` spaces. -/
def toYaml (indent : Nat) : Tree → String
  | scalar text _ => spaces indent ++ text ++ "\n"
  | object [] => spaces indent ++ "\x7b\x7d\n"
  | object (field :: fields) => fieldsYaml indent (field :: fields)

def fieldsYaml (indent : Nat) : List (String × Tree) → String
  | [] => ""
  | (key, scalar text _) :: rest =>
    spaces indent ++ key ++ ": " ++ text ++ "\n" ++ fieldsYaml indent rest
  | (key, object []) :: rest => spaces indent ++ key ++ ": \x7b\x7d\n" ++ fieldsYaml indent rest
  | (key, object (field :: fields)) :: rest =>
    spaces indent ++ key ++ ":\n" ++ fieldsYaml (indent + 2) (field :: fields) ++
      fieldsYaml indent rest

end

def keyedYaml (key : String) : Tree → String
  | scalar text _ => key ++ ": " ++ text ++ "\n"
  | object [] => key ++ ": \x7b\x7d\n"
  | object (field :: fields) => key ++ ":\n" ++ toYaml 2 (object (field :: fields))

end Tree

end ChartValues
