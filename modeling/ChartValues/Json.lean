import ChartValues.Text.Quoted

/-!
# Structured output

Values as JSON text: on one line, or with each element on a line of its own and two blanks of
indentation.
-/

namespace ChartValues

/-- A value of structured output. -/
inductive Json where
  | null
  | bool (b : Bool)
  | number (n : Nat)
  | string (s : String)
  | array (elements : List Json)
  | object (fields : List (String × Json))
  deriving Repr, Inhabited

namespace Json

/-- A text or null. -/
def ofOption : Option String → Json
  | some s => string s
  | none => null

def ofStrings (xs : List String) : Json := array (xs.map string)

mutual

/-- The text on one line. -/
def compact : Json → String
  | .null => "null"
  | .bool b => if b then "true" else "false"
  | .number n => toString n
  | .string s => Text.quote s
  | .array elements => "[" ++ ",".intercalate (compactElements elements) ++ "]"
  | .object fields => "\x7b" ++ ",".intercalate (compactFields fields) ++ "\x7d"

def compactElements : List Json → List String
  | [] => []
  | v :: rest => compact v :: compactElements rest

def compactFields : List (String × Json) → List String
  | [] => []
  | (k, v) :: rest => (Text.quote k ++ ":" ++ compact v) :: compactFields rest

end

def indentation (level : Nat) : String := String.ofList (List.replicate (2 * level) ' ')

/-- Parts between brackets, each on its own line; nothing between them if there are none. -/
def lines (level : Nat) (opening closing : String) (parts : List String) : String :=
  if parts.isEmpty then opening ++ closing
  else
    let inner := indentation (level + 1)
    opening ++ "\n" ++ ",\n".intercalate (parts.map (inner ++ ·)) ++ "\n" ++ indentation level ++
      closing

mutual

/-- The text over several lines, inside `level` others. -/
def prettyAt (level : Nat) : Json → String
  | .array elements => lines level "[" "]" (prettyElements (level + 1) elements)
  | .object fields => lines level "\x7b" "\x7d" (prettyFields (level + 1) fields)
  | .null => "null"
  | .bool b => if b then "true" else "false"
  | .number n => toString n
  | .string s => Text.quote s

def prettyElements (level : Nat) : List Json → List String
  | [] => []
  | v :: rest => prettyAt level v :: prettyElements level rest

def prettyFields (level : Nat) : List (String × Json) → List String
  | [] => []
  | (k, v) :: rest => (Text.quote k ++ ": " ++ prettyAt level v) :: prettyFields level rest

end

/-- The text over several lines. -/
def pretty (v : Json) : String := prettyAt 0 v

end Json

end ChartValues
