/-!
# TOML values

What a TOML text says once its tables are put together, and the ways a typed record is read from it:
a record is a table of named fields or an array of fields by position, and a name of a choice is a string
or the only key of a table.
-/

namespace ChartValues.Toml

/-- A TOML value. Numbers with a fraction and dates keep their text. -/
inductive Value where
  | string (s : String)
  | integer (n : Int)
  | float (text : String)
  | boolean (b : Bool)
  | date (text : String)
  | array (elements : List Value)
  | table (entries : List (String × Value))
  deriving Repr, Inhabited

namespace Value

def asString : Value → Option String
  | string s => some s
  | _ => none

/-- A number that is not negative. -/
def asNatural : Value → Option Nat
  | integer n => if 0 ≤ n then some n.toNat else none
  | _ => none

/-- The elements of an array, read by `f`. -/
def asList (f : Value → Option α) : Value → Option (List α)
  | array elements => elements.mapM f
  | _ => none

/-- The entries of a table, read by `f`. -/
def asEntries (f : Value → Option α) : Value → Option (List (String × α))
  | table entries => entries.mapM fun (entry : String × Value) => (f entry.2).map (entry.1, ·)
  | _ => none

/-- Whether the value is a table or an array with nothing in it. -/
def isEmpty : Value → Bool
  | array [] => true
  | table [] => true
  | _ => false

/-- One of several names. -/
def asChoice (names : List String) : Value → Option String
  | string s => if names.contains s then some s else none
  | table [(name, v)] => if names.contains name && v.isEmpty then some name else none
  | _ => none

/-- The fields of a record: no others than `names` in a table, or by position in an array. -/
def asRecord (names : List String) : Value → Option (List (String × Value))
  | table entries => if entries.all (names.contains ·.1) then some entries else none
  | array elements => some (names.zip elements)
  | _ => none

end Value

/-- A field that may be missing: `none` if it is there and `f` refuses it. -/
def optional (f : Value → Option α) (fields : List (String × Value)) (name : String) :
    Option (Option α) :=
  match fields.lookup name with
  | some v => (f v).map some
  | none => some none

def withDefault (f : Value → Option α) (fallback : α) (fields : List (String × Value))
    (name : String) : Option α :=
  (optional f fields name).map (·.getD fallback)

def required (f : Value → Option α) (fields : List (String × Value)) (name : String) : Option α :=
  (fields.lookup name).bind f

end ChartValues.Toml
