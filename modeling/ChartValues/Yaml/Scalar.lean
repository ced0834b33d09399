import ChartValues.Decimal.Shortest
import ChartValues.Yaml.Cursor

/-!
# The meaning of scalars

What a plain scalar stands for: nothing, a truth value, a number or a text. Integers may be written in
four bases; they are refused where they fit 128 bits but not 64, and digits with a leading zero are
text. A tag may force a meaning, which the content then has to fit.
-/

namespace ChartValues.Yaml

open ChartValues.Decimal

inductive Number where
  | integer (n : Int)
  | float (x : Binary64)
  deriving DecidableEq, Repr

namespace Number

def same : Number → Number → Bool
  | integer m, integer n => m == n
  | float x, float y => x.same y
  | _, _ => false

/-- How exponents of numbers are written in scalar texts: `1e16`. -/
def layout : Layout := ⟨false, 1⟩

def text : Number → String
  | integer n => toString n
  | float (.finite negative m e) => layout.finite negative m e
  | float (.infinite negative) => if negative then "-.inf" else ".inf"
  | float .nan => ".nan"

end Number

/-- The meaning of a scalar. -/
inductive Scalar where
  | null
  | boolean (b : Bool)
  | number (n : Number)
  | text (s : String)
  deriving DecidableEq, Repr

namespace Scalar

def isNull (s : String) : Bool := s == "null" || s == "Null" || s == "NULL" || s == "~"

def boolean? (s : String) : Option Bool :=
  if s == "true" || s == "True" || s == "TRUE" then some true
  else if s == "false" || s == "False" || s == "FALSE" then some false
  else none

/-- The value of a non-empty run of digits of a base. -/
def digits? (base : Nat) (cs : List Char) : Option Nat :=
  if cs.isEmpty then none
  else cs.foldlM (fun n c => do
    let d ← hexValue? c
    if d < base then some (n * base + d) else none) 0

def unsigned : List Char → List Char
  | '-' :: cs => cs
  | '+' :: cs => cs
  | cs => cs

/-- Digits with a zero before them, which are no number. -/
def isZeroPadded (cs : List Char) : Bool :=
  match unsigned cs with
  | '0' :: c :: rest => (c :: rest).all Char.isDigit
  | _ => false

/-- An integer without sign, in one of the four bases. -/
def magnitude? (cs : List Char) : Option Nat :=
  match cs with
  | '0' :: 'x' :: rest => digits? 16 rest
  | '0' :: 'o' :: rest => digits? 8 rest
  | '0' :: 'b' :: rest => digits? 2 rest
  | rest => if isZeroPadded rest then none else digits? 10 rest

def integer? : List Char → Option Int
  | '-' :: cs => (magnitude? cs).map fun (n : Nat) => -(n : Int)
  | '+' :: cs => (magnitude? cs).map fun (n : Nat) => (n : Int)
  | cs => (magnitude? cs).map fun (n : Nat) => (n : Int)

/-- What reading an integer gives: no integer, one out of range, or a number. -/
inductive IntegerReading where
  | absent
  | outOfRange
  | number (n : Int)

/-- Read an integer. One beyond 128 bits is none. -/
def readInteger (cs : List Char) : IntegerReading :=
  match integer? cs with
  | none => .absent
  | some n =>
    if -Int.pow 2 63 ≤ n ∧ n < Int.pow 2 64 then .number n
    else if -Int.pow 2 127 ≤ n ∧ n < Int.pow 2 128 then .outOfRange
    else .absent

/-- A floating-point number that does not overflow. -/
def float? (s : String) : Option Binary64 :=
  let cs := s.toList
  let positive := match cs with
    | '+' :: '+' :: _ => none
    | '+' :: '-' :: _ => none
    | '+' :: rest => some rest
    | rest => some rest
  positive.bind fun rest =>
    let text := String.ofList rest
    if text == ".inf" || text == ".Inf" || text == ".INF" then some (.infinite false)
    else if s == "-.inf" || s == "-.Inf" || s == "-.INF" then some (.infinite true)
    else if s == ".nan" || s == ".NaN" || s == ".NAN" then some .nan
    else (Binary64.read rest).filter Binary64.isFinite

/-- The meaning of a plain scalar; `none` if it is an integer out of range. -/
def ofPlain (s : String) : Option Scalar :=
  if s.isEmpty || isNull s then some null
  else
    match boolean? s with
    | some b => some (boolean b)
    | none =>
      match readInteger s.toList with
      | .number n => some (number (.integer n))
      | .outOfRange => none
      | .absent =>
        if isZeroPadded s.toList then some (text s)
        else
          match float? s with
          | some x => some (number (.float x))
          | none => some (text s)

/-- The meaning that a tag forces on a scalar; `none` if the content does not fit. Tags that force
nothing leave the content as text. -/
def ofTagged (tag s : String) : Option Scalar :=
  if tag == "tag:yaml.org,2002:bool" then (boolean? s).map boolean
  else if tag == "tag:yaml.org,2002:int" then
    match readInteger s.toList with
    | .number n => some (number (.integer n))
    | _ => none
  else if tag == "tag:yaml.org,2002:float" then (float? s).map fun x => number (.float x)
  else if tag == "tag:yaml.org,2002:null" then (if isNull s then some null else none)
  else some (text s)

end Scalar

end ChartValues.Yaml
