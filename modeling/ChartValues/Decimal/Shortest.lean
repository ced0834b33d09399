import ChartValues.Decimal.Binary64

/-!
# Shortest decimal text

The fewest decimal digits that read back as a given floating-point number, and how they are laid out:
positionally for moderate exponents, else with an exponent whose spelling a `Layout` fixes.
-/

namespace ChartValues.Decimal

structure Digits where
  digits : Nat
  exponent : Int
  deriving DecidableEq, Repr

namespace Digits

/-- Strike trailing zeros, at most `fuel` of them. -/
def strip : Nat → Digits → Digits
  | 0, d => d
  | fuel + 1, d =>
    if d.digits ≠ 0 ∧ d.digits % 10 = 0 then strip fuel ⟨d.digits / 10, d.exponent + 1⟩ else d

/-- The grid point nearest to `num / den` on the grid of `10 ^ exponent`, if it reads back: if it
lies between `low / den` and `high / den`, ends included when `closed`. -/
def onGrid (num low high den : Nat) (closed : Bool) (exponent : Int) : Option Digits :=
  let up := Nat.pow 10 (-exponent).toNat
  let down := Nat.pow 10 exponent.toNat
  let (num, low, high, den) := (num * up, low * up, high * up, den * down)
  let q := num / den
  let hits (n : Nat) : Bool :=
    if closed then low ≤ n * den && n * den ≤ high else low < n * den && n * den < high
  let below := num - q * den
  let above := (q + 1) * den - num
  match hits q, hits (q + 1) with
  -- Where both neighbours read back, the nearer one is taken, or the even one of two.
  | true, true =>
    if below < above then some ⟨q, exponent⟩
    else if above < below then some ⟨q + 1, exponent⟩
    else some ⟨if q % 2 = 0 then q else q + 1, exponent⟩
  | true, false => some ⟨q, exponent⟩
  | false, true => some ⟨q + 1, exponent⟩
  | false, false => none

/-- The fewest digits that read back as `mantissa * 2 ^ exponent`. -/
def shortest (mantissa : Nat) (exponent : Int) : Digits :=
  if mantissa = 0 then ⟨0, 0⟩
  else
    -- Everything in quarters of a unit in the last place: the interval reaches half a unit to either side, and
    -- just a quarter down from a power of two, below which numbers lie closer.
    let unit := exponent - 2
    let up := Nat.pow 2 unit.toNat
    let den := Nat.pow 2 (-unit).toNat
    let gap := if mantissa = Nat.pow 2 52 ∧ Binary64.minExponent < exponent then 1 else 2
    let num := 4 * mantissa * up
    let low := (4 * mantissa - gap) * up
    let high := (4 * mantissa + 2) * up
    let magnitude : Int := (Binary64.digitCount (num * Nat.pow 10 400 / den) : Int) - 401
    -- Grids from coarse to fine; seventeen digits always suffice.
    let grids := (List.range 17).map fun (n : Nat) => magnitude - (n : Int)
    let found := grids.findSome? (onGrid num low high den (mantissa % 2 == 0))
    strip 20 (found.getD ⟨num / den, 0⟩)

end Digits

/-- How an exponent is written. -/
structure Layout where
  /-- Whether a positive exponent has a sign. -/
  plus : Bool
  /-- The least number of digits of an exponent. -/
  width : Nat
  deriving DecidableEq, Repr

namespace Layout

def zeros (n : Nat) : List Char := List.replicate n '0'

def exponent (layout : Layout) (e : Int) : List Char :=
  let digits := Nat.toDigits 10 e.natAbs
  let sign := if e < 0 then ['-'] else if layout.plus then ['+'] else []
  'e' :: sign ++ zeros (layout.width - digits.length) ++ digits

/-- The digits with a point: positional when the point falls within sixteen digits or at most four
zeros stand before them, else with an exponent. -/
def digits (layout : Layout) (d : Digits) : List Char :=
  let ds := Nat.toDigits 10 d.digits
  let point : Int := ds.length + d.exponent
  if d.digits = 0 then ['0', '.', '0']
  else if 0 ≤ d.exponent ∧ point ≤ 16 then ds ++ zeros d.exponent.toNat ++ ['.', '0']
  else if 0 < point ∧ point ≤ 16 then ds.take point.toNat ++ '.' :: ds.drop point.toNat
  else if -5 < point ∧ point ≤ 0 then '0' :: '.' :: zeros (-point).toNat ++ ds
  else
    match ds with
    | [] => []
    | [only] => only :: layout.exponent (point - 1)
    | first :: rest => first :: '.' :: rest ++ layout.exponent (point - 1)

def finite (layout : Layout) (negative : Bool) (mantissa : Nat) (exponent : Int) : String :=
  String.ofList ((if negative then ['-'] else []) ++
    layout.digits (Digits.shortest mantissa exponent))

end Layout

end ChartValues.Decimal
