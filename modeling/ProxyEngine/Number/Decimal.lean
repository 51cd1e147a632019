import ProxyEngine.Number.Binary64

/-!
Decimal text of doubles. `shortest` chooses the fewest significant digits that
read back as the same double and, among those, the nearest value; a point
exactly between two candidates goes up. Two layouts are written: positional
without an exponent, and scientific for very large and very small values.
-/

namespace ProxyEngine

structure Decimal where
  digits : Nat
  exponent : Int
  deriving DecidableEq

namespace Decimal

def digitCount (n : Nat) : Nat :=
  (Nat.toDigits 10 n).length

/-- The `k` with `10 ^ (k - 1) ≤ num / den < 10 ^ k`, for positive `num` and `den`. -/
def pointPosition (num den : Nat) : Int :=
  if den ≤ num then digitCount (num / den)
  else 1 - (digitCount ((den + num - 1) / num - 1) : Int)

/-- The fractions that read back as one double, over the common denominator `den`.
The ends belong to the interval when the significand is even. -/
structure Interval where
  lower : Nat
  value : Nat
  upper : Nat
  den : Nat
  closed : Bool

namespace Interval

def ofBinary64 (x : Binary64) : Interval :=
  let m := x.significand
  let below := if x.fraction = 0 ∧ 1 < x.exponentField then 1 else 2
  let up := Nat.pow 2 (x.scale - 2).toNat
  let down := Nat.pow 2 (2 - x.scale).toNat
  { lower := (4 * m - below) * up
    value := 4 * m * up
    upper := (4 * m + 2) * up
    den := down
    closed := m % 2 = 0 }

def holds (i : Interval) (c unit : Nat) : Bool :=
  if i.closed then
    i.lower * unit ≤ c * i.den && c * i.den ≤ i.upper * unit
  else
    i.lower * unit < c * i.den && c * i.den < i.upper * unit

/-- The neighbour of the value on a grid, if one of the two lies in the interval:
the nearer one, and the upper one at equal distance. The grid's points are
`c * step / unit`. -/
def neighbour? (i : Interval) (step unit : Nat) : Option Nat :=
  let low := i.value * unit / (i.den * step)
  let lowFits := i.holds (low * step) unit
  let highFits := i.holds ((low + 1) * step) unit
  let highNearer := i.value * unit * 2 ≥ (2 * low + 1) * step * i.den
  if highFits && (highNearer || !lowFits) then some (low + 1)
  else if lowFits then some low
  else none

def search (i : Interval) (point : Int) : (budget n : Nat) → Decimal
  | 0, n => ⟨i.value / i.den, point - n⟩
  | budget + 1, n =>
    let e := point - n
    match i.neighbour? (Nat.pow 10 e.toNat) (Nat.pow 10 (-e).toNat) with
    | some c => ⟨c, e⟩
    | none => i.search point budget (n + 1)

end Interval

def trimAux : (budget : Nat) → Decimal → Decimal
  | 0, d => d
  | budget + 1, d =>
    if d.digits % 10 = 0 ∧ d.digits ≠ 0 then
      trimAux budget ⟨d.digits / 10, d.exponent + 1⟩
    else d

def trim (d : Decimal) : Decimal :=
  trimAux d.digits d

def shortest (x : Binary64) : Decimal :=
  let i := Interval.ofBinary64 x
  (i.search (pointPosition i.value i.den) 17 1).trim

def zeros (n : Nat) : String :=
  "".pushn '0' n

def positional (integerTail : String) (d : Decimal) : String :=
  let ds := Nat.toDigits 10 d.digits
  let point : Int := ds.length + d.exponent
  if point ≤ 0 then "0." ++ zeros (-point).toNat ++ .ofList ds
  else if ds.length ≤ point.toNat then
    .ofList ds ++ zeros (point.toNat - ds.length) ++ integerTail
  else
    .ofList (ds.take point.toNat) ++ "." ++ .ofList (ds.drop point.toNat)

def scientific (d : Decimal) : String :=
  let ds := Nat.toDigits 10 d.digits
  let tail := if ds.length ≤ 1 then "" else "." ++ .ofList (ds.drop 1)
  .ofList (ds.take 1) ++ tail ++ "e" ++ toString (ds.length + d.exponent - 1)

def magnitude (d : Decimal) : Int :=
  digitCount d.digits + d.exponent - 1

end Decimal

namespace Binary64

def signText (x : Binary64) : String :=
  if x.isNegative then "-" else ""

def render (zero : String) (finite : Decimal → String) (x : Binary64) : String :=
  if x.isNaN then "NaN"
  else if x.isInfinite then x.signText ++ "inf"
  else if x.significand = 0 then x.signText ++ zero
  else x.signText ++ finite (.shortest x)

def plainText : Binary64 → String :=
  render "0" (Decimal.positional "")

/-- Text that shows a number to be a double: integers end in `.0`, and numbers from
`10 ^ 16` on or below `10 ^ -4` have an exponent. -/
def debugText : Binary64 → String :=
  render "0.0" fun d =>
    if 16 ≤ d.magnitude ∨ d.magnitude < -4 then d.scientific
    else d.positional ".0"

end Binary64

end ProxyEngine
