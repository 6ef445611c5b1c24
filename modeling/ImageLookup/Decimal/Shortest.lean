import ImageLookup.Decimal.Double

/-! # The shortest decimal that reads back

A finite double is printed with the fewest decimal digits that round to it, and, where
several decimals of that length do, with the one nearest to it.  The reals that round to
`m * 2 ^ q` form an interval whose ends lie half a step away (a quarter of a step below a
power of two); the ends belong to it when `m` is even.  On each decimal grid it is enough
to try the two grid points around the double: when any point of the grid lies in the
interval, one of these does.
-/

namespace ImageLookup.Double

/-- A decimal numeral `0.d₁d₂… * 10 ^ point`, the digits most significant first. -/
structure Numeral where
  digits : List Nat
  point : Int
deriving DecidableEq, Repr

def decimalDigits (n : Nat) : List Nat := (Nat.toDigits 10 n).map fun c => c.toNat - 48

/-- The number, its lower end and its upper end, over a common denominator. -/
structure Neighbourhood where
  value : Nat
  low : Nat
  high : Nat
  unit : Nat
  /-- Whether the ends round to the number as well. -/
  closed : Bool

/-- The reals that round to `m * 2 ^ q`. -/
def neighbourhood (m : Nat) (q : Int) : Neighbourhood :=
  let below := if m = leastNormalMantissa ∧ leastExponent < q then 1 else 2
  let (factor, unit) := ratio 1 (q - 2)
  ⟨4 * m * factor, (4 * m - below) * factor, (4 * m + 2) * factor, unit, m % 2 == 0⟩

def Neighbourhood.holds (n : Neighbourhood) (num den : Nat) : Bool :=
  let scaled := num * n.unit
  if n.closed then n.low * den ≤ scaled && scaled ≤ n.high * den
  else n.low * den < scaled && scaled < n.high * den

/-- The grid of step `10 ^ step`: the better one of the two points around the number, if
    one of them rounds to it. -/
def Neighbourhood.onGrid? (n : Neighbourhood) (step : Int) : Option Nat :=
  let (up, down) :=
    if 0 ≤ step then (powerOfTen step.toNat, 1) else (1, powerOfTen (-step).toNat)
  let floor := n.value * down / (n.unit * up)
  let lower := floor != 0 && n.holds (floor * up) down
  let upper := n.holds ((floor + 1) * up) down
  let nearerUpper := 2 * n.value * down > (2 * floor + 1) * n.unit * up
  let tie := 2 * n.value * down == (2 * floor + 1) * n.unit * up
  if lower && upper then
    some (if nearerUpper || (tie && floor % 2 == 1) then floor + 1 else floor)
  else if lower then some floor
  else if upper then some (floor + 1)
  else none

/-- The place of the first digit: `10 ^ (place - 1) ≤ value < 10 ^ place`. -/
def Neighbourhood.place (n : Neighbourhood) : Int :=
  if n.unit ≤ n.value then ((decimalDigits (n.value / n.unit)).length : Int)
  else 1 - ((decimalDigits ((n.unit - 1) / n.value)).length : Int)

def Neighbourhood.search (n : Neighbourhood) : Nat → Nat → Option (Nat × Int)
  | 0, _ => none
  | fuel + 1, tried =>
    let step := n.place - tried
    match n.onGrid? step with
    | some k => some (k, step)
    | none => n.search fuel (tried + 1)

def withoutTrailingZeros (ds : List Nat) : List Nat := (ds.reverse.dropWhile (· == 0)).reverse

/-- The shortest numeral of `m * 2 ^ q`, for a positive `m`: seventeen digits always do. -/
def shortest (m : Nat) (q : Int) : Numeral :=
  match (neighbourhood m q).search 18 1 with
  | some (k, step) =>
    let ds := decimalDigits k
    ⟨withoutTrailingZeros ds, step + (ds.length : Int)⟩
  | none => ⟨[], 0⟩

/-! ### Layouts -/

def digitChars (ds : List Nat) : List Char := ds.map fun d => Char.ofNat (d + 48)

/-- Positional notation: all digits before and after the point, and no point when nothing
    follows it. -/
def Numeral.positional (n : Numeral) : List Char :=
  let ds := digitChars n.digits
  if n.point ≤ 0 then ['0', '.'] ++ List.replicate (-n.point).toNat '0' ++ ds
  else
    let k := n.point.toNat
    if ds.length ≤ k then ds ++ List.replicate (k - ds.length) '0'
    else ds.take k ++ '.' :: ds.drop k

def Numeral.scientific (n : Numeral) : List Char :=
  let power := (toString (n.point - 1)).toList
  match digitChars n.digits with
  | [] => ['0']
  | [d] => d :: 'e' :: power
  | d :: ds => d :: '.' :: ds ++ 'e' :: power

def signed (negative : Bool) (cs : List Char) : List Char := if negative then '-' :: cs else cs

def plainText : Double → List Char
  | .finite s 0 _ => signed s ['0']
  | .finite s m q => signed s (shortest m q).positional
  | .infinite s => signed s "inf".toList
  | .nan => "NaN".toList

/-- The text of a finite double in a document: positional from `1e-5` up to `1e16`, always
    with a point, and scientific beyond. -/
def documentText : Double → List Char
  | .finite s 0 _ => signed s "0.0".toList
  | .finite s m q =>
    let n := shortest m q
    if n.point ≤ -5 ∨ 16 < n.point then signed s n.scientific
    else if (n.digits.length : Int) ≤ n.point then signed s (n.positional ++ ".0".toList)
    else signed s n.positional
  | _ => "null".toList

example : plainText (ofScientific false 15 (-1)) = "1.5".toList := by decide +kernel

example : plainText (ofScientific false 1 21) = "1000000000000000000000".toList := by
  decide +kernel

end ImageLookup.Double
