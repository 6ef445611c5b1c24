import ImageLookup.Decimal.Reading

/-! # Number literals of documents

A literal is an optional minus, a whole part without leading zeros, and optionally a
fraction and an exponent.  A literal of a whole part alone is an integer when it fits 64
bits, with or without sign; everything else, minus zero included, is a double.

The double of a literal is computed in two rounded steps: its leading digits, as many as
fit 64 bits, become a double, which is then multiplied or divided by a power of ten.  A
literal beyond the largest double has no value.
-/

namespace ImageLookup.Json

/-- A number literal: its digits, and the exponent as whether it is negative and its digits. -/
structure Numeral where
  negative : Bool
  whole : List Nat
  fraction : List Nat
  exponent : Option (Bool × List Nat)
deriving DecidableEq, Repr

def digitValues (cs : List Char) : List Nat := cs.map fun c => c.toNat - 48

namespace Numeral

/-! ### The grammar -/

/-- The exponent part: empty, or `e` with an optional sign and at least one digit. -/
def exponentOf? : List Char → Option (Option (Bool × List Nat))
  | [] => some none
  | c :: cs =>
    if c == 'e' || c == 'E' then
      let (negative, digits) := Text.unsigned cs
      if digits.isEmpty || !digits.all Text.isDigit then none
      else some (some (negative, digitValues digits))
    else none

def ofWord? (word : List Char) : Option Numeral := do
  let (negative, body) := match word with
    | '-' :: cs => (true, cs)
    | cs => (false, cs)
  let whole := body.takeWhile Text.isDigit
  let leadingZero := whole.head? == some '0' && whole.length != 1
  if whole.isEmpty || leadingZero then none
  else
    match body.dropWhile Text.isDigit with
    | '.' :: cs =>
      let fraction := cs.takeWhile Text.isDigit
      if fraction.isEmpty then none
      else
        let exponent ← exponentOf? (cs.dropWhile Text.isDigit)
        return ⟨negative, digitValues whole, digitValues fraction, exponent⟩
    | cs =>
      let exponent ← exponentOf? cs
      return ⟨negative, digitValues whole, [], exponent⟩

/-! ### The value -/

/-- Appends digits to a number below `limit` for as long as it stays below; gives the number
    and the digits that are left. -/
def extend (limit : Nat) : Nat → List Nat → Nat × List Nat
  | n, [] => (n, [])
  | n, d :: ds => if 10 * n + d < limit then extend limit (10 * n + d) ds else (n, d :: ds)

/-- The leading digits, and the power of ten that belongs to them.  Digits of the whole part
    that are left out count as zeros, digits of the fraction as absent. -/
def leading (n : Numeral) : Nat × Int :=
  let (significand, skipped) := extend Text.wordBound 0 n.whole
  let (significand, ignored) := extend Text.wordBound significand n.fraction
  (significand, (skipped.length : Int) - ((n.fraction.length - ignored.length : Nat) : Int))

def lowered : Nat → Double → Nat → Double
  | 0, x, _ => x
  | rounds + 1, x, power =>
    if power ≤ 308 then x.div (.ofNat (Double.powerOfTen power))
    else if x.isZero then x
    else lowered rounds (x.div (.ofNat (Double.powerOfTen 308))) (power - 308)

/-- The double `significand * 10 ^ power`, unless that is beyond the doubles. -/
def scaled? (significand : Nat) (power : Int) : Option Double :=
  let x := Double.ofNat significand
  if power < 0 then some (lowered 4 x (-power).toNat)
  else if x.isZero then some x
  else if 308 < power then none
  else (some (x.mul (.ofNat (Double.powerOfTen power.toNat)))).filter Double.isFinite

/-- The range of exponents: 32 bits with sign. -/
def exponentLimit : Nat := Nat.pow 2 31

def magnitude? (n : Numeral) : Option Double :=
  let (significand, power) := n.leading
  match n.exponent with
  | none => scaled? significand power
  | some (negative, digits) =>
    let (exponent, excess) := extend exponentLimit 0 digits
    if !excess.isEmpty then
      if significand != 0 && !negative then none else some (.zero false)
    else
      let total := if negative then power - exponent else power + exponent
      scaled? significand (max (-(exponentLimit : Int)) (min total (exponentLimit - 1)))

def double? (n : Numeral) : Option Double :=
  n.magnitude?.map fun x => if n.negative then x.neg else x

def integer? (n : Numeral) : Option Int :=
  if n.fraction.isEmpty && n.exponent.isNone then
    let magnitude := Text.naturalOf 10 n.whole
    if n.negative then
      if magnitude = 0 ∨ Text.signedBound < magnitude then none else some (-(magnitude : Int))
    else if magnitude < Text.wordBound then some (magnitude : Int)
    else none
  else none

example : (ofWord? "-0".toList).bind integer? = none := by decide +kernel

example : (ofWord? "012".toList) = none := by decide +kernel

example : (ofWord? "1e400".toList).bind double? = none := by decide +kernel

example : (ofWord? "25e-1".toList).bind double? = some (.ofScientific false 25 (-1)) := by
  decide +kernel

end Numeral

end ImageLookup.Json
