/-! # Doubles

Numbers with a fraction, in settings and in documents, are IEEE 754 doubles.  A finite one
is `mantissa * 2 ^ exponent`; all arithmetic on it is exact arithmetic on naturals followed
by one rounding, `ofRatio`, which takes the nearest double and, of two nearest, the one
with the even mantissa.
-/

namespace ImageLookup

/-- A double.  A finite one has its mantissa below `2 ^ 53` and its exponent from -1074 to
    971, and the mantissa is at least `2 ^ 52` unless the exponent is -1074. -/
inductive Double where
  | finite (negative : Bool) (mantissa : Nat) (exponent : Int)
  | infinite (negative : Bool)
  | nan
deriving DecidableEq, Repr

namespace Double

def powerOfTwo (n : Nat) : Nat := Nat.pow 2 n

def powerOfTen (n : Nat) : Nat := Nat.pow 10 n

def mantissaBound : Nat := powerOfTwo 53

def leastNormalMantissa : Nat := powerOfTwo 52

def leastExponent : Int := -1074

def greatestExponent : Int := 971

def zero (negative : Bool) : Double := .finite negative 0 leastExponent

def isFinite : Double → Bool
  | .finite .. => true
  | _ => false

/-! ### Rounding -/

/-- The quotient rounded to the nearest natural, a half to the even one. -/
def roundEven (num den : Nat) : Nat :=
  let quotient := num / den
  let twice := 2 * (num % den)
  if twice < den then quotient
  else if twice = den ∧ quotient % 2 = 0 then quotient
  else quotient + 1

def roundHalfUp (num den : Nat) : Nat := (2 * num + den) / (2 * den)

/-- The quotient `num / den / 2 ^ exponent` as a pair of naturals. -/
def shifted (num den : Nat) (exponent : Int) : Nat × Nat :=
  if 0 ≤ exponent then (num, den * powerOfTwo exponent.toNat)
  else (num * powerOfTwo (-exponent).toNat, den)

/-- The double nearest to `num / den`, for a positive `den`. -/
def ofRatio (negative : Bool) (num den : Nat) : Double :=
  if num = 0 then zero negative else
  let low : Int := max leastExponent ((num.log2 : Int) - (den.log2 : Int) - 53)
  let (n, d) := shifted num den low
  let exponent := if n / d < mantissaBound then low else low + 1
  let (n, d) := shifted num den exponent
  let mantissa := roundEven n d
  let (mantissa, exponent) :=
    if mantissa = mantissaBound then (leastNormalMantissa, exponent + 1) else (mantissa, exponent)
  if greatestExponent < exponent then .infinite negative else .finite negative mantissa exponent

def ofNat (n : Nat) : Double := ofRatio false n 1

/-- The double nearest to `digits * 10 ^ exponent`.  Exponents beyond the range of doubles
    are cut short before the power is computed. -/
def ofScientific (negative : Bool) (digits : Nat) (exponent : Int) : Double :=
  if digits = 0 then zero negative
  else if 310 < exponent then .infinite negative
  else if 0 ≤ exponent then ofRatio negative (digits * powerOfTen exponent.toNat) 1
  else if exponent < -400 - (digits.log2 : Int) then zero negative
  else ofRatio negative digits (powerOfTen (-exponent).toNat)

/-! ### Arithmetic -/

/-- The number `mantissa * 2 ^ exponent` as a pair of naturals, numerator and denominator. -/
def ratio (mantissa : Nat) (exponent : Int) : Nat × Nat :=
  if 0 ≤ exponent then (mantissa * powerOfTwo exponent.toNat, 1)
  else (mantissa, powerOfTwo (-exponent).toNat)

/-- The rounded product of two finite doubles; anything else gives `nan`. -/
def mul : Double → Double → Double
  | .finite s m p, .finite t n q =>
    let (num, den) := ratio (m * n) (p + q)
    ofRatio (s != t) num den
  | _, _ => .nan

/-- The rounded quotient of two finite doubles, the second not zero; anything else gives
    `nan`. -/
def div : Double → Double → Double
  | .finite s m p, .finite t n q =>
    if n = 0 then .nan else
    let (num, den) := ratio m (p - q)
    ofRatio (s != t) num (den * n)
  | _, _ => .nan

def neg : Double → Double
  | .finite s m q => .finite (!s) m q
  | .infinite s => .infinite (!s)
  | .nan => .nan

def isZero : Double → Bool
  | .finite _ m _ => m == 0
  | _ => false

/-- The nearest natural up to `limit`, a half rounded up: negative numbers and `nan` count
    as zero, and larger numbers as `limit`. -/
def toNatUpTo (limit : Nat) : Double → Nat
  | .finite false m q =>
    let (num, den) := ratio m q
    min limit (roundHalfUp num den)
  | .infinite false => limit
  | _ => 0

example : ofScientific false 25 (-1) = .finite false (5 * powerOfTwo 50) (-51) := by
  decide +kernel

example : (ofScientific false 25 (-1)).toNatUpTo 100 = 3 := by decide +kernel

end Double

end ImageLookup
