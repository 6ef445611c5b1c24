import ImageLookup.Decimal.Double
import ImageLookup.Text.Cut

/-! # Reading numbers from text

Integers are an optional sign and digits; decimals add a point with digits on at least one
side and an exponent.  No blanks and no digit separators are allowed.  The words `inf`,
`infinity` and `nan`, in any case, are decimals too.
-/

namespace ImageLookup.Text

def isDigit (c : Char) : Bool := decide ('0' ≤ c) && decide (c ≤ '9')

/-- The lower-case form of an ASCII letter; other characters stay. -/
def lowerAscii (cs : List Char) : List Char := cs.map Char.toLower

/-- The natural written by digits in a base of at most sixteen, given their values. -/
def naturalOf (base : Nat) (values : List Nat) : Nat :=
  values.foldl (fun n d => base * n + d) 0

/-- A natural: one or more digits of the base. -/
def natural? (base : Nat) (cs : List Char) : Option Nat :=
  match cs with
  | [] => none
  | _ => (cs.mapM fun c => (digitOf? c).filter (· < base)).map (naturalOf base)
where
  /-- The value of a letter or digit as a digit. -/
  digitOf? (c : Char) : Option Nat :=
    let n := c.toNat
    if 48 ≤ n ∧ n ≤ 57 then some (n - 48)
    else if 97 ≤ n ∧ n ≤ 122 then some (n - 87)
    else if 65 ≤ n ∧ n ≤ 90 then some (n - 55)
    else none

/-- Takes a sign off the front: whether it is a minus, and the rest. -/
def unsigned : List Char → Bool × List Char
  | '-' :: cs => (true, cs)
  | '+' :: cs => (false, cs)
  | cs => (false, cs)

/-- An integer: an optional sign and one or more digits of the base. -/
def integer? (base : Nat) (cs : List Char) : Option Int :=
  let (negative, digits) := unsigned cs
  (natural? base digits).map fun n => if negative then -(n : Int) else (n : Int)

def wordBound : Nat := Nat.pow 2 64

/-- The bound of numbers of 64 bits with sign, which go down to its negation. -/
def signedBound : Nat := Nat.pow 2 63

def integer64? (base : Nat) (cs : List Char) : Option Int :=
  (integer? base cs).filter fun i => -(signedBound : Int) ≤ i && i < (signedBound : Int)

def natural64? (base : Nat) (cs : List Char) : Option Nat :=
  let digits := match cs with
    | '+' :: rest => rest
    | _ => cs
  (natural? base digits).filter (· < wordBound)

/-! ### Decimals -/

/-- The exponent part: empty, or a letter `e` and an integer. -/
def exponent? : List Char → Option Int
  | [] => some 0
  | c :: cs => if c == 'e' || c == 'E' then integer? 10 cs else none

/-- A decimal number without sign: its digits as a natural, and the power of ten. -/
def unsignedDecimal? (cs : List Char) : Option (Nat × Int) :=
  let whole := cs.takeWhile isDigit
  let (fraction, rest) := match cs.dropWhile isDigit with
    | '.' :: more => (more.takeWhile isDigit, more.dropWhile isDigit)
    | more => ([], more)
  match whole ++ fraction with
  | [] => none
  | digits => do
    let exponent ← exponent? rest
    return (← natural? 10 digits, exponent - (fraction.length : Int))

def decimal? (cs : List Char) : Option Double :=
  let (negative, body) := unsigned cs
  let word := String.ofList (lowerAscii body)
  if word == "inf" || word == "infinity" then some (.infinite negative)
  else if word == "nan" then some .nan
  else (unsignedDecimal? body).map fun d => .ofScientific negative d.1 d.2

example : decimal? "1e3".toList = some (Double.ofNat 1000) := by decide +kernel

example : decimal? "1_000".toList = none := by decide +kernel

example : integer64? 10 "-0".toList = some 0 := by decide +kernel

end ImageLookup.Text
