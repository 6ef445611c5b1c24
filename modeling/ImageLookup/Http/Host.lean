import ImageLookup.Decimal.Reading
import ImageLookup.Text.Octets

/-! # Hosts of web addresses

The host of an address is an IPv6 address in brackets, or a name.  A name may contain percent
escapes; when they are resolved it must be UTF-8 without characters that have a meaning in
addresses.  A name whose last label is a number is an IPv4 address, which may be written with
fewer than four numbers and in base 8, 10 or 16, and must then be a correct one.

Names beyond ASCII are approximated.  Wide forms of ASCII characters count as those, invisible
characters do not count, and characters that no host may contain make the name invalid; but there
are no tables of compatible characters, and labels that start with `xn--` are not decoded, so some
names pass that a complete reader refuses.  What counts as an address is therefore up to the
network (`Network.isWeb`), and this reader is only its default.
-/

namespace ImageLookup.Http

inductive Host where
  | name (cs : List Char)
  | ipv4 (address : Nat)
  | ipv6 (groups : List Nat)
deriving DecidableEq, Repr

namespace Host

/-! ### IPv4 -/

/-- A number of an IPv4 address: `0x` starts base 16, another leading zero base 8. -/
def ipv4Number? (cs : List Char) : Option Nat :=
  match cs with
  | [] => none
  | '0' :: 'x' :: rest | '0' :: 'X' :: rest => if rest.isEmpty then some 0 else Text.natural? 16 rest
  | '0' :: d :: rest => Text.natural? 8 (d :: rest)
  | _ => Text.natural? 10 cs

/-- The labels of a name; a dot at the end does not start another one. -/
def labels (cs : List Char) : List (List Char) :=
  let parts := cs.splitOn '.'
  if 1 < parts.length && parts.getLast? == some [] then parts.dropLast else parts

def endsInNumber (cs : List Char) : Bool :=
  match (labels cs).getLast? with
  | none => false
  | some last => (!last.isEmpty && last.all Char.isDigit) || (ipv4Number? last).isSome

/-- An IPv4 address: up to three numbers below 256, and one that fills the rest. -/
def ipv4? (cs : List Char) : Option Nat := do
  let numbers ← (labels cs).mapM ipv4Number?
  let last ← numbers.getLast?
  let leading := numbers.dropLast
  let room := Nat.pow 256 (4 - leading.length)
  if leading.length ≤ 3 ∧ (∀ n ∈ leading, n < 256) ∧ last < room then
    some (Text.naturalOf 256 leading * room + last)
  else none

/-! ### IPv6 -/

def decimalPart? (cs : List Char) : Option Nat :=
  if cs.isEmpty || (cs.head? == some '0' && cs.length != 1) || !cs.all Char.isDigit then none
  else (Text.natural? 10 cs).filter (· < 256)

/-- The groups that the last part of an IPv6 address stands for: one, or two in decimal
    notation. -/
def lastGroups? (cs : List Char) : Option (List Nat) :=
  match (cs.splitOn '.').mapM decimalPart? with
  | some [a, b, c, d] => some [256 * a + b, 256 * c + d]
  | _ => none

def group? (cs : List Char) : Option Nat := if cs.length ≤ 4 then Text.natural? 16 cs else none

/-- The groups of one side of an IPv6 address.  Decimal notation may only end an address. -/
def groups? (isLast : Bool) (cs : List Char) : Option (List Nat) :=
  match cs with
  | [] => some []
  | _ =>
    let parts := cs.splitOn ':'
    match parts.getLast? with
    | none => none
    | some last =>
      if isLast && last.contains '.' then do
        let leading ← parts.dropLast.mapM group?
        return leading ++ (← lastGroups? last)
      else parts.mapM group?

def cutAtGap : List Char → Option (List Char × List Char)
  | ':' :: ':' :: rest => some ([], rest)
  | c :: cs => (cutAtGap cs).map fun s => (c :: s.1, s.2)
  | [] => none

/-- An IPv6 address: eight groups, or fewer around one gap. -/
def ipv6? (cs : List Char) : Option (List Nat) :=
  match cutAtGap cs with
  | none => if cs.isEmpty then none else (groups? true cs).filter (·.length == 8)
  | some (before, after) => do
    let left ← groups? false before
    let right ← groups? true after
    if left.length + right.length ≤ 7 then
      some (left ++ List.replicate (8 - left.length - right.length) 0 ++ right)
    else none

/-! ### Names -/

/-- Resolves percent escapes; a percent sign that starts none stays. -/
def percentDecode : Octets → Octets
  | [] => []
  | o :: a :: b :: rest =>
    if o == 0x25 then
      match Text.hexValue? (Char.ofUInt8 a), Text.hexValue? (Char.ofUInt8 b) with
      | some high, some low => UInt8.ofNat (16 * high + low) :: percentDecode rest
      | _, _ => o :: percentDecode (a :: b :: rest)
    else o :: percentDecode (a :: b :: rest)
  | o :: rest => o :: percentDecode rest

/-- ASCII characters that no name may contain: controls, the blank, and marks that have a
    meaning in addresses. -/
def isForbidden (c : Char) : Bool :=
  c.toNat ≤ 0x20 || c.toNat == 0x7F || "#%/:<>?@[\\]^|".toList.contains c

/-- Invisible characters that do not count. -/
def isIgnored (c : Char) : Bool :=
  let n := c.toNat
  n == 0xAD || n == 0x200B || n == 0x2060 || n == 0xFEFF || (0xFE00 ≤ n && n ≤ 0xFE0F)

/-- Characters beyond ASCII that no host may contain: controls, blanks, separators, format
    characters, and what is for private use or not assigned to characters. -/
def isDisallowed (c : Char) : Bool :=
  let n := c.toNat
  (0x80 ≤ n && n ≤ 0xA0) || n == 0x1680 || (0x2000 ≤ n && n ≤ 0x200A) || n == 0x200E || n == 0x200F
    || (0x2028 ≤ n && n ≤ 0x202F) || n == 0x205F || (0x2061 ≤ n && n ≤ 0x206F) || n == 0x3000
    || (0xE000 ≤ n && n ≤ 0xF8FF) || (0xFDD0 ≤ n && n ≤ 0xFDEF) || (0xFFF0 ≤ n && n ≤ 0xFFFF)
    || 0xE0000 ≤ n

def folded (c : Char) : Char :=
  let n := c.toNat
  if n == 0x3002 || n == 0xFF61 then '.'
  else if 0xFF01 ≤ n && n ≤ 0xFF5E then (Char.ofNat (n - 0xFEE0)).toLower
  else c.toLower

/-- Reads a name or an IPv4 address.  Names beyond ASCII and labels that start with `xn--` are
    approximated: see above. -/
def ofName? (cs : List Char) : Option Host := do
  let decoded ← Text.text? (percentDecode (Text.octets (String.ofList cs)))
  let counted := decoded.toList.filter fun c => !isIgnored c
  if counted.any isDisallowed then none
  else
    let name := counted.map folded
    if name.isEmpty || name.any isForbidden then none
    else if endsInNumber name then (ipv4? name).map .ipv4
    else some (.name name)

def read? : List Char → Option Host
  | '[' :: rest =>
    match rest.reverse with
    | ']' :: inner => (ipv6? inner.reverse).map .ipv6
    | _ => none
  | cs => ofName? cs

/-- Whether the host may stand in a request: the marks that only a browser would accept in a
    name are refused. -/
def isPlain : Host → Bool
  | .name cs => cs.all fun c => !"\"`\x7b\x7d".toList.contains c
  | _ => true

example : read? "1.2".toList = some (.ipv4 0x1000002) := by decide +kernel

example : read? "[::1]".toList = some (.ipv6 [0, 0, 0, 0, 0, 0, 0, 1]) := by decide +kernel

example : read? "1.2.3.999".toList = none := by decide +kernel

end Host

end ImageLookup.Http
