import ImageLookup.Decimal.Reading
import ImageLookup.Text.Octets

/-! # Writing YAML

A document is written as lines of a key and a scalar.  A text is written plain where that reads
back as the same text; it is put in single quotes where it would read as something else or would
be taken for structure, in double quotes where it holds characters that are not printable, and
as a literal block where it has several lines.
-/

namespace ImageLookup.Yaml

/-! ### Character classes -/

def isBreak (c : Char) : Bool :=
  c == '\n' || c == '\r' || c == '\x85' || c == '\u2028' || c == '\u2029'

def isPrintable (c : Char) : Bool :=
  let n := c.toNat
  n == 0x0A || (0x20 ≤ n && n ≤ 0x7E) || (0xA0 ≤ n && n ≤ 0xD7FF)
    || (0xE000 ≤ n && n ≤ 0xFFFD && n != 0xFEFF) || 0x10000 ≤ n

def isBlankOrBreak (c : Char) : Bool := c == ' ' || c == '\t' || c == '\x00' || isBreak c

/-! ### Texts that read as something else -/

def isZeroPadded (cs : List Char) : Bool :=
  let (_, digits) := Text.unsigned cs
  digits.head? == some '0' && 1 < digits.length && digits.all Text.isDigit

def based? : List Char → Option (Nat × List Char)
  | '0' :: 'x' :: rest => some (16, rest)
  | '0' :: 'o' :: rest => some (8, rest)
  | '0' :: 'b' :: rest => some (2, rest)
  | _ => none

/-- An integer of up to 128 bits, in base 10 or, after a mark, in another base. -/
def isInteger (cs : List Char) : Bool :=
  let (negative, body) := Text.unsigned cs
  let limit := if negative then Nat.pow 2 127 + 1 else Nat.pow 2 128
  match based? body with
  | some (base, digits) => (Text.natural? base digits).any (· < limit)
  | none => !isZeroPadded cs && (Text.natural? 10 body).any (· < limit)

def isDecimal (cs : List Char) : Bool :=
  let (_, body) := Text.unsigned cs
  let word := String.ofList body
  [".inf", ".Inf", ".INF"].contains word
    || [".nan", ".NaN", ".NAN"].contains (String.ofList cs)
    || (!isZeroPadded cs && (Text.decimal? cs).any Double.isFinite)

def readsAsOther (cs : List Char) : Bool :=
  ["", "~", "null", "Null", "NULL", "true", "True", "TRUE", "false", "False", "FALSE"].contains
      (String.ofList cs)
    || isInteger cs || isDecimal cs || isZeroPadded cs

/-! ### Texts that would be taken for structure -/

def isOpeningMark (c : Char) : Bool := "#,[]\x7b\x7d&*!|>'\"%@`".toList.contains c

/-- Whether a colon before a blank or at the end, or a number sign after a blank, stands behind
    the first character, which comes first here. -/
def hasInnerMark : List Char → Bool
  | a :: b :: rest =>
    (b == ':' && (rest.head?.all isBlankOrBreak)) || (b == '#' && isBlankOrBreak a)
      || hasInnerMark (b :: rest)
  | _ => false

def hasMark (cs : List Char) : Bool :=
  cs.take 3 == ['-', '-', '-'] || cs.take 3 == ['.', '.', '.']
    || (match cs with
      | [] => false
      | c :: rest =>
        isOpeningMark c
          || ((c == '?' || c == ':' || c == '-') && (rest.head?.all isBlankOrBreak)))
    || hasInnerMark cs

def hasNeighbours (p q : Char → Bool) : List Char → Bool
  | a :: b :: rest => (p a && q b) || hasNeighbours p q (b :: rest)
  | _ => false

def isSpace (c : Char) : Bool := c == ' '

/-! ### Styles -/

inductive Style where
  | plain
  | singleQuoted
  | doubleQuoted
  | literal
deriving DecidableEq, Repr

/-- Whether only double quotes can hold the text: it has a character that is not printable, or a
    blank before a line break. -/
def needsEscapes (cs : List Char) : Bool :=
  !cs.all isPrintable || hasNeighbours isSpace isBreak cs

def canBePlain (cs : List Char) : Bool :=
  !needsEscapes cs && !cs.any isBreak && !hasMark cs
    && cs.head? != some ' ' && cs.getLast? != some ' '

def canBeSingleQuoted (cs : List Char) : Bool :=
  !needsEscapes cs && !hasNeighbours isBreak isSpace cs

def canBeLiteral (cs : List Char) : Bool := !needsEscapes cs && cs.getLast? != some ' '

def styleOf (cs : List Char) : Style :=
  if cs.contains '\n' then
    if canBeLiteral cs then .literal else .doubleQuoted
  else if !readsAsOther cs && canBePlain cs then .plain
  else if canBeSingleQuoted cs then .singleQuoted
  else .doubleQuoted

/-! ### Layout -/

def upperHex : Nat → Nat → List Char
  | 0, _ => []
  | width + 1, n => upperHex width (n / 16) ++ [Text.hexDigitUpper (n % 16)]

def escape (c : Char) : List Char :=
  if isPrintable c && !isBreak c && c != '"' && c != '\\' then [c]
  else
    match [('\x00', '0'), ('\x07', 'a'), ('\x08', 'b'), ('\t', 't'), ('\n', 'n'), ('\x0b', 'v'),
        ('\x0c', 'f'), ('\r', 'r'), ('\x1b', 'e'), ('"', '"'), ('\\', '\\'), ('\x85', 'N'),
        ('\u2028', 'L'), ('\u2029', 'P')].lookup c with
    | some letter => ['\\', letter]
    | none =>
      if c.toNat ≤ 0xFF then '\\' :: 'x' :: upperHex 2 c.toNat
      else if c.toNat ≤ 0xFFFF then '\\' :: 'u' :: upperHex 4 c.toNat
      else '\\' :: 'U' :: upperHex 8 c.toNat

def indent : List Char := [' ', ' ']

/-- The lines of a scalar, each started by `indent` unless it is empty; `fresh` tells that a
    line has just been started. -/
def indented (write : Char → List Char) : Bool → List Char → List Char
  | _, [] => []
  | fresh, c :: cs =>
    if isBreak c then c :: indented write true cs
    else (if fresh then indent else []) ++ write c ++ indented write false cs

def singleQuoted (cs : List Char) : List Char :=
  '\'' :: (indented (fun c => if c == '\'' then ['\'', '\''] else [c]) false cs
    ++ (if cs.getLast?.any isBreak then indent else []) ++ ['\''])

/-- The header of a literal block: a digit tells the indentation where the text starts with a
    blank or a break, and a sign what becomes of the breaks at its end. -/
def literalHeader (cs : List Char) : List Char :=
  let start := if cs.head?.any fun c => c == ' ' || isBreak c then ['2'] else []
  let final := match cs.reverse with
    | [] => ['-']
    | [c] => if isBreak c then ['+'] else ['-']
    | c :: d :: _ => if !isBreak c then ['-'] else if isBreak d then ['+'] else []
  '|' :: (start ++ final)

def scalar (s : String) : List Char :=
  let cs := s.toList
  match styleOf cs with
  | .plain => cs ++ ['\n']
  | .singleQuoted => singleQuoted cs ++ ['\n']
  | .doubleQuoted => '"' :: (cs.flatMap escape ++ ['"', '\n'])
  | .literal =>
    literalHeader cs ++ '\n' :: indented (fun c => [c]) true cs
      ++ (if cs.getLast?.any isBreak then [] else ['\n'])

example : scalar "a\n\nb\n\n" = "|+\n  a\n\n  b\n\n".toList := by decide +kernel

example : scalar "0x1F" = "'0x1F'\n".toList := by decide +kernel

end ImageLookup.Yaml
