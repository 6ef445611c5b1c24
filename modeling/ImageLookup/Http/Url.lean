import ImageLookup.Http.Host

/-! # Web addresses

Addresses are read leniently, as browsers read them: control characters and blanks around an
address and line breaks and tabs inside do not count, the scheme may be in any case, and any
number of slashes and backslashes may stand before the host.  The path, the query and the
fragment never make an address invalid.  Only the schemes `http` and `https` are known.
-/

namespace ImageLookup.Http

structure Url where
  secure : Bool
  host : Host
  port : Option Nat
deriving DecidableEq, Repr

namespace Url

def isPadding (c : Char) : Bool := c.toNat ≤ 0x20

def isBreak (c : Char) : Bool := c == '\t' || c == '\n' || c == '\r'

def counted (cs : List Char) : List Char :=
  (((cs.dropWhile isPadding).reverse.dropWhile isPadding).reverse).filter fun c => !isBreak c

def scheme? (cs : List Char) : Option (Bool × List Char) :=
  match Text.cutFirst (· == ':') cs with
  | none => none
  | some (scheme, rest) =>
    let scheme := Text.lowerAscii scheme
    if scheme == "http".toList then some (false, rest)
    else if scheme == "https".toList then some (true, rest)
    else none

def isSlash (c : Char) : Bool := c == '/' || c == '\\'

def endsAuthority (c : Char) : Bool := isSlash c || c == '?' || c == '#'

/-- Divides a host from a port: the first colon outside of brackets does. -/
def cutPort (inside : Bool) : List Char → List Char × Option (List Char)
  | [] => ([], none)
  | c :: cs =>
    if c == ':' && !inside then ([], some cs)
    else
      let inside := c == '[' || (inside && c != ']')
      (c :: (cutPort inside cs).1, (cutPort inside cs).2)

def port? (cs : List Char) : Option (Option Nat) :=
  if cs.isEmpty then some none
  else if cs.all Text.isDigit then
    ((Text.natural? 10 cs).filter (· < 65536)).map some
  else none

def read? (s : String) : Option Url := do
  let (secure, rest) ← scheme? (counted s.toList)
  let authority := (rest.dropWhile isSlash).takeWhile fun c => !endsAuthority c
  let hostAndPort := match Text.cutLast (· == '@') authority with
    | some (_, after) => after
    | none => authority
  let (hostText, portText) := cutPort false hostAndPort
  let host ← Host.read? hostText
  let port ← match portText with
    | some cs => port? cs
    | none => some none
  return ⟨secure, host, port⟩

/-- Whether a text is an address at which a token may be asked for, as far as this reader can tell:
    see `Host.ofName?` for names beyond ASCII. -/
def isWeb (s : String) : Bool := (read? s).isSome

example : isWeb " HTTP:\\auth.test:80/token" = true := by decide +kernel

example : isWeb "http://auth.test:65536/" = false := by decide +kernel

example : isWeb "ftp://auth.test/" = false := by decide +kernel

end Url

end ImageLookup.Http
