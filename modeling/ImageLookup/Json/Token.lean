import ImageLookup.Text.Octets

/-! # Tokens of documents

A document is a sequence of octets.  Its tokens are punctuation, words (numbers and the
literals `null`, `true` and `false`, told apart later) and quoted texts.  A text is kept as
pieces, because what its escapes and its octets make up together is decided only where the
text is used: an octet of the document, or the code unit of a `\u` escape.

`step` is a machine that takes one octet; `tokens?` runs it over a document.
-/

namespace ImageLookup.Json

/-- A piece of a quoted text. -/
inductive Piece where
  | octet (o : UInt8)
  | unit (code : Nat)
deriving DecidableEq, Repr

inductive Token where
  | openBrace
  | closeBrace
  | openBracket
  | closeBracket
  | colon
  | comma
  | word (cs : List Char)
  | text (pieces : List Piece)
deriving DecidableEq, Repr

/-- Where the machine stands; what it has seen of a token is kept with the latest first. -/
inductive Mode where
  | between
  | word (seen : List Char)
  | text (seen : List Piece)
  | escape (seen : List Piece)
  | code (seen : List Piece) (left : Nat) (value : Nat)
deriving DecidableEq, Repr

def isSpace (c : Char) : Bool := c == ' ' || c == '\t' || c == '\n' || c == '\r'

def isWord (c : Char) : Bool := c.isAlphanum || c == '-' || c == '+' || c == '.'

def Token.punctuation? (c : Char) : Option Token :=
  if c == '\x7b' then some .openBrace
  else if c == '\x7d' then some .closeBrace
  else if c == '[' then some .openBracket
  else if c == ']' then some .closeBracket
  else if c == ':' then some .colon
  else if c == ',' then some .comma
  else none

def escaped? (c : Char) : Option UInt8 :=
  if c == '"' then some 0x22
  else if c == '\\' then some 0x5C
  else if c == '/' then some 0x2F
  else if c == 'b' then some 0x08
  else if c == 'f' then some 0x0C
  else if c == 'n' then some 0x0A
  else if c == 'r' then some 0x0D
  else if c == 't' then some 0x09
  else none

def Mode.stepBetween (c : Char) : Option (List Token × Mode) :=
  if isSpace c then some ([], .between)
  else if c == '"' then some ([], .text [])
  else if isWord c then some ([], .word [c])
  else (Token.punctuation? c).map fun t => ([t], .between)

/-- One octet: the tokens that it completes, and where the machine stands then. -/
def Mode.step (m : Mode) (o : UInt8) : Option (List Token × Mode) :=
  let c := Char.ofUInt8 o
  match m with
  | .between => Mode.stepBetween c
  | .word seen =>
    if isWord c then some ([], .word (c :: seen))
    else (Mode.stepBetween c).map fun r => (.word seen.reverse :: r.1, r.2)
  | .text seen =>
    if c == '"' then some ([.text seen.reverse], .between)
    else if c == '\\' then some ([], .escape seen)
    else if o < 0x20 then none
    else some ([], .text (.octet o :: seen))
  | .escape seen =>
    if c == 'u' then some ([], .code seen 3 0)
    else (escaped? c).map fun e => ([], .text (.octet e :: seen))
  | .code seen left value =>
    (Text.hexValue? c).map fun d =>
      let value := 16 * value + d
      match left with
      | 0 => ([], .text (.unit value :: seen))
      | left + 1 => ([], .code seen left value)

def Mode.finish? : Mode → Option (List Token)
  | .between => some []
  | .word seen => some [.word seen.reverse]
  | _ => none

def Mode.tokens? (m : Mode) : Octets → Option (List Token)
  | [] => m.finish?
  | o :: os => do
    let (ts, next) ← m.step o
    return ts ++ (← next.tokens? os)

def tokens? (document : Octets) : Option (List Token) := Mode.tokens? .between document

example : tokens? (Text.octets "[1, \"\\u0041b\"]") =
    some [.openBracket, .word ['1'], .comma, .text [.unit 0x41, .octet 0x62], .closeBracket] := by
  decide +kernel

end ImageLookup.Json
