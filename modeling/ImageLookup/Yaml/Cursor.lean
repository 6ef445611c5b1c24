import ImageLookup.Yaml.Writer

/-! # Reading positions

A `Cursor` is what is left of a text together with where that begins: the number of characters
before it, its line and column, and whether only blanks stand before it on its line.  Where the
text has ended, `peek` gives the character NUL, which no text contains: texts are cut short at
their first NUL.
-/

namespace ImageLookup.Yaml

structure Cursor where
  rest : List Char
  index : Nat
  line : Nat
  column : Nat
  /-- Whether only blanks stand before this place on its line. -/
  fresh : Bool
deriving Repr

/-! ### Character classes -/

def isBlank (c : Char) : Bool := c == ' ' || c == '\t'

def isLineBreak (c : Char) : Bool := c == '\n' || c == '\r'

def isEnd (c : Char) : Bool := c == '\x00'

def endsLine (c : Char) : Bool := isLineBreak c || isEnd c

def endsToken (c : Char) : Bool := isBlank c || endsLine c

def isFlowMark (c : Char) : Bool :=
  c == ',' || c == '[' || c == ']' || c == '\x7b' || c == '\x7d'

def isNameChar (c : Char) : Bool := c.isAlphanum || c == '_' || c == '-'

def isAnchorChar (c : Char) : Bool :=
  !endsToken c && !isFlowMark c && c != '\ufeff'

def isUriChar (c : Char) : Bool := c.isAlphanum || "-#;/?:@&=+$,_.!~*'()[]%".toList.contains c

def isTagChar (c : Char) : Bool := isUriChar c && !isFlowMark c && c != '!'

namespace Cursor

def start (text : List Char) : Cursor := ⟨text.takeWhile (· != '\x00'), 0, 0, 0, true⟩

def peek (c : Cursor) : Char := c.rest.headD '\x00'

def peekAt (c : Cursor) (n : Nat) : Char := (c.rest.drop n).headD '\x00'

def atEnd (c : Cursor) : Bool := isEnd c.peek

/-! ### Moving -/

def passBlank (c : Cursor) : Cursor :=
  ⟨c.rest.tail, c.index + 1, c.line, c.column + 1, c.fresh⟩

def pass (c : Cursor) (n : Nat) : Cursor :=
  ⟨c.rest.drop n, c.index + n, c.line, c.column + n, false⟩

/-- Passes over a line break; a carriage return and a line feed are one. -/
def passBreak (c : Cursor) : Cursor :=
  match c.rest with
  | '\r' :: '\n' :: rest => ⟨rest, c.index + 2, c.line + 1, 0, true⟩
  | _ => ⟨c.rest.tail, c.index + 1, c.line + 1, 0, true⟩

/-- Passes over all characters of a class that has no line breaks, and gives them. -/
def passWhile (p : Char → Bool) (c : Cursor) : List Char × Cursor :=
  let passed := c.rest.takeWhile p
  (passed, if passed.isEmpty then c else c.pass passed.length)

def passBlanks (p : Char → Bool) (c : Cursor) : List Char × Cursor :=
  let passed := c.rest.takeWhile p
  let n := passed.length
  (passed, ⟨c.rest.drop n, c.index + n, c.line, c.column + n, c.fresh⟩)

def passLine (c : Cursor) : Cursor := (c.passWhile fun x => !isLineBreak x).2

/-- Passes over blanks and a comment, which must follow a blank; `tabs` tells whether tabs
    count as blanks.  Gives the blanks as well. -/
def passFiller? (tabs : Bool) (c : Cursor) : Option (List Char × Cursor) :=
  let (blanks, c) := c.passBlanks fun x => x == ' ' || (tabs && x == '\t')
  if c.peek == '#' then
    if blanks.isEmpty then none else some (blanks, c.passLine)
  else some (blanks, c)

def atDocumentMark (c : Cursor) : Bool :=
  c.column == 0
    && (c.rest.take 3 == ['-', '-', '-'] || c.rest.take 3 == ['.', '.', '.'])
    && endsToken (c.peekAt 3)

end Cursor

end ImageLookup.Yaml
