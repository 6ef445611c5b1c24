import ImageLookup.Yaml.Cursor

/-! # Scalars

A scalar is written plain, in single or double quotes, or as a block.  A scalar that runs over
several lines is folded: one line break counts as a blank, and of several the first does not
count.  Blanks around a line break never count.  In a literal block every line break counts.

Each reader starts at the first character of a scalar and gives its text and the place behind
it.  `indent` is the column of the innermost block collection, -1 outside of any, and `inFlow`
tells whether the scalar stands in a flow collection.  `fuel` bounds the number of steps; the
length of the text is always enough.
-/

namespace ImageLookup.Yaml

/-! ### Folding -/

structure Gap where
  /-- The blanks before the first line break, the latest first. -/
  blanks : List Char
  /-- Whether a line break was met that folds. -/
  folds : Bool
  /-- The number of line breaks that count. -/
  breaks : Nat
  /-- Whether a line has been started. -/
  newLine : Bool

def Gap.text (g : Gap) : List Char :=
  if g.newLine then
    if g.folds && g.breaks == 0 then [' '] else List.replicate g.breaks '\n'
  else g.blanks.reverse

def Gap.addBreak (g : Gap) : Gap :=
  if g.newLine then ⟨g.blanks, g.folds, g.breaks + 1, true⟩ else ⟨[], true, g.breaks, true⟩

/-! ### Quoted scalars -/

def escaped? (c : Char) : Option Char :=
  [('0', '\x00'), ('a', '\x07'), ('b', '\x08'), ('t', '\t'), ('\t', '\t'), ('n', '\n'),
    ('v', '\x0b'), ('f', '\x0c'), ('r', '\r'), ('e', '\x1b'), (' ', ' '), ('"', '"'), ('/', '/'),
    ('\\', '\\'), ('N', '\x85'), ('_', '\xa0'), ('L', '\u2028'), ('P', '\u2029')].lookup c

def codeLength? (c : Char) : Option Nat := [('x', 2), ('u', 4), ('U', 8)].lookup c

def readEscape? (c : Cursor) : Option (Char × Cursor) :=
  match escaped? c.peek with
  | some x => some (x, c.pass 1)
  | none => do
    let length ← codeLength? c.peek
    let digits := (c.pass 1).rest.take length
    if digits.length ≠ length then none
    else
      let code ← Text.natural? 16 digits
      if code < 0xD800 ∨ (0xDFFF < code ∧ code ≤ 0x10FFFF) then
        some (Char.ofNat code, c.pass (length + 1))
      else none

/-- Reads a stretch of a quoted scalar up to a blank, a line break or the closing quote; tells
    whether it ended with an escaped line break.  The text so far has the latest first. -/
def quotedStretch? (single : Bool) : Nat → List Char → Cursor → Option (List Char × Bool × Cursor)
  | 0, _, _ => none
  | fuel + 1, text, c =>
    let x := c.peek
    if endsToken x then some (text, false, c)
    else if single then
      if x == '\'' then
        if c.peekAt 1 == '\'' then quotedStretch? single fuel ('\'' :: text) (c.pass 2)
        else some (text, false, c)
      else quotedStretch? single fuel (x :: text) (c.pass 1)
    else if x == '"' then some (text, false, c)
    else if x == '\\' then
      if isLineBreak (c.peekAt 1) then some (text, true, (c.pass 1).passBreak)
      else do
        let (e, c) ← readEscape? (c.pass 1)
        quotedStretch? single fuel (e :: text) c
    else quotedStretch? single fuel (x :: text) (c.pass 1)

/-- Passes over the blanks and line breaks inside a quoted scalar.  A tab may not indent. -/
def quotedGap? (indent : Int) : Nat → Gap → Cursor → Option (Gap × Cursor)
  | 0, _, _ => none
  | fuel + 1, g, c =>
    if isBlank c.peek then
      if g.newLine then
        if c.peek == '\t' && decide ((c.column : Int) < indent) then none
        else quotedGap? indent fuel g c.passBlank
      else
        quotedGap? indent fuel ⟨c.peek :: g.blanks, g.folds, g.breaks, false⟩ c.passBlank
    else if isLineBreak c.peek then quotedGap? indent fuel g.addBreak c.passBreak
    else some (g, c)

/-- Reads the inside of a quoted scalar, and stops at the closing quote. -/
def quotedInside? (single : Bool) (indent : Int) :
    Nat → List Char → Cursor → Option (List Char × Cursor)
  | 0, _, _ => none
  | fuel + 1, text, c =>
    if c.atDocumentMark || c.atEnd || decide ((c.column : Int) < indent) then none
    else do
      let (text, escapedBreak, c) ← quotedStretch? single (fuel + 1) text c
      if c.peek == (if single then '\'' else '"') then some (text.reverse, c)
      else
        let (g, c) ← quotedGap? indent (fuel + 1) ⟨[], false, 0, escapedBreak⟩ c
        quotedInside? single indent fuel (g.text.reverse ++ text) c

/-- Reads a quoted scalar.  Behind it on its line only a comment may stand, the colon of a key,
    or in a flow collection one of its marks. -/
def readQuoted? (single inFlow : Bool) (indent : Int) (c : Cursor) :
    Option (List Char × Cursor) := do
  let (text, last) ← quotedInside? single indent (c.rest.length + 2) [] (c.pass 1)
  let (_, after) ← (last.pass 1).passFiller? true
  let x := after.peek
  let allowed := endsLine x
    || (inFlow && (x == ',' || x == '\x7d' || x == ']' || x == ':'))
    || (!inFlow && x == ':' && after.line == c.line)
  if allowed then some (text, after) else none

/-! ### Plain scalars -/

def continuesPlain (inFlow : Bool) (c : Cursor) : Bool :=
  let x := c.peek
  if endsToken x then false
  else if x == ':' then
    !endsToken (c.peekAt 1) && !(inFlow && isFlowMark (c.peekAt 1))
  else !(inFlow && isFlowMark x)

def plainStretch (inFlow : Bool) : Nat → List Char → Cursor → List Char × Cursor
  | 0, text, c => (text, c)
  | fuel + 1, text, c =>
    if continuesPlain inFlow c then plainStretch inFlow fuel (c.peek :: text) (c.pass 1)
    else (text, c)

/-- Passes over the blanks and line breaks inside a plain scalar.  A tab may stand in the
    indentation of an empty line only. -/
def plainGap? (indent : Int) : Nat → Gap → Cursor → Option (Gap × Cursor)
  | 0, _, _ => none
  | fuel + 1, g, c =>
    if isBlank c.peek then
      if !g.newLine then
        plainGap? indent fuel ⟨c.peek :: g.blanks, g.folds, g.breaks, false⟩ c.passBlank
      else if decide ((c.column : Int) < indent) && c.peek == '\t' then do
        let (_, c) ← c.passFiller? true
        if endsLine c.peek then plainGap? indent fuel g c else none
      else plainGap? indent fuel g c.passBlank
    else if isLineBreak c.peek then plainGap? indent fuel g.addBreak c.passBreak
    else some (g, c)

/-- Reads stretches of a plain scalar for as long as they follow one another.  The gap before
    the next stretch counts only if there is one. -/
def plainStretches? (inFlow : Bool) (indent : Int) :
    Nat → Gap → List Char → Cursor → Option (List Char × Cursor)
  | 0, _, _, _ => none
  | fuel + 1, g, text, c =>
    if c.atDocumentMark || c.peek == '#' then some (text, c)
    else if inFlow && c.peek == '-' && isFlowMark (c.peekAt 1) then none
    else
      let (text, g, c) :=
        if continuesPlain inFlow c then
          let (text, c) := plainStretch inFlow (fuel + 1) (g.text.reverse ++ text) c
          (text, (⟨[], false, 0, false⟩ : Gap), c)
        else (text, g, c)
      if !(isBlank c.peek || isLineBreak c.peek) then some (text, c)
      else do
        let (g, c) ← plainGap? indent (fuel + 1) g c
        if !inFlow && decide ((c.column : Int) < indent) then some (text, c)
        else plainStretches? inFlow indent fuel g text c

def readPlain? (inFlow : Bool) (indent : Int) (c : Cursor) : Option (List Char × Cursor) :=
  let indent := indent + 1
  if inFlow && decide ((c.column : Int) < indent) then none
  else do
    let (text, last) ←
      plainStretches? inFlow indent (c.rest.length + 2) ⟨[], false, 0, false⟩ [] c
    return (text.reverse, last)

/-! ### Blocks -/

inductive Chomping where
  | clip
  | strip
  | keep
deriving DecidableEq, Repr

def Chomping.ofSign? (c : Char) : Option Chomping :=
  if c == '+' then some .keep else if c == '-' then some .strip else none

/-- A digit that gives the indentation of a block; it may not be zero. -/
def indentDigit? (c : Char) : Option Nat :=
  if c == '0' then none else some (c.toNat - '0'.toNat)

/-- Reads the sign and the digit after the mark of a block, in either order. -/
def blockHeader? (c : Cursor) : Option (Chomping × Nat × Cursor) :=
  match Chomping.ofSign? c.peek with
  | some chomping =>
    let c := c.pass 1
    if c.peek.isDigit then do return (chomping, ← indentDigit? c.peek, c.pass 1)
    else some (chomping, 0, c)
  | none =>
    if c.peek.isDigit then do
      let digit ← indentDigit? c.peek
      let c := c.pass 1
      match Chomping.ofSign? c.peek with
      | some chomping => return (chomping, digit, c.pass 1)
      | none => return (.clip, digit, c)
    else some (.clip, 0, c)

/-- Passes over empty lines and the indentation of the next line, which is at most `indent`;
    counts the lines. -/
def blockIndent (indent : Nat) : Nat → Nat → Cursor → Nat × Cursor
  | 0, breaks, c => (breaks, c)
  | fuel + 1, breaks, c =>
    if c.column < indent && c.peek == ' ' then blockIndent indent fuel breaks c.passBlank
    else if isLineBreak c.peek then blockIndent indent fuel (breaks + 1) c.passBreak
    else (breaks, c)

/-- Passes over empty lines and the indentation of the first line; counts the lines, and gives
    the greatest indentation met. -/
def firstIndent : Nat → Nat → Nat → Cursor → Nat × Nat × Cursor
  | 0, breaks, greatest, c => (breaks, greatest, c)
  | fuel + 1, breaks, greatest, c =>
    let c := (c.passBlanks (· == ' ')).2
    let greatest := max greatest c.column
    if isLineBreak c.peek then firstIndent fuel (breaks + 1) greatest c.passBreak
    else (breaks, greatest, c)

structure Block where
  text : List Char
  /-- Whether the last line ended with a line break. -/
  ended : Bool
  /-- The number of empty lines after it. -/
  breaks : Nat
  /-- Whether the last line started with a blank. -/
  startedBlank : Bool

def blockLines (literal : Bool) (indent : Nat) : Nat → Block → Cursor → Block × Cursor
  | 0, b, c => (b, c)
  | fuel + 1, b, c =>
    if c.column != indent || c.atEnd || (indent == 0 && c.atDocumentMark) then (b, c)
    else
      let startsBlank := isBlank c.peek
      let folds := !literal && b.ended && !b.startedBlank && !startsBlank
      let between :=
        if folds && b.breaks == 0 then [' ']
        else
          List.replicate ((if b.ended && !folds then 1 else 0) + b.breaks) '\n'
      let (line, c) := c.passWhile fun x => !isLineBreak x
      let text := line.reverse ++ between ++ b.text
      if c.atEnd then (⟨text, false, 0, startsBlank⟩, c)
      else
        let (breaks, c) := blockIndent indent (fuel + 1) 0 c.passBreak
        blockLines literal indent fuel ⟨text, true, breaks, startsBlank⟩ c

def readBlock? (literal : Bool) (indent : Int) (c : Cursor) : Option (List Char × Cursor) := do
  let fuel := c.rest.length + 2
  let line := c.line
  let (chomping, digit, c) ← blockHeader? c
  let (_, c) ← c.passFiller? true
  if !endsLine c.peek then none
  else
    let broken := isLineBreak c.peek
    let c := if broken then c.passBreak else c
    if c.peek == '\t' then none
    else
      let given := if digit = 0 then 0 else if 0 ≤ indent then indent.toNat + digit else digit
      let (breaks, width, c) :=
        if given = 0 then
          let (breaks, greatest, c) := firstIndent fuel 0 0 c
          (breaks, max greatest (indent + 1).toNat, c)
        else
          let (breaks, c) := blockIndent given fuel 0 c
          (breaks, given, c)
      if c.atEnd then
        let text := match chomping with
          | .strip => []
          | .clip => if c.line == line then [] else if broken then ['\n'] else []
          | .keep =>
            if c.line == line then []
            else if breaks = 0 then (if broken then ['\n'] else [])
            else List.replicate breaks '\n'
        some (text, c)
      else if c.column < width && decide (indent < (c.column : Int)) then none
      else
        let (b, c) := blockLines literal width fuel ⟨[], false, breaks, false⟩ c
        let kept :=
          (if b.ended then 1 else 0) + (if c.atEnd && max 1 width ≤ c.column then 1 else 0)
        let final := match chomping with
          | .strip => 0
          | .clip => kept
          | .keep => kept + b.breaks
        some (b.text.reverse ++ List.replicate final '\n', c)

end ImageLookup.Yaml
