import ImageLookup.Yaml.Scalar

/-! # Tokens of YAML

The tokens of a text tell its structure: where collections begin and end, what is a key and what
a value, and the scalars with their anchors and tags.  Block collections have tokens of their own
for their beginning and end, which indentation implies.

The lexer takes one token after the other.  What makes it more than a list of cases is that a key
is recognised only at the colon behind it: wherever a key could begin, the place is kept as a
`Candidate`, and at the colon the tokens for the key, and for the mapping that it may begin, are
inserted at that place.  Outside of flow collections a key may not run over a line and not be
longer than 1024 characters.

The columns of the open block collections are kept on a stack.  Behind a key or a dash a place
that is one column deeper is opened for what follows; such a level has no token of its own.
-/

namespace ImageLookup.Yaml

inductive Token where
  | versionDirective
  | tagDirective (handle tagStart : List Char)
  | documentStart
  | documentEnd
  | blockSequenceStart
  | blockMappingStart
  | blockEnd
  | flowSequenceStart
  | flowSequenceEnd
  | flowMappingStart
  | flowMappingEnd
  | blockEntry
  | flowEntry
  | key
  | value
  | alias (name : List Char)
  | anchor (name : List Char)
  | tag (handle suffix : List Char)
  | scalar (plain : Bool) (text : List Char)
deriving DecidableEq, Repr

/-! ### Places and levels -/

structure Candidate where
  possible : Bool
  /-- Whether nothing but a key can begin there. -/
  required : Bool
  /-- The number of tokens before it. -/
  position : Nat
  index : Nat
  line : Nat
  column : Nat
deriving Repr

def Candidate.none : Candidate := ⟨false, false, 0, 0, 0, 0⟩

/-- A level of indentation: the column of the level around it, and whether it is that of a block
    collection. -/
structure Level where
  outer : Int
  isCollection : Bool
deriving Repr

structure Lexer where
  cursor : Cursor
  /-- The tokens so far, the latest first. -/
  tokens : List Token
  /-- The column of the innermost level, -1 outside of any. -/
  indent : Int
  levels : List Level
  /-- Whether a key may begin here. -/
  keyAllowed : Bool
  /-- A candidate for every open flow collection, and one for the block context. -/
  candidates : List Candidate
  /-- The number of open flow collections. -/
  flow : Nat
  /-- Whether pairs in flow sequences need no mapping around them. -/
  flowMappingStarted : Bool
  /-- For every open flow sequence, whether a pair without braces is open in it. -/
  openPairs : List Bool
  /-- Where a colon may touch the value behind it. -/
  adjacentAt : Option Nat

namespace Lexer

def start (text : List Char) : Lexer :=
  ⟨.start text, [], -1, [], true, [.none], 0, false, [], none⟩

/-! ### Changes of single parts -/

def moveTo (l : Lexer) (c : Cursor) : Lexer := { l with cursor := c }

def emit (l : Lexer) (t : Token) : Lexer := { l with tokens := t :: l.tokens }

def insert (l : Lexer) (position : Nat) (t : Token) : Lexer :=
  let later := l.tokens.length - position
  { l with tokens := l.tokens.take later ++ t :: l.tokens.drop later }

def allowKey (l : Lexer) (allowed : Bool) : Lexer := { l with keyAllowed := allowed }

def inFlow (l : Lexer) : Bool := l.flow != 0

def column (l : Lexer) : Int := l.cursor.column

/-! ### Candidates -/

def markKey (l : Lexer) : Lexer :=
  if l.keyAllowed then
    let c := l.cursor
    let required := !l.inFlow && l.indent == l.column && l.levels.head?.any (·.isCollection)
    { l with
      candidates :=
        ⟨true, required, l.tokens.length, c.index, c.line, c.column⟩ :: l.candidates.tail }
  else l

def dropKey? (l : Lexer) : Option Lexer :=
  match l.candidates with
  | [] => some l
  | k :: ks =>
    if k.possible && k.required then none
    else some { l with candidates := { k with possible := false } :: ks }

def keyLimit : Nat := 1024

def dropStaleKeys? (l : Lexer) : Option Lexer :=
  if l.inFlow then some l
  else
    let isStale (k : Candidate) : Bool :=
      k.possible && (k.line < l.cursor.line || k.index + keyLimit < l.cursor.index)
    if l.candidates.any fun k => isStale k && k.required then none
    else
      some { l with
        candidates := l.candidates.map fun k =>
          if isStale k then { k with possible := false } else k }

/-! ### Levels -/

def closeLevels (column : Int) : List Level → Int → List Token → List Level × Int × List Token
  | [], indent, tokens => ([], indent, tokens)
  | level :: levels, indent, tokens =>
    if column < indent then
      closeLevels column levels level.outer
        (if level.isCollection then .blockEnd :: tokens else tokens)
    else (level :: levels, indent, tokens)

def unroll (l : Lexer) (column : Int) : Lexer :=
  if l.inFlow then l
  else
    let (levels, indent, tokens) := closeLevels column l.levels l.indent l.tokens
    { l with levels := levels, indent := indent, tokens := tokens }

def unrollBare (l : Lexer) : Lexer :=
  let bare := l.levels.takeWhile fun level => !level.isCollection
  match bare.getLast? with
  | none => l
  | some level => { l with levels := l.levels.drop bare.length, indent := level.outer }

def openCollection (l : Lexer) (column : Int) (position : Nat) (t : Token) : Lexer :=
  if l.inFlow then l
  else
    let l := match l.levels with
      | level :: levels =>
        if l.indent ≤ column && !level.isCollection then
          { l with levels := levels, indent := level.outer }
        else l
      | [] => l
    if l.indent < column then
      ({ l with levels := ⟨l.indent, true⟩ :: l.levels, indent := column }).insert position t
    else l

def openBare (l : Lexer) : Lexer :=
  if !l.inFlow && l.levels.head?.any (·.isCollection) then
    { l with levels := ⟨l.indent, false⟩ :: l.levels, indent := l.indent + 1 }
  else l

/-! ### Between tokens -/

/-- Passes over blanks, line breaks and comments.  A tab may not indent the contents of a block
    collection. -/
def skip? : Nat → Lexer → Option Lexer
  | 0, _ => none
  | fuel + 1, l =>
    let c := l.cursor
    if c.peek == '\t' && !l.levels.isEmpty && c.fresh && decide (l.column < l.indent) then do
      let (_, c) ← c.passFiller? true
      if endsLine c.peek then skip? fuel (l.moveTo c) else none
    else if isBlank c.peek then skip? fuel (l.moveTo c.passBlank)
    else if isLineBreak c.peek then
      skip? fuel ({ l with cursor := c.passBreak, keyAllowed := l.keyAllowed || !l.inFlow })
    else if c.peek == '#' then skip? fuel (l.moveTo c.passLine)
    else some l

def skipAll? (l : Lexer) : Option Lexer := skip? (l.cursor.rest.length + 1) l

def skipFiller? (l : Lexer) : Option Lexer := do
  return l.moveTo (← l.cursor.passFiller? true).2

/-- Passes over blanks, line breaks and comments behind a question mark, of which there must be
    one at least. -/
def skipBehindKey? (l : Lexer) : Nat → Bool → Option Lexer
  | 0, _ => none
  | fuel + 1, found =>
    let c := l.cursor
    if c.peek == ' ' then skipBehindKey? (l.moveTo c.passBlank) fuel true
    else if isLineBreak c.peek then
      skipBehindKey? { l with cursor := c.passBreak, keyAllowed := l.keyAllowed || !l.inFlow }
        fuel true
    else if c.peek == '#' then skipBehindKey? (l.moveTo c.passLine) fuel found
    else if found then some l
    else none

/-! ### Directives and tags -/

/-- The number of octets that an octet of a percent escape announces. -/
def octetCount? (octet : Nat) : Option Nat :=
  if octet < 0x80 then some 1
  else if octet / 0x20 = 6 then some 2
  else if octet / 0x10 = 14 then some 3
  else if octet / 0x08 = 30 then some 4
  else none

def escapedOctet? (c : Cursor) (k : Nat) : Option Nat :=
  if c.peekAt (3 * k) == '%' then
    Text.natural? 16 [c.peekAt (3 * k + 1), c.peekAt (3 * k + 2)]
  else none

/-- Reads the percent escapes that make up one character.  Their octets are taken for a number
    in base 256, which must be the code of a character. -/
def uriEscape? (c : Cursor) : Option (Char × Cursor) := do
  let first ← escapedOctet? c 0
  let count ← octetCount? first
  let octets ← (List.range count).mapM (escapedOctet? c)
  let code := Text.naturalOf 256 octets
  if octets.tail.all (fun o => o / 0x40 == 2) && decide code.isValidChar then
    some (Char.ofNat code, c.pass (3 * count))
  else none

def uriText? (p : Char → Bool) : Nat → List Char → Cursor → Option (List Char × Cursor)
  | 0, _, _ => none
  | fuel + 1, text, c =>
    if p c.peek then
      if c.peek == '%' then do
        let (x, c) ← uriEscape? c
        uriText? p fuel (x :: text) c
      else uriText? p fuel (c.peek :: text) (c.pass 1)
    else some (text.reverse, c)

def readUri? (p : Char → Bool) (c : Cursor) : Option (List Char × Cursor) :=
  uriText? p (c.rest.length + 1) [] c

/-- Reads the handle of a tag: letters between exclamation marks, of which the second may be
    missing unless the handle is declared. -/
def tagHandle? (declared : Bool) (c : Cursor) : Option (List Char × Cursor) :=
  if c.peek != '!' then none
  else
    let (letters, c) := (c.pass 1).passWhile isNameChar
    if c.peek == '!' then some ('!' :: letters ++ ['!'], c.pass 1)
    else if declared && !letters.isEmpty then none
    else some ('!' :: letters, c)

/-- Reads a tag: verbatim between angle brackets, or in shorthand. -/
def readTag? (inFlow : Bool) (c : Cursor) : Option (Token × Cursor) := do
  let (t, c) ←
    if c.peekAt 1 == '<' then do
      let (suffix, c) ← readUri? isUriChar (c.pass 2)
      if c.peek == '>' then some (Token.tag [] suffix, c.pass 1) else none
    else do
      let (handle, c) ← tagHandle? false c
      let (suffix, c) ← readUri? isTagChar c
      if 2 ≤ handle.length && handle.getLast? == some '!' then
        if suffix.isEmpty then none else some (Token.tag handle suffix, c)
      else
        let suffix := handle.tail ++ suffix
        some (if suffix.isEmpty then Token.tag [] ['!'] else Token.tag ['!'] suffix, c)
  if endsToken c.peek || (inFlow && isFlowMark c.peek) then some (t, c) else none

/-- A number of a version: up to nine digits. -/
def passVersionNumber? (c : Cursor) : Option Cursor :=
  let (digits, c) := c.passWhile Char.isDigit
  if digits.isEmpty || 9 < digits.length then none else some c

/-- Reads a directive, from behind its percent sign.  A directive of unknown name is passed
    over. -/
def readDirective? (c : Cursor) : Option (Token × Cursor) := do
  let (name, c) := c.passWhile isNameChar
  if name.isEmpty || !endsToken c.peek then none
  else
    let (t, c) ←
      if name == "YAML".toList then do
        let c ← passVersionNumber? (c.passBlanks isBlank).2
        if c.peek != '.' then none
        else do return (Token.versionDirective, ← passVersionNumber? (c.pass 1))
      else if name == "TAG".toList then do
        let (handle, c) ← tagHandle? true (c.passBlanks isBlank).2
        let c := (c.passBlanks isBlank).2
        if c.peek != '!' && !isTagChar c.peek then none
        else
          let (start, c) ← readUri? isUriChar c
          if endsToken c.peek then some (Token.tagDirective handle start, c) else none
      else some (Token.tagDirective [] [], c.passLine)
    let (_, c) ← c.passFiller? true
    if endsLine c.peek then some (t, if isLineBreak c.peek then c.passBreak else c) else none

/-! ### Single tokens -/

def endBlocks? (l : Lexer) : Option Lexer := do
  return (← (l.unroll (-1)).dropKey?).allowKey false

def directive? (l : Lexer) : Option Lexer := do
  let l ← l.endBlocks?
  let (t, c) ← readDirective? (l.cursor.pass 1)
  return (l.moveTo c).emit t

def documentMark? (l : Lexer) : Option Lexer := do
  let l ← l.endBlocks?
  if l.cursor.peek == '-' then return (l.moveTo (l.cursor.pass 3)).emit .documentStart
  else
    let l ← ((l.moveTo (l.cursor.pass 3)).emit .documentEnd).skipFiller?
    if endsLine l.cursor.peek then return l else none

def flowLimit : Nat := 255

def openFlow? (l : Lexer) (t : Token) : Option Lexer := do
  let l := l.markKey.openBare
  if flowLimit ≤ l.flow then none
  else
    let l := { l with
      candidates := .none :: l.candidates
      flow := l.flow + 1
      keyAllowed := true
      cursor := l.cursor.pass 1
      flowMappingStarted := l.flowMappingStarted || t == Token.flowMappingStart
      openPairs := if t == Token.flowMappingStart then l.openPairs else false :: l.openPairs }
    return (← l.skipFiller?).emit t

def closePair (l : Lexer) : Lexer :=
  match l.openPairs with
  | true :: rest =>
    ({ l with flowMappingStarted := false, openPairs := false :: rest }).emit .flowMappingEnd
  | _ => l

def closeFlow? (l : Lexer) (t : Token) : Option Lexer := do
  let l ← l.dropKey?
  let l := if l.inFlow then { l with flow := l.flow - 1, candidates := l.candidates.tail } else l
  let l := l.allowKey false
  let l :=
    if t == Token.flowSequenceEnd then
      let l := l.closePair
      { l with openPairs := l.openPairs.tail }
    else l
  let l ← (l.moveTo (l.cursor.pass 1)).skipFiller?
  let l := if l.inFlow then { l with adjacentAt := some l.cursor.index } else l
  return l.emit t

def flowEntry? (l : Lexer) : Option Lexer := do
  let l := ((← l.dropKey?).allowKey true).closePair
  return (← (l.moveTo (l.cursor.pass 1)).skipFiller?).emit .flowEntry

def blockEntry? (l : Lexer) : Option Lexer := do
  if l.inFlow || !l.keyAllowed then none
  else
    let column := l.column
    let l := l.moveTo (l.cursor.pass 1)
    let l := l.openCollection column l.tokens.length .blockSequenceStart
    let (blanks, c) ← l.cursor.passFiller? true
    if blanks.contains '\t' && c.peek == '-' && endsToken (c.peekAt 1) then none
    else
      let l := l.moveTo c
      let l := if isLineBreak c.peek || isFlowMark c.peek then l.openBare else l
      return ((← l.dropKey?).allowKey true).emit .blockEntry

def explicitKey? (l : Lexer) : Option Lexer := do
  let l ←
    if l.inFlow then some { l with flowMappingStarted := true }
    else if l.keyAllowed then
      some (l.openCollection l.column l.tokens.length .blockMappingStart)
    else none
  let l := (← l.dropKey?).allowKey (!l.inFlow)
  let l := l.moveTo (l.cursor.pass 1)
  let l ← l.skipBehindKey? (l.cursor.rest.length + 1) false
  if l.cursor.peek == '\t' then none else return l.emit .key

def value? (l : Lexer) : Option Lexer := do
  let candidate := l.candidates.headD .none
  let line := l.cursor.line
  let column := l.column
  let isPair := !l.openPairs.isEmpty && !l.flowMappingStarted
  let l := if isPair then { l with openPairs := true :: l.openPairs.tail } else l
  let l := l.moveTo (l.cursor.pass 1)
  let l ←
    if l.cursor.peek == '\t' then do
      let (blanks, c) ← l.cursor.passFiller? true
      if !blanks.contains ' ' && (c.peek == '-' || isNameChar c.peek) then none
      else some (l.moveTo c)
    else some l
  if candidate.possible then
    if isPair && candidate.line < line then none
    else
      let l := l.insert candidate.position .key
      let l := if isPair then l.insert candidate.position .flowMappingStart else l
      let l := (l.openCollection candidate.column candidate.position .blockMappingStart).openBare
      return (({ l with
        candidates := { candidate with possible := false } :: l.candidates.tail }).allowKey
          false).emit .value
  else
    let l := if isPair then l.emit .flowMappingStart else l
    if !l.inFlow && !l.keyAllowed then none
    else
      let l := (l.openCollection column l.tokens.length .blockMappingStart).openBare
      return (l.allowKey (!l.inFlow)).emit .value

def anchor? (l : Lexer) (token : List Char → Token) : Option Lexer := do
  let l := l.markKey.allowKey false
  let (name, c) := (l.cursor.pass 1).passWhile isAnchorChar
  if name.isEmpty then none else return (l.moveTo c).emit (token name)

def tag? (l : Lexer) : Option Lexer := do
  let l := l.markKey.allowKey false
  let (t, c) ← readTag? l.inFlow l.cursor
  return (l.moveTo c).emit t

def block? (l : Lexer) (literal : Bool) : Option Lexer := do
  let l := (l.markKey.allowKey true).unrollBare
  let (text, c) ← readBlock? literal l.indent (l.cursor.pass 1)
  return (l.moveTo c).emit (.scalar false text)

def quoted? (l : Lexer) (single : Bool) : Option Lexer := do
  let l := l.markKey.allowKey false
  let (text, c) ← readQuoted? single l.inFlow l.indent l.cursor
  let l ← (l.moveTo c).skipAll?
  return ({ l with adjacentAt := some l.cursor.index }).emit (.scalar false text)

def plain? (l : Lexer) : Option Lexer := do
  let l := (l.markKey.allowKey false).unrollBare
  let (text, c) ← readPlain? l.inFlow l.indent l.cursor
  let l := l.moveTo c
  return (l.allowKey (l.keyAllowed || c.fresh)).emit (.scalar true text)

/-! ### The whole text -/

def token? (l : Lexer) : Option Lexer :=
  let c := l.cursor
  let x := c.peek
  let stands := endsToken (c.peekAt 1)
  if c.column == 0 && x == '%' then l.directive?
  else if c.atDocumentMark then l.documentMark?
  else if l.column < l.indent then none
  else if x == '[' then l.openFlow? .flowSequenceStart
  else if x == '\x7b' then l.openFlow? .flowMappingStart
  else if x == ']' then l.closeFlow? .flowSequenceEnd
  else if x == '\x7d' then l.closeFlow? .flowMappingEnd
  else if x == ',' then l.flowEntry?
  else if x == '-' && stands then l.blockEntry?
  else if x == '?' && stands then l.explicitKey?
  else if x == ':' && (stands
      || (l.inFlow && (isFlowMark (c.peekAt 1) || l.adjacentAt == some c.index))) then l.value?
  else if x == '*' then l.anchor? .alias
  else if x == '&' then l.anchor? .anchor
  else if x == '!' then l.tag?
  else if x == '|' && !l.inFlow then l.block? true
  else if x == '>' && !l.inFlow then l.block? false
  else if x == '\'' then l.quoted? true
  else if x == '"' then l.quoted? false
  else if x == '%' || x == '@' || x == '\x60' then none
  else l.plain?

/-- The end of the text: no key may be awaited. -/
def finish? (l : Lexer) : Option (List Token) :=
  if l.candidates.any fun k => k.possible && k.required then none
  else some (l.unroll (-1)).tokens.reverse

def run? : Nat → Lexer → Option (List Token)
  | 0, _ => none
  | fuel + 1, l => do
    let l ← (← l.skipAll?).dropStaleKeys?
    let l := l.unroll l.column
    if l.cursor.atEnd then l.finish? else run? fuel (← l.token?)

end Lexer

def tokens? (text : List Char) : Option (List Token) :=
  Lexer.run? (text.length + 1) (.start text)

end ImageLookup.Yaml
