import ImageLookup.Json.Numeral
import ImageLookup.Json.Token

/-! # Documents as trees

A tree is a document of which only the grammar has been checked: numbers are literals and
texts are pieces.  A pushdown machine reads one token at a time, so a document may be
nested to any depth; limits on depth, on numbers and on texts are those of the values that
are read from a tree.
-/

namespace ImageLookup.Json

inductive Tree where
  | null
  | bool (b : Bool)
  | number (n : Numeral)
  | text (pieces : List Piece)
  | array (items : List Tree)
  | object (members : List (List Piece × Tree))
deriving Repr

def Tree.ofWord? (cs : List Char) : Option Tree :=
  if cs == "null".toList then some .null
  else if cs == "true".toList then some (.bool true)
  else if cs == "false".toList then some (.bool false)
  else (Numeral.ofWord? cs).map .number

/-! ### The machine -/

/-- A container that has been opened and not yet closed; its contents have the latest first.
    An object remembers the key whose value is awaited. -/
inductive Frame where
  | array (items : List Tree)
  | object (members : List (List Piece × Tree)) (key : List Piece)
deriving Repr

/-- What may come next. -/
inductive Expectation where
  /-- a value -/
  | value
  /-- a value, or the end of an array that is still empty -/
  | firstItem
  /-- a key -/
  | key
  /-- a key, or the end of an object that is still empty -/
  | firstKey
  /-- the colon after a key -/
  | colon
  /-- a comma or the end of the innermost container; the end of the document outside -/
  | next
deriving DecidableEq, Repr

structure Machine where
  frames : List Frame
  expected : Expectation
  /-- The value of the document, once it is complete. -/
  result : Option Tree
deriving Repr

namespace Machine

def start : Machine := ⟨[], .value, none⟩

def place (m : Machine) (t : Tree) : Machine :=
  match m.frames with
  | [] => ⟨[], .next, some t⟩
  | .array items :: frames => ⟨.array (t :: items) :: frames, .next, none⟩
  | .object members key :: frames => ⟨.object ((key, t) :: members) [] :: frames, .next, none⟩

def closeArray? (m : Machine) : Option Machine :=
  match m.frames with
  | .array items :: frames => some (place ⟨frames, .next, none⟩ (.array items.reverse))
  | _ => none

def closeObject? (m : Machine) : Option Machine :=
  match m.frames with
  | .object members _ :: frames => some (place ⟨frames, .next, none⟩ (.object members.reverse))
  | _ => none

def value? (m : Machine) : Token → Option Machine
  | .openBracket => some ⟨.array [] :: m.frames, .firstItem, none⟩
  | .openBrace => some ⟨.object [] [] :: m.frames, .firstKey, none⟩
  | .text pieces => some (m.place (.text pieces))
  | .word cs => (Tree.ofWord? cs).map m.place
  | _ => none

def key? (m : Machine) : Token → Option Machine
  | .text pieces =>
    match m.frames with
    | .object members _ :: frames => some ⟨.object members pieces :: frames, .colon, none⟩
    | _ => none
  | _ => none

def next? (m : Machine) : Token → Option Machine
  | .closeBracket => m.closeArray?
  | .closeBrace => m.closeObject?
  | .comma =>
    match m.frames with
    | .array _ :: _ => some ⟨m.frames, .value, none⟩
    | .object .. :: _ => some ⟨m.frames, .key, none⟩
    | [] => none
  | _ => none

def step (m : Machine) (t : Token) : Option Machine :=
  match m.expected with
  | .value => m.value? t
  | .firstItem => if t = .closeBracket then m.closeArray? else m.value? t
  | .key => m.key? t
  | .firstKey => if t = .closeBrace then m.closeObject? else m.key? t
  | .colon => if t = .colon then some ⟨m.frames, .value, none⟩ else none
  | .next => m.next? t

end Machine

def Tree.read? (document : Octets) : Option Tree := do
  let tokens ← tokens? document
  (← tokens.foldlM Machine.step Machine.start).result

end ImageLookup.Json
