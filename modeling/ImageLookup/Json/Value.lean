import ImageLookup.Json.Tree

/-! # Values of documents

A value is what a document means: texts are well-formed, numbers are integers or doubles,
and each key of an object occurs once, the last occurrence deciding, in the order of keys.
A tree has no value when its containers are nested deeper than `depthLimit`, when a text is
not well-formed, or when a number is beyond the doubles.
-/

namespace ImageLookup.Json

inductive Value where
  | null
  | bool (b : Bool)
  | integer (i : Int)
  | real (x : Double)
  | text (s : String)
  | array (items : List Value)
  | object (members : List (String × Value))
deriving Repr, Inhabited

/-! ### Texts -/

/-- The octets of a text.  The code units of a surrogate pair follow one another; a
    surrogate that is not part of a pair is an error. -/
def octetsOf? : List Piece → Option Octets
  | [] => some []
  | .octet o :: rest => (octetsOf? rest).map (o :: ·)
  | .unit high :: .unit low :: rest =>
    if 0xD800 ≤ high ∧ high ≤ 0xDBFF then
      if 0xDC00 ≤ low ∧ low ≤ 0xDFFF then
        (octetsOf? rest).map
          (unitOctets (0x10000 + (high - 0xD800) * 0x400 + (low - 0xDC00)) ++ ·)
      else none
    else if 0xDC00 ≤ high ∧ high ≤ 0xDFFF then none
    else (octetsOf? (.unit low :: rest)).map (unitOctets high ++ ·)
  | .unit code :: rest =>
    if 0xD800 ≤ code ∧ code ≤ 0xDFFF then none
    else (octetsOf? rest).map (unitOctets code ++ ·)
where
  /-- The UTF-8 form of a character given by its code. -/
  unitOctets (code : Nat) : Octets := Text.octets (String.singleton (Char.ofNat code))

def textOf? (pieces : List Piece) : Option String := (octetsOf? pieces).bind Text.text?

/-! ### Members -/

/-- Enters a member in the order of keys, in place of an earlier one with the same key. -/
def insertMember (key : String) (value : Value) :
    List (String × Value) → List (String × Value)
  | [] => [(key, value)]
  | (k, v) :: rest =>
    if key = k then (key, value) :: rest
    else if key < k then (key, value) :: (k, v) :: rest
    else (k, v) :: insertMember key value rest

def lookup? (key : String) : List (String × Value) → Option Value
  | [] => none
  | (k, v) :: rest => if key = k then some v else lookup? key rest

/-! ### Values of trees -/

def depthLimit : Nat := 127

mutual

/-- The value of a tree below which containers may be nested `room` deep. -/
def Value.ofTree? (room : Nat) : Tree → Option Value
  | .null => some .null
  | .bool b => some (.bool b)
  | .number n => (n.integer?.map .integer).or (n.double?.map .real)
  | .text pieces => (textOf? pieces).map .text
  | .array items =>
    match room with
    | 0 => none
    | room + 1 => (itemsOf? room items).map .array
  | .object members =>
    match room with
    | 0 => none
    | room + 1 => (membersOf? room members []).map .object

def itemsOf? (room : Nat) : List Tree → Option (List Value)
  | [] => some []
  | t :: ts => do
    let v ← Value.ofTree? room t
    return v :: (← itemsOf? room ts)

def membersOf? (room : Nat) :
    List (List Piece × Tree) → List (String × Value) → Option (List (String × Value))
  | [], done => some done
  | (pieces, t) :: rest, done => do
    let key ← textOf? pieces
    let v ← Value.ofTree? room t
    membersOf? room rest (insertMember key v done)

end

def Value.read? (document : Octets) : Option Value :=
  (Tree.read? document).bind (Value.ofTree? depthLimit)

/-! ### Access -/

namespace Value

/-- The member of an object; values of other kinds have none. -/
def get? (key : String) : Value → Option Value
  | .object members => lookup? key members
  | _ => none

def asText? : Value → Option String
  | .text s => some s
  | _ => none

def asArray? : Value → Option (List Value)
  | .array items => some items
  | _ => none

def at? (v : Value) : List String → Option Value
  | [] => some v
  | key :: path => (v.get? key).bind (·.at? path)

end Value

end ImageLookup.Json
