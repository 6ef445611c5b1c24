import ImageLookup.Settings.Value

/-! # Paths of settings

The name of a setting may be a path into the tree: names with a dot between them, and numbers in
brackets for the items of lists.  A name that is not such a path stands for itself.

Setting a path makes room for it: what is not a table or list on the way becomes one, and a list
is filled up with `null`.  Only the last name of a path is brought to lower case.
-/

namespace ImageLookup.Settings

inductive Step where
  | name (s : String)
  | item (index : Int)
deriving DecidableEq, Repr

/-! ### Reading paths -/

def isPathChar (c : Char) : Bool := c.isAlphanum || c == ' ' || c == '_' || c == '-'

def isPathBlank (c : Char) : Bool := c == ' ' || c == '\t' || c == '\r' || c == '\n'

def index? (cs : List Char) : Option Int :=
  Text.integer64? 10 ((cs.dropWhile isPathBlank).reverse.dropWhile isPathBlank).reverse

/-- Reads the steps behind the first name; `fuel` bounds their number. -/
def steps? : Nat → List Char → Option (List Step)
  | _, [] => some []
  | 0, _ => none
  | fuel + 1, '.' :: rest =>
    let name := rest.takeWhile isPathChar
    if name.isEmpty then none
    else (steps? fuel (rest.dropWhile isPathChar)).map (.name (String.ofList name) :: ·)
  | fuel + 1, '[' :: rest =>
    match Text.cutFirst (· == ']') rest with
    | none => none
    | some (number, rest) => do
      let i ← index? number
      return .item i :: (← steps? fuel rest)
  | _, _ => none

def path? (s : String) : Option (List Step) :=
  let cs := s.toList
  let name := cs.takeWhile isPathChar
  if name.isEmpty then none
  else (steps? cs.length (cs.dropWhile isPathChar)).map (.name (String.ofList name) :: ·)

def pathOf (s : String) : List Step := (path? s).getD [.name s]

/-! ### Setting paths -/

/-- Makes room for an item, and tells where it is: negative numbers count from the end, and what
    is before the first item is added in front. -/
def makeRoom (items : List Value) (i : Int) : List Value × Nat :=
  if 0 ≤ i then
    (items ++ List.replicate (i.toNat + 1 - items.length) .null, i.toNat)
  else
    let fromEnd := (-i).toNat
    if fromEnd ≤ items.length then (items, items.length - fromEnd)
    else (List.replicate (fromEnd - items.length) .null ++ items, 0)

namespace Value

def set : List Step → Value → Value → Value
  | [], incoming, _ => incoming
  | [.name s], incoming, target => enter s incoming target
  | .name s :: rest, incoming, target =>
    .table (alter s (fun old => set rest incoming (old.getD .null)) target.entries)
  | .item i :: rest, incoming, target =>
    let (items, k) := makeRoom target.items i
    .list (items.modify k (set rest incoming))

/-- Sets every entry of a layer; its names may be paths. -/
def overlay (layer : List (String × Value)) (target : Value) : Value :=
  layer.foldl (fun target entry => set (pathOf entry.1) entry.2 target) target

end Value

example : pathOf "registries.plain_http[ 2 ]" =
    [.name "registries", .name "plain_http", .item 2] := by decide +kernel

example : pathOf "network." = [.name "network."] := by decide +kernel

end ImageLookup.Settings
