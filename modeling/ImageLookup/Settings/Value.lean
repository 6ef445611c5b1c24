import ImageLookup.Decimal.Shortest
import ImageLookup.Yaml.Datum

/-! # Trees of settings

Settings are kept as a tree of values until they are read.  Names of settings do not depend on
the case of their letters: a value is entered under the lower-case form of its name.

Tables are merged name by name, and every other value takes the place of what was there before.
-/

namespace ImageLookup.Settings

inductive Value where
  | null
  | bool (b : Bool)
  | integer (i : Int)
  | real (x : Double)
  | text (s : String)
  | list (items : List Value)
  | table (entries : List (String × Value))
deriving Repr, Inhabited

/-! ### Names -/

/-- The lower-case form of a letter, as far as names of settings can contain it: ASCII letters,
    and the Kelvin sign, which is another form of the letter K. -/
def lowerChar (c : Char) : Char := if c == '\u212a' then 'k' else c.toLower

def lowerName (s : String) : String := String.ofList (s.toList.map lowerChar)

/-! ### Entries -/

def find? (name : String) : List (String × Value) → Option Value
  | [] => none
  | (k, v) :: rest => if name = k then some v else find? name rest

def alter (name : String) (f : Option Value → Value) :
    List (String × Value) → List (String × Value)
  | [] => [(name, f none)]
  | (k, v) :: rest => if name = k then (k, f (some v)) :: rest else (k, v) :: alter name f rest

theorem find?_alter_self (name : String) (f : Option Value → Value)
    (entries : List (String × Value)) :
    find? name (alter name f entries) = some (f (find? name entries)) := by
  induction entries with
  | nil => simp [alter, find?]
  | cons e rest ih =>
    obtain ⟨k, v⟩ := e
    by_cases h : name = k <;> simp [alter, find?, h, ih]

theorem find?_alter_ne {name other : String} (h : other ≠ name) (f : Option Value → Value)
    (entries : List (String × Value)) :
    find? other (alter name f entries) = find? other entries := by
  induction entries with
  | nil => simp [alter, find?, h]
  | cons e rest ih =>
    obtain ⟨k, v⟩ := e
    by_cases hk : name = k
    · subst hk
      simp [alter, find?, h]
    · simp [alter, find?, hk, ih]

namespace Value

/-- The entries of a table; other values have none. -/
def entries : Value → List (String × Value)
  | .table entries => entries
  | _ => []

/-- The items of a list; other values have none. -/
def items : Value → List Value
  | .list items => items
  | _ => []

def get? (name : String) (v : Value) : Option Value := find? name v.entries

/-! ### Merging -/

mutual

/-- Enters a value under a name; what is not a table becomes one. -/
def enter (name : String) (incoming target : Value) : Value :=
  match incoming with
  | .table incoming =>
    .table (alter (lowerName name)
      (fun old => enterAll incoming (old.getD (.table []))) target.entries)
  | other => .table (alter (lowerName name) (fun _ => other) target.entries)

def enterAll : List (String × Value) → Value → Value
  | [], target => target
  | (name, v) :: rest, target => enterAll rest (enter name v target)

end

/-! ### Values of YAML documents -/

mutual

/-- The value of a datum.  There is none if a name is not a scalar, or if a number is not
    finite. -/
def ofDatum? : Yaml.Datum → Option Value
  | .null => some .null
  | .bad => some .null
  | .bool b => some (.bool b)
  | .integer i => some (.integer i)
  | .real cs => (Text.decimal? cs).map .real
  | .text cs => some (.text (String.ofList cs))
  | .sequence items => (ofData? items).map .list
  | .mapping pairs => (ofPairs? pairs).map .table

def ofData? : List Yaml.Datum → Option (List Value)
  | [] => some []
  | d :: ds => do
    let v ← ofDatum? d
    return v :: (← ofData? ds)

def ofPairs? : List (Yaml.Datum × Yaml.Datum) → Option (List (String × Value))
  | [] => some []
  | (key, d) :: rest => do
    let name ← nameOf? key
    let v ← ofDatum? d
    return (name, v) :: (← ofPairs? rest)

def nameOf? : Yaml.Datum → Option String
  | .text cs | .real cs => some (String.ofList cs)
  | .integer i => some (toString i)
  | .bool b => some (if b then "true" else "false")
  | _ => none

end

end Value

end ImageLookup.Settings
