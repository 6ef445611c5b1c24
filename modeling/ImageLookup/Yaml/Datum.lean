import ImageLookup.Yaml.Writer

/-! # Data of YAML documents

A plain scalar without tag is `null`, a truth value, an integer of 64 bits, or a real number
where it has the form of one, and a text otherwise; a scalar of any other style is a text.  A tag
of the YAML repository fixes the kind of a plain scalar, and a scalar that does not have the form
of that kind is no datum: it is `bad`, as is an alias inside of what it stands for.

Real numbers are kept as text.
-/

namespace ImageLookup.Yaml

inductive Datum where
  | null
  | bad
  | bool (b : Bool)
  | integer (i : Int)
  | real (text : List Char)
  | text (text : List Char)
  | sequence (items : List Datum)
  | mapping (pairs : List (Datum × Datum))
deriving Repr, Inhabited

namespace Datum

/-! ### Equality -/

mutual

def same : Datum → Datum → Bool
  | .null, .null | .bad, .bad => true
  | .bool a, .bool b => a == b
  | .integer a, .integer b => a == b
  | .real a, .real b | .text a, .text b => a == b
  | .sequence as, .sequence bs => sameItems as bs
  | .mapping as, .mapping bs => samePairs as bs
  | _, _ => false

def sameItems : List Datum → List Datum → Bool
  | [], [] => true
  | a :: as, b :: bs => same a b && sameItems as bs
  | _, _ => false

def samePairs : List (Datum × Datum) → List (Datum × Datum) → Bool
  | [], [] => true
  | (key, a) :: as, (key', b) :: bs => same key key' && same a b && samePairs as bs
  | _, _ => false

end

mutual

theorem same_iff : ∀ a b : Datum, same a b = true ↔ a = b
  | .sequence as, b => by cases b <;> simp [same, sameItems_iff as]
  | .mapping as, b => by cases b <;> simp [same, samePairs_iff as]
  | .null, b | .bad, b | .bool _, b | .integer _, b | .real _, b | .text _, b => by
    cases b <;> simp [same]

theorem sameItems_iff : ∀ as bs : List Datum, sameItems as bs = true ↔ as = bs
  | [], bs => by cases bs <;> simp [sameItems]
  | a :: as, bs => by cases bs <;> simp [sameItems, same_iff a, sameItems_iff as]

theorem samePairs_iff : ∀ as bs : List (Datum × Datum), samePairs as bs = true ↔ as = bs
  | [], bs => by cases bs <;> simp [samePairs]
  | (key, a) :: as, bs => by
    cases bs <;> simp [samePairs, same_iff key, same_iff a, samePairs_iff as, Prod.ext_iff]

end

instance : DecidableEq Datum := fun a b => decidable_of_iff (same a b) (same_iff a b)

/-! ### Plain scalars -/

def notFinite : List String :=
  [".inf", ".Inf", ".INF", "+.inf", "+.Inf", "+.INF", "-.inf", "-.Inf", "-.INF", ".nan", ".NaN",
    ".NAN"]

def isReal (cs : List Char) : Bool :=
  notFinite.contains (String.ofList cs)
    || (cs.any Text.isDigit && (Text.decimal? cs).isSome)

/-- An integer of 64 bits: in base 16 or 8 after a mark, which comes before the sign, and in
    base 10 otherwise, where a plus may come before the sign. -/
def integer? : List Char → Option Int
  | '0' :: 'x' :: digits => Text.integer64? 16 digits
  | '0' :: 'o' :: digits => Text.integer64? 8 digits
  | '+' :: rest => Text.integer64? 10 rest
  | cs => Text.integer64? 10 cs

def ofPlain (cs : List Char) : Datum :=
  match String.ofList cs with
  | "" | "~" | "null" => .null
  | "true" | "True" | "TRUE" => .bool true
  | "false" | "False" | "FALSE" => .bool false
  | _ =>
    match integer? cs with
    | some i => .integer i
    | none => if isReal cs then .real cs else .text cs

/-! ### Tags -/

def repository : List Char := "tag:yaml.org,2002:".toList

def ofTagged (handle suffix cs : List Char) : Datum :=
  if handle == repository then
    match String.ofList suffix with
    | "bool" =>
      if cs == "true".toList then .bool true
      else if cs == "false".toList then .bool false
      else .bad
    | "int" =>
      match Text.integer64? 10 cs with
      | some i => .integer i
      | none => .bad
    | "float" => if isReal cs then .real cs else .bad
    | "null" => if cs == ['~'] || cs == "null".toList then .null else .bad
    | _ => .text cs
  else .text cs

def ofScalar (plain : Bool) (tag : Option (List Char × List Char)) (cs : List Char) : Datum :=
  if plain then
    match tag with
    | some (handle, suffix) => ofTagged handle suffix cs
    | none => ofPlain cs
  else .text cs

/-! ### Mappings -/

/-- Pairs up what stands in a mapping.  What is `bad` is no key: the next datum is the key in
    its place.  No key may occur twice. -/
def pairUp? : List Datum → List (Datum × Datum) → Option (List (Datum × Datum))
  | [], done => some done.reverse
  | .bad :: rest, done => pairUp? rest done
  | [_], done => some done.reverse
  | key :: value :: rest, done =>
    if done.any fun p => p.1 == key then none else pairUp? rest ((key, value) :: done)

end Datum

end ImageLookup.Yaml
