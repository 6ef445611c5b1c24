import ImageLookup.Failure
import ImageLookup.Text.Character

/-! # Authentication challenges

The value of a `WWW-Authenticate` header lists challenges, separated by commas; a challenge
is a scheme and parameters, separated by commas too.  A comma starts a new challenge when it
is outside of quotes and the word after it is not followed by `=`.  Parameter values may be
quoted, and inside quotes a backslash makes the next character stand for itself.

A header stands for its first `Bearer` challenge, or for its first challenge when there is
none.
-/

namespace ImageLookup

/-- A challenge that names the service at which tokens are issued. -/
structure Challenge where
  scheme : String
  /-- The address of the token service. -/
  realm : String
  service : Option String
  scope : Option String
deriving DecidableEq, Repr

namespace Challenge

inductive Defect where
  | empty
  | withoutParameters
  | withoutRealm
deriving DecidableEq, Repr

def Defect.message : Defect → String
  | .empty => "Empty WWW-Authenticate header"
  | .withoutParameters => "Invalid WWW-Authenticate header format"
  | .withoutRealm => "WWW-Authenticate header missing required 'realm' parameter"

def Defect.failure (d : Defect) : Failure := .authenticationRejected d.message (some 401)

/-! ### Quotes -/

/-- Where a reader of a header stands with respect to quotes. -/
inductive Quoting where
  | outside
  | inside
  /-- inside, after a backslash -/
  | escaped
deriving DecidableEq, Repr

def Quoting.step : Quoting → Char → Quoting
  | .outside, c => if c = '"' then .inside else .outside
  | .inside, c => if c = '\\' then .escaped else if c = '"' then .outside else .inside
  | .escaped, _ => .inside

/-! ### Lists of challenges -/

def endsWord (c : Char) : Bool := Text.isBlank c || c == '=' || c == ','

/-- Whether a text starts with a word that is not followed by `=`. -/
def startsScheme (cs : List Char) : Bool :=
  let cs := Text.trimStart cs
  !(cs.takeWhile fun c => !endsWord c).isEmpty
    && (Text.trimStart (cs.dropWhile fun c => !endsWord c)).head? != some '='

/-- The stretches of a header between the commas that start a challenge. -/
def stretches (q : Quoting) : List Char → List (List Char)
  | [] => [[]]
  | c :: cs =>
    if q = .outside ∧ c = ',' ∧ startsScheme cs = true then [] :: stretches .outside cs
    else
      match stretches (q.step c) cs with
      | [] => [[c]]
      | s :: ss => (c :: s) :: ss

def split (header : List Char) : List (List Char) :=
  ((stretches .outside header).map Text.trim).filter fun s => !s.isEmpty

theorem stretches_ne_nil (q : Quoting) (cs : List Char) : stretches q cs ≠ [] := by
  cases cs with
  | nil => simp [stretches]
  | cons c cs =>
    unfold stretches
    split
    · simp
    · split <;> simp

/-! ### Parameters -/

/-- Reads the rest of a quoted value: the value, and what follows the closing quote. -/
def quotedValue : List Char → List Char × List Char
  | [] => ([], [])
  | '\\' :: c :: cs => (c :: (quotedValue cs).1, (quotedValue cs).2)
  | ['\\'] => ([], [])
  | '"' :: cs => ([], cs)
  | c :: cs => (c :: (quotedValue cs).1, (quotedValue cs).2)

/-- Reads a value, quoted or up to the next comma, and gives what follows it. -/
def parameterValue (cs : List Char) : List Char × List Char :=
  match Text.trimStart cs with
  | '"' :: rest => quotedValue rest
  | bare => (Text.trimEnd (bare.takeWhile (· != ',')), bare.dropWhile (· != ','))

theorem length_dropWhile_le (p : Char → Bool) (cs : List Char) :
    (cs.dropWhile p).length ≤ cs.length :=
  (List.dropWhile_sublist p).length_le

theorem length_quotedValue_le (cs : List Char) : (quotedValue cs).2.length ≤ cs.length := by
  fun_induction quotedValue cs <;> simp_all <;> omega

theorem length_parameterValue_le (cs : List Char) :
    (parameterValue cs).2.length ≤ cs.length := by
  have trimmed : (Text.trimStart cs).length ≤ cs.length := length_dropWhile_le _ _
  unfold parameterValue
  split
  · rename_i rest h
    have := length_quotedValue_le rest
    rw [h, List.length_cons] at trimmed
    omega
  · exact Nat.le_trans (length_dropWhile_le _ _) trimmed

def isFiller (c : Char) : Bool := Text.isBlank c || c == ','

def endsKey (c : Char) : Bool := c == '=' || c == ','

/-- The parameters of a challenge.  A word without a value does not count. -/
def parameters (cs : List Char) : List (List Char × List Char) :=
  let item := cs.dropWhile isFiller
  match _h : item.dropWhile fun c => !endsKey c with
  | [] => []
  | c :: rest =>
    if c = '=' then
      (Text.trim (item.takeWhile fun c => !endsKey c), (parameterValue rest).1)
        :: parameters (parameterValue rest).2
    else parameters rest
termination_by cs.length
decreasing_by
  all_goals
    have dropped : (cs.dropWhile isFiller).length ≤ cs.length := length_dropWhile_le _ _
    have key : ((cs.dropWhile isFiller).dropWhile fun c => !endsKey c).length ≤
      (cs.dropWhile isFiller).length := length_dropWhile_le _ _
    rw [_h, List.length_cons] at key
  · have := length_parameterValue_le rest
    omega
  · omega

/-! ### Challenges -/

/-- The last value given for a name, which is compared without regard to ASCII case. -/
def lastValue? (name : String) (ps : List (List Char × List Char)) : Option String :=
  (ps.reverse.find? fun p => p.1.map Char.toLower == name.toList).map fun p =>
    String.ofList p.2

def ofText? (cs : List Char) : Except Defect Challenge :=
  match Text.cutFirst Text.isBlank cs with
  | none => .error .withoutParameters
  | some (scheme, rest) =>
    let ps := parameters rest
    match (lastValue? "realm" ps).filter (· != "") with
    | none => .error .withoutRealm
    | some realm =>
      .ok ⟨String.ofList scheme, realm, lastValue? "service" ps, lastValue? "scope" ps⟩

def isBearer (c : Challenge) : Bool := c.scheme.toList.map Char.toLower == "bearer".toList

def asksForToken : Except Defect Challenge → Bool
  | .ok c => c.isBearer
  | .error _ => false

def parse (header : String) : Except Defect Challenge :=
  let read := (split header.toList).map ofText?
  match read.find? asksForToken with
  | some r => r
  | none => read.head?.getD (.error .empty)

end Challenge

end ImageLookup
