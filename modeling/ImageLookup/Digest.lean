import ImageLookup.Hash
import ImageLookup.Text.Cut

/-! # Content digests

A digest names content by its hash: the name of an algorithm, a colon, and the encoded
hash.  The name consists of components of lower-case letters and digits with one separator
between two of them; the encoded hash consists of letters, digits, `=`, `_` and `-`.  For
the registered algorithms it must moreover have the length of the hash and be written in
lower-case hexadecimal digits.  A `Digest` can only hold parts that were accepted, and
`Digest.ofText?_text` says that its text reads back.
-/

namespace ImageLookup

namespace Digest

inductive Defect where
  | missingColon
  | emptyComponent
  | invalidComponent (component : String)
  | emptyValue
  | invalidValue (value : String)
  | wrongLength (found expected : Nat)
  | notHexadecimal (value : String)
deriving DecidableEq, Repr

def Defect.message : Defect → String
  | .missingColon => "missing ':' in digest"
  | .emptyComponent => "Empty algorithm component"
  | .invalidComponent component => "Invalid algorithm component: " ++ component
  | .emptyValue => "Empty algorithm value"
  | .invalidValue value => "Invalid encoded value " ++ value
  | .wrongLength found expected =>
    "Invalid digest length " ++ toString found ++ " expected " ++ toString expected
  | .notHexadecimal value => "Invalid non-hexadecimal character in digest: " ++ value

/-! ### Character classes -/

def isLowerHex (c : Char) : Bool := c.isDigit || ('a' ≤ c && c ≤ 'f')

def isComponentChar (c : Char) : Bool := c.isDigit || c.isLower

def isComponentSeparator (c : Char) : Bool := c == '+' || c == '.' || c == '_' || c == '-'

def isEncodedChar (c : Char) : Bool := c.isAlphanum || c == '=' || c == '_' || c == '-'

/-! ### Acceptance -/

def registeredLength? (algorithm : List Char) : Option Nat :=
  if algorithm = "sha256".toList then some 64
  else if algorithm = "sha384".toList then some 96
  else if algorithm = "sha512".toList then some 128
  else none

def componentDefect? (component : List Char) : Option Defect :=
  if component.isEmpty then some .emptyComponent
  else if !component.all isComponentChar then some (.invalidComponent (String.ofList component))
  else none

/-- The first defect of the name of an algorithm, component by component. -/
def algorithmDefect? (algorithm : List Char) : Option Defect :=
  (algorithm.splitOnP isComponentSeparator).findSome? componentDefect?

def encodedDefect? (algorithm encoded : List Char) : Option Defect :=
  if encoded.isEmpty then some .emptyValue
  else if !encoded.all isEncodedChar then some (.invalidValue (String.ofList encoded))
  else
    match registeredLength? algorithm with
    | none => none
    | some expected =>
      if encoded.length ≠ expected then some (.wrongLength encoded.length expected)
      else if !encoded.all isLowerHex then some (.notHexadecimal (String.ofList encoded))
      else none

def defect? (algorithm encoded : List Char) : Option Defect :=
  (algorithmDefect? algorithm).or (encodedDefect? algorithm encoded)

end Digest

/-- A content digest. -/
structure Digest where
  algorithm : String
  encoded : String
  accepted : Digest.defect? algorithm.toList encoded.toList = none
deriving DecidableEq

namespace Digest

def text (d : Digest) : String := d.algorithm ++ ":" ++ d.encoded

/-- Reads a digest; the first colon ends the name of the algorithm. -/
def ofChars? (cs : List Char) : Except Defect Digest :=
  match Text.cutFirst (· == ':') cs with
  | none => .error .missingColon
  | some (algorithm, encoded) =>
    match h : defect? algorithm encoded with
    | some d => .error d
    | none =>
      .ok ⟨String.ofList algorithm, String.ofList encoded, by
        rw [String.toList_ofList, String.toList_ofList]; exact h⟩

def ofText? (s : String) : Except Defect Digest := ofChars? s.toList

/-! ### Verification -/

/-- The hash function that a digest calls for, where it is one that can be computed. -/
def hash? (d : Digest) : Option (Octets → Octets) :=
  if d.algorithm = "sha256" then some Hash.sha256
  else if d.algorithm = "sha512" then some Hash.sha512
  else none

/-- Whether content hashes to the digest; `none` when the hash cannot be computed. -/
def verify (d : Digest) (content : Octets) : Option Bool :=
  d.hash?.map fun hash => decide (Text.hex (hash content) = d.encoded.toList)

/-! ### Small facts -/

/-- The checks are carried by the digest itself, so only the colon has to be found. -/
theorem ofChars?_eq_ok_iff {cs : List Char} {d : Digest} :
    ofChars? cs = .ok d ↔
      Text.cutFirst (· == ':') cs = some (d.algorithm.toList, d.encoded.toList) := by
  unfold ofChars?
  split
  · rename_i h
    simp [h]
  · rename_i algorithm encoded h
    rw [h]
    split
    · rename_i x hx
      constructor
      · intro hc; cases hc
      · intro hp
        simp only [Option.some.injEq, Prod.mk.injEq] at hp
        rw [hp.1, hp.2, d.accepted] at hx
        cases hx
    · constructor
      · intro hc
        cases hc
        simp
      · intro hp
        simp only [Option.some.injEq, Prod.mk.injEq] at hp
        obtain ⟨rfl, rfl⟩ := hp
        congr 1
        cases d
        simp

/-! ### The text of a digest -/

theorem mem_splitOnP_of_mem {α : Type} {p : α → Bool} {xs : List α} {x : α} (hx : x ∈ xs)
    (hp : p x = false) : ∃ part ∈ xs.splitOnP p, x ∈ part := by
  induction xs with
  | nil => cases hx
  | cons y ys ih =>
    rw [List.splitOnP_cons_eq_if_modifyHead]
    obtain ⟨part, parts, hparts⟩ := List.exists_cons_of_ne_nil (List.splitOnP_ne_nil p ys)
    rcases List.mem_cons.1 hx with rfl | hmem
    · rw [if_neg (by simp [hp]), hparts]
      exact ⟨x :: part, by simp, by simp⟩
    · obtain ⟨found, hfound, hxfound⟩ := ih hmem
      rw [hparts] at hfound ⊢
      by_cases hy : p y = true
      · rw [if_pos hy]
        exact ⟨found, List.mem_cons_of_mem _ hfound, hxfound⟩
      · rw [if_neg hy, List.modifyHead_cons]
        rcases List.mem_cons.1 hfound with rfl | htail
        · exact ⟨y :: found, by simp, List.mem_cons_of_mem _ hxfound⟩
        · exact ⟨found, List.mem_cons_of_mem _ htail, hxfound⟩

theorem mem_algorithm (d : Digest) {c : Char} (hc : c ∈ d.algorithm.toList) :
    isComponentChar c = true ∨ isComponentSeparator c = true := by
  have haccepted := d.accepted
  rw [defect?, Option.or_eq_none_iff, algorithmDefect?, List.findSome?_eq_none_iff] at haccepted
  by_cases hsep : isComponentSeparator c = true
  · exact Or.inr hsep
  · obtain ⟨part, hpart, hmem⟩ := mem_splitOnP_of_mem hc (Bool.eq_false_iff.2 hsep)
    have hgood := haccepted.1 part hpart
    unfold componentDefect? at hgood
    split at hgood
    · cases hgood
    · split at hgood
      · cases hgood
      · rename_i _ hall
        rw [Bool.not_eq_true, Bool.not_eq_false', List.all_eq_true] at hall
        exact Or.inl (hall c hmem)

theorem encodedDefect?_eq_none (d : Digest) :
    encodedDefect? d.algorithm.toList d.encoded.toList = none := by
  have haccepted := d.accepted
  rw [defect?, Option.or_eq_none_iff] at haccepted
  exact haccepted.2

theorem mem_encoded (d : Digest) {c : Char} (hc : c ∈ d.encoded.toList) :
    isEncodedChar c = true := by
  have hgood := encodedDefect?_eq_none d
  unfold encodedDefect? at hgood
  split at hgood
  · cases hgood
  · split at hgood
    · cases hgood
    · rename_i _ hall
      rw [Bool.not_eq_true, Bool.not_eq_false', List.all_eq_true] at hall
      exact hall c hc

theorem toList_text (d : Digest) :
    d.text.toList = d.algorithm.toList ++ ':' :: d.encoded.toList := by
  simp [text, String.toList_append]

/-- The text of a digest reads back. -/
theorem ofChars?_toList_text (d : Digest) : ofChars? d.text.toList = .ok d := by
  rw [ofChars?_eq_ok_iff, toList_text]
  refine Text.cutFirst_append_cons (by rfl) fun c hc => ?_
  rw [beq_eq_false_iff_ne]
  rintro rfl
  rcases mem_algorithm d hc with h | h
  · exact absurd h (by decide)
  · exact absurd h (by decide)

theorem ofText?_text (d : Digest) : ofText? d.text = .ok d := ofChars?_toList_text d

/-- A digest is read from its own text and from no other. -/
theorem ofText?_eq_ok_iff {s : String} {d : Digest} : ofText? s = .ok d ↔ d.text = s := by
  constructor
  · intro h
    rw [ofText?, ofChars?_eq_ok_iff] at h
    obtain ⟨c, hc, hparts, -⟩ := Text.cutFirst_eq_some h
    apply String.toList_inj.1
    rw [toList_text, hparts, eq_of_beq hc]
  · rintro rfl
    exact ofText?_text d

/-- No colon stands before the one that ends the name, so the text tells the two parts. -/
theorem text_injective {d d' : Digest} (h : d.text = d'.text) : d = d' := by
  have hread := ofText?_text d
  rw [h, ofText?_text] at hread
  exact (Except.ok.inj hread).symm

end Digest

end ImageLookup
