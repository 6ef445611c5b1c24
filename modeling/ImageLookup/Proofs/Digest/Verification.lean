import ImageLookup.Decimal.Reading
import ImageLookup.Digest
import ImageLookup.Text.Character

/-! # Digests that content can have

A digest is accepted by its letters and verified by a hash.  The two agree: the digest of any content is
accepted, only that digest verifies the content, and a digest of an algorithm whose hash can be computed
is accepted in the one spelling that hashes are written in, so none is refused by every content because
of its letters.
-/

namespace ImageLookup.Digest

/-- The algorithms whose hashes can be computed. -/
inductive Algorithm where
  | sha256
  | sha512
deriving DecidableEq, Repr

namespace Algorithm

def name : Algorithm → String
  | .sha256 => "sha256"
  | .sha512 => "sha512"

def hash : Algorithm → Octets → Octets
  | .sha256 => Hash.sha256
  | .sha512 => Hash.sha512

def size : Algorithm → Nat
  | .sha256 => 32
  | .sha512 => 64

def textOf (a : Algorithm) (content : Octets) : String :=
  a.name ++ ":" ++ String.ofList (Text.hex (a.hash content))

@[simp] theorem length_hash (a : Algorithm) (content : Octets) :
    (a.hash content).length = a.size := by
  cases a with
  | sha256 => exact Hash.length_sha256 content
  | sha512 => exact Hash.length_sha512 content

theorem registeredLength?_name (a : Algorithm) :
    registeredLength? a.name.toList = some (2 * a.size) := by
  cases a <;> decide

theorem algorithmDefect?_name (a : Algorithm) : algorithmDefect? a.name.toList = none := by
  cases a <;> decide +kernel

end Algorithm

open Algorithm

variable {a : Algorithm} {d : Digest} {cs : List Char} {content : Octets}

/-! ### Hexadecimal spelling -/

theorem exists_hexDigit {c : Char} (h : isLowerHex c = true) : ∃ n : Fin 16, Text.hexDigit n = c := by
  simp only [isLowerHex, Char.isDigit, Bool.or_eq_true, Bool.and_eq_true, decide_eq_true_eq,
    ge_iff_le, Char.le_def, UInt32.le_iff_toNat_le] at h
  have hbounds : (48 ≤ c.toNat ∧ c.toNat ≤ 57) ∨ (97 ≤ c.toNat ∧ c.toNat ≤ 102) := h
  rcases hbounds with hdigit | hletter
  · refine ⟨⟨c.toNat - 48, by omega⟩, ?_⟩
    rw [Text.hexDigit, if_pos (show c.toNat - 48 < 10 by omega),
      show c.toNat - 48 + 48 = c.toNat by omega, Char.ofNat_toNat]
  · refine ⟨⟨c.toNat - 87, by omega⟩, ?_⟩
    rw [Text.hexDigit, if_neg (show ¬c.toNat - 87 < 10 by omega),
      show c.toNat - 87 + 87 = c.toNat by omega, Char.ofNat_toNat]

theorem isLowerHex_hexDigit : ∀ n : Fin 16, isLowerHex (Text.hexDigit n) = true := by decide

theorem isEncodedChar_of_isLowerHex {c : Char} (h : isLowerHex c = true) :
    isEncodedChar c = true := by
  have hall : ∀ n : Fin 16, isEncodedChar (Text.hexDigit n) = true := by decide
  obtain ⟨n, rfl⟩ := exists_hexDigit h
  exact hall n

theorem hex_cons (o : UInt8) (os : Octets) : Text.hex (o :: os) =
    Text.hexDigit (o.toNat / 16) :: Text.hexDigit (o.toNat % 16) :: Text.hex os := rfl

theorem all_isLowerHex_hex (os : Octets) : (Text.hex os).all isLowerHex = true := by
  induction os with
  | nil => rfl
  | cons o os ih =>
    have hoctet := o.toNat_lt
    have hhigh := isLowerHex_hexDigit ⟨o.toNat / 16, by omega⟩
    have hlow := isLowerHex_hexDigit ⟨o.toNat % 16, by omega⟩
    rw [hex_cons, List.all_cons, List.all_cons, hhigh, hlow, ih]
    rfl

/-- Lower-case digits in pairs are the octets of something. -/
theorem exists_hex {n : Nat} (hall : cs.all isLowerHex = true) (hlength : cs.length = 2 * n) :
    ∃ os : Octets, os.length = n ∧ cs = Text.hex os := by
  induction n generalizing cs with
  | zero => exact ⟨[], rfl, List.length_eq_zero_iff.1 hlength⟩
  | succ n ih =>
    match cs, hall, hlength with
    | high :: low :: rest, hall, hlength =>
      simp only [List.all_cons, Bool.and_eq_true] at hall
      obtain ⟨h, rfl⟩ := exists_hexDigit hall.1
      obtain ⟨l, rfl⟩ := exists_hexDigit hall.2.1
      obtain ⟨os, hos, rfl⟩ := ih hall.2.2 (by simp only [List.length_cons] at hlength; omega)
      refine ⟨UInt8.ofNat (16 * h + l) :: os, by rw [List.length_cons, hos], ?_⟩
      have hvalue : (UInt8.ofNat (16 * h + l)).toNat = 16 * h + l :=
        UInt8.toNat_ofNat_of_lt' (show 16 * h.val + l.val < 256 by omega)
      rw [hex_cons, hvalue, show (16 * h.val + l.val) / 16 = h by omega,
        show (16 * h.val + l.val) % 16 = l by omega]
    | [_], _, hlength => simp at hlength; omega
    | [], _, hlength => simp at hlength

/-! ### Acceptance -/

/-- Behind the name of such an algorithm stand the digits of as many octets as a hash has. -/
theorem encodedDefect?_name_iff :
    encodedDefect? a.name.toList cs = none ↔ ∃ os : Octets, os.length = a.size ∧ cs = Text.hex os := by
  constructor
  · intro h
    unfold encodedDefect? at h
    rw [registeredLength?_name] at h
    split at h
    · cases h
    · split at h
      · cases h
      · dsimp only at h
        split at h
        · cases h
        · rename_i hlength
          split at h
          · cases h
          · rename_i hhex
            rw [Bool.not_eq_true, Bool.not_eq_false'] at hhex
            exact exists_hex hhex (Decidable.not_not.1 hlength)
  · rintro ⟨os, hos, rfl⟩
    have hlength : (Text.hex os).length = 2 * a.size := by rw [Text.length_hex, hos]
    have hhex := all_isLowerHex_hex os
    have hencoded : (Text.hex os).all isEncodedChar = true := by
      rw [List.all_eq_true] at hhex ⊢
      intro c hc
      exact isEncodedChar_of_isLowerHex (hhex c hc)
    have hnonempty : (Text.hex os).isEmpty = false := by
      cases hempty : Text.hex os with
      | nil =>
        rw [hempty] at hlength
        cases a <;> cases hlength
      | cons c cs => rfl
    simp [encodedDefect?, registeredLength?_name, hnonempty, hencoded, hlength, hhex]

/-- Accepted are just the codes of octet sequences of the right length. -/
theorem defect?_name_iff :
    defect? a.name.toList cs = none ↔ ∃ os : Octets, os.length = a.size ∧ cs = Text.hex os := by
  rw [defect?, algorithmDefect?_name, Option.none_or, encodedDefect?_name_iff]

theorem ofText?_name_eq_ok_iff :
    ofText? (a.name ++ ":" ++ String.ofList cs) = .ok d ↔
      a.name.toList = d.algorithm.toList ∧ cs = d.encoded.toList := by
  have hcolon : ':' ∉ a.name.toList := by cases a <;> decide
  have hname : ∀ c ∈ a.name.toList, (c == ':') = false := by
    intro c hc
    rw [beq_eq_false_iff_ne]
    rintro rfl
    exact hcolon hc
  have hcut : Text.cutFirst (· == ':') (a.name.toList ++ ':' :: cs) = some (a.name.toList, cs) :=
    Text.cutFirst_append_cons (by rfl) hname
  have htext : (a.name ++ ":" ++ String.ofList cs).toList = a.name.toList ++ ':' :: cs := by
    simp [String.toList_append]
  rw [ofText?, ofChars?_eq_ok_iff, htext, hcut, Option.some.injEq, Prod.mk.injEq]

/-- The texts that are accepted under the name of such an algorithm. -/
theorem exists_ofText?_name_iff :
    (∃ d, ofText? (a.name ++ ":" ++ String.ofList cs) = .ok d) ↔
      ∃ os : Octets, os.length = a.size ∧ cs = Text.hex os := by
  rw [← defect?_name_iff]
  constructor
  · rintro ⟨d, h⟩
    obtain ⟨hname, rfl⟩ := ofText?_name_eq_ok_iff.1 h
    rw [hname]
    exact d.accepted
  · intro h
    rw [← String.toList_ofList (l := cs)] at h
    exact ⟨⟨a.name, String.ofList cs, h⟩, ofText?_text ⟨a.name, String.ofList cs, h⟩⟩

def Algorithm.digestOf (a : Algorithm) (content : Octets) : Digest where
  algorithm := a.name
  encoded := String.ofList (Text.hex (a.hash content))
  accepted := by
    rw [String.toList_ofList, defect?_name_iff]
    exact ⟨a.hash content, a.length_hash content, rfl⟩

theorem text_digestOf (a : Algorithm) (content : Octets) :
    (a.digestOf content).text = a.textOf content := rfl

/-- Accepted names have no capital letters. -/
theorem lowerAscii_algorithm (d : Digest) :
    Text.lowerAscii d.algorithm.toList = d.algorithm.toList := by
  have hlower : ∀ c ∈ d.algorithm.toList, c.toLower = c := by
    intro c hc
    rcases mem_algorithm d hc with hname | hseparator
    · have hrange : (48 ≤ c.toNat ∧ c.toNat ≤ 57) ∨ (97 ≤ c.toNat ∧ c.toNat ≤ 122) :=
        (Bool.or_eq_true_iff.1 hname).imp Char.isDigit_iff_toNat.1 Text.toNat_of_isLower
      exact Text.toLower_eq_self (by omega)
    · simp only [isComponentSeparator, Bool.or_eq_true, beq_iff_eq] at hseparator
      rcases hseparator with ((rfl | rfl) | rfl) | rfl <;> rfl
  exact (List.map_congr_left hlower).trans (List.map_id _)

/-! ### Verification -/

theorem hash?_of_name (h : d.algorithm = a.name) : d.hash? = some a.hash := by
  cases a with
  | sha256 => exact if_pos h
  | sha512 =>
    have hother : ¬d.algorithm = "sha256" := by
      rw [h]
      decide
    rw [hash?, if_neg hother]
    exact if_pos h

theorem hash?_eq_none_iff : d.hash? = none ↔ ∀ a : Algorithm, d.algorithm ≠ a.name := by
  constructor
  · intro h a hname
    rw [hash?_of_name hname] at h
    cases h
  · intro h
    exact (if_neg (h .sha256)).trans (if_neg (h .sha512))

theorem verify_of_name (h : d.algorithm = a.name) :
    d.verify content = some (decide (Text.hex (a.hash content) = d.encoded.toList)) := by
  rw [verify, hash?_of_name h, Option.map_some]

theorem verify_eq_none_iff :
    d.verify content = none ↔ ∀ a : Algorithm, d.algorithm ≠ a.name := by
  rw [verify, Option.map_eq_none_iff, hash?_eq_none_iff]

theorem verify_digestOf (a : Algorithm) (content : Octets) :
    (a.digestOf content).verify content = some true := by
  rw [verify_of_name (a := a) rfl, digestOf, String.toList_ofList, decide_eq_true rfl]

/-- Content is verified by its own digests and by no other. -/
theorem verify_eq_some_true_iff :
    d.verify content = some true ↔ ∃ a : Algorithm, d.text = a.textOf content := by
  constructor
  · intro h
    by_cases hname : ∃ a : Algorithm, d.algorithm = a.name
    · obtain ⟨a, hname⟩ := hname
      rw [verify_of_name hname, Option.some.injEq, decide_eq_true_eq] at h
      refine ⟨a, ?_⟩
      rw [text, textOf, hname, h, String.ofList_toList]
    · have hnone : d.verify content = none :=
        verify_eq_none_iff.2 fun a ha => hname ⟨a, ha⟩
      rw [hnone] at h
      cases h
  · rintro ⟨a, ha⟩
    obtain rfl : d = a.digestOf content := text_injective ha
    exact verify_digestOf a content

/-! ### Both together -/

/-- How a text and the digest that it was accepted as fit together. -/
structure Fits (s : String) (d : Digest) : Prop where
  text_eq : d.text = s
  parts : d.algorithm ++ ":" ++ d.encoded = s
  verified : ∀ content, d.verify content = some true ↔ ∃ a : Algorithm, s = a.textOf content
  unknown : ∀ content, d.verify content = none ↔ ∀ a : Algorithm, d.algorithm ≠ a.name
  /-- Whatever the case of its letters, a name that is known is spelled as hashes are. -/
  spelled : ∀ a : Algorithm, Text.lowerAscii d.algorithm.toList = a.name.toList →
    ∃ os : Octets, os.length = a.size ∧ s = a.name ++ ":" ++ String.ofList (Text.hex os)

theorem fits_of_ofText? {s : String} (h : ofText? s = .ok d) : Fits s d := by
  obtain rfl := ofText?_eq_ok_iff.1 h
  refine ⟨rfl, rfl, fun _ => verify_eq_some_true_iff, fun _ => verify_eq_none_iff, ?_⟩
  intro a hname
  rw [lowerAscii_algorithm, String.toList_inj] at hname
  have haccepted := d.accepted
  rw [hname, defect?_name_iff] at haccepted
  obtain ⟨os, hos, hencoded⟩ := haccepted
  refine ⟨os, hos, ?_⟩
  rw [text, hname, ← hencoded, String.ofList_toList]

/-- Digests and hashes fit together.  The digest of any content is accepted, keeps its text and
    verifies the content; an accepted digest verifies what its text is the digest of and nothing else;
    and behind the name of a computable algorithm stand the digits of exactly as many octets as its
    hashes have, in lower case. -/
theorem acceptance_fits_verification :
    (∀ (a : Algorithm) (content : Octets), ∃ d, ofText? (a.textOf content) = .ok d ∧
      d.text = a.textOf content ∧ d.verify content = some true) ∧
    (∀ (s : String) (d : Digest), ofText? s = .ok d → Fits s d) ∧
    ∀ (a : Algorithm) (encoded : List Char),
      (∃ d, ofText? (a.name ++ ":" ++ String.ofList encoded) = .ok d) ↔
        ∃ os : Octets, os.length = a.size ∧ encoded = Text.hex os := by
  refine ⟨?_, fun s d h => fits_of_ofText? h, fun a encoded => exists_ofText?_name_iff⟩
  intro a content
  exact ⟨a.digestOf content, ofText?_text (a.digestOf content), text_digestOf a content,
    verify_digestOf a content⟩

theorem acceptance_fits_verification_foo :
    let s := "sha256:2c26b46b68ffc68ff99b453c1d30413413422d706483bfa0f98a5e886266e7ae"
    ∃ d, ofText? s = .ok d ∧ Fits s d ∧ d.verify (Text.octets "foo") = some true ∧
      d.verify (Text.octets "bar") = some false := by
  intro s
  refine ⟨⟨"sha256", "2c26b46b68ffc68ff99b453c1d30413413422d706483bfa0f98a5e886266e7ae",
    by decide +kernel⟩, ?_, ?_, by decide +kernel, by decide +kernel⟩
  · exact ofText?_eq_ok_iff.2 rfl
  · exact acceptance_fits_verification.2.1 s _ (ofText?_eq_ok_iff.2 rfl)

end ImageLookup.Digest
