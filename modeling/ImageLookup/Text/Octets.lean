/-! # Octets of text

Bodies, header values and the input of hash functions are sequences of octets.  Text
becomes octets in UTF-8 (`octets`), and octets become text only where they are
well-formed UTF-8 (`text?`).
-/

namespace ImageLookup

abbrev Octets := List UInt8

namespace Text

def octets (s : String) : Octets := s.toUTF8.data.toList

/-- The text of which these octets are the UTF-8 form, if there is one. -/
def text? (os : Octets) : Option String := String.fromUTF8? ⟨os.toArray⟩

theorem octets_append (s t : String) : octets (s ++ t) = octets s ++ octets t := by
  simp [octets, String.toUTF8]

theorem octets_ofList (cs : List Char) :
    octets (String.ofList cs) = cs.flatMap String.utf8EncodeChar := by
  simp [octets, String.toUTF8, List.utf8Encode]

/-- Every text can be read off its octets. -/
theorem text?_octets (s : String) : text? (octets s) = some s := by
  have valid : (⟨(octets s).toArray⟩ : ByteArray).IsValidUTF8 := s.isValidUTF8
  unfold text? String.fromUTF8?
  rw [dif_pos valid]
  rfl

/-! ### Hexadecimal digits -/

def hexDigit (n : Nat) : Char :=
  if n < 10 then Char.ofNat (n + 48) else Char.ofNat (n + 87)

def hexDigitUpper (n : Nat) : Char :=
  if n < 10 then Char.ofNat (n + 48) else Char.ofNat (n + 55)

def hexValue? (c : Char) : Option Nat :=
  let n := c.toNat
  if 48 ≤ n ∧ n ≤ 57 then some (n - 48)
  else if 97 ≤ n ∧ n ≤ 102 then some (n - 87)
  else if 65 ≤ n ∧ n ≤ 70 then some (n - 55)
  else none

def hex (os : Octets) : List Char :=
  os.flatMap fun o => [hexDigit (o.toNat / 16), hexDigit (o.toNat % 16)]

def ofHex? : List Char → Option Octets
  | [] => some []
  | a :: b :: rest => do
    let high ← hexValue? a
    let low ← hexValue? b
    return UInt8.ofNat (16 * high + low) :: (← ofHex? rest)
  | [_] => none

theorem length_hex (os : Octets) : (hex os).length = 2 * os.length := by
  induction os with
  | nil => rfl
  | cons o os ih =>
    have ih' : (List.flatMap
        (fun o => [hexDigit (o.toNat / 16), hexDigit (o.toNat % 16)]) os).length = 2 * os.length :=
      ih
    simp only [hex, List.flatMap_cons, List.length_append, List.length_cons, List.length_nil, ih']
    omega

theorem hexValue?_hexDigit {n : Nat} (h : n < 16) : hexValue? (hexDigit n) = some n := by
  have : ∀ m : Fin 16, hexValue? (hexDigit m) = some m.val := by decide
  exact this ⟨n, h⟩

/-- Reading the digits gives the octets back. -/
theorem ofHex?_hex (os : Octets) : ofHex? (hex os) = some os := by
  induction os with
  | nil => rfl
  | cons o os ih =>
    have hi : o.toNat / 16 < 16 := by have := o.toNat_lt; omega
    have lo : o.toNat % 16 < 16 := Nat.mod_lt _ (by decide)
    have value : 16 * (o.toNat / 16) + o.toNat % 16 = o.toNat := Nat.div_add_mod _ _
    have step : hex (o :: os) =
        hexDigit (o.toNat / 16) :: hexDigit (o.toNat % 16) :: hex os := rfl
    rw [step, ofHex?, hexValue?_hexDigit hi, hexValue?_hexDigit lo, ih]
    simp only [Option.pure_def, Option.bind_eq_bind, Option.bind_some, value, UInt8.ofNat_toNat]

end Text

end ImageLookup
