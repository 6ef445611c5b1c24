import ImageLookup.Text.Base64

/-! # What base64 says

A text in base64 is a row of digits from an alphabet of sixty-four characters, filled up with `=` to
groups of four.  The bits of its digits, six each, are the bits of the octets, eight each, and behind
them zeros up to the end of the last digit.  `Spells` says this without groups of octets, so it is
a second account of what is written, and `spells_encode` compares the writer with it.  The reader takes
back what was written (`decode?_encode`).
-/

namespace ImageLookup.Text.Base64

/-- The characters that stand for the numbers below sixty-four, in order. -/
def alphabet : List Char :=
  "ABCDEFGHIJKLMNOPQRSTUVWXYZabcdefghijklmnopqrstuvwxyz0123456789+/".toList

/-- The last `n` bits of a number, the most significant one first. -/
def bits : Nat → Nat → List Bool
  | 0, _ => []
  | n + 1, x => bits n (x / 2) ++ [x % 2 == 1]

/-- Numbers of six bits that hold the bits of octets, and two zeros for every `=` behind them. -/
structure Sextets (os : Octets) (numbers : List Nat) (padding : Nat) : Prop where
  small : ∀ n ∈ numbers, n < 64
  whole : (numbers.length + padding) % 4 = 0
  short : padding ≤ 2
  bits_eq : numbers.flatMap (bits 6) =
    os.flatMap (fun o => bits 8 o.toNat) ++ List.replicate (2 * padding) false

/-- A text that is the standard form of octets. -/
def Spells (code : List Char) (os : Octets) : Prop :=
  ∃ numbers padding, Sextets os numbers padding ∧
    code.map some = numbers.map (fun n => alphabet[n]?) ++ List.replicate padding (some '=')

/-! ### Digits -/

theorem alphabet_digit {n : Nat} (h : n < 64) : alphabet[n]? = some (digit n) := by
  have hall : ∀ m : Fin 64, alphabet[m.val]? = some (digit m) := by decide +kernel
  exact hall ⟨n, h⟩

theorem digit_ne_padding {n : Nat} (h : n < 64) : digit n ≠ '=' := by
  have hall : ∀ m : Fin 64, digit m ≠ '=' := by decide
  exact hall ⟨n, h⟩

/-! ### Bits -/

/-- The bits of a number are those of its upper part and those of its lower part. -/
theorem bits_add (m n x : Nat) {p : Nat} (hp : Nat.pow 2 n = p) :
    bits (m + n) x = bits m (x / p) ++ bits n (x % p) := by
  induction n generalizing x p with
  | zero =>
    obtain rfl : 1 = p := hp
    simp [bits]
  | succ n ih =>
    obtain rfl : Nat.pow 2 n * 2 = p := hp
    have hupper : x / 2 / Nat.pow 2 n = x / (Nat.pow 2 n * 2) := by
      rw [Nat.div_div_eq_div_mul, Nat.mul_comm]
    have hlower : x / 2 % Nat.pow 2 n = x % (Nat.pow 2 n * 2) / 2 := by
      rw [Nat.mul_comm, Nat.mod_mul_right_div_self]
    have hlast : x % 2 = x % (Nat.pow 2 n * 2) % 2 := by
      rw [Nat.mul_comm, Nat.mod_mul_right_mod]
    rw [← Nat.add_assoc, bits, ih (x / 2) rfl, hupper, hlower, hlast, List.append_assoc]
    rfl

/-- A number put together from two parts has the bits of both. -/
theorem bits_join (m n x : Nat) {y p : Nat} (hp : Nat.pow 2 n = p) (hy : y < p) :
    bits (m + n) (x * p + y) = bits m x ++ bits n y := by
  have hpos : 0 < p := Nat.zero_lt_of_lt hy
  have hupper : (x * p + y) / p = x := by
    rw [Nat.add_comm, Nat.add_mul_div_right _ _ hpos, Nat.div_eq_of_lt hy, Nat.zero_add]
  have hlower : (x * p + y) % p = y := by
    rw [Nat.mul_add_mod_self_right, Nat.mod_eq_of_lt hy]
  rw [bits_add m n _ hp, hupper, hlower]

/-- An octet is cut behind its second, fourth or sixth bit; the digits hold the parts. -/
theorem bits_digits {a b c : Nat} (hb : b < 256) (hc : c < 256) :
    bits 8 a = bits 6 (a / 4) ++ bits 2 (a % 4) ∧
      bits 6 (a % 4 * 16 + b / 16) = bits 2 (a % 4) ++ bits 4 (b / 16) ∧
      bits 8 b = bits 4 (b / 16) ++ bits 4 (b % 16) ∧
      bits 6 (b % 16 * 4 + c / 64) = bits 4 (b % 16) ++ bits 2 (c / 64) ∧
      bits 8 c = bits 2 (c / 64) ++ bits 6 (c % 64) :=
  ⟨bits_add 6 2 a rfl, bits_join 2 4 _ rfl (by omega), bits_add 4 4 b rfl,
    bits_join 4 2 _ rfl (by omega), bits_add 2 6 c rfl⟩

/-! ### Writing -/

/-- Digits with numbers of six bits spell the octets that hold the same bits. -/
theorem spells_of_sextets {os : Octets} {numbers : List Nat} {padding : Nat}
    (h : Sextets os numbers padding) :
    Spells (numbers.map digit ++ List.replicate padding '=') os := by
  refine ⟨numbers, padding, h, ?_⟩
  have hdigits : numbers.map (fun n => alphabet[n]?) = numbers.map fun n => some (digit n) :=
    List.map_congr_left fun n hn => alphabet_digit (h.small n hn)
  rw [hdigits, List.map_append, List.map_map, List.map_replicate]
  rfl

/-- Three octets are four digits in front of those of the rest. -/
theorem Sextets.group {os : Octets} {numbers : List Nat} {padding : Nat}
    (h : Sextets os numbers padding) (a b c : UInt8) :
    Sextets (a :: b :: c :: os) (a.toNat / 4 :: (a.toNat % 4 * 16 + b.toNat / 16) ::
      (b.toNat % 16 * 4 + c.toNat / 64) :: c.toNat % 64 :: numbers) padding := by
  have ha := a.toNat_lt
  have hb := b.toNat_lt
  have hc := c.toNat_lt
  obtain ⟨hfirst, hsecond, hmiddle, hthird, hlast⟩ := bits_digits (a := a.toNat) hb hc
  refine ⟨?_, ?_, h.short, ?_⟩
  · intro n hn
    simp only [List.mem_cons] at hn
    rcases hn with rfl | rfl | rfl | rfl | hn
    · omega
    · omega
    · omega
    · omega
    · exact h.small n hn
  · have hwhole := h.whole
    simp only [List.length_cons]
    omega
  · simp only [List.flatMap_cons, List.append_assoc, h.bits_eq, hfirst, hsecond, hmiddle, hthird,
      hlast]

/-- Behind two octets the missing third one counts as zero. -/
theorem sextets_pair (a b : UInt8) :
    Sextets [a, b] [a.toNat / 4, a.toNat % 4 * 16 + b.toNat / 16, b.toNat % 16 * 4] 1 := by
  have ha := a.toNat_lt
  have hb := b.toNat_lt
  obtain ⟨hfirst, hsecond, hmiddle, hthird, -⟩ :=
    bits_digits (a := a.toNat) hb (Nat.zero_lt_succ 255)
  refine ⟨?_, by simp, Nat.le_succ 1, ?_⟩
  · intro n hn
    simp only [List.mem_cons, List.not_mem_nil, or_false] at hn
    omega
  · rw [Nat.zero_div, Nat.add_zero] at hthird
    simp only [List.flatMap_cons, List.flatMap_nil, List.append_assoc, hfirst, hsecond, hmiddle,
      hthird]
    rfl

/-- And so does a missing second one. -/
theorem sextets_single (a : UInt8) : Sextets [a] [a.toNat / 4, a.toNat % 4 * 16] 2 := by
  have ha := a.toNat_lt
  obtain ⟨hfirst, hsecond, -⟩ :=
    bits_digits (a := a.toNat) (Nat.zero_lt_succ 255) (Nat.zero_lt_succ 255)
  refine ⟨?_, by simp, Nat.le_refl 2, ?_⟩
  · intro n hn
    simp only [List.mem_cons, List.not_mem_nil, or_false] at hn
    omega
  · rw [Nat.zero_div, Nat.add_zero] at hsecond
    simp only [List.flatMap_cons, List.flatMap_nil, List.append_assoc, hfirst, hsecond]
    rfl

/-- One case for each length of the last group, as the writer has them. -/
theorem exists_sextets (os : Octets) : ∃ numbers padding,
    Sextets os numbers padding ∧ encode os = numbers.map digit ++ List.replicate padding '=' := by
  fun_induction encode os with
  | case1 a b c rest ih =>
    obtain ⟨numbers, padding, h, hcode⟩ := ih
    refine ⟨_, padding, h.group a b c, ?_⟩
    rw [hcode]
    rfl
  | case2 a b => exact ⟨_, 1, sextets_pair a b, rfl⟩
  | case3 a => exact ⟨_, 2, sextets_single a, rfl⟩
  | case4 => exact ⟨[], 0, ⟨List.forall_mem_nil _, rfl, Nat.zero_le 2, rfl⟩, rfl⟩

theorem spells_encode (os : Octets) : Spells (encode os) os := by
  obtain ⟨numbers, padding, h, hcode⟩ := exists_sextets os
  rw [hcode]
  exact spells_of_sextets h

/-- What holds of the digits and of `=` holds of all characters of a code. -/
theorem forall_mem_encode {P : Char → Prop} (hdigit : ∀ n : Fin 64, P (digit n))
    (hpadding : P '=') (os : Octets) : ∀ c ∈ encode os, P c := by
  obtain ⟨numbers, padding, h, hcode⟩ := exists_sextets os
  intro c hc
  rw [hcode, List.mem_append, List.mem_map] at hc
  rcases hc with ⟨n, hn, rfl⟩ | hc
  · exact hdigit ⟨n, h.small n hn⟩
  · rw [List.eq_of_mem_replicate hc]
    exact hpadding

/-! ### Reading -/

theorem ofNat_eq {a : UInt8} {n : Nat} (h : n = a.toNat) : UInt8.ofNat n = a := by
  rw [h, UInt8.ofNat_toNat]

/-- Octets are found again where the writer put their bits. -/
theorem decode?_encode (os : Octets) : decode? (encode os) = some os := by
  fun_induction encode os with
  | case1 a b c rest ih =>
    have ha := a.toNat_lt
    have hb := b.toNat_lt
    have hc := c.toNat_lt
    have hlast : digit (c.toNat % 64) ≠ '=' := digit_ne_padding (by omega)
    have hgroup := decode?.eq_4 (digit (a.toNat / 4)) (digit (a.toNat % 4 * 16 + b.toNat / 16))
      (digit (b.toNat % 16 * 4 + c.toNat / 64)) (digit (c.toNat % 64)) (encode rest)
      (fun _ h _ => hlast h) (fun h _ => hlast h)
    rw [hgroup, value?_digit (by omega), value?_digit (by omega), value?_digit (by omega),
      value?_digit (by omega), ih]
    have hfirst : UInt8.ofNat (a.toNat / 4 * 4 + (a.toNat % 4 * 16 + b.toNat / 16) / 16) = a :=
      ofNat_eq (by omega)
    have hsecond : UInt8.ofNat ((a.toNat % 4 * 16 + b.toNat / 16) % 16 * 16 +
        (b.toNat % 16 * 4 + c.toNat / 64) / 4) = b := ofNat_eq (by omega)
    have hthird : UInt8.ofNat ((b.toNat % 16 * 4 + c.toNat / 64) % 4 * 64 + c.toNat % 64) = c :=
      ofNat_eq (by omega)
    simp only [Option.bind_eq_bind, Option.bind_some, Option.pure_def, hfirst, hsecond, hthird]
  | case2 a b =>
    have ha := a.toNat_lt
    have hb := b.toNat_lt
    have hlast : digit (b.toNat % 16 * 4) ≠ '=' := digit_ne_padding (by omega)
    rw [decode?.eq_3 _ _ _ hlast, value?_digit (by omega), value?_digit (by omega),
      value?_digit (by omega)]
    have hfirst : UInt8.ofNat (a.toNat / 4 * 4 + (a.toNat % 4 * 16 + b.toNat / 16) / 16) = a :=
      ofNat_eq (by omega)
    have hsecond : UInt8.ofNat ((a.toNat % 4 * 16 + b.toNat / 16) % 16 * 16 +
        b.toNat % 16 * 4 / 4) = b := ofNat_eq (by omega)
    have hspare : b.toNat % 16 * 4 % 4 = 0 := Nat.mul_mod_left _ _
    simp only [Option.bind_eq_bind, Option.bind_some, hspare, if_true, hfirst, hsecond]
  | case3 a =>
    have ha := a.toNat_lt
    rw [decode?, value?_digit (by omega), value?_digit (by omega)]
    have hfirst : UInt8.ofNat (a.toNat / 4 * 4 + a.toNat % 4 * 16 / 16) = a := ofNat_eq (by omega)
    have hspare : a.toNat % 4 * 16 % 16 = 0 := Nat.mul_mod_left _ _
    simp only [Option.bind_eq_bind, Option.bind_some, hspare, if_true, hfirst]
  | case4 => rfl

end ImageLookup.Text.Base64
