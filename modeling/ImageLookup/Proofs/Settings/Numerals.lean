import ImageLookup.Decimal.Reading
import ImageLookup.Text.Character

/-! # What numerals look like

Naturals are digits, integers are digits with a sign, and a decimal with a point has digits around it
(`isSome_natural?_iff`, `isSome_integer?_iff`, `isSome_decimal?_iff`).  A text with a character that no
numeral has is no number, which is how texts are told from numbers: by a comma or a colon, and from
integers by a point as well.
-/

namespace ImageLookup.Text

def isIntegerChar (c : Char) : Bool := isDigit c || c == '+' || c == '-'

def isDecimalChar (c : Char) : Bool := isIntegerChar c || c == '.' || c.toLower.isLower

/-- One or more digits. -/
structure IsDigits (cs : List Char) : Prop where
  ne_nil : cs ≠ []
  digits : ∀ c ∈ cs, isDigit c = true

def IsSignedDigits (cs : List Char) : Prop :=
  ∃ sign digits, cs = sign ++ digits ∧ (sign = [] ∨ sign = ['-'] ∨ sign = ['+']) ∧ IsDigits digits

/-- A letter `e` and digits, perhaps with a sign between them, or nothing at all. -/
inductive IsExponent : List Char → Prop
  | absent : IsExponent []
  | letter {e : Char} {power : List Char} (he : e = 'e' ∨ e = 'E') (hpower : IsSignedDigits power) :
    IsExponent (e :: power)

/-- Digits around a point, on one side of it at least, and an exponent. -/
inductive IsPointed : List Char → Prop
  | mk {whole fraction power : List Char} (hdigits : IsDigits (whole ++ fraction))
      (hpower : IsExponent power) : IsPointed (whole ++ '.' :: (fraction ++ power))

section Characters

variable {c : Char} {cs : List Char}

theorem isIntegerChar_of_isDigit (h : isDigit c = true) : isIntegerChar c = true := by
  simp [isIntegerChar, h]

theorem isDecimalChar_of_isIntegerChar (h : isIntegerChar c = true) : isDecimalChar c = true := by
  simp [isDecimalChar, h]

theorem isDigit_iff : isDigit c = true ↔ 48 ≤ c.toNat ∧ c.toNat ≤ 57 := by
  simp only [isDigit, Bool.and_eq_true, decide_eq_true_eq]
  rfl

/-! ### Naturals -/

theorem digitOf?_filter (c : Char) : (natural?.digitOf? c).filter (· < 10) =
    if isDigit c then some (c.toNat - 48) else none := by
  by_cases hdigit : isDigit c
  · have hrange := isDigit_iff.1 hdigit
    have hlt : c.toNat - 48 < 10 := by omega
    simp [natural?.digitOf?, hdigit, hrange, hlt]
  · -- the values of letters are ten or more
    have hrange : ¬(48 ≤ c.toNat ∧ c.toNat ≤ 57) := fun h => hdigit (isDigit_iff.2 h)
    simp only [natural?.digitOf?, hrange, if_false, hdigit, Bool.false_eq_true]
    split
    · have hge : 10 ≤ c.toNat - 87 := by omega
      simp [hge]
    · split
      · have hge : 10 ≤ c.toNat - 55 := by omega
        simp [hge]
      · rfl

theorem mapM_digitOf?_eq_some_iff {values : List Nat} :
    (cs.mapM fun c => (natural?.digitOf? c).filter (· < 10)) = some values ↔
      (∀ c ∈ cs, isDigit c = true) ∧ values = cs.map fun c => c.toNat - 48 := by
  simp only [digitOf?_filter]
  induction cs generalizing values with
  | nil => simp
  | cons c cs ih =>
    by_cases hdigit : isDigit c
    · simp only [List.mapM_cons, hdigit, if_true, Option.bind_eq_bind, Option.bind_some,
        Option.bind_eq_some_iff, Option.pure_def, Option.some.injEq, ih, List.forall_mem_cons,
        true_and, List.map_cons]
      constructor
      · rintro ⟨rest, ⟨hall, rfl⟩, rfl⟩
        exact ⟨hall, rfl⟩
      · rintro ⟨hall, rfl⟩
        exact ⟨_, ⟨hall, rfl⟩, rfl⟩
    · simp [hdigit]

/-- A natural is read from one or more digits, and from nothing else. -/
theorem natural?_eq_some_iff {n : Nat} :
    natural? 10 cs = some n ↔
      IsDigits cs ∧ naturalOf 10 (cs.map fun c => c.toNat - 48) = n := by
  cases cs with
  | nil =>
    rw [natural?]
    exact iff_of_false (by simp) fun h => h.1.ne_nil rfl
  | cons c cs =>
    rw [natural?]
    · simp only [Option.map_eq_some_iff, mapM_digitOf?_eq_some_iff]
      constructor
      · rintro ⟨values, ⟨hall, rfl⟩, hvalue⟩
        exact ⟨⟨by simp, hall⟩, hvalue⟩
      · rintro ⟨⟨-, hall⟩, hvalue⟩
        exact ⟨_, ⟨hall, rfl⟩, hvalue⟩
    · simp

theorem isSome_natural?_iff : (natural? 10 cs).isSome = true ↔ IsDigits cs := by
  rw [Option.isSome_iff_exists]
  constructor
  · rintro ⟨n, hn⟩
    exact (natural?_eq_some_iff.1 hn).1
  · intro h
    exact ⟨_, natural?_eq_some_iff.2 ⟨h, rfl⟩⟩

/-- The decimal digits of a natural are read as that natural. -/
theorem natural?_toDigits (n : Nat) : natural? 10 (Nat.toDigits 10 n) = some n := by
  refine natural?_eq_some_iff.2 ⟨⟨Nat.toDigits_ne_nil, ?_⟩, ?_⟩
  · intro c hc
    have hdigit : c.isDigit = true := Nat.isDigit_of_mem_toDigits (by decide) (by decide) hc
    exact hdigit
  · have hvalue : Nat.ofDigitChars 10 (Nat.toDigits 10 n) 0 = n :=
      Nat.ofDigitChars_toDigits (by decide) (by decide)
    rwa [naturalOf, List.foldl_map]

/-! ### Integers -/

theorem IsDigits.unsigned_eq (h : IsDigits cs) : unsigned cs = (false, cs) := by
  unfold unsigned
  split
  · exact absurd (h.digits '-' List.mem_cons_self) (by decide)
  · exact absurd (h.digits '+' List.mem_cons_self) (by decide)
  · rfl

theorem isSome_integer?_iff : (integer? 10 cs).isSome = true ↔ IsSignedDigits cs := by
  have hnatural : (integer? 10 cs).isSome = (natural? 10 (unsigned cs).2).isSome := by
    simp only [integer?, Option.isSome_map]
    cases natural? 10 (unsigned cs).2 <;> rfl
  rw [hnatural, isSome_natural?_iff]
  constructor
  · intro h
    unfold unsigned at h
    split at h
    · exact ⟨['-'], _, rfl, .inr (.inl rfl), h⟩
    · exact ⟨['+'], _, rfl, .inr (.inr rfl), h⟩
    · exact ⟨[], cs, rfl, .inl rfl, h⟩
  · rintro ⟨sign, digits, rfl, rfl | rfl | rfl, hdigits⟩
    · rwa [List.nil_append, hdigits.unsigned_eq]
    · exact hdigits
    · exact hdigits

theorem mem_unsigned (hc : c ∈ cs) : c ∈ (unsigned cs).2 ∨ c = '-' ∨ c = '+' := by
  unfold unsigned
  split
  · exact (List.mem_cons.1 hc).symm.imp_right .inl
  · exact (List.mem_cons.1 hc).symm.imp_right .inr
  · exact .inl hc

theorem isIntegerChar_of_mem_integer {i : Int} (h : integer? 10 cs = some i) (hc : c ∈ cs) :
    isIntegerChar c = true := by
  simp only [integer?, Option.map_eq_some_iff, Option.bind_eq_bind, Option.bind_eq_some_iff] at h
  obtain ⟨-, ⟨n, hn, -⟩, -⟩ := h
  have hdigits := (natural?_eq_some_iff.1 hn).1.digits
  rcases mem_unsigned hc with hc | rfl | rfl
  · exact isIntegerChar_of_isDigit (hdigits c hc)
  · rfl
  · rfl

theorem integer64?_eq_none_of_mem (hc : c ∈ cs) (h : isIntegerChar c = false) :
    integer64? 10 cs = none := by
  rw [Option.eq_none_iff_forall_ne_some]
  intro i hi
  rw [isIntegerChar_of_mem_integer (Option.filter_eq_some_iff.1 hi).1 hc] at h
  cases h

theorem lowerAscii_of_integer64 {i : Int} (h : integer64? 10 cs = some i) : lowerAscii cs = cs := by
  have hchars : ∀ c ∈ cs, c.toLower = c := by
    intro c hc
    have hinteger := isIntegerChar_of_mem_integer (Option.filter_eq_some_iff.1 h).1 hc
    simp only [isIntegerChar, Bool.or_eq_true, beq_iff_eq, isDigit_iff] at hinteger
    rcases hinteger with (hdigit | rfl) | rfl
    · exact toLower_eq_self (by omega)
    · rfl
    · rfl
  rw [lowerAscii, List.map_congr_left hchars, List.map_id']

/-- A natural below the bound is read off its digits. -/
theorem integer64?_toString {n : Nat} (h : n < signedBound) :
    integer64? 10 (toString n).toList = some (n : Int) := by
  have htext : (toString n).toList = Nat.toDigits 10 n := by simp
  have hdigits : IsDigits (Nat.toDigits 10 n) := (natural?_eq_some_iff.1 (natural?_toDigits n)).1
  have hinteger : integer? 10 (toString n).toList = some (n : Int) := by
    rw [htext, integer?, hdigits.unsigned_eq]
    simp [natural?_toDigits]
  rw [integer64?, hinteger]
  have hlow : -(signedBound : Int) ≤ n := by omega
  have hhigh : (n : Int) < signedBound := by omega
  simp [hlow, hhigh]

/-! ### Decimals -/

theorem isDecimalChar_of_mem_exponent {e : Int} (h : exponent? cs = some e) (hc : c ∈ cs) :
    isDecimalChar c = true := by
  cases cs with
  | nil => cases hc
  | cons first rest =>
    simp only [exponent?] at h
    split at h
    · rename_i hletter
      rcases List.mem_cons.1 hc with rfl | hc
      · rcases Bool.or_eq_true_iff.1 hletter with h' | h' <;> rw [beq_iff_eq] at h' <;> subst h' <;> rfl
      · exact isDecimalChar_of_isIntegerChar (isIntegerChar_of_mem_integer h hc)
    · cases h

theorem isDecimalChar_of_mem_takeWhile (hc : c ∈ cs.takeWhile isDigit) : isDecimalChar c = true :=
  isDecimalChar_of_isIntegerChar
    (isIntegerChar_of_isDigit (List.all_eq_true.1 List.all_takeWhile c hc))

theorem isDecimalChar_of_mem_unsignedDecimal {d : Nat × Int} (h : unsignedDecimal? cs = some d)
    (hc : c ∈ cs) : isDecimalChar c = true := by
  simp only [unsignedDecimal?] at h
  split at h
  · cases h
  · simp only [Option.bind_eq_bind, Option.bind_eq_some_iff] at h
    obtain ⟨exponent, hexponent, -⟩ := h
    rw [← @List.takeWhile_append_dropWhile _ isDigit cs, List.mem_append] at hc
    rcases hc with hwhole | hrest
    · exact isDecimalChar_of_mem_takeWhile hwhole
    split at hexponent
    · rename_i more hpoint
      rw [hpoint] at hrest
      rcases List.mem_cons.1 hrest with rfl | hmore
      · rfl
      rw [← @List.takeWhile_append_dropWhile _ isDigit more, List.mem_append] at hmore
      rcases hmore with hfraction | hmore
      · exact isDecimalChar_of_mem_takeWhile hfraction
      · exact isDecimalChar_of_mem_exponent hexponent hmore
    · exact isDecimalChar_of_mem_exponent hexponent hrest

theorem isDecimalChar_of_mem_word {word : String} (hword : word.toList.all Char.isLower = true)
    (h : String.ofList (lowerAscii cs) = word) (hc : c ∈ cs) : isDecimalChar c = true := by
  have hmem : c.toLower ∈ word.toList := by
    rw [← h, String.toList_ofList]
    exact List.mem_map_of_mem hc
  simp [isDecimalChar, List.all_eq_true.1 hword _ hmem]

theorem isDecimalChar_of_mem_decimal {x : Double} (h : decimal? cs = some x) (hc : c ∈ cs) :
    isDecimalChar c = true := by
  rcases mem_unsigned hc with hc | rfl | rfl
  · simp only [decimal?] at h
    split at h
    · rename_i hword
      rcases Bool.or_eq_true_iff.1 hword with hword | hword
      · exact isDecimalChar_of_mem_word (by decide) (eq_of_beq hword) hc
      · exact isDecimalChar_of_mem_word (by decide) (eq_of_beq hword) hc
    · split at h
      · rename_i hword
        exact isDecimalChar_of_mem_word (by decide) (eq_of_beq hword) hc
      · obtain ⟨d, hd, -⟩ := Option.map_eq_some_iff.1 h
        exact isDecimalChar_of_mem_unsignedDecimal hd hc
  · rfl
  · rfl

theorem decimal?_eq_none_of_mem (hc : c ∈ cs) (h : isDecimalChar c = false) :
    decimal? cs = none := by
  rw [Option.eq_none_iff_forall_ne_some]
  intro x hx
  rw [isDecimalChar_of_mem_decimal hx hc] at h
  cases h

/-! ### Decimals with a point -/

theorem isSome_exponent?_iff : (exponent? cs).isSome = true ↔ IsExponent cs := by
  constructor
  · intro h
    cases cs with
    | nil => exact .absent
    | cons e power =>
      simp only [exponent?] at h
      split at h
      · rename_i he
        refine .letter ?_ (isSome_integer?_iff.1 h)
        simpa using he
      · cases h
  · rintro (_ | ⟨he, hpower⟩)
    · rfl
    · rw [exponent?, if_pos (by simpa using he)]
      exact isSome_integer?_iff.2 hpower

theorem IsExponent.takeWhile_eq_nil (h : IsExponent cs) : cs.takeWhile isDigit = [] := by
  cases h with
  | absent => rfl
  | letter he hpower => rcases he with rfl | rfl <;> rfl

theorem IsExponent.dropWhile_eq_self (h : IsExponent cs) : cs.dropWhile isDigit = cs := by
  have hcs : cs.takeWhile isDigit ++ cs.dropWhile isDigit = cs := List.takeWhile_append_dropWhile
  rwa [h.takeWhile_eq_nil, List.nil_append] at hcs

theorem IsExponent.point_not_mem (h : IsExponent cs) : '.' ∉ cs := by
  intro hpoint
  cases h with
  | absent => cases hpoint
  | letter he hpower =>
    rcases List.mem_cons.1 hpoint with rfl | hpoint
    · simp at he
    · obtain ⟨i, hi⟩ := Option.isSome_iff_exists.1 (isSome_integer?_iff.2 hpower)
      exact absurd (isIntegerChar_of_mem_integer hi hpoint) (by decide)

theorem isSome_unsignedDecimal?_iff (hpoint : '.' ∈ cs) :
    (unsignedDecimal? cs).isSome = true ↔ IsPointed cs := by
  constructor
  · intro h
    obtain ⟨d, hd⟩ := Option.isSome_iff_exists.1 h
    simp only [unsignedDecimal?] at hd
    split at hd
    · cases hd
    · simp only [Option.bind_eq_bind, Option.bind_eq_some_iff] at hd
      obtain ⟨e, he, n, hn, -⟩ := hd
      have hdigits := isSome_natural?_iff.1 (Option.isSome_of_eq_some hn)
      have hpower := isSome_exponent?_iff.1 (Option.isSome_of_eq_some he)
      rw [← @List.takeWhile_append_dropWhile _ isDigit cs] at hpoint ⊢
      split at hpower
      · rename_i more hmore
        rw [hmore] at hdigits ⊢
        rw [← @List.takeWhile_append_dropWhile _ isDigit more]
        exact .mk hdigits hpower
      · -- the point would be a digit, or in the exponent
        rcases List.mem_append.1 hpoint with hwhole | hrest
        · exact absurd (List.all_eq_true.1 List.all_takeWhile '.' hwhole) (by decide)
        · exact absurd hrest hpower.point_not_mem
  · rintro ⟨hdigits, hpower⟩
    rename_i whole fraction power
    have hwhole : ∀ c ∈ whole, isDigit c = true := fun c hc =>
      hdigits.digits c (List.mem_append_left _ hc)
    have hfraction : ∀ c ∈ fraction, isDigit c = true := fun c hc =>
      hdigits.digits c (List.mem_append_right _ hc)
    have htake : (whole ++ '.' :: (fraction ++ power)).takeWhile isDigit = whole := by
      rw [List.takeWhile_append_of_pos hwhole, List.takeWhile_cons_of_neg (by decide), List.append_nil]
    have hdrop : (whole ++ '.' :: (fraction ++ power)).dropWhile isDigit =
        '.' :: (fraction ++ power) := by
      rw [List.dropWhile_append_of_pos hwhole, List.dropWhile_cons_of_neg (by decide)]
    have htake' : (fraction ++ power).takeWhile isDigit = fraction := by
      rw [List.takeWhile_append_of_pos hfraction, hpower.takeWhile_eq_nil, List.append_nil]
    have hdrop' : (fraction ++ power).dropWhile isDigit = power := by
      rw [List.dropWhile_append_of_pos hfraction, hpower.dropWhile_eq_self]
    obtain ⟨e, he⟩ := Option.isSome_iff_exists.1 (isSome_exponent?_iff.2 hpower)
    obtain ⟨n, hn⟩ := Option.isSome_iff_exists.1 (isSome_natural?_iff.2 hdigits)
    simp only [unsignedDecimal?, htake, hdrop, htake', hdrop']
    split
    · rename_i hnil
      exact absurd hnil hdigits.ne_nil
    · simp [he, hn]

theorem IsPointed.point_mem (h : IsPointed cs) : '.' ∈ cs := by
  cases h
  simp

/-- With a point in it, a text without sign is a decimal if it is digits around that point. -/
theorem isSome_decimal?_iff (hsign : unsigned cs = (false, cs)) (hpoint : '.' ∈ cs) :
    (decimal? cs).isSome = true ↔ IsPointed cs := by
  have hword : ∀ word : String, word.toList.contains '.' = false →
      (String.ofList (lowerAscii cs) == word) = false := by
    intro word hcontains
    rw [beq_eq_false_iff_ne]
    rintro rfl
    have hmem : '.' ∈ lowerAscii cs := List.mem_map.2 ⟨'.', hpoint, rfl⟩
    simp [hmem] at hcontains
  have hdecimal : (decimal? cs).isSome = (unsignedDecimal? cs).isSome := by
    simp [decimal?, hsign, hword "inf" rfl, hword "infinity" rfl, hword "nan" rfl]
  rw [hdecimal, isSome_unsignedDecimal?_iff hpoint]

end Characters

end ImageLookup.Text
