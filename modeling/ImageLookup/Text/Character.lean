/-! # Characters

The classes of ASCII letters and digits are ranges of numbers, which is how their characters are
compared with others.

Text that people and servers write is trimmed of *blanks* before it is read: the
characters with the Unicode property `White_Space`.  Besides the ASCII blanks these
are NEL, the no-break space, the Ogham space, the typographic spaces U+2000 to
U+200A, the two separators U+2028 and U+2029, and three wide or narrow spaces.
-/

namespace ImageLookup.Text

/-! ### Letters and digits -/

section

variable {c : Char}

theorem toNat_of_isLower (h : c.isLower = true) : 97 ≤ c.toNat ∧ c.toNat ≤ 122 := by
  delta Char.isLower at h
  simp only [Bool.and_eq_true, decide_eq_true_eq, ge_iff_le, UInt32.le_iff_toNat_le] at h
  exact h

theorem toNat_of_isUpper (h : c.isUpper = true) : 65 ≤ c.toNat ∧ c.toNat ≤ 90 := by
  delta Char.isUpper at h
  simp only [decide_eq_true_eq, ge_iff_le, UInt32.le_iff_toNat_le] at h
  exact h

theorem toNat_of_isAlphanum (h : c.isAlphanum = true) :
    ((65 ≤ c.toNat ∧ c.toNat ≤ 90) ∨ (97 ≤ c.toNat ∧ c.toNat ≤ 122)) ∨
      (48 ≤ c.toNat ∧ c.toNat ≤ 57) := by
  rcases Bool.or_eq_true_iff.1 h with halpha | hdigit
  · exact .inl ((Bool.or_eq_true_iff.1 halpha).imp toNat_of_isUpper toNat_of_isLower)
  · exact .inr (Char.isDigit_iff_toNat.1 hdigit)

theorem isAlphanum_of_isDigit (h : c.isDigit = true) : c.isAlphanum = true :=
  Bool.or_eq_true_iff.2 (.inr h)

theorem isAlphanum_of_isLower (h : c.isLower = true) : c.isAlphanum = true :=
  Bool.or_eq_true_iff.2 (.inl (Bool.or_eq_true_iff.2 (.inr h)))

theorem toLower_eq_self (h : ¬(65 ≤ c.toNat ∧ c.toNat ≤ 90)) : c.toLower = c := by
  refine dif_neg ?_
  simp only [ge_iff_le, UInt32.le_iff_toNat_le]
  exact h

end

/-! ### Blanks -/

def isBlank (c : Char) : Bool :=
  let n := c.toNat
  (9 ≤ n && n ≤ 13) || n == 0x20 || n == 0x85 || n == 0xA0 || n == 0x1680
    || (0x2000 ≤ n && n ≤ 0x200A) || n == 0x2028 || n == 0x2029 || n == 0x202F
    || n == 0x205F || n == 0x3000

/-! ### Trimming -/

def trimStart (cs : List Char) : List Char := cs.dropWhile isBlank

def trimEnd (cs : List Char) : List Char := (cs.reverse.dropWhile isBlank).reverse

def trim (cs : List Char) : List Char := trimEnd (trimStart cs)

@[simp] theorem trimEnd_nil : trimEnd [] = [] := rfl

/-- Nothing is lost at the front but blanks. -/
theorem takeWhile_append_trimStart (cs : List Char) :
    cs.takeWhile isBlank ++ trimStart cs = cs :=
  List.takeWhile_append_dropWhile

@[simp] theorem trimStart_nil : trimStart [] = [] := rfl

theorem trimStart_append_of_blank {blanks cs : List Char}
    (h : ∀ c ∈ blanks, isBlank c = true) : trimStart (blanks ++ cs) = trimStart cs :=
  List.dropWhile_append_of_pos h

theorem trimEnd_append_of_blank {blanks cs : List Char}
    (h : ∀ c ∈ blanks, isBlank c = true) : trimEnd (cs ++ blanks) = trimEnd cs := by
  rw [trimEnd, trimEnd, List.reverse_append,
    List.dropWhile_append_of_pos fun c hc => h c (List.mem_reverse.1 hc)]

theorem trimStart_eq_self {cs : List Char}
    (hfirst : ∀ c, cs.head? = some c → isBlank c = false) : trimStart cs = cs := by
  cases cs with
  | nil => rfl
  | cons c cs => simp [trimStart, hfirst c rfl]

theorem trimEnd_eq_self {cs : List Char}
    (hlast : ∀ c, cs.getLast? = some c → isBlank c = false) : trimEnd cs = cs := by
  have hreverse : trimStart cs.reverse = cs.reverse :=
    trimStart_eq_self fun c hc => hlast c (by rwa [List.head?_reverse] at hc)
  rw [trimEnd, ← trimStart, hreverse, List.reverse_reverse]

/-- Text with no blank at its ends is not trimmed. -/
theorem trim_eq_self {cs : List Char} (hfirst : ∀ c, cs.head? = some c → isBlank c = false)
    (hlast : ∀ c, cs.getLast? = some c → isBlank c = false) : trim cs = cs := by
  rw [trim, trimStart_eq_self hfirst, trimEnd_eq_self hlast]

/-! ### What trimming leaves -/

/-- A text that stands between blanks and has none at its own ends. -/
structure IsTrimOf (t cs : List Char) : Prop where
  around : ∃ before after, cs = before ++ t ++ after ∧
    (∀ c ∈ before, isBlank c = true) ∧ ∀ c ∈ after, isBlank c = true
  first : ∀ c, t.head? = some c → isBlank c = false
  last : ∀ c, t.getLast? = some c → isBlank c = false

theorem isBlank_head_trimStart (cs : List Char) {c : Char}
    (h : (trimStart cs).head? = some c) : isBlank c = false := by
  have hfirst := List.head?_dropWhile_not isBlank cs
  rw [← trimStart, h] at hfirst
  exact hfirst

theorem isTrimOf_trim (cs : List Char) : IsTrimOf (trim cs) cs := by
  have hafter : trim cs ++ ((trimStart cs).reverse.takeWhile isBlank).reverse = trimStart cs := by
    rw [trim, trimEnd, ← List.reverse_append, List.takeWhile_append_dropWhile, List.reverse_reverse]
  refine ⟨⟨cs.takeWhile isBlank, ((trimStart cs).reverse.takeWhile isBlank).reverse, ?_, ?_, ?_⟩,
    ?_, ?_⟩
  · rw [List.append_assoc, hafter, takeWhile_append_trimStart]
  · intro c hc
    exact List.all_eq_true.1 List.all_takeWhile c hc
  · intro c hc
    exact List.all_eq_true.1 List.all_takeWhile c (List.mem_reverse.1 hc)
  · intro c hc
    apply isBlank_head_trimStart cs
    rw [← hafter, List.head?_append, hc, Option.some_or]
  · intro c hc
    apply isBlank_head_trimStart (trimStart cs).reverse
    rwa [trim, trimEnd, List.getLast?_reverse] at hc

theorem IsTrimOf.eq_trim {t cs : List Char} (h : IsTrimOf t cs) : t = trim cs := by
  obtain ⟨before, after, rfl, hbefore, hafter⟩ := h.around
  rw [trim, List.append_assoc, trimStart_append_of_blank hbefore]
  cases t with
  | nil =>
    have hblank : trimStart after = [] := by
      have hall : trimStart (after ++ []) = trimStart [] := trimStart_append_of_blank hafter
      rwa [List.append_nil] at hall
    rw [List.nil_append, hblank, trimEnd_nil]
  | cons c t =>
    have hstart : trimStart (c :: t ++ after) = c :: t ++ after := trimStart_eq_self h.first
    rw [hstart, trimEnd_append_of_blank hafter, trimEnd_eq_self h.last]

end ImageLookup.Text
