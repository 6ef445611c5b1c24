import ImageLookup.Challenge

/-! # How challenges are written

A header is written from a list of offers.  The writer is free in many ways: blanks around every
comma, at least one blank behind a scheme, and quotes around every value, which are needed only
where a value holds a comma or a quote or has a blank at one of its ends.  So writing is a
relation between offers and texts, and reading is compared with all of it.

The facts at the end say how a written text begins and ends.  They are all that the readers need
to know in order to find the places where one piece of a header stops.
-/

namespace ImageLookup.Challenge

/-- A scheme or a key: no blank, comma, equals sign or quote. -/
structure IsWord (cs : List Char) : Prop where
  ne_nil : cs ≠ []
  plain : ∀ c ∈ cs, Text.isBlank c = false ∧ c ≠ ',' ∧ c ≠ '=' ∧ c ≠ '"'

instance (cs : List Char) : Decidable (IsWord cs) :=
  decidable_of_iff
    (cs ≠ [] ∧ cs.all fun c => !Text.isBlank c && c != ',' && c != '=' && c != '"')
    ⟨fun h => ⟨h.1, by simpa [and_assoc] using h.2⟩,
      fun h => ⟨h.ne_nil, by simpa [and_assoc] using h.plain⟩⟩

structure Parameter where
  key : List Char
  value : List Char
  isWord_key : IsWord key

/-- A challenge as a server means it. -/
structure Offer where
  scheme : List Char
  parameters : List Parameter
  isWord_scheme : IsWord scheme

/-! ### Values -/

def escape (c : Char) : List Char := if c = '"' ∨ c = '\\' then ['\\', c] else [c]

def quote (value : List Char) : List Char := '"' :: (value.flatMap escape ++ ['"'])

def IsBlanks (cs : List Char) : Prop := ∀ c ∈ cs, Text.isBlank c = true

/-- Values that need no quotes. -/
structure IsBare (value : List Char) : Prop where
  plain : ∀ c ∈ value, c ≠ ',' ∧ c ≠ '"'
  head : ∀ c, value.head? = some c → Text.isBlank c = false
  last : ∀ c, value.getLast? = some c → Text.isBlank c = false

inductive WritesValue : List Char → List Char → Prop where
  | quoted (value : List Char) : WritesValue value (quote value)
  | bare {value : List Char} (h : IsBare value) : WritesValue value value

/-! ### Lists -/

/-- Items written one after the other, with a comma and any blanks between two of them.  The
    texts of the items are kept beside the whole. -/
inductive Joined {α : Type} (writes : α → List Char → Prop) :
    List α → List (List Char) → List Char → Prop where
  | single {item : α} {text : List Char} (h : writes item text) : Joined writes [item] [text] text
  | cons {item : α} {items : List α} {text before after whole : List Char}
      {texts : List (List Char)} (h : writes item text) (hbefore : IsBlanks before)
      (hafter : IsBlanks after) (hrest : Joined writes items texts whole) :
      Joined writes (item :: items) (text :: texts) (text ++ (before ++ ',' :: (after ++ whole)))

/-- A key, an equals sign and a value. -/
def WritesParameter (p : Parameter) (text : List Char) : Prop :=
  ∃ value, WritesValue p.value value ∧ text = p.key ++ '=' :: value

/-- A scheme alone, or a scheme, blanks and parameters. -/
inductive WritesOffer : Offer → List Char → Prop where
  | bare {o : Offer} (hnone : o.parameters = []) : WritesOffer o o.scheme
  | withParameters {o : Offer} {blank : Char} {blanks body : List Char}
      {texts : List (List Char)} (hblank : Text.isBlank blank = true) (hblanks : IsBlanks blanks)
      (hbody : Joined WritesParameter o.parameters texts body) :
      WritesOffer o (o.scheme ++ blank :: (blanks ++ body))

/-- A header that offers several challenges. -/
abbrev WritesHeader : List Offer → List (List Char) → List Char → Prop := Joined WritesOffer

/-! ### How written text begins and ends -/

theorem IsWord.exists_cons {cs : List Char} (h : IsWord cs) :
    ∃ c rest, cs = c :: rest ∧ Text.isBlank c = false ∧ c ≠ ',' ∧ c ≠ '=' ∧ c ≠ '"' := by
  obtain ⟨c, rest, rfl⟩ := List.exists_cons_of_ne_nil h.ne_nil
  exact ⟨c, rest, rfl, h.plain c (by simp)⟩

theorem IsWord.isBlank_getLast {cs : List Char} (h : IsWord cs) :
    ∀ c, cs.getLast? = some c → Text.isBlank c = false :=
  fun c hc => (h.plain c (List.mem_of_getLast? hc)).1

/-- Parameters begin with a key. -/
theorem Joined.exists_key {ps : List Parameter} {texts : List (List Char)} {body : List Char}
    (h : Joined WritesParameter ps texts body) :
    ∃ key rest, IsWord key ∧ body = key ++ '=' :: rest := by
  cases h with
  | single h =>
    obtain ⟨value, -, rfl⟩ := h
    exact ⟨_, value, Parameter.isWord_key _, rfl⟩
  | cons h =>
    obtain ⟨value, -, rfl⟩ := h
    exact ⟨_, _, Parameter.isWord_key _, by rw [List.append_assoc, List.cons_append]⟩

theorem WritesValue.isBlank_getLast {value text : List Char} (h : WritesValue value text) :
    ∀ c, text.getLast? = some c → Text.isBlank c = false := by
  intro c hc
  cases h with
  | quoted =>
    have hquote : c = '"' := by
      simpa [quote, List.getLast?_cons, List.getLast?_append] using hc.symm
    rw [hquote]
    decide
  | bare hbare => exact hbare.last c hc

theorem WritesParameter.isBlank_getLast {p : Parameter} {text : List Char}
    (h : WritesParameter p text) : ∀ c, text.getLast? = some c → Text.isBlank c = false := by
  obtain ⟨value, hvalue, rfl⟩ := h
  intro c hc
  rw [List.getLast?_append, List.getLast?_cons, Option.some_or, Option.some.injEq] at hc
  -- an empty bare value leaves the equals sign at the end
  cases hlast : value.getLast? with
  | none =>
    rw [hlast, Option.getD_none] at hc
    rw [← hc]
    decide
  | some d =>
    rw [hlast, Option.getD_some] at hc
    exact hvalue.isBlank_getLast c (hc ▸ hlast)

/-- Parameters end like their last one. -/
theorem Joined.isBlank_getLast {ps : List Parameter} {texts : List (List Char)}
    {body : List Char} (h : Joined WritesParameter ps texts body) :
    ∀ c, body.getLast? = some c → Text.isBlank c = false := by
  induction h with
  | single h => exact h.isBlank_getLast
  | cons h hbefore hafter hrest ih =>
    obtain ⟨key, rest, hkey, rfl⟩ := hrest.exists_key
    intro c hc
    refine ih c ?_
    simpa [List.getLast?_append, List.getLast?_cons] using hc

theorem WritesOffer.exists_scheme {o : Offer} {text : List Char} (h : WritesOffer o text) :
    ∃ rest, text = o.scheme ++ rest := by
  cases h with
  | bare => exact ⟨[], by simp⟩
  | withParameters => exact ⟨_, rfl⟩

theorem WritesOffer.isBlank_head {o : Offer} {text : List Char} (h : WritesOffer o text) :
    ∀ c, text.head? = some c → Text.isBlank c = false := by
  intro c hc
  obtain ⟨rest, rfl⟩ := h.exists_scheme
  obtain ⟨d, tail, hscheme, hd, -⟩ := o.isWord_scheme.exists_cons
  rw [hscheme, List.cons_append, List.head?_cons, Option.some.injEq] at hc
  rw [← hc]
  exact hd

theorem WritesOffer.isBlank_getLast {o : Offer} {text : List Char} (h : WritesOffer o text) :
    ∀ c, text.getLast? = some c → Text.isBlank c = false := by
  cases h with
  | bare => exact o.isWord_scheme.isBlank_getLast
  | withParameters hblank hblanks hbody =>
    obtain ⟨key, rest, hkey, rfl⟩ := hbody.exists_key
    intro c hc
    refine hbody.isBlank_getLast c ?_
    simpa [List.getLast?_append, List.getLast?_cons] using hc

theorem WritesOffer.ne_nil {o : Offer} {text : List Char} (h : WritesOffer o text) :
    text ≠ [] := by
  obtain ⟨rest, rfl⟩ := h.exists_scheme
  exact List.append_ne_nil_of_left_ne_nil o.isWord_scheme.ne_nil rest

end ImageLookup.Challenge
