/-! # Cutting text at a separator

`cutFirst` and `cutLast` divide a text at the first and at the last character of a
class.  Both give the two sides without the separator, and `none` when the text holds
no such character.  The laws say that the sides and a separator make up the text again
and that the side away from the uncut text is free of separators.
-/

namespace ImageLookup.Text

/-- The text before and after the first character that satisfies `p`. -/
def cutFirst (p : Char → Bool) : List Char → Option (List Char × List Char)
  | [] => none
  | c :: cs => if p c then some ([], cs) else (cutFirst p cs).map fun s => (c :: s.1, s.2)

def cutLast (p : Char → Bool) : List Char → Option (List Char × List Char)
  | [] => none
  | c :: cs =>
    match cutLast p cs with
    | some (before, after) => some (c :: before, after)
    | none => if p c then some ([], cs) else none

theorem cutFirst_eq_none_iff {p : Char → Bool} {cs : List Char} :
    cutFirst p cs = none ↔ ∀ c ∈ cs, p c = false := by
  induction cs with
  | nil => simp [cutFirst]
  | cons c cs ih => by_cases h : p c <;> simp_all [cutFirst]

theorem cutFirst_eq_some {p : Char → Bool} {cs before after : List Char}
    (h : cutFirst p cs = some (before, after)) :
    ∃ c, p c = true ∧ cs = before ++ c :: after ∧ ∀ x ∈ before, p x = false := by
  induction cs generalizing before with
  | nil => simp [cutFirst] at h
  | cons c cs ih =>
    by_cases hc : p c
    · simp only [cutFirst, hc, if_true, Option.some.injEq, Prod.mk.injEq] at h
      obtain ⟨rfl, rfl⟩ := h
      exact ⟨c, hc, rfl, by simp⟩
    · simp only [cutFirst, hc, Bool.false_eq_true, if_false, Option.map_eq_some_iff,
        Prod.mk.injEq] at h
      obtain ⟨⟨b, a⟩, hs, rfl, rfl⟩ := h
      obtain ⟨d, hd, rfl, hb⟩ := ih hs
      exact ⟨d, hd, rfl, by simp_all⟩

theorem cutLast_eq_none_iff {p : Char → Bool} {cs : List Char} :
    cutLast p cs = none ↔ ∀ c ∈ cs, p c = false := by
  induction cs with
  | nil => simp [cutLast]
  | cons c cs ih =>
    cases h : cutLast p cs with
    | none => by_cases hc : p c <;> simp_all [cutLast]
    | some s => simp_all [cutLast]

theorem cutLast_eq_some {p : Char → Bool} {cs before after : List Char}
    (h : cutLast p cs = some (before, after)) :
    ∃ c, p c = true ∧ cs = before ++ c :: after ∧ ∀ x ∈ after, p x = false := by
  induction cs generalizing before with
  | nil => simp [cutLast] at h
  | cons c cs ih =>
    cases hs : cutLast p cs with
    | some s =>
      obtain ⟨b, a⟩ := s
      simp only [cutLast, hs, Option.some.injEq, Prod.mk.injEq] at h
      obtain ⟨rfl, rfl⟩ := h
      obtain ⟨d, hd, rfl, ha⟩ := ih hs
      exact ⟨d, hd, rfl, ha⟩
    | none =>
      by_cases hc : p c
      · simp only [cutLast, hs, hc, if_true, Option.some.injEq, Prod.mk.injEq] at h
        obtain ⟨rfl, rfl⟩ := h
        exact ⟨c, hc, rfl, cutLast_eq_none_iff.1 hs⟩
      · simp [cutLast, hs, hc] at h

/-! ### Cutting what was joined -/

theorem cutFirst_append_cons {p : Char → Bool} {before after : List Char} {c : Char}
    (hc : p c = true) (hbefore : ∀ x ∈ before, p x = false) :
    cutFirst p (before ++ c :: after) = some (before, after) := by
  induction before with
  | nil => simp [cutFirst, hc]
  | cons b before ih =>
    have hb : p b = false := hbefore b (by simp)
    have hrest := ih fun x hx => hbefore x (by simp [hx])
    simp [cutFirst, hb, hrest]

theorem cutLast_append_cons {p : Char → Bool} {before after : List Char} {c : Char}
    (hc : p c = true) (hafter : ∀ x ∈ after, p x = false) :
    cutLast p (before ++ c :: after) = some (before, after) := by
  induction before with
  | nil => simp [cutLast, cutLast_eq_none_iff.2 hafter, hc]
  | cons b before ih => simp [cutLast, ih]

end ImageLookup.Text
