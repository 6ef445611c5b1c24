import ImageLookup.Text.Character
import ImageLookup.Text.Cut

/-! # The words of references

Four classes of words make up references: components of a repository, user names, tags and
hosts.  All are ASCII.  A host is told from a component by a dot, a port, or the name
`localhost`.
-/

namespace ImageLookup.Reference

def isNameChar (c : Char) : Bool := c.isAlphanum || c == '.' || c == '_' || c == '-'

def isComponent (cs : List Char) : Bool :=
  cs.head?.any Char.isAlphanum && cs.all isNameChar

def isUserName (cs : List Char) : Bool := !cs.isEmpty && cs.all Char.isAlphanum

def tagLimit : Nat := 128

def isTag (cs : List Char) : Bool :=
  decide (cs.length ≤ tagLimit) && cs.head?.any (fun c => c.isAlphanum || c == '_')
    && cs.all isNameChar

def isPort (cs : List Char) : Bool := !cs.isEmpty && cs.all Char.isDigit

/-- A host: a name with a port, or a name that holds a dot or is `localhost`. -/
def isHost (cs : List Char) : Bool :=
  match Text.cutFirst (· == ':') cs with
  | some (name, port) => isComponent name && isPort port
  | none => isComponent cs && (cs.contains '.' || cs == "localhost".toList)

theorem isComponent_ne_nil {cs : List Char} (h : isComponent cs = true) : cs ≠ [] := by
  rintro rfl
  simp [isComponent] at h

theorem isComponent_of_isUserName {cs : List Char} (h : isUserName cs = true) :
    isComponent cs = true := by
  cases cs with
  | nil => simp [isUserName] at h
  | cons c cs =>
    simp only [isUserName, List.isEmpty_cons, Bool.not_false, Bool.true_and, List.all_cons,
      Bool.and_eq_true, List.all_eq_true] at h
    simp only [isComponent, List.head?_cons, Option.any_some, List.all_cons, Bool.and_eq_true,
      List.all_eq_true, isNameChar, Bool.or_eq_true]
    exact ⟨h.1, Or.inl (Or.inl (Or.inl h.1)), fun x hx => Or.inl (Or.inl (Or.inl (h.2 x hx)))⟩

/-! ### The characters of words -/

theorem toNat_of_isNameChar {c : Char} (h : isNameChar c = true) :
    45 ≤ c.toNat ∧ c.toNat ≤ 122 := by
  simp only [isNameChar, Bool.or_eq_true, beq_iff_eq] at h
  rcases h with ((h | rfl) | rfl) | rfl
  · have hrange := Text.toNat_of_isAlphanum h
    omega
  all_goals decide

theorem isNameChar_of_mem_component {cs : List Char} (h : isComponent cs = true) :
    ∀ c ∈ cs, isNameChar c = true := by
  simp only [isComponent, Bool.and_eq_true, List.all_eq_true] at h
  exact h.2

theorem beq_eq_false_of_isNameChar {c separator : Char} (hc : isNameChar c = true)
    (hseparator : isNameChar separator = false) : (c == separator) = false := by
  rw [beq_eq_false_iff_ne]
  rintro rfl
  rw [hseparator] at hc
  cases hc

theorem isNameChar_of_mem_tag {cs : List Char} (h : isTag cs = true) :
    ∀ c ∈ cs, isNameChar c = true := by
  simp only [isTag, Bool.and_eq_true, List.all_eq_true] at h
  exact h.2

/-- A host is a component, with a colon and a port behind it if there is one. -/
theorem isHost_iff {cs : List Char} :
    isHost cs = true ↔
      (isComponent cs = true ∧ (cs.contains '.' || cs == "localhost".toList) = true) ∨
      ∃ name port, cs = name ++ ':' :: port ∧ isComponent name = true ∧ isPort port = true := by
  unfold isHost
  constructor
  · intro h
    split at h
    · rename_i name port hcut
      obtain ⟨c, hc, rfl, -⟩ := Text.cutFirst_eq_some hcut
      rw [beq_iff_eq] at hc
      subst hc
      rw [Bool.and_eq_true] at h
      exact Or.inr ⟨name, port, rfl, h.1, h.2⟩
    · rw [Bool.and_eq_true] at h
      exact Or.inl h
  · have hcolon : ∀ name : List Char, isComponent name = true → ∀ c ∈ name, (c == ':') = false :=
      fun name hname c hc =>
        beq_eq_false_of_isNameChar (isNameChar_of_mem_component hname c hc) (by decide)
    rintro (⟨hname, hmark⟩ | ⟨name, port, rfl, hname, hport⟩)
    · have hcut : Text.cutFirst (· == ':') cs = none :=
        Text.cutFirst_eq_none_iff.2 (hcolon cs hname)
      rw [hcut]
      exact Bool.and_eq_true_iff.2 ⟨hname, hmark⟩
    · have hcut : Text.cutFirst (· == ':') (name ++ ':' :: port) = some (name, port) :=
        Text.cutFirst_append_cons (by rfl) (hcolon name hname)
      rw [hcut]
      exact Bool.and_eq_true_iff.2 ⟨hname, hport⟩

theorem mem_host {cs : List Char} (h : isHost cs = true) :
    ∀ c ∈ cs, isNameChar c = true ∨ c = ':' := by
  rcases isHost_iff.1 h with ⟨hname, -⟩ | ⟨name, port, rfl, hname, hport⟩
  · intro c hc
    exact Or.inl (isNameChar_of_mem_component hname c hc)
  · intro c hc
    simp only [isPort, Bool.and_eq_true, List.all_eq_true] at hport
    rcases List.mem_append.1 hc with hc | hc
    · exact Or.inl (isNameChar_of_mem_component hname c hc)
    · rcases List.mem_cons.1 hc with rfl | hc
      · exact Or.inr rfl
      · left
        simp [isNameChar, Text.isAlphanum_of_isDigit (hport.2 c hc)]

/-- A host never starts with a mark. -/
theorem isAlphanum_head_of_isHost {cs : List Char} (h : isHost cs = true) :
    ∃ c rest, cs = c :: rest ∧ c.isAlphanum = true := by
  have hhead : ∀ name : List Char, isComponent name = true →
      ∃ c rest, name = c :: rest ∧ c.isAlphanum = true := by
    intro name hname
    cases name with
    | nil => exact absurd rfl (isComponent_ne_nil hname)
    | cons c rest =>
      simp only [isComponent, List.head?_cons, Option.any_some, Bool.and_eq_true] at hname
      exact ⟨c, rest, rfl, hname.1⟩
  rcases isHost_iff.1 h with ⟨hname, -⟩ | ⟨name, port, rfl, hname, -⟩
  · exact hhead cs hname
  · obtain ⟨c, rest, rfl, hc⟩ := hhead name hname
    exact ⟨c, rest ++ ':' :: port, rfl, hc⟩

/-- The only host that is a user name too. -/
theorem eq_localhost_of_isHost_of_isUserName {cs : List Char} (hhost : isHost cs = true)
    (huser : isUserName cs = true) : cs = "localhost".toList := by
  simp only [isUserName, Bool.and_eq_true, List.all_eq_true] at huser
  rcases isHost_iff.1 hhost with ⟨-, hmark⟩ | ⟨name, port, rfl, -, -⟩
  · rcases Bool.or_eq_true_iff.1 hmark with hdot | hname
    · exact absurd (huser.2 '.' (by simpa using hdot)) (by decide)
    · exact eq_of_beq hname
  · exact absurd (huser.2 ':' (by simp)) (by decide)

end ImageLookup.Reference
