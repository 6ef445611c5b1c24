import ImageLookup.Reference.Readings

/-! # What the productions accept

A text is divided into a name and a target before any production sees it.  The division looks
at the last part between slashes only, so a path in front of that part changes nothing, and a
component with the suffix of a target behind it is divided exactly there.

Each production then accepts the names of one shape.  The shapes are stated by the words that
make up the name, so that nothing below has to look at how a production takes a name apart.
-/

namespace ImageLookup

/-- A tag that fits the rules for tags, or a digest as it is read from some text. -/
def Target.IsValid : Target → Prop
  | .tag name => Reference.isTag name.toList = true
  | .digest d => ∃ text, Digest.ofText? text = .ok d

/-- The text of a target tells a tag from a digest: only a digest has a colon. -/
theorem Target.eq_of_text_eq {s t : Target} (hs : s.IsValid) (ht : t.IsValid)
    (h : s.text = t.text) : s = t := by
  have hcolon : ∀ {name : String} {d : Digest}, (Target.tag name).IsValid → name ≠ d.text := by
    rintro name d hname rfl
    have hmem : ':' ∈ d.text.toList := by
      rw [Digest.toList_text]
      exact List.mem_append_right _ List.mem_cons_self
    exact absurd (Reference.isNameChar_of_mem_tag hname _ hmem) (by decide)
  cases s with
  | tag name =>
    cases t with
    | tag name' => exact congrArg Target.tag h
    | digest d => exact absurd h (hcolon hs)
  | digest d =>
    cases t with
    | tag name => exact absurd h.symm (hcolon ht)
    | digest d' => exact congrArg Target.digest (Digest.text_injective h)

namespace Reference

/-! ### Characters of references -/

/-- The characters of hosts, components, tags and digests. -/
def isReferenceChar (c : Char) : Bool := isNameChar c || c == ':' || c == '+' || c == '='

section Characters

variable {c x : Char} {cs : List Char}

theorem isReferenceChar_of_isNameChar (h : isNameChar c = true) : isReferenceChar c = true := by
  simp [isReferenceChar, h]

theorem isReferenceChar_of_isAlphanum (h : c.isAlphanum = true) : isReferenceChar c = true :=
  isReferenceChar_of_isNameChar (by simp [isNameChar, h])

/-- Separators and blanks are told from characters of references by their class. -/
theorem ne_of_isReferenceChar (h : isReferenceChar c = true) (hx : isReferenceChar x = false) :
    c ≠ x := by
  rintro rfl
  rw [h] at hx
  cases hx

theorem toNat_of_isReferenceChar (h : isReferenceChar c = true) :
    43 ≤ c.toNat ∧ c.toNat ≤ 122 := by
  simp only [isReferenceChar, Bool.or_eq_true, beq_iff_eq] at h
  rcases h with ((h | rfl) | rfl) | rfl
  · have hrange := toNat_of_isNameChar h
    omega
  all_goals decide

theorem isBlank_eq_false_of_isReferenceChar (h : isReferenceChar c = true) :
    Text.isBlank c = false := by
  have hrange := toNat_of_isReferenceChar h
  simp only [Text.isBlank, Bool.or_eq_false_iff, Bool.and_eq_false_iff, decide_eq_false_iff_not,
    beq_eq_false_iff_ne]
  omega

theorem isReferenceChar_of_mem_host (h : isHost cs = true) (hc : c ∈ cs) :
    isReferenceChar c = true := by
  rcases mem_host h c hc with hname | rfl
  · exact isReferenceChar_of_isNameChar hname
  · decide

theorem isReferenceChar_of_mem_digest (d : Digest) (hc : c ∈ d.text.toList) :
    isReferenceChar c = true := by
  rw [Digest.toList_text, List.mem_append, List.mem_cons] at hc
  rcases hc with hc | rfl | hc
  · rcases Digest.mem_algorithm d hc with h | h
    · apply isReferenceChar_of_isAlphanum
      rcases Bool.or_eq_true_iff.1 h with hdigit | hlower
      · exact Text.isAlphanum_of_isDigit hdigit
      · exact Text.isAlphanum_of_isLower hlower
    · simp only [Digest.isComponentSeparator, Bool.or_eq_true, beq_iff_eq] at h
      rcases h with ((rfl | rfl) | rfl) | rfl <;> decide
  · decide
  · have h := Digest.mem_encoded d hc
    simp only [Digest.isEncodedChar, Bool.or_eq_true, beq_iff_eq] at h
    rcases h with ((halnum | rfl) | rfl) | rfl
    · exact isReferenceChar_of_isAlphanum halnum
    all_goals decide

theorem isReferenceChar_of_mem_suffix {target : Target} (h : target.IsValid)
    (hc : c ∈ target.suffix.toList) : c = '@' ∨ isReferenceChar c = true := by
  cases target with
  | tag name =>
    have hmem : c = ':' ∨ c ∈ name.toList := by
      simpa [Target.suffix, String.toList_append] using hc
    rcases hmem with rfl | hmem
    · exact .inr (by decide)
    · exact .inr (isReferenceChar_of_isNameChar (isNameChar_of_mem_tag h c hmem))
  | digest d =>
    have hmem : c = '@' ∨ c ∈ d.text.toList := by
      simpa [Target.suffix, String.toList_append] using hc
    exact hmem.imp_right (isReferenceChar_of_mem_digest d)

end Characters

/-! ### Words hold no separators -/

theorem slash_not_mem_component {cs : List Char} (h : isComponent cs = true) : '/' ∉ cs :=
  fun hmem => absurd (isNameChar_of_mem_component h _ hmem) (by decide)

theorem slash_beq_eq_false_of_isHost {cs : List Char} (h : isHost cs = true) :
    ∀ c ∈ cs, (c == '/') = false := by
  intro c hc
  rcases mem_host h c hc with hname | rfl
  · exact beq_eq_false_of_isNameChar hname (by decide)
  · rfl

theorem slash_beq_eq_false_of_isComponent {cs : List Char} (h : isComponent cs = true) :
    ∀ c ∈ cs, (c == '/') = false :=
  fun c hc => beq_eq_false_of_isNameChar (isNameChar_of_mem_component h c hc) (by decide)

/-- Components joined by slashes are told apart again. -/
theorem splitOn_joined {components : List (List Char)} (hne : components ≠ [])
    (hall : ∀ c ∈ components, isComponent c = true) :
    (List.intercalate ['/'] components).splitOn '/' = components :=
  List.splitOn_intercalate '/' (fun c hc => slash_not_mem_component (hall c hc)) hne

/-- More than one component is no component. -/
theorem isComponent_joined_eq_false {components : List (List Char)}
    (hlength : 2 ≤ components.length) :
    isComponent (List.intercalate ['/'] components) = false := by
  match components with
  | first :: second :: rest =>
    rw [Bool.eq_false_iff]
    intro h
    refine slash_not_mem_component h ?_
    rw [List.intercalate_cons_cons]
    simp

/-! ### The division into a name and a target -/

theorem isValid_latest : Target.latest.IsValid := by
  change isTag "latest".toList = true
  decide

/-- No text is divided into a name and a target that breaks the rules. -/
theorem isValid_of_splitTarget? {cs name : List Char} {target : Target}
    (h : splitTarget? cs = some (name, target)) : target.IsValid := by
  unfold splitTarget? at h
  dsimp only at h
  split at h
  · -- a digest
    rename_i before digest _
    split at h
    · rename_i d hd
      simp only [Option.some.injEq, Prod.mk.injEq] at h
      obtain ⟨-, rfl⟩ := h
      exact ⟨String.ofList digest, by rw [Digest.ofText?, String.toList_ofList, hd]⟩
    · cases h
  · split at h
    · -- a tag
      rename_i before tag _
      split at h
      · rename_i htag
        simp only [Option.some.injEq, Prod.mk.injEq] at h
        obtain ⟨-, rfl⟩ := h
        simpa [Target.IsValid] using htag
      · cases h
    · -- no suffix
      simp only [Option.some.injEq, Prod.mk.injEq] at h
      obtain ⟨-, rfl⟩ := h
      exact isValid_latest

/-- What stands before the last slash belongs to the name. -/
theorem splitTarget?_append_slash {path last : List Char} (hlast : ∀ c ∈ last, (c == '/') = false) :
    splitTarget? (path ++ '/' :: last) =
      (splitTarget? last).map fun s => (path ++ '/' :: s.1, s.2) := by
  have hpath : Text.cutLast (· == '/') (path ++ '/' :: last) = some (path, last) :=
    Text.cutLast_append_cons (by rfl) hlast
  have hnone : Text.cutLast (· == '/') last = none := Text.cutLast_eq_none_iff.2 hlast
  simp only [splitTarget?, hpath, hnone]
  split
  · split <;> simp
  · split
    · split <;> simp
    · simp

theorem slash_beq_eq_false_of_mem_suffix (target : Target) (h : target.IsValid) :
    ∀ c ∈ target.suffix.toList, (c == '/') = false := by
  intro c hc
  rw [beq_eq_false_iff_ne]
  rcases isReferenceChar_of_mem_suffix h hc with rfl | hchar
  · decide
  · exact ne_of_isReferenceChar hchar (by decide)

/-- A component and a suffix are divided where they meet. -/
theorem splitTarget?_component_append_suffix {word : List Char} {target : Target}
    (hword : isComponent word = true) (htarget : target.IsValid) :
    splitTarget? (word ++ target.suffix.toList) = some (word, target) := by
  have hname : ∀ c ∈ word, isNameChar c = true := isNameChar_of_mem_component hword
  have hslash : Text.cutLast (· == '/') (word ++ target.suffix.toList) = none := by
    refine Text.cutLast_eq_none_iff.2 fun c hc => ?_
    rcases List.mem_append.1 hc with hc | hc
    · exact slash_beq_eq_false_of_isComponent hword c hc
    · exact slash_beq_eq_false_of_mem_suffix target htarget c hc
  cases target with
  | digest d =>
    have hsuffix : (Target.digest d).suffix.toList = '@' :: d.text.toList := by
      simp [Target.suffix, String.toList_append]
    rw [hsuffix] at hslash ⊢
    have hat : Text.cutFirst (· == '@') (word ++ '@' :: d.text.toList) =
        some (word, d.text.toList) :=
      Text.cutFirst_append_cons (by rfl) fun c hc =>
        beq_eq_false_of_isNameChar (hname c hc) (by decide)
    simp [splitTarget?, hslash, hat, Digest.ofChars?_toList_text]
  | tag name =>
    have hsuffix : (Target.tag name).suffix.toList = ':' :: name.toList := by
      simp [Target.suffix, String.toList_append]
    rw [hsuffix] at hslash ⊢
    have htag : isTag name.toList = true := htarget
    have hat : Text.cutFirst (· == '@') (word ++ ':' :: name.toList) = none := by
      refine Text.cutFirst_eq_none_iff.2 fun c hc => ?_
      rcases List.mem_append.1 hc with hc | hc
      · exact beq_eq_false_of_isNameChar (hname c hc) (by decide)
      · rcases List.mem_cons.1 hc with rfl | hc
        · rfl
        · exact beq_eq_false_of_isNameChar (isNameChar_of_mem_tag htag c hc) (by decide)
    have hcolon : Text.cutLast (· == ':') (word ++ ':' :: name.toList) =
        some (word, name.toList) :=
      Text.cutLast_append_cons (by rfl) fun c hc =>
        beq_eq_false_of_isNameChar (isNameChar_of_mem_tag htag c hc) (by decide)
    simp [splitTarget?, hslash, hat, hcolon, htag]

/-! ### The shapes of names -/

/-- The readers of the four productions say what they read, and that they read nothing else. -/
theorem hostedPath?_eq_some_iff {name : List Char} {target : Target} {r : Reference} :
    hostedPath? name target = some r ↔
      ∃ (host : List Char) (components : List (List Char)),
        isHost host = true ∧ 2 ≤ components.length ∧
        (∀ c ∈ components, isComponent c = true) ∧
        name = host ++ '/' :: List.intercalate ['/'] components ∧
        r = ⟨String.ofList host, String.ofList (List.intercalate ['/'] components), target⟩ := by
  constructor
  · intro h
    simp only [hostedPath?, Option.bind_eq_bind, Option.bind_eq_some_iff] at h
    obtain ⟨⟨host, path⟩, hcut, h⟩ := h
    obtain ⟨c, hc, rfl, -⟩ := Text.cutFirst_eq_some hcut
    rw [beq_iff_eq] at hc
    subst hc
    simp only [Option.ite_none_right_eq_some, Bool.and_eq_true, decide_eq_true_eq,
      List.all_eq_true, Option.some.injEq] at h
    obtain ⟨⟨⟨hhost, hlength⟩, hall⟩, rfl⟩ := h
    refine ⟨host, path.splitOn '/', hhost, hlength, hall, ?_, ?_⟩ <;>
      rw [List.intercalate_splitOn]
  · rintro ⟨host, components, hhost, hlength, hall, rfl, rfl⟩
    have hcut : Text.cutFirst (· == '/') (host ++ '/' :: List.intercalate ['/'] components) =
        some (host, List.intercalate ['/'] components) :=
      Text.cutFirst_append_cons (by rfl) (slash_beq_eq_false_of_isHost hhost)
    have hsplit : (List.intercalate ['/'] components).splitOn '/' = components :=
      splitOn_joined (by rintro rfl; simp at hlength) hall
    simp only [hostedPath?, hcut, hsplit, Option.bind_eq_bind, Option.bind_some,
      Option.ite_none_right_eq_some, Bool.and_eq_true, decide_eq_true_eq, List.all_eq_true]
    exact ⟨⟨⟨hhost, hlength⟩, hall⟩, trivial⟩

theorem hostedImage?_eq_some_iff {name : List Char} {target : Target} {r : Reference} :
    hostedImage? name target = some r ↔
      ∃ host image : List Char,
        isHost host = true ∧ isComponent image = true ∧ String.ofList host ∉ hubHosts ∧
        name = host ++ '/' :: image ∧
        r = ⟨String.ofList host, String.ofList image, target⟩ := by
  constructor
  · intro h
    simp only [hostedImage?, Option.bind_eq_bind, Option.bind_eq_some_iff] at h
    obtain ⟨⟨host, image⟩, hcut, h⟩ := h
    obtain ⟨c, hc, rfl, -⟩ := Text.cutFirst_eq_some hcut
    rw [beq_iff_eq] at hc
    subst hc
    simp only [Option.ite_none_right_eq_some, Bool.and_eq_true, Bool.not_eq_true',
      List.contains_eq_mem, decide_eq_false_iff_not, Option.some.injEq] at h
    obtain ⟨⟨⟨hhost, himage⟩, hhub⟩, rfl⟩ := h
    exact ⟨host, image, hhost, himage, hhub, rfl, rfl⟩
  · rintro ⟨host, image, hhost, himage, hhub, rfl, rfl⟩
    have hcut : Text.cutFirst (· == '/') (host ++ '/' :: image) = some (host, image) :=
      Text.cutFirst_append_cons (by rfl) (slash_beq_eq_false_of_isHost hhost)
    simp [hostedImage?, hcut, hhost, himage, hhub]

theorem hubUser?_eq_some_iff {name : List Char} {target : Target} {r : Reference} :
    hubUser? name target = some r ↔
      ∃ user image : List Char,
        isUserName user = true ∧ isComponent image = true ∧
        name = user ++ '/' :: image ∧ r = ⟨hubHost, String.ofList name, target⟩ := by
  constructor
  · intro h
    simp only [hubUser?, Option.bind_eq_bind, Option.bind_eq_some_iff] at h
    obtain ⟨⟨user, image⟩, hcut, h⟩ := h
    obtain ⟨c, hc, rfl, -⟩ := Text.cutFirst_eq_some hcut
    rw [beq_iff_eq] at hc
    subst hc
    simp only [Option.ite_none_right_eq_some, Bool.and_eq_true, Option.some.injEq] at h
    obtain ⟨⟨huser, himage⟩, rfl⟩ := h
    exact ⟨user, image, huser, himage, rfl, rfl⟩
  · rintro ⟨user, image, huser, himage, rfl, rfl⟩
    have hcut : Text.cutFirst (· == '/') (user ++ '/' :: image) = some (user, image) :=
      Text.cutFirst_append_cons (by rfl)
        (slash_beq_eq_false_of_isComponent (isComponent_of_isUserName huser))
    simp [hubUser?, hcut, huser, himage]

theorem hubImage?_eq_some_iff {name : List Char} {target : Target} {r : Reference} :
    hubImage? name target = some r ↔
      isComponent name = true ∧
        r = ⟨hubHost, hubLibrary ++ "/" ++ String.ofList name, target⟩ := by
  rw [hubImage?, Option.ite_none_right_eq_some, Option.some.injEq, eq_comm (a := r)]

end Reference

end ImageLookup
