import ImageLookup.Proofs.Reference.Productions

/-! # Canonical references

The references that reading can give are exactly those with a host, a repository of one or more
components and a valid target, where a repository on the hub or on a bare `localhost` has at
least two components.  With fewer the text would mean something else: on the hub no production
reads it that way, and a bare `localhost` is a user name as well.

The canonical text of such a reference is read back as that reference, because it is accepted
by one production only: its host is followed by a slash, so it is no single component, and a host
that is also a user name has two components behind it.
-/

namespace ImageLookup.Reference

def components (r : Reference) : List (List Char) := r.repository.toList.splitOn '/'

/-- A host, components and a target that are as they should be. -/
structure IsQualified (r : Reference) : Prop where
  host : isHost r.host.toList = true
  components : ∀ c ∈ r.components, isComponent c = true
  target : r.target.IsValid

/-- What every reference that was read satisfies. -/
structure IsCanonical (r : Reference) : Prop where
  host : isHost r.host.toList = true
  repository : ∃ components : List (List Char),
    components ≠ [] ∧ (∀ c ∈ components, isComponent c = true) ∧
    r.repository.toList = List.intercalate ['/'] components ∧
    (r.host ∈ hubHosts ∨ r.host = "localhost" → 2 ≤ components.length)
  target : r.target.IsValid

theorem intercalate_components (r : Reference) :
    List.intercalate ['/'] r.components = r.repository.toList :=
  List.intercalate_splitOn '/'

theorem IsCanonical.isQualified {r : Reference} (h : r.IsCanonical) : r.IsQualified where
  host := h.host
  components := by
    obtain ⟨components, hne, hall, hrepository, -⟩ := h.repository
    rw [Reference.components, hrepository, splitOn_joined hne hall]
    exact hall
  target := h.target

/-! ### Reading gives canonical references -/

theorem parse_eq_ok_iff {s : String} {r : Reference} :
    parse s = .ok r ↔ readings (Text.trim s.toList) = [r] := by
  unfold parse
  dsimp only
  split
  · rename_i h
    simp [h]
  · rename_i r' h
    rw [h]
    simp
  · rename_i rs hnil hone
    constructor
    · intro h
      cases h
    · intro h
      exact absurd h (hone r)

theorem isHost_hubHost : isHost hubHost.toList = true := by decide

theorem isComponent_hubLibrary : isComponent hubLibrary.toList = true := by decide

theorem hubLibrary_append (name : List Char) :
    hubLibrary ++ "/" ++ String.ofList name =
      String.ofList (hubLibrary.toList ++ '/' :: name) := by
  rw [← String.toList_inj]
  simp [String.toList_append]

/-- A reference on the hub with two components. -/
theorem isCanonical_hub {first second : List Char} {target : Target}
    (hfirst : isComponent first = true) (hsecond : isComponent second = true)
    (htarget : target.IsValid) :
    IsCanonical ⟨hubHost, String.ofList (first ++ '/' :: second), target⟩ where
  host := isHost_hubHost
  repository := by
    refine ⟨[first, second], by simp, ?_, by simp [List.intercalate_cons_cons], by simp⟩
    intro c hc
    rcases List.mem_cons.1 hc with rfl | hc
    · exact hfirst
    · rw [List.mem_singleton.1 hc]
      exact hsecond
  target := htarget

/-- What was read is canonical: an ambiguous reading, the only other kind, does not leave `parse`.
    -/
theorem isCanonical_of_parse {s : String} {r : Reference} (h : parse s = .ok r) :
    r.IsCanonical := by
  rw [parse_eq_ok_iff, readings] at h
  split at h
  · cases h
  · rename_i name target hsplit
    have htarget := isValid_of_splitTarget? hsplit
    have hmem : r ∈ [hostedPath?, hostedImage?, hubUser?, hubImage?].filterMap
        fun production => production name target := by simp [h]
    rw [List.mem_filterMap] at hmem
    obtain ⟨production, hproduction, hr⟩ := hmem
    simp only [List.mem_cons, List.not_mem_nil, or_false] at hproduction
    rcases hproduction with rfl | rfl | rfl | rfl
    · obtain ⟨host, components, hhost, hlength, hall, -, rfl⟩ := hostedPath?_eq_some_iff.1 hr
      refine ⟨by simpa using hhost, ⟨components, ?_, hall, by simp, fun _ => hlength⟩, htarget⟩
      rintro rfl
      simp at hlength
    · obtain ⟨host, image, hhost, himage, hhub, hname, rfl⟩ := hostedImage?_eq_some_iff.1 hr
      refine ⟨by simpa using hhost, ⟨[image], by simp, by simpa using himage, by simp, ?_⟩,
        htarget⟩
      rintro (hin | hlocal)
      · exact absurd hin hhub
      · -- a bare `localhost` is a user name, so there would be a second reading
        have hlocal : host = "localhost".toList := by
          rw [← hlocal, String.toList_ofList]
        have huser : hubUser? name target = some ⟨hubHost, String.ofList name, target⟩ :=
          hubUser?_eq_some_iff.2 ⟨host, image, by rw [hlocal]; decide, himage, hname, rfl⟩
        have hlength := congrArg List.length h
        cases hpath : hostedPath? name target <;> cases himg : hubImage? name target <;>
          simp [hr, huser, hpath, himg] at hlength
    · obtain ⟨user, image, huser, himage, rfl, rfl⟩ := hubUser?_eq_some_iff.1 hr
      exact isCanonical_hub (isComponent_of_isUserName huser) himage htarget
    · obtain ⟨hname, rfl⟩ := hubImage?_eq_some_iff.1 hr
      rw [hubLibrary_append]
      exact isCanonical_hub isComponent_hubLibrary hname htarget

/-! ### Canonical text is read by one production -/

theorem isBlank_eq_false_of_mem_suffix {target : Target} (h : target.IsValid) {c : Char}
    (hc : c ∈ target.suffix.toList) : Text.isBlank c = false := by
  rcases isReferenceChar_of_mem_suffix h hc with rfl | hchar
  · decide
  · exact isBlank_eq_false_of_isReferenceChar hchar

theorem suffix_ne_nil (target : Target) : target.suffix.toList ≠ [] := by
  cases target <;> simp [Target.suffix, String.toList_append]

/-- No blank stands in a canonical text. -/
theorem trim_text {r : Reference} (h : r.IsCanonical) :
    Text.trim r.text.toList = r.text.toList := by
  have htext : r.text.toList =
      (r.host.toList ++ '/' :: r.repository.toList) ++ r.target.suffix.toList := by
    simp [text, String.toList_append]
  apply Text.trim_eq_self
  · intro c hc
    obtain ⟨first, rest, hhost, hfirst⟩ := isAlphanum_head_of_isHost h.host
    rw [htext, hhost] at hc
    simp only [List.cons_append, List.head?_cons, Option.some.injEq] at hc
    subst hc
    exact isBlank_eq_false_of_isReferenceChar (isReferenceChar_of_isAlphanum hfirst)
  · intro c hc
    have hsome : r.target.suffix.toList.getLast?.isSome = true :=
      List.getLast?_isSome.2 (suffix_ne_nil _)
    rw [htext, List.getLast?_append, Option.or_of_isSome hsome] at hc
    exact isBlank_eq_false_of_mem_suffix h.target (List.mem_of_getLast? hc)

/-- The first slash divides a text in one way. -/
theorem eq_and_eq_of_append_slash {before before' after after' : List Char}
    (hbefore : ∀ c ∈ before, (c == '/') = false) (hbefore' : ∀ c ∈ before', (c == '/') = false)
    (heq : before ++ '/' :: after = before' ++ '/' :: after') :
    before = before' ∧ after = after' := by
  have hcut := congrArg (Text.cutFirst (· == '/')) heq
  rw [Text.cutFirst_append_cons (by rfl) hbefore,
    Text.cutFirst_append_cons (by rfl) hbefore'] at hcut
  simpa using hcut

/-- The last of the components behind a slash stands behind the last slash. -/
theorem exists_last_component {components : List (List Char)} (hne : components ≠ [])
    (hall : ∀ c ∈ components, isComponent c = true) (before : List Char) :
    ∃ path last, isComponent last = true ∧
      before ++ '/' :: List.intercalate ['/'] components = path ++ '/' :: last := by
  induction components generalizing before with
  | nil => exact absurd rfl hne
  | cons first rest ih =>
    cases rest with
    | nil => exact ⟨before, first, hall first (by simp), by simp⟩
    | cons second rest =>
      obtain ⟨path, last, hlast, heq⟩ :=
        ih (by simp) (fun c hc => hall c (List.mem_cons_of_mem _ hc)) (before ++ '/' :: first)
      refine ⟨path, last, hlast, ?_⟩
      rw [← heq, List.intercalate_cons_cons]
      simp

/-- The mark before the target is the last one behind the last slash. -/
theorem splitTarget?_text {r : Reference} (h : r.IsQualified) :
    splitTarget? r.text.toList = some (r.host.toList ++ '/' :: r.repository.toList, r.target) := by
  have hne : r.components ≠ [] := List.splitOn_ne_nil '/' _
  obtain ⟨path, last, hlast, hname⟩ := exists_last_component hne h.components r.host.toList
  rw [intercalate_components] at hname
  have htext : r.text.toList = path ++ '/' :: (last ++ r.target.suffix.toList) := by
    rw [← List.cons_append, ← List.append_assoc, ← hname]
    simp [text, String.toList_append]
  have hslash : ∀ c ∈ last ++ r.target.suffix.toList, (c == '/') = false := by
    intro c hc
    rcases List.mem_append.1 hc with hc | hc
    · exact slash_beq_eq_false_of_isComponent hlast c hc
    · exact slash_beq_eq_false_of_mem_suffix _ h.target c hc
  rw [htext, splitTarget?_append_slash hslash,
    splitTarget?_component_append_suffix hlast h.target, Option.map_some, hname]

theorem hubImage?_eq_none (host path : List Char) (target : Target) :
    hubImage? (host ++ '/' :: path) target = none := by
  rw [Option.eq_none_iff_forall_ne_some]
  intro r hr
  obtain ⟨hcomponent, -⟩ := hubImage?_eq_some_iff.1 hr
  exact slash_not_mem_component hcomponent (by simp)

section Productions

variable {host path : List Char} (hhost : isHost host = true) (target : Target)
include hhost

theorem hostedPath?_eq_none (hpath : isComponent path = true) :
    hostedPath? (host ++ '/' :: path) target = none := by
  rw [Option.eq_none_iff_forall_ne_some]
  intro r hr
  obtain ⟨host', components, hhost', hlength, -, hname, -⟩ := hostedPath?_eq_some_iff.1 hr
  obtain ⟨-, hrest⟩ := eq_and_eq_of_append_slash (slash_beq_eq_false_of_isHost hhost)
    (slash_beq_eq_false_of_isHost hhost') hname
  rw [hrest, isComponent_joined_eq_false hlength] at hpath
  cases hpath

theorem hostedImage?_eq_none (hpath : isComponent path = false) :
    hostedImage? (host ++ '/' :: path) target = none := by
  rw [Option.eq_none_iff_forall_ne_some]
  intro r hr
  obtain ⟨host', image, hhost', himage, -, hname, -⟩ := hostedImage?_eq_some_iff.1 hr
  obtain ⟨-, hrest⟩ := eq_and_eq_of_append_slash (slash_beq_eq_false_of_isHost hhost)
    (slash_beq_eq_false_of_isHost hhost') hname
  rw [hrest, himage] at hpath
  cases hpath

/-- A host is a user name with one component behind it only if it is a bare `localhost`. -/
theorem hubUser?_eq_none (h : isComponent path = false ∨ host ≠ "localhost".toList) :
    hubUser? (host ++ '/' :: path) target = none := by
  rw [Option.eq_none_iff_forall_ne_some]
  intro r hr
  obtain ⟨user, image, huser, himage, hname, -⟩ := hubUser?_eq_some_iff.1 hr
  obtain ⟨rfl, rfl⟩ := eq_and_eq_of_append_slash (slash_beq_eq_false_of_isHost hhost)
    (slash_beq_eq_false_of_isComponent (isComponent_of_isUserName huser)) hname
  rcases h with hpath | hlocal
  · rw [himage] at hpath
    cases hpath
  · exact hlocal (eq_localhost_of_isHost_of_isUserName hhost huser)

end Productions

/-- Each of the other productions fails on a canonical text, for a reason of its own. -/
theorem readings_text {r : Reference} (h : r.IsCanonical) : readings r.text.toList = [r] := by
  obtain ⟨components, hne, hall, hrepository, hdepth⟩ := h.repository
  have hsplit := splitTarget?_text h.isQualified
  have hhubImage := hubImage?_eq_none r.host.toList r.repository.toList r.target
  by_cases hlength : 2 ≤ components.length
  · -- only the production for a host and at least two components fits
    have hcomponent : isComponent r.repository.toList = false := by
      rw [hrepository]
      exact isComponent_joined_eq_false hlength
    have hpath : hostedPath? (r.host.toList ++ '/' :: r.repository.toList) r.target = some r :=
      hostedPath?_eq_some_iff.2 ⟨r.host.toList, components, h.host, hlength, hall,
        by rw [hrepository], by rw [← hrepository, String.ofList_toList, String.ofList_toList]⟩
    have himage := hostedImage?_eq_none h.host r.target hcomponent
    have huser := hubUser?_eq_none h.host r.target (Or.inl hcomponent)
    simp [readings, hsplit, hpath, himage, huser, hhubImage]
  · -- only the production for a host and one component fits
    have hone : components.length = 1 := by
      have hpos := List.length_pos_iff.2 hne
      omega
    obtain ⟨image, rfl⟩ := List.length_eq_one_iff.1 hone
    obtain ⟨hhub, hlocal⟩ := not_or.1 (mt hdepth hlength)
    have hcomponent : isComponent r.repository.toList = true := by
      rw [hrepository, List.intercalate_singleton]
      exact hall image (by simp)
    have hpath := hostedPath?_eq_none h.host r.target hcomponent
    have himage : hostedImage? (r.host.toList ++ '/' :: r.repository.toList) r.target = some r :=
      hostedImage?_eq_some_iff.2 ⟨r.host.toList, r.repository.toList, h.host, hcomponent,
        by rwa [String.ofList_toList], rfl, by rw [String.ofList_toList, String.ofList_toList]⟩
    have huser : hubUser? (r.host.toList ++ '/' :: r.repository.toList) r.target = none :=
      hubUser?_eq_none h.host r.target (Or.inr fun heq => hlocal (String.toList_inj.1 heq))
    simp [readings, hsplit, hpath, himage, huser, hhubImage]

theorem parse_text {r : Reference} (h : r.IsCanonical) : parse r.text = .ok r := by
  rw [parse_eq_ok_iff, trim_text h, readings_text h]

/-- The canonical text of a reference that was read is read as the same reference.  The
references that can be read at all are the canonical ones, and each is read from its canonical
text. -/
theorem parse_inverts_text :
    (∀ s r, parse s = .ok r → parse r.text = .ok r) ∧
    (∀ r, (∃ s, parse s = .ok r) ↔ r.IsCanonical) ∧
    (∀ r : Reference, r.IsCanonical → parse r.text = .ok r) := by
  refine ⟨fun s r h => parse_text (isCanonical_of_parse h), fun r => ⟨?_, ?_⟩, fun r => parse_text⟩
  · rintro ⟨s, h⟩
    exact isCanonical_of_parse h
  · intro h
    exact ⟨r.text, parse_text h⟩

/-- A port, one component, and a digest of an algorithm that is not registered. -/
theorem parse_inverts_text_port_digest :
    ∃ r : Reference, parse " localhost:5000/app@x+y:Z= " = .ok r ∧
      r.text = "localhost:5000/app@x+y:Z=" ∧ r.IsCanonical ∧ parse r.text = .ok r := by
  have hread : ∃ r, parse " localhost:5000/app@x+y:Z= " = .ok r ∧
      r.text = "localhost:5000/app@x+y:Z=" :=
    ⟨⟨"localhost:5000", "app", .digest ⟨"x+y", "Z=", by decide +kernel⟩⟩,
      parse_eq_ok_iff.2 (by decide +kernel), by decide +kernel⟩
  obtain ⟨r, hr, htext⟩ := hread
  have hcanonical : r.IsCanonical := (parse_inverts_text.2.1 r).1 ⟨_, hr⟩
  exact ⟨r, hr, htext, hcanonical, parse_inverts_text.1 _ r hr⟩

end ImageLookup.Reference
