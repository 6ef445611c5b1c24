import ImageLookup.Proofs.Reference.Ambiguity
import ImageLookup.Proofs.Reference.Qualified

/-! # Advice on ambiguous references

An ambiguous text is reported on lines of its own: what was read, its readings in canonical form, and
the advice to spell out the host or the namespace.  The reading on the hub is reached that way, because its
canonical text has a host and two components.  The reading on a bare `localhost` is not.  Its
canonical text is a bare `localhost` with one component once more, so it has the same two readings,
and there is no other text that means it.
-/

namespace ImageLookup.Reference

variable {cs image : List Char} {target : Target} {c : Char}

/-! ### The reading on a bare `localhost` -/

def onLocalhost (image : List Char) (target : Target) : Reference :=
  ⟨"localhost", String.ofList image, target⟩

def ofLocalhostUser (image : List Char) (target : Target) : Reference :=
  ⟨hubHost, "localhost/" ++ String.ofList image, target⟩

theorem isSuffix_suffix (h : target.IsValid) : IsSuffix target.suffix.toList target := by
  cases target with
  | tag name =>
    have htag : isTag name.toList = true := h
    simpa [Target.suffix, String.toList_append] using IsSuffix.tag htag
  | digest d =>
    have hread : Digest.ofText? (String.ofList d.text.toList) = .ok d := by
      rw [String.ofList_toList]
      exact Digest.ofText?_text d
    simpa [Target.suffix, String.toList_append] using IsSuffix.digest hread

theorem toList_text_onLocalhost (image : List Char) (target : Target) :
    (onLocalhost image target).text.toList =
      "localhost/".toList ++ image ++ target.suffix.toList := by
  simp [onLocalhost, text, String.toList_append]

/-- With its target spelled out, a bare `localhost` is still one. -/
theorem IsBareLocalhost.spelled_out (h : IsBareLocalhost cs image target) :
    IsBareLocalhost (onLocalhost image target).text.toList image target := by
  obtain ⟨himage, suffix, hsuffix, -⟩ := h
  exact ⟨himage, _, isSuffix_suffix hsuffix.isValid, toList_text_onLocalhost image target⟩

theorem IsBareLocalhost.mem_text (h : IsBareLocalhost cs image target) (hc : c ∈ cs) :
    c ∈ (onLocalhost image target).text.toList := by
  obtain ⟨-, suffix, hsuffix, rfl⟩ := h
  rw [toList_text_onLocalhost]
  rcases hsuffix.eq_nil_or_eq with ⟨rfl, -⟩ | ⟨rfl, -⟩
  · rw [List.append_nil] at hc
    exact List.mem_append_left _ hc
  · exact hc

theorem IsBareLocalhost.isQualified (h : IsBareLocalhost cs image target) :
    (onLocalhost image target).IsQualified := by
  obtain ⟨himage, suffix, hsuffix, -⟩ := h
  have hhost : isHost "localhost".toList = true := by decide
  refine ⟨hhost, ?_, hsuffix.isValid⟩
  intro component hcomponent
  rw [onLocalhost, components_of_word himage] at hcomponent
  rw [List.mem_singleton.1 hcomponent]
  exact himage

/-- The canonical text is ambiguous in the same way. -/
theorem IsBareLocalhost.parse_text (h : IsBareLocalhost cs image target) :
    parse (onLocalhost image target).text =
      .error (.ambiguousReference (onLocalhost image target).text
        (localhostReadings image target)) := by
  have hblank : ∀ c ∈ (onLocalhost image target).text.toList, Text.isBlank c = false := by
    intro c hc
    rcases h.isQualified.mem_text hc with rfl | rfl | hchar
    · decide
    · decide
    · exact isBlank_eq_false_of_isReferenceChar hchar
  have htrim : Text.trim (onLocalhost image target).text.toList =
      (onLocalhost image target).text.toList := by
    apply Text.trim_eq_self
    · intro c hc
      exact hblank c (List.mem_of_mem_head? hc)
    · intro c hc
      exact hblank c (List.mem_of_getLast? hc)
  have hreadings : readings (Text.trim (onLocalhost image target).text.toList) =
      localhostReadings image target := by
    rw [htrim]
    exact h.spelled_out.readings_eq
  have hparse := parse_eq_ambiguous_iff.2 ⟨hreadings, (by simp [localhostReadings])⟩
  rwa [htrim, String.ofList_toList] at hparse

/-- No text is read as the image on a bare `localhost`, whose repository would need a second
    component. -/
theorem IsBareLocalhost.parse_ne (h : IsBareLocalhost cs image target) (s : String) :
    parse s ≠ .ok (onLocalhost image target) := by
  intro hparse
  obtain ⟨components, -, -, hrepository, hdepth⟩ := (isCanonical_of_parse hparse).repository
  have himage : isComponent image = true := h.1
  have hlength : 2 ≤ components.length := hdepth (.inr rfl)
  have hjoined : image = List.intercalate ['/'] components := by
    simpa [onLocalhost] using hrepository
  rw [hjoined, isComponent_joined_eq_false hlength] at himage
  cases himage

/-! ### The reading on the hub -/

theorem isCanonical_ofLocalhostUser (himage : isComponent image = true) (h : target.IsValid) :
    (ofLocalhostUser image target).IsCanonical := by
  have hrepository : "localhost/" ++ String.ofList image =
      String.ofList ("localhost".toList ++ '/' :: image) := by
    rw [← String.toList_inj]
    simp [String.toList_append]
  rw [ofLocalhostUser, hrepository]
  exact isCanonical_hub (by decide) himage h

/-! ### The report -/

def adviceLines (input : String) (rs : List Reference) : List String :=
  ("'" ++ input ++ "' is ambiguous, it could mean:") :: rs.map (fun r => "  - " ++ r.text)
    ++ ["Spell out the registry host or namespace."]

/-- The report has one line for each reading, since neither the input nor a reference breaks a line.
    -/
theorem splitOn_describe {input : String} {rs : List Reference} (hne : rs ≠ [])
    (hinput : '\n' ∉ input.toList) (hrs : ∀ r ∈ rs, '\n' ∉ r.text.toList) :
    (Failure.ambiguousReference input rs).describe.toList.splitOn '\n' =
      (adviceLines input rs).map String.toList := by
  have htext : (Failure.ambiguousReference input rs).describe.toList =
      ("'" ++ input ++ "' is ambiguous, it could mean:").toList ++
        '\n' :: (List.intercalate ['\n'] (rs.map fun r => ("  - " ++ r.text).toList) ++
          '\n' :: "Spell out the registry host or namespace.".toList) := by
    simp [Failure.describe, String.toList_append, String.toList_intercalate, Function.comp_def]
  have hfirst : '\n' ∉ ("'" ++ input ++ "' is ambiguous, it could mean:").toList := by
    simpa [String.toList_append] using hinput
  have hlast : '\n' ∉ "Spell out the registry host or namespace.".toList := by decide
  have hlisted : ∀ line ∈ rs.map fun r => ("  - " ++ r.text).toList, '\n' ∉ line := by
    intro line hline
    obtain ⟨r, hr, rfl⟩ := List.mem_map.1 hline
    simpa [String.toList_append] using hrs r hr
  rw [htext, List.splitOn_append_cons_self_of_not_mem hfirst, List.splitOn_append_cons_self,
    List.splitOn_intercalate '\n' hlisted (by simpa using hne), List.splitOn_eq_singleton hlast]
  simp [adviceLines, Function.comp_def]

/-- An ambiguity always is between the host and the user `localhost`. -/
theorem exists_of_parse_ambiguous {s input : String} {rs : List Reference}
    (h : parse s = .error (.ambiguousReference input rs)) :
    ∃ image target, IsBareLocalhost input.toList image target ∧
      rs = [onLocalhost image target, ofLocalhostUser image target] := by
  obtain ⟨image, target, hbare⟩ :=
    two_le_length_readings_iff.1 (exists_parse_eq_ambiguous_iff.1 ⟨input, rs, h⟩)
  have hparse := parse_eq_ambiguous_iff.2 ⟨hbare.readings_eq, by simp [localhostReadings]⟩
  obtain ⟨rfl, rfl⟩ := Failure.ambiguousReference.inj (Except.error.inj (h.symm.trans hparse))
  refine ⟨image, target, ?_, rfl⟩
  rw [String.toList_ofList]
  exact hbare

/-- An ambiguous text is reported with both its readings, in order and each on a line of its own.  The
    line of the reading on the hub is read as that reading.  The line of the reading on a bare
    `localhost` has the same two readings again, and no other text is read as it either. -/
theorem advice_reaches_hub_only {s input : String} {rs : List Reference}
    (h : parse s = .error (.ambiguousReference input rs)) :
    (Failure.ambiguousReference input rs).describe.toList.splitOn '\n' =
      (adviceLines input rs).map String.toList ∧
    ∃ image target, rs = [onLocalhost image target, ofLocalhostUser image target] ∧
      parse (ofLocalhostUser image target).text = .ok (ofLocalhostUser image target) ∧
      parse (onLocalhost image target).text =
        .error (.ambiguousReference (onLocalhost image target).text rs) ∧
      ∀ t, parse t ≠ .ok (onLocalhost image target) := by
  obtain ⟨image, target, hbare, rfl⟩ := exists_of_parse_ambiguous h
  have hhub : (ofLocalhostUser image target).IsCanonical :=
    isCanonical_ofLocalhostUser hbare.1 hbare.isQualified.target
  have hbreak : ∀ r : Reference, r.IsQualified → '\n' ∉ r.text.toList := by
    intro r hr hmem
    rcases hr.mem_text hmem with hslash | hat | hchar
    · exact absurd hslash (by decide)
    · exact absurd hat (by decide)
    · exact absurd hchar (by decide)
  refine ⟨?_, image, target, rfl, parse_text hhub, hbare.parse_text, hbare.parse_ne⟩
  apply splitOn_describe
  · simp
  · intro hmem
    exact hbreak _ hbare.isQualified (hbare.mem_text hmem)
  · intro r hr
    apply hbreak
    rcases List.mem_cons.1 hr with rfl | hr
    · exact hbare.isQualified
    · rw [List.mem_singleton.1 hr]
      exact hhub.isQualified

/-- The line for the user `localhost` settles the matter. -/
theorem advice_reaches_hub_only_tagged :
    let rs : List Reference := [⟨"localhost", "app", .tag "1.0"⟩,
      ⟨"registry-1.docker.io", "localhost/app", .tag "1.0"⟩]
    parse " localhost/app:1.0" = .error (.ambiguousReference "localhost/app:1.0" rs) ∧
      (Failure.ambiguousReference "localhost/app:1.0" rs).describe.toList.splitOn '\n' =
        ["'localhost/app:1.0' is ambiguous, it could mean:".toList, "  - localhost/app:1.0".toList,
          "  - registry-1.docker.io/localhost/app:1.0".toList,
          "Spell out the registry host or namespace.".toList] ∧
      ∃ r ∈ rs, parse r.text = .ok r := by
  intro rs
  have hparse : parse " localhost/app:1.0" =
      .error (.ambiguousReference "localhost/app:1.0" rs) := by
    decide +kernel
  obtain ⟨hlines, image, target, hrs, hhub, -⟩ := advice_reaches_hub_only hparse
  refine ⟨hparse, ?_, _, ?_, hhub⟩
  · rw [hlines]
    decide +kernel
  · rw [hrs]
    simp

/-- The line for the host `localhost` is as ambiguous as the text was. -/
theorem advice_leads_back :
    ∃ rs, parse "localhost/app" = .error (.ambiguousReference "localhost/app" rs) ∧
      (∃ r ∈ rs, r.text = "localhost/app:latest") ∧
      parse "localhost/app:latest" = .error (.ambiguousReference "localhost/app:latest" rs) ∧
      ¬∀ r ∈ rs, parse r.text = .ok r := by
  let rs : List Reference := [⟨"localhost", "app", .tag "latest"⟩,
    ⟨"registry-1.docker.io", "localhost/app", .tag "latest"⟩]
  have hparse : parse "localhost/app" = .error (.ambiguousReference "localhost/app" rs) := by
    decide +kernel
  have hback : parse "localhost/app:latest" =
      .error (.ambiguousReference "localhost/app:latest" rs) := by
    decide +kernel
  have htext : (⟨"localhost", "app", .tag "latest"⟩ : Reference).text = "localhost/app:latest" := by
    decide +kernel
  refine ⟨rs, hparse, ⟨_, List.mem_cons_self, htext⟩, hback, ?_⟩
  intro hall
  have hlocal := hall _ List.mem_cons_self
  rw [htext, hback] at hlocal
  cases hlocal

end ImageLookup.Reference
