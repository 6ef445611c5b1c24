import ImageLookup.Proofs.Reference.Grammar

/-! # Qualified references

Reading a text fills in whatever the text leaves out, so every reading has a host, at least one
component and a valid target, even where the text is ambiguous and `parse` picks none.  Such a
reference is told from all others by its canonical text: the suffix is cut off where it meets the last
component, and the first slash ends the host.
-/

namespace ImageLookup.Reference

/-- A reference that some text is read as, or could be. -/
def IsReading (r : Reference) : Prop := (∃ s, parse s = .ok r) ∨ ∃ t, r ∈ readings t

theorem components_of_word {host : String} {word : List Char} {target : Target}
    (hword : isComponent word = true) :
    components ⟨host, String.ofList word, target⟩ = [word] := by
  rw [components, String.toList_ofList]
  exact List.splitOn_eq_singleton (slash_not_mem_component hword)

theorem components_of_pair {host : String} {first second : List Char} {target : Target}
    (hfirst : isComponent first = true) (hsecond : isComponent second = true) :
    components ⟨host, String.ofList (first ++ '/' :: second), target⟩ = [first, second] := by
  rw [components, String.toList_ofList, List.splitOn_append_cons_self,
    List.splitOn_eq_singleton (slash_not_mem_component hfirst),
    List.splitOn_eq_singleton (slash_not_mem_component hsecond)]
  rfl

theorem IsSuffix.isValid {suffix : List Char} {target : Target} (h : IsSuffix suffix target) :
    target.IsValid := by
  rcases h.eq_nil_or_eq with ⟨-, rfl⟩ | ⟨-, hvalid⟩
  · exact isValid_latest
  · exact hvalid

/-- One case for each production. -/
theorem Production.Derives.isQualified {p : Production} {cs : List Char} {r : Reference}
    (h : p.Derives cs r) : r.IsQualified := by
  cases h with
  | @hostedPath host components suffix target hhost hlength hall hsuffix =>
    refine ⟨by simpa using hhost, ?_, hsuffix.isValid⟩
    rw [Reference.components, String.toList_ofList, splitOn_joined _ hall]
    · exact hall
    · rintro rfl
      simp at hlength
  | @hostedImage host image suffix target hhost hhub himage hsuffix =>
    refine ⟨by simpa using hhost, ?_, hsuffix.isValid⟩
    rw [components_of_word himage]
    simpa using himage
  | @hubUser user image suffix target huser himage hsuffix =>
    have huser := isComponent_of_isUserName huser
    refine ⟨isHost_hubHost, ?_, hsuffix.isValid⟩
    rw [components_of_pair huser himage]
    simp [huser, himage]
  | @hubImage image suffix target himage hsuffix =>
    refine ⟨isHost_hubHost, ?_, hsuffix.isValid⟩
    rw [hubLibrary_append, components_of_pair isComponent_hubLibrary himage]
    simp [isComponent_hubLibrary, himage]

theorem IsReading.isQualified {r : Reference} (h : r.IsReading) : r.IsQualified := by
  have hmem : ∃ t, r ∈ readings t := by
    rcases h with ⟨s, hs⟩ | h
    · exact ⟨_, by rw [parse_eq_ok_iff.1 hs]; exact List.mem_singleton_self r⟩
    · exact h
  obtain ⟨t, ht⟩ := hmem
  obtain ⟨p, hderives⟩ := mem_readings_iff.1 ht
  exact hderives.isQualified

/-! ### Characters of canonical texts -/

theorem IsQualified.mem_repository {r : Reference} (h : r.IsQualified) {c : Char}
    (hc : c ∈ r.repository.toList) : c = '/' ∨ isReferenceChar c = true := by
  by_cases hslash : c = '/'
  · exact .inl hslash
  right
  have hother : (c == '/') = false := beq_eq_false_iff_ne.2 hslash
  obtain ⟨component, hcomponent, hmem⟩ :=
    Digest.mem_splitOnP_of_mem (p := (· == '/')) hc hother
  rw [← List.splitOn_eq_splitOnP] at hcomponent
  have hword : isComponent component = true := h.components component hcomponent
  exact isReferenceChar_of_isNameChar (isNameChar_of_mem_component hword c hmem)

/-- A canonical text has no blank, no quote and no control character. -/
theorem IsQualified.mem_text {r : Reference} (h : r.IsQualified) {c : Char}
    (hc : c ∈ r.text.toList) : c = '/' ∨ c = '@' ∨ isReferenceChar c = true := by
  have htext : r.text.toList =
      r.host.toList ++ '/' :: (r.repository.toList ++ r.target.suffix.toList) := by
    simp [text, String.toList_append]
  rw [htext, List.mem_append, List.mem_cons, List.mem_append] at hc
  rcases hc with hc | rfl | hc | hc
  · exact .inr (.inr (isReferenceChar_of_mem_host h.host hc))
  · exact .inl rfl
  · exact (h.mem_repository hc).imp_right .inr
  · exact .inr (isReferenceChar_of_mem_suffix h.target hc)

/-- The canonical text tells qualified references apart. -/
theorem IsQualified.eq_of_text_eq {r r' : Reference} (h : r.IsQualified) (h' : r'.IsQualified)
    (heq : r.text = r'.text) : r = r' := by
  have hsplit := splitTarget?_text h
  rw [heq, splitTarget?_text h'] at hsplit
  obtain ⟨hname, htarget⟩ := Prod.mk.inj (Option.some.inj hsplit)
  obtain ⟨hhost, hrepository⟩ := eq_and_eq_of_append_slash (slash_beq_eq_false_of_isHost h'.host)
    (slash_beq_eq_false_of_isHost h.host) hname
  exact Reference.ext (String.toList_inj.1 hhost.symm) (String.toList_inj.1 hrepository.symm)
    htarget.symm

end ImageLookup.Reference
