import ImageLookup.Proofs.Reference.Grammar

/-! # Ambiguous references

The number of slashes in a name leaves one production to read it, except where that number is one:
then the part in front may be a host and a user name.  A host that is a user name has neither a dot
nor a port, so it is a bare `localhost`.  The texts that begin with one have two readings, and no
other text has more than one.
-/

namespace ImageLookup.Reference

variable {cs name image : List Char} {target : Target} {r r' : Reference}

/-- A bare `localhost`, one component, and a suffix that gives the target. -/
def IsBareLocalhost (cs image : List Char) (target : Target) : Prop :=
  isComponent image = true ∧
    ∃ suffix, IsSuffix suffix target ∧ cs = "localhost/".toList ++ image ++ suffix

/-- An image on a bare `localhost`, and the image of the user `localhost` on the hub. -/
def localhostReadings (image : List Char) (target : Target) : List Reference :=
  [⟨"localhost", String.ofList image, target⟩,
    ⟨"registry-1.docker.io", "localhost/" ++ String.ofList image, target⟩]

/-! ### Two readings -/

/-- No other two productions read the same name, since the number of slashes tells them apart. -/
theorem Production.hosted_and_user {p p' : Production} (hp : p.read? name target = some r)
    (hp' : p'.read? name target = some r') (hne : p ≠ p') :
    (p = .hostedImage ∧ p' = .hubUser) ∨ (p = .hubUser ∧ p' = .hostedImage) := by
  have heq := eq_telling hp
  have heq' := eq_telling hp'
  unfold telling at heq heq'
  -- away from one slash both are told by the name alone
  by_cases hzero : name.count '/' = 0
  · rw [if_pos hzero] at heq heq'
    exact absurd (heq.trans heq'.symm) hne
  rw [if_neg hzero] at heq heq'
  by_cases hone : name.count '/' ≠ 1
  · rw [if_pos hone] at heq heq'
    exact absurd (heq.trans heq'.symm) hne
  rw [if_neg hone] at heq heq'
  by_cases hhub : r.host ∈ hubHosts <;> by_cases hhub' : r'.host ∈ hubHosts <;>
    simp_all

/-- A host without a port and without a dot is `localhost`. -/
theorem eq_localhost_of_both (hhosted : hostedImage? name target = some r)
    (huser : hubUser? name target = some r') :
    ∃ image, isComponent image = true ∧ name = "localhost/".toList ++ image := by
  obtain ⟨host, image, hhost, himage, -, hname, -⟩ := hostedImage?_eq_some_iff.1 hhosted
  obtain ⟨user, image', huser, -, hname', -⟩ := hubUser?_eq_some_iff.1 huser
  obtain ⟨rfl, rfl⟩ := eq_and_eq_of_append_slash (slash_beq_eq_false_of_isHost hhost)
    (slash_beq_eq_false_of_isComponent (isComponent_of_isUserName huser)) (hname.symm.trans hname')
  obtain rfl := eq_localhost_of_isHost_of_isUserName hhost huser
  exact ⟨image, himage, hname⟩

theorem exists_isBareLocalhost (h : 2 ≤ (readings cs).length) :
    ∃ image target, IsBareLocalhost cs image target := by
  match hreadings : readings cs with
  | [] => simp [hreadings] at h
  | [r] => simp [hreadings] at h
  | r :: r' :: rest =>
    have hne : r ≠ r' := by
      have hnodup := nodup_readings cs
      rw [hreadings] at hnodup
      exact fun heq => (List.nodup_cons.1 hnodup).1 (heq ▸ List.mem_cons_self)
    obtain ⟨p, hp⟩ := mem_readings_iff.1 (by rw [hreadings]; simp : r ∈ readings cs)
    obtain ⟨p', hp'⟩ := mem_readings_iff.1 (by rw [hreadings]; simp : r' ∈ readings cs)
    have hproductions : p ≠ p' := by
      rintro rfl
      exact hne (hp.unique hp')
    obtain ⟨name, target, hsplit, hread⟩ := hp.read?
    obtain ⟨name', target', hsplit', hread'⟩ := hp'.read?
    obtain ⟨rfl, rfl⟩ := Prod.mk.inj (Option.some.inj (hsplit.symm.trans hsplit'))
    have hlocal : ∃ image, isComponent image = true ∧ name = "localhost/".toList ++ image := by
      rcases Production.hosted_and_user hread hread' hproductions with ⟨rfl, rfl⟩ | ⟨rfl, rfl⟩
      · exact eq_localhost_of_both hread hread'
      · exact eq_localhost_of_both hread' hread
    obtain ⟨image, himage, rfl⟩ := hlocal
    obtain ⟨suffix, rfl, hsuffix⟩ := exists_suffix_of_splitTarget? hsplit
    exact ⟨image, target, himage, suffix, hsuffix, rfl⟩

theorem IsBareLocalhost.readings_eq (h : IsBareLocalhost cs image target) :
    readings cs = localhostReadings image target := by
  obtain ⟨himage, suffix, hsuffix, rfl⟩ := h
  have hname : "localhost/".toList ++ image = "localhost".toList ++ '/' :: image := by simp
  have hhost : isHost "localhost".toList = true := by decide
  have huser : isUserName "localhost".toList = true := by decide
  have hhub : String.ofList "localhost".toList ∉ hubHosts := by decide
  have hrepository : String.ofList ("localhost".toList ++ '/' :: image) =
      "localhost/" ++ String.ofList image := by
    rw [← hname, String.ofList_append, String.ofList_toList]
  have hsplit := splitTarget?_path "localhost".toList himage hsuffix
  have hpath := hostedPath?_eq_none hhost target himage
  have hhosted : hostedImage? ("localhost".toList ++ '/' :: image) target = some _ :=
    hostedImage?_eq_some_iff.2 ⟨"localhost".toList, image, hhost, himage, hhub, rfl, rfl⟩
  have honHub : hubUser? ("localhost".toList ++ '/' :: image) target = some _ :=
    hubUser?_eq_some_iff.2 ⟨"localhost".toList, image, huser, himage, rfl, rfl⟩
  have hlibrary := hubImage?_eq_none "localhost".toList image target
  rw [hname, readings, hsplit]
  simp only [List.filterMap_cons, List.filterMap_nil, hpath, hhosted, honHub, hlibrary,
    hrepository, String.ofList_toList, localhostReadings, hubHost]

theorem two_le_length_readings_iff :
    2 ≤ (readings cs).length ↔ ∃ image target, IsBareLocalhost cs image target := by
  constructor
  · exact exists_isBareLocalhost
  · rintro ⟨image, target, h⟩
    rw [h.readings_eq]
    exact Nat.le_refl 2

/-- Two readings are the most there can be. -/
theorem length_readings_le (cs : List Char) : (readings cs).length ≤ 2 := by
  by_contra hmore
  have htwo : 2 ≤ (readings cs).length := by omega
  obtain ⟨image, target, h⟩ := exists_isBareLocalhost htwo
  rw [h.readings_eq] at hmore
  exact hmore (Nat.le_refl 2)

theorem exists_parse_eq_ambiguous_iff {s : String} :
    (∃ input rs, parse s = .error (.ambiguousReference input rs)) ↔
      2 ≤ (readings (Text.trim s.toList)).length := by
  constructor
  · rintro ⟨input, rs, h⟩
    by_contra hfew
    match hreadings : readings (Text.trim s.toList) with
    | [] =>
      rw [parse_eq_unparseable_iff.2 hreadings] at h
      cases h
    | [r] =>
      rw [parse_eq_ok_iff.2 hreadings] at h
      cases h
    | r :: r' :: rest =>
      rw [hreadings] at hfew
      simp at hfew
  · intro h
    exact ⟨_, _, parse_eq_ambiguous_iff.2 ⟨rfl, h⟩⟩

/-- A text has at most two readings, and two only if it is a bare `localhost` with one component
    behind it.  Those texts are ambiguous between the image on that host and the image of that user
    on the hub, in this order and with the same target; all others have one reading at most. -/
theorem ambiguous_iff_bare_localhost :
    (∀ t, (readings t).length ≤ 2) ∧
    (∀ (s : String) t, Text.IsTrimOf t s.toList →
      ((∃ input rs, parse s = .error (.ambiguousReference input rs)) ↔
        ∃ image target, IsBareLocalhost t image target)) ∧
    (∀ t image target, IsBareLocalhost t image target →
      readings t = localhostReadings image target ∧
      ∀ s : String, Text.IsTrimOf t s.toList →
        parse s = .error
          (.ambiguousReference (String.ofList t) (localhostReadings image target))) ∧
    (∀ t, (¬∃ image target, IsBareLocalhost t image target) → (readings t).length ≤ 1) := by
  refine ⟨length_readings_le, ?_, ?_, ?_⟩
  · intro s t ht
    obtain rfl := ht.eq_trim
    exact exists_parse_eq_ambiguous_iff.trans two_le_length_readings_iff
  · intro t image target h
    refine ⟨h.readings_eq, fun s ht => ?_⟩
    obtain rfl := ht.eq_trim
    refine parse_eq_ambiguous_iff.2 ⟨h.readings_eq, ?_⟩
    exact Nat.le_refl 2
  · intro t hnone
    have hfew := mt two_le_length_readings_iff.1 hnone
    omega

/-- A digest behind a bare `localhost`, and a deeper path, which is not ambiguous. -/
theorem ambiguous_iff_bare_localhost_digest :
    let target : Target := .digest ⟨"x+y", "Z=", by decide +kernel⟩
    IsBareLocalhost "localhost/app@x+y:Z=".toList "app".toList target ∧
      readings "localhost/app@x+y:Z=".toList =
        [⟨"localhost", "app", target⟩, ⟨"registry-1.docker.io", "localhost/app", target⟩] ∧
      Text.IsTrimOf "localhost/app@x+y:Z=".toList "\tlocalhost/app@x+y:Z=".toList ∧
      (∃ input rs, parse "\tlocalhost/app@x+y:Z=" = .error (.ambiguousReference input rs)) ∧
      (¬∃ image target, IsBareLocalhost "localhost/a/b".toList image target) ∧
      (readings "localhost/a/b".toList).length ≤ 1 := by
  intro target
  have hsuffix : IsSuffix "@x+y:Z=".toList target := .digest (by rfl)
  have hbare : IsBareLocalhost "localhost/app@x+y:Z=".toList "app".toList target :=
    ⟨by decide, _, hsuffix, by decide⟩
  have hblanks : Text.trim "\tlocalhost/app@x+y:Z=".toList = "localhost/app@x+y:Z=".toList := by
    decide +kernel
  have htrim : Text.IsTrimOf "localhost/app@x+y:Z=".toList "\tlocalhost/app@x+y:Z=".toList :=
    hblanks ▸ Text.isTrimOf_trim _
  have hdeep : ¬∃ image target, IsBareLocalhost "localhost/a/b".toList image target :=
    mt two_le_length_readings_iff.2 (by decide +kernel)
  obtain ⟨-, hparse, hreadings, hfew⟩ := ambiguous_iff_bare_localhost
  exact ⟨hbare, (hreadings _ _ _ hbare).1, htrim, (hparse _ _ htrim).2 ⟨_, _, hbare⟩, hdeep,
    hfew _ hdeep⟩

end ImageLookup.Reference
