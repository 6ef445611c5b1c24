import ImageLookup.Proofs.Challenge.Splitting

/-! # Where headers are cut

Any header at all is split, also one with quotes that do not close.  It is cut at the commas that stand
outside of quotes, as seen from its start, with the beginning of a challenge behind them; what lies
between two cuts is kept without the blanks around it, or not at all if there is nothing else
(`Divides`).

Whether a comma is a cut depends on the text behind it, which the challenge that it stands in need not
have any more.  But a comma that is no cut in the header is none in the challenge either: a text
that starts a scheme still does when it goes on with blanks and a comma (`startsScheme_append`).  So
a challenge is not split again.
-/

namespace ImageLookup.Challenge

/-- Where a reader stands with respect to quotes when it has read a text. -/
def quotingBehind (cs : List Char) : Quoting := cs.foldl Quoting.step .outside

/-- A header is cut at a comma with these texts before and behind it. -/
structure IsCut (before behind : List Char) : Prop where
  outside : quotingBehind before = .outside
  starts : startsScheme behind = true

/-- A part of a header is not cut at any of its own commas. -/
def Uncut (before part behind : List Char) : Prop :=
  ∀ first rest, part = first ++ ',' :: rest → ¬IsCut (before ++ first) (rest ++ behind)

/-- A challenge as it is kept. -/
structure IsSlice (cs : List Char) : Prop where
  ne_nil : cs ≠ []
  head : ∀ c, cs.head? = some c → Text.isBlank c = false
  last : ∀ c, cs.getLast? = some c → Text.isBlank c = false

/-- What is kept of a part: what stands between the blanks around it, if anything does. -/
inductive Keeps : List Char → List (List Char) → Prop where
  | nothing {part : List Char} (h : IsBlanks part) : Keeps part []
  | slice {lead slice after : List Char} (hlead : IsBlanks lead) (hslice : IsSlice slice)
      (hafter : IsBlanks after) : Keeps (lead ++ (slice ++ after)) [slice]

/-- The rest of a header, behind the text `before`, is divided at its cuts. -/
inductive Divides : List Char → List Char → List (List Char) → Prop where
  | last {before part : List Char} {kept : List (List Char)} (huncut : Uncut before part [])
      (hkept : Keeps part kept) : Divides before part kept
  | cut {before part rest : List Char} {kept slices : List (List Char)}
      (huncut : Uncut before part (',' :: rest)) (hcut : IsCut (before ++ part) rest)
      (hkept : Keeps part kept) (hrest : Divides (before ++ part ++ [',']) rest slices) :
      Divides before (part ++ ',' :: rest) (kept ++ slices)

section

variable {before part behind rest : List Char} {kept slices : List (List Char)} {c : Char}

/-! ### Quotes -/

theorem quotingBehind_append (cs ds : List Char) :
    quotingBehind (cs ++ ds) = ds.foldl Quoting.step (quotingBehind cs) := List.foldl_append

theorem quotingBehind_comma (h : quotingBehind before = .outside) :
    quotingBehind (before ++ [',']) = .outside := by
  rw [quotingBehind_append, h]
  rfl

theorem foldl_step_blanks {blanks : List Char} (h : IsBlanks blanks) :
    blanks.foldl Quoting.step .outside = .outside := by
  induction blanks with
  | nil => rfl
  | cons c blanks ih =>
    have hquote : c ≠ '"' := by
      rintro rfl
      exact absurd (h _ List.mem_cons_self) (by decide)
    have hstep : Quoting.outside.step c = .outside := if_neg hquote
    rw [List.foldl_cons, hstep]
    exact ih fun d hd => h d (List.mem_cons_of_mem _ hd)

/-- Outside of quotes a reader may as well start anew. -/
theorem quotingBehind_restart {lead : List Char} (h : quotingBehind before = .outside)
    (hlead : IsBlanks lead) (cs : List Char) :
    quotingBehind (before ++ (lead ++ cs)) = quotingBehind cs := by
  rw [quotingBehind_append, h, List.foldl_append, foldl_step_blanks hlead]
  rfl

/-! ### Beginnings of challenges -/

/-- What ends words, or nothing at all, follows a part of a header. -/
theorem endsWord_of_head? {after : List Char} (hafter : IsBlanks after)
    (hbehind : ∀ c, behind.head? = some c → c = ',') :
    ∀ c, (after ++ behind).head? = some c → endsWord c = true := by
  intro c hc
  cases after with
  | nil =>
    obtain rfl := hbehind c hc
    rfl
  | cons b after =>
    obtain rfl : b = c := Option.some.inj hc
    simp [endsWord, hafter b List.mem_cons_self]

theorem trimStart_head?_ne {after : List Char} (hafter : IsBlanks after)
    (hbehind : ∀ c, behind.head? = some c → c = ',') (hrest : (Text.trimStart rest).head? ≠ some '=') :
    (Text.trimStart (rest ++ (after ++ behind))).head? ≠ some '=' := by
  have hsplit := Text.takeWhile_append_trimStart rest
  have hlead : IsBlanks (rest.takeWhile Text.isBlank) := List.all_eq_true.1 List.all_takeWhile
  cases htrim : Text.trimStart rest with
  | nil =>
    -- nothing but blanks comes before `behind`, and blanks do not end in an equals sign
    rw [htrim, List.append_nil] at hsplit
    rw [hsplit] at hlead
    rw [Text.trimStart_append_of_blank hlead, Text.trimStart_append_of_blank hafter]
    cases behind with
    | nil => simp
    | cons c behind =>
      obtain rfl : c = ',' := hbehind c rfl
      rw [Text.trimStart_eq_self]
      · simp
      · rintro c ⟨⟩
        rfl
  | cons c tail =>
    have hblank := Text.isBlank_head_trimStart rest (c := c) (by rw [htrim]; rfl)
    rw [htrim] at hrest hsplit
    have hstart : Text.trimStart (c :: tail ++ (after ++ behind)) = c :: tail ++ (after ++ behind) := by
      apply Text.trimStart_eq_self
      rintro d ⟨⟩
      exact hblank
    rw [← hsplit, List.append_assoc, Text.trimStart_append_of_blank hlead, hstart]
    exact hrest

/-- A text that starts a scheme still does with blanks behind it, and a comma or nothing after
    these. -/
theorem startsScheme_append {cs after : List Char} (h : startsScheme cs = true)
    (hafter : IsBlanks after) (hbehind : ∀ c, behind.head? = some c → c = ',') :
    startsScheme (cs ++ (after ++ behind)) = true := by
  rw [startsScheme, Bool.and_eq_true, bne_iff_ne, Bool.not_eq_true', List.isEmpty_eq_false_iff] at h
  obtain ⟨hne, hrest⟩ := h
  have hlead : IsBlanks (cs.takeWhile Text.isBlank) := List.all_eq_true.1 List.all_takeWhile
  have hword : ∀ c ∈ (Text.trimStart cs).takeWhile (fun c => !endsWord c), endsWord c = false := by
    intro c hc
    have hplain := List.all_eq_true.1 List.all_takeWhile c hc
    rwa [Bool.not_eq_true'] at hplain
  have hends : ∀ c, ((Text.trimStart cs).dropWhile (fun c => !endsWord c) ++
      (after ++ behind)).head? = some c → endsWord c = true := by
    intro c hc
    cases hdrop : (Text.trimStart cs).dropWhile (fun c => !endsWord c) with
    | nil =>
      rw [hdrop, List.nil_append] at hc
      exact endsWord_of_head? hafter hbehind c hc
    | cons d tail =>
      rw [hdrop] at hc
      obtain rfl : d = c := Option.some.inj hc
      have hstop := List.head?_dropWhile_not (fun c => !endsWord c) (Text.trimStart cs)
      rw [hdrop] at hstop
      simpa using hstop
  have hcs : cs = cs.takeWhile Text.isBlank ++
      ((Text.trimStart cs).takeWhile (fun c => !endsWord c) ++
        (Text.trimStart cs).dropWhile fun c => !endsWord c) := by
    rw [List.takeWhile_append_dropWhile, Text.takeWhile_append_trimStart]
  rw [hcs, List.append_assoc, List.append_assoc, startsScheme_word hlead hne hword hends, bne_iff_ne]
  exact trimStart_head?_ne hafter hbehind hrest

/-! ### Parts -/

theorem uncut_nil (before behind : List Char) : Uncut before [] behind := by
  intro first rest h
  cases first <;> cases h

theorem Uncut.cons (hc : c = ',' → ¬IsCut before (part ++ behind))
    (h : Uncut (before ++ [c]) part behind) : Uncut before (c :: part) behind := by
  intro first rest heq
  cases first with
  | nil =>
    obtain ⟨rfl, rfl⟩ := List.cons.inj heq
    rw [List.append_nil]
    exact hc rfl
  | cons d first =>
    obtain ⟨rfl, rfl⟩ := List.cons.inj heq
    have hrest := h first rest rfl
    rwa [List.append_assoc] at hrest

theorem Uncut.tail (h : Uncut before (c :: part) behind) : Uncut (before ++ [c]) part behind := by
  rintro first rest rfl
  rw [List.append_assoc]
  exact h (c :: first) rest rfl

/-- The splitter takes a part as a whole. -/
theorem Uncut.stretches_append (h : Uncut before part behind) :
    stretches (quotingBehind before) (part ++ behind) =
      (stretches (quotingBehind (before ++ part)) behind).modifyHead (part ++ ·) := by
  induction part generalizing before with
  | nil =>
    rw [List.append_nil, List.nil_append, modifyHead_nil_append]
  | cons c part ih =>
    have hkept : ¬(quotingBehind before = .outside ∧ c = ',' ∧
        startsScheme (part ++ behind) = true) := by
      rintro ⟨houtside, rfl, hstarts⟩
      refine h [] part rfl ⟨?_, hstarts⟩
      rwa [List.append_nil]
    have hstep : (quotingBehind before).step c = quotingBehind (before ++ [c]) := by
      rw [quotingBehind_append]
      rfl
    rw [List.cons_append, stretches_cons hkept, hstep, ih h.tail, List.modifyHead_modifyHead,
      List.append_assoc]
    rfl

/-- The first cut of a text, if it has one. -/
theorem exists_cut (before cs : List Char) :
    Uncut before cs [] ∨ ∃ part rest, cs = part ++ ',' :: rest ∧
      Uncut before part (',' :: rest) ∧ IsCut (before ++ part) rest := by
  induction cs generalizing before with
  | nil => exact .inl (uncut_nil before [])
  | cons c cs ih =>
    by_cases hc : c = ',' ∧ IsCut before cs
    · obtain ⟨rfl, hcut⟩ := hc
      refine .inr ⟨[], cs, rfl, uncut_nil before _, ?_⟩
      rwa [List.append_nil]
    · rcases ih (before ++ [c]) with huncut | ⟨part, rest, rfl, huncut, hcut⟩
      · refine .inl (huncut.cons fun heq hcut => hc ⟨heq, ?_⟩)
        rwa [List.append_nil] at hcut
      · refine .inr ⟨c :: part, rest, rfl, huncut.cons fun heq hcut => hc ⟨heq, hcut⟩, ?_⟩
        rwa [List.append_assoc] at hcut

/-! ### What is kept -/

theorem Keeps.eq (h : Keeps part kept) :
    kept = [Text.trim part].filter fun cs => !cs.isEmpty := by
  cases h with
  | nothing hblank =>
    have htrim : [] = Text.trim part := by
      apply Text.IsTrimOf.eq_trim
      refine ⟨⟨part, [], by simp, hblank, List.forall_mem_nil _⟩, ?_, ?_⟩
      · rintro c ⟨⟩
      · rintro c ⟨⟩
    rw [← htrim]
    rfl
  | @slice lead slice after hlead hslice hafter =>
    have htrim : slice = Text.trim (lead ++ (slice ++ after)) :=
      Text.IsTrimOf.eq_trim ⟨⟨lead, after, (List.append_assoc ..).symm, hlead, hafter⟩, hslice.head,
        hslice.last⟩
    have hne := hslice.ne_nil
    rw [← htrim]
    simp [hne]

theorem keeps_trim (part : List Char) :
    Keeps part ([Text.trim part].filter fun cs => !cs.isEmpty) := by
  obtain ⟨⟨lead, after, hpart, hlead, hafter⟩, hhead, hlast⟩ := Text.isTrimOf_trim part
  cases htrim : Text.trim part with
  | nil =>
    rw [htrim, List.append_nil] at hpart
    refine .nothing ?_
    rw [hpart]
    intro c hc
    rcases List.mem_append.1 hc with hc | hc
    · exact hlead c hc
    · exact hafter c hc
  | cons c cs =>
    rw [htrim] at hpart hhead hlast
    have hslice : IsSlice (c :: cs) := ⟨List.cons_ne_nil c cs, hhead, hlast⟩
    rw [hpart, List.append_assoc]
    exact .slice hlead hslice hafter

/-! ### Division -/

/-- By induction on the length, from one cut to the next. -/
theorem exists_divides (before cs : List Char) : ∃ slices, Divides before cs slices := by
  rcases exists_cut before cs with huncut | ⟨part, rest, hcs, huncut, hcut⟩
  · exact ⟨_, .last huncut (keeps_trim cs)⟩
  · obtain ⟨slices, hrest⟩ := exists_divides (before ++ part ++ [',']) rest
    rw [hcs]
    exact ⟨_, .cut huncut hcut (keeps_trim part) hrest⟩
termination_by cs.length
decreasing_by
  rw [hcs, List.length_append, List.length_cons]
  omega

/-- The splitter keeps what the division keeps, from every state of quotes it may start in. -/
theorem Divides.eq {cs : List Char} (h : Divides before cs slices) :
    ((stretches (quotingBehind before) cs).map Text.trim).filter (fun s => !s.isEmpty) = slices := by
  induction h with
  | @last before part kept huncut hkept =>
    have hpart := huncut.stretches_append
    rw [List.append_nil] at hpart
    rw [hpart, stretches, List.modifyHead_cons, List.append_nil, hkept.eq]
    rfl
  | @cut before part rest kept slices huncut hcut hkept hrest ih =>
    rw [quotingBehind_comma hcut.outside] at ih
    rw [huncut.stretches_append, hcut.outside, stretches_comma hcut.starts, List.modifyHead_cons,
      List.append_nil, List.map_cons, ← List.singleton_append, List.filter_append, ih, hkept.eq]

/-- There is one division of a header, and the splitter finds it. -/
theorem divides_iff {header : List Char} : Divides [] header slices ↔ slices = split header := by
  constructor
  · intro h
    exact h.eq.symm
  · rintro rfl
    obtain ⟨slices, h⟩ := exists_divides [] header
    rw [split, ← show quotingBehind [] = .outside from rfl, h.eq]
    exact h

/-! ### Splitting again -/

/-- What is no cut in a part is none in the slice that is kept of it. -/
theorem Uncut.slice {lead slice after : List Char}
    (h : Uncut before (lead ++ (slice ++ after)) behind) (hbefore : quotingBehind before = .outside)
    (hlead : IsBlanks lead) (hafter : IsBlanks after)
    (hbehind : ∀ c, behind.head? = some c → c = ',') : Uncut [] slice [] := by
  rintro first rest rfl ⟨houtside, hstarts⟩
  rw [List.append_nil] at hstarts
  refine h (lead ++ first) (rest ++ after) (by simp) ⟨?_, ?_⟩
  · rw [quotingBehind_restart hbefore hlead]
    exact houtside
  · rw [List.append_assoc]
    exact startsScheme_append hstarts hafter hbehind

theorem Keeps.stable (h : Keeps part kept) (huncut : Uncut before part behind)
    (hbefore : quotingBehind before = .outside) (hbehind : ∀ c, behind.head? = some c → c = ',') :
    ∀ cs ∈ kept, IsSlice cs ∧ split cs = [cs] := by
  cases h with
  | nothing =>
    intro cs hcs
    cases hcs
  | @slice lead slice after hlead hslice hafter =>
    intro cs hcs
    obtain rfl := List.mem_singleton.1 hcs
    have hkept : Keeps cs [cs] := by
      have hpadded : Keeps ([] ++ (cs ++ [])) [cs] :=
        .slice (List.forall_mem_nil _) hslice (List.forall_mem_nil _)
      rwa [List.nil_append, List.append_nil] at hpadded
    have hdivides : Divides [] cs [cs] :=
      .last (huncut.slice hbefore hlead hafter hbehind) hkept
    exact ⟨hslice, (divides_iff.1 hdivides).symm⟩

/-- A slice is split into itself: what was no cut inside the header is none in the slice. -/
theorem Divides.stable {cs : List Char} (h : Divides before cs slices)
    (hbefore : quotingBehind before = .outside) :
    ∀ slice ∈ slices, IsSlice slice ∧ split slice = [slice] := by
  induction h with
  | last huncut hkept =>
    apply hkept.stable huncut hbefore
    rintro c ⟨⟩
  | cut huncut hcut hkept hrest ih =>
    intro slice hslice
    rcases List.mem_append.1 hslice with hslice | hslice
    · refine hkept.stable huncut hbefore ?_ slice hslice
      rintro c ⟨⟩
      rfl
    · exact ih (quotingBehind_comma hcut.outside) slice hslice

end

/-- Whatever a header holds, it has one division into parts between its cuts, and the splitter gives
    what is kept of them; none of this is empty, has blanks around it or would be split again. -/
theorem header_divided (header : List Char) :
    (∀ slices, Divides [] header slices ↔ slices = split header) ∧
    ∀ slice ∈ split header, IsSlice slice ∧ split slice = [slice] :=
  ⟨fun _ => divides_iff, (divides_iff.2 rfl).stable rfl⟩

/-- Blanks before a cut, a comma in quotes, commas that are no cuts, and quotes that do not close. -/
theorem header_divided_malformed :
    let header := " , Basic x=\"a, b\", y = 1,, , Bearer z=\"c, Digest ".toList
    let slice := "Bearer z=\"c, Digest".toList
    split header = ["Basic x=\"a, b\", y = 1,,".toList, slice] ∧
      Divides [] header (split header) ∧ IsSlice slice ∧ split slice = [slice] := by
  intro header slice
  have hsplit : split header = ["Basic x=\"a, b\", y = 1,,".toList, slice] := by decide +kernel
  have hmem : slice ∈ split header := by
    rw [hsplit]
    simp
  obtain ⟨hdivides, hstable⟩ := header_divided header
  exact ⟨hsplit, (hdivides _).2 rfl, hstable slice hmem⟩

end ImageLookup.Challenge
