import ImageLookup.Proofs.Challenge.Writing

/-! # Written headers are split where their challenges meet

A text *passes* when the splitter reads it from outside of quotes to outside of quotes without
starting a new challenge, whatever follows.  Words, blanks and values pass, texts that pass do so
one after the other, and so does a comma with a parameter behind it: the word after the comma is a
key, and its equals sign follows at once.

A comma with a challenge behind it does not pass.  Behind the scheme comes the end, another comma,
or blanks and a key, and none of these is an equals sign.
-/

namespace ImageLookup.Challenge

/-! ### One step of the splitter -/

theorem stretches_cons {q : Quoting} {c : Char} {cs : List Char}
    (h : ¬(q = .outside ∧ c = ',' ∧ startsScheme cs = true)) :
    stretches q (c :: cs) = (stretches (q.step c) cs).modifyHead (c :: ·) := by
  rw [stretches, if_neg h]
  obtain ⟨s, ss, hs⟩ := List.exists_cons_of_ne_nil (stretches_ne_nil (q.step c) cs)
  rw [hs, List.modifyHead_cons]

theorem stretches_comma {cs : List Char} (h : startsScheme cs = true) :
    stretches .outside (',' :: cs) = [] :: stretches .outside cs := by
  rw [stretches, if_pos ⟨rfl, rfl, h⟩]

theorem modifyHead_nil_append (ss : List (List Char)) : ss.modifyHead ([] ++ ·) = ss := by
  cases ss <;> rfl

/-! ### Texts that pass -/

def Passes (t : List Char) : Prop :=
  ∀ rest, stretches .outside (t ++ rest) = (stretches .outside rest).modifyHead (t ++ ·)

theorem passes_nil : Passes [] := by
  intro rest
  rw [List.nil_append, modifyHead_nil_append]

theorem Passes.append {s t : List Char} (hs : Passes s) (ht : Passes t) : Passes (s ++ t) := by
  intro rest
  rw [List.append_assoc, hs, ht, List.modifyHead_modifyHead]
  congr 1
  funext cs
  simp [List.append_assoc]

theorem Passes.cons {c : Char} {t : List Char} (hc : Passes [c]) (ht : Passes t) :
    Passes (c :: t) := hc.append ht

theorem passes_of_plain {t : List Char} (h : ∀ c ∈ t, c ≠ ',' ∧ c ≠ '"') : Passes t := by
  induction t with
  | nil => exact passes_nil
  | cons c t ih =>
    have hc := h c (by simp)
    refine Passes.cons (fun rest => ?_) (ih fun d hd => h d (List.mem_cons_of_mem _ hd))
    have hstep : Quoting.outside.step c = .outside := if_neg hc.2
    rw [List.singleton_append, stretches_cons (fun hcut => hc.1 hcut.2.1), hstep]
    rfl

theorem passes_of_blanks {t : List Char} (h : IsBlanks t) : Passes t := by
  apply passes_of_plain
  intro c hc
  have hblank := h c hc
  constructor
  · rintro rfl
    exact absurd hblank (by decide)
  · rintro rfl
    exact absurd hblank (by decide)

theorem IsWord.passes {t : List Char} (h : IsWord t) : Passes t :=
  passes_of_plain fun c hc => ⟨(h.plain c hc).2.1, (h.plain c hc).2.2.2⟩

/-- Inside of quotes nothing is cut, and what was escaped does not close them. -/
theorem stretches_inside (value rest : List Char) :
    stretches .inside (value.flatMap escape ++ '"' :: rest) =
      (stretches .outside rest).modifyHead (value.flatMap escape ++ '"' :: ·) := by
  induction value with
  | nil =>
    rw [List.flatMap_nil, List.nil_append, stretches_cons (by simp)]
    rfl
  | cons c value ih =>
    by_cases hc : c = '"' ∨ c = '\\'
    · have hescape : escape c = ['\\', c] := if_pos hc
      rw [List.flatMap_cons, hescape, List.append_assoc, List.cons_append, List.cons_append,
        List.nil_append, stretches_cons (by simp), stretches_cons (by simp [Quoting.step])]
      change ((stretches .inside _).modifyHead _).modifyHead _ = _
      rw [ih, List.modifyHead_modifyHead, List.modifyHead_modifyHead]
      rfl
    · have hescape : escape c = [c] := if_neg hc
      obtain ⟨hquote, hslash⟩ := not_or.1 hc
      have hstep : Quoting.inside.step c = .inside := by simp [Quoting.step, hquote, hslash]
      rw [List.flatMap_cons, hescape, List.append_assoc, List.cons_append, List.nil_append,
        stretches_cons (by simp), hstep, ih, List.modifyHead_modifyHead]
      rfl

/-- Whatever stands in quotes, commas and words behind them included, is no place to cut. -/
theorem passes_quote (value : List Char) : Passes (quote value) := by
  intro rest
  have hopen : Quoting.outside.step '"' = .inside := rfl
  rw [quote, List.cons_append, List.append_assoc, List.singleton_append,
    stretches_cons (by simp), hopen, stretches_inside, List.modifyHead_modifyHead]
  congr 1
  funext cs
  simp

theorem WritesValue.passes {value text : List Char} (h : WritesValue value text) :
    Passes text := by
  cases h with
  | quoted => exact passes_quote value
  | bare hbare => exact passes_of_plain hbare.plain

theorem WritesParameter.passes {p : Parameter} {text : List Char} (h : WritesParameter p text) :
    Passes text := by
  obtain ⟨value, hvalue, rfl⟩ := h
  exact p.isWord_key.passes.append ((passes_of_plain (by simp)).cons hvalue.passes)

/-! ### Commas -/

theorem IsWord.endsWord_eq_false {cs : List Char} (h : IsWord cs) :
    ∀ c ∈ cs, endsWord c = false := by
  intro c hc
  obtain ⟨hblank, hcomma, hequals, -⟩ := h.plain c hc
  simp [endsWord, hblank, hcomma, hequals]

theorem IsWord.trimStart_append {cs : List Char} (h : IsWord cs) (rest : List Char) :
    Text.trimStart (cs ++ rest) = cs ++ rest := by
  obtain ⟨c, tail, rfl, hblank, -⟩ := h.exists_cons
  refine Text.trimStart_eq_self fun d hd => ?_
  rw [List.cons_append, List.head?_cons, Option.some.injEq] at hd
  rw [← hd]
  exact hblank

theorem isBlank_of_endsWord {c : Char} (h : endsWord c = false) : Text.isBlank c = false := by
  simp only [endsWord, Bool.or_eq_false_iff] at h
  exact h.1.1

/-- A word is taken up to what ends it, quotes included; the text starts a scheme unless an equals
    sign is next. -/
theorem startsScheme_word {blanks word rest : List Char} (hblanks : IsBlanks blanks)
    (hne : word ≠ []) (hword : ∀ c ∈ word, endsWord c = false)
    (hrest : ∀ c, rest.head? = some c → endsWord c = true) :
    startsScheme (blanks ++ (word ++ rest)) = ((Text.trimStart rest).head? != some '=') := by
  have hplain : ∀ c ∈ word, (!endsWord c) = true := by
    intro c hc
    rw [hword c hc]
    rfl
  have htrim : Text.trimStart (blanks ++ (word ++ rest)) = word ++ rest := by
    rw [Text.trimStart_append_of_blank hblanks]
    obtain ⟨c, tail, rfl⟩ := List.exists_cons_of_ne_nil hne
    refine Text.trimStart_eq_self fun d hd => ?_
    rw [List.cons_append, List.head?_cons, Option.some.injEq] at hd
    rw [← hd]
    exact isBlank_of_endsWord (hword c List.mem_cons_self)
  have hstop : rest.takeWhile (fun c => !endsWord c) = [] ∧
      rest.dropWhile (fun c => !endsWord c) = rest := by
    cases rest with
    | nil => exact ⟨rfl, rfl⟩
    | cons c rest => simp [hrest c rfl]
  have htake : (word ++ rest).takeWhile (fun c => !endsWord c) = word := by
    rw [List.takeWhile_append_of_pos hplain, hstop.1, List.append_nil]
  have hdrop : (word ++ rest).dropWhile (fun c => !endsWord c) = rest := by
    rw [List.dropWhile_append_of_pos hplain, hstop.2]
  rw [startsScheme, htrim, htake, hdrop]
  simp [hne]

theorem startsScheme_eq {blanks word rest : List Char} (hblanks : IsBlanks blanks)
    (hword : IsWord word) (hrest : ∀ c, rest.head? = some c → endsWord c = true) :
    startsScheme (blanks ++ (word ++ rest)) = ((Text.trimStart rest).head? != some '=') :=
  startsScheme_word hblanks hword.ne_nil hword.endsWord_eq_false hrest

/-- A key and its equals sign behind a comma go on with the parameters of the same challenge. -/
theorem startsScheme_key {blanks key rest : List Char} (hblanks : IsBlanks blanks)
    (hkey : IsWord key) : startsScheme (blanks ++ (key ++ '=' :: rest)) = false := by
  rw [startsScheme_eq hblanks hkey]
  · rfl
  · rintro c ⟨⟩
    rfl

/-- A comma before parameters passes. -/
theorem Joined.passes {ps : List Parameter} {texts : List (List Char)} {body : List Char}
    (h : Joined WritesParameter ps texts body) : Passes body := by
  induction h with
  | single h => exact h.passes
  | @cons p ps text before after whole texts h hbefore hafter hrest ih =>
    have hcomma : Passes (',' :: (after ++ whole)) := by
      intro rest
      obtain ⟨key, tail, hkey, hwhole⟩ := hrest.exists_key
      have hstarts : startsScheme (after ++ whole ++ rest) = false := by
        rw [hwhole, List.append_assoc, List.append_assoc, List.cons_append]
        exact startsScheme_key hafter hkey
      have hkept : ¬(Quoting.outside = .outside ∧ ',' = ',' ∧
          startsScheme (after ++ whole ++ rest) = true) := by
        rw [hstarts]
        simp
      rw [List.cons_append, stretches_cons hkept]
      change (stretches .outside _).modifyHead _ = _
      rw [(passes_of_blanks hafter).append ih, List.modifyHead_modifyHead]
      rfl
    exact h.passes.append ((passes_of_blanks hbefore).append hcomma)

/-- No comma inside an offer is followed by a scheme. -/
theorem WritesOffer.passes {o : Offer} {text : List Char} (h : WritesOffer o text) :
    Passes text := by
  cases h with
  | bare => exact o.isWord_scheme.passes
  | withParameters hblank hblanks hbody =>
    have hgap : IsBlanks [_] := fun c hc => by rwa [List.mem_singleton.1 hc]
    exact o.isWord_scheme.passes.append
      ((passes_of_blanks hgap).cons ((passes_of_blanks hblanks).append hbody.passes))

/-- A challenge and what may follow it start with a scheme. -/
theorem WritesOffer.startsScheme {o : Offer} {text lead follow : List Char}
    (h : WritesOffer o text) (hlead : IsBlanks lead)
    (hfollow : follow = [] ∨
      ∃ before rest, IsBlanks before ∧ follow = before ++ ',' :: rest) :
    startsScheme (lead ++ (text ++ follow)) = true := by
  cases h with
  | bare =>
    rw [startsScheme_eq hlead o.isWord_scheme]
    · rcases hfollow with rfl | ⟨before, rest, hbefore, rfl⟩
      · rfl
      · rw [Text.trimStart_append_of_blank hbefore]
        rfl
    · intro c hc
      rcases hfollow with rfl | ⟨before, rest, hbefore, rfl⟩
      · cases hc
      · cases before with
        | nil =>
          cases hc
          rfl
        | cons b before =>
          rw [List.cons_append, List.head?_cons, Option.some.injEq] at hc
          simp [endsWord, ← hc, hbefore b (by simp)]
  | @withParameters blank blanks body texts hblank hblanks hbody =>
    obtain ⟨key, tail, hkey, rfl⟩ := hbody.exists_key
    have hgap : IsBlanks (blank :: blanks) := by
      intro c hc
      rcases List.mem_cons.1 hc with rfl | hc
      · exact hblank
      · exact hblanks c hc
    obtain ⟨c, rest, hcons, -, -, hequals, -⟩ := hkey.exists_cons
    rw [List.append_assoc, List.cons_append, startsScheme_eq hlead o.isWord_scheme]
    · rw [List.append_assoc, ← List.cons_append, Text.trimStart_append_of_blank hgap,
        List.append_assoc, hkey.trimStart_append, hcons]
      simp [hequals]
    · intro d hd
      cases hd
      simp [endsWord, hblank]

/-! ### Headers -/

theorem WritesOffer.trim_padded {o : Offer} {text lead after : List Char}
    (h : WritesOffer o text) (hlead : IsBlanks lead) (hafter : IsBlanks after) :
    Text.trim (lead ++ (text ++ after)) = text := by
  have hhead : ∀ c, (text ++ after).head? = some c → Text.isBlank c = false := by
    obtain ⟨d, tail, rfl⟩ := List.exists_cons_of_ne_nil h.ne_nil
    exact h.isBlank_head
  rw [Text.trim, Text.trimStart_append_of_blank hlead, Text.trimStart_eq_self hhead,
    Text.trimEnd_append_of_blank hafter, Text.trimEnd_eq_self h.isBlank_getLast]

/-- By induction on the offers, where blanks before the header are allowed for the step. -/
theorem map_trim_stretches {offers : List Offer} {texts : List (List Char)} {header : List Char}
    (h : WritesHeader offers texts header) {lead : List Char} (hlead : IsBlanks lead) :
    (stretches .outside (lead ++ header)).map Text.trim = texts := by
  induction h generalizing lead with
  | @single o text h =>
    have hpass := (passes_of_blanks hlead).append h.passes []
    rw [List.append_nil] at hpass
    rw [hpass]
    change [Text.trim (lead ++ text ++ [])] = [text]
    rw [List.append_assoc, h.trim_padded hlead (by simp [IsBlanks])]
  | @cons o offers text before after whole texts h hbefore hafter hrest ih =>
    have hstarts : startsScheme (after ++ whole) = true := by
      cases hrest with
      | single hnext =>
        rw [← List.append_nil whole]
        exact hnext.startsScheme hafter (Or.inl rfl)
      | cons hnext hbefore' => exact hnext.startsScheme hafter (Or.inr ⟨_, _, hbefore', rfl⟩)
    have hpass := (passes_of_blanks hlead).append (h.passes.append (passes_of_blanks hbefore))
    have hrestIh := ih hafter
    rw [show lead ++ (text ++ (before ++ ',' :: (after ++ whole))) =
        lead ++ (text ++ before) ++ ',' :: (after ++ whole) by simp,
      hpass, stretches_comma hstarts, List.modifyHead_cons, List.map_cons, hrestIh,
      List.append_nil, h.trim_padded hlead hbefore]

theorem Joined.ne_nil_of_mem {offers : List Offer} {texts : List (List Char)} {header : List Char}
    (h : WritesHeader offers texts header) : ∀ text ∈ texts, text ≠ [] := by
  induction h with
  | single h =>
    intro text htext
    rw [List.mem_singleton.1 htext]
    exact h.ne_nil
  | cons h hbefore hafter hrest ih =>
    intro text htext
    rcases List.mem_cons.1 htext with rfl | htext
    · exact h.ne_nil
    · exact ih text htext

/-- The challenges of a written header are the texts that were written. -/
theorem split_eq {offers : List Offer} {texts : List (List Char)} {header : List Char}
    (h : WritesHeader offers texts header) : split header = texts := by
  have hnone : IsBlanks [] := by simp [IsBlanks]
  have hmap := map_trim_stretches h hnone
  rw [List.nil_append] at hmap
  rw [split, hmap, List.filter_eq_self]
  intro text htext
  simp [h.ne_nil_of_mem text htext]

end ImageLookup.Challenge
