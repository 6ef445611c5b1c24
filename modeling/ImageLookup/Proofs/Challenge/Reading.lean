import ImageLookup.Proofs.Challenge.Splitting

/-! # Written challenges are read back

The reader of parameters drops whatever stands between two parameters, so only the value decides
where it goes on: behind the closing quote, or at the comma that ends a bare value.  Either way
it finds the same parameters next.

From the header as a whole the first offer is chosen that asks for a token and names a realm.
-/

namespace ImageLookup.Challenge

/-! ### Values -/

/-- Escaped quotes do not end a value, and the backslashes before them are gone from it. -/
theorem quotedValue_escape (value rest : List Char) :
    quotedValue (value.flatMap escape ++ '"' :: rest) = (value, rest) := by
  induction value with
  | nil => rfl
  | cons c value ih =>
    by_cases hc : c = '"' ∨ c = '\\'
    · have hescape : escape c = ['\\', c] := if_pos hc
      rw [List.flatMap_cons, hescape, List.append_assoc, List.cons_append, List.cons_append,
        List.nil_append, quotedValue, ih]
    · have hescape : escape c = [c] := if_neg hc
      obtain ⟨hquote, hslash⟩ := not_or.1 hc
      rw [List.flatMap_cons, hescape, List.append_assoc, List.cons_append, List.nil_append]
      rw [quotedValue, ih]
      all_goals simp_all

/-- What may follow a value: the end, or a comma behind blanks. -/
def EndsValue (rest : List Char) : Prop :=
  ∃ before more, IsBlanks before ∧ rest = before ++ more ∧ (more = [] ∨ ∃ tail, more = ',' :: tail)

theorem parameterValue_quote (value rest : List Char) :
    parameterValue (quote value ++ rest) = (value, rest) := by
  have htrim : Text.trimStart (quote value ++ rest) =
      '"' :: (value.flatMap escape ++ '"' :: rest) := by
    simp [quote, Text.trimStart, show Text.isBlank '"' = false by decide]
  rw [parameterValue, htrim]
  exact quotedValue_escape value rest

theorem dropWhile_isFiller_append_of_blanks {before more : List Char} (h : IsBlanks before) :
    (before ++ more).dropWhile isFiller = more.dropWhile isFiller :=
  List.dropWhile_append_of_pos fun c hc => by simp [isFiller, h c hc]

/-- A bare value ends before the next comma, without the blanks in front of that. -/
theorem parameterValue_bare {value before more : List Char} (hvalue : IsBare value)
    (hbefore : IsBlanks before) (hmore : more = [] ∨ ∃ tail, more = ',' :: tail) :
    parameterValue (value ++ (before ++ more)) = (value, more) := by
  have hmoreTake : more.takeWhile (· != ',') = [] ∧ more.dropWhile (· != ',') = more := by
    rcases hmore with rfl | ⟨tail, rfl⟩
    · exact ⟨rfl, rfl⟩
    · simp
  have hbeforePlain : ∀ c ∈ before, (c != ',') = true := by
    intro c hc
    rw [bne_iff_ne]
    rintro rfl
    exact absurd (hbefore ',' hc) (by decide)
  have hvaluePlain : ∀ c ∈ value, (c != ',') = true :=
    fun c hc => bne_iff_ne.2 (hvalue.plain c hc).1
  cases value with
  | nil =>
    have htrim : Text.trimStart (before ++ more) = more := by
      rw [Text.trimStart_append_of_blank hbefore]
      rcases hmore with rfl | ⟨tail, rfl⟩
      · rfl
      · exact Text.trimStart_eq_self fun c hc => by cases hc; decide
    rw [List.nil_append, parameterValue, htrim]
    rcases hmore with rfl | ⟨tail, rfl⟩
    · rfl
    · simp
  | cons c value =>
    have htrim : Text.trimStart (c :: value ++ (before ++ more)) =
        c :: value ++ (before ++ more) :=
      Text.trimStart_eq_self fun d hd => hvalue.head d hd
    have htake : (c :: value ++ (before ++ more)).takeWhile (· != ',') = c :: value ++ before := by
      rw [List.takeWhile_append_of_pos hvaluePlain, List.takeWhile_append_of_pos hbeforePlain,
        hmoreTake.1, List.append_nil]
    have hdrop : (c :: value ++ (before ++ more)).dropWhile (· != ',') = more := by
      rw [List.dropWhile_append_of_pos hvaluePlain, List.dropWhile_append_of_pos hbeforePlain,
        hmoreTake.2]
    have hquote : c ≠ '"' := (hvalue.plain c (by simp)).2
    rw [parameterValue, htrim]
    split
    · rename_i rest heq
      rw [List.cons_append, List.cons.injEq] at heq
      exact absurd heq.1 hquote
    · rw [htake, hdrop, Text.trimEnd_append_of_blank hbefore, Text.trimEnd_eq_self hvalue.last]

/-- A written value is read back, and what is read next has lost blanks at most. -/
theorem WritesValue.parameterValue {value text rest : List Char} (h : WritesValue value text)
    (hrest : EndsValue rest) :
    (Challenge.parameterValue (text ++ rest)).1 = value ∧
      (Challenge.parameterValue (text ++ rest)).2.dropWhile isFiller = rest.dropWhile isFiller := by
  cases h with
  | quoted => rw [parameterValue_quote]; exact ⟨rfl, rfl⟩
  | bare hbare =>
    obtain ⟨before, more, hbefore, rfl, hmore⟩ := hrest
    rw [parameterValue_bare hbare hbefore hmore]
    exact ⟨rfl, (dropWhile_isFiller_append_of_blanks hbefore).symm⟩

/-! ### Parameters -/

theorem parameters_congr {cs cs' : List Char}
    (h : cs.dropWhile isFiller = cs'.dropWhile isFiller) : parameters cs = parameters cs' := by
  rw [parameters, parameters.eq_def cs', h]

theorem IsWord.endsKey_eq_false {cs : List Char} (h : IsWord cs) :
    ∀ c ∈ cs, (!endsKey c) = true := by
  intro c hc
  obtain ⟨-, hcomma, hequals, -⟩ := h.plain c hc
  simp [endsKey, hcomma, hequals]

theorem IsWord.trim_eq {cs : List Char} (h : IsWord cs) : Text.trim cs = cs := by
  refine Text.trim_eq_self (fun c hc => ?_) h.isBlank_getLast
  exact (h.plain c (List.mem_of_head? hc)).1

theorem parameters_key {key rest : List Char} (hkey : IsWord key) :
    parameters (key ++ '=' :: rest) =
      (key, (parameterValue rest).1) :: parameters (parameterValue rest).2 := by
  have hitem : (key ++ '=' :: rest).dropWhile isFiller = key ++ '=' :: rest := by
    obtain ⟨c, tail, rfl, hblank, hcomma, -⟩ := hkey.exists_cons
    simp [isFiller, hblank, hcomma]
  have hdrop : (key ++ '=' :: rest).dropWhile (fun c => !endsKey c) = '=' :: rest := by
    rw [List.dropWhile_append_of_pos hkey.endsKey_eq_false]
    rfl
  have htake : (key ++ '=' :: rest).takeWhile (fun c => !endsKey c) = key := by
    rw [List.takeWhile_append_of_pos hkey.endsKey_eq_false,
      show ('=' :: rest).takeWhile (fun c => !endsKey c) = [] from rfl, List.append_nil]
  rw [parameters, hitem]
  split
  · rename_i heq
    rw [hdrop] at heq
    cases heq
  · rename_i c rest' heq
    rw [hdrop, List.cons.injEq] at heq
    obtain ⟨rfl, rfl⟩ := heq
    rw [if_pos rfl, htake, hkey.trim_eq]

def Parameter.pair (p : Parameter) : List Char × List Char := (p.key, p.value)

/-- The parameters of an offer are read in their order, with every pair that was written. -/
theorem Joined.parameters {ps : List Parameter} {texts : List (List Char)} {body : List Char}
    (h : Joined WritesParameter ps texts body) :
    Challenge.parameters body = ps.map Parameter.pair := by
  induction h with
  | @single p text h =>
    obtain ⟨value, hvalue, rfl⟩ := h
    have hend : EndsValue [] := ⟨[], [], by simp [IsBlanks], rfl, Or.inl rfl⟩
    obtain ⟨hfirst, hrest⟩ := hvalue.parameterValue hend
    rw [List.append_nil] at hfirst hrest
    rw [parameters_key p.isWord_key, hfirst, parameters_congr hrest, Challenge.parameters]
    rfl
  | @cons p ps text before after whole texts h hbefore hafter hrest ih =>
    obtain ⟨value, hvalue, rfl⟩ := h
    obtain ⟨hfirst, hnext⟩ := hvalue.parameterValue
      ⟨before, ',' :: (after ++ whole), hbefore, rfl, Or.inr ⟨_, rfl⟩⟩
    have hskip : (before ++ ',' :: (after ++ whole)).dropWhile isFiller =
        whole.dropWhile isFiller := by
      rw [dropWhile_isFiller_append_of_blanks hbefore,
        List.dropWhile_cons_of_pos (by decide), dropWhile_isFiller_append_of_blanks hafter]
    rw [List.append_assoc, List.cons_append, parameters_key p.isWord_key, hfirst,
      parameters_congr (hnext.trans hskip), ih]
    rfl

/-! ### Challenges -/

/-- The scheme and the parameters that are read from the text of one challenge. -/
def partsOf (text : List Char) : List Char × List (List Char × List Char) :=
  match Text.cutFirst Text.isBlank text with
  | none => (text, [])
  | some (scheme, rest) => (scheme, parameters rest)

namespace Offer

/-- The value of the last parameter of a name, whatever the ASCII case of its key. -/
def last? (o : Offer) (name : String) : Option String :=
  ((o.parameters.filter fun p => p.key.map Char.toLower == name.toList).getLast?).map fun p =>
    String.ofList p.value

def challenge (o : Offer) (realm : String) : Challenge :=
  ⟨String.ofList o.scheme, realm, o.last? "service", o.last? "scope"⟩

def outcome (o : Offer) : Except Defect Challenge :=
  if o.parameters.isEmpty then .error .withoutParameters
  else
    match (o.last? "realm").filter (· != "") with
    | none => .error .withoutRealm
    | some realm => .ok (o.challenge realm)

/-- An offer of a token, to be had at a realm. -/
structure IsUsable (o : Offer) (realm : String) : Prop where
  bearer : o.scheme.map Char.toLower = "bearer".toList
  last_realm : o.last? "realm" = some realm
  realm_ne : realm ≠ ""

end Offer

theorem lastValue?_map_pair (o : Offer) (name : String) :
    lastValue? name (o.parameters.map Parameter.pair) = o.last? name := by
  rw [lastValue?, Offer.last?, ← List.map_reverse, List.find?_map, ← List.head?_reverse,
    ← List.filter_reverse, List.head?_filter, Option.map_map]
  rfl

theorem WritesOffer.cutFirst {o : Offer} {text : List Char} (h : WritesOffer o text) :
    (o.parameters = [] ∧ text = o.scheme ∧ Text.cutFirst Text.isBlank text = none) ∨
    ∃ rest, o.parameters ≠ [] ∧ Text.cutFirst Text.isBlank text = some (o.scheme, rest) ∧
      Challenge.parameters rest = o.parameters.map Parameter.pair := by
  have hscheme : ∀ c ∈ o.scheme, Text.isBlank c = false :=
    fun c hc => (o.isWord_scheme.plain c hc).1
  cases h with
  | bare hnone => exact Or.inl ⟨hnone, rfl, Text.cutFirst_eq_none_iff.2 hscheme⟩
  | @withParameters blank blanks body texts hblank hblanks hbody =>
    refine Or.inr ⟨blanks ++ body, ?_, Text.cutFirst_append_cons hblank hscheme, ?_⟩
    · intro hnil
      rw [hnil] at hbody
      cases hbody
    · rw [parameters_congr (dropWhile_isFiller_append_of_blanks hblanks), hbody.parameters]

theorem WritesOffer.partsOf_eq {o : Offer} {text : List Char} (h : WritesOffer o text) :
    partsOf text = (o.scheme, o.parameters.map Parameter.pair) := by
  rcases h.cutFirst with ⟨hnone, htext, hcut⟩ | ⟨rest, -, hcut, hparameters⟩
  · rw [partsOf, hcut, hnone, htext]
    rfl
  · rw [partsOf, hcut]
    exact Prod.ext rfl hparameters

/-- Each offer is read as what its server meant, defects included. -/
theorem WritesOffer.ofText?_eq {o : Offer} {text : List Char} (h : WritesOffer o text) :
    ofText? text = o.outcome := by
  rcases h.cutFirst with ⟨hnone, -, hcut⟩ | ⟨rest, hsome, hcut, hparameters⟩
  · rw [ofText?, hcut, Offer.outcome, hnone]
    rfl
  · have hempty : o.parameters.isEmpty = false := by simpa using hsome
    simp only [ofText?, hcut, hparameters, lastValue?_map_pair, Offer.outcome, hempty,
      Bool.false_eq_true, if_false]
    rfl

theorem outcome_eq_ok {o : Offer} {realm : String} (h : o.IsUsable realm) :
    o.outcome = .ok (o.challenge realm) := by
  have hne : o.parameters.isEmpty = false := by
    rw [Bool.eq_false_iff]
    intro hempty
    have hlast := h.last_realm
    rw [Offer.last?, List.isEmpty_iff.1 hempty] at hlast
    cases hlast
  have hrealm : (o.last? "realm").filter (· != "") = some realm := by
    rw [h.last_realm, Option.filter_some, if_pos (bne_iff_ne.2 h.realm_ne)]
  rw [Offer.outcome, hne, hrealm]
  rfl

/-! ### Headers -/

theorem Joined.ne_nil {α : Type} {writes : α → List Char → Prop} {items : List α}
    {texts : List (List Char)} {whole : List Char} (h : Joined writes items texts whole) :
    items ≠ [] := by
  cases h <;> exact List.cons_ne_nil _ _

theorem Joined.map_eq {α β : Type} {writes : α → List Char → Prop} {read : List Char → β}
    {meant : α → β} {items : List α} {texts : List (List Char)} {whole : List Char}
    (h : Joined writes items texts whole)
    (hread : ∀ item text, writes item text → read text = meant item) :
    texts.map read = items.map meant := by
  induction h with
  | single h => simp [hread _ _ h]
  | cons h hbefore hafter hrest ih => simp [hread _ _ h, ih]

/-- An offer asks for a token if and only if there is a realm to ask at. -/
theorem asksForToken_outcome_iff {o : Offer} :
    asksForToken o.outcome = true ↔ ∃ realm, o.IsUsable realm := by
  constructor
  · intro h
    unfold Offer.outcome at h
    split at h
    · cases h
    · split at h
      · cases h
      · rename_i realm hrealm
        rw [Option.filter_eq_some_iff, bne_iff_ne] at hrealm
        refine ⟨realm, ?_, hrealm.1, hrealm.2⟩
        simpa [asksForToken, isBearer, Offer.challenge] using h
  · rintro ⟨realm, hbearer, hrealm, hne⟩
    rw [outcome_eq_ok ⟨hbearer, hrealm, hne⟩]
    simpa [asksForToken, isBearer, Offer.challenge] using hbearer

/-- The first offer that asks for a token decides; without one it is the very first that tells the
    defect. -/
theorem parse_eq {offers : List Offer} {texts : List (List Char)} {header : String}
    (h : WritesHeader offers texts header.toList) :
    parse header =
      match offers.find? fun o => asksForToken o.outcome with
      | some o => o.outcome
      | none => (offers.head?.map Offer.outcome).getD (.error .empty) := by
  have hread : texts.map ofText? = offers.map Offer.outcome :=
    h.map_eq fun o text ho => ho.ofText?_eq
  rw [parse, split_eq h, hread, List.find?_map, List.head?_map, Function.comp_def]
  cases hfind : offers.find? fun o => asksForToken o.outcome with
  | none => simp
  | some o => simp

/-- Reading undoes writing.  The challenges of a written header are split apart as they were
written; each has the scheme and the parameters that were meant; and the header stands for the
first offer of a token, with its last realm, service and scope, or else for what its first offer is
read as. -/
theorem parse_undoes_writing {offers : List Offer} {texts : List (List Char)} {header : String}
    (h : WritesHeader offers texts header.toList) :
    split header.toList = texts ∧
    texts.map partsOf = offers.map (fun o => (o.scheme, o.parameters.map Parameter.pair)) ∧
    (∀ before o after realm, offers = before ++ o :: after →
      (∀ b ∈ before, ∀ r, ¬b.IsUsable r) → o.IsUsable realm →
      parse header = .ok (o.challenge realm)) ∧
    ((∀ o ∈ offers, ∀ r, ¬o.IsUsable r) →
      ∃ first rest, offers = first :: rest ∧ parse header = first.outcome) := by
  refine ⟨split_eq h, h.map_eq fun o text ho => ho.partsOf_eq, ?_, ?_⟩
  · intro before o after realm hoffers hbefore husable
    have hasks := asksForToken_outcome_iff.2 ⟨realm, husable⟩
    have hfind : offers.find? (fun o => asksForToken o.outcome) = some o := by
      rw [List.find?_eq_some_iff_append]
      refine ⟨hasks, before, after, hoffers, fun b hb => ?_⟩
      rw [Bool.not_eq_true', Bool.eq_false_iff]
      intro hb'
      obtain ⟨r, hr⟩ := asksForToken_outcome_iff.1 hb'
      exact hbefore b hb r hr
    rw [parse_eq h, hfind]
    exact outcome_eq_ok husable
  · intro hnone
    have hfind : offers.find? (fun o => asksForToken o.outcome) = none := by
      rw [List.find?_eq_none]
      intro o ho hasks
      obtain ⟨r, hr⟩ := asksForToken_outcome_iff.1 hasks
      exact hnone o ho r hr
    obtain ⟨first, rest, rfl⟩ := List.exists_cons_of_ne_nil h.ne_nil
    refine ⟨first, rest, rfl, ?_⟩
    rw [parse_eq h, hfind]
    rfl

/-- A quoted comma with `Bearer` behind it starts no challenge, a bare one does, and the scope keeps
its backslash, its quote and its comma. -/
theorem parse_undoes_writing_two_offers :
    ∃ basic bearer : Offer, ∃ texts,
      WritesHeader [basic, bearer] texts
        "Basic realm=\"x, Bearer y\" ,bearer realm=u,scope=\"a\\\\\\\",b\"".toList ∧
      parse "Basic realm=\"x, Bearer y\" ,bearer realm=u,scope=\"a\\\\\\\",b\"" =
        .ok ⟨"bearer", "u", none, some "a\\\",b"⟩ := by
  let realm : Parameter := ⟨"realm".toList, "x, Bearer y".toList, by decide⟩
  let address : Parameter := ⟨"realm".toList, "u".toList, by decide⟩
  let scope : Parameter := ⟨"scope".toList, "a\\\",b".toList, by decide⟩
  let basic : Offer := ⟨"Basic".toList, [realm], by decide⟩
  let bearer : Offer := ⟨"bearer".toList, [address, scope], by decide⟩
  have hnone : IsBlanks [] := by simp [IsBlanks]
  have hblank : IsBlanks [' '] := by simp [IsBlanks, show Text.isBlank ' ' = true by decide]
  have hvisible : Text.isBlank 'u' = false := by decide
  have hbare : IsBare "u".toList := ⟨by simp, by simp [hvisible], by simp [hvisible]⟩
  have hrealm : WritesParameter realm _ := ⟨_, .quoted _, rfl⟩
  have haddress : WritesParameter address _ := ⟨_, .bare hbare, rfl⟩
  have hscope : WritesParameter scope _ := ⟨_, .quoted _, rfl⟩
  have hbasic : WritesOffer basic _ :=
    .withParameters (show Text.isBlank ' ' = true by decide) hnone (.single hrealm)
  have hbearer : WritesOffer bearer _ :=
    .withParameters (show Text.isBlank ' ' = true by decide) hnone
      (.cons haddress hnone hnone (.single hscope))
  have hheader : WritesHeader [basic, bearer] _ _ := .cons hbasic hblank hnone (.single hbearer)
  have husable : bearer.IsUsable "u" := ⟨by decide +kernel, by decide +kernel, by decide +kernel⟩
  have hbefore : ∀ b ∈ [basic], ∀ r, ¬b.IsUsable r := by
    intro b hb r husable
    rw [List.mem_singleton.1 hb] at husable
    exact absurd husable.bearer (by decide)
  refine ⟨basic, bearer, _, hheader, ?_⟩
  exact (parse_undoes_writing hheader).2.2.1 [basic] bearer [] "u" rfl hbefore husable

end ImageLookup.Challenge
