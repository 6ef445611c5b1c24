import Mathlib.Data.List.Forall2
import ImageLookup.Proofs.Challenge.Reading
import ImageLookup.Proofs.Conversation.Stages

/-! # Offers in several header fields

A server may write its offers into one header field or spread them over several.  A probe looks for
the first offer of a token within each field and then among the fields.  A field asks for a token
just if one of its offers does, so this comes down to the first offer of a token among all of them,
and what a probe finds does not depend on where one field ends and the next begins.
-/

namespace ImageLookup

open Http (Network Response)

/-! ### Visible text -/

namespace Http

/-- The characters of visible text: those of ASCII that are shown, blanks and tabs. -/
def isVisible (c : Char) : Bool := c == '\t' || (0x20 ≤ c.toNat && c.toNat ≤ 0x7E)

theorem utf8EncodeChar_of_isVisible {c : Char} (h : isVisible c = true) :
    ∃ o : UInt8, String.utf8EncodeChar c = [o] ∧ (o == 0x09 || (0x20 ≤ o && o ≤ 0x7E)) = true ∧
      Char.ofUInt8 o = c := by
  have hbound : c.toNat < 127 := by
    simp only [isVisible, Bool.or_eq_true, beq_iff_eq, Bool.and_eq_true, decide_eq_true_eq] at h
    rcases h with rfl | ⟨-, h⟩
    · decide
    · omega
  have hall : ∀ m : Fin 127, isVisible (Char.ofNat m) = true →
      String.utf8EncodeChar (Char.ofNat m) = [UInt8.ofNat m] ∧
        (UInt8.ofNat m == 0x09 || (0x20 ≤ UInt8.ofNat m && UInt8.ofNat m ≤ 0x7E)) = true ∧
        Char.ofUInt8 (UInt8.ofNat m) = Char.ofNat m := by
    decide +kernel
  have hchar := hall ⟨c.toNat, hbound⟩
  simp only [Char.ofNat_toNat] at hchar
  exact ⟨_, hchar h⟩

/-- A field of visible characters is read as the text that it spells. -/
theorem visibleText?_octets {cs : List Char} (h : ∀ c ∈ cs, isVisible c = true) :
    visibleText? (Text.octets (String.ofList cs)) = some (String.ofList cs) := by
  have hoctets : (Text.octets (String.ofList cs)).all
        (fun o => o == 0x09 || (0x20 ≤ o && o ≤ 0x7E)) = true ∧
      (Text.octets (String.ofList cs)).map Char.ofUInt8 = cs := by
    rw [Text.octets_ofList]
    induction cs with
    | nil => exact ⟨rfl, rfl⟩
    | cons c cs ih =>
      obtain ⟨o, hencode, hshown, hchar⟩ := utf8EncodeChar_of_isVisible (h c List.mem_cons_self)
      obtain ⟨hall, hmap⟩ := ih fun d hd => h d (List.mem_cons_of_mem c hd)
      rw [List.flatMap_cons, hencode]
      simp only [List.singleton_append, List.all_cons, List.map_cons, hshown, hall, hchar, hmap]
      exact ⟨rfl, trivial⟩
  rw [visibleText?, if_pos hoctets.1, hoctets.2]

end Http

namespace Challenge

/-! ### Fields -/

/-- A field that holds offers, or nothing. -/
inductive WritesField : List Offer → List (List Char) → List Char → Prop
  | nothing : WritesField [] [] []
  | offers {offers texts field} (h : WritesHeader offers texts field) :
    WritesField offers texts field

/-- Offers that are distributed, in order, over the values of the header.  Values that are not visible
    text may stand anywhere among them. -/
inductive WritesFields : List (List Offer) → List (List (List Char)) → List Octets → Prop
  | done : WritesFields [] [] []
  | skipped {groups texts value values} (h : Http.visibleText? value = none)
      (hrest : WritesFields groups texts values) : WritesFields groups texts (value :: values)
  | written {offers groups texts textss field values} (h : WritesField offers texts field)
      (hvisible : ∀ c ∈ field, Http.isVisible c = true)
      (hrest : WritesFields groups textss values) :
    WritesFields (offers :: groups) (texts :: textss)
      (Text.octets (String.ofList field) :: values)

variable {offers : List Offer} {texts : List (List Char)} {field : List Char}
  {groups groups' : List (List Offer)} {textss textss' : List (List (List Char))}
  {values values' : List Octets}

/-- A field asks for a token if one of its offers does, and then like the first of them. -/
theorem WritesField.find?_parse (h : WritesField offers texts field) :
    [parse (String.ofList field)].find? asksForToken =
      (offers.map Offer.outcome).find? asksForToken := by
  cases h with
  | nothing => rfl
  | offers hwritten =>
    rw [← String.toList_ofList (l := field)] at hwritten
    rw [parse_eq hwritten, List.find?_map, Function.comp_def]
    cases hfind : offers.find? fun o => asksForToken o.outcome with
    | some o =>
      have hasks := List.find?_some (p := fun o : Offer => asksForToken o.outcome) hfind
      exact List.find?_cons_of_pos hasks
    | none =>
      obtain ⟨first, rest, rfl⟩ := List.exists_cons_of_ne_nil hwritten.ne_nil
      exact List.find?_cons_of_neg (List.find?_eq_none.1 hfind first List.mem_cons_self)

/-- It is the offers that count, and not the fields that they stand in. -/
theorem WritesFields.find?_parse (h : WritesFields groups textss values) :
    ((values.filterMap Http.visibleText?).map parse).find? asksForToken =
      (groups.flatten.map Offer.outcome).find? asksForToken := by
  induction h with
  | done => rfl
  | skipped h hrest ih => rw [List.filterMap_cons_none h, ih]
  | @written offers groups texts textss field values h hvisible hrest ih =>
    rw [List.filterMap_cons_some (Http.visibleText?_octets hvisible), List.map_cons,
      ← List.singleton_append, List.find?_append, h.find?_parse, ih, List.flatten_cons,
      List.map_append, List.find?_append]

/-- So every way to put the same offers into fields gives the same challenge. -/
theorem WritesFields.first?_eq (h : WritesFields groups textss values)
    (h' : WritesFields groups' textss' values') (hsame : groups.flatten = groups'.flatten) :
    first? (values.filterMap Http.visibleText?) = first? (values'.filterMap Http.visibleText?) := by
  rw [first?, first?, h.find?_parse, h'.find?_parse, hsame]

/-- The challenge is that of the first usable offer. -/
theorem WritesFields.first?_eq_some (h : WritesFields groups textss values)
    {before after : List Offer} {o : Offer} {realm : String}
    (hoffers : groups.flatten = before ++ o :: after)
    (hbefore : ∀ b ∈ before, ∀ r, ¬b.IsUsable r) (husable : o.IsUsable realm) :
    first? (values.filterMap Http.visibleText?) = some (o.challenge realm) := by
  have hpassed : (before.map Offer.outcome).find? asksForToken = none := by
    rw [List.find?_eq_none]
    intro outcome houtcome hasks
    obtain ⟨b, hb, rfl⟩ := List.mem_map.1 houtcome
    obtain ⟨r, hr⟩ := asksForToken_outcome_iff.1 hasks
    exact hbefore b hb r hr
  have hasks := asksForToken_outcome_iff.2 ⟨realm, husable⟩
  rw [first?, h.find?_parse, hoffers, List.map_append, List.find?_append, hpassed, Option.none_or,
    List.map_cons, List.find?_cons_of_pos hasks, outcome_eq_ok husable]
  rfl

/-! ### One field for all -/

section Joined

variable {α : Type} {writes : α → List Char → Prop} {items : List α} {whole : List Char}

theorem Joined.forall₂ (h : Joined writes items texts whole) :
    List.Forall₂ writes items texts := by
  induction h with
  | single h => exact .cons h .nil
  | cons h hbefore hafter hrest ih => exact .cons h ih

theorem Joined.mem_whole (h : Joined writes items texts whole) :
    ∀ text ∈ texts, ∀ c ∈ text, c ∈ whole := by
  induction h with
  | single h =>
    intro text htext c hc
    rwa [List.mem_singleton.1 htext] at hc
  | cons h hbefore hafter hrest ih =>
    intro text htext c hc
    rcases List.mem_cons.1 htext with rfl | htext
    · exact List.mem_append_left _ hc
    · have hwhole := ih text htext c hc
      simp [hwhole]

end Joined

/-- Offers with a comma and a blank between two of them. -/
def joinTexts (texts : List (List Char)) : List Char := List.intercalate [',', ' '] texts

theorem writesField_joinTexts (h : List.Forall₂ WritesOffer offers texts) :
    WritesField offers texts (joinTexts texts) := by
  cases h with
  | nil => exact .nothing
  | @cons o text offers texts h hrest =>
    refine .offers ?_
    induction hrest generalizing o text with
    | nil =>
      rw [joinTexts, List.intercalate_singleton]
      exact .single h
    | @cons o' text' offers texts h' hrest ih =>
      have hjoin : joinTexts (text :: text' :: texts) =
          text ++ ([] ++ ',' :: ([' '] ++ joinTexts (text' :: texts))) := by
        rw [joinTexts, List.intercalate_cons_cons]
        simp [joinTexts]
      have hblank : IsBlanks [' '] := by
        intro c hc
        rw [List.mem_singleton.1 hc]
        decide
      rw [hjoin]
      exact .cons h (by simp [IsBlanks]) hblank (ih h')

theorem isVisible_of_mem_joinTexts (h : ∀ text ∈ texts, ∀ c ∈ text, Http.isVisible c = true) :
    ∀ c ∈ joinTexts texts, Http.isVisible c = true := by
  induction texts with
  | nil =>
    intro c hc
    cases hc
  | cons text texts ih =>
    have hrest := ih fun t ht => h t (List.mem_cons_of_mem text ht)
    have hfirst := h text List.mem_cons_self
    cases texts with
    | nil =>
      rw [joinTexts, List.intercalate_singleton]
      exact hfirst
    | cons text' texts =>
      intro c hc
      rw [joinTexts, List.intercalate_cons_cons, List.mem_append, List.mem_append] at hc
      rcases hc with (hc | hc) | hc
      · exact hfirst c hc
      · have hseparator : [',', ' '].all Http.isVisible = true := by decide
        exact List.all_eq_true.1 hseparator c hc
      · exact hrest c hc

theorem WritesField.forall₂ (h : WritesField offers texts field) :
    List.Forall₂ WritesOffer offers texts := by
  cases h with
  | nothing => exact .nil
  | offers hwritten => exact hwritten.forall₂

theorem WritesField.mem_field (h : WritesField offers texts field) :
    ∀ text ∈ texts, ∀ c ∈ text, c ∈ field := by
  cases h with
  | nothing =>
    intro text htext
    cases htext
  | offers hwritten => exact hwritten.mem_whole

theorem WritesFields.forall₂ (h : WritesFields groups textss values) :
    List.Forall₂ WritesOffer groups.flatten textss.flatten := by
  induction h with
  | done => exact .nil
  | skipped h hrest ih => exact ih
  | written h hvisible hrest ih =>
    rw [List.flatten_cons, List.flatten_cons]
    exact List.rel_append h.forall₂ ih

theorem WritesFields.isVisible (h : WritesFields groups textss values) :
    ∀ text ∈ textss.flatten, ∀ c ∈ text, Http.isVisible c = true := by
  induction h with
  | done =>
    intro text htext
    cases htext
  | skipped h hrest ih => exact ih
  | written h hvisible hrest ih =>
    intro text htext c hc
    rw [List.flatten_cons, List.mem_append] at htext
    rcases htext with htext | htext
    · exact hvisible c (h.mem_field text htext c hc)
    · exact ih text htext c hc

/-- What stands in several fields may as well stand in one. -/
theorem WritesFields.joined (h : WritesFields groups textss values) :
    WritesFields [groups.flatten] [textss.flatten]
      [Text.octets (String.ofList (joinTexts textss.flatten))] :=
  .written (writesField_joinTexts h.forall₂) (isVisible_of_mem_joinTexts h.isVisible) .done

/-! ### Realms -/

theorem realm_ne_of_ofText? {text : List Char} {ch : Challenge} (h : ofText? text = .ok ch) :
    ch.realm ≠ "" := by
  unfold ofText? at h
  split at h
  · cases h
  · dsimp only at h
    split at h
    · cases h
    · rename_i realm hrealm
      rw [Option.filter_eq_some_iff, bne_iff_ne] at hrealm
      cases h
      exact hrealm.2

theorem realm_ne_of_parse {header : String} {ch : Challenge} (h : parse header = .ok ch) :
    ch.realm ≠ "" := by
  have hread : ∃ text, ofText? text = .ok ch := by
    rw [parse] at h
    split at h
    · rename_i read hfind
      obtain ⟨text, -, htext⟩ := List.mem_map.1 (List.mem_of_find?_eq_some hfind)
      exact ⟨text, htext.trans h⟩
    · cases hsplit : split header.toList with
      | nil =>
        rw [hsplit] at h
        cases h
      | cons text texts =>
        rw [hsplit] at h
        exact ⟨text, h⟩
  obtain ⟨text, htext⟩ := hread
  exact realm_ne_of_ofText? htext

end Challenge

/-! ### Findings -/

namespace Probe

variable {isWeb : String → Bool}

/-- Two probes find the same challenge, or the registry rejects both. -/
def SameFinding (x y : Except Failure Probe) : Prop :=
  (∃ ch, x = .ok (.challenged ch) ∧ y = .ok (.challenged ch)) ∨
    ∃ message message', x = .error (.authenticationRejected message (some 401)) ∧
      y = .error (.authenticationRejected message' (some 401))

theorem ofResponse_of_poses (url : String) {answer : Response} {ch : Challenge}
    (h : Poses isWeb answer ch) : ofResponse isWeb url answer = .ok (.challenged ch) := by
  rcases ofResponse_cases isWeb url answer with ⟨hstatus, -⟩ | ⟨ch', h', hok⟩ | ⟨hrefuses, -⟩
  · exact absurd h.1 hstatus
  · have hsame : some ch' = some ch := h'.2.1.symm.trans h.2.1
    obtain rfl := Option.some.inj hsame
    exact hok
  · exact absurd h (hrefuses.2 ch)

theorem ofResponse_of_refuses (url : String) {answer : Response} (h : Refuses isWeb answer) :
    ∃ message, ofResponse isWeb url answer = .error (unauthorized message) := by
  rcases ofResponse_cases isWeb url answer with ⟨hstatus, -⟩ | ⟨ch, hposes, -⟩ | ⟨-, herror⟩
  · exact absurd h.1 hstatus
  · exact absurd hposes (h.2 ch)
  · exact herror

/-- Of an answer with status 401, only the first challenge in its headers counts. -/
theorem sameFinding_of_first?_eq {url : String} {a b : Response} (ha : a.status = 401)
    (hb : b.status = 401)
    (hfirst : Challenge.first? (a.texts "www-authenticate") =
      Challenge.first? (b.texts "www-authenticate")) :
    SameFinding (ofResponse isWeb url a) (ofResponse isWeb url b) := by
  have hposes : ∀ ch, Poses isWeb a ch ↔ Poses isWeb b ch := by
    intro ch
    rw [Poses, Poses, ha, hb, hfirst]
  by_cases hany : ∃ ch, Poses isWeb a ch
  · obtain ⟨ch, hch⟩ := hany
    exact .inl ⟨ch, ofResponse_of_poses url hch, ofResponse_of_poses url ((hposes ch).1 hch)⟩
  · rw [not_exists] at hany
    obtain ⟨message, herror⟩ := ofResponse_of_refuses url ⟨ha, hany⟩
    obtain ⟨message', herror'⟩ := ofResponse_of_refuses url
      ⟨hb, fun ch hch => hany ch ((hposes ch).2 hch)⟩
    exact .inr ⟨message, message', herror, herror'⟩

end Probe

namespace Client

/-- A probe waits for its answer and looks at nothing else. -/
theorem run_probe {σ : Type} (c : Client) (r : Reference) (net : Network σ) (s : Session σ)
    {answer : Response} {elapsed : Nat} {network : σ}
    (h : net.answer (.get (c.manifestUrl r)) s.network = (⟨.ok answer, elapsed⟩, network)) :
    ((c.probe r).run.run net s).1 =
      (s.wait? elapsed).map fun _ => Probe.ofResponse c.isWeb (c.manifestUrl r) answer := by
  have hrun : (c.probe r).run = .send (.get (c.manifestUrl r)) fun received =>
      .done (received.mapError (c.failure (c.manifestUrl r)) >>=
        Probe.ofResponse c.isWeb (c.manifestUrl r)) := by
    refine congrArg (Conversation.send _) (funext fun received => ?_)
    cases received <;> rfl
  rw [hrun, Conversation.run, h]
  unfold Session.wait?
  cases s.timeLeft with
  | none => rfl
  | some left =>
    dsimp only
    by_cases hlate : left < elapsed
    · rw [if_pos hlate, if_pos hlate]
      rfl
    · rw [if_neg hlate, if_neg hlate]
      rfl

/-- What a probe finds depends on the status and on the challenges that are offered, and not on how
    they are distributed over header fields.  Any status but 401 means that no token is needed.
    Status 401 never means that: either there is a challenge with a web address to go to, or the
    registry rejects the request.  Of all the offers it is the first usable one that is found.  And
    offers that stand in several fields, with values among them that are no visible text, lead to the
    same finding as one field that lists them all. -/
theorem probe_indifferent_to_fields (c : Client) (r : Reference) (answer : Response) :
    (∀ (σ : Type) (net : Network σ) (s : Session σ) elapsed network,
      net.answer (.get (c.manifestUrl r)) s.network = (⟨.ok answer, elapsed⟩, network) →
      ((c.probe r).run.run net s).1 =
        (s.wait? elapsed).map fun _ => Probe.ofResponse c.isWeb (c.manifestUrl r) answer) ∧
    (answer.status ≠ 401 → Probe.ofResponse c.isWeb (c.manifestUrl r) answer = .ok .noAuthRequired) ∧
    (answer.status = 401 →
      (∃ ch, Probe.ofResponse c.isWeb (c.manifestUrl r) answer = .ok (.challenged ch) ∧
        ch.isBearer = true ∧ ch.realm ≠ "" ∧ c.isWeb ch.realm = true) ∨
      ∃ message, Probe.ofResponse c.isWeb (c.manifestUrl r) answer =
        .error (.authenticationRejected message (some 401))) ∧
    (∀ groups textss before o after realm, answer.status = 401 →
      Challenge.WritesFields groups textss (answer.values "www-authenticate") →
      groups.flatten = before ++ o :: after → (∀ b ∈ before, ∀ r', ¬b.IsUsable r') →
      o.IsUsable realm → c.isWeb realm = true →
      Probe.ofResponse c.isWeb (c.manifestUrl r) answer = .ok (.challenged (o.challenge realm))) ∧
    (∀ groups textss (joined : Response), answer.status = 401 →
      Challenge.WritesFields groups textss (answer.values "www-authenticate") →
      joined.status = 401 →
      joined.values "www-authenticate" =
        [Text.octets (String.ofList (Challenge.joinTexts textss.flatten))] →
      Probe.SameFinding (Probe.ofResponse c.isWeb (c.manifestUrl r) answer)
        (Probe.ofResponse c.isWeb (c.manifestUrl r) joined)) := by
  refine ⟨fun σ net s elapsed network h => run_probe c r net s h, ?_, ?_, ?_, ?_⟩
  · intro hstatus
    exact if_pos hstatus
  · intro hstatus
    rcases Probe.ofResponse_cases c.isWeb (c.manifestUrl r) answer with
      ⟨hother, -⟩ | ⟨ch, ⟨-, hfirst, hweb⟩, hok⟩ | ⟨-, message, herror⟩
    · exact absurd hstatus hother
    · obtain ⟨hbearer, header, -, hparse⟩ := Challenge.first?_mem hfirst
      exact .inl ⟨ch, hok, hbearer, Challenge.realm_ne_of_parse hparse, hweb⟩
    · exact .inr ⟨message, herror⟩
  · intro groups textss before o after realm hstatus hfields hoffers hbefore husable hweb
    exact Probe.ofResponse_of_poses _
      ⟨hstatus, hfields.first?_eq_some hoffers hbefore husable, hweb⟩
  · intro groups textss joined hstatus hfields hjoined hvalues
    refine Probe.sameFinding_of_first?_eq hstatus hjoined ?_
    rw [Response.texts, Response.texts, hvalues]
    exact hfields.first?_eq hfields.joined (by simp)

/-- Two challenges in one field, something unreadable in the next and a third challenge in the last one:
    the probe goes to the realm of the third, as it does when one field lists them all. -/
theorem probe_indifferent_to_fields_scattered :
    let url := Client.default.manifestUrl ⟨"localhost", "app", .latest⟩
    let found : Except Failure Probe := .ok (.challenged ⟨"Bearer", "https://a.test", none, none⟩)
    let scattered : Response := ⟨401,
      [("WWW-Authenticate", Text.octets (String.ofList "Basic realm=\"x\" ,Bearer".toList)),
        ("www-authenticate", [0xE9]),
        ("WWW-AUTHENTICATE", Text.octets (String.ofList "Bearer realm=\"https://a.test\"".toList))],
      ⟨.ok [], 0⟩⟩
    let joined : Response := ⟨401,
      [("www-authenticate", Text.octets (String.ofList
        "Basic realm=\"x\", Bearer, Bearer realm=\"https://a.test\"".toList))], ⟨.ok [], 0⟩⟩
    (∃ groups textss, groups.length = 2 ∧
      Challenge.WritesFields groups textss (scattered.values "www-authenticate") ∧
      joined.values "www-authenticate" =
        [Text.octets (String.ofList (Challenge.joinTexts textss.flatten))]) ∧
    Probe.ofResponse Client.default.isWeb url joined = found ∧
      Probe.ofResponse Client.default.isWeb url scattered = found := by
  intro url found scattered joined
  let realm : Challenge.Parameter := ⟨"realm".toList, "x".toList, by decide⟩
  let address : Challenge.Parameter := ⟨"realm".toList, "https://a.test".toList, by decide⟩
  let basic : Challenge.Offer := ⟨"Basic".toList, [realm], by decide⟩
  let bare : Challenge.Offer := ⟨"Bearer".toList, [], by decide⟩
  let bearer : Challenge.Offer := ⟨"Bearer".toList, [address], by decide⟩
  have hnone : Challenge.IsBlanks [] := by simp [Challenge.IsBlanks]
  have hspace : Text.isBlank ' ' = true := by decide
  have hblank : Challenge.IsBlanks [' '] := by simp [Challenge.IsBlanks, hspace]
  have hrealm : Challenge.WritesParameter realm _ := ⟨_, .quoted _, rfl⟩
  have haddress : Challenge.WritesParameter address _ := ⟨_, .quoted _, rfl⟩
  have hbasic : Challenge.WritesOffer basic _ := .withParameters hspace hnone (.single hrealm)
  have hbare : Challenge.WritesOffer bare _ := .bare rfl
  have hbearer : Challenge.WritesOffer bearer _ := .withParameters hspace hnone (.single haddress)
  have hfirst : Challenge.WritesField [basic, bare] _ _ :=
    .offers (.cons hbasic hblank hnone (.single hbare))
  have hsecond : Challenge.WritesField [bearer] _ _ := .offers (.single hbearer)
  have hfields : Challenge.WritesFields [[basic, bare], [bearer]] _
      (scattered.values "www-authenticate") :=
    .written hfirst (List.all_eq_true.1 (by decide))
      (.skipped (by decide) (.written hsecond (List.all_eq_true.1 (by decide)) .done))
  have hfound : Probe.ofResponse Client.default.isWeb url joined = found := by decide +kernel
  have hsame := (probe_indifferent_to_fields Client.default ⟨"localhost", "app", .latest⟩
    scattered).2.2.2.2 _ _ joined rfl hfields rfl rfl
  refine ⟨⟨_, _, rfl, hfields, rfl⟩, hfound, ?_⟩
  rcases hsame with ⟨ch, hscattered, hch⟩ | ⟨_, _, -, herror⟩
  · rw [hscattered, ← hch, hfound]
  · exact absurd (hfound.symm.trans herror) (by simp [found])

end Client

end ImageLookup
