import ImageLookup.Authentication

/-! # Answers of token services

A token may stand in either of two fields of an answer.  The answer is read as a whole: each of the two
fields must be a text or `null` where it is there at all, and every name must be a text.  An answer that
is `Regular` in this sense gives what its fields give one by one (`fieldwise?`), whatever other members
it has.  Any other answer gives nothing, even where one of the two fields holds a token
(`exchange_reads_whole`, `exchange_spoiled_by_number`).
-/

namespace ImageLookup

open Http (Request Response Network)
open Json (Piece Tree textOf?)

namespace TokenFields

abbrev Member := List Piece × Tree

/-! ### Field by field -/

def member? (name : String) (members : List Member) : Option Tree :=
  (members.find? fun m => textOf? m.1 == some name).map Prod.snd

/-- No name occurs twice. -/
def Distinct (members : List Member) : Prop :=
  members.Pairwise fun a b => ∀ name, textOf? a.1 = some name → textOf? b.1 ≠ some name

/-- What can be used of a field: a text that is not empty.  Everything else counts as absent. -/
def usable? : Option Tree → Option String
  | some (.text pieces) => (textOf? pieces).filter (· != "")
  | _ => none

/-- The token of an object each of whose fields is read by itself. -/
def fieldwise? (members : List Member) : Option BearerToken :=
  ((usable? (member? "token" members)).or (usable? (member? "access_token" members))).map
    BearerToken.mk

/-- Whether a field is absent, `null` or a text. -/
def IsPlain : Option Tree → Prop
  | none | some .null => True
  | some (.text pieces) => (textOf? pieces).isSome
  | some _ => False

instance : DecidablePred IsPlain
  | none | some .null => .isTrue trivial
  | some (.text pieces) => inferInstanceAs (Decidable (textOf? pieces).isSome)
  | some (.bool _) | some (.number _) | some (.array _) | some (.object _) => .isFalse id

structure Regular (members : List Member) : Prop where
  names : ∀ m ∈ members, (textOf? m.1).isSome
  token : IsPlain (member? "token" members)
  accessToken : IsPlain (member? "access_token" members)

theorem distinct_of_nodup {members : List Member}
    (h : (members.map fun m => textOf? m.1).Nodup) : Distinct members :=
  (List.pairwise_map.1 h).imp fun hne _ ha hb => hne (ha.trans hb.symm)

section Members

variable {name : String} {m : Member} {members : List Member}

theorem member?_cons_self (h : textOf? m.1 = some name) :
    member? name (m :: members) = some m.2 := by
  simp [member?, h]

theorem member?_cons_ne (h : textOf? m.1 ≠ some name) :
    member? name (m :: members) = member? name members := by
  simp [member?, h]

/-- Where no name occurs twice, the first member of a name is the only one. -/
theorem Distinct.member?_eq_none (h : Distinct (m :: members)) (hname : textOf? m.1 = some name) :
    member? name members = none := by
  have hrest := (List.pairwise_cons.1 h).1
  simp only [member?, Option.map_eq_none_iff, List.find?_eq_none, beq_iff_eq]
  intro m' hm'
  exact hrest m' hm' name hname

end Members

/-! ### As a whole -/

/-- What is known of a field after its member, if it has one. -/
def taken? (seen : Option (Option String)) : Option Tree → Option (Option (Option String))
  | none => some seen
  | some tree => (field? tree).map some

/-- A text is kept, `null` and a field that is absent count as none. -/
theorem taken?_of_isPlain {field : Option Tree} (h : IsPlain field) :
    ∃ seen, taken? none field = some seen ∧ seen.join.filter (· != "") = usable? field := by
  match field, h with
  | none, _ => exact ⟨none, rfl, rfl⟩
  | some .null, _ => exact ⟨some none, rfl, rfl⟩
  | some (.text pieces), h =>
    obtain ⟨text, htext⟩ := Option.isSome_iff_exists.1 h
    exact ⟨some (some text), by simp [taken?, field?, htext], by simp [usable?, htext]⟩

/-- A value of another type is an error, and not an absent field. -/
theorem taken?_of_not_isPlain {seen : Option (Option String)} {field : Option Tree}
    (h : ¬IsPlain field) : taken? seen field = none := by
  match field, h with
  | none, h => exact absurd trivial h
  | some .null, h => exact absurd trivial h
  | some (.text pieces), h =>
    have htext : textOf? pieces = none := by simpa [IsPlain] using h
    simp [taken?, field?, htext]
  | some (.bool _), _ | some (.number _), _ | some (.array _), _ | some (.object _), _ => rfl

/-- What is known of a field after one more member, which may be its own. -/
def addField? (field name : String) (tree : Tree) (seen : Option (Option String)) :
    Option (Option (Option String)) :=
  if name = field then if seen.isSome then none else (field? tree).map some else some seen

section Fields

variable {field name : String} {m : Member} {members : List Member}

theorem addMember?_eq {seen : Option (Option String) × Option (Option String)}
    (hname : textOf? m.1 = some name) :
    addMember? seen m = do
      let token ← addField? "token" name m.2 seen.1
      let accessToken ← addField? "access_token" name m.2 seen.2
      return (token, accessToken) := by
  by_cases htoken : name = "token"
  · subst htoken
    cases hseen : seen.1 <;> cases htree : field? m.2 <;>
      simp [addMember?, addField?, hname, hseen, htree]
  by_cases haccess : name = "access_token"
  · subst haccess
    cases hseen : seen.2 <;> cases htree : field? m.2 <;>
      simp [addMember?, addField?, hname, hseen, htree]
  · simp [addMember?, addField?, hname, htoken, haccess]

/-- A field is its own member's as long as it has not been seen before. -/
theorem taken?_cons {seen : Option (Option String)} (hdistinct : Distinct (m :: members))
    (hname : textOf? m.1 = some name) (hseen : seen = none ∨ member? field (m :: members) = none) :
    taken? seen (member? field (m :: members)) =
      (addField? field name m.2 seen).bind fun seen' => taken? seen' (member? field members) := by
  by_cases hfield : name = field
  · subst hfield
    have hself : member? name (m :: members) = some m.2 := member?_cons_self hname
    obtain rfl : seen = none := hseen.resolve_right (by simp [hself])
    rw [hself, hdistinct.member?_eq_none hname]
    cases htree : field? m.2 <;> simp [addField?, taken?, htree]
  · rw [member?_cons_ne (by simpa [hname] using hfield)]
    simp [addField?, hfield]

theorem unseen_of_addField? {seen seen' : Option (Option String)} (hdistinct : Distinct (m :: members))
    (hname : textOf? m.1 = some name) (hseen : seen = none ∨ member? field (m :: members) = none)
    (hadd : addField? field name m.2 seen = some seen') :
    seen' = none ∨ member? field members = none := by
  by_cases hfield : name = field
  · subst hfield
    exact .inr (hdistinct.member?_eq_none hname)
  · rw [member?_cons_ne (by simpa [hname] using hfield)] at hseen
    simp only [addField?, hfield, if_false, Option.some.injEq] at hadd
    rwa [← hadd]

end Fields

/-- The members of other names leave no trace, and each of the two fields depends on its own member
    alone. -/
theorem foldlM_addMember? {members : List Member}
    {seen : Option (Option String) × Option (Option String)}
    (hnames : ∀ m ∈ members, (textOf? m.1).isSome) (hdistinct : Distinct members)
    (htoken : seen.1 = none ∨ member? "token" members = none)
    (haccess : seen.2 = none ∨ member? "access_token" members = none) :
    members.foldlM addMember? seen = do
      let token ← taken? seen.1 (member? "token" members)
      let accessToken ← taken? seen.2 (member? "access_token" members)
      return (token, accessToken) := by
  induction members generalizing seen with
  | nil => rfl
  | cons m members ih =>
    obtain ⟨name, hname⟩ := Option.isSome_iff_exists.1 (hnames m List.mem_cons_self)
    rw [List.foldlM_cons, addMember?_eq hname, taken?_cons hdistinct hname htoken,
      taken?_cons hdistinct hname haccess]
    cases hfirst : addField? "token" name m.2 seen.1 with
    | none => rfl
    | some token =>
      cases hsecond : addField? "access_token" name m.2 seen.2 with
      | none => simp
      | some accessToken =>
        exact @ih (token, accessToken)
          (fun m' hm' => hnames m' (List.mem_cons_of_mem m hm')) (List.pairwise_cons.1 hdistinct).2
          (unseen_of_addField? hdistinct hname htoken hfirst)
          (unseen_of_addField? hdistinct hname haccess hsecond)

theorem foldlM_addMember?_eq_none {members : List Member}
    {seen : Option (Option String) × Option (Option String)}
    (h : ∃ m ∈ members, textOf? m.1 = none) : members.foldlM addMember? seen = none := by
  induction members generalizing seen with
  | nil => simp at h
  | cons m members ih =>
    rw [List.foldlM_cons]
    cases hstep : addMember? seen m with
    | none => rfl
    | some seen' =>
      refine ih ?_
      obtain ⟨m', hm', hname⟩ := h
      rcases List.mem_cons.1 hm' with rfl | hm'
      · simp [addMember?, hname] at hstep
      · exact ⟨m', hm', hname⟩

/-- A regular answer yields the token that reading each field by itself would yield. -/
theorem bearer?_of_regular {members : List Member} (hdistinct : Distinct members)
    (h : Regular members) : ((ofTree? (.object members)).getD ⟨none, none⟩).bearer? =
      fieldwise? members := by
  obtain ⟨token, htoken, husable⟩ := taken?_of_isPlain h.token
  obtain ⟨accessToken, haccess, husable'⟩ := taken?_of_isPlain h.accessToken
  rw [ofTree?, foldlM_addMember? h.names hdistinct (.inl rfl) (.inl rfl)]
  simp [htoken, haccess, bearer?, fieldwise?, husable, husable']

/-- One field of another type spoils the whole answer. -/
theorem ofTree?_of_not_regular {members : List Member} (hdistinct : Distinct members)
    (h : ¬Regular members) : ofTree? (.object members) = none := by
  rw [ofTree?]
  by_cases hnames : ∀ m ∈ members, (textOf? m.1).isSome
  · rw [foldlM_addMember? hnames hdistinct (.inl rfl) (.inl rfl)]
    by_cases htoken : IsPlain (member? "token" members)
    · have haccess : ¬IsPlain (member? "access_token" members) := fun haccess =>
        h ⟨hnames, htoken, haccess⟩
      obtain ⟨token, htaken, -⟩ := taken?_of_isPlain htoken
      simp [htaken, taken?_of_not_isPlain haccess]
    · simp [taken?_of_not_isPlain htoken]
  · rw [foldlM_addMember?_eq_none]
    · rfl
    · simpa using hnames

end TokenFields

/-! ### Exchanges -/

namespace Client

variable {σ : Type}

theorem run_exchange (c : Client) (ch : Challenge) (credential : Option Credential)
    (net : Network σ) {network network' : σ} {answer : Response} {elapsed : Nat} {body : Octets}
    (hanswer : net.answer (tokenRequest ch credential) network = (⟨.ok answer, elapsed⟩, network'))
    (hstatus : answer.status = 200) (hbody : answer.body.outcome = .ok body) (memo : Memo) :
    ((c.exchange ch credential).run.run net (.start network memo none)).1 =
      some (.ok (TokenFields.ofBody body).bearer?) := by
  rw [exchange]
  show (Conversation.run net (.send (tokenRequest ch credential) _) _).1 = _
  simp only [Conversation.run, Session.start, hanswer, Session.wait?]
  show (Conversation.run net (ExceptT.run (if answer.status = 200 then do
      let body ← Attempt.body c ch.realm answer
      return (TokenFields.ofBody body).bearer?
    else _)) _).1 = _
  rw [if_pos hstatus]
  show (Conversation.run net (.receive answer.body _) _).1 = _
  simp only [Conversation.run, Session.wait?, hbody]
  rfl

/-- What is exchanged for a challenge when the answer has status 200 and its body is an object in which
    no name occurs twice.  A regular object gives the token of its fields, one by one.  Any other object
    gives none, so that something of another kind in one field discards a token in the other one. -/
theorem exchange_reads_whole (c : Client) (ch : Challenge) (credential : Option Credential)
    (net : Network σ) (network network' : σ) (memo : Memo) (answer : Response) (elapsed : Nat)
    (body : Octets) (members : List TokenFields.Member)
    (hanswer : net.answer (tokenRequest ch credential) network = (⟨.ok answer, elapsed⟩, network'))
    (hstatus : answer.status = 200) (hbody : answer.body.outcome = .ok body)
    (hobject : Tree.read? body = some (.object members)) (hdistinct : TokenFields.Distinct members) :
    let result := ((c.exchange ch credential).run.run net (.start network memo none)).1
    (TokenFields.Regular members → result = some (.ok (TokenFields.fieldwise? members))) ∧
      (¬TokenFields.Regular members → result = some (.ok none)) ∧
      (result = some (.ok (TokenFields.fieldwise? members)) ↔
        TokenFields.Regular members ∨ TokenFields.fieldwise? members = none) := by
  intro result
  have hresult : result =
      some (.ok ((TokenFields.ofTree? (.object members)).getD ⟨none, none⟩).bearer?) := by
    have hrun := run_exchange c ch credential net hanswer hstatus hbody memo
    rwa [TokenFields.ofBody, hobject] at hrun
  have hregular : TokenFields.Regular members →
      result = some (.ok (TokenFields.fieldwise? members)) := by
    intro h
    rw [hresult, TokenFields.bearer?_of_regular hdistinct h]
  have hirregular : ¬TokenFields.Regular members → result = some (.ok none) := by
    intro h
    rw [hresult, TokenFields.ofTree?_of_not_regular hdistinct h]
    rfl
  refine ⟨hregular, hirregular, ?_⟩
  constructor
  · intro hsame
    by_cases h : TokenFields.Regular members
    · exact .inl h
    · rw [hirregular h] at hsame
      exact .inr (Except.ok.inj (Option.some.inj hsame)).symm
  · rintro (h | hnone)
    · exact hregular h
    · by_cases h : TokenFields.Regular members
      · exact hregular h
      · rw [hirregular h, hnone]

/-- A token service that gives the same answer to everyone. -/
def tokenService (body : String) : Network Unit where
  answer _ _ := (⟨.ok ⟨200, [], ⟨.ok (Text.octets body), 0⟩⟩, 0⟩, ())

/-- A field that is `null` and a member of another name leave the token in the other field alone. -/
theorem exchange_reads_whole_null :
    let service := tokenService "\x7b\"token\":null,\"expires_in\":300,\"access_token\":\"A\"\x7d"
    let ch : Challenge := ⟨"Bearer", "https://auth.test", none, none⟩
    ((default.exchange ch none).run.run service (.start () .empty none)).1 =
      some (.ok (some ⟨"A"⟩)) := by
  intro service ch
  let members : List TokenFields.Member :=
    [((Text.octets "token").map .octet, .null),
      ((Text.octets "expires_in").map .octet, .number ⟨false, [3, 0, 0], [], none⟩),
      ((Text.octets "access_token").map .octet, .text [.octet 0x41])]
  have hdistinct : TokenFields.Distinct members :=
    TokenFields.distinct_of_nodup (by decide +kernel)
  have hregular : TokenFields.Regular members :=
    ⟨by decide +kernel, by decide +kernel, by decide +kernel⟩
  have hwhole := exchange_reads_whole default ch none service () () .empty _ 0 _ members rfl rfl rfl
    rfl hdistinct
  have htoken : TokenFields.fieldwise? members = some ⟨"A"⟩ := by decide +kernel
  rw [hwhole.1 hregular, htoken]

/-- A number in one field discards the token in the other one, although each of the two fields can be
    read by itself. -/
theorem exchange_spoiled_by_number :
    let body := "\x7b\"token\":5,\"access_token\":\"A\"\x7d"
    let ch : Challenge := ⟨"Bearer", "http://auth.test/token", none, none⟩
    (∃ members, Tree.read? (Text.octets body) = some (.object members) ∧
      TokenFields.Distinct members ∧ TokenFields.fieldwise? members = some ⟨"A"⟩) ∧
    ((default.exchange ch none).run.run (tokenService body) (.start () .empty none)).1 =
      some (.ok none) := by
  intro body ch
  let members : List TokenFields.Member :=
    [((Text.octets "token").map .octet, .number ⟨false, [5], [], none⟩),
      ((Text.octets "access_token").map .octet, .text [.octet 0x41])]
  have hread : Tree.read? (Text.octets body) = some (.object members) := rfl
  refine ⟨⟨members, hread, TokenFields.distinct_of_nodup (by decide +kernel), by decide +kernel⟩, ?_⟩
  have hnone : (TokenFields.ofBody (Text.octets body)).bearer? = none := by
    rw [TokenFields.ofBody, hread]
    decide +kernel
  rw [run_exchange default ch none (tokenService body) rfl rfl rfl .empty, hnone]

end Client

end ImageLookup
