import ImageLookup.Proofs.Resolution.Itinerary

/-! # The protocol of a resolution

Every resolution obeys the protocol of requests, on every network.  Each stage fills its places and no
others, and its result says what was granted or found there (`Settles`); what is due later depends on
nothing else.
-/

namespace ImageLookup

open Http (Request Response Fault Network)

/-! ### What a stage settles -/

/-- A result is a success with just those values that have the property. -/
def Settles {α : Type} (P : α → Prop) (result : Except Failure α) : Prop :=
  ∀ a, P a ↔ result = .ok a

theorem settles_ok {α : Type} {P : α → Prop} {a : α} (h : P a) (hunique : ∀ b, P b → a = b) :
    Settles P (.ok a) := by
  intro b
  constructor
  · intro hb
    rw [hunique b hb]
  · intro heq
    obtain rfl := Except.ok.inj heq
    exact h

theorem settles_error {α : Type} {P : α → Prop} (h : ∀ a, ¬P a) (f : Failure) :
    Settles P (.error f) := by
  intro a
  constructor
  · intro ha
    exact absurd ha (h a)
  · intro heq
    cases heq

theorem Settles.congr {α : Type} {P Q : α → Prop} {result : Except Failure α}
    (h : Settles P result) (hiff : ∀ a, Q a ↔ P a) : Settles Q result :=
  fun a => (hiff a).trans (h a)

theorem Concedes.unique {answer : Except Fault Response} {token token' : Option BearerToken}
    (h : Concedes answer token) (h' : Concedes answer token') : token = token' := by
  cases h with
  | withheld hne =>
    cases h' with
    | withheld => rfl
    | issued hok => exact absurd hok hne
  | issued hok hbody =>
    cases h' with
    | withheld hne => exact absurd hok hne
    | issued _ hbody' =>
      rw [hbody] at hbody'
      rw [Except.ok.inj hbody']

theorem Brings.unique {answer : Except Fault Response} {m m' : Manifest} (h : Brings answer m)
    (h' : Brings answer m') : m = m' := by
  cases h with
  | read _ hbody =>
    cases h' with
    | read _ hbody' =>
      rw [hbody] at hbody'
      rw [Except.ok.inj hbody']

namespace Client

variable {c : Client} {r : Reference} {credential : Option Credential} {events : List Event}
variable {memo : Memo} {token : Option BearerToken}

theorem Exchanges.step {ch : Challenge} {result : Except Failure (Option BearerToken)}
    (h : Exchanges c ch credential events result) :
    ∃ s : Step, Event.steps events = [s] ∧ s.request = tokenRequest ch credential ∧
      Settles (Concedes s.answer) result := by
  cases h with
  | fault =>
    refine ⟨_, rfl, rfl, settles_error ?_ _⟩
    intro token hconcedes
    cases hconcedes
  | forbidden hstatus =>
    refine ⟨_, rfl, rfl, settles_error ?_ _⟩
    intro token hconcedes
    cases hconcedes with
    | withheld _ hne => exact hne hstatus
    | issued hok => simp [hstatus] at hok
  | unread hstatus hbody =>
    refine ⟨_, rfl, rfl, settles_error ?_ _⟩
    intro token hconcedes
    cases hconcedes with
    | withheld hne => exact hne hstatus
    | issued _ hread => simp [hbody] at hread
  | withheld hne hne' =>
    have hconcedes := Concedes.withheld hne hne'
    exact ⟨_, rfl, rfl, settles_ok hconcedes fun _ h => hconcedes.unique h⟩
  | read hstatus hbody =>
    have hconcedes := Concedes.issued hstatus hbody
    exact ⟨_, rfl, rfl, settles_ok hconcedes fun _ h => hconcedes.unique h⟩

/-- A probe that poses no challenge is all there is to its authentication. -/
theorem obeys_probe {answer : Except Fault Response} {wanted : Prop} (hwanted : wanted)
    (hnone : ∀ response ch, answer = .ok response → ¬Probe.Poses c.isWeb response ch) :
    Handshake.Obeys c r credential wanted ⟨some ⟨.get (c.manifestUrl r), answer⟩, none⟩ where
  probe := made_some ⟨hwanted, rfl⟩
  exchange := made_none (by
    rintro request ⟨ch, ⟨_, response, hprobe, hposes⟩, -⟩
    obtain ⟨-, hanswer⟩ := Step.mk.inj (Option.some.inj hprobe)
    exact hnone response ch hanswer hposes)

/-- The steps of an authentication fill its places, and its result is what the places grant. -/
theorem Authenticates.handshake {result : Except Failure (Option BearerToken)}
    (h : Authenticates c r credential events result) :
    ∃ hs : Handshake, Event.steps events = Place.steps hs.places ∧
      (∀ wanted : Prop, wanted → hs.Obeys c r credential wanted) ∧ Settles hs.Grants result := by
  cases h with
  | @fault f elapsed =>
    refine ⟨⟨some ⟨_, .error f⟩, none⟩, rfl, ?_, settles_error ?_ _⟩
    · intro wanted hwanted
      apply obeys_probe hwanted
      intro response ch h
      cases h
    · intro token hgrants
      cases hgrants with
      | unneeded hprobe => cases hprobe
      | conceded hexchange => cases hexchange
  | @refused answer elapsed message hrefuses =>
    refine ⟨⟨some ⟨_, .ok answer⟩, none⟩, rfl, ?_, settles_error ?_ _⟩
    · intro wanted hwanted
      apply obeys_probe hwanted
      rintro _ ch ⟨⟩
      exact hrefuses.2 ch
    · intro token hgrants
      cases hgrants with
      | unneeded hprobe hne =>
        cases hprobe
        exact hne hrefuses.1
      | conceded hexchange => cases hexchange
  | @unneeded answer elapsed hne =>
    refine ⟨⟨some ⟨_, .ok answer⟩, none⟩, rfl, ?_, settles_ok (.unneeded rfl hne) ?_⟩
    · intro wanted hwanted
      apply obeys_probe hwanted
      rintro _ ch ⟨⟩ hposes
      exact hne hposes.1
    · intro token hgrants
      cases hgrants with
      | unneeded => rfl
      | conceded hexchange => cases hexchange
  | @challenged answer elapsed ch events _ hposes hexchange =>
    obtain ⟨s, hsteps, hrequest, hsettles⟩ := hexchange.step
    refine ⟨⟨some ⟨_, .ok answer⟩, some s⟩, congrArg (_ :: ·) hsteps, ?_, hsettles.congr ?_⟩
    · intro wanted hwanted
      exact ⟨made_some ⟨hwanted, rfl⟩, made_some ⟨ch, ⟨_, answer, rfl, hposes⟩, hrequest⟩⟩
    · intro token
      constructor
      · intro hgrants
        cases hgrants with
        | unneeded hprobe hne =>
          cases hprobe
          exact absurd hposes.1 hne
        | conceded hexchange hconcedes =>
          cases hexchange
          exact hconcedes
      · intro hconcedes
        exact .conceded rfl hconcedes

/-- A negotiation ends with the answer to its first request, unless that is declined. -/
theorem Negotiates.step {mediaType : String} {mediaTypes : List String}
    {result : Except Failure Manifest}
    (h : Negotiates c r token (mediaType :: mediaTypes) events result) :
    ∃ s : Step, s.request = contentRequest (c.manifestUrl r) mediaType token ∧
      ((Event.steps events = [s] ∧ (∀ answer, s.answer = .ok answer → answer.status = 200) ∧
          Settles (Brings s.answer) result) ∨
        ∃ answer rest, s.answer = .ok answer ∧ answer.status ≠ 200 ∧
          Event.steps events = s :: Event.steps rest ∧ Negotiates c r token mediaTypes rest result) := by
  cases h with
  | fault =>
    refine ⟨_, rfl, .inl ⟨rfl, ?_, settles_error ?_ _⟩⟩
    · intro answer h
      cases h
    · intro m hbrings
      cases hbrings
  | unread hstatus hbody =>
    refine ⟨_, rfl, .inl ⟨rfl, ?_, settles_error ?_ _⟩⟩
    · rintro _ ⟨⟩
      exact hstatus
    · rintro m ⟨-, hread⟩
      simp [hbody] at hread
  | delivered hstatus hbody =>
    have hbrings := Brings.read hstatus hbody
    refine ⟨_, rfl, .inl ⟨rfl, ?_, settles_ok hbrings fun _ h => hbrings.unique h⟩⟩
    rintro _ ⟨⟩
    exact hstatus
  | declined hne hrest => exact ⟨_, rfl, .inr ⟨_, _, rfl, hne, rfl, hrest⟩⟩

theorem not_brings_of_declined {answer : Response} {m : Manifest} (hne : answer.status ≠ 200) :
    ¬Brings (.ok answer) m := by
  rintro ⟨hok, -⟩
  exact hne hok

theorem Negotiates.last {mediaType : String} {result : Except Failure Manifest}
    (h : Negotiates c r token [mediaType] events result) :
    ∃ s : Step, s.request = contentRequest (c.manifestUrl r) mediaType token ∧
      Event.steps events = [s] ∧ Settles (Brings s.answer) result := by
  obtain ⟨s, hrequest, ⟨hsteps, -, hsettles⟩ | ⟨answer, rest, hanswer, hne, hsteps, hrest⟩⟩ := h.step
  · exact ⟨s, hrequest, hsteps, hsettles⟩
  · cases hrest
    refine ⟨s, hrequest, hsteps, settles_error ?_ _⟩
    intro m
    rw [hanswer]
    exact not_brings_of_declined hne

/-- The search that a negotiation completes. -/
theorem Negotiates.search {first second : List Event} {result : Except Failure Manifest}
    (hmiss : memo.get? (.of r credential) = none)
    (hfirst : Authenticates c r credential first (.ok token))
    (hsecond : Negotiates c r token negotiationOrder second result) :
    ∃ s : Search, Event.steps (first ++ second) = Place.steps s.places ∧ s.Obeys c memo r credential ∧
      Settles (s.Finds memo (.of r credential)) result := by
  obtain ⟨hs, hsteps, hobeys, hgrants⟩ := hfirst.handshake
  have hgranted : hs.Grants token := (hgrants token).2 rfl
  obtain ⟨docker, hdocker, ⟨hlast, hok, hsettles⟩ | ⟨answer, rest, hanswer, hne, hrest, hlast⟩⟩ :=
    hsecond.step
  -- No second request is due after an answer with status 200, even if its body cannot be read.
  · refine ⟨⟨hs, some docker, none⟩, ?_, ?_, hsettles.congr ?_⟩
    · rw [Event.steps_append, hsteps, hlast, Search.steps_places]
      rfl
    · refine ⟨hobeys _ hmiss, made_some ⟨token, hgranted, hdocker⟩, made_none ?_⟩
      rintro request ⟨⟨_, answer, heq, hne⟩, -⟩
      apply hne
      apply hok
      rw [Option.some.inj heq]
    · intro m
      constructor
      · intro hfinds
        cases hfinds with
        | remembered hmemo => simp [hmiss] at hmemo
        | docker heq hbrings => rwa [Option.some.inj heq]
        | oci heq => cases heq
      · intro hbrings
        exact .docker rfl hbrings
  · obtain ⟨oci, hoci, hrest', hsettles⟩ := hlast.last
    obtain ⟨request, _⟩ := docker
    obtain rfl : _ = Except.ok answer := hanswer
    refine ⟨⟨hs, some ⟨request, .ok answer⟩, some oci⟩, ?_, ?_, hsettles.congr ?_⟩
    · rw [Event.steps_append, hsteps, hrest, hrest', Search.steps_places]
      rfl
    · exact ⟨hobeys _ hmiss, made_some ⟨token, hgranted, hdocker⟩,
        made_some ⟨⟨request, answer, rfl, hne⟩, token, hgranted, hoci⟩⟩
    · intro m
      constructor
      · intro hfinds
        cases hfinds with
        | remembered hmemo => simp [hmiss] at hmemo
        | docker heq hbrings =>
          rw [← Option.some.inj heq] at hbrings
          exact absurd hbrings (not_brings_of_declined hne)
        | oci heq hbrings => rwa [Option.some.inj heq]
      · intro hbrings
        exact .oci rfl hbrings

/-- Nothing is due where no authentication is wanted. -/
theorem obeys_idle {wanted : Prop} (h : ¬wanted) :
    Handshake.Obeys c r credential wanted ⟨none, none⟩ where
  probe := made_none fun _ hdue => h hdue.1
  exchange := made_none (by
    rintro request ⟨ch, ⟨_, _, hprobe, -⟩, -⟩
    cases hprobe)

theorem not_grants_idle : ¬Handshake.Grants ⟨none, none⟩ token := by
  intro h
  cases h with
  | unneeded hprobe => cases hprobe
  | conceded hexchange => cases hexchange

/-- The steps of a lookup fill the places of a search; a hit in the memo fills none. -/
theorem LooksUp.search {result : Except Failure Manifest}
    (h : LooksUp c memo r credential events result) :
    ∃ s : Search, Event.steps events = Place.steps s.places ∧ s.Obeys c memo r credential ∧
      Settles (s.Finds memo (.of r credential)) result := by
  cases h with
  | @remembered m hmemo =>
    refine ⟨⟨⟨none, none⟩, none, none⟩, rfl, ⟨obeys_idle ?_, ?_, ?_⟩,
      settles_ok (.remembered hmemo) ?_⟩
    · simp [hmemo]
    · apply made_none
      rintro request ⟨token, hgrants, -⟩
      exact not_grants_idle hgrants
    · apply made_none
      rintro request ⟨-, token, hgrants, -⟩
      exact not_grants_idle hgrants
    · intro m' hfinds
      cases hfinds with
      | remembered hmemo' =>
        rw [hmemo] at hmemo'
        exact Option.some.inj hmemo'
      | docker heq => cases heq
      | oci heq => cases heq
  | unauthenticated hmiss hfirst =>
    obtain ⟨hs, hsteps, hobeys, hgrants⟩ := hfirst.handshake
    have hungranted : ∀ token, ¬hs.Grants token := by
      intro token h
      cases (hgrants token).1 h
    refine ⟨⟨hs, none, none⟩, ?_, ⟨hobeys _ hmiss, ?_, ?_⟩, settles_error ?_ _⟩
    · rw [hsteps, Search.steps_places]
      exact (List.append_nil _).symm
    · apply made_none
      rintro request ⟨token, hgrants, -⟩
      exact hungranted token hgrants
    · apply made_none
      rintro request ⟨-, token, hgrants, -⟩
      exact hungranted token hgrants
    · intro m hfinds
      cases hfinds with
      | remembered hmemo => simp [hmiss] at hmemo
      | docker heq => cases heq
      | oci heq => cases heq
  | undelivered hmiss hfirst hsecond => exact Negotiates.search hmiss hfirst hsecond
  | delivered hmiss hfirst hsecond =>
    obtain ⟨s, hsteps, hrest⟩ := Negotiates.search hmiss hfirst hsecond
    refine ⟨s, ?_, hrest⟩
    rw [Event.steps_append, hsteps]
    exact List.append_nil _

/-! ### Resolutions obey -/

variable {Wanted : Digest → Prop}

theorem retrieval_idle (hnone : ∀ d, ¬Wanted d) :
    Retrieval.Obeys c r credential Wanted ⟨⟨none, none⟩, none⟩ where
  handshake := obeys_idle fun ⟨d, hwanted⟩ => hnone d hwanted
  blob := made_none (by
    rintro request ⟨token, d, hgrants, -⟩
    exact not_grants_idle hgrants)

/-- A blob is asked for after an authentication that succeeded, and only then. -/
theorem Fetches.stages {d : Digest} {result : Except Failure (Option ImageConfig)}
    (h : Fetches c r d credential events result) :
    (∃ f, Authenticates c r credential events (.error f)) ∨
    ∃ first token answer, Authenticates c r credential first (.ok token) ∧
      Event.steps events = Event.steps first ++
        [⟨contentRequest (c.blobUrl r d) "application/json" token, answer⟩] := by
  cases h with
  | unauthenticated hfirst => exact .inl ⟨_, hfirst⟩
  | fault hfirst | declined hfirst | unread hfirst | read hfirst =>
    exact .inr ⟨_, _, _, hfirst, Event.steps_append _ _⟩

theorem Fetches.retrieval {d : Digest} {result : Except Failure (Option ImageConfig)}
    (h : Fetches c r d credential events result) (hwanted : ∀ d', Wanted d' ↔ d' = d) :
    ∃ t : Retrieval, Event.steps events = Place.steps t.places ∧
      t.Obeys c r credential Wanted := by
  have hsome : ∃ d', Wanted d' := ⟨d, (hwanted d).2 rfl⟩
  obtain ⟨f, hfirst⟩ | ⟨first, token, answer, hfirst, hlast⟩ := h.stages
  · obtain ⟨hs, hsteps, hobeys, hgrants⟩ := hfirst.handshake
    refine ⟨⟨hs, none⟩, ?_, hobeys _ hsome, made_none ?_⟩
    · rw [hsteps, Retrieval.steps_places]
      exact (List.append_nil _).symm
    · rintro request ⟨token, d', hgranted, -⟩
      cases (hgrants token).1 hgranted
  · obtain ⟨hs, hsteps, hobeys, hgrants⟩ := hfirst.handshake
    refine ⟨⟨hs, some ⟨contentRequest (c.blobUrl r d) "application/json" token, answer⟩⟩, ?_,
      hobeys _ hsome, made_some ?_⟩
    · rw [hlast, hsteps, Retrieval.steps_places]
      rfl
    · exact ⟨token, d, (hgrants token).2 rfl, (hwanted d).2 rfl, rfl⟩

theorem Locates.retrieval {m : Manifest} {directory : String}
    (h : Locates c r m credential events directory)
    (hwanted : ∀ d, Wanted d ↔ m.configDigest? = some d) :
    ∃ t : Retrieval, Event.steps events = Place.steps t.places ∧
      t.Obeys c r credential Wanted := by
  cases h with
  | unnamed hdigest =>
    refine ⟨⟨⟨none, none⟩, none⟩, rfl, retrieval_idle ?_⟩
    intro d hd
    rw [hwanted, hdigest] at hd
    cases hd
  | named hdigest hfetches =>
    apply hfetches.retrieval
    intro d
    rw [hwanted, hdigest, Option.some_inj, eq_comm]

/-- What a resolution does, undisturbed, obeys the protocol. -/
theorem resolveReference_itinerary {result : Except Failure Resolution}
    (h : (c.resolveReference memo r credential).Yields events result) :
    ∃ i : Itinerary, Event.steps events = i.steps ∧ i.Obeys c memo r credential := by
  rcases resolveReference_yields h with
    ⟨f, hlooked, -⟩ | ⟨first, m, second, directory, hlooked, hlocated, rfl, -⟩
  -- A lookup that failed found nothing, so that no blob is wanted.
  · obtain ⟨q, hsteps, hobeys, hfinds⟩ := hlooked.search
    refine ⟨⟨q, ⟨⟨none, none⟩, none⟩⟩, ?_, hobeys, retrieval_idle ?_⟩
    · rw [hsteps, Itinerary.steps_eq]
      exact (List.append_nil _).symm
    · rintro d ⟨m, hfound, -⟩
      cases (hfinds m).1 hfound
  -- The manifest that was delivered is the only one that the search finds.
  · obtain ⟨q, hsteps, hobeys, hfinds⟩ := hlooked.search
    have hwanted : ∀ d, (∃ m', q.Finds memo (.of r credential) m' ∧ m'.configDigest? = some d) ↔
        m.configDigest? = some d := by
      intro d
      constructor
      · rintro ⟨m', hfound, hdigest⟩
        rwa [Except.ok.inj ((hfinds m').1 hfound)]
      · intro hdigest
        exact ⟨m, (hfinds m).2 rfl, hdigest⟩
    obtain ⟨t, hsteps', hobeys'⟩ := hlocated.retrieval hwanted
    refine ⟨⟨q, t⟩, ?_, hobeys, hobeys'⟩
    rw [Event.steps_append, hsteps, hsteps', Itinerary.steps_eq]

end Client

namespace Resolver

variable {σ : Type}

/-- On every network, a resolution that its deadline does not cut off makes the requests of the
    protocol, no more and no others, in the order of their places.  There is only one way to read the
    protocol into them.  There are at most seven, each accepts a single media type, and nothing
    follows a step that failed in transport or in authentication. -/
theorem requests_follow_protocol (rv : Resolver) (net : Network σ) (network : σ) {raw : String}
    {r : Reference} (credential : Option Credential) (hparse : Reference.parse raw = .ok r)
    (htimely : rv.Timely net network raw credential) :
    ∃ i : Itinerary,
      i.Obeys rv.client rv.memo r credential ∧
      Event.steps (rv.resolved net network r credential).events = i.steps ∧
      (rv.resolve net network raw credential).sent = i.steps.map Step.request ∧
      (∀ i' : Itinerary, i'.Obeys rv.client rv.memo r credential → i'.steps = i.steps → i' = i) ∧
      (rv.resolve net network raw credential).sent.length ≤ 7 ∧
      (∀ q ∈ (rv.resolve net network raw credential).sent, isMediaType q.accept = true) ∧
      Place.Halts rv.client i.places := by
  obtain ⟨i, hsteps, hobeys⟩ := Client.resolveReference_itinerary
    (Conversation.yields_transcript net (rv.client.resolveReference rv.memo r credential) network)
  have hsent : (rv.resolve net network raw credential).sent = i.steps.map Step.request := by
    rw [(resolve_of_timely hparse htimely).2, Event.requests_eq_map_steps, ← hsteps]
    rfl
  refine ⟨i, hobeys, hsteps, hsent, ?_, ?_, ?_, hobeys.halts⟩
  · intro i' hobeys' hsame
    exact hobeys'.unique hobeys hsame
  · rw [hsent, List.length_map]
    exact i.length_steps_le
  · intro q hq
    rw [hsent] at hq
    obtain ⟨s, hs, rfl⟩ := List.mem_map.1 hq
    exact hobeys.accept_isMediaType hs

/-- A registry that challenges whoever has no token, has its manifests in the OCI media type only and
    has lost its blobs, with the service that gives the tokens. -/
def reluctant : Network Unit where
  answer q _ :=
    let challenge := "Bearer realm=\"http://auth.test/token\""
    let digest := "sha256:310a58a2b62ae774c6f9c0b6b09b7f301792328f1bb1c54ddfa12116a5ec27e2"
    let manifest := "\x7b\"config\":\x7b\"digest\":\"" ++ digest ++ "\"\x7d\x7d"
    if q.url = "http://auth.test/token" then
      (⟨.ok ⟨200, [], ⟨.ok (Text.octets "\x7b\"token\":\"t\"\x7d"), 1⟩⟩, 1⟩, ())
    else if q.authorization = none then
      (⟨.ok ⟨401, [("WWW-Authenticate", Text.octets challenge)], ⟨.ok [], 1⟩⟩, 1⟩, ())
    else if q.accept = ociManifestType then
      (⟨.ok ⟨200, [], ⟨.ok (Text.octets manifest), 1⟩⟩, 1⟩, ())
    else (⟨.ok ⟨404, [], ⟨.ok [], 1⟩⟩, 1⟩, ())

theorem requests_follow_protocol_reluctant :
    let r : Reference := ⟨"registry.test", "app", .tag "1"⟩
    let rv : Resolver := .new .default (some 5000)
    Reference.parse "registry.test/app:1" = .ok r ∧
      rv.Timely reluctant () "registry.test/app:1" (some ⟨"s"⟩) ∧
      (rv.resolve reluctant () "registry.test/app:1" (some ⟨"s"⟩)).sent.map (·.accept) =
        ["*/*", "application/json", dockerManifestType, ociManifestType, "*/*", "application/json",
          "application/json"] ∧
      ∃ i : Itinerary, i.Obeys rv.client rv.memo r (some ⟨"s"⟩) ∧ i.steps.length = 7 := by
  intro r rv
  have hparse : Reference.parse "registry.test/app:1" = .ok r := by decide +kernel
  have htimely : rv.Timely reluctant () "registry.test/app:1" (some ⟨"s"⟩) := by
    intro r' hparse'
    obtain rfl := Except.ok.inj (hparse.symm.trans hparse')
    decide +kernel
  have haccepts : (rv.resolve reluctant () "registry.test/app:1" (some ⟨"s"⟩)).sent.map (·.accept) =
      ["*/*", "application/json", dockerManifestType, ociManifestType, "*/*", "application/json",
        "application/json"] := by decide +kernel
  obtain ⟨i, hobeys, -, hsent, -⟩ :=
    requests_follow_protocol rv reluctant () (some ⟨"s"⟩) hparse htimely
  refine ⟨hparse, htimely, haccepts, i, hobeys, ?_⟩
  have hlength := congrArg List.length haccepts
  rwa [hsent, List.length_map, List.length_map] at hlength

end Resolver

end ImageLookup
