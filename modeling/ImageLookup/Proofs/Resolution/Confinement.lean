import ImageLookup.Proofs.Conversation.Stages
import ImageLookup.Proofs.Resolution.Calls

/-! # Confinement of credentials and tokens

A credential goes to the realm of the challenge that the registry has just posed, and a token goes
to the registry in the stage that it was issued for; nothing else carries either.  Whether a request
is permitted depends on what came before it in the same call, so the property is carried through the
stages with the events of the past as an index, and a limit that cuts a call off cannot break it.
-/

namespace ImageLookup

open Http (Request Response Network)

namespace Client

variable {c : Client} {memo : Memo} {r : Reference} {credential : Option Credential}
variable {past first second events : List Event} {token : Option BearerToken}

/-! ### Permission -/

/-- The last event is a probe of the manifest, and its answer poses the challenge. -/
def Challenged (c : Client) (r : Reference) (past : List Event) (ch : Challenge) : Prop :=
  ∃ earlier answer elapsed,
    past = earlier ++ [.asked (.get (c.manifestUrl r)) ⟨.ok answer, elapsed⟩] ∧
    answer.status = 401 ∧
    (∃ header ∈ answer.texts "www-authenticate", Challenge.parse header = .ok ch) ∧
    ch.isBearer = true ∧ c.isWeb ch.realm = true

/-- The last events are an exchange, right after its probe, that issues the token. -/
def Issued (c : Client) (r : Reference) (credential : Option Credential) (past : List Event)
    (t : BearerToken) : Prop :=
  ∃ earlier ch answer elapsed body,
    past = earlier ++
      [.asked (tokenRequest ch credential) ⟨.ok answer, elapsed⟩, .heard answer.body] ∧
    Challenged c r earlier ch ∧ answer.status = 200 ∧ answer.body.outcome = .ok body ∧
    (TokenFields.ofBody body).bearer? = some t

/-- Since the token was issued, the manifest was asked for with it and nothing else happened. -/
def Serves (c : Client) (r : Reference) (credential : Option Credential) (past : List Event)
    (t : BearerToken) : Prop :=
  ∃ issued asked, past = issued ++ asked ∧ Issued c r credential issued t ∧
    ∀ e ∈ asked, ∃ mediaType answer,
      e = .asked (contentRequest (c.manifestUrl r) mediaType (some t)) answer

inductive Permitted (c : Client) (r : Reference) (credential : Option Credential)
    (past : List Event) : Request → Prop
  | plain {request} : request.authorization = none → Permitted c r credential past request
  | exchange {k ch} : credential = some k → Challenged c r past ch →
    Permitted c r credential past (tokenRequest ch (some k))
  | manifest {t mediaType} : Serves c r credential past t →
    Permitted c r credential past (contentRequest (c.manifestUrl r) mediaType (some t))
  | blob {t d} : Issued c r credential past t →
    Permitted c r credential past (contentRequest (c.blobUrl r d) "application/json" (some t))

/-- Every request among the events is permitted after the past and the events before it. -/
def Confined (c : Client) (r : Reference) (credential : Option Credential) :
    List Event → List Event → Prop
  | _, [] => True
  | past, e :: events =>
    (∀ request answer, e = .asked request answer → Permitted c r credential past request) ∧
      Confined c r credential (past ++ [e]) events

/-- Events are confined one after the other: what comes later is judged by all that was before it.
    -/
theorem confined_append :
    Confined c r credential past (first ++ second) ↔
      Confined c r credential past first ∧ Confined c r credential (past ++ first) second := by
  induction first generalizing past with
  | nil => simp [Confined]
  | cons e first ih => simp [Confined, ih, and_assoc]

/-- A deadline only takes events away at the end, so it permits nothing new. -/
theorem Confined.cut_off (h : Confined c r credential past events) (hfirst : first <+: events) :
    Confined c r credential past first := by
  obtain ⟨rest, rfl⟩ := hfirst
  exact (confined_append.1 h).1

theorem Confined.permitted {request : Request} {answer : Http.Timed (Except Http.Fault Response)}
    (h : Confined c r credential [] (first ++ .asked request answer :: second)) :
    Permitted c r credential first request :=
  (confined_append.1 h).2.1 request answer rfl

theorem confined_asked {request : Request} {answer : Http.Timed (Except Http.Fault Response)}
    (hpermitted : Permitted c r credential past request)
    (h : Confined c r credential (past ++ [.asked request answer]) events) :
    Confined c r credential past (.asked request answer :: events) := by
  refine ⟨?_, h⟩
  rintro _ _ ⟨⟩
  exact hpermitted

theorem confined_heard (body : Http.Timed (Except Http.Fault Octets)) :
    Confined c r credential past [.heard body] := by
  refine ⟨?_, trivial⟩
  intro request answer h
  cases h

theorem confined_kept (key : ManifestKey) (m : Manifest) :
    Confined c r credential past [.kept key m] := by
  refine ⟨?_, trivial⟩
  intro request answer h
  cases h

/-! ### Stages -/

/-- A credential may go to the realm of the challenge that was just met. -/
theorem permitted_tokenRequest {ch : Challenge} (h : Challenged c r past ch) :
    Permitted c r credential past (tokenRequest ch credential) := by
  cases hcredential : credential with
  | none => exact .plain rfl
  | some k => exact .exchange rfl h

theorem challenged_of_poses {answer : Response} {ch : Challenge}
    (h : Probe.Poses c.isWeb answer ch) (past : List Event) (elapsed : Nat) :
    Challenged c r (past ++ [.asked (.get (c.manifestUrl r)) ⟨.ok answer, elapsed⟩]) ch := by
  obtain ⟨hstatus, hfirst, hweb⟩ := h
  obtain ⟨hbearer, hheader⟩ := Challenge.first?_mem hfirst
  exact ⟨past, answer, elapsed, rfl, hstatus, hheader, hbearer, hweb⟩

theorem Exchanges.confined {ch : Challenge} {result : Except Failure (Option BearerToken)}
    (hchallenged : Challenged c r past ch) (h : Exchanges c ch credential events result) :
    Confined c r credential past events := by
  have hpermitted : Permitted c r credential past (tokenRequest ch credential) :=
    permitted_tokenRequest hchallenged
  cases h with
  | fault | forbidden | withheld => exact confined_asked hpermitted trivial
  | unread | read => exact confined_asked hpermitted (confined_heard _)

theorem Exchanges.issued {ch : Challenge} {result : Except Failure (Option BearerToken)}
    {t : BearerToken} (hchallenged : Challenged c r past ch)
    (h : Exchanges c ch credential events result) (hresult : result = .ok (some t)) :
    Issued c r credential (past ++ events) t := by
  cases h with
  | fault | forbidden | withheld | unread => cases hresult
  | read hstatus hbody =>
    exact ⟨past, ch, _, _, _, rfl, hchallenged, hstatus, hbody, Except.ok.inj hresult⟩

theorem Authenticates.confined {result : Except Failure (Option BearerToken)}
    (h : Authenticates c r credential events result) : Confined c r credential past events := by
  cases h with
  | fault | refused | unneeded => exact confined_asked (.plain rfl) trivial
  | challenged hposes hexchange =>
    exact confined_asked (.plain rfl) (hexchange.confined (challenged_of_poses hposes past _))

/-- A token that an authentication ends with was issued by its last events. -/
theorem Authenticates.issued {result : Except Failure (Option BearerToken)} {t : BearerToken}
    (h : Authenticates c r credential events result) (hresult : result = .ok (some t)) :
    Issued c r credential (past ++ events) t := by
  cases h with
  | fault | refused | unneeded => cases hresult
  | challenged hposes hexchange =>
    rw [List.append_cons]
    exact hexchange.issued (challenged_of_poses hposes past _) hresult

theorem Issued.serves {t : BearerToken} (h : Issued c r credential past t) :
    Serves c r credential past t := by
  refine ⟨past, [], (List.append_nil past).symm, h, ?_⟩
  intro e hmem
  cases hmem

/-- Asking for the manifest with a token leaves the token as good as it was. -/
theorem Serves.asked {t : BearerToken} (h : Serves c r credential past t) (mediaType : String)
    (answer : Http.Timed (Except Http.Fault Response)) :
    Serves c r credential
      (past ++ [.asked (contentRequest (c.manifestUrl r) mediaType (some t)) answer]) t := by
  obtain ⟨issued, asked, rfl, hissued, hasked⟩ := h
  refine ⟨issued, asked ++ [_], List.append_assoc _ _ _, hissued, ?_⟩
  intro e hmem
  rcases List.mem_append.1 hmem with hmem | hmem
  · exact hasked e hmem
  · exact ⟨mediaType, answer, List.mem_singleton.1 hmem⟩

/-- A manifest may be asked for without a token, or with one that is good for it. -/
theorem permitted_contentRequest (hserves : ∀ t, token = some t → Serves c r credential past t)
    (mediaType : String) :
    Permitted c r credential past (contentRequest (c.manifestUrl r) mediaType token) := by
  cases htoken : token with
  | none => exact .plain rfl
  | some t => exact .manifest (hserves t htoken)

theorem Negotiates.confined {mediaTypes : List String} {result : Except Failure Manifest}
    (h : Negotiates c r token mediaTypes events result)
    (hserves : ∀ t, token = some t → Serves c r credential past t) :
    Confined c r credential past events := by
  induction h generalizing past with
  | exhausted => trivial
  | fault => exact confined_asked (permitted_contentRequest hserves _) trivial
  | unread | delivered =>
    exact confined_asked (permitted_contentRequest hserves _) (confined_heard _)
  | declined _ _ ih =>
    refine confined_asked (permitted_contentRequest hserves _) (ih ?_)
    rintro t rfl
    exact (hserves t rfl).asked _ _

/-- A lookup authenticates anew, so it needs no token from the past. -/
theorem LooksUp.confined {result : Except Failure Manifest}
    (h : LooksUp c memo r credential events result) : Confined c r credential past events := by
  cases h with
  | remembered => trivial
  | unauthenticated _ hfirst => exact hfirst.confined
  | undelivered _ hfirst hsecond =>
    refine confined_append.2 ⟨hfirst.confined, hsecond.confined ?_⟩
    rintro t rfl
    exact (hfirst.issued rfl).serves
  | delivered _ hfirst hsecond =>
    refine confined_append.2 ⟨confined_append.2 ⟨hfirst.confined, hsecond.confined ?_⟩,
      confined_kept _ _⟩
    rintro t rfl
    exact (hfirst.issued rfl).serves

theorem Fetches.confined {d : Digest} {result : Except Failure (Option ImageConfig)}
    (h : Fetches c r d credential events result) : Confined c r credential past events := by
  have hblob : ∀ {first token}, Authenticates c r credential first (.ok token) →
      Permitted c r credential (past ++ first)
        (contentRequest (c.blobUrl r d) "application/json" token) := by
    intro first token hfirst
    cases token with
    | none => exact .plain rfl
    | some t => exact .blob (hfirst.issued rfl)
  cases h with
  | unauthenticated hfirst => exact hfirst.confined
  | fault hfirst | declined hfirst =>
    exact confined_append.2 ⟨hfirst.confined, confined_asked (hblob hfirst) trivial⟩
  | unread hfirst | read hfirst =>
    exact confined_append.2 ⟨hfirst.confined, confined_asked (hblob hfirst) (confined_heard _)⟩

theorem Locates.confined {m : Manifest} {directory : String}
    (h : Locates c r m credential events directory) : Confined c r credential past events := by
  cases h with
  | unnamed => trivial
  | named _ hfetches => exact hfetches.confined

theorem confined_resolveReference {result : Except Failure Resolution}
    (h : (c.resolveReference memo r credential).Yields events result) :
    Confined c r credential past events := by
  rcases resolveReference_yields h with
    ⟨f, hlooked, -⟩ | ⟨first, m, second, directory, hlooked, hlocated, rfl, -⟩
  · exact hlooked.confined
  · exact confined_append.2 ⟨hlooked.confined, hlocated.confined⟩

theorem confined_existsOnRegistry {result : Except Failure Bool}
    (h : (c.existsOnRegistry memo r credential).Yields events result) :
    Confined c r credential past events := by
  rcases existsOnRegistry_yields h with ⟨f, hlooked, -⟩ | ⟨m, hlooked, -⟩
  · exact hlooked.confined
  · exact hlooked.confined

theorem confined_rememberedDirectory {directory : String}
    (h : (c.rememberedDirectory memo r credential).Yields events directory) :
    Confined c r credential past events := by
  rcases rememberedDirectory_yields h with
    ⟨f, hlooked, -⟩ | ⟨first, m, second, hlooked, hlocated, rfl⟩
  · exact hlooked.confined
  · exact confined_append.2 ⟨hlooked.confined, hlocated.confined⟩

end Client

/-! ### Headers -/

theorem basic_ne_bearer (a b : String) : "Basic " ++ a ≠ "Bearer " ++ b := by
  intro h
  have hletters := congrArg String.toList h
  rw [String.toList_append, String.toList_append] at hletters
  exact absurd (List.cons.inj (List.cons.inj hletters).2).1 (by decide)

namespace Client

variable {c : Client} {r : Reference} {credential : Option Credential} {past : List Event}
variable {request : Request} {value : String}

/-- The value of a header tells by its first word what it presents: a credential is for a realm
    alone. -/
theorem Permitted.of_basic (h : Permitted c r credential past request)
    (hbasic : request.authorization = some ("Basic " ++ value)) :
    ∃ k ch, credential = some k ∧ request = tokenRequest ch (some k) ∧ Challenged c r past ch := by
  cases h with
  | plain hnone =>
    rw [hnone] at hbasic
    cases hbasic
  | exchange hcredential hchallenged => exact ⟨_, _, hcredential, rfl, hchallenged⟩
  | manifest | blob => exact absurd (Option.some.inj hbasic).symm (basic_ne_bearer _ _)

/-- A token is for the manifest or the blob of the stage that it was issued in. -/
theorem Permitted.of_bearer (h : Permitted c r credential past request)
    (hbearer : request.authorization = some ("Bearer " ++ value)) :
    (request.url = c.manifestUrl r ∧ Serves c r credential past ⟨value⟩) ∨
    ∃ d, request.url = c.blobUrl r d ∧ Issued c r credential past ⟨value⟩ := by
  cases h with
  | plain hnone =>
    rw [hnone] at hbearer
    cases hbearer
  | exchange => exact absurd (Option.some.inj hbearer) (basic_ne_bearer _ _)
  | manifest hserves =>
    obtain rfl := (String.append_right_inj _).1 (Option.some.inj hbearer)
    exact .inl ⟨rfl, hserves⟩
  | blob hissued =>
    obtain rfl := (String.append_right_inj _).1 (Option.some.inj hbearer)
    exact .inr ⟨_, rfl, hissued⟩

theorem Permitted.scheme (h : Permitted c r credential past request)
    (hvalue : request.authorization = some value) :
    (∃ rest, value = "Basic " ++ rest) ∨ ∃ rest, value = "Bearer " ++ rest := by
  cases h with
  | plain hnone =>
    rw [hnone] at hvalue
    cases hvalue
  | exchange => exact .inl ⟨_, (Option.some.inj hvalue).symm⟩
  | manifest | blob => exact .inr ⟨_, (Option.some.inj hvalue).symm⟩

end Client

/-! ### Calls -/

namespace Call

open Client

/-- Whatever the call and wherever the deadline cuts it off. -/
theorem events_confined {σ : Type} (rv : Resolver) (net : Network σ) (network : σ) (call : Call)
    {r : Reference} (hr : call.reference? = some r) :
    Confined rv.client r call.credential [] (call.events rv net network) := by
  cases call with
  | resolve raw credential =>
    rw [reference?] at hr
    cases hparse : Reference.parse raw with
    | error f =>
      rw [hparse] at hr
      cases hr
    | ok r' =>
      rw [hparse] at hr
      obtain rfl := Option.some.inj hr
      simp only [events, hparse]
      have hwhole := Conversation.yields_transcript net
        (rv.client.resolveReference rv.memo r' credential) network
      exact (confined_resolveReference hwhole).cut_off (Event.within_prefix _ _)
  | imageExists r' credential =>
    obtain rfl := Option.some.inj hr
    exact confined_existsOnRegistry (Conversation.yields_transcript net _ network)
  | workingDirectory r' credential =>
    obtain rfl := Option.some.inj hr
    exact confined_rememberedDirectory (Conversation.yields_transcript net _ network)

theorem reference?_of_events {σ : Type} {rv : Resolver} {net : Network σ} {network : σ}
    {call : Call} (h : call.events rv net network ≠ []) : ∃ r, call.reference? = some r := by
  cases call with
  | resolve raw credential =>
    rw [reference?]
    cases hparse : Reference.parse raw with
    | error f => simp [events, hparse] at h
    | ok r => exact ⟨r, rfl⟩
  | imageExists r credential => exact ⟨r, rfl⟩
  | workingDirectory r credential => exact ⟨r, rfl⟩

end Call

namespace Turn

open Client

/-- Whatever calls are put to a resolver, and whatever the network answers: a credential is sent
    only to the realm of the challenge that the probe just before was answered with, in a call made
    with that credential; and a token only to the registry, in the stage that it was issued for. -/
theorem authorization_confined {σ : Type} (net : Network σ) (calls : List Call) (rv : Resolver)
    (network : σ) :
    ∀ t ∈ turns net calls rv network,
      (t.outcome net).sent = Event.requests (t.events net) ∧
      ∀ before request answer after, t.events net = before ++ .asked request answer :: after →
        (∀ value, request.authorization = some ("Basic " ++ value) →
          ∃ r k ch, t.call.reference? = some r ∧ t.call.credential = some k ∧
            request = tokenRequest ch (some k) ∧ request.url = ch.realm ∧
            request.authorization = some k.authorization ∧ Challenged rv.client r before ch) ∧
        (∀ value, request.authorization = some ("Bearer " ++ value) →
          ∃ r, t.call.reference? = some r ∧
            ((request.url = rv.client.manifestUrl r ∧
                Serves rv.client r t.call.credential before ⟨value⟩) ∨
              ∃ d, request.url = rv.client.blobUrl r d ∧
                Issued rv.client r t.call.credential before ⟨value⟩)) ∧
        (∀ value, request.authorization = some value →
          (∃ rest, value = "Basic " ++ rest) ∨ ∃ rest, value = "Bearer " ++ rest) := by
  intro t ht
  refine ⟨t.call.perform_sent t.resolver net t.network, ?_⟩
  intro before request answer after hevents
  rw [events] at hevents
  have hne : t.call.events t.resolver net t.network ≠ [] := by simp [hevents]
  obtain ⟨r, hr⟩ := Call.reference?_of_events hne
  have hconfined := t.call.events_confined t.resolver net t.network hr
  rw [hevents, client_of_mem_turns ht] at hconfined
  have hpermitted := hconfined.permitted
  refine ⟨?_, ?_, ?_⟩
  · intro value hbasic
    obtain ⟨k, ch, hk, rfl, hchallenged⟩ := hpermitted.of_basic hbasic
    exact ⟨r, k, ch, hr, hk, rfl, rfl, rfl, hchallenged⟩
  · intro value hbearer
    exact ⟨r, hr, hpermitted.of_bearer hbearer⟩
  · intro value hvalue
    exact hpermitted.scheme hvalue

/-- A registry that challenges everything, with a token service that gives the token `t`. -/
def guarded : Network Unit where
  answer q _ :=
    if q.url = "http://auth.test/token" then
      (⟨.ok ⟨200, [], ⟨.ok (Text.octets "\x7b\"token\":\"t\"\x7d"), 1⟩⟩, 1⟩, ())
    else
      (⟨.ok ⟨401, [("WWW-Authenticate", Text.octets "Bearer realm=\"http://auth.test/token\"")],
        ⟨.ok [], 1⟩⟩, 1⟩, ())

theorem authorization_confined_guarded :
    let r : Reference := ⟨"registry.test", "app", .tag "latest"⟩
    let turns := turns guarded [.imageExists r (some ⟨"s"⟩), .imageExists r none]
      (.new .default none) ()
    turns.map (fun t => (t.outcome guarded).sent.map (·.authorization)) =
        [[none, some "Basic b2F1dGgyOnM=", some "Bearer t", some "Bearer t"],
          [none, none, some "Bearer t", some "Bearer t"]] ∧
      ∀ t ∈ turns, ∀ before request answer after,
        t.events guarded = before ++ .asked request answer :: after →
        ∀ value, request.authorization = some ("Basic " ++ value) →
          ∃ k, t.call.credential = some k ∧ request.authorization = some k.authorization := by
  refine ⟨by decide +kernel, ?_⟩
  intro t ht before request answer after hevents value hbasic
  obtain ⟨-, hrequests⟩ := authorization_confined guarded _ _ _ t ht
  obtain ⟨r, k, ch, -, hk, -, -, hvalue, -⟩ :=
    (hrequests before request answer after hevents).1 value hbasic
  exact ⟨k, hk, hvalue⟩

end Turn

end ImageLookup
