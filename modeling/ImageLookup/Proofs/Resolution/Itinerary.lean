import ImageLookup.Proofs.Resolution.Lookups

/-! # Itineraries

Which requests a resolution makes is decided by the answers before them.  An `Itinerary` has a place for
each of the seven requests that there may be; it obeys the protocol when a place is filled just where a
request is due (`Made`).  What is due is said of the places before it and their answers alone, so the
steps that are taken settle the whole itinerary (`Obeys.unique`).  That nothing comes after a failed
step is a consequence of the protocol, and needs no other look at the program (`Obeys.halts`).
-/

namespace ImageLookup

open Http (Request Response Fault)

/-! ### Steps -/

/-- A request, and what came of it. -/
structure Step where
  request : Request
  answer : Except Fault Response

namespace Event

def step? : Event → Option Step
  | .asked request answer => some ⟨request, answer.outcome⟩
  | _ => none

def steps (events : List Event) : List Step := events.filterMap step?

theorem steps_append (first second : List Event) :
    steps (first ++ second) = steps first ++ steps second := List.filterMap_append

theorem requests_eq_map_steps (events : List Event) :
    requests events = (steps events).map Step.request := by
  induction events with
  | nil => rfl
  | cons e events ih =>
    cases e with
    | asked request answer => exact congrArg (request :: ·) ih
    | heard | kept => exact ih

end Event

/-! ### Places -/

inductive Role where
  | probe
  | exchange
  /-- A request for a manifest or a blob. -/
  | content
deriving DecidableEq

/-- A place for a request, and the step that fills it. -/
structure Place where
  role : Role
  step? : Option Step

namespace Place

def steps (places : List Place) : List Step := places.filterMap step?

theorem steps_nil : steps [] = [] := rfl

theorem steps_cons (p : Place) (places : List Place) :
    steps (p :: places) = p.step?.toList ++ steps places := by
  obtain ⟨role, _ | s⟩ := p
  · rfl
  · rfl

theorem steps_append (first second : List Place) :
    steps (first ++ second) = steps first ++ steps second := List.filterMap_append

/-- A step fails in transport, when it is not answered or its answer not read, or in
    authentication. -/
inductive Fails (c : Client) : Place → Prop
  | unanswered {role request f} : Fails c ⟨role, some ⟨request, .error f⟩⟩
  | unread {role request answer f} : role ≠ .probe → answer.status = 200 →
    answer.body.outcome = .error f → Fails c ⟨role, some ⟨request, .ok answer⟩⟩
  | refused {request answer} : Probe.Refuses c.isWeb answer →
    Fails c ⟨.probe, some ⟨request, .ok answer⟩⟩
  | forbidden {request answer} : answer.status = 403 →
    Fails c ⟨.exchange, some ⟨request, .ok answer⟩⟩

/-- No place is filled after a failed step. -/
def Halts (c : Client) (places : List Place) : Prop :=
  places.Pairwise fun earlier later => earlier.Fails c → later.step? = none

end Place

/-- A place is filled just where a request is due, and with that request. -/
structure Made (place : Option Step) (Due : Request → Prop) : Prop where
  due : ∀ s, place = some s → Due s.request
  missing : place = none → ∀ request, ¬Due request

section

variable {place place' : Option Step} {s : Step} {Due : Request → Prop}

theorem made_some (h : Due s.request) : Made (some s) Due where
  due t ht := by
    obtain rfl := Option.some.inj ht
    exact h
  missing hnone := by cases hnone

theorem made_none (h : ∀ request, ¬Due request) : Made none Due where
  due s hs := by cases hs
  missing _ := h

/-- A place where nothing is due stays empty. -/
theorem Made.eq_none (h : Made place Due) (hno : ∀ request, ¬Due request) : place = none := by
  cases place with
  | none => rfl
  | some s => exact absurd (h.due s rfl) (hno s.request)

/-- Two places where the same is due are filled alike, if the steps from there on agree. -/
theorem Made.unique {rest rest' : List Step} (h : Made place Due) (h' : Made place' Due)
    (hsteps : place.toList ++ rest = place'.toList ++ rest') : place = place' ∧ rest = rest' := by
  cases place with
  | none =>
    obtain rfl := h'.eq_none (h.missing rfl)
    exact ⟨rfl, hsteps⟩
  | some s =>
    cases place' with
    | none => exact absurd (h.due s rfl) (h'.missing rfl s.request)
    | some s' =>
      obtain ⟨rfl, hrest⟩ := List.cons.inj hsteps
      exact ⟨rfl, hrest⟩

end

/-! ### The protocol -/

/-- The token, if any, that an answer to a token request amounts to. -/
inductive Concedes : Except Fault Response → Option BearerToken → Prop
  | withheld {answer} : answer.status ≠ 200 → answer.status ≠ 403 → Concedes (.ok answer) none
  | issued {answer body} : answer.status = 200 → answer.body.outcome = .ok body →
    Concedes (.ok answer) (TokenFields.ofBody body).bearer?

/-- The manifest that an answer to a request for it brings. -/
inductive Brings : Except Fault Response → Manifest → Prop
  | read {answer body} : answer.status = 200 → answer.body.outcome = .ok body →
    Brings (.ok answer) (Client.manifestOf answer body)

/-- The places of an authentication. -/
structure Handshake where
  probe : Option Step
  exchange : Option Step

namespace Handshake

def places (h : Handshake) : List Place := [⟨.probe, h.probe⟩, ⟨.exchange, h.exchange⟩]

/-- The probe is answered with a challenge that can be exchanged for a token. -/
def Challenged (c : Client) (h : Handshake) (ch : Challenge) : Prop :=
  ∃ request answer, h.probe = some ⟨request, .ok answer⟩ ∧ Probe.Poses c.isWeb answer ch

/-- The authentication succeeds, with a token or without one. -/
inductive Grants (h : Handshake) : Option BearerToken → Prop
  | unneeded {request answer} : h.probe = some ⟨request, .ok answer⟩ → answer.status ≠ 401 →
    Grants h none
  | conceded {s token} : h.exchange = some s → Concedes s.answer token → Grants h token

/-- There is a probe if one is wanted, and an exchange if the probe is challenged. -/
structure Obeys (c : Client) (r : Reference) (credential : Option Credential) (wanted : Prop)
    (h : Handshake) : Prop where
  probe : Made h.probe fun request => wanted ∧ request = .get (c.manifestUrl r)
  exchange : Made h.exchange fun request =>
    ∃ ch, h.Challenged c ch ∧ request = Client.tokenRequest ch credential

end Handshake

/-- The places of a search for a manifest. -/
structure Search where
  handshake : Handshake
  docker : Option Step
  oci : Option Step

namespace Search

def places (s : Search) : List Place :=
  s.handshake.places ++ [⟨.content, s.docker⟩, ⟨.content, s.oci⟩]

theorem steps_places (s : Search) :
    Place.steps s.places =
      Place.steps s.handshake.places ++ (s.docker.toList ++ s.oci.toList) := by
  simp only [places, Place.steps_append, Place.steps_cons, Place.steps_nil, List.append_nil]

/-- The first request for the manifest is answered, but not with status 200. -/
def Declined (s : Search) : Prop :=
  ∃ request answer, s.docker = some ⟨request, .ok answer⟩ ∧ answer.status ≠ 200

/-- The manifest is remembered, or an answer brings it. -/
inductive Finds (memo : Memo) (key : ManifestKey) (s : Search) : Manifest → Prop
  | remembered {m} : memo.get? key = some m → Finds memo key s m
  | docker {step m} : s.docker = some step → Brings step.answer m → Finds memo key s m
  | oci {step m} : s.oci = some step → Brings step.answer m → Finds memo key s m

/-- What is not remembered is asked for, in one media type and, where that is declined, in the
    other. -/
structure Obeys (c : Client) (memo : Memo) (r : Reference) (credential : Option Credential)
    (s : Search) : Prop where
  handshake : s.handshake.Obeys c r credential (memo.get? (.of r credential) = none)
  docker : Made s.docker fun request => ∃ token, s.handshake.Grants token ∧
    request = Client.contentRequest (c.manifestUrl r) dockerManifestType token
  oci : Made s.oci fun request => s.Declined ∧ ∃ token, s.handshake.Grants token ∧
    request = Client.contentRequest (c.manifestUrl r) ociManifestType token

end Search

/-- The places of a request for a blob. -/
structure Retrieval where
  handshake : Handshake
  blob : Option Step

namespace Retrieval

def places (t : Retrieval) : List Place := t.handshake.places ++ [⟨.content, t.blob⟩]

theorem steps_places (t : Retrieval) :
    Place.steps t.places = Place.steps t.handshake.places ++ t.blob.toList := by
  simp only [places, Place.steps_append, Place.steps_cons, Place.steps_nil, List.append_nil]

/-- The blob of a wanted digest is asked for, after an authentication of its own. -/
structure Obeys (c : Client) (r : Reference) (credential : Option Credential)
    (Wanted : Digest → Prop) (t : Retrieval) : Prop where
  handshake : t.handshake.Obeys c r credential (∃ d, Wanted d)
  blob : Made t.blob fun request => ∃ token d, t.handshake.Grants token ∧ Wanted d ∧
    request = Client.contentRequest (c.blobUrl r d) "application/json" token

end Retrieval

/-- The places of a whole resolution. -/
structure Itinerary where
  search : Search
  retrieval : Retrieval

namespace Itinerary

def places (i : Itinerary) : List Place := i.search.places ++ i.retrieval.places

def steps (i : Itinerary) : List Step := Place.steps i.places

theorem steps_eq (i : Itinerary) :
    i.steps = Place.steps i.search.places ++ Place.steps i.retrieval.places :=
  Place.steps_append _ _

/-- The blob that is wanted is the one that the manifest names by a digest. -/
structure Obeys (c : Client) (memo : Memo) (r : Reference) (credential : Option Credential)
    (i : Itinerary) : Prop where
  search : i.search.Obeys c memo r credential
  retrieval : i.retrieval.Obeys c r credential fun d =>
    ∃ m, i.search.Finds memo (.of r credential) m ∧ m.configDigest? = some d

end Itinerary

variable {c : Client} {memo : Memo} {r : Reference} {credential : Option Credential}

/-! ### The steps settle the itinerary -/

section Uniqueness

variable {wanted : Prop} {Wanted : Digest → Prop} {rest rest' : List Step}

/-- The places of an authentication are filled from left to right, each as what came before makes it
    due. -/
theorem Handshake.Obeys.unique {h h' : Handshake} (hobeys : h.Obeys c r credential wanted)
    (hobeys' : h'.Obeys c r credential wanted)
    (hsteps : Place.steps h.places ++ rest = Place.steps h'.places ++ rest') :
    h = h' ∧ rest = rest' := by
  obtain ⟨probe, exchange⟩ := h
  obtain ⟨probe', exchange'⟩ := h'
  simp only [Handshake.places, Place.steps_cons, List.append_assoc] at hsteps
  obtain ⟨rfl, hafterProbe⟩ := hobeys.probe.unique hobeys'.probe hsteps
  obtain ⟨rfl, hrest⟩ := hobeys.exchange.unique hobeys'.exchange hafterProbe
  exact ⟨rfl, hrest⟩

theorem Search.Obeys.unique {s s' : Search} (hobeys : s.Obeys c memo r credential)
    (hobeys' : s'.Obeys c memo r credential)
    (hsteps : Place.steps s.places ++ rest = Place.steps s'.places ++ rest') :
    s = s' ∧ rest = rest' := by
  obtain ⟨h, docker, oci⟩ := s
  obtain ⟨h', docker', oci'⟩ := s'
  rw [Search.steps_places, Search.steps_places, List.append_assoc, List.append_assoc,
    List.append_assoc, List.append_assoc] at hsteps
  obtain ⟨rfl, hafterHandshake⟩ := hobeys.handshake.unique hobeys'.handshake hsteps
  obtain ⟨rfl, hafterDocker⟩ := hobeys.docker.unique hobeys'.docker hafterHandshake
  obtain ⟨rfl, hrest⟩ := hobeys.oci.unique hobeys'.oci hafterDocker
  exact ⟨rfl, hrest⟩

theorem Retrieval.Obeys.unique {t t' : Retrieval} (hobeys : t.Obeys c r credential Wanted)
    (hobeys' : t'.Obeys c r credential Wanted)
    (hsteps : Place.steps t.places = Place.steps t'.places) : t = t' := by
  obtain ⟨h, blob⟩ := t
  obtain ⟨h', blob'⟩ := t'
  rw [Retrieval.steps_places, Retrieval.steps_places] at hsteps
  obtain ⟨rfl, hblob⟩ := hobeys.handshake.unique hobeys'.handshake hsteps
  obtain ⟨rfl, -⟩ := hobeys.blob.unique hobeys'.blob (congrArg (· ++ []) hblob)
  rfl

/-- No two itineraries that obey the protocol take the same steps. -/
theorem Itinerary.Obeys.unique {i i' : Itinerary} (hobeys : i.Obeys c memo r credential)
    (hobeys' : i'.Obeys c memo r credential) (hsteps : i.steps = i'.steps) : i = i' := by
  obtain ⟨s, t⟩ := i
  obtain ⟨s', t'⟩ := i'
  rw [Itinerary.steps_eq, Itinerary.steps_eq] at hsteps
  obtain ⟨rfl, hafterSearch⟩ := hobeys.search.unique hobeys'.search hsteps
  obtain rfl := hobeys.retrieval.unique hobeys'.retrieval hafterSearch
  rfl

end Uniqueness

/-! ### Failed steps are last -/

section Failures

variable {wanted : Prop} {Wanted : Digest → Prop} {request : Request} {answer : Response}
variable {s : Step}

theorem Place.Fails.refuses (h : Fails c ⟨.probe, some ⟨request, .ok answer⟩⟩) :
    Probe.Refuses c.isWeb answer := by
  cases h with
  | unread hrole => exact absurd rfl hrole
  | refused hrefuses => exact hrefuses

theorem Place.Fails.not_concedes (h : Fails c ⟨.exchange, some s⟩) (token : Option BearerToken) :
    ¬Concedes s.answer token := by
  intro hconcedes
  cases h with
  | unanswered => cases hconcedes
  | unread _ hstatus hbody =>
    cases hconcedes with
    | withheld hne => exact hne hstatus
    | issued _ hread => simp [hbody] at hread
  | forbidden hstatus =>
    cases hconcedes with
    | withheld _ hne => exact hne hstatus
    | issued hok => simp [hstatus] at hok

theorem Place.Fails.not_brings (h : Fails c ⟨.content, some s⟩) (m : Manifest) :
    ¬Brings s.answer m := by
  intro hbrings
  cases h with
  | unanswered => cases hbrings
  | unread _ _ hbody =>
    cases hbrings with
    | read _ hread => simp [hbody] at hread

theorem Place.Fails.ok (h : Fails c ⟨.content, some ⟨request, .ok answer⟩⟩) :
    answer.status = 200 := by
  cases h with
  | unread _ hstatus => exact hstatus

theorem Place.Fails.filled {p : Place} (h : p.Fails c) : ∃ s, p.step? = some s := by
  cases h with
  | unanswered | unread | refused | forbidden => exact ⟨_, rfl⟩

namespace Handshake

variable {h : Handshake}

theorem not_challenged_of_fails (hfails : Place.Fails c ⟨.probe, h.probe⟩) (ch : Challenge) :
    ¬h.Challenged c ch := by
  rintro ⟨request, answer, hprobe, hposes⟩
  rw [hprobe] at hfails
  exact hfails.refuses.2 ch hposes

theorem Obeys.challenged (hobeys : h.Obeys c r credential wanted) (hexchange : h.exchange = some s) :
    ∃ ch, h.Challenged c ch :=
  (hobeys.exchange.due s hexchange).imp fun _ hdue => hdue.1

theorem Obeys.not_grants_of_fails {p : Place} (hobeys : h.Obeys c r credential wanted)
    (hmem : p ∈ h.places) (hfails : p.Fails c) (token : Option BearerToken) : ¬h.Grants token := by
  intro hgrants
  rw [places, List.mem_cons, List.mem_singleton] at hmem
  rcases hmem with rfl | rfl
  · cases hgrants with
    | unneeded hprobe hne =>
      rw [hprobe] at hfails
      exact hne hfails.refuses.1
    | conceded hexchange =>
      obtain ⟨ch, hchallenged⟩ := hobeys.challenged hexchange
      exact not_challenged_of_fails hfails ch hchallenged
  · obtain ⟨s, hexchange⟩ := hfails.filled
    cases hgrants with
    | unneeded hprobe hne =>
      obtain ⟨ch, request, answer, hprobe', hposes⟩ := hobeys.challenged hexchange
      rw [hprobe'] at hprobe
      cases hprobe
      exact hne hposes.1
    | conceded hexchange' hconcedes =>
      rw [hexchange'] at hfails
      exact hfails.not_concedes _ hconcedes

theorem Obeys.halts (hobeys : h.Obeys c r credential wanted) : Place.Halts c h.places := by
  rw [Place.Halts, places, List.pairwise_pair]
  intro hfails
  apply hobeys.exchange.eq_none
  rintro request ⟨ch, hchallenged, -⟩
  exact not_challenged_of_fails hfails ch hchallenged

theorem Obeys.wanted_of_filled {p : Place} (hobeys : h.Obeys c r credential wanted)
    (hmem : p ∈ h.places) (hfilled : p.step? = some s) : wanted := by
  rw [places, List.mem_cons, List.mem_singleton] at hmem
  rcases hmem with rfl | rfl
  · exact (hobeys.probe.due s hfilled).1
  · obtain ⟨ch, request, answer, hprobe, -⟩ := hobeys.challenged hfilled
    exact (hobeys.probe.due _ hprobe).1

theorem Obeys.wanted_of_grants {token : Option BearerToken} (hobeys : h.Obeys c r credential wanted)
    (hgrants : h.Grants token) : wanted := by
  cases hgrants with
  | unneeded hprobe => exact (hobeys.probe.due _ hprobe).1
  | conceded hexchange =>
    exact hobeys.wanted_of_filled (List.mem_cons_of_mem _ (List.mem_singleton.2 rfl)) hexchange

end Handshake

namespace Search

variable {q : Search}

theorem Obeys.declined (hobeys : q.Obeys c memo r credential) (hoci : q.oci = some s) :
    q.Declined := (hobeys.oci.due s hoci).1

theorem not_declined_of_fails (hfails : Place.Fails c ⟨.content, q.docker⟩) : ¬q.Declined := by
  rintro ⟨request, answer, hdocker, hne⟩
  rw [hdocker] at hfails
  exact hne hfails.ok

theorem Obeys.halts (hobeys : q.Obeys c memo r credential) : Place.Halts c q.places := by
  refine List.pairwise_append.2 ⟨hobeys.handshake.halts, ?_, ?_⟩
  · rw [List.pairwise_pair]
    intro hfails
    apply hobeys.oci.eq_none
    rintro request ⟨hdeclined, -⟩
    exact not_declined_of_fails hfails hdeclined
  · intro p hp p' hp' hfails
    have hnone := hobeys.handshake.not_grants_of_fails hp hfails
    rw [List.mem_cons, List.mem_singleton] at hp'
    rcases hp' with rfl | rfl
    · apply hobeys.docker.eq_none
      rintro request ⟨token, hgrants, -⟩
      exact hnone token hgrants
    · apply hobeys.oci.eq_none
      rintro request ⟨-, token, hgrants, -⟩
      exact hnone token hgrants

theorem Obeys.missed_of_filled {p : Place} (hobeys : q.Obeys c memo r credential)
    (hmem : p ∈ q.places) (hfilled : p.step? = some s) : memo.get? (.of r credential) = none := by
  rw [places, List.mem_append, List.mem_cons, List.mem_singleton] at hmem
  rcases hmem with hmem | rfl | rfl
  · exact hobeys.handshake.wanted_of_filled hmem hfilled
  · obtain ⟨token, hgrants, -⟩ := hobeys.docker.due s hfilled
    exact hobeys.handshake.wanted_of_grants hgrants
  · obtain ⟨-, token, hgrants, -⟩ := hobeys.oci.due s hfilled
    exact hobeys.handshake.wanted_of_grants hgrants

/-- A search with a failed step finds nothing: what comes later is not there, and what came before
    did not bring a manifest, or the failed step would not have been due. -/
theorem Obeys.not_finds_of_fails {p : Place} (hobeys : q.Obeys c memo r credential)
    (hmem : p ∈ q.places) (hfails : p.Fails c) (m : Manifest) :
    ¬q.Finds memo (.of r credential) m := by
  intro hfinds
  obtain ⟨s, hfilled⟩ := hfails.filled
  have hmiss := hobeys.missed_of_filled hmem hfilled
  rw [places, List.mem_append, List.mem_cons, List.mem_singleton] at hmem
  cases hfinds with
  | remembered hmemo => simp [hmiss] at hmemo
  | docker hdocker hbrings =>
    rcases hmem with hmem | rfl | rfl
    · obtain ⟨token, hgrants, -⟩ := hobeys.docker.due _ hdocker
      exact hobeys.handshake.not_grants_of_fails hmem hfails token hgrants
    · rw [hdocker] at hfails
      exact hfails.not_brings m hbrings
    · obtain ⟨request, answer, hdocker', hne⟩ := hobeys.declined hfilled
      rw [hdocker'] at hdocker
      cases hdocker
      cases hbrings with
      | read hok => exact hne hok
  | oci hoci hbrings =>
    rcases hmem with hmem | rfl | rfl
    · obtain ⟨-, token, hgrants, -⟩ := hobeys.oci.due _ hoci
      exact hobeys.handshake.not_grants_of_fails hmem hfails token hgrants
    · exact not_declined_of_fails hfails (hobeys.declined hoci)
    · rw [hoci] at hfails
      exact hfails.not_brings m hbrings

end Search

namespace Retrieval

variable {t : Retrieval}

theorem Obeys.halts (hobeys : t.Obeys c r credential Wanted) : Place.Halts c t.places := by
  refine List.pairwise_append.2 ⟨hobeys.handshake.halts, List.pairwise_singleton _ _, ?_⟩
  intro p hp p' hp' hfails
  obtain rfl := List.mem_singleton.1 hp'
  apply hobeys.blob.eq_none
  rintro request ⟨token, d, hgrants, -⟩
  exact hobeys.handshake.not_grants_of_fails hp hfails token hgrants

theorem Obeys.idle {p : Place} (hobeys : t.Obeys c r credential Wanted) (hmem : p ∈ t.places)
    (hnone : ∀ d, ¬Wanted d) : p.step? = none := by
  cases hfilled : p.step? with
  | none => rfl
  | some s =>
    rw [places, List.mem_append, List.mem_singleton] at hmem
    rcases hmem with hmem | rfl
    · obtain ⟨d, hwanted⟩ := hobeys.handshake.wanted_of_filled hmem hfilled
      exact absurd hwanted (hnone d)
    · obtain ⟨token, d, -, hwanted, -⟩ := hobeys.blob.due s hfilled
      exact absurd hwanted (hnone d)

end Retrieval

/-- The protocol ends with the first failed step. -/
theorem Itinerary.Obeys.halts {i : Itinerary} (hobeys : i.Obeys c memo r credential) :
    Place.Halts c i.places := by
  refine List.pairwise_append.2 ⟨hobeys.search.halts, hobeys.retrieval.halts, ?_⟩
  intro p hp p' hp' hfails
  apply hobeys.retrieval.idle hp'
  rintro d ⟨m, hfinds, -⟩
  exact hobeys.search.not_finds_of_fails hp hfails m hfinds

end Failures

/-! ### Requests -/

/-- There are seven places: two authentications of two requests, two media types and a blob. -/
theorem Itinerary.length_steps_le (i : Itinerary) : i.steps.length ≤ 7 :=
  List.length_filterMap_le _ i.places

/-- Whether a text is a single media type: a type and a subtype, without anything that would stand
    between the entries of a list or before a parameter. -/
def isMediaType (text : String) : Bool :=
  match text.toList.splitOn '/' with
  | [kind, subtype] =>
    [kind, subtype].all fun name =>
      !name.isEmpty && name.all fun ch => ch.isAlphanum || "*+-.".toList.contains ch
  | _ => false

section

variable {s : Step}

theorem Handshake.Obeys.accept_isMediaType {h : Handshake} {wanted : Prop} {p : Place}
    (hobeys : h.Obeys c r credential wanted) (hmem : p ∈ h.places) (hfilled : p.step? = some s) :
    isMediaType s.request.accept = true := by
  rw [places, List.mem_cons, List.mem_singleton] at hmem
  rcases hmem with rfl | rfl
  · obtain ⟨-, hrequest⟩ := hobeys.probe.due s hfilled
    rw [hrequest]
    show isMediaType "*/*" = true
    decide
  · obtain ⟨ch, -, hrequest⟩ := hobeys.exchange.due s hfilled
    rw [hrequest]
    show isMediaType "application/json" = true
    decide

theorem Search.Obeys.accept_isMediaType {q : Search} {p : Place} (hobeys : q.Obeys c memo r credential)
    (hmem : p ∈ q.places) (hfilled : p.step? = some s) : isMediaType s.request.accept = true := by
  rw [places, List.mem_append, List.mem_cons, List.mem_singleton] at hmem
  rcases hmem with hmem | rfl | rfl
  · exact hobeys.handshake.accept_isMediaType hmem hfilled
  · obtain ⟨token, -, hrequest⟩ := hobeys.docker.due s hfilled
    rw [hrequest]
    show isMediaType dockerManifestType = true
    decide
  · obtain ⟨-, token, -, hrequest⟩ := hobeys.oci.due s hfilled
    rw [hrequest]
    show isMediaType ociManifestType = true
    decide

/-- Each request asks for one media type, and offers the registry no choice. -/
theorem Itinerary.Obeys.accept_isMediaType {i : Itinerary} (hobeys : i.Obeys c memo r credential)
    (hmem : s ∈ i.steps) : isMediaType s.request.accept = true := by
  obtain ⟨p, hp, hfilled⟩ := List.mem_filterMap.1 hmem
  rcases List.mem_append.1 hp with hp | hp
  · exact hobeys.search.accept_isMediaType hp hfilled
  · rw [Retrieval.places, List.mem_append, List.mem_singleton] at hp
    rcases hp with hp | rfl
    · exact hobeys.retrieval.handshake.accept_isMediaType hp hfilled
    · obtain ⟨token, d, -, -, hrequest⟩ := hobeys.retrieval.blob.due s hfilled
      rw [hrequest]
      show isMediaType "application/json" = true
      decide

end

end ImageLookup
