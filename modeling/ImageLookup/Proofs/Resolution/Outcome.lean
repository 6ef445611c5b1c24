import Mathlib.Data.List.Forall2
import ImageLookup.Proofs.Conversation.Stages

/-! # Outcomes of resolutions

A lookup can go four ways: it delivers a manifest, it ends in a fault of the network, every media
type is declined, or authentication is rejected.  Which of them it was can be told from its events
alone, and no events fit two of them.  What `resolve` answers, when it is not late, is then read off
the way that the lookup went; the stages after a delivered manifest decide no more than the
directory.
-/

namespace ImageLookup

open Http (Request Response Fault Network)

/-! ### Ways of a lookup -/

namespace Client

variable {c : Client} {memo : Memo} {r : Reference} {credential : Option Credential}
variable {token : Option BearerToken} {mediaTypes : List String}
variable {second events : List Event} {f : Failure}

/-- The manifest was remembered, or an answer of status 200 was read to its end. -/
inductive Delivered (c : Client) (memo : Memo) (r : Reference) (credential : Option Credential) :
    List Event → Prop
  | remembered : (memo.get? (.of r credential)).isSome → Delivered c memo r credential []
  | answered {before token mediaType answer elapsed body} :
    mediaType ∈ negotiationOrder → answer.status = 200 → answer.body.outcome = .ok body →
    Delivered c memo r credential
      (before ++ [.asked (contentRequest (c.manifestUrl r) mediaType token) ⟨.ok answer, elapsed⟩,
        .heard answer.body, .kept (.of r credential) (manifestOf answer body)])

/-- The last thing that happened was that a request could not be made or answered, or a body not
    be read. -/
def Faulted (events : List Event) : Prop :=
  ∃ e fault, events.getLast? = some e ∧ e.fault? = some fault

def Declines (c : Client) (r : Reference) (token : Option BearerToken) (mediaType : String)
    (e : Event) : Prop :=
  ∃ answer elapsed, answer.status ≠ 200 ∧
    e = .asked (contentRequest (c.manifestUrl r) mediaType token) ⟨.ok answer, elapsed⟩

/-- In the end the manifest was asked for in every media type, and never to be had. -/
def Declined (c : Client) (r : Reference) (events : List Event) : Prop :=
  ∃ before token requests, events = before ++ requests ∧
    List.Forall₂ (Declines c r token) negotiationOrder requests

/-- The probe was answered with a challenge that is of no use, or the token service refused. -/
inductive Rejected (c : Client) (r : Reference) (credential : Option Credential) :
    List Event → Prop
  | refused {answer elapsed} : Probe.Refuses c.isWeb answer →
    Rejected c r credential [.asked (.get (c.manifestUrl r)) ⟨.ok answer, elapsed⟩]
  | forbidden {answer elapsed ch refusal elapsed'} :
    Probe.Poses c.isWeb answer ch → refusal.status = 403 → Rejected c r credential
      [.asked (.get (c.manifestUrl r)) ⟨.ok answer, elapsed⟩,
        .asked (tokenRequest ch credential) ⟨.ok refusal, elapsed'⟩]

/-! ### Each lookup goes one of these ways -/

theorem Faulted.prepend (first : List Event) (h : Faulted second) : Faulted (first ++ second) := by
  obtain ⟨e, fault, hlast, hfault⟩ := h
  exact ⟨e, fault, by rw [List.getLast?_append, hlast, Option.some_or], hfault⟩

/-- An exchange fails in transport, or with a refusal by the token service. -/
theorem Exchanges.error_cases {ch : Challenge} (h : Exchanges c ch credential events (.error f)) :
    (∃ message cause, f = .registryUnreachable message cause ∧ Faulted events) ∨
    (∃ message status answer elapsed, f = .authenticationRejected message status ∧
      answer.status = 403 ∧
      events = [.asked (tokenRequest ch credential) ⟨.ok answer, elapsed⟩]) := by
  cases h with
  | fault => exact .inl ⟨_, _, rfl, _, _, rfl, rfl⟩
  | forbidden hstatus => exact .inr ⟨_, _, _, _, rfl, hstatus, rfl⟩
  | unread _ hbody => exact .inl ⟨_, _, rfl, _, _, rfl, Event.fault?_heard hbody⟩

/-- Authentication fails with one of two kinds of failures, and the events tell which. -/
theorem Authenticates.error_cases (h : Authenticates c r credential events (.error f)) :
    (∃ message cause, f = .registryUnreachable message cause ∧ Faulted events) ∨
    (∃ message status, f = .authenticationRejected message status ∧
      Rejected c r credential events) := by
  cases h with
  | fault => exact .inl ⟨_, _, rfl, _, _, rfl, rfl⟩
  | refused hrefuses => exact .inr ⟨_, _, rfl, .refused hrefuses⟩
  | challenged hposes hexchange =>
    rcases hexchange.error_cases with
      ⟨message, cause, rfl, hfaulted⟩ | ⟨message, status, answer, elapsed, rfl, hstatus, rfl⟩
    · exact .inl ⟨message, cause, rfl, hfaulted.prepend [_]⟩
    · exact .inr ⟨message, status, rfl, .forbidden hposes hstatus⟩

/-- A negotiation fails in transport, or when every media type has been declined. -/
theorem Negotiates.error_cases (h : Negotiates c r token mediaTypes events (.error f)) :
    (∃ message cause, f = .registryUnreachable message cause ∧ Faulted events) ∨
    (f = .imageNotFound r.text ∧ List.Forall₂ (Declines c r token) mediaTypes events) := by
  generalize hresult : Except.error f = result at h
  induction h with
  | exhausted =>
    cases hresult
    exact .inr ⟨rfl, .nil⟩
  | fault =>
    cases hresult
    exact .inl ⟨_, _, rfl, _, _, rfl, rfl⟩
  | unread _ hbody =>
    cases hresult
    exact .inl ⟨_, _, rfl, _, _, rfl, Event.fault?_heard hbody⟩
  | delivered => cases hresult
  | declined hstatus _ ih =>
    rcases ih hresult with ⟨message, cause, rfl, hfaulted⟩ | ⟨rfl, hdeclined⟩
    · exact .inl ⟨message, cause, rfl, hfaulted.prepend [_]⟩
    · exact .inr ⟨rfl, .cons ⟨_, _, hstatus, rfl⟩ hdeclined⟩

theorem Negotiates.ok_cases {m : Manifest} (h : Negotiates c r token mediaTypes events (.ok m)) :
    ∃ before mediaType answer elapsed body,
      mediaType ∈ mediaTypes ∧ answer.status = 200 ∧ answer.body.outcome = .ok body ∧
      m = manifestOf answer body ∧
      events = before ++
        [.asked (contentRequest (c.manifestUrl r) mediaType token) ⟨.ok answer, elapsed⟩,
          .heard answer.body] := by
  generalize hresult : Except.ok m = result at h
  induction h with
  | exhausted | fault | unread => cases hresult
  | delivered hstatus hbody =>
    cases hresult
    exact ⟨[], _, _, _, _, List.mem_cons_self, hstatus, hbody, rfl, rfl⟩
  | declined _ _ ih =>
    obtain ⟨before, mediaType, answer, elapsed, body, hmem, hstatus, hbody, rfl, rfl⟩ :=
      ih hresult
    exact ⟨_ :: before, mediaType, answer, elapsed, body, List.mem_cons_of_mem _ hmem, hstatus,
      hbody, rfl, rfl⟩

/-- What the events of a lookup were like when it ended so. -/
def Explains (c : Client) (memo : Memo) (r : Reference) (credential : Option Credential)
    (events : List Event) : Except Failure Manifest → Prop
  | .ok _ => Delivered c memo r credential events
  | .error (.registryUnreachable ..) => Faulted events
  | .error (.imageNotFound _) => Declined c r events
  | .error (.authenticationRejected ..) => Rejected c r credential events
  | .error _ => False

/-- How a lookup ended is explained by its events, in each of the ways it may end. -/
theorem LooksUp.explains {result : Except Failure Manifest}
    (h : LooksUp c memo r credential events result) :
    Explains c memo r credential events result := by
  cases h with
  | remembered hmemo => exact .remembered (by rw [hmemo]; rfl)
  | unauthenticated _ hfirst =>
    rcases hfirst.error_cases with
      ⟨message, cause, rfl, hfaulted⟩ | ⟨message, status, rfl, hrejected⟩
    · exact hfaulted
    · exact hrejected
  | undelivered _ _ hsecond =>
    rcases hsecond.error_cases with ⟨message, cause, rfl, hfaulted⟩ | ⟨rfl, hdeclined⟩
    · exact hfaulted.prepend _
    · exact ⟨_, _, _, rfl, hdeclined⟩
  | delivered _ _ hsecond =>
    obtain ⟨before, mediaType, answer, elapsed, body, hmem, hstatus, hbody, rfl, rfl⟩ :=
      hsecond.ok_cases
    simp only [List.append_assoc, List.cons_append, List.nil_append]
    rw [← List.append_assoc]
    exact .answered hmem hstatus hbody

/-! ### No lookup goes two of these ways -/

/-- The last thing that happened was that a request was answered. -/
def Answered (events : List Event) : Prop :=
  ∃ request answer elapsed, events.getLast? = some (.asked request ⟨.ok answer, elapsed⟩)

theorem Faulted.not_answered (h : Faulted events) : ¬Answered events := by
  obtain ⟨e, fault, hlast, hfault⟩ := h
  rintro ⟨request, answer, elapsed, hanswered⟩
  rw [hlast] at hanswered
  obtain rfl := Option.some.inj hanswered
  cases hfault

theorem Delivered.not_answered (h : Delivered c memo r credential events) : ¬Answered events := by
  rintro ⟨request, answer, elapsed, hanswered⟩
  cases h with
  | remembered => cases hanswered
  | answered =>
    rw [List.getLast?_append] at hanswered
    cases hanswered

theorem Delivered.not_faulted (h : Delivered c memo r credential events) : ¬Faulted events := by
  rintro ⟨e, fault, hlast, hfault⟩
  cases h with
  | remembered => cases hlast
  | answered =>
    rw [List.getLast?_append] at hlast
    obtain rfl := Option.some.inj hlast
    cases hfault

theorem Declined.answered (h : Declined c r events) : Answered events := by
  obtain ⟨before, token, requests, rfl, _ | ⟨hdocker,
    _ | ⟨⟨answer, elapsed, hstatus, rfl⟩, ⟨⟩⟩⟩⟩ := h
  exact ⟨_, _, _, List.getLast?_append⟩

theorem Rejected.answered (h : Rejected c r credential events) : Answered events := by
  cases h with
  | refused => exact ⟨_, _, _, rfl⟩
  | forbidden => exact ⟨_, _, _, rfl⟩

/-- A probe is no request for a manifest, and after it there is room for one request only. -/
theorem Declined.not_rejected (h : Declined c r events) : ¬Rejected c r credential events := by
  obtain ⟨before, token, requests, rfl, _ | ⟨⟨answer, elapsed, hstatus, rfl⟩,
    _ | ⟨hoci, ⟨⟩⟩⟩⟩ := h
  intro hrejected
  generalize hevents : before ++ _ = events at hrejected
  have hlength := congrArg List.length hevents
  cases hrejected with
  | refused =>
    rw [List.length_append] at hlength
    simp at hlength
  | forbidden =>
    obtain rfl : before = [] := by simpa using hlength
    have haccept : dockerManifestType = "*/*" :=
      congrArg Request.accept (Event.asked.inj (List.cons.inj hevents).1).1
    exact absurd haccept (by decide)

theorem Delivered.ending {result : Except Failure Manifest}
    (h : Delivered c memo r credential events)
    (hexplains : Explains c memo r credential events result) : ∃ m, result = .ok m := by
  rcases result with f | m
  · exfalso
    cases f with
    | registryUnreachable => exact h.not_faulted hexplains
    | imageNotFound => exact h.not_answered (Declined.answered hexplains)
    | authenticationRejected => exact h.not_answered (Rejected.answered hexplains)
    | unparseableReference | ambiguousReference | badConfiguration => exact hexplains
  · exact ⟨m, rfl⟩

theorem Rejected.ending {result : Except Failure Manifest} (h : Rejected c r credential events)
    (hexplains : Explains c memo r credential events result) :
    ∃ message status, result = .error (.authenticationRejected message status) := by
  rcases result with f | m
  · cases f with
    | authenticationRejected message status => exact ⟨message, status, rfl⟩
    | registryUnreachable => exact absurd h.answered (Faulted.not_answered hexplains)
    | imageNotFound => exact absurd h (Declined.not_rejected hexplains)
    | unparseableReference | ambiguousReference | badConfiguration => exact hexplains.elim
  · exact absurd h.answered (Delivered.not_answered hexplains)

/-- What the events of a lookup were like when the image is reported so. -/
def Shows (c : Client) (memo : Memo) (r : Reference) (credential : Option Credential)
    (events : List Event) : Availability → Prop
  | .present => Delivered c memo r credential events
  | .unreachable => Faulted events
  | .absent => Declined c r events ∨ credential = none ∧ Rejected c r credential events

theorem answered_of_absent (h : Shows c memo r credential events .absent) : Answered events := by
  rcases h with hdeclined | ⟨-, hrejected⟩
  · exact hdeclined.answered
  · exact hrejected.answered

/-- The three kinds of ends exclude each other, so events show one availability at most. -/
theorem Shows.unique {a b : Availability} (ha : Shows c memo r credential events a)
    (hb : Shows c memo r credential events b) : a = b := by
  cases a <;> cases b
  case present.present | absent.absent | unreachable.unreachable => rfl
  case present.absent => exact absurd (answered_of_absent hb) ha.not_answered
  case present.unreachable => exact absurd hb ha.not_faulted
  case absent.present => exact absurd (answered_of_absent ha) hb.not_answered
  case absent.unreachable => exact absurd (answered_of_absent ha) hb.not_answered
  case unreachable.present => exact absurd ha hb.not_faulted
  case unreachable.absent => exact absurd (answered_of_absent hb) ha.not_answered

/-! ### Directories -/

theorem directoryOf_ne_empty (result : Except Failure (Option ImageConfig)) :
    directoryOf result ≠ "" := by
  rcases result with f | _ | config
  · exact (by decide : defaultDirectory ≠ "")
  · exact (by decide : defaultDirectory ≠ "")
  · rw [directoryOf, ImageConfig.workingDirectory]
    split
    · decide
    · decide
    · assumption

theorem Locates.ne_empty {m : Manifest} {directory : String}
    (h : Locates c r m credential events directory) : directory ≠ "" := by
  cases h with
  | unnamed => decide
  | named => exact directoryOf_ne_empty _

/-- Without a document to take it from, the directory is the default. -/
theorem located_eq_default {σ : Type} {m : Manifest} (net : Network σ) (network : σ)
    (h : ∀ d, m.configDigest? = some d → ∀ config,
      ((c.fetchConfig r d credential).run.transcript net network).ending ≠ .ok (some config)) :
    ((c.workingDirectoryFor r m credential).transcript net network).ending = defaultDirectory := by
  rw [workingDirectoryFor]
  cases hdigest : m.configDigest? with
  | none => rfl
  | some d =>
    refine (congrArg Transcript.ending (Conversation.transcript_bind net _ _ network)).trans ?_
    have hnone := h d hdigest
    rcases hfetched : ((c.fetchConfig r d credential).run.transcript net network).ending with
      f | _ | config
    · simp only [hfetched]
      rfl
    · simp only [hfetched]
      rfl
    · exact absurd hfetched (hnone config)

end Client

/-! ### What `resolve` answers -/

namespace Resolver

open Client

variable {σ : Type} {rv : Resolver} {net : Network σ} {network : σ}
variable {raw : String} {r : Reference} {credential : Option Credential}

/-- The lookup of a manifest by a resolver, when nothing cuts it off. -/
def lookedUp (rv : Resolver) (net : Network σ) (network : σ) (r : Reference)
    (credential : Option Credential) : Transcript σ (Except Failure Manifest) :=
  (rv.client.lookup rv.memo r credential).run.transcript net network

/-- The whole of a resolution, when nothing cuts it off. -/
def resolved (rv : Resolver) (net : Network σ) (network : σ) (r : Reference)
    (credential : Option Credential) : Transcript σ (Except Failure Resolution) :=
  (rv.client.resolveReference rv.memo r credential).transcript net network

/-- The deadline, if there is one, does not expire. -/
def Timely (rv : Resolver) (net : Network σ) (network : σ) (raw : String)
    (credential : Option Credential) : Prop :=
  ∀ r, Reference.parse raw = .ok r →
    Event.fits rv.deadline (rv.resolved net network r credential).events = true

theorem resolve_of_timely (hparse : Reference.parse raw = .ok r)
    (htimely : rv.Timely net network raw credential) :
    (rv.resolve net network raw credential).result =
        (rv.resolved net network r credential).ending ∧
      (rv.resolve net network raw credential).sent =
        Event.requests (rv.resolved net network r credential).events := by
  have hfits := htimely r hparse
  obtain ⟨hresult, hsent, -⟩ := Conversation.run_eq_transcript net
    (rv.client.resolveReference rv.memo r credential) (.start network rv.memo rv.deadline)
  simp only [resolve, hparse, converse]
  constructor
  · rw [hresult, Session.start]
    exact congrArg (Option.getD · _) (if_pos hfits)
  · rw [hsent, Session.start]
    exact congrArg Event.requests (Event.within_eq_self hfits)

theorem resolved_of_error {f : Failure}
    (h : (rv.lookedUp net network r credential).ending = .error f) :
    (rv.resolved net network r credential).ending =
      (degrade credential f).map (Resolution.unavailable r) := by
  rw [lookedUp] at h
  rw [resolved, Client.resolveReference]
  refine (congrArg Transcript.ending (Conversation.transcript_bind net _ _ network)).trans ?_
  simp only [h]
  rfl

/-- After a lookup that succeeded the image is present, whatever becomes of its directory. -/
theorem resolved_of_ok {m : Manifest}
    (h : (rv.lookedUp net network r credential).ending = .ok m) :
    (rv.resolved net network r credential).ending =
      .ok ⟨r, .present, ((rv.client.workingDirectoryFor r m credential).transcript net
        (rv.lookedUp net network r credential).network).ending⟩ := by
  rw [lookedUp] at h
  rw [resolved, Client.resolveReference]
  refine (congrArg Transcript.ending (Conversation.transcript_bind net _ _ network)).trans ?_
  simp only [h]
  exact congrArg Transcript.ending (Conversation.transcript_bind net _ _ _)

theorem lookedUp_explains (rv : Resolver) (net : Network σ) (network : σ) (r : Reference)
    (credential : Option Credential) :
    Explains rv.client rv.memo r credential (rv.lookedUp net network r credential).events
      (rv.lookedUp net network r credential).ending :=
  (lookup_yields (Conversation.yields_transcript net _ network)).explains

/-- A resolution that is right about an image whose lookup left these events. -/
structure Reports (c : Client) (memo : Memo) (r : Reference) (credential : Option Credential)
    (events : List Event) (resolution : Resolution) : Prop where
  reference : resolution.reference = r
  availability : ∀ a, resolution.availability = a ↔ Shows c memo r credential events a
  unavailable : resolution.availability ≠ .present → resolution.workingDirectory = "/"
  directory : resolution.workingDirectory ≠ ""

/-- Since no two availabilities are shown at once, the one that is reported is the one that is
    shown. -/
theorem availability_iff {c : Client} {memo : Memo} {events : List Event} {a : Availability}
    (h : Shows c memo r credential events a) (b : Availability) :
    a = b ↔ Shows c memo r credential events b := by
  constructor
  · rintro rfl
    exact h
  · exact h.unique

theorem reports_unavailable {c : Client} {memo : Memo} {events : List Event} {a : Availability}
    (h : Shows c memo r credential events a) :
    Reports c memo r credential events (.unavailable r a) where
  reference := rfl
  availability := availability_iff h
  unavailable _ := rfl
  directory := (by decide : defaultDirectory ≠ "")

theorem resolved_reports {resolution : Resolution}
    (h : (rv.resolved net network r credential).ending = .ok resolution) :
    Reports rv.client rv.memo r credential (rv.lookedUp net network r credential).events
      resolution := by
  have hexplains := rv.lookedUp_explains net network r credential
  cases hending : (rv.lookedUp net network r credential).ending with
  | ok m =>
    rw [hending] at hexplains
    rw [resolved_of_ok hending] at h
    obtain rfl := Except.ok.inj h
    have hlocates := workingDirectoryFor_yields (Conversation.yields_transcript net
      (rv.client.workingDirectoryFor r m credential) (rv.lookedUp net network r credential).network)
    exact {
      reference := rfl
      availability := availability_iff (a := .present) hexplains
      unavailable := fun hne => absurd rfl hne
      directory := hlocates.ne_empty }
  | error f =>
    rw [hending] at hexplains
    rw [resolved_of_error hending] at h
    cases f with
    | registryUnreachable message cause =>
      obtain rfl := Except.ok.inj h
      exact reports_unavailable (a := .unreachable) hexplains
    | imageNotFound reference =>
      obtain rfl := Except.ok.inj h
      exact reports_unavailable (a := .absent) (.inl hexplains)
    | authenticationRejected message status =>
      cases credential with
      | none =>
        obtain rfl := Except.ok.inj h
        exact reports_unavailable (a := .absent) (.inr ⟨rfl, hexplains⟩)
      | some k => cases h
    | unparseableReference | ambiguousReference | badConfiguration => cases hexplains

/-- A resolution fails only with a credential that is refused. -/
theorem resolved_eq_error_iff {f : Failure} :
    (rv.resolved net network r credential).ending = .error f ↔
      credential.isSome ∧ (rv.lookedUp net network r credential).ending = .error f ∧
        ∃ message status, f = .authenticationRejected message status := by
  constructor
  · intro h
    cases hending : (rv.lookedUp net network r credential).ending with
    | ok m =>
      rw [resolved_of_ok hending] at h
      cases h
    | error g =>
      rw [resolved_of_error hending] at h
      cases g with
      | authenticationRejected message status =>
        cases credential with
        | none => cases h
        | some k =>
          obtain rfl := Except.error.inj h
          exact ⟨rfl, rfl, message, status, rfl⟩
      | _ => cases h
  · rintro ⟨hsome, hending, message, status, rfl⟩
    rw [resolved_of_error hending, degrade, if_pos hsome]
    rfl

theorem lookedUp_prefix (rv : Resolver) (net : Network σ) (network : σ) (r : Reference)
    (credential : Option Credential) :
    Event.requests (rv.lookedUp net network r credential).events <+:
      Event.requests (rv.resolved net network r credential).events := by
  rw [resolved, Client.resolveReference]
  exact (Conversation.events_prefix_bind net _ _ network).filterMap _

/-- What `resolve` answers when it is not late, for every behaviour of the network.  It fails with
    the defect of the text, before anything is sent, or because a credential is refused.  Otherwise
    the availability is told by the events of the lookup; and once a manifest is delivered, only the
    directory is left to be decided, which is `/` if there is no document to take it from. -/
theorem resolve_outcome (rv : Resolver) (net : Network σ) (network : σ) (raw : String)
    (credential : Option Credential) (htimely : rv.Timely net network raw credential) :
    (∀ f, (rv.resolve net network raw credential).result = .error f ↔
      Reference.parse raw = .error f ∨
      ∃ r, Reference.parse raw = .ok r ∧ credential.isSome ∧
        (rv.lookedUp net network r credential).ending = .error f ∧
        ∃ message status, f = .authenticationRejected message status) ∧
    (∀ f, Reference.parse raw = .error f → (rv.resolve net network raw credential).sent = []) ∧
    (∀ r, Reference.parse raw = .ok r →
      Event.requests (rv.lookedUp net network r credential).events <+:
        (rv.resolve net network raw credential).sent ∧
      ((∃ message status, (rv.lookedUp net network r credential).ending =
          .error (.authenticationRejected message status)) ↔
        Rejected rv.client r credential (rv.lookedUp net network r credential).events) ∧
      (∀ resolution, (rv.resolve net network raw credential).result = .ok resolution →
        Reports rv.client rv.memo r credential (rv.lookedUp net network r credential).events
          resolution) ∧
      (Delivered rv.client rv.memo r credential (rv.lookedUp net network r credential).events →
        ∃ m directory, (rv.lookedUp net network r credential).ending = .ok m ∧
          (rv.resolve net network raw credential).result = .ok ⟨r, .present, directory⟩ ∧
          ((∀ d, m.configDigest? = some d → ∀ config,
            ((rv.client.fetchConfig r d credential).run.transcript net
              (rv.lookedUp net network r credential).network).ending ≠ .ok (some config)) →
            directory = "/"))) := by
  cases hparse : Reference.parse raw with
  | error g =>
    have hresult : (rv.resolve net network raw credential).result = .error g := by
      rw [resolve, hparse]
    have hsent : (rv.resolve net network raw credential).sent = [] := by
      rw [resolve, hparse]
    rw [hresult, hsent]
    refine ⟨?_, ?_, ?_⟩
    · intro f
      constructor
      · intro h
        exact .inl (congrArg Except.error (Except.error.inj h))
      · rintro (h | ⟨r, h, -⟩)
        · exact congrArg Except.error (Except.error.inj h)
        · cases h
    · intro f h
      rfl
    · intro r h
      cases h
  | ok r =>
    obtain ⟨hresult, hsent⟩ := resolve_of_timely hparse htimely
    have hexplains := rv.lookedUp_explains net network r credential
    rw [hresult, hsent]
    refine ⟨?_, ?_, ?_⟩
    · intro f
      rw [resolved_eq_error_iff]
      constructor
      · intro h
        exact .inr ⟨r, rfl, h⟩
      · rintro (h | ⟨_, ⟨⟩, h⟩)
        · cases h
        · exact h
    · intro f h
      cases h
    · intro r' h
      obtain rfl := Except.ok.inj h
      refine ⟨rv.lookedUp_prefix net network r credential, ?_, ?_, ?_⟩
      · constructor
        · rintro ⟨message, status, hending⟩
          rw [hending] at hexplains
          exact hexplains
        · intro hrejected
          exact hrejected.ending hexplains
      · intro resolution hok
        exact resolved_reports hok
      · intro hdelivered
        obtain ⟨m, hending⟩ := hdelivered.ending hexplains
        have hresolved := resolved_of_ok hending
        exact ⟨m, _, hending, hresolved, located_eq_default net _⟩

/-- A registry with one image, for whoever shows a token, and a token service that refuses whoever shows
    a credential. -/
def selective : Network Unit where
  answer q _ :=
    if q.url = "http://auth.test/token" then
      if q.authorization.isSome then (⟨.ok ⟨403, [], ⟨.ok [], 1⟩⟩, 1⟩, ())
      else (⟨.ok ⟨200, [], ⟨.ok (Text.octets "\x7b\"token\":\"t\"\x7d"), 1⟩⟩, 1⟩, ())
    else if q.authorization = none then
      (⟨.ok ⟨401, [("WWW-Authenticate", Text.octets "Bearer realm=\"http://auth.test/token\"")],
        ⟨.ok [], 1⟩⟩, 1⟩, ())
    else if q.url = "https://registry.test/v2/app/manifests/latest" then
      (⟨.ok ⟨200, [], ⟨.ok [], 1⟩⟩, 1⟩, ())
    else (⟨.ok ⟨404, [], ⟨.ok [], 1⟩⟩, 1⟩, ())

/-- Without a credential the one image is present and another one absent.  With a credential the token
    service refuses, unless the manifest is remembered.  And nothing can be reached offline. -/
theorem resolve_outcome_selective :
    let app : Reference := ⟨"registry.test", "app", .latest⟩
    let gone : Reference := ⟨"registry.test", "gone", .latest⟩
    let rv : Resolver := .new .default (some 5000)
    let knowing : Resolver :=
      ⟨.default, some 5000, Memo.empty.store (.of app (some ⟨"s"⟩)) ⟨none, none, [], none⟩⟩
    let Answers (rv : Resolver) (net : Network Unit) (raw : String) (credential : Option Credential)
        (r : Reference) (a : Availability) : Prop :=
      rv.Timely net () raw credential ∧
        (rv.resolve net () raw credential).result = .ok ⟨r, a, "/"⟩ ∧
        Shows rv.client rv.memo r credential (rv.lookedUp net () r credential).events a
    Answers rv selective "registry.test/app" none app .present ∧
      Answers rv selective "registry.test/gone" none gone .absent ∧
      Answers knowing selective "registry.test/app" (some ⟨"s"⟩) app .present ∧
      (knowing.resolve selective () "registry.test/app" (some ⟨"s"⟩)).sent = [] ∧
      Answers rv .offline "registry.test/app" none app .unreachable ∧
      ∃ message status, (rv.resolve selective () "registry.test/app" (some ⟨"s"⟩)).result =
          .error (.authenticationRejected message status) ∧
        Rejected rv.client app (some ⟨"s"⟩)
          (rv.lookedUp selective () app (some ⟨"s"⟩)).events := by
  intro app gone rv knowing Answers
  have happ : Reference.parse "registry.test/app" = .ok app := by decide +kernel
  have hgone : Reference.parse "registry.test/gone" = .ok gone := by decide +kernel
  have htimely : ∀ {rv : Resolver} {net : Network Unit} {raw : String} {credential} {r : Reference},
      Reference.parse raw = .ok r →
      Event.fits rv.deadline (rv.resolved net () r credential).events = true →
      rv.Timely net () raw credential := by
    intro rv net raw credential r hparse hfits r' hparse'
    obtain rfl := Except.ok.inj (hparse.symm.trans hparse')
    exact hfits
  have hanswers : ∀ {rv : Resolver} {net : Network Unit} {raw : String} {credential} {r : Reference}
      {a : Availability}, Reference.parse raw = .ok r → rv.Timely net () raw credential →
      (rv.resolve net () raw credential).result = .ok ⟨r, a, "/"⟩ →
      Answers rv net raw credential r a := by
    intro rv net raw credential r a hparse hintime hresult
    have hreports := ((resolve_outcome rv net () raw credential hintime).2.2 r hparse).2.2.1 _ hresult
    exact ⟨hintime, hresult, (hreports.availability a).1 rfl⟩
  refine ⟨hanswers happ (htimely happ (by decide +kernel)) (by decide +kernel),
    hanswers hgone (htimely hgone (by decide +kernel)) (by decide +kernel),
    hanswers happ (htimely happ (by decide +kernel)) (by decide +kernel), by decide +kernel,
    hanswers happ (htimely happ (by decide +kernel)) (by decide +kernel), ?_⟩
  obtain ⟨hfails, -, hlookups⟩ := resolve_outcome rv selective () "registry.test/app" (some ⟨"s"⟩)
    (htimely happ (by decide +kernel))
  have hresult : (rv.resolve selective () "registry.test/app" (some ⟨"s"⟩)).result =
      .error (.authenticationRejected "Token request to http://auth.test/token was refused"
        (some 403)) := by decide +kernel
  rcases (hfails _).1 hresult with hparse | ⟨r, hparse, -, hending, -⟩
  · cases happ.symm.trans hparse
  · obtain rfl := Except.ok.inj (happ.symm.trans hparse)
    exact ⟨_, _, hresult, (hlookups _ happ).2.1.1 ⟨_, _, hending⟩⟩

end Resolver

end ImageLookup
