import ImageLookup.Proofs.Resolution.Calls
import ImageLookup.Proofs.Resolution.Outcome

/-! # Lookups within calls

Every call about a reference begins with a lookup of its manifest, and what follows depends on how
the lookup ended: after a failure nothing follows, and after a manifest at most the search for the
working directory.  `events_eq`, `perform_result` and `perform_memo` say this of the events of a
call, of its reply and of the memo that it leaves; they are all that later proofs use of the three
kinds of calls.
-/

namespace ImageLookup

open Http (Network)

variable {σ : Type}

/-- The search for a directory after a lookup, when nothing cuts it off. -/
def Resolver.located (rv : Resolver) (net : Network σ) (network : σ) (r : Reference)
    (credential : Option Credential) (m : Manifest) : Transcript σ String :=
  (rv.client.workingDirectoryFor r m credential).transcript net
    (rv.lookedUp net network r credential).network

/-- A manifest that is remembered costs no request. -/
theorem Resolver.lookedUp_of_hit {rv : Resolver} {r : Reference} {credential : Option Credential}
    {m : Manifest} (h : rv.memo.get? (.of r credential) = some m) (net : Network σ) (network : σ) :
    rv.lookedUp net network r credential = ⟨[], .ok m, network⟩ := by
  rw [lookedUp, Client.lookup, h]
  rfl

namespace Call

/-- The limit that a call is under: only a resolution has one. -/
def limit (rv : Resolver) : Call → Option Nat
  | .resolve .. => rv.deadline
  | .imageExists .. | .workingDirectory .. => none

/-- What a call does after its lookup, when nothing cuts it off. -/
def following (rv : Resolver) (net : Network σ) (network : σ) (r : Reference) (call : Call) :
    List Event :=
  match (rv.lookedUp net network r call.credential).ending, call with
  | .ok m, .resolve .. | .ok m, .workingDirectory .. =>
    (rv.located net network r call.credential m).events
  | .ok _, .imageExists .. => []
  | .error _, _ => []

def whole (rv : Resolver) (net : Network σ) (network : σ) (r : Reference) (call : Call) :
    List Event :=
  (rv.lookedUp net network r call.credential).events ++ call.following rv net network r

/-- What a call replies in time, by how its lookup ended and where manifests lead. -/
def replyTo (r : Reference) (looked : Except Failure Manifest) (directory : Manifest → String) :
    Call → Reply
  | .resolve _ credential => .resolution <|
    match looked with
    | .ok m => .ok ⟨r, .present, directory m⟩
    | .error f => (degrade credential f).map (Resolution.unavailable r)
  | .imageExists _ credential => .existence <|
    match looked with
    | .ok _ => .ok true
    | .error f => (degrade credential f).map fun _ => false
  | .workingDirectory .. => .directory <|
    match looked with
    | .ok m => directory m
    | .error _ => defaultDirectory

variable (rv : Resolver) (net : Network σ) (network : σ)

/-! ### The three questions -/

/-- What follows a lookup meets the network as the lookup leaves it. -/
theorem transcript_lookup_bind {α : Type} (r : Reference) (credential : Option Credential)
    (next : Except Failure Manifest → Conversation α) :
    ((rv.client.lookup rv.memo r credential).run >>= next).transcript net network =
      let looked := rv.lookedUp net network r credential
      let rest := (next looked.ending).transcript net looked.network
      ⟨looked.events ++ rest.events, rest.ending, rest.network⟩ :=
  Conversation.transcript_bind net _ next network

theorem transcript_bind_pure {α β : Type} (c : Conversation α) (f : α → β) :
    (c >>= fun a => pure (f a)).transcript net network =
      ⟨(c.transcript net network).events, f (c.transcript net network).ending,
        (c.transcript net network).network⟩ := by
  refine (Conversation.transcript_bind net c _ network).trans ?_
  simp only [pure, Conversation.transcript, List.append_nil]

theorem whole_resolve (r : Reference) (raw : String) (credential : Option Credential) :
    (rv.resolved net network r credential).events =
        whole rv net network r (.resolve raw credential) ∧
      Reply.resolution (rv.resolved net network r credential).ending =
        replyTo r (rv.lookedUp net network r credential).ending
          (fun m => (rv.located net network r credential m).ending) (.resolve raw credential) := by
  rw [Resolver.resolved, Client.resolveReference, transcript_lookup_bind, whole]
  cases hending : (rv.lookedUp net network r credential).ending with
  | error f =>
    simp only [following, Call.credential, hending]
    exact ⟨rfl, rfl⟩
  | ok m =>
    simp only [following, Call.credential, hending, transcript_bind_pure]
    exact ⟨rfl, rfl⟩

theorem whole_imageExists (r : Reference) (credential : Option Credential) :
    ((rv.client.existsOnRegistry rv.memo r credential).transcript net network).events =
        whole rv net network r (.imageExists r credential) ∧
      Reply.existence
          ((rv.client.existsOnRegistry rv.memo r credential).transcript net network).ending =
        replyTo r (rv.lookedUp net network r credential).ending
          (fun m => (rv.located net network r credential m).ending)
          (.imageExists r credential) := by
  rw [Client.existsOnRegistry, transcript_lookup_bind, whole]
  cases hending : (rv.lookedUp net network r credential).ending with
  | error f =>
    simp only [following, Call.credential, hending]
    exact ⟨rfl, rfl⟩
  | ok m =>
    simp only [following, Call.credential, hending]
    exact ⟨rfl, rfl⟩

theorem whole_workingDirectory (r : Reference) (credential : Option Credential) :
    ((rv.client.rememberedDirectory rv.memo r credential).transcript net network).events =
        whole rv net network r (.workingDirectory r credential) ∧
      Reply.directory
          ((rv.client.rememberedDirectory rv.memo r credential).transcript net network).ending =
        replyTo r (rv.lookedUp net network r credential).ending
          (fun m => (rv.located net network r credential m).ending)
          (.workingDirectory r credential) := by
  rw [Client.rememberedDirectory, transcript_lookup_bind, whole]
  cases hending : (rv.lookedUp net network r credential).ending with
  | error f =>
    simp only [following, Call.credential, hending]
    exact ⟨rfl, rfl⟩
  | ok m =>
    simp only [following, Call.credential, hending]
    exact ⟨rfl, rfl⟩

/-! ### Calls -/

variable {call : Call} {r : Reference}

theorem parse_of_reference? {raw : String} {credential : Option Credential}
    (hr : (Call.resolve raw credential).reference? = some r) : Reference.parse raw = .ok r := by
  rw [reference?] at hr
  cases hparse : Reference.parse raw with
  | error f =>
    rw [hparse] at hr
    cases hr
  | ok r' =>
    rw [hparse] at hr
    rw [Option.some.inj hr]

/-- Without a reference there is nothing to ask for. -/
theorem perform_of_no_reference (h : call.reference? = none) :
    ∃ f, ∀ (rv : Resolver) (net : Network σ) (network : σ),
      call.perform rv net network = ⟨.resolution (.error f), rv, [], network⟩ := by
  cases call with
  | imageExists r credential | workingDirectory r credential => cases h
  | resolve raw credential =>
    cases hparse : Reference.parse raw with
    | ok r =>
      rw [reference?, hparse] at h
      cases h
    | error f =>
      refine ⟨f, ?_⟩
      intro rv net network
      simp only [perform, Resolver.resolve, hparse, Resolver.Outcome.map]

/-- The events of a call are a lookup and what follows it, cut off by the limit. -/
theorem events_eq (hr : call.reference? = some r) :
    call.events rv net network = Event.within (call.limit rv) (call.whole rv net network r) := by
  cases call with
  | resolve raw credential =>
    have hparse := parse_of_reference? hr
    rw [← (whole_resolve rv net network r raw credential).1]
    simp only [events, hparse]
    rfl
  | imageExists r' credential =>
    obtain rfl := Option.some.inj hr
    rw [← (whole_imageExists rv net network r' credential).1]
    exact (Event.within_eq_self rfl).symm
  | workingDirectory r' credential =>
    obtain rfl := Option.some.inj hr
    rw [← (whole_workingDirectory rv net network r' credential).1]
    exact (Event.within_eq_self rfl).symm

/-- A limit that is exceeded puts the late result in place of any other. -/
theorem converse_result {α : Type} (limit : Option Nat) (late : α) (c : Conversation α) :
    (rv.converse net network limit late c).result =
      if Event.fits limit (c.transcript net network).events then
        (c.transcript net network).ending else late := by
  have hresult := (Conversation.run_eq_transcript net c (.start network rv.memo limit)).1
  refine (congrArg (Option.getD · late) hresult).trans ?_
  exact apply_ite (Option.getD · late) _ _ _

theorem converse_memo {α : Type} (limit : Option Nat) (late : α) (c : Conversation α) :
    (rv.converse net network limit late c).resolver.memo =
      (Event.within limit (c.transcript net network).events).foldl Event.memoAfter rv.memo :=
  (Conversation.run_eq_transcript net c (.start network rv.memo limit)).2.2

/-- A call that is in time replies by its lookup; only a resolution can be late, and then the image
    counts as unreachable. -/
theorem perform_result (hr : call.reference? = some r) :
    (call.perform rv net network).result =
      if Event.fits (call.limit rv) (call.whole rv net network r) then
        call.replyTo r (rv.lookedUp net network r call.credential).ending
          (fun m => (rv.located net network r call.credential m).ending)
      else .resolution (.ok (.unavailable r .unreachable)) := by
  cases call with
  | resolve raw credential =>
    have hparse := parse_of_reference? hr
    obtain ⟨hevents, hending⟩ := whole_resolve rv net network r raw credential
    rw [Call.credential, ← hevents, ← hending]
    simp only [perform, Resolver.Outcome.map, Resolver.resolve, hparse, converse_result]
    exact apply_ite _ _ _ _
  | imageExists r' credential =>
    obtain rfl := Option.some.inj hr
    obtain ⟨-, hending⟩ := whole_imageExists rv net network r' credential
    rw [Call.credential, ← hending]
    exact congrArg Reply.existence (converse_result rv net network none _ _)
  | workingDirectory r' credential =>
    obtain rfl := Option.some.inj hr
    obtain ⟨-, hending⟩ := whole_workingDirectory rv net network r' credential
    rw [Call.credential, ← hending]
    exact congrArg Reply.directory (converse_result rv net network none _ _)

theorem perform_memo :
    (call.perform rv net network).resolver.memo =
      (call.events rv net network).foldl Event.memoAfter rv.memo := by
  cases call with
  | resolve raw credential =>
    simp only [perform, events, Resolver.Outcome.map, Resolver.resolve]
    cases Reference.parse raw with
    | error f => rfl
    | ok r => exact converse_memo rv net network rv.deadline _ _
  | imageExists r credential =>
    refine (converse_memo rv net network none (.ok false) _).trans ?_
    rw [Event.within_eq_self rfl]
    rfl
  | workingDirectory r credential =>
    refine (converse_memo rv net network none defaultDirectory _).trans ?_
    rw [Event.within_eq_self rfl]
    rfl

end Call

namespace Turn

/-- The lookup that a turn about a reference begins with, when nothing cuts it off. -/
def looked (net : Network σ) (t : Turn σ) (r : Reference) :
    Transcript σ (Except Failure Manifest) :=
  t.resolver.lookedUp net t.network r t.call.credential

theorem looked_yields (net : Network σ) (t : Turn σ) (r : Reference) :
    Client.LooksUp t.resolver.client t.resolver.memo r t.call.credential (t.looked net r).events
      (t.looked net r).ending :=
  Client.lookup_yields (Conversation.yields_transcript net _ t.network)

theorem located_locates (net : Network σ) (t : Turn σ) (r : Reference) (m : Manifest) :
    Client.Locates t.resolver.client r m t.call.credential
      (t.resolver.located net t.network r t.call.credential m).events
      (t.resolver.located net t.network r t.call.credential m).ending :=
  Client.workingDirectoryFor_yields (Conversation.yields_transcript net _ _)

theorem events_looked {net : Network σ} {t : Turn σ} {r : Reference}
    (hr : t.call.reference? = some r) :
    t.events net = Event.within (t.call.limit t.resolver)
      ((t.looked net r).events ++ t.call.following t.resolver net t.network r) :=
  Call.events_eq t.resolver net t.network hr

end Turn

end ImageLookup
