import ImageLookup.Proofs.Conversation.Renaming
import ImageLookup.Proofs.Resolution.Confinement
import ImageLookup.Proofs.Resolution.Protocol

/-! # Secrets

A secret is presented to token services and shows nowhere else.  Presenting another one renames a
conversation: other values stand in its `Authorization` headers, and manifests are remembered under
another fingerprint.  Nothing that is decided or said on the way depends on either, so a network that
overlooks secrets leads both conversations to the same end.
-/

namespace ImageLookup

open Http (Request Network)

/-! ### Other credentials -/

/-- Presents one credential in the place of another. -/
def Credential.replaceBy (k k' : Credential) : Renaming where
  request q :=
    if q.authorization = some k.authorization then
      ⟨q.url, q.query, q.accept, some k'.authorization⟩
    else q
  key key := ⟨key.host, key.repository, key.target, some k'.fingerprint⟩

variable {c : Client} {k k' : Credential} {r : Reference}

theorem replaceBy_of_ne {q : Request} (h : q.authorization ≠ some k.authorization) :
    (k.replaceBy k').request q = q := if_neg h

theorem replaceBy_tokenRequest (ch : Challenge) :
    (k.replaceBy k').request (Client.tokenRequest ch (some k)) =
      Client.tokenRequest ch (some k') := if_pos rfl

theorem replaceBy_get (url : String) : (k.replaceBy k').request (.get url) = .get url := by
  apply replaceBy_of_ne
  intro h
  cases h

/-- A token is no credential. -/
theorem replaceBy_contentRequest (url accept : String) (token : Option BearerToken) :
    (k.replaceBy k').request (Client.contentRequest url accept token) =
      Client.contentRequest url accept token := by
  apply replaceBy_of_ne
  intro h
  obtain ⟨t, -, hvalue⟩ := Option.map_eq_some_iff.1 h
  exact basic_ne_bearer _ _ hvalue.symm

/-! ### Stages -/

namespace Client

/-- The exchange is the one stage that presents the credential; all others carry it on. -/
theorem exchange_replaceBy (ch : Challenge) :
    Attempt.rename (k.replaceBy k') (c.exchange ch (some k)) = c.exchange ch (some k') := by
  apply Attempt.rename_request (replaceBy_tokenRequest ch)
  · rfl
  · intro answer octets
    rfl
  · intro answer
    by_cases hforbidden : answer.status = 403
    · rw [if_pos hforbidden]
      rfl
    · rw [if_neg hforbidden]
      rfl

theorem probe_replaceBy : Attempt.rename (k.replaceBy k') (c.probe r) = c.probe r := by
  have hget : (k.replaceBy k').request (.get (c.manifestUrl r)) = .get (c.manifestUrl r) :=
    replaceBy_get _
  rw [probe, Attempt.rename_bind, Attempt.rename_send c (by rw [hget]), hget]
  rfl

theorem authenticate_replaceBy :
    Attempt.rename (k.replaceBy k') (c.authenticate r (some k)) = c.authenticate r (some k') := by
  rw [authenticate, authenticate, Attempt.rename_bind, probe_replaceBy]
  congr 1
  funext p
  cases p with
  | noAuthRequired => rfl
  | challenged ch => exact exchange_replaceBy ch

theorem negotiate_replaceBy (token : Option BearerToken) (mediaTypes : List String) :
    Attempt.rename (k.replaceBy k') (c.negotiate r token mediaTypes) =
      c.negotiate r token mediaTypes := by
  induction mediaTypes with
  | nil => rfl
  | cons mediaType mediaTypes ih =>
    rw [negotiate]
    apply Attempt.rename_request (replaceBy_contentRequest _ _ token)
    · rfl
    · intro answer octets
      rfl
    · intro answer
      exact ih

theorem lookup_replaceBy :
    Attempt.rename (k.replaceBy k') (c.lookup .empty r (some k)) = c.lookup .empty r (some k') := by
  rw [lookup, lookup, Memo.get?_empty, Memo.get?_empty]
  show Attempt.rename _ (_ >>= _) = _ >>= _
  rw [Attempt.rename_bind, authenticate_replaceBy]
  congr 1
  funext token
  rw [Attempt.rename_bind]
  exact congrArg (· >>= _) (negotiate_replaceBy token negotiationOrder)

theorem fetchConfig_replaceBy (d : Digest) :
    Attempt.rename (k.replaceBy k') (c.fetchConfig r d (some k)) = c.fetchConfig r d (some k') := by
  rw [fetchConfig, fetchConfig, Attempt.rename_bind, authenticate_replaceBy]
  congr 1
  funext token
  apply Attempt.rename_request (replaceBy_contentRequest _ _ token)
  · rfl
  · intro answer octets
    rfl
  · intro answer
    rfl

theorem workingDirectoryFor_replaceBy (m : Manifest) :
    (c.workingDirectoryFor r m (some k)).rename (k.replaceBy k') =
      c.workingDirectoryFor r m (some k') := by
  rw [workingDirectoryFor, workingDirectoryFor]
  cases m.configDigest? with
  | none => rfl
  | some d =>
    refine (Conversation.rename_bind _ _ _).trans ?_
    exact congrArg (· >>= _) (fetchConfig_replaceBy d)

/-! ### Questions -/

theorem resolveReference_replaceBy (c : Client) (r : Reference) (k k' : Credential) :
    (c.resolveReference .empty r (some k)).rename (k.replaceBy k') =
      c.resolveReference .empty r (some k') := by
  rw [resolveReference, resolveReference, Conversation.rename_bind]
  refine congrArg₂ (· >>= ·) lookup_replaceBy (funext fun looked => ?_)
  cases looked with
  -- Whether a failure stays one depends on there being a credential, and not on which.
  | error f => rfl
  | ok m =>
    refine (Conversation.rename_bind _ _ _).trans ?_
    exact congrArg (· >>= _) (workingDirectoryFor_replaceBy m)

theorem existsOnRegistry_replaceBy (c : Client) (r : Reference) (k k' : Credential) :
    (c.existsOnRegistry .empty r (some k)).rename (k.replaceBy k') =
      c.existsOnRegistry .empty r (some k') := by
  rw [existsOnRegistry, existsOnRegistry, Conversation.rename_bind]
  refine congrArg₂ (· >>= ·) lookup_replaceBy (funext fun looked => ?_)
  cases looked with
  | error f => rfl
  | ok m => rfl

theorem rememberedDirectory_replaceBy (c : Client) (r : Reference) (k k' : Credential) :
    (c.rememberedDirectory .empty r (some k)).rename (k.replaceBy k') =
      c.rememberedDirectory .empty r (some k') := by
  rw [rememberedDirectory, rememberedDirectory, Conversation.rename_bind]
  refine congrArg₂ (· >>= ·) lookup_replaceBy (funext fun looked => ?_)
  cases looked with
  | error f => rfl
  | ok m => exact workingDirectoryFor_replaceBy m

end Client

/-! ### Networks that overlook secrets -/

/-- Requests that differ at most in the credential that they present. -/
structure Http.Request.SameButSecret (q q' : Request) : Prop where
  url : q.url = q'.url
  query : q.query = q'.query
  accept : q.accept = q'.accept
  authorization : q.authorization = q'.authorization ∨
    ∃ k k' : Credential, q.authorization = some k.authorization ∧
      q'.authorization = some k'.authorization

open Http.Request (SameButSecret)

/-- What a network replies, and when, does not depend on the credentials that are presented to it. -/
def Http.Network.OverlooksSecrets {σ : Type} (net : Network σ) (network : σ) : Prop :=
  ∀ qs qs', List.Forall₂ SameButSecret qs qs' → net.replies qs network = net.replies qs' network

theorem overlooksSecrets_of_stateless {net : Network Unit}
    (h : ∀ q q', SameButSecret q q' → (net.answer q ()).1 = (net.answer q' ()).1) :
    net.OverlooksSecrets () := by
  intro qs qs' hsame
  induction hsame with
  | nil => rfl
  | cons hq _ ih => exact congrArg₂ (· :: ·) (h _ _ hq) ih

theorem sameButSecret_replaceBy (q : Request) : SameButSecret q ((k.replaceBy k').request q) := by
  by_cases hsecret : q.authorization = some k.authorization
  · have hrequest : (k.replaceBy k').request q =
        ⟨q.url, q.query, q.accept, some k'.authorization⟩ := if_pos hsecret
    rw [hrequest]
    exact ⟨rfl, rfl, rfl, .inr ⟨k, k', hsecret, rfl⟩⟩
  · rw [replaceBy_of_ne hsecret]
    exact ⟨rfl, rfl, rfl, .inl rfl⟩

theorem forall₂_replaceBy (qs : List Request) :
    List.Forall₂ SameButSecret qs (qs.map (k.replaceBy k').request) := by
  induction qs with
  | nil => exact .nil
  | cons q qs ih => exact .cons (sameButSecret_replaceBy q) ih

/-- A network that overlooks secrets hides the change from every conversation. -/
theorem hidden_replaceBy {σ : Type} {net : Network σ} {network : σ}
    (h : net.OverlooksSecrets network) (k k' : Credential) :
    (k.replaceBy k').Hidden net network network :=
  fun qs => h qs _ (forall₂_replaceBy qs)

/-! ### Calls -/

def Call.presenting (credential : Option Credential) : Call → Call
  | .resolve raw _ => .resolve raw credential
  | .imageExists r _ => .imageExists r credential
  | .workingDirectory r _ => .workingDirectory r credential

namespace Resolver

variable {σ α : Type} {net : Network σ} {network : σ}

/-- Under a limit as well: the times of the answers do not depend on the secret. -/
theorem converse_replaceBy (rv : Resolver) (limit : Option Nat) (late : α)
    {conversation conversation' : Conversation α} (hoverlooks : net.OverlooksSecrets network)
    (hreplace : conversation.rename (k.replaceBy k') = conversation') :
    List.Forall₂ SameButSecret (rv.converse net network limit late conversation).sent
        (rv.converse net network limit late conversation').sent ∧
      (rv.converse net network limit late conversation).result =
        (rv.converse net network limit late conversation').result := by
  obtain ⟨hevents, hending⟩ :=
    conversation.transcript_rename (hidden_replaceBy hoverlooks k k')
  rw [← hreplace, Call.converse_sent, Call.converse_sent, Call.converse_result,
    Call.converse_result, hevents, hending, Event.within_map_rename, Event.fits_map_rename,
    Event.requests_map_rename]
  exact ⟨forall₂_replaceBy _, rfl⟩

/-- Nothing that a resolver answers depends on the secret that it is asked with.  Whatever the
    question, the registry and the deadline: as long as the network answers without regard to
    credentials, a resolver that remembers nothing sends the same requests with one secret as with
    another, but for the values that present them, and gives the same reply, be it a result or a failure
    with all its texts. -/
theorem secret_unseen (net : Network σ) (network : σ) (hoverlooks : net.OverlooksSecrets network)
    (client : Client) (deadline : Option Nat) (k k' : Credential) (call : Call) :
    let rv := Resolver.new client deadline
    let outcome := (call.presenting (some k)).perform rv net network
    let outcome' := (call.presenting (some k')).perform rv net network
    List.Forall₂ SameButSecret outcome.sent outcome'.sent ∧ outcome.result = outcome'.result := by
  intro rv outcome outcome'
  cases call with
  | resolve raw credential =>
    simp only [outcome, outcome', Call.presenting, Call.perform, Outcome.map, resolve]
    cases Reference.parse raw with
    | error f => exact ⟨.nil, rfl⟩
    | ok r =>
      obtain ⟨hsent, hresult⟩ := converse_replaceBy rv deadline (Except.ok (.unavailable r .unreachable))
        hoverlooks (client.resolveReference_replaceBy r k k')
      exact ⟨hsent, congrArg Reply.resolution hresult⟩
  | imageExists r credential =>
    obtain ⟨hsent, hresult⟩ := converse_replaceBy rv none (Except.ok false) hoverlooks
      (client.existsOnRegistry_replaceBy r k k')
    exact ⟨hsent, congrArg Reply.existence hresult⟩
  | workingDirectory r credential =>
    obtain ⟨hsent, hresult⟩ := converse_replaceBy rv none defaultDirectory hoverlooks
      (client.rememberedDirectory_replaceBy r k k')
    exact ⟨hsent, congrArg Reply.directory hresult⟩

theorem overlooksSecrets_reluctant : reluctant.OverlooksSecrets () := by
  apply overlooksSecrets_of_stateless
  intro q q' hsame
  have hnone : q.authorization = none ↔ q'.authorization = none := by
    rcases hsame.authorization with heq | ⟨k, k', hk, hk'⟩
    · rw [heq]
    · simp [hk, hk']
  simp only [reluctant, hsame.url, hsame.accept, hnone]

/-- The empty secret is presented like any other. -/
theorem secret_unseen_reluctant :
    let raw := "registry.test/app:1"
    let rv := Resolver.new .default (some 5000)
    let outcome := (Call.resolve raw (some ⟨"s"⟩)).perform rv reluctant ()
    let outcome' := (Call.resolve raw (some ⟨""⟩)).perform rv reluctant ()
    reluctant.OverlooksSecrets () ∧
      outcome.sent.filterMap (·.authorization) =
        ["Basic b2F1dGgyOnM=", "Bearer t", "Bearer t", "Basic b2F1dGgyOnM=", "Bearer t"] ∧
      outcome'.sent.filterMap (·.authorization) =
        ["Basic b2F1dGgyOg==", "Bearer t", "Bearer t", "Basic b2F1dGgyOg==", "Bearer t"] ∧
      List.Forall₂ SameButSecret outcome.sent outcome'.sent ∧ outcome.result = outcome'.result := by
  intro raw rv outcome outcome'
  have hunseen := secret_unseen reluctant () overlooksSecrets_reluctant .default (some 5000) ⟨"s"⟩ ⟨""⟩
    (.resolve raw none)
  refine ⟨overlooksSecrets_reluctant, ?_, ?_, hunseen⟩
  · decide +kernel
  · decide +kernel

end Resolver

end ImageLookup
