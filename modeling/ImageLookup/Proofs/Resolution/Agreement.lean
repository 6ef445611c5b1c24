import ImageLookup.Proofs.Resolution.Directories
import ImageLookup.Proofs.Resolution.Transparency

/-! # Questions that agree

A resolver that is asked whether an image exists, or for its directory, answers as it would have
answered both at once: all three questions begin with the same lookup, and the answers differ only in
what they show of its end.  A directory can also be asked for without a resolver.  That way has a search
for the manifest of its own, which is a lookup that misses the memo, but for the remembering at its end
(`lookup_of_miss`).
-/

namespace ImageLookup

open Http (Network)

variable {σ : Type} {net : Network σ} {network : σ} {r : Reference} {credential : Option Credential}

namespace Client

variable {c : Client} {memo : Memo}

/-! ### With a resolver and without -/

/-- What a lookup does after its search for a manifest. -/
def rememberFound (key : ManifestKey) :
    Except Failure Manifest → Conversation (Except Failure Manifest)
  | .ok m => .remember key m (.done (.ok m))
  | .error f => .done (.error f)

/-- A lookup that misses the memo is the search without a memo, and one step more that remembers the
    manifest. -/
theorem lookup_of_miss (hmiss : memo.get? (.of r credential) = none) :
    (c.lookup memo r credential).run =
      (c.freshManifest r credential).run.bind (rememberFound (.of r credential)) := by
  have hlookup : c.lookup memo r credential = c.freshManifest r credential >>= fun m => do
      Attempt.remember (.of r credential) m
      return m := by
    rw [lookup, hmiss, freshManifest, bind_assoc]
  rw [hlookup, ExceptT.run_bind]
  show Conversation.bind _ _ = _
  congr 1
  funext found
  cases found with
  | error f => rfl
  | ok m => rfl

/-- Remembering is not seen on the network. -/
theorem transcript_of_miss (net : Network σ) (network : σ)
    (hmiss : memo.get? (.of r credential) = none) :
    let looked := (c.lookup memo r credential).run.transcript net network
    let found := (c.freshManifest r credential).run.transcript net network
    looked.ending = found.ending ∧ looked.network = found.network ∧
      Event.requests looked.events = Event.requests found.events := by
  intro looked found
  simp only [looked, lookup_of_miss hmiss, Conversation.transcript_bind]
  cases hending : ((c.freshManifest r credential).run.transcript net network).ending with
  | error f =>
    simp only [rememberFound, Conversation.transcript, List.append_nil]
    exact ⟨trivial, rfl, rfl⟩
  | ok m =>
    simp only [rememberFound, Conversation.transcript, Event.requests_append]
    exact ⟨trivial, rfl, List.append_nil _⟩

theorem workingDirectory_of_miss (net : Network σ) (network : σ)
    (hmiss : memo.get? (.of r credential) = none) :
    let alone := (c.workingDirectory r credential).transcript net network
    let remembered := (c.rememberedDirectory memo r credential).transcript net network
    alone.ending = remembered.ending ∧
      Event.requests alone.events = Event.requests remembered.events := by
  intro alone remembered
  have hremembered : c.rememberedDirectory memo r credential =
      (c.lookup memo r credential).run.bind (c.directoryAfter r credential) := rfl
  obtain ⟨hending, hnetwork, hrequests⟩ := transcript_of_miss (c := c) net network hmiss
  simp only [alone, remembered, workingDirectory_eq, hremembered, Conversation.transcript_bind,
    Event.requests_append, hending, hnetwork, hrequests]
  exact ⟨trivial, trivial⟩

end Client

/-! ### Three questions to a resolver -/

/-- What is said of the existence and of the directory of an image agrees with its resolution. -/
structure Agree (resolution : Except Failure Resolution) (existence : Except Failure Bool)
    (directory : String) : Prop where
  error_iff : ∀ f, existence = .error f ↔ resolution = .error f
  imageExists : ∀ known, resolution = .ok known → existence = .ok known.imageExists
  workingDirectory : ∀ known, resolution = .ok known → directory = known.workingDirectory
  unknown : ∀ f, resolution = .error f → directory = "/"

theorem agree_of_known (known : Resolution) :
    Agree (.ok known) (.ok known.imageExists) known.workingDirectory where
  error_iff f := by
    constructor
    · intro h
      cases h
    · intro h
      cases h
  imageExists other h := by rw [Except.ok.inj h]
  workingDirectory other h := by rw [Except.ok.inj h]
  unknown f h := by cases h

theorem agree_of_error (f : Failure) : Agree (.error f) (.error f) "/" where
  error_iff g := by
    constructor
    · intro h
      exact congrArg Except.error (Except.error.inj h)
    · intro h
      exact congrArg Except.error (Except.error.inj h)
  imageExists known h := by cases h
  workingDirectory known h := by cases h
  unknown g h := rfl

/-- A failed lookup never makes an image present. -/
theorem degrade_ne_present (credential : Option Credential) (f : Failure) :
    degrade credential f ≠ .ok .present := by
  intro h
  cases f with
  | authenticationRejected message status =>
    rw [degrade] at h
    split at h
    · cases h
    · cases h
  | unparseableReference | ambiguousReference | registryUnreachable | imageNotFound
  | badConfiguration => cases h

/-- After a lookup that failed, the image is not there and the directory is the default, unless the
    credential was refused. -/
theorem agree_of_missed (r : Reference) (credential : Option Credential) (f : Failure) :
    Agree ((degrade credential f).map (Resolution.unavailable r))
      ((degrade credential f).map fun _ => false) defaultDirectory := by
  have hpresent := degrade_ne_present credential f
  cases hdegrade : degrade credential f with
  | error g => exact agree_of_error g
  | ok availability =>
    have hmissing : (Resolution.unavailable r availability).imageExists = false := by
      apply decide_eq_false
      rintro rfl
      exact hpresent hdegrade
    have hagree := agree_of_known (Resolution.unavailable r availability)
    rw [hmissing] at hagree
    exact hagree

namespace Resolver

variable {rv : Resolver} {raw : String}

/-- Three calls, and one lookup that all of them begin with. -/
theorem replies_by_lookup (net : Network σ) (network : σ) (credential : Option Credential)
    (hdeadline : rv.deadline = none) (hparse : Reference.parse raw = .ok r) :
    let looked := (rv.lookedUp net network r credential).ending
    let located := fun m => (rv.located net network r credential m).ending
    Reply.resolution (rv.resolve net network raw credential).result =
        (Call.resolve raw credential).replyTo r looked located ∧
      Reply.existence (rv.imageExists net network r credential).result =
        (Call.imageExists r credential).replyTo r looked located ∧
      Reply.directory (rv.workingDirectory net network r credential).result =
        (Call.workingDirectory r credential).replyTo r looked located := by
  intro looked located
  have hr : (Call.resolve raw credential).reference? = some r := by
    rw [Call.reference?, hparse]
    rfl
  have hresolve : ((Call.resolve raw credential).perform rv net network).result = _ :=
    perform_result_in_time hdeadline hr
  have hexists : ((Call.imageExists r credential).perform rv net network).result = _ :=
    perform_result_in_time hdeadline rfl
  have hdirectory : ((Call.workingDirectory r credential).perform rv net network).result = _ :=
    perform_result_in_time hdeadline rfl
  exact ⟨hresolve, hexists, hdirectory⟩

/-- For every way the lookup may end, the three answers tell the same. -/
theorem agree (rv : Resolver) (net : Network σ) (network : σ) (credential : Option Credential)
    (hdeadline : rv.deadline = none) (hparse : Reference.parse raw = .ok r) :
    Agree (rv.resolve net network raw credential).result
      (rv.imageExists net network r credential).result
      (rv.workingDirectory net network r credential).result := by
  obtain ⟨hresolution, hexistence, hdirectory⟩ :=
    replies_by_lookup net network credential hdeadline hparse
  cases hlooked : (rv.lookedUp net network r credential).ending with
  | ok m =>
    rw [hlooked] at hresolution hexistence hdirectory
    rw [Reply.resolution.inj hresolution, Reply.existence.inj hexistence,
      Reply.directory.inj hdirectory]
    exact agree_of_known _
  | error f =>
    rw [hlooked] at hresolution hexistence hdirectory
    rw [Reply.resolution.inj hresolution, Reply.existence.inj hexistence,
      Reply.directory.inj hdirectory]
    exact agree_of_missed r credential f

/-- On a resolver without a deadline, and on any network that meets each question alike: whether an
    image exists is what its resolution says, and fails as it fails; its directory is that of its
    resolution, and `/` where that fails.  With nothing remembered for the question, asking for the
    directory without a resolver sends the same requests in the same order and finds the same. -/
theorem questions_agree (rv : Resolver) (net : Network σ) (network : σ) (raw : String)
    (r : Reference) (credential : Option Credential) (hdeadline : rv.deadline = none)
    (hparse : Reference.parse raw = .ok r) :
    Agree (rv.resolve net network raw credential).result
      (rv.imageExists net network r credential).result
      (rv.workingDirectory net network r credential).result ∧
    (rv.memo.get? (.of r credential) = none →
      let alone := (rv.client.workingDirectory r credential).run net (.start network .empty none)
      alone.1 = some (rv.workingDirectory net network r credential).result ∧
        alone.2.sent = (rv.workingDirectory net network r credential).sent) := by
  refine ⟨agree rv net network credential hdeadline hparse, ?_⟩
  intro hmiss alone
  obtain ⟨hending, hrequests⟩ := Client.workingDirectory_of_miss (c := rv.client) net network hmiss
  obtain ⟨hresult, hsent, -⟩ := Conversation.run_eq_transcript net
    (rv.client.workingDirectory r credential) (.start network .empty none)
  have hwhole : ∀ events, Event.within none events = events := fun events =>
    Event.within_eq_self rfl
  constructor
  · rw [workingDirectory, Call.converse_result]
    refine hresult.trans ?_
    exact congrArg some hending
  · rw [workingDirectory, Call.converse_sent, hwhole, ← hrequests]
    refine hsent.trans ?_
    simp only [Session.start, hwhole, List.nil_append]

/-- The registry is asked by three resolvers and once without, and has a directory to tell. -/
theorem questions_agree_furnished :
    let r : Reference := ⟨"registry.test", "app", .tag "1"⟩
    let raw := "registry.test/app:1"
    let rv : Resolver := .new .default none
    let net := Turn.furnished "\x7b\"config\":\x7b\"WorkingDir\":\"/app\"\x7d\x7d"
    Reference.parse raw = .ok r ∧
      (rv.resolve net () raw none).result = .ok ⟨r, .present, "/app"⟩ ∧
      (rv.imageExists net () r none).result = .ok true ∧
      (rv.workingDirectory net () r none).result = "/app" ∧
      ((rv.client.workingDirectory r none).run net (.start () .empty none)).1 = some "/app" := by
  intro r raw rv net
  have hparse : Reference.parse raw = .ok r := by decide +kernel
  have hresolution : (rv.resolve net () raw none).result = .ok ⟨r, .present, "/app"⟩ := by
    decide +kernel
  obtain ⟨hagree, halone⟩ := questions_agree rv net () raw r none rfl hparse
  have hdirectory : (rv.workingDirectory net () r none).result = "/app" :=
    hagree.workingDirectory _ hresolution
  have hfound := (halone rfl).1
  rw [hdirectory] at hfound
  exact ⟨hparse, hresolution, hagree.imageExists _ hresolution, hdirectory, hfound⟩

end Resolver

end ImageLookup
