import ImageLookup.Proofs.Conversation.Limits
import ImageLookup.Proofs.Resolution.Lookups

/-! # Where directories come from

A registry need not be honest, and neither need be the manifest that it gave: the digest in it may be
no digest, and the blob under that digest may be another one.  A directory other than `/` is therefore
traced back to the last answer of the call.  It was given to a request for the digest of the manifest
(`ServesBlob`), it has the hash that the digest states wherever that can be computed (`Digest.Matches`),
and it names the directory (`Names`).
-/

namespace ImageLookup

open Http (Network)

/-! ### Content and digests -/

/-- Content has the hash that a digest states, if the hash is one that can be computed. -/
structure Digest.Matches (d : Digest) (content : Octets) : Prop where
  sha256 : d.algorithm = "sha256" → Text.hex (Hash.sha256 content) = d.encoded.toList
  sha512 : d.algorithm = "sha512" → Text.hex (Hash.sha512 content) = d.encoded.toList

theorem Digest.matches_iff_verify {d : Digest} {content : Octets} :
    d.Matches content ↔ d.verify content ≠ some false := by
  have hdistinct : ("sha512" : String) ≠ "sha256" := by decide
  by_cases h256 : d.algorithm = "sha256"
  · have hverify : d.verify content =
        some (decide (Text.hex (Hash.sha256 content) = d.encoded.toList)) := by
      rw [verify, hash?, if_pos h256, Option.map_some]
    rw [hverify]
    constructor
    · intro h
      simp [h.sha256 h256]
    · intro h
      refine ⟨fun _ => by simpa using h, ?_⟩
      intro h512
      exact absurd (h512.symm.trans h256) hdistinct
  by_cases h512 : d.algorithm = "sha512"
  · have hverify : d.verify content =
        some (decide (Text.hex (Hash.sha512 content) = d.encoded.toList)) := by
      rw [verify, hash?, if_neg h256, if_pos h512, Option.map_some]
    rw [hverify]
    constructor
    · intro h
      simp [h.sha512 h512]
    · intro h
      exact ⟨fun heq => absurd heq h256, fun _ => by simpa using h⟩
  · have hverify : d.verify content = none := by
      rw [verify, hash?, if_neg h256, if_neg h512, Option.map_none]
    rw [hverify]
    constructor
    · intro _ h
      cases h
    · intro _
      exact ⟨fun heq => absurd heq h256, fun heq => absurd heq h512⟩

namespace Client

variable {c : Client} {r : Reference} {m : Manifest} {credential : Option Credential}
variable {d : Digest} {body : Octets} {directory : String} {limit : Option Nat}
variable {first second events : List Event}

/-- A body is a document whose configuration names a directory. -/
def Names (body : Octets) (directory : String) : Prop :=
  ∃ document, Json.Value.read? body = some document ∧
    document.at? ["config", "WorkingDir"] = some (.text directory) ∧ directory ≠ ""

theorem names_of_ne_default (h : (ImageConfig.ofBody body).workingDirectory = directory)
    (hne : directory ≠ "/") : Names body directory := by
  rw [ImageConfig.workingDirectory] at h
  split at h
  · exact absurd h.symm hne
  · exact absurd h.symm hne
  · rename_i _ named hnonempty hnamed
    obtain rfl := h
    cases hread : Json.Value.read? body with
    | none =>
      rw [ImageConfig.ofBody, textAt?, documentOf, hread] at hnamed
      cases hnamed
    | some document =>
      rw [ImageConfig.ofBody, textAt?, documentOf, hread, Option.getD_some] at hnamed
      obtain ⟨value, hvalue, htext⟩ := Option.bind_eq_some_iff.1 hnamed
      refine ⟨document, hread, ?_, hnonempty⟩
      cases value with
      | text s =>
        obtain rfl := Option.some.inj htext
        exact hvalue
      | _ => cases htext

theorem configDigest?_eq_some_iff :
    m.configDigest? = some d ↔ ∃ text, m.configText = some text ∧ Digest.ofText? text = .ok d := by
  rw [Manifest.configDigest?, Option.bind_eq_some_iff]
  refine exists_congr fun text => and_congr_right fun _ => ?_
  cases Digest.ofText? text with
  | error f => simp [Except.toOption]
  | ok d' => simp [Except.toOption]

/-! ### Blobs -/

/-- The last thing that happened was that a request for a blob was answered with status 200, and
    the body read. -/
def ServesBlob (c : Client) (r : Reference) (d : Digest) (body : Octets) (events : List Event) :
    Prop :=
  ∃ before token answer elapsed, answer.status = 200 ∧ answer.body.outcome = .ok body ∧
    events = before ++
      [.asked (contentRequest (c.blobUrl r d) "application/json" token) ⟨.ok answer, elapsed⟩,
        .heard answer.body]

theorem ServesBlob.prepend (first : List Event) (h : ServesBlob c r d body second) :
    ServesBlob c r d body (first ++ second) := by
  obtain ⟨before, token, answer, elapsed, hstatus, hbody, rfl⟩ := h
  exact ⟨first ++ before, token, answer, elapsed, hstatus, hbody, (List.append_assoc ..).symm⟩

theorem ServesBlob.unique {d' : Digest} {body' : Octets} (h : ServesBlob c r d body events)
    (h' : ServesBlob c r d' body' events) : body = body' := by
  obtain ⟨before, token, answer, elapsed, -, hbody, rfl⟩ := h
  obtain ⟨before', token', answer', elapsed', -, hbody', heq⟩ := h'
  obtain ⟨-, hlast⟩ := List.append_inj' heq rfl
  have hheard := (List.cons.inj (List.cons.inj hlast).2).1
  rw [Event.heard.inj hheard, hbody'] at hbody
  exact (Except.ok.inj hbody).symm

/-- What a directory other than the default stands on. -/
def Backed (c : Client) (r : Reference) (m : Manifest) (events : List Event) (directory : String) :
    Prop :=
  ∃ text d body, m.configText = some text ∧ Digest.ofText? text = .ok d ∧
    ServesBlob c r d body events ∧ Names body directory ∧ d.Matches body

/-- The blob under the digest of a manifest was served, and has another hash.  A realm may have the
    address of a blob, so it is the last answer that tells. -/
def Tampered (c : Client) (r : Reference) (m : Manifest) (events : List Event) : Prop :=
  ∃ text d body, m.configText = some text ∧ Digest.ofText? text = .ok d ∧
    ServesBlob c r d body events ∧ ¬d.Matches body

/-- A document that was read counts, unless its hash can be computed and is not the one stated. -/
theorem Fetches.cases_read {result : Except Failure (Option ImageConfig)}
    (h : Fetches c r d credential events result) :
    directoryOf result = defaultDirectory ∨ ∃ body, ServesBlob c r d body events ∧
      result = .ok (if d.verify body = some false then none else some (ImageConfig.ofBody body)) := by
  cases h with
  | unauthenticated | fault | declined | unread => exact .inl rfl
  | read _ hstatus hbody => exact .inr ⟨_, ⟨_, _, _, _, hstatus, hbody, rfl⟩, rfl⟩

/-- A directory other than the default was named by the blob that was served last. -/
theorem Locates.backed (h : Locates c r m credential events directory) (hne : directory ≠ "/") :
    Backed c r m events directory := by
  cases h with
  | unnamed => exact absurd rfl hne
  | @named d _ _ hdigest hfetches =>
    obtain ⟨text, htext, hread⟩ := configDigest?_eq_some_iff.1 hdigest
    rcases hfetches.cases_read with hdefault | ⟨body, hserves, rfl⟩
    · exact absurd hdefault hne
    by_cases hverify : d.verify body = some false
    · rw [if_pos hverify] at hne
      exact absurd rfl hne
    · rw [if_neg hverify] at hne ⊢
      exact ⟨text, d, body, htext, hread, hserves, names_of_ne_default rfl hne,
        Digest.matches_iff_verify.2 hverify⟩

/-- Since the last answer tells, a tampered blob is the one that was fetched, and is rejected. -/
theorem Locates.default_of_tampered (h : Locates c r m credential second directory)
    (htampered : Tampered c r m (first ++ second)) : directory = "/" := by
  cases h with
  | unnamed => rfl
  | named hdigest hfetches =>
    rcases hfetches.cases_read with hdefault | ⟨body, hserves, rfl⟩
    · exact hdefault
    obtain ⟨text, d, body', htext, hread, hserves', hmatches⟩ := htampered
    obtain rfl := Option.some.inj
      ((configDigest?_eq_some_iff.2 ⟨text, htext, hread⟩).symm.trans hdigest)
    obtain rfl := hserves'.unique (hserves.prepend first)
    rw [Digest.matches_iff_verify, not_not] at hmatches
    rw [if_pos hmatches]
    rfl

/-- A manifest that names no digest leaves nothing to ask for. -/
theorem Locates.silent (h : Locates c r m credential events directory)
    (hunnamed : ∀ text d, m.configText = some text → Digest.ofText? text ≠ .ok d) :
    events = [] ∧ directory = "/" := by
  cases h with
  | unnamed => exact ⟨rfl, rfl⟩
  | named hdigest =>
    obtain ⟨text, htext, hread⟩ := configDigest?_eq_some_iff.1 hdigest
    exact absurd hread (hunnamed text _ htext)

/-! ### Justified directories -/

/-- A directory is right about the events that led to it.  The first of them are those of a lookup
    of the manifest, which ended so. -/
structure Justified (c : Client) (r : Reference) (looked : Except Failure Manifest)
    (lookup events : List Event) (directory : String) : Prop where
  backed : directory ≠ "/" → ∃ m, looked = .ok m ∧ Backed c r m events directory
  tampered : ∀ m, looked = .ok m → Tampered c r m events → directory = "/"
  unnamed : ∀ m, looked = .ok m →
    (∀ text d, m.configText = some text → Digest.ofText? text ≠ .ok d) →
    directory = "/" ∧ events = lookup

theorem justified_of_error (c : Client) (r : Reference) (f : Failure) (lookup events : List Event) :
    Justified c r (.error f) lookup events "/" where
  backed hne := absurd rfl hne
  tampered _ hending := by cases hending
  unnamed _ hending := by cases hending

theorem Locates.justified (h : Locates c r m credential second directory)
    (hfits : Event.fits limit (first ++ second) = true) :
    Justified c r (.ok m) (Event.within limit first) (Event.within limit (first ++ second))
      directory where
  backed hne := by
    obtain ⟨text, d, body, htext, hread, hserves, hrest⟩ := h.backed hne
    rw [Event.within_eq_self hfits]
    exact ⟨m, rfl, text, d, body, htext, hread, hserves.prepend first, hrest⟩
  tampered m' hending htampered := by
    obtain rfl := Except.ok.inj hending
    rw [Event.within_eq_self hfits] at htampered
    exact h.default_of_tampered htampered
  unnamed m' hending hunnamed := by
    obtain rfl := Except.ok.inj hending
    obtain ⟨rfl, rfl⟩ := h.silent hunnamed
    rw [List.append_nil]
    exact ⟨rfl, rfl⟩

/-- A directory that comes too late is replaced by the default. -/
theorem justified_late (limit : Option Nat) (c : Client) (r : Reference) (first : List Event)
    (hsilent : (∀ text d, m.configText = some text → Digest.ofText? text ≠ .ok d) → second = []) :
    Justified c r (.ok m) (Event.within limit first) (Event.within limit (first ++ second))
      "/" where
  backed hne := absurd rfl hne
  tampered _ _ _ := rfl
  unnamed m' hending hunnamed := by
    obtain rfl := Except.ok.inj hending
    rw [hsilent hunnamed, List.append_nil]
    exact ⟨rfl, rfl⟩

/-- The search for a manifest that nothing is remembered of. -/
def freshManifest (c : Client) (r : Reference) (credential : Option Credential) :
    Attempt Manifest := do
  let token ← c.authenticate r credential
  c.getManifest r token

/-- The search for a directory, by how the search for a manifest ended. -/
def directoryAfter (c : Client) (r : Reference) (credential : Option Credential) :
    Except Failure Manifest → Conversation String
  | .ok m => c.workingDirectoryFor r m credential
  | .error _ => .done defaultDirectory

theorem workingDirectory_eq (c : Client) (r : Reference) (credential : Option Credential) :
    c.workingDirectory r credential =
      (c.freshManifest r credential).run.bind (c.directoryAfter r credential) := rfl

theorem workingDirectory_justified {σ : Type} (c : Client) (r : Reference)
    (credential : Option Credential) (net : Network σ) (network : σ) :
    Justified c r ((c.freshManifest r credential).run.transcript net network).ending
      ((c.freshManifest r credential).run.transcript net network).events
      ((c.workingDirectory r credential).transcript net network).events
      ((c.workingDirectory r credential).transcript net network).ending := by
  rw [workingDirectory_eq, Conversation.transcript_bind]
  cases hending : ((c.freshManifest r credential).run.transcript net network).ending with
  | error f =>
    simp only [hending, directoryAfter]
    exact justified_of_error c r f _ _
  | ok m =>
    simp only [hending, directoryAfter]
    have hlocates := workingDirectoryFor_yields (Conversation.yields_transcript net
      (c.workingDirectoryFor r m credential)
      ((c.freshManifest r credential).run.transcript net network).network)
    have hunlimited : ∀ events, Event.within none events = events :=
      fun events => Event.within_eq_self rfl
    have hjustified := hlocates.justified (rfl : Event.fits none
      (((c.freshManifest r credential).run.transcript net network).events ++ _) = true)
    rwa [hunlimited, hunlimited] at hjustified

end Client

/-! ### Replies -/

namespace Reply

/-- The directory that a reply tells. -/
inductive Tells : Reply → String → Prop
  | resolution (known : Resolution) : Tells (.resolution (.ok known)) known.workingDirectory
  | directory (directory : String) : Tells (.directory directory) directory

theorem tells_unavailable {credential : Option Credential} {r : Reference} {f : Failure}
    {directory : String}
    (h : Tells (.resolution ((degrade credential f).map (Resolution.unavailable r))) directory) :
    directory = "/" := by
  cases hdegrade : degrade credential f with
  | error f' =>
    rw [hdegrade] at h
    cases h
  | ok availability =>
    rw [hdegrade] at h
    cases h
    rfl

end Reply

namespace Turn

open Client

variable {σ : Type} {net : Network σ} {t : Turn σ} {r : Reference} {m : Manifest}
variable {directory : String}

/-- After a manifest was found, a call tells the directory that is located next, or tells none and
    is done. -/
theorem following_cases (hending : (t.looked net r).ending = .ok m) (located : Manifest → String) :
    (t.call.following t.resolver net t.network r =
        (t.resolver.located net t.network r t.call.credential m).events ∧
      ∀ directory, (t.call.replyTo r (.ok m) located).Tells directory → directory = located m) ∨
    (t.call.following t.resolver net t.network r = [] ∧
      ∀ directory, ¬(t.call.replyTo r (.ok m) located).Tells directory) := by
  rw [looked] at hending
  cases hcall : t.call with
  | resolve raw credential | workingDirectory r' credential =>
    rw [hcall] at hending
    simp only [Call.following, hending]
    refine .inl ⟨trivial, ?_⟩
    intro directory h
    cases h
    rfl
  | imageExists r' credential =>
    rw [hcall] at hending
    simp only [Call.following, hending]
    refine .inr ⟨trivial, ?_⟩
    intro directory h
    cases h

theorem following_silent (hending : (t.looked net r).ending = .ok m)
    (hunnamed : ∀ text d, m.configText = some text → Digest.ofText? text ≠ .ok d) :
    t.call.following t.resolver net t.network r = [] := by
  rcases following_cases hending fun _ => defaultDirectory with ⟨hfollowing, -⟩ | ⟨hfollowing, -⟩
  · rw [hfollowing]
    exact ((t.located_locates net r m).silent hunnamed).1
  · exact hfollowing

/-- What a call that is in time tells about a manifest was located after the lookup. -/
theorem tells_located (hending : (t.looked net r).ending = .ok m)
    (h : (t.call.replyTo r (t.looked net r).ending
      fun m => (t.resolver.located net t.network r t.call.credential m).ending).Tells directory) :
    Locates t.resolver.client r m t.call.credential
      (t.call.following t.resolver net t.network r) directory := by
  rw [hending] at h
  rcases following_cases hending _ with ⟨hfollowing, htells⟩ | ⟨-, hnone⟩
  · rw [hfollowing, htells directory h]
    exact t.located_locates net r m
  · exact absurd h (hnone directory)

theorem tells_default {f : Failure} (hending : (t.looked net r).ending = .error f)
    {located : Manifest → String}
    (h : (t.call.replyTo r (t.looked net r).ending located).Tells directory) :
    directory = "/" := by
  rw [hending] at h
  cases hcall : t.call with
  | resolve raw credential =>
    rw [hcall] at h
    exact Reply.tells_unavailable h
  | imageExists r' credential =>
    rw [hcall] at h
    cases h
  | workingDirectory r' credential =>
    rw [hcall] at h
    cases h
    rfl

theorem outcome_justified (hr : t.call.reference? = some r)
    (h : (t.outcome net).result.Tells directory) :
    Justified t.resolver.client r (t.looked net r).ending
      (Event.within (t.call.limit t.resolver) (t.looked net r).events) (t.events net)
      directory := by
  rw [outcome, Call.perform_result t.resolver net t.network hr] at h
  rw [events_looked hr]
  cases hfits : Event.fits (t.call.limit t.resolver)
      (t.call.whole t.resolver net t.network r) with
  | false =>
    rw [hfits, if_neg Bool.false_ne_true] at h
    cases h
    cases hending : (t.looked net r).ending with
    | error f => exact justified_of_error _ r f _ _
    | ok m => exact justified_late _ _ r _ (following_silent hending)
  | true =>
    rw [hfits, if_pos rfl] at h
    cases hending : (t.looked net r).ending with
    | error f =>
      rw [tells_default hending h]
      exact justified_of_error _ r f _ _
    | ok m => exact (tells_located hending h).justified hfits

theorem reference?_of_tells (h : (t.outcome net).result.Tells directory) :
    ∃ r, t.call.reference? = some r := by
  cases hr : t.call.reference? with
  | some r => exact ⟨r, rfl⟩
  | none =>
    obtain ⟨f, hperform⟩ := Call.perform_of_no_reference hr
    rw [outcome, hperform] at h
    cases h

/-- Once there is a manifest, a call that asks for a directory is told one. -/
theorem exists_tells (hr : t.call.reference? = some r) (hending : (t.looked net r).ending = .ok m)
    (hasks : ∀ r' credential, t.call ≠ .imageExists r' credential) :
    ∃ directory, (t.outcome net).result.Tells directory := by
  rw [looked] at hending
  rw [outcome, Call.perform_result t.resolver net t.network hr, hending]
  by_cases hfits : Event.fits (t.call.limit t.resolver)
      (t.call.whole t.resolver net t.network r) = true
  · rw [if_pos hfits]
    cases hcall : t.call with
    | resolve raw credential => exact ⟨_, .resolution _⟩
    | imageExists r' credential => exact absurd hcall (hasks r' credential)
    | workingDirectory r' credential => exact ⟨_, .directory _⟩
  · rw [if_neg hfits]
    exact ⟨_, .resolution _⟩

/-- Whatever a resolver remembers and whatever the network answers: a directory other than `/`, in
    the reply to any call or found without a resolver, is the one in a blob that was served last,
    under the digest that stands in the manifest, and has the hash of the digest.  A blob with
    another hash leads to `/`, and a manifest without a digest leads to `/` and to no request.  Once
    there is a manifest, a call that asks for a directory is told one. -/
theorem directory_integrity (net : Network σ) :
    (∀ (t : Turn σ) (directory : String), (t.outcome net).result.Tells directory →
      ∃ r, t.call.reference? = some r ∧
        Justified t.resolver.client r (t.looked net r).ending
          (Event.within (t.call.limit t.resolver) (t.looked net r).events) (t.events net)
          directory) ∧
    (∀ (t : Turn σ) (r : Reference) (m : Manifest), t.call.reference? = some r →
      (t.looked net r).ending = .ok m → (∀ r' credential, t.call ≠ .imageExists r' credential) →
      ∃ directory, (t.outcome net).result.Tells directory) ∧
    ∀ (c : Client) (r : Reference) (credential : Option Credential) (network : σ),
      Justified c r ((c.freshManifest r credential).run.transcript net network).ending
        ((c.freshManifest r credential).run.transcript net network).events
        ((c.workingDirectory r credential).transcript net network).events
        ((c.workingDirectory r credential).transcript net network).ending := by
  refine ⟨?_, ?_, ?_⟩
  · intro t directory h
    obtain ⟨r, hr⟩ := reference?_of_tells h
    exact ⟨r, hr, outcome_justified hr h⟩
  · intro t r m hr hending hasks
    exact exists_tells hr hending hasks
  · intro c r credential network
    exact workingDirectory_justified c r credential net network

/-- A registry with one image, whose manifest names the digest of the document that tells `/app`,
    and with the given blob under that digest. -/
def furnished (blob : String) : Network Unit where
  answer q _ :=
    let digest := "sha256:310a58a2b62ae774c6f9c0b6b09b7f301792328f1bb1c54ddfa12116a5ec27e2"
    let manifest := "\x7b\"config\":\x7b\"digest\":\"" ++ digest ++ "\"\x7d\x7d"
    let body := if q.accept = "application/json" then blob else manifest
    (⟨.ok ⟨200, [], ⟨.ok (Text.octets body), 1⟩⟩, 1⟩, ())

theorem directory_integrity_furnished :
    let r : Reference := ⟨"registry.test", "app", .tag "1"⟩
    let t : Turn Unit := ⟨.workingDirectory r none, .new .default none, ()⟩
    let net := furnished "\x7b\"config\":\x7b\"WorkingDir\":\"/app\"\x7d\x7d"
    let tampered := furnished "\x7b\"config\":\x7b\"WorkingDir\":\"/etc\"\x7d\x7d"
    (t.outcome net).result.Tells "/app" ∧
      (∃ m, (t.looked net r).ending = .ok m ∧
        Backed t.resolver.client r m (t.events net) "/app") ∧
      (t.outcome tampered).result.Tells "/" := by
  intro r t net tampered
  have hdirectory : (t.resolver.workingDirectory net () r none).result = "/app" := by
    decide +kernel
  have hdefault : (t.resolver.workingDirectory tampered () r none).result = "/" := by
    decide +kernel
  have htells : (t.outcome net).result.Tells "/app" := hdirectory ▸ .directory _
  obtain ⟨r', hr', hjustified⟩ := (directory_integrity net).1 t "/app" htells
  obtain rfl := Option.some.inj hr'
  exact ⟨htells, hjustified.backed (by decide), hdefault ▸ .directory _⟩

end Turn

end ImageLookup
