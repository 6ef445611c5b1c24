import ImageLookup.Proofs.Conversation.Transcript
import ImageLookup.Resolver

/-! # Stages of a resolution

A resolution authenticates, negotiates a manifest, remembers it, authenticates once more and
fetches the configuration document.  For each of these stages there is a relation that says which
events it may leave and how it may end, one constructor for each of its branches.  The relations
follow the answers and not the program; a later proof takes cases on them and opens no stage.
-/

namespace ImageLookup

open Http (Request Response Fault)

/-! ### Answers to probes -/

namespace Challenge

/-- The first challenge among header values that asks for a token. -/
def first? (headers : List String) : Option Challenge :=
  ((headers.map parse).find? asksForToken).bind Except.toOption

theorem first?_mem {headers : List String} {ch : Challenge} (h : first? headers = some ch) :
    ch.isBearer = true ∧ ∃ header ∈ headers, parse header = .ok ch := by
  obtain ⟨read, hread, hok⟩ := Option.bind_eq_some_iff.1 h
  obtain ⟨header, hmem, rfl⟩ := List.mem_map.1 (List.mem_of_find?_eq_some hread)
  have hasks := List.find?_some hread
  cases hparse : parse header with
  | error d => simp [hparse, Except.toOption] at hok
  | ok read =>
    rw [hparse] at hok hasks
    obtain rfl := Option.some.inj hok
    exact ⟨hasks, header, hmem, hparse⟩

theorem refusal_eq (last : Except Defect Challenge) :
    ∃ message, refusal last = unauthorized message := by
  cases last with
  | error d => exact ⟨d.message, rfl⟩
  | ok ch => exact ⟨_, rfl⟩

/-- Only the first challenge that asks for a token is looked at; its realm decides. -/
theorem select_cases (isWeb : String → Bool) (headers : List String) :
    (∃ ch, first? headers = some ch ∧ isWeb ch.realm = true ∧ select isWeb headers = .ok ch) ∨
    ((∀ ch, first? headers = some ch → isWeb ch.realm = false) ∧
      ∃ message, select isWeb headers = .error (unauthorized message)) := by
  simp only [select, first?]
  cases hfind : (headers.map parse).find? asksForToken with
  | none =>
    refine .inr ⟨by simp, ?_⟩
    cases hlast : (headers.map parse).getLast? with
    | none => exact ⟨_, rfl⟩
    | some last => exact (refusal_eq last).imp fun _ h => congrArg Except.error h
  | some read =>
    cases read with
    | error d => cases List.find?_some hfind
    | ok ch =>
      by_cases hweb : isWeb ch.realm = true
      · exact .inl ⟨ch, rfl, hweb, if_pos hweb⟩
      · refine .inr ⟨?_, _, if_neg hweb⟩
        rintro _ ⟨⟩
        exact Bool.eq_false_iff.2 hweb

end Challenge

namespace Probe

/-- Whether an answer to a probe poses a challenge that can be exchanged for a token. -/
def Poses (isWeb : String → Bool) (answer : Response) (ch : Challenge) : Prop :=
  answer.status = 401 ∧ Challenge.first? (answer.texts "www-authenticate") = some ch ∧
    isWeb ch.realm = true

/-- Whether an answer to a probe asks for what cannot be given. -/
def Refuses (isWeb : String → Bool) (answer : Response) : Prop :=
  answer.status = 401 ∧ ∀ ch, ¬Poses isWeb answer ch

/-- A probe ends in one of three ways, of which only a challenge leads to a token request. -/
theorem ofResponse_cases (isWeb : String → Bool) (url : String) (answer : Response) :
    (answer.status ≠ 401 ∧ ofResponse isWeb url answer = .ok .noAuthRequired) ∨
    (∃ ch, Poses isWeb answer ch ∧ ofResponse isWeb url answer = .ok (.challenged ch)) ∨
    (Refuses isWeb answer ∧
      ∃ message, ofResponse isWeb url answer = .error (unauthorized message)) := by
  by_cases hstatus : answer.status = 401
  · refine .inr ?_
    cases hheaders : answer.texts "www-authenticate" with
    | nil =>
      have herror : ofResponse isWeb url answer =
          .error (unauthorized (url ++ " answered 401 without a WWW-Authenticate header")) := by
        simp [ofResponse, hstatus, hheaders]
      refine .inr ⟨⟨hstatus, ?_⟩, _, herror⟩
      intro ch hposes
      rw [Poses, hheaders] at hposes
      cases hposes.2.1
    | cons header headers =>
      have hselect : ofResponse isWeb url answer =
          (Challenge.select isWeb (header :: headers)).map .challenged := by
        simp [ofResponse, hstatus, hheaders]
      rcases Challenge.select_cases isWeb (header :: headers) with
        ⟨ch, hfirst, hweb, hok⟩ | ⟨hweb, message, herror⟩
      · refine .inl ⟨ch, ⟨hstatus, by rw [hheaders, hfirst], hweb⟩, ?_⟩
        rw [hselect, hok]
        rfl
      · refine .inr ⟨⟨hstatus, ?_⟩, message, ?_⟩
        · rintro ch ⟨-, hfirst, htrue⟩
          rw [hheaders] at hfirst
          rw [hweb ch hfirst] at htrue
          cases htrue
        · rw [hselect, herror]
          rfl
  · exact .inl ⟨hstatus, if_pos hstatus⟩

end Probe

namespace Client

variable {c : Client} {r : Reference} {credential : Option Credential} {events : List Event}

/-! ### Authentication -/

inductive Exchanges (c : Client) (ch : Challenge) (credential : Option Credential) :
    List Event → Except Failure (Option BearerToken) → Prop
  | fault {f elapsed} :
    Exchanges c ch credential [.asked (tokenRequest ch credential) ⟨.error f, elapsed⟩]
      (.error (c.failure ch.realm f))
  | forbidden {answer elapsed} : answer.status = 403 →
    Exchanges c ch credential [.asked (tokenRequest ch credential) ⟨.ok answer, elapsed⟩]
      (.error (.authenticationRejected ("Token request to " ++ ch.realm ++ " was refused")
        (some 403)))
  | withheld {answer elapsed} : answer.status ≠ 200 → answer.status ≠ 403 →
    Exchanges c ch credential [.asked (tokenRequest ch credential) ⟨.ok answer, elapsed⟩]
      (.ok none)
  | unread {answer elapsed f} : answer.status = 200 → answer.body.outcome = .error f →
    Exchanges c ch credential
      [.asked (tokenRequest ch credential) ⟨.ok answer, elapsed⟩, .heard answer.body]
      (.error (c.failure ch.realm f))
  | read {answer elapsed body} : answer.status = 200 → answer.body.outcome = .ok body →
    Exchanges c ch credential
      [.asked (tokenRequest ch credential) ⟨.ok answer, elapsed⟩, .heard answer.body]
      (.ok (TokenFields.ofBody body).bearer?)

/-- What the stages of a lookup can leave behind, read off their definitions.  Each of the relations
    says all that can happen, and in which order. -/
theorem exchange_yields {ch : Challenge} {result : Except Failure (Option BearerToken)}
    (h : (c.exchange ch credential).run.Yields events result) :
    Exchanges c ch credential events result := by
  rw [exchange] at h
  obtain ⟨f, elapsed, rfl, rfl⟩ | ⟨answer, elapsed, f, hok, hbody, rfl, rfl⟩ |
    ⟨answer, elapsed, body, rest, hok, hbody, rfl, rfl, rfl⟩ |
    ⟨answer, elapsed, rest, hok, rfl, hrest⟩ := Attempt.yields_request h
  · exact .fault
  · exact .unread hok hbody
  · exact .read hok hbody
  by_cases hforbidden : answer.status = 403
  · rw [if_pos hforbidden] at hrest
    obtain ⟨rfl, rfl⟩ := hrest
    exact .forbidden hforbidden
  · rw [if_neg hforbidden] at hrest
    obtain ⟨rfl, rfl⟩ := hrest
    exact .withheld hok hforbidden

inductive Authenticates (c : Client) (r : Reference) (credential : Option Credential) :
    List Event → Except Failure (Option BearerToken) → Prop
  | fault {f elapsed} :
    Authenticates c r credential [.asked (.get (c.manifestUrl r)) ⟨.error f, elapsed⟩]
      (.error (c.failure (c.manifestUrl r) f))
  | refused {answer elapsed message} : Probe.Refuses c.isWeb answer →
    Authenticates c r credential [.asked (.get (c.manifestUrl r)) ⟨.ok answer, elapsed⟩]
      (.error (unauthorized message))
  | unneeded {answer elapsed} : answer.status ≠ 401 →
    Authenticates c r credential [.asked (.get (c.manifestUrl r)) ⟨.ok answer, elapsed⟩]
      (.ok none)
  | challenged {answer elapsed ch events result} : Probe.Poses c.isWeb answer ch →
    Exchanges c ch credential events result →
    Authenticates c r credential
      (.asked (.get (c.manifestUrl r)) ⟨.ok answer, elapsed⟩ :: events) result

theorem authenticate_yields {result : Except Failure (Option BearerToken)}
    (h : (c.authenticate r credential).run.Yields events result) :
    Authenticates c r credential events result := by
  rw [authenticate, probe, bind_assoc, Attempt.yields_send_bind] at h
  obtain ⟨f, elapsed, rfl, rfl⟩ | ⟨answer, elapsed, rest, rfl, hrest⟩ := h
  · exact .fault
  rcases Probe.ofResponse_cases c.isWeb (c.manifestUrl r) answer with
    ⟨hstatus, hprobe⟩ | ⟨ch, hposes, hprobe⟩ | ⟨hrefuses, message, hprobe⟩
  · rw [hprobe] at hrest
    obtain ⟨rfl, rfl⟩ := hrest
    exact .unneeded hstatus
  · rw [hprobe] at hrest
    exact .challenged hposes (exchange_yields hrest)
  · rw [hprobe] at hrest
    obtain ⟨rfl, rfl⟩ := hrest
    exact .refused hrefuses

/-! ### Manifests -/

inductive Negotiates (c : Client) (r : Reference) (token : Option BearerToken) :
    List String → List Event → Except Failure Manifest → Prop
  | exhausted : Negotiates c r token [] [] (.error (.imageNotFound r.text))
  | fault {mediaType mediaTypes f elapsed} :
    Negotiates c r token (mediaType :: mediaTypes)
      [.asked (contentRequest (c.manifestUrl r) mediaType token) ⟨.error f, elapsed⟩]
      (.error (c.failure (c.manifestUrl r) f))
  | unread {mediaType mediaTypes answer elapsed f} :
    answer.status = 200 → answer.body.outcome = .error f →
    Negotiates c r token (mediaType :: mediaTypes)
      [.asked (contentRequest (c.manifestUrl r) mediaType token) ⟨.ok answer, elapsed⟩,
        .heard answer.body]
      (.error (c.failure (c.manifestUrl r) f))
  | delivered {mediaType mediaTypes answer elapsed body} :
    answer.status = 200 → answer.body.outcome = .ok body →
    Negotiates c r token (mediaType :: mediaTypes)
      [.asked (contentRequest (c.manifestUrl r) mediaType token) ⟨.ok answer, elapsed⟩,
        .heard answer.body]
      (.ok (manifestOf answer body))
  | declined {mediaType mediaTypes answer elapsed events result} :
    answer.status ≠ 200 → Negotiates c r token mediaTypes events result →
    Negotiates c r token (mediaType :: mediaTypes)
      (.asked (contentRequest (c.manifestUrl r) mediaType token) ⟨.ok answer, elapsed⟩ :: events)
      result

theorem negotiate_yields {token : Option BearerToken} {mediaTypes : List String}
    {result : Except Failure Manifest}
    (h : (c.negotiate r token mediaTypes).run.Yields events result) :
    Negotiates c r token mediaTypes events result := by
  induction mediaTypes generalizing events with
  | nil =>
    obtain ⟨rfl, rfl⟩ := h
    exact .exhausted
  | cons mediaType mediaTypes ih =>
    rw [negotiate] at h
    obtain ⟨f, elapsed, rfl, rfl⟩ | ⟨answer, elapsed, f, hok, hbody, rfl, rfl⟩ |
      ⟨answer, elapsed, body, rest, hok, hbody, rfl, rfl, rfl⟩ |
      ⟨answer, elapsed, rest, hok, rfl, hrest⟩ := Attempt.yields_request h
    · exact .fault
    · exact .unread hok hbody
    · exact .delivered hok hbody
    · exact .declined hok (ih hrest)

inductive LooksUp (c : Client) (memo : Memo) (r : Reference) (credential : Option Credential) :
    List Event → Except Failure Manifest → Prop
  | remembered {m} : memo.get? (.of r credential) = some m → LooksUp c memo r credential [] (.ok m)
  | unauthenticated {events f} : memo.get? (.of r credential) = none →
    Authenticates c r credential events (.error f) → LooksUp c memo r credential events (.error f)
  | undelivered {first token second f} : memo.get? (.of r credential) = none →
    Authenticates c r credential first (.ok token) →
    Negotiates c r token negotiationOrder second (.error f) →
    LooksUp c memo r credential (first ++ second) (.error f)
  | delivered {first token second m} : memo.get? (.of r credential) = none →
    Authenticates c r credential first (.ok token) →
    Negotiates c r token negotiationOrder second (.ok m) →
    LooksUp c memo r credential (first ++ second ++ [.kept (.of r credential) m]) (.ok m)

/-- A lookup finds the manifest in the memo, or authenticates and negotiates. -/
theorem lookup_yields {memo : Memo} {result : Except Failure Manifest}
    (h : (c.lookup memo r credential).run.Yields events result) :
    LooksUp c memo r credential events result := by
  rw [lookup] at h
  cases hmemo : memo.get? (.of r credential) with
  | some m =>
    rw [hmemo] at h
    obtain ⟨rfl, rfl⟩ := h
    exact .remembered hmemo
  | none =>
    rw [hmemo] at h
    obtain ⟨f, hfirst, rfl⟩ | ⟨first, token, rest, hfirst, hrest, rfl⟩ := Attempt.yields_bind.1 h
    · exact .unauthenticated hmemo (authenticate_yields hfirst)
    rw [Attempt.yields_bind] at hrest
    obtain ⟨f, hsecond, rfl⟩ | ⟨second, m, rest, hsecond, hrest, rfl⟩ := hrest
    · exact .undelivered hmemo (authenticate_yields hfirst) (negotiate_yields hsecond)
    · obtain ⟨rest, rfl, rfl, rfl⟩ := hrest
      rw [← List.append_assoc]
      exact .delivered hmemo (authenticate_yields hfirst) (negotiate_yields hsecond)

/-! ### Configuration documents -/

inductive Fetches (c : Client) (r : Reference) (d : Digest) (credential : Option Credential) :
    List Event → Except Failure (Option ImageConfig) → Prop
  | unauthenticated {events f} : Authenticates c r credential events (.error f) →
    Fetches c r d credential events (.error f)
  | fault {first token f elapsed} : Authenticates c r credential first (.ok token) →
    Fetches c r d credential
      (first ++ [.asked (contentRequest (c.blobUrl r d) "application/json" token)
        ⟨.error f, elapsed⟩])
      (.error (c.failure (c.blobUrl r d) f))
  | declined {first token answer elapsed} : Authenticates c r credential first (.ok token) →
    answer.status ≠ 200 →
    Fetches c r d credential
      (first ++ [.asked (contentRequest (c.blobUrl r d) "application/json" token)
        ⟨.ok answer, elapsed⟩])
      (.ok none)
  | unread {first token answer elapsed f} : Authenticates c r credential first (.ok token) →
    answer.status = 200 → answer.body.outcome = .error f →
    Fetches c r d credential
      (first ++ [.asked (contentRequest (c.blobUrl r d) "application/json" token)
        ⟨.ok answer, elapsed⟩, .heard answer.body])
      (.error (c.failure (c.blobUrl r d) f))
  | read {first token answer elapsed body} : Authenticates c r credential first (.ok token) →
    answer.status = 200 → answer.body.outcome = .ok body →
    Fetches c r d credential
      (first ++ [.asked (contentRequest (c.blobUrl r d) "application/json" token)
        ⟨.ok answer, elapsed⟩, .heard answer.body])
      (.ok (if d.verify body = some false then none else some (ImageConfig.ofBody body)))

theorem fetchConfig_yields {d : Digest} {result : Except Failure (Option ImageConfig)}
    (h : (c.fetchConfig r d credential).run.Yields events result) :
    Fetches c r d credential events result := by
  rw [fetchConfig, Attempt.yields_bind] at h
  obtain ⟨f, hfirst, rfl⟩ | ⟨first, token, rest, hfirst, hrest, rfl⟩ := h
  · exact .unauthenticated (authenticate_yields hfirst)
  have hfirst := authenticate_yields hfirst
  obtain ⟨f, elapsed, rfl, rfl⟩ | ⟨answer, elapsed, f, hok, hbody, rfl, rfl⟩ |
    ⟨answer, elapsed, body, rest, hok, hbody, rfl, rfl, rfl⟩ |
    ⟨answer, elapsed, rest, hok, rfl, rfl, rfl⟩ := Attempt.yields_request hrest
  · exact .fault hfirst
  · exact .unread hfirst hok hbody
  · exact .read hfirst hok hbody
  · exact .declined hfirst hok

inductive Locates (c : Client) (r : Reference) (m : Manifest) (credential : Option Credential) :
    List Event → String → Prop
  | unnamed : m.configDigest? = none → Locates c r m credential [] defaultDirectory
  | named {d events result} : m.configDigest? = some d → Fetches c r d credential events result →
    Locates c r m credential events (directoryOf result)

theorem workingDirectoryFor_yields {m : Manifest} {directory : String}
    (h : (c.workingDirectoryFor r m credential).Yields events directory) :
    Locates c r m credential events directory := by
  rw [workingDirectoryFor] at h
  cases hdigest : m.configDigest? with
  | none =>
    rw [hdigest] at h
    obtain ⟨rfl, rfl⟩ := h
    exact .unnamed hdigest
  | some d =>
    rw [hdigest] at h
    obtain ⟨first, result, second, hfirst, ⟨rfl, rfl⟩, rfl⟩ := Conversation.yields_bind.1 h
    rw [List.append_nil]
    exact .named hdigest (fetchConfig_yields hfirst)

/-! ### Questions -/

/-- A resolution is a lookup and, after one that succeeded, the search for the directory. -/
theorem resolveReference_yields {memo : Memo} {result : Except Failure Resolution}
    (h : (c.resolveReference memo r credential).Yields events result) :
    (∃ f, LooksUp c memo r credential events (.error f) ∧
      result = (degrade credential f).map (Resolution.unavailable r)) ∨
    ∃ first m second directory, LooksUp c memo r credential first (.ok m) ∧
      Locates c r m credential second directory ∧ events = first ++ second ∧
      result = .ok ⟨r, .present, directory⟩ := by
  obtain ⟨first, looked, rest, hfirst, hrest, rfl⟩ := Conversation.yields_bind.1 h
  cases looked with
  | error f =>
    obtain ⟨rfl, rfl⟩ := hrest
    rw [List.append_nil]
    exact .inl ⟨f, lookup_yields hfirst, rfl⟩
  | ok m =>
    obtain ⟨second, directory, _, hsecond, ⟨rfl, rfl⟩, rfl⟩ := Conversation.yields_bind.1 hrest
    rw [List.append_nil]
    exact .inr ⟨first, m, second, directory, lookup_yields hfirst,
      workingDirectoryFor_yields hsecond, rfl, rfl⟩

theorem existsOnRegistry_yields {memo : Memo} {result : Except Failure Bool}
    (h : (c.existsOnRegistry memo r credential).Yields events result) :
    (∃ f, LooksUp c memo r credential events (.error f) ∧
      result = (degrade credential f).map fun _ => false) ∨
    ∃ m, LooksUp c memo r credential events (.ok m) ∧ result = .ok true := by
  obtain ⟨first, looked, rest, hfirst, hrest, rfl⟩ := Conversation.yields_bind.1 h
  cases looked with
  | error f =>
    obtain ⟨rfl, rfl⟩ := hrest
    rw [List.append_nil]
    exact .inl ⟨f, lookup_yields hfirst, rfl⟩
  | ok m =>
    obtain ⟨rfl, rfl⟩ := hrest
    rw [List.append_nil]
    exact .inr ⟨m, lookup_yields hfirst, rfl⟩

theorem rememberedDirectory_yields {memo : Memo} {directory : String}
    (h : (c.rememberedDirectory memo r credential).Yields events directory) :
    (∃ f, LooksUp c memo r credential events (.error f) ∧ directory = defaultDirectory) ∨
    ∃ first m second, LooksUp c memo r credential first (.ok m) ∧
      Locates c r m credential second directory ∧ events = first ++ second := by
  obtain ⟨first, looked, rest, hfirst, hrest, rfl⟩ := Conversation.yields_bind.1 h
  cases looked with
  | error f =>
    obtain ⟨rfl, rfl⟩ := hrest
    rw [List.append_nil]
    exact .inl ⟨f, lookup_yields hfirst, rfl⟩
  | ok m =>
    exact .inr ⟨first, m, rest, lookup_yields hfirst, workingDirectoryFor_yields hrest, rfl⟩

end Client

end ImageLookup
