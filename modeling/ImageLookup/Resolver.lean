import ImageLookup.Reference.Readings
import ImageLookup.Settings.Config
import ImageLookup.WorkingDirectory

/-! # Resolving references

A resolver answers three questions about an image: whether its registry has it, what its
working directory is, and both at once.  It remembers the latest manifest, so that questions
about one image cost one lookup.

A registry that does not answer, has no manifest or wants authentication is no failure, only
an availability; a credential that is refused is one.  `resolve` may be given a deadline, and an
image that is not resolved by then counts as unreachable.
-/

namespace ImageLookup

open Http (Network)

inductive Availability where
  /-- The registry has the image. -/
  | present
  /-- The registry has no such image, or none for everyone. -/
  | absent
  /-- The registry could not be reached in time. -/
  | unreachable
deriving DecidableEq, Repr

def Availability.text : Availability → String
  | .present => "present"
  | .absent => "absent"
  | .unreachable => "unreachable"

structure Resolution where
  reference : Reference
  availability : Availability
  workingDirectory : String
deriving DecidableEq

namespace Resolution

def unavailable (r : Reference) (a : Availability) : Resolution := ⟨r, a, defaultDirectory⟩

def imageExists (r : Resolution) : Bool := r.availability = .present

end Resolution

/-- What a failed lookup says about an image: a refused credential remains a failure. -/
def degrade (credential : Option Credential) : Failure → Except Failure Availability
  | .registryUnreachable .. => .ok .unreachable
  | .authenticationRejected message status =>
    if credential.isSome then .error (.authenticationRejected message status) else .ok .absent
  | _ => .ok .absent

/-! ### Conversations -/

namespace Client

/-- Finds a manifest, in the memo or on the registry; one from the registry is remembered. -/
def lookup (c : Client) (memo : Memo) (r : Reference) (credential : Option Credential) :
    Attempt Manifest :=
  match memo.get? (.of r credential) with
  | some m => return m
  | none => do
    let token ← c.authenticate r credential
    let m ← c.getManifest r token
    Attempt.remember (.of r credential) m
    return m

def resolveReference (c : Client) (memo : Memo) (r : Reference) (credential : Option Credential) :
    Conversation (Except Failure Resolution) := do
  match ← (c.lookup memo r credential).run with
  | .ok m =>
    let directory ← c.workingDirectoryFor r m credential
    return .ok ⟨r, .present, directory⟩
  | .error f => return (degrade credential f).map (Resolution.unavailable r)

def existsOnRegistry (c : Client) (memo : Memo) (r : Reference) (credential : Option Credential) :
    Conversation (Except Failure Bool) := do
  match ← (c.lookup memo r credential).run with
  | .ok _ => return .ok true
  | .error f => return (degrade credential f).map fun _ => false

def rememberedDirectory (c : Client) (memo : Memo) (r : Reference)
    (credential : Option Credential) : Conversation String := do
  match ← (c.lookup memo r credential).run with
  | .ok m => c.workingDirectoryFor r m credential
  | .error _ => return defaultDirectory

end Client

/-! ### Resolvers -/

structure Resolver where
  client : Client
  /-- The limit of `resolve` in milliseconds. -/
  deadline : Option Nat
  memo : Memo

namespace Resolver

def new (client : Client) (deadline : Option Nat) : Resolver := ⟨client, deadline, .empty⟩

/-- The resolver for given settings and a deadline, if there is a client for the settings. -/
def build (s : ClientSettings) (deadline : Option Nat)
    (isWeb : String → Bool := Http.Url.isWeb) : Except Failure Resolver := do
  return new (← Client.ofSettings s isWeb) deadline

def ofConfig (c : Config) (isWeb : String → Bool := Http.Url.isWeb) : Except Failure Resolver :=
  build c.clientSettings c.deadline isWeb

structure Outcome (σ α : Type) where
  result : α
  resolver : Resolver
  /-- The requests that were sent, in order. -/
  sent : List Http.Request
  /-- The state of the network afterwards. -/
  network : σ

/-- Carries out a conversation within a limit; `late` stands for the result when that is
    exceeded. -/
def converse {σ α : Type} (rv : Resolver) (net : Network σ) (network : σ) (limit : Option Nat)
    (late : α) (c : Conversation α) : Outcome σ α :=
  let (result, s) := c.run net (.start network rv.memo limit)
  ⟨result.getD late, ⟨rv.client, rv.deadline, s.memo⟩, s.sent, s.network⟩

def resolve {σ : Type} (rv : Resolver) (net : Network σ) (network : σ) (raw : String)
    (credential : Option Credential) : Outcome σ (Except Failure Resolution) :=
  match Reference.parse raw with
  | .error f => ⟨.error f, rv, [], network⟩
  | .ok r =>
    rv.converse net network rv.deadline (.ok (.unavailable r .unreachable))
      (rv.client.resolveReference rv.memo r credential)

def imageExists {σ : Type} (rv : Resolver) (net : Network σ) (network : σ) (r : Reference)
    (credential : Option Credential) : Outcome σ (Except Failure Bool) :=
  rv.converse net network none (.ok false) (rv.client.existsOnRegistry rv.memo r credential)

def workingDirectory {σ : Type} (rv : Resolver) (net : Network σ) (network : σ) (r : Reference)
    (credential : Option Credential) : Outcome σ String :=
  rv.converse net network none defaultDirectory
    (rv.client.rememberedDirectory rv.memo r credential)

end Resolver

end ImageLookup
