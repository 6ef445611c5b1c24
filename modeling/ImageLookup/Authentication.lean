import ImageLookup.Challenge
import ImageLookup.Conversation
import ImageLookup.Json.Value

/-! # Authentication

A registry that asks for a token answers a plain request with status 401 and a challenge.  A
probe finds out whether it does; an exchange then asks the realm of the challenge for a token,
with the credential of the caller if there is one.  A token service may answer without a token:
the caller then goes on without.
-/

namespace ImageLookup

open Http (Request Response)

/-! ### Answers of token services -/

structure TokenFields where
  token : Option String
  accessToken : Option String
deriving DecidableEq, Repr

namespace TokenFields

/-- A field: a text or `null`. -/
def field? : Json.Tree → Option (Option String)
  | .null => some none
  | .text pieces => (Json.textOf? pieces).map some
  | _ => none

/-- Takes one member into account.  Of each field there may be one; other members are not
    looked into. -/
def addMember? (seen : Option (Option String) × Option (Option String))
    (member : List Json.Piece × Json.Tree) :
    Option (Option (Option String) × Option (Option String)) := do
  let key ← Json.textOf? member.1
  if key = "token" then
    if seen.1.isSome then none else return (some (← field? member.2), seen.2)
  else if key = "access_token" then
    if seen.2.isSome then none else return (seen.1, some (← field? member.2))
  else return seen

/-- The fields of a document: those of an object, or up to two items of an array. -/
def ofTree? : Json.Tree → Option TokenFields
  | .object members => do
    let (token, accessToken) ← members.foldlM addMember? (none, none)
    return ⟨token.join, accessToken.join⟩
  | .array [] => some ⟨none, none⟩
  | .array [token] => do return ⟨← field? token, none⟩
  | .array [token, accessToken] => do return ⟨← field? token, ← field? accessToken⟩
  | _ => none

/-- The fields of a body; there are none if it is not as it should be. -/
def ofBody (body : Octets) : TokenFields :=
  ((Json.Tree.read? body).bind ofTree?).getD ⟨none, none⟩

def bearer? (f : TokenFields) : Option BearerToken :=
  ((f.token.filter (· != "")).or (f.accessToken.filter (· != ""))).map BearerToken.mk

end TokenFields

/-! ### Probes -/

/-- What a probe finds. -/
inductive Probe where
  | challenged (c : Challenge)
  | noAuthRequired
deriving DecidableEq, Repr

def unauthorized (message : String) : Failure := .authenticationRejected message (some 401)

namespace Challenge

/-- The failure that a header amounts to when no header asks for a token. -/
def refusal : Except Defect Challenge → Failure
  | .ok c => unauthorized ("Unsupported authentication scheme '" ++ c.scheme ++ "'")
  | .error d => d.failure

/-- The first challenge among header values that asks for a token.  Its realm must be a web
    address; if no header asks for a token, the last one says why. -/
def select (isWeb : String → Bool) (headers : List String) : Except Failure Challenge :=
  let read := headers.map parse
  match read.find? asksForToken with
  | some (.ok c) =>
    if isWeb c.realm then .ok c
    else .error (unauthorized ("Challenge realm '" ++ c.realm ++ "' is not an HTTP URL"))
  | _ =>
    match read.getLast? with
    | some last => .error (refusal last)
    | none => .error (unauthorized "No usable authentication challenge")

end Challenge

/-- What an answer to a probe of `url` means. -/
def Probe.ofResponse (isWeb : String → Bool) (url : String) (r : Response) : Except Failure Probe :=
  if r.status ≠ 401 then .ok .noAuthRequired
  else
    match r.texts "www-authenticate" with
    | [] => .error (unauthorized (url ++ " answered 401 without a WWW-Authenticate header"))
    | headers => (Challenge.select isWeb headers).map .challenged

/-! ### Tokens -/

namespace Client

/-- Asks for a manifest without authentication, to see whether the registry wants it. -/
def probe (c : Client) (r : Reference) : Attempt Probe := do
  let url := c.manifestUrl r
  let response ← Attempt.send c (.get url)
  ExceptT.mk (.done (Probe.ofResponse c.isWeb url response))

def tokenRequest (challenge : Challenge) (credential : Option Credential) : Request where
  url := challenge.realm
  query := (challenge.service.map fun s => ("service", s)).toList
    ++ (challenge.scope.map fun s => ("scope", s)).toList
  accept := "application/json"
  authorization := credential.map Credential.authorization

def exchange (c : Client) (challenge : Challenge) (credential : Option Credential) :
    Attempt (Option BearerToken) := do
  let response ← Attempt.send c (tokenRequest challenge credential)
  if response.status = 200 then
    let body ← Attempt.body c challenge.realm response
    return (TokenFields.ofBody body).bearer?
  else if response.status = 403 then
    throw (.authenticationRejected ("Token request to " ++ challenge.realm ++ " was refused")
      (some 403))
  else return none

def authenticate (c : Client) (r : Reference) (credential : Option Credential) :
    Attempt (Option BearerToken) := do
  match ← c.probe r with
  | .noAuthRequired => return none
  | .challenged challenge => c.exchange challenge credential

end Client

end ImageLookup
