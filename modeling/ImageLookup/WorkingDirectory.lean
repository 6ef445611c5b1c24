import ImageLookup.ManifestLookup

/-! # Working directories

The working directory of an image stands in its configuration document, a blob named by the
manifest.  It is advice only: whenever the document cannot be had, is not what its digest says,
or does not say, the directory is `/`.
-/

namespace ImageLookup

namespace Client

/-- Fetches the configuration document that a digest names.  A token serves one purpose, so the
    document gets one of its own. -/
def fetchConfig (c : Client) (r : Reference) (d : Digest) (credential : Option Credential) :
    Attempt (Option ImageConfig) := do
  let token ← c.authenticate r credential
  let url := c.blobUrl r d
  let response ← Attempt.send c (contentRequest url "application/json" token)
  if response.status = 200 then
    let body ← Attempt.body c url response
    return if d.verify body = some false then none else some (ImageConfig.ofBody body)
  else return none

/-- The directory that an attempt to fetch the configuration document ends with. -/
def directoryOf : Except Failure (Option ImageConfig) → String
  | .ok (some config) => config.workingDirectory
  | .ok none => defaultDirectory
  | .error _ => defaultDirectory

def workingDirectoryFor (c : Client) (r : Reference) (m : Manifest)
    (credential : Option Credential) : Conversation String :=
  match m.configDigest? with
  | none => return defaultDirectory
  | some d => do return directoryOf (← (c.fetchConfig r d credential).run)

/-- The working directory of an image, with a lookup of its manifest that nothing is remembered
    of. -/
def workingDirectory (c : Client) (r : Reference) (credential : Option Credential) :
    Conversation String := do
  let manifest : Attempt Manifest := do
    let token ← c.authenticate r credential
    c.getManifest r token
  match ← manifest.run with
  | .ok m => c.workingDirectoryFor r m credential
  | .error _ => return defaultDirectory

end Client

end ImageLookup
