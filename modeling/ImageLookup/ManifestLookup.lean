import ImageLookup.Authentication

/-! # Manifest lookups

A manifest is asked for in the Docker media type first.  Any status but 200 is taken to mean
that the manifest is not there in that type, and the OCI type is asked for next.  Each request
names a single type, because some registries mishandle lists.
-/

namespace ImageLookup

open Http (Request Response)

def negotiationOrder : List String := [dockerManifestType, ociManifestType]

namespace Client

def contentRequest (url accept : String) (token : Option BearerToken) : Request where
  url := url
  query := []
  accept := accept
  authorization := token.map BearerToken.authorization

def manifestOf (response : Response) (body : Octets) : Manifest :=
  { Manifest.ofBody body (response.text? "content-type") with
    contentDigest := response.text? "docker-content-digest" }

/-- Asks for a manifest in one media type after the other. -/
def negotiate (c : Client) (r : Reference) (token : Option BearerToken) :
    List String → Attempt Manifest
  | [] => throw (.imageNotFound r.text)
  | mediaType :: mediaTypes => do
    let url := c.manifestUrl r
    let response ← Attempt.send c (contentRequest url mediaType token)
    if response.status = 200 then
      let body ← Attempt.body c url response
      return manifestOf response body
    else c.negotiate r token mediaTypes

def getManifest (c : Client) (r : Reference) (token : Option BearerToken) : Attempt Manifest :=
  c.negotiate r token negotiationOrder

/-- Whether the registry has a manifest.  Only a registry that answers can say that it has
    none. -/
def imageExists (c : Client) (r : Reference) (token : Option BearerToken) : Attempt Bool :=
  ExceptT.mk do
    match ← (c.getManifest r token).run with
    | .ok _ => return .ok true
    | .error (.imageNotFound _) => return .ok false
    | .error f => return .error f

end Client

end ImageLookup
