import ImageLookup.Failure
import ImageLookup.Http.Message

/-! # Clients

A client knows how registries are addressed: over which scheme a host is reached, and the
addresses of manifests and blobs.  Which addresses of others it can use is up to the network that it
was made for.  It exists only for settings whose user agent can be sent.
-/

namespace ImageLookup

def version : String := "0.1.0"

structure ClientSettings where
  /-- How long a request may take. -/
  timeoutSeconds : Nat
  maxIdlePerHost : Nat
  userAgent : String
  /-- Hosts that are reached over `http` instead of `https`. -/
  plainHttpHosts : List String
deriving DecidableEq, Repr

namespace ClientSettings

def defaultUserAgent : String := "dockyard/" ++ version

def default : ClientSettings := ⟨30, 10, defaultUserAgent, []⟩

/-- Whether a host is reached over `http`; hosts are compared letter by letter. -/
def isPlainHttp (s : ClientSettings) (host : String) : Bool := s.plainHttpHosts.contains host

end ClientSettings

structure Client where
  settings : ClientSettings
  userAgentIsHeaderValue : Http.isHeaderValue settings.userAgent = true
  /-- Whether a text is an address at which a token may be asked for. -/
  isWeb : String → Bool

namespace Client

def ofSettings (s : ClientSettings) (isWeb : String → Bool := Http.Url.isWeb) :
    Except Failure Client :=
  if h : Http.isHeaderValue s.userAgent = true then .ok ⟨s, h, isWeb⟩
  else .error (.badConfiguration "Failed to create HTTP client" none none)

def default : Client := ⟨.default, by decide +kernel, Http.Url.isWeb⟩

/-! ### Addresses -/

def registryUrl (c : Client) (host : String) : String :=
  (if c.settings.isPlainHttp host then "http" else "https") ++ "://" ++ host

/-- The address of what a repository holds under a kind and a name. -/
def contentUrl (c : Client) (r : Reference) (kind name : String) : String :=
  c.registryUrl r.host ++ "/v2/" ++ r.repository ++ "/" ++ kind ++ "/" ++ name

def manifestUrl (c : Client) (r : Reference) : String :=
  c.contentUrl r "manifests" r.target.text

def blobUrl (c : Client) (r : Reference) (d : Digest) : String := c.contentUrl r "blobs" d.text

/-! ### Faults -/

def failure (c : Client) (url : String) (f : Http.Fault) : Failure :=
  .registryUnreachable (f.message url c.settings.timeoutSeconds) none

end Client

end ImageLookup
