import ImageLookup.Hash
import ImageLookup.Text.Base64

/-! # Secrets

A credential is the secret of a caller, presented together with a fixed user name; a bearer
token is what a token service hands out in exchange.  The texts that are meant for people
show neither.  A credential is told from another by its fingerprint.
-/

namespace ImageLookup

/-- The secret that a caller presents. -/
structure Credential where
  secret : String
deriving DecidableEq

namespace Credential

def userName : String := "oauth2"

/-- The value of the `Authorization` header that presents the credential. -/
def authorization (c : Credential) : String :=
  "Basic " ++ String.ofList (Text.Base64.encode (Text.octets (userName ++ ":" ++ c.secret)))

/-- The SHA-256 hash of the secret, in hexadecimal digits. -/
def fingerprint (c : Credential) : String :=
  String.ofList (Text.hex (Hash.sha256 (Text.octets c.secret)))

def redacted (_ : Credential) : String :=
  "RegistryCredential \x7b username: \"" ++ userName ++ "\", secret_token: \"<redacted>\" \x7d"

end Credential

structure BearerToken where
  value : String
deriving DecidableEq

namespace BearerToken

def authorization (t : BearerToken) : String := "Bearer " ++ t.value

def redacted (_ : BearerToken) : String := "BearerToken(<redacted>)"

end BearerToken

end ImageLookup
