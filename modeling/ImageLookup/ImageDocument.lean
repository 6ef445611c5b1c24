import ImageLookup.Digest
import ImageLookup.Json.Value

/-! # Documents of an image

Registries differ in the details of what they answer, so each field of a document is read by
its own path, and whatever is missing or of another kind than expected counts as absent.  A
body that is no document at all has no fields.
-/

namespace ImageLookup

/-- The media type of an image manifest of the Docker family, version 2. -/
def dockerManifestType : String := "application/vnd.docker.distribution.manifest.v2+json"

/-- The media type of an image manifest of the OCI family, version 1. -/
def ociManifestType : String := "application/vnd.oci.image.manifest.v1+json"

/-- The value of a body; a body that is no document counts as `null`. -/
def documentOf (body : Octets) : Json.Value := (Json.Value.read? body).getD .null

def textAt? (document : Json.Value) (path : List String) : Option String :=
  (document.at? path).bind Json.Value.asText?

structure Manifest where
  mediaType : Option String
  /-- The digest of the configuration document, as the manifest spells it. -/
  configText : Option String
  layers : List Json.Value
  /-- The digest that the registry reported for the manifest. -/
  contentDigest : Option String

namespace Manifest

/-- Reads a body.  The type of the answer stands in for a media type that is absent. -/
def ofBody (body : Octets) (contentType : Option String) : Manifest where
  mediaType := (textAt? (documentOf body) ["mediaType"]).or contentType
  configText := (textAt? (documentOf body) ["config", "digest"]).filter (· != "")
  layers := (((documentOf body).at? ["layers"]).bind Json.Value.asArray?).getD []
  contentDigest := none

def configDigest? (m : Manifest) : Option Digest :=
  m.configText.bind fun s => (Digest.ofText? s).toOption

end Manifest

def defaultDirectory : String := "/"

structure ImageConfig where
  workingDirectory? : Option String

namespace ImageConfig

def ofBody (body : Octets) : ImageConfig :=
  ⟨textAt? (documentOf body) ["config", "WorkingDir"]⟩

def workingDirectory (c : ImageConfig) : String :=
  match c.workingDirectory? with
  | some "" | none => defaultDirectory
  | some directory => directory

end ImageConfig

end ImageLookup
