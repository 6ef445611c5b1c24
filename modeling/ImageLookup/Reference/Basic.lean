import ImageLookup.Digest

/-! # Image references

A reference names an image on a registry: the host of the registry, the repository on it,
and within the repository either a tag or a content digest.  Its canonical text spells all
three out.
-/

namespace ImageLookup

/-- What a reference points at within its repository. -/
inductive Target where
  | tag (name : String)
  | digest (d : Digest)
deriving DecidableEq

namespace Target

def text : Target → String
  | .tag name => name
  | .digest d => d.text

def suffix : Target → String
  | .tag name => ":" ++ name
  | .digest d => "@" ++ d.text

def tag? : Target → Option String
  | .tag name => some name
  | .digest _ => none

def digest? : Target → Option Digest
  | .tag _ => none
  | .digest d => some d

def latest : Target := .tag "latest"

end Target

@[ext]
structure Reference where
  /-- The host of the registry, possibly with a port. -/
  host : String
  /-- The components of the repository, joined by slashes. -/
  repository : String
  target : Target
deriving DecidableEq

namespace Reference

def text (r : Reference) : String := r.host ++ "/" ++ r.repository ++ r.target.suffix

def hubHost : String := "registry-1.docker.io"

/-- The namespace of images that name neither a registry nor a namespace. -/
def hubLibrary : String := "library"

/-- The names of the hub: a repository there has at least two components. -/
def hubHosts : List String := ["registry-1.docker.io", "docker.io", "index.docker.io"]

end Reference

end ImageLookup
