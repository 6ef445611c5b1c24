import ImageLookup.Failure
import ImageLookup.Reference.Words
import ImageLookup.Text.Character

/-! # Reading references

A reference is a name and a suffix.  The suffix belongs to the last part between slashes:
from its first `@` on it is a digest, else from its last colon on it is a tag, and else the
tag is `latest`.  The name is read by four productions, from the most to the least specific:

* a host and at least two components;
* a host and one component, except on the hub;
* a user name and one component, on the hub;
* one component, in the library of the hub.

`readings` gives one reference for every production that fits.  A text is a reference only
if exactly one does.
-/

namespace ImageLookup.Reference

def splitTarget? (cs : List Char) : Option (List Char × Target) :=
  let (path, last) := match Text.cutLast (· == '/') cs with
    | some (before, after) => (before ++ ['/'], after)
    | none => ([], cs)
  match Text.cutFirst (· == '@') last with
  | some (name, digest) =>
    match Digest.ofChars? digest with
    | .ok d => some (path ++ name, .digest d)
    | .error _ => none
  | none =>
    match Text.cutLast (· == ':') last with
    | some (name, tag) =>
      if isTag tag then some (path ++ name, .tag (String.ofList tag)) else none
    | none => some (cs, .latest)

/-! ### Productions -/

/-- A host and at least two components. -/
def hostedPath? (name : List Char) (target : Target) : Option Reference := do
  let (host, path) ← Text.cutFirst (· == '/') name
  let components := path.splitOn '/'
  if isHost host && decide (2 ≤ components.length) && components.all isComponent then
    some ⟨String.ofList host, String.ofList path, target⟩
  else none

/-- A host other than the hub and one component. -/
def hostedImage? (name : List Char) (target : Target) : Option Reference := do
  let (host, image) ← Text.cutFirst (· == '/') name
  if isHost host && isComponent image && !hubHosts.contains (String.ofList host) then
    some ⟨String.ofList host, String.ofList image, target⟩
  else none

/-- A user name and one component. -/
def hubUser? (name : List Char) (target : Target) : Option Reference := do
  let (user, image) ← Text.cutFirst (· == '/') name
  if isUserName user && isComponent image then
    some ⟨hubHost, String.ofList name, target⟩
  else none

/-- One component. -/
def hubImage? (name : List Char) (target : Target) : Option Reference :=
  if isComponent name then some ⟨hubHost, hubLibrary ++ "/" ++ String.ofList name, target⟩
  else none

/-! ### Reading -/

/-- Every reading of a text, in the order of the productions. -/
def readings (cs : List Char) : List Reference :=
  match splitTarget? cs with
  | none => []
  | some (name, target) =>
    [hostedPath?, hostedImage?, hubUser?, hubImage?].filterMap fun production =>
      production name target

/-- Reads a reference; blanks around it do not count. -/
def parse (raw : String) : Except Failure Reference :=
  let cs := Text.trim raw.toList
  match readings cs with
  | [] => .error (.unparseableReference (String.ofList cs))
  | [r] => .ok r
  | rs => .error (.ambiguousReference (String.ofList cs) rs)

end ImageLookup.Reference
