import ImageLookup.Reference.Basic

/-! # Failures

What can go wrong for the caller: the reference is not one, the registry cannot be reached,
has no such image or refuses the credential, or the configuration is unusable.  A failure
may name the underlying cause, which is not part of its message.
-/

namespace ImageLookup

inductive Failure where
  /-- No reading fits the text. -/
  | unparseableReference (input : String)
  /-- More than one reading fits the text. -/
  | ambiguousReference (input : String) (readings : List Reference)
  /-- A request could not be made, or its answer not be read. -/
  | registryUnreachable (message : String) (cause : Option String)
  /-- The registry has no manifest for the reference. -/
  | imageNotFound (reference : String)
  /-- A credential was refused, or a demand for one cannot be met. -/
  | authenticationRejected (message : String) (status : Option Nat)
  /-- The configuration cannot be read or used. -/
  | badConfiguration (message : String) (path : Option String) (cause : Option String)
deriving DecidableEq

namespace Failure

def statusText : Option Nat → String
  | some status => "Some(" ++ toString status ++ ")"
  | none => "None"

def message : Failure → String
  | .unparseableReference input => "Cannot parse image reference '" ++ input ++ "'"
  | .ambiguousReference input readings =>
    "Cannot parse image reference '" ++ input ++ "': " ++ toString readings.length
      ++ " possible interpretations (" ++ ", ".intercalate (readings.map Reference.text) ++ ")"
  | .registryUnreachable message _ => "Registry unreachable: " ++ message
  | .imageNotFound reference => "Image not found: " ++ reference
  | .authenticationRejected message status =>
    "Authentication rejected (status: " ++ statusText status ++ "): " ++ message
  | .badConfiguration message _ _ => "Configuration error: " ++ message

def cause? : Failure → Option String
  | .registryUnreachable _ cause => cause
  | .badConfiguration _ _ cause => cause
  | _ => none

/-- Whether the network is to blame. -/
def isUnreachable : Failure → Bool
  | .registryUnreachable .. => true
  | _ => false

def isParseError : Failure → Bool
  | .unparseableReference _ | .ambiguousReference .. => true
  | _ => false

/-- A configuration that the layers of settings reject as a whole, with the cause. -/
def ofSettingsCause (cause : String) : Failure :=
  .badConfiguration "Configuration error" none (some cause)

def ofDigestDefect (text : String) (d : Digest.Defect) : Failure :=
  .unparseableReference (text ++ " (invalid digest: " ++ d.message ++ ")")

/-! ### What the user sees -/

/-- The text for the user: the message, or one line for every reading of an ambiguous
    reference. -/
def describe : Failure → String
  | .ambiguousReference input readings =>
    "'" ++ input ++ "' is ambiguous, it could mean:\n"
      ++ "\n".intercalate (readings.map fun r => "  - " ++ r.text)
      ++ "\nSpell out the registry host or namespace."
  | f => f.message

/-- The exit code: 2 for a bad reference and 1 for everything else. -/
def exitCode (f : Failure) : Nat := if f.isParseError then 2 else 1

end Failure

end ImageLookup
