import ImageLookup.CommandLine.Program
import ImageLookup.Proofs.Resolution.Deadline

/-! # Exit codes

What the program exits with is decided by the first stage that fails: the configuration, then for `check`
the client, then the reference, then the lookup.  A reference that cannot be read is the only cause of
code 2 behind the arguments, and a token that is refused in time is the only thing that a registry can
do to make `check` fail at all.  Images that are absent or out of reach are answers, not failures.
-/

namespace ImageLookup

open Http (Network)

/-! ### Failures of the stages -/

namespace Resolver

variable {σ : Type} {rv : Resolver} {net : Network σ} {network : σ}
variable {raw : String} {r : Reference} {credential : Option Credential} {f : Failure}

/-- The lookup of a manifest ends in a rejection before the deadline. -/
structure Rejected (rv : Resolver) (net : Network σ) (network : σ) (r : Reference)
    (credential : Option Credential) (f : Failure) : Prop where
  ending : (rv.lookedUp net network r credential).ending = .error f
  cause : ∃ message status, f = .authenticationRejected message status
  inTime : Event.fits rv.deadline (rv.lookedUp net network r credential).events = true

theorem Rejected.exitCode (h : rv.Rejected net network r credential f) : f.exitCode = 1 := by
  obtain ⟨message, status, rfl⟩ := h.cause
  rfl

end Resolver

namespace CommandLine

variable {σ : Type} {net : Network σ} {network : σ} {s : Surroundings} {args : List String}
variable {i : Invocation} {c : Config} {client : Client} {f : Failure}
variable {reference format : String} {token : Option String}

/-! ### Before the reference -/

/-- Whether the output of an invocation is in colour. -/
def Invocation.usesColor (i : Invocation) (s : Surroundings) : Bool :=
  (Report.ColorChoice.ofText i.color).enabled s.onTerminal
    (variableValue? s.environment "NO_COLOR").isSome

/-- The file of settings that counts: one that is asked for, whether it can be read or not, before
    that of the user. -/
inductive InEffect (s : Surroundings) : Option String → Option Config.SettingsFile → Prop
  | asked {path} : InEffect s (some path) (some ⟨path, s.fileText path⟩)
  | user : InEffect s none s.userFile

def Configured (s : Surroundings) (i : Invocation) (c : Config) : Prop :=
  ∃ file, InEffect s i.config file ∧ Config.load file s.environment = .ok c

/-- There is a configuration, and a client for it. -/
structure Ready (net : Network σ) (s : Surroundings) (i : Invocation) (c : Config)
    (client : Client) : Prop where
  config : Configured s i c
  client : Client.ofSettings c.clientSettings net.isWeb = .ok client

def found (net : Network σ) (network : σ) (c : Config) (client : Client) (reference : String)
    (token : Option String) : Except Failure Resolution :=
  ((Resolver.new client c.deadline).resolve net network reference (token.map Credential.mk)).result

/-- The output is the report on a resolution of the reference. -/
structure Answers (net : Network σ) (network : σ) (s : Surroundings) (i : Invocation)
    (reference : String) (token : Option String) (format : String) (o : Output) (c : Config)
    (client : Client) (resolution : Resolution) : Prop where
  ready : Ready net s i c client
  found : found net network c client reference token = .ok resolution
  reference : Reference.parse reference = .ok resolution.reference
  exitCode : o.exitCode = 0
  stdout : o.stdout = String.ofList (Text.trimEnd
    ((Report.ofResolution resolution).write (.ofText format) (i.usesColor s)).toList) ++ "\n"
  image : (Report.ofResolution resolution).fields.lookup "image" =
    some (.text resolution.reference.text)
  present : (Report.ofResolution resolution).fields.lookup "exists" = some (.flag true) ↔
    resolution.availability = .present

end CommandLine

end ImageLookup
