import ImageLookup.CommandLine.Arguments
import ImageLookup.Report.Item

/-! # The program

The program reads its arguments, loads its configuration, and carries out a command.  Everything
that it depends on is given to it: the environment, the files of settings, and the network.

It exits with 0 if the command was carried out, with 2 for arguments or references that cannot be
read, and with 1 for everything else.
-/

namespace ImageLookup.CommandLine

open Http (Network)

/-! ### Verbosity -/

/-- How much the program says besides its results, from nothing to everything. -/
inductive Verbosity where
  | quiet
  | normal
  | verbose
  | debug
  | trace
deriving DecidableEq, Repr

namespace Verbosity

def ofCount : Nat → Verbosity
  | 0 => .normal
  | 1 => .verbose
  | 2 => .debug
  | _ => .trace

def name : Verbosity → String
  | .quiet => "Quiet"
  | .normal => "Normal"
  | .verbose => "Verbose"
  | .debug => "Debug"
  | .trace => "Trace"

def filter : Verbosity → String
  | .quiet => "off"
  | .normal => "warn"
  | .verbose => "libdockyard=info,dockyard=info"
  | .debug => "libdockyard=debug,dockyard=debug"
  | .trace => "libdockyard=trace,dockyard=trace"

def rank : Verbosity → Nat
  | .quiet => 0
  | .normal => 1
  | .verbose => 2
  | .debug => 3
  | .trace => 4

def atLeast (v w : Verbosity) : Bool := decide (w.rank ≤ v.rank)

end Verbosity

/-! ### Surroundings and output -/

/-- What the program finds around it. -/
structure Surroundings where
  environment : List (String × String)
  /-- The texts of files. -/
  fileText : String → Option String
  /-- The file of settings of the user, if there is one. -/
  userFile : Option Config.SettingsFile
  /-- Whether results are written to a terminal. -/
  onTerminal : Bool

/-- What the program writes, and how it exits.  Diagnostics for whoever traces the program would go
    to `stderr` as well; they are left out here, so it holds the messages about the command alone. -/
structure Output where
  exitCode : Nat
  stdout : String
  stderr : String
deriving DecidableEq, Repr

namespace Output

def result (text : String) : Output :=
  ⟨0, String.ofList (Text.trimEnd text.toList) ++ "\n", ""⟩

def failed (color : Bool) (exitCode : Nat) (message : String) : Output :=
  ⟨exitCode, "", Report.errorLine color message ++ "\n"⟩

def after (line : String) (o : Output) : Output := ⟨o.exitCode, o.stdout, line ++ "\n" ++ o.stderr⟩

end Output

/-! ### Texts -/

def programVersion : String := "dockyard " ++ version

def versionText : String := programVersion ++ "\nlibdockyard " ++ version

def usage : String := "Usage: dockyard [OPTIONS] <version|parse|check>"

/-! ### Commands -/

/-- The configuration in effect: a file that is asked for comes before that of the user. -/
def loadConfig (s : Surroundings) (path : Option String) : Except Failure Config :=
  let file := match path with
    | some path => some ⟨path, s.fileText path⟩
    | none => s.userFile
  Config.load file s.environment

def outputOf (color : Bool) (format : Report.Format) : Except Failure Report.Item → Output
  | .ok item => .result (item.write format color)
  | .error f => .failed color f.exitCode f.describe

def checkImage {σ : Type} (net : Network σ) (network : σ) (c : Config) (raw : String)
    (token : Option String) : Except Failure Resolution := do
  let rv ← Resolver.ofConfig c net.isWeb
  (rv.resolve net network raw (token.map Credential.mk)).result

def Invocation.verbosity (i : Invocation) : Verbosity :=
  if i.quiet then .quiet else .ofCount i.verbose

def carryOut {σ : Type} (net : Network σ) (network : σ) (c : Config) (color : Bool)
    (verbosity : Verbosity) : Command → Output
  | .version => .result versionText
  | .parse reference format => outputOf color (.ofText format) (Report.parse reference)
  | .check reference token format =>
    let o := outputOf color (.ofText format)
      ((checkImage net network c reference token).map Report.ofResolution)
    if verbosity.atLeast .verbose then o.after ("Resolving " ++ reference) else o

def invoke {σ : Type} (net : Network σ) (network : σ) (s : Surroundings) (i : Invocation) :
    Output :=
  if i.command = .version then .result versionText
  else
    let forbidden := (variableValue? s.environment "NO_COLOR").isSome
    let color := (Report.ColorChoice.ofText i.color).enabled s.onTerminal forbidden
    match loadConfig s i.config with
    | .error f => .failed color 1 f.message
    | .ok c => carryOut net network c color i.verbosity i.command

def run {σ : Type} (net : Network σ) (network : σ) (s : Surroundings) (args : List String) :
    Output :=
  match read s.environment args with
  | .invoke i => invoke net network s i
  | .showVersion => .result programVersion
  | .showHelp => .result usage
  | .reject => ⟨2, "", usage ++ "\n"⟩

end ImageLookup.CommandLine
