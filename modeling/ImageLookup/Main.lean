import ImageLookup.CommandLine.Program

/-! # Entry point

Gathers what the program depends on, runs it, and writes its output.  No transport is built in,
so every host counts as one that accepts no connections.
-/

namespace ImageLookup.CommandLine

/-- The variables in a block of entries that end with a zero octet.  Entries that are not UTF-8 are
    left out. -/
def variablesOf (block : Octets) : Settings.Environment :=
  (block.splitOn 0).filterMap fun entry => do
    let (name, value) ← Text.cutFirst (· == '=') (← Text.text? entry).toList
    return (String.ofList name, String.ofList value)

/-- All variables of the process, which settings may stand in under any name and in any case. -/
def processEnvironment : IO Settings.Environment := do
  return variablesOf (← IO.FS.readBinFile "/proc/self/environ").toList

/-- The text of a file, if it can be read. -/
def textOfFile (path : String) : IO (Option String) := do
  try
    return some (← IO.FS.readFile path)
  catch _ =>
    return none

/-- Whether something stands at a path, readable or not. -/
def isThere (path : String) : IO Bool := do
  try
    let _ ← IO.FS.realPath path
    return true
  catch _ =>
    return false

def settingsDirectory (env : Settings.Environment) : Option String :=
  let home := ((variableValue? env "HOME").filter (· != "")).map (· ++ "/.config")
  match variableValue? env "XDG_CONFIG_HOME" with
  | some directory => if directory.startsWith "/" then some directory else home
  | none => home

def userFile (env : Settings.Environment) : IO (Option Config.SettingsFile) := do
  match settingsDirectory env with
  | some directory =>
    let path := directory ++ "/dockyard/config.yaml"
    if ← isThere path then return some ⟨path, ← textOfFile path⟩ else return none
  | none => return none

def askedPath (env : Settings.Environment) (args : List String) : Option String :=
  match read env args with
  | .invoke i => i.config
  | _ => none

end ImageLookup.CommandLine

open ImageLookup

def main (args : List String) : IO UInt32 := do
  let env ← CommandLine.processEnvironment
  let asked := CommandLine.askedPath env args
  let askedText ← match asked with
    | some path => CommandLine.textOfFile path
    | none => pure none
  let stdout ← IO.getStdout
  let surroundings : CommandLine.Surroundings :=
    ⟨env, fun path => if asked = some path then askedText else none, ← CommandLine.userFile env,
      ← stdout.isTty⟩
  let output := CommandLine.run Http.Network.offline () surroundings args
  stdout.putStr output.stdout
  (← IO.getStderr).putStr output.stderr
  return output.exitCode.toUInt32
