import ImageLookup.Client
import ImageLookup.Settings.Environment
import ImageLookup.Yaml.Document

/-! # Configuration

A configuration is read from layers of settings: defaults, a file, and the environment.  Each
setting takes the value of the last layer that sets it.  Values are converted with some lenience:
where a number is wanted, truth values and words for them count as 1 and 0, and real numbers are
rounded; where text is wanted, numbers and truth values are written out.
-/

namespace ImageLookup

structure NetworkConfig where
  /-- Seconds that a request may take. -/
  timeout : Nat
  maxIdlePerHost : Nat
  /-- Seconds that a whole resolution may take. -/
  deadline : Option Nat
  userAgent : String
deriving DecidableEq, Repr

structure Config where
  network : NetworkConfig
  /-- Hosts that are reached over `http`. -/
  plainHttp : List String
deriving DecidableEq, Repr

namespace Settings

/-! ### Conversions -/

def Value.number? : Value → Option Nat
  | .bool b => some (if b then 1 else 0)
  | .integer i => if 0 ≤ i then some i.toNat else none
  | .real x => some (x.toNatUpTo (Text.wordBound - 1))
  | .text s =>
    let word := lowerName s
    if ["true", "on", "yes"].contains word then some 1
    else if ["false", "off", "no"].contains word then some 0
    else Text.natural64? 10 s.toList
  | _ => none

def Value.optionalNumber? : Value → Option (Option Nat)
  | .null => some none
  | v => v.number?.map some

def Value.text? : Value → Option String
  | .bool b => some (if b then "true" else "false")
  | .integer i => some (toString i)
  | .real x => some (String.ofList x.plainText)
  | .text s => some s
  | _ => none

def Value.texts? : Value → Option (List String)
  | .list items => items.mapM Value.text?
  | _ => none

/-! ### Records -/

/-- The value of a field: by its name in a table, and by its place in a list.  A value of another
    kind has no fields at all. -/
def Value.field? (v : Value) (name : String) (place : Nat) : Option (Option Value) :=
  match v with
  | .table entries => some (find? name entries)
  | .list items => some items[place]?
  | _ => none

def Value.read? {α : Type} (v : Value) (name : String) (place : Nat) (missing : α)
    (convert : Value → Option α) : Option α := do
  match ← v.field? name place with
  | some field => convert field
  | none => some missing

end Settings

namespace NetworkConfig

def default : NetworkConfig := ⟨30, 10, none, ClientSettings.defaultUserAgent⟩

def ofValue? (v : Settings.Value) : Option NetworkConfig := do
  let timeout ← v.read? "timeout" 0 default.timeout Settings.Value.number?
  let maxIdlePerHost ← v.read? "max_idle_per_host" 1 default.maxIdlePerHost Settings.Value.number?
  let deadline ← v.read? "deadline" 2 default.deadline Settings.Value.optionalNumber?
  let userAgent ← v.read? "user_agent" 3 default.userAgent Settings.Value.text?
  return ⟨timeout, maxIdlePerHost, deadline, userAgent⟩

end NetworkConfig

namespace Config

def default : Config := ⟨.default, []⟩

def defaultSettings : Settings.Value :=
  let network := NetworkConfig.default
  .table [
    ("network", .table [("timeout", .integer network.timeout),
      ("max_idle_per_host", .integer network.maxIdlePerHost), ("deadline", .null),
      ("user_agent", .text network.userAgent)]),
    ("registries", .table [("plain_http", .list [])])]

def ofValue? (v : Settings.Value) : Option Config := do
  let network ← v.read? "network" 0 NetworkConfig.default NetworkConfig.ofValue?
  let plainHttp ← v.read? "registries" 1 [] fun registries =>
    registries.read? "plain_http" 0 [] Settings.Value.texts?
  return ⟨network, plainHttp⟩

/-! ### Layers -/

def layerOfYaml? (yaml : String) : Option (List (String × Settings.Value)) := do
  match ← Settings.Value.ofDatum? (← Yaml.read? yaml.toList) with
  | .table entries => some entries
  | _ => none

def ofLayers? (layers : List (List (String × Settings.Value))) : Option Config :=
  ofValue? (layers.foldl (fun v layer => v.overlay layer) defaultSettings)

/-- A file of settings: its path, and its text unless it cannot be read. -/
structure SettingsFile where
  path : String
  text : Option String

def loadFailure (path : Option String) : Failure :=
  .badConfiguration "Failed to load configuration" path none

def ofYaml (yaml : String) : Except Failure Config :=
  match (layerOfYaml? yaml).bind fun layer => ofLayers? [layer] with
  | some c => .ok c
  | none => .error (loadFailure none)

def withoutMark (text : String) : String :=
  match text.toList with
  | '\ufeff' :: rest => String.ofList rest
  | _ => text

/-- The settings of a file; without a file there are none. -/
def fileLayer? : Option SettingsFile → Option (List (String × Settings.Value))
  | none => some []
  | some file => file.text.bind fun text => layerOfYaml? (withoutMark text)

/-- Reads the file, if one is given, and the environment on top of the defaults. -/
def load (file : Option SettingsFile) (env : Settings.Environment) : Except Failure Config :=
  match (fileLayer? file).bind fun layer => ofLayers? [layer, env.layer] with
  | some c => .ok c
  | none => .error (loadFailure (file.map SettingsFile.path))

/-! ### Use -/

def clientSettings (c : Config) : ClientSettings :=
  ⟨c.network.timeout, c.network.maxIdlePerHost, c.network.userAgent, c.plainHttp⟩

def deadline (c : Config) : Option Nat := c.network.deadline.map (1000 * ·)

end Config

end ImageLookup
