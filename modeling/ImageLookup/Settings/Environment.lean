import ImageLookup.Settings.Path

/-! # Settings from the environment

Variables whose names start with `DOCKYARD_`, in any case, are settings.  The rest of the name is
the name of the setting, with two underscores for every dot of its path.  The value is a truth
value, a number, or text; for the one setting that is a list, text is cut at its commas.
-/

namespace ImageLookup.Settings

abbrev Environment := List (String × String)

def variableStart : List Char := "dockyard_".toList

def listSetting : String := "registries.plain_http"

def dotted : List Char → List Char
  | '_' :: '_' :: rest => '.' :: dotted rest
  | c :: rest => c :: dotted rest
  | [] => []

def settingOf? (variableName : String) : Option String :=
  let name := (lowerName variableName).toList
  if variableStart.isPrefixOf name then
    some (String.ofList (dotted (name.drop variableStart.length)))
  else none

def valueOf (setting value : String) : Value :=
  let cs := value.toList
  let word := Text.lowerAscii cs
  if word == "true".toList then .bool true
  else if word == "false".toList then .bool false
  else
    match Text.integer64? 10 cs with
    | some i => .integer i
    | none =>
      match Text.decimal? cs with
      | some x => .real x
      | none =>
        if setting = listSetting then
          .list ((cs.splitOn ',').map fun part => .text (String.ofList part))
        else .text value

def Environment.layer (env : Environment) : List (String × Value) :=
  env.filterMap fun e => (settingOf? e.1).map fun setting => (setting, valueOf setting e.2)

end ImageLookup.Settings
