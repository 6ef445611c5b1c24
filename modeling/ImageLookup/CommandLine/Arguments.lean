import ImageLookup.Text.Cut

/-! # Arguments

Arguments have two levels: those of the program, and behind the name of a command those of the
command.  Some options may stand on either level; each level is read by itself, and of an option
that stands on both the one of the command counts.

Arguments are read from left to right.  A request for help or for the version ends the reading
where it is met, and so does the first argument that cannot be accepted.  What an option with a
value needs is looked up in the environment when a level does not give it.
-/

namespace ImageLookup.CommandLine

inductive Command where
  | version
  | parse (reference format : String)
  | check (reference : String) (token : Option String) (format : String)
deriving DecidableEq, Repr

structure Invocation where
  /-- How often more messages were asked for. -/
  verbose : Nat
  quiet : Bool
  color : String
  /-- The path of the file of settings. -/
  config : Option String
  command : Command
deriving DecidableEq, Repr

inductive Request where
  | invoke (i : Invocation)
  | showVersion
  | showHelp
  | reject
deriving DecidableEq, Repr

/-! ### Options -/

inductive Flag where
  | verbose
  | quiet
  | help
  | version
deriving DecidableEq, Repr

inductive Setting where
  | color
  | config
  | format
  | token
deriving DecidableEq, Repr

/-- The levels of arguments: that of the program, and those of the commands. -/
inductive Level where
  | program
  | versionCommand
  | parseCommand
  | checkCommand
deriving DecidableEq, Repr

namespace Level

def ofName? : String → Option Level
  | "version" => some .versionCommand
  | "parse" => some .parseCommand
  | "check" => some .checkCommand
  | _ => none

def allowsFlag (l : Level) (f : Flag) : Bool := f ≠ .version || l = .program

def allows : Level → Setting → Bool
  | _, .color => true
  | _, .config => true
  | .parseCommand, .format => true
  | .checkCommand, .format => true
  | .checkCommand, .token => true
  | _, _ => false

def operands : Level → Nat
  | .parseCommand | .checkCommand => 1
  | _ => 0

end Level

inductive Kind where
  | flag (f : Flag)
  | setting (s : Setting)
deriving DecidableEq, Repr

def Kind.isAllowed (l : Level) : Kind → Bool
  | .flag f => l.allowsFlag f
  | .setting s => l.allows s

def Kind.ofLong? (l : Level) (name : String) : Option Kind :=
  let kind : Option Kind := match name with
    | "verbose" => some (.flag .verbose)
    | "quiet" => some (.flag .quiet)
    | "help" => some (.flag .help)
    | "version" => some (.flag .version)
    | "color" => some (.setting .color)
    | "config" => some (.setting .config)
    | "format" => some (.setting .format)
    | "token" => some (.setting .token)
    | _ => none
  kind.filter (·.isAllowed l)

def Kind.ofLetter? (l : Level) (c : Char) : Option Kind :=
  let kind : Option Kind := match c with
    | 'v' => some (.flag .verbose)
    | 'q' => some (.flag .quiet)
    | 'h' => some (.flag .help)
    | 'V' => some (.flag .version)
    | 'f' => some (.setting .format)
    | _ => none
  kind.filter (·.isAllowed l)

/-! ### One level -/

structure Given where
  verbose : Nat
  quiet : Bool
  settings : List (Setting × String)
  operands : List String
deriving DecidableEq, Repr

namespace Given

def none : Given := ⟨0, false, [], []⟩

def value? (g : Given) (s : Setting) : Option String := g.settings.lookup s

/-- Adds the value of a setting.  A setting has one value, and a path may not be empty. -/
def add? (g : Given) (s : Setting) (value : String) : Option Given :=
  if (g.value? s).isSome || (s == .config && value.isEmpty) then Option.none
  else some { g with settings := (s, value) :: g.settings }

end Given

inductive Reading where
  | going (g : Given)
  | done (r : Request)

namespace Reading

def ofOption : Option Given → Reading
  | some g => .going g
  | none => .done .reject

/-- Takes a flag.  `quiet` may be given once; the other messages may be asked for repeatedly. -/
def flag (g : Given) : Flag → Reading
  | .verbose => .going { g with verbose := g.verbose + 1 }
  | .quiet => if g.quiet then .done .reject else .going { g with quiet := true }
  | .help => .done .showHelp
  | .version => .done .showVersion

end Reading

/-- Whether an argument looks like an option and so cannot be the value of one. -/
def looksLikeOption (arg : String) : Bool := arg.toList.head? == some '-' && arg != "-"

/-- Reads letters that stand together.  The rest behind a letter that needs a value is the value,
    without an equals sign before it; where there is no rest, the setting is given back. -/
def letters (l : Level) : Given → List Char → Reading × Option Setting
  | g, [] => (.going g, none)
  | g, c :: cs =>
    match Kind.ofLetter? l c with
    | none => (.done .reject, none)
    | some (.flag f) =>
      match Reading.flag g f with
      | .going g => letters l g cs
      | .done r => (.done r, none)
    | some (.setting s) =>
      match cs with
      | [] => (.going g, some s)
      | '=' :: value => (.ofOption (g.add? s (String.ofList value)), none)
      | value => (.ofOption (g.add? s (String.ofList value)), none)

/-- Reads a long option; where the value of a setting is missing, the setting is given back. -/
def long (l : Level) (g : Given) (body : List Char) : Reading × Option Setting :=
  let (name, value) := match Text.cutFirst (· == '=') body with
    | some (name, value) => (name, some (String.ofList value))
    | none => (body, none)
  match Kind.ofLong? l (String.ofList name), value with
  | some (.flag f), none => (Reading.flag g f, none)
  | some (.setting s), some value => (.ofOption (g.add? s value), none)
  | some (.setting s), none => (.going g, some s)
  | _, _ => (.done .reject, none)

def operand (l : Level) (g : Given) (arg : String) : Reading :=
  if g.operands.length < l.operands then .going { g with operands := g.operands ++ [arg] }
  else .done .reject

def operands (l : Level) : Given → List String → Reading
  | g, [] => .going g
  | g, arg :: args =>
    match operand l g arg with
    | .going g => operands l g args
    | .done r => .done r

inductive LevelEnd where
  | finished (g : Given)
  /-- The name of a command, and the arguments behind it. -/
  | command (g : Given) (name : String) (rest : List String)
  | done (r : Request)

/-- Reads the arguments of a level.  `awaiting` is a setting whose value comes next. -/
def level (l : Level) : Given → Option Setting → List String → LevelEnd
  | g, none, [] => .finished g
  | _, some _, [] => .done .reject
  | g, some s, arg :: args =>
    if looksLikeOption arg then .done .reject
    else
      match g.add? s arg with
      | some g => level l g none args
      | none => .done .reject
  | g, none, arg :: args =>
    if arg == "--" then
      match operands l g args with
      | .going g => .finished g
      | .done r => .done r
    else if looksLikeOption arg then
      let (reading, awaiting) := match arg.toList with
        | '-' :: '-' :: body => long l g body
        | _ :: body => letters l g body
        | [] => (.done .reject, none)
      match reading with
      | .going g => level l g awaiting args
      | .done r => .done r
    else if l = .program then .command g arg args
    else
      match operand l g arg with
      | .going g => level l g none args
      | .done r => .done r

/-! ### All arguments -/

def variableValue? (env : List (String × String)) (name : String) : Option String := env.lookup name

def configVariable : String := "DOCKYARD_CONFIG"

def tokenVariable : String := "DOCKYARD_TOKEN"

/-- Whether the options of a level can stand together: one cannot ask for more messages and for
    none, and a path from the environment may not be empty either. -/
def isConsistent (env : List (String × String)) (g : Given) : Bool :=
  !(g.quiet && g.verbose != 0)
    && ((g.value? .config).isSome || variableValue? env configVariable != some "")

def command? (env : List (String × String)) (l : Level) (g : Given) : Option Command :=
  let format := (g.value? .format).getD "pretty"
  match l, g.operands with
  | .versionCommand, [] => some .version
  | .parseCommand, [reference] => some (.parse reference format)
  | .checkCommand, [reference] =>
    some (.check reference ((g.value? .token).or (variableValue? env tokenVariable)) format)
  | _, _ => none

def readCommand (env : List (String × String)) (outer : Given) (l : Level)
    (args : List String) : Request :=
  match level l .none none args with
  | .done r => r
  | .command .. => .reject
  | .finished g =>
    match command? env l g with
    | none => .reject
    | some c =>
      if isConsistent env g && isConsistent env outer then
        .invoke ⟨if g.verbose = 0 then outer.verbose else g.verbose, g.quiet || outer.quiet,
          ((g.value? .color).or (outer.value? .color)).getD "auto",
          ((g.value? .config).or (outer.value? .config)).or (variableValue? env configVariable), c⟩
      else .reject

def read (env : List (String × String)) (args : List String) : Request :=
  match level .program .none none args with
  | .done r => r
  | .finished _ => .reject
  | .command g name rest =>
    if name == "help" then
      match rest with
      | [] => .showHelp
      | [topic] =>
        if topic == "help" || (Level.ofName? topic).isSome then .showHelp else .reject
      | _ => .reject
    else
      match Level.ofName? name with
      | some l => readCommand env g l rest
      | none => .reject

end ImageLookup.CommandLine
