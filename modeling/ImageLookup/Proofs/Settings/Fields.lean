import ImageLookup.Proofs.Settings.Places

/-! # Settings of a configuration

A configuration is one value for each of five settings.  A tree of settings `Holds` a configuration when
the value of every setting stands at its place, and such a tree is read as that configuration
(`ofValue?_of_holds`).  Giving a value to one setting changes the configuration that the tree holds in
that setting alone (`Holds.set`).  After a run of settings the last value of each kind counts, so that of
two layers the second one has precedence (`Setting.foldl_applyTo_default`).
-/

namespace ImageLookup.Settings

/-! ### Settings -/

def sectionNames : List String := ["network", "registries"]

/-- What a configuration consists of. -/
inductive Field where
  | timeout
  | maxIdlePerHost
  | deadline
  | userAgent
  | plainHttp
deriving DecidableEq

/-- A field with a value of its own kind. -/
inductive Setting where
  | timeout (seconds : Nat)
  | maxIdlePerHost (count : Nat)
  | deadline (seconds : Option Nat)
  | userAgent (text : String)
  | plainHttp (hosts : List String)

namespace Field

def sectionName : Field → String
  | .timeout | .maxIdlePerHost | .deadline | .userAgent => "network"
  | .plainHttp => "registries"

def name : Field → String
  | .timeout => "timeout"
  | .maxIdlePerHost => "max_idle_per_host"
  | .deadline => "deadline"
  | .userAgent => "user_agent"
  | .plainHttp => "plain_http"

def path (f : Field) : String := f.sectionName ++ "." ++ f.name

def variableName : Field → String
  | .timeout => "DOCKYARD_NETWORK__TIMEOUT"
  | .maxIdlePerHost => "DOCKYARD_NETWORK__MAX_IDLE_PER_HOST"
  | .deadline => "DOCKYARD_NETWORK__DEADLINE"
  | .userAgent => "DOCKYARD_NETWORK__USER_AGENT"
  | .plainHttp => "DOCKYARD_REGISTRIES__PLAIN_HTTP"

theorem place_injective {f g : Field} (h : (f.sectionName, f.name) = (g.sectionName, g.name)) :
    f = g := by
  cases f <;> cases g <;> first | rfl | exact absurd (Prod.mk.inj h).2 (by decide)

theorem lowerName_name (f : Field) : lowerName f.name = f.name := by
  cases f <;> decide +kernel

theorem pathOf_path (f : Field) : pathOf f.path = [.name f.sectionName, .name f.name] := by
  cases f <;> decide +kernel

/-- The variable of a field stands for the path of the field. -/
theorem settingOf?_variableName (f : Field) : settingOf? f.variableName = some f.path := by
  cases f <;> decide +kernel

end Field

namespace Setting

def field : Setting → Field
  | .timeout _ => .timeout
  | .maxIdlePerHost _ => .maxIdlePerHost
  | .deadline _ => .deadline
  | .userAgent _ => .userAgent
  | .plainHttp _ => .plainHttp

def value : Setting → Value
  | .timeout n | .maxIdlePerHost n | .deadline (some n) => .integer n
  | .deadline none => .null
  | .userAgent s => .text s
  | .plainHttp hosts => .list (hosts.map .text)

theorem value_ne_table (s : Setting) (entries : List (String × Value)) :
    s.value ≠ .table entries := by
  rcases s with _ | _ | (_ | _) | _ | _ <;> simp [value]

/-! ### The value that a run of settings leaves -/

def timeout? : Setting → Option Nat
  | .timeout n => some n
  | _ => none

def maxIdlePerHost? : Setting → Option Nat
  | .maxIdlePerHost n => some n
  | _ => none

def deadline? : Setting → Option (Option Nat)
  | .deadline n => some n
  | _ => none

def userAgent? : Setting → Option String
  | .userAgent s => some s
  | _ => none

def plainHttp? : Setting → Option (List String)
  | .plainHttp hosts => some hosts
  | _ => none

variable {α : Type}

def last? (pick : Setting → Option α) (settings : List Setting) : Option α :=
  (settings.filterMap pick).getLast?

/-- The value of the environment if it sets one, that of the file if it sets one, and the default
    otherwise. -/
def chosen (pick : Setting → Option α) (inFile inEnvironment : List Setting) (default : α) : α :=
  ((last? pick inEnvironment).or (last? pick inFile)).getD default

theorem last?_append (pick : Setting → Option α) (first second : List Setting) :
    last? pick (first ++ second) = (last? pick second).or (last? pick first) := by
  rw [last?, List.filterMap_append, List.getLast?_append, last?, last?]

end Setting

/-! ### Configurations -/

/-- The value of a field of a configuration, as it stands in a tree. -/
def Field.valueIn (c : Config) : Field → Value
  | .timeout => .integer c.network.timeout
  | .maxIdlePerHost => .integer c.network.maxIdlePerHost
  | .deadline => (Setting.deadline c.network.deadline).value
  | .userAgent => .text c.network.userAgent
  | .plainHttp => .list (c.plainHttp.map .text)

namespace Setting

/-- A configuration in which one setting has been given a value. -/
def applyTo (c : Config) : Setting → Config
  | .timeout n => { c with network := { c.network with timeout := n } }
  | .maxIdlePerHost n => { c with network := { c.network with maxIdlePerHost := n } }
  | .deadline n => { c with network := { c.network with deadline := n } }
  | .userAgent s => { c with network := { c.network with userAgent := s } }
  | .plainHttp hosts => { c with plainHttp := hosts }

theorem valueIn_applyTo_self (s : Setting) (c : Config) :
    s.field.valueIn (s.applyTo c) = s.value := by
  cases s <;> rfl

theorem valueIn_applyTo_ne {s : Setting} {f : Field} (h : f ≠ s.field) (c : Config) :
    f.valueIn (s.applyTo c) = f.valueIn c := by
  cases s <;> cases f <;> first | rfl | exact absurd rfl h

section Layers

variable {α : Type} {read : Config → α} {pick : Setting → Option α}

/-- What is read off a configuration after a run of settings, if a setting of its own kind gives it its
    value and every other one leaves it alone. -/
theorem read_foldl_applyTo (hstep : ∀ c s, read (applyTo c s) = (pick s).getD (read c))
    (settings : List Setting) (c : Config) :
    read (settings.foldl applyTo c) = (last? pick settings).getD (read c) := by
  induction settings generalizing c with
  | nil => rfl
  | cons s settings ih =>
    rw [List.foldl_cons, ih, hstep, last?, last?, List.filterMap_cons]
    cases pick s with
    | none => rfl
    | some value => simp [List.getLast?_cons]

theorem read_layers (read : Config → α) (pick : Setting → Option α)
    (hstep : ∀ c s, read (applyTo c s) = (pick s).getD (read c))
    (inFile inEnvironment : List Setting) (c : Config) :
    read (inEnvironment.foldl applyTo (inFile.foldl applyTo c)) =
      chosen pick inFile inEnvironment (read c) := by
  rw [← List.foldl_append, read_foldl_applyTo hstep, last?_append, chosen]

end Layers

theorem config_eq {c : Config} {timeout maxIdlePerHost : Nat} {deadline : Option Nat}
    {userAgent : String} {plainHttp : List String} (htimeout : c.network.timeout = timeout)
    (hidle : c.network.maxIdlePerHost = maxIdlePerHost) (hdeadline : c.network.deadline = deadline)
    (hagent : c.network.userAgent = userAgent) (hplain : c.plainHttp = plainHttp) :
    c = ⟨⟨timeout, maxIdlePerHost, deadline, userAgent⟩, plainHttp⟩ := by
  subst htimeout hidle hdeadline hagent hplain
  rfl

/-- The configuration that two layers leave on top of the defaults. -/
theorem foldl_applyTo_default (inFile inEnvironment : List Setting) :
    inEnvironment.foldl applyTo (inFile.foldl applyTo Config.default) =
      ⟨⟨chosen timeout? inFile inEnvironment 30, chosen maxIdlePerHost? inFile inEnvironment 10,
        chosen deadline? inFile inEnvironment none,
        chosen userAgent? inFile inEnvironment "dockyard/0.1.0"⟩,
        chosen plainHttp? inFile inEnvironment []⟩ := by
  have htimeout := read_layers (fun c => c.network.timeout) timeout? (by rintro c (_ | _) <;> rfl)
  have hidle := read_layers (fun c => c.network.maxIdlePerHost) maxIdlePerHost?
    (by rintro c (_ | _) <;> rfl)
  have hdeadline := read_layers (fun c => c.network.deadline) deadline? (by rintro c (_ | _) <;> rfl)
  have hagent := read_layers (fun c => c.network.userAgent) userAgent? (by rintro c (_ | _) <;> rfl)
  have hplain := read_layers Config.plainHttp plainHttp? (by rintro c (_ | _) <;> rfl)
  exact config_eq (htimeout inFile inEnvironment .default) (hidle inFile inEnvironment .default)
    (hdeadline inFile inEnvironment .default) (hagent inFile inEnvironment .default)
    (hplain inFile inEnvironment .default)

end Setting

/-! ### Trees that hold a configuration -/

/-- A tree in which every field stands at its place. -/
def Holds (v : Value) (c : Config) : Prop :=
  ∀ f : Field, v.at? f.sectionName f.name = some (f.valueIn c)

theorem holds_defaultSettings : Holds Config.defaultSettings Config.default := by
  intro f
  cases f <;> rfl

/-- One step: the tree and the configuration are changed in the same field. -/
theorem Holds.set {v : Value} {c : Config} (h : Holds v c) (s : Setting) :
    Holds (Value.set [.name s.field.sectionName, .name s.field.name] s.value v)
      (s.applyTo c) := by
  intro f
  by_cases hf : f = s.field
  · subst hf
    rw [Value.at?_set_self s.field.lowerName_name s.value_ne_table, s.valueIn_applyTo_self]
  · rw [Value.at?_set_ne s.field.lowerName_name fun hplace => hf (Field.place_injective hplace),
      h f, Setting.valueIn_applyTo_ne hf]

/-- A run of settings in one section, entered as a table. -/
theorem Holds.foldl_set {v : Value} {c : Config} (h : Holds v c) {sectionName : String}
    (hname : lowerName sectionName = sectionName) {settings : List Setting}
    (hsection : ∀ s ∈ settings, s.field.sectionName = sectionName) :
    Holds (Value.enter sectionName (.table (settings.map fun s => (s.field.name, s.value))) v)
      (settings.foldl Setting.applyTo c) := by
  induction settings generalizing v c with
  | nil =>
    intro f
    rw [List.map_nil, Value.at?_enter_section_nil hname]
    exact h f
  | cons s settings ih =>
    rw [List.map_cons, Value.enter_section_cons hname, List.foldl_cons]
    have hs : s.field.sectionName = sectionName := hsection s List.mem_cons_self
    refine ih ?_ fun s' hs' => hsection s' (List.mem_cons_of_mem s hs')
    rw [← hs]
    exact h.set s

/-- Setting what lies outside of the sections. -/
theorem Holds.set_outside {v : Value} {c : Config} (h : Holds v c) {setting : String} (x : Value)
    (houtside : Value.firstName (pathOf setting) ∉ sectionNames) :
    Holds (Value.set (pathOf setting) x v) c := by
  intro f
  have hne : f.sectionName ≠ Value.firstName (pathOf setting) := by
    intro heq
    apply houtside
    rw [← heq]
    cases f <;> decide
  rw [Value.at?, Value.get?_set_of_ne hne, ← Value.at?]
  exact h f

/-! ### Reading -/

theorem texts?_list (hosts : List String) : (Value.list (hosts.map .text)).texts? = some hosts := by
  rw [Value.texts?]
  induction hosts with
  | nil => rfl
  | cons host hosts ih => simp [Value.text?, ih]

theorem Value.read?_of_get? {α : Type} {v x : Value} {name : String} (h : v.get? name = some x)
    (place : Nat) (missing : α) (convert : Value → Option α) :
    v.read? name place missing convert = convert x := by
  cases v with
  | table entries =>
    have hfind : find? name entries = some x := h
    rw [Value.read?, Value.field?, hfind]
    rfl
  | _ => simp [Value.get?, Value.entries, find?] at h

theorem number?_natCast (n : Nat) : (Value.integer n).number? = some n := by
  simp [Value.number?]

theorem optionalNumber?_deadline (deadline : Option Nat) :
    (Setting.deadline deadline).value.optionalNumber? = some deadline := by
  cases deadline with
  | none => rfl
  | some n => simp [Setting.value, Value.optionalNumber?, number?_natCast]

/-- A tree that holds a configuration is read as that configuration. -/
theorem ofValue?_of_holds {v : Value} {c : Config} (h : Holds v c) : Config.ofValue? v = some c := by
  obtain ⟨network, hnetwork : v.get? "network" = some network, -⟩ :=
    Option.bind_eq_some_iff.1 (h .timeout)
  obtain ⟨registries, hregistries : v.get? "registries" = some registries,
    hplain : registries.get? "plain_http" = _⟩ := Option.bind_eq_some_iff.1 (h .plainHttp)
  have hmember : ∀ f : Field, f.sectionName = "network" →
      network.get? f.name = some (f.valueIn c) := by
    intro f hf
    have hplace := h f
    rwa [Value.at?, hf, hnetwork, Option.bind_some] at hplace
  have htimeout : network.get? "timeout" = _ := hmember .timeout rfl
  have hidle : network.get? "max_idle_per_host" = _ := hmember .maxIdlePerHost rfl
  have hdeadline : network.get? "deadline" = _ := hmember .deadline rfl
  have hagent : network.get? "user_agent" = _ := hmember .userAgent rfl
  have hread : NetworkConfig.ofValue? network = some c.network := by
    rw [NetworkConfig.ofValue?, Value.read?_of_get? htimeout, Value.read?_of_get? hidle,
      Value.read?_of_get? hdeadline, Value.read?_of_get? hagent]
    simp only [Field.valueIn, number?_natCast, optionalNumber?_deadline, Value.text?]
    rfl
  rw [Config.ofValue?, Value.read?_of_get? hnetwork, hread, Value.read?_of_get? hregistries,
    Value.read?_of_get? hplain, Field.valueIn, texts?_list]
  rfl

end ImageLookup.Settings
