import ImageLookup.Proofs.Settings.Fields

/-! # Layers of settings

A file writes settings as members of the sections of its root, and an environment writes them as
variables.  `RootSays` and `EnvironmentSays` go through what is written, and through what stands besides:
other members of the root, and variables that belong to no section.  Both kinds of layers are runs of
settings, so a configuration takes each setting from the environment if it is set there, from the file if
it is set there, and from the defaults otherwise (`load_layered`).

A file is a whole: a member of the root that no one reads must still have a value
(`load_unknown_not_finite`).
-/

namespace ImageLookup.Settings

/-! ### Files -/

def Setting.datum : Setting → Yaml.Datum
  | .timeout n | .maxIdlePerHost n | .deadline (some n) => .integer n
  | .deadline none => .null
  | .userAgent s => .text s.toList
  | .plainHttp hosts => .sequence (hosts.map fun host => .text host.toList)

def Setting.member (s : Setting) : Yaml.Datum × Yaml.Datum := (.text s.field.name.toList, s.datum)

/-- A name of lower-case letters and underscores at the root that is not the name of a section. -/
structure IsUnknownName (name : String) : Prop where
  letters : name.toList.all isSmallLetter = true
  unknown : name ∉ sectionNames

/-- What the members of a root say. -/
inductive RootSays : List (Yaml.Datum × Yaml.Datum) → List Setting → Prop
  | empty : RootSays [] []
  | ofSection {sectionName : String} {settings more : List Setting}
      {rest : List (Yaml.Datum × Yaml.Datum)} (hname : sectionName ∈ sectionNames)
      (hsection : ∀ s ∈ settings, s.field.sectionName = sectionName) (hrest : RootSays rest more) :
      RootSays ((.text sectionName.toList, .mapping (settings.map Setting.member)) :: rest)
        (settings ++ more)
  | ofUnknown {key datum : Yaml.Datum} {name : String} {settings : List Setting}
      {rest : List (Yaml.Datum × Yaml.Datum)} (hname : Value.nameOf? key = some name)
      (hunknown : IsUnknownName name) (hvalue : (Value.ofDatum? datum).isSome)
      (hrest : RootSays rest settings) : RootSays ((key, datum) :: rest) settings

/-- What a file says, or the lack of one. -/
inductive FileSays : Option Config.SettingsFile → List Setting → Prop
  | absent : FileSays none []
  | ofMapping {path text : String} {members : List (Yaml.Datum × Yaml.Datum)}
      {settings : List Setting}
      (hread : Yaml.read? (Config.withoutMark text).toList = some (.mapping members))
      (hmembers : RootSays members settings) : FileSays (some ⟨path, some text⟩) settings

theorem ofData?_hosts (hosts : List String) :
    Value.ofData? (hosts.map fun host => .text host.toList) = some (hosts.map .text) := by
  induction hosts with
  | nil => rfl
  | cons host hosts ih => simp [Value.ofData?, Value.ofDatum?, ih]

theorem ofDatum?_datum (s : Setting) : Value.ofDatum? s.datum = some s.value := by
  cases s with
  | timeout n => rfl
  | maxIdlePerHost n => rfl
  | deadline n => cases n <;> rfl
  | userAgent s => simp [Setting.datum, Value.ofDatum?, Setting.value]
  | plainHttp hosts => simp [Setting.datum, Value.ofDatum?, Setting.value, ofData?_hosts]

theorem ofPairs?_members (settings : List Setting) :
    Value.ofPairs? (settings.map Setting.member) =
      some (settings.map fun s => (s.field.name, s.value)) := by
  induction settings with
  | nil => rfl
  | cons s settings ih =>
    rw [List.map_cons, Setting.member, Value.ofPairs?, ofDatum?_datum, ih]
    simp [Value.nameOf?]

theorem lowerName_of_mem_sectionNames {sectionName : String} (h : sectionName ∈ sectionNames) :
    lowerName sectionName = sectionName ∧ pathOf sectionName = [.name sectionName] := by
  simp only [sectionNames, List.mem_cons, List.not_mem_nil, or_false] at h
  rcases h with rfl | rfl <;> exact ⟨by decide +kernel, by decide +kernel⟩

theorem firstName_of_isUnknownName {name : String} (h : IsUnknownName name) :
    Value.firstName (pathOf name) ∉ sectionNames := by
  rw [pathOf_of_letters h.letters, Value.firstName, lowerName_of_letters h.letters]
  exact h.unknown

/-- What a root says is what its layer does to a tree. -/
theorem RootSays.overlay {members : List (Yaml.Datum × Yaml.Datum)} {settings : List Setting}
    (h : RootSays members settings) : ∃ layer, Value.ofPairs? members = some layer ∧
      ∀ v c, Holds v c → Holds (v.overlay layer) (settings.foldl Setting.applyTo c) := by
  induction h with
  | empty => exact ⟨[], rfl, fun v c hv => hv⟩
  | @ofSection sectionName settings more rest hname hsection hrest ih =>
    obtain ⟨layer, hlayer, hholds⟩ := ih
    obtain ⟨hlower, hpath⟩ := lowerName_of_mem_sectionNames hname
    refine ⟨(sectionName, .table (settings.map fun s => (s.field.name, s.value))) :: layer, ?_, ?_⟩
    · rw [Value.ofPairs?, Value.ofDatum?, ofPairs?_members, hlayer]
      simp [Value.nameOf?]
    · intro v c hv
      rw [List.foldl_append, Value.overlay_cons, hpath]
      exact hholds _ _ (hv.foldl_set hlower hsection)
  | @ofUnknown key datum name settings rest hname hunknown hvalue hrest ih =>
    obtain ⟨layer, hlayer, hholds⟩ := ih
    obtain ⟨x, hx⟩ := Option.isSome_iff_exists.1 hvalue
    refine ⟨(name, x) :: layer, ?_, ?_⟩
    · rw [Value.ofPairs?, hname, hx, hlayer]
      rfl
    · intro v c hv
      exact hholds _ _ (hv.set_outside x (firstName_of_isUnknownName hunknown))

theorem FileSays.overlay {file : Option Config.SettingsFile} {settings : List Setting}
    (h : FileSays file settings) : ∃ layer, Config.fileLayer? file = some layer ∧
      ∀ v c, Holds v c → Holds (v.overlay layer) (settings.foldl Setting.applyTo c) := by
  cases h with
  | absent => exact ⟨[], rfl, fun v c hv => hv⟩
  | @ofMapping path text members settings hread hmembers =>
    obtain ⟨layer, hlayer, hholds⟩ := hmembers.overlay
    refine ⟨layer, ?_, hholds⟩
    simp [Config.fileLayer?, Config.layerOfYaml?, hread, Value.ofDatum?, hlayer]

/-! ### Environments -/

/-- Text that is read as neither a truth value nor a number. -/
structure IsPlainText (s : String) : Prop where
  notTrue : Text.lowerAscii s.toList ≠ "true".toList
  notFalse : Text.lowerAscii s.toList ≠ "false".toList
  notInteger : Text.integer64? 10 s.toList = none
  notDecimal : Text.decimal? s.toList = none

/-- How the value of a variable spells a setting. -/
def Setting.IsWrittenAs : Setting → String → Prop
  | .timeout n, value | .maxIdlePerHost n, value | .deadline (some n), value =>
    Text.integer64? 10 value.toList = some (n : Int)
  | .deadline none, _ => False
  | .userAgent s, value => value = s ∧ IsPlainText value
  | .plainHttp hosts, value => value = ",".intercalate hosts ∧ hosts ≠ [] ∧
      (∀ host ∈ hosts, ',' ∉ host.toList) ∧ IsPlainText value

def isForeign (variableName : String) : Bool :=
  (settingOf? variableName).all fun setting =>
    !sectionNames.contains (Value.firstName (pathOf setting))

example : isForeign "DOCKYARD_TOKEN" = true := by decide +kernel

example : isForeign "DOCKYARD_CONFIG" = true := by decide +kernel

/-- What the variables of an environment say.  The variable of a field may be written in any case. -/
inductive EnvironmentSays : Environment → List Setting → Prop
  | empty : EnvironmentSays [] []
  | ofSetting {variableName value : String} {env : Environment} {s : Setting}
      {settings : List Setting} (hname : settingOf? variableName = some s.field.path)
      (hvalue : s.IsWrittenAs value) (hrest : EnvironmentSays env settings) :
      EnvironmentSays ((variableName, value) :: env) (s :: settings)
  | ofForeign {variableName value : String} {env : Environment} {settings : List Setting}
      (hforeign : isForeign variableName = true) (hrest : EnvironmentSays env settings) :
      EnvironmentSays ((variableName, value) :: env) settings

theorem valueOf_of_integer64 {setting value : String} {i : Int}
    (h : Text.integer64? 10 value.toList = some i) : valueOf setting value = .integer i := by
  have hword : ∀ word : List Char, Text.integer64? 10 word = none →
      (Text.lowerAscii value.toList == word) = false := by
    intro word hnone
    rw [Text.lowerAscii_of_integer64 h, beq_eq_false_iff_ne]
    rintro rfl
    rw [hnone] at h
    cases h
  simp only [valueOf, hword "true".toList (by decide), hword "false".toList (by decide), h,
    Bool.false_eq_true, if_false]

/-- Text that is nothing else is a list for the one setting that holds a list. -/
theorem valueOf_of_isPlainText {setting value : String} (h : IsPlainText value) :
    valueOf setting value = if setting = listSetting then
      .list ((value.toList.splitOn ',').map fun part => .text (String.ofList part))
    else .text value := by
  simp only [valueOf, beq_eq_false_iff_ne.2 h.notTrue, beq_eq_false_iff_ne.2 h.notFalse,
    h.notInteger, h.notDecimal, Bool.false_eq_true, if_false]

/-- Texts without commas are told apart after they have been joined by commas. -/
theorem splitOn_joined_hosts {hosts : List String} (hne : hosts ≠ [])
    (hcomma : ∀ host ∈ hosts, ',' ∉ host.toList) :
    (",".intercalate hosts).toList.splitOn ',' = hosts.map String.toList := by
  rw [String.toList_intercalate]
  refine List.splitOn_intercalate ',' ?_ (by simpa using hne)
  intro part hpart
  obtain ⟨host, hhost, rfl⟩ := List.mem_map.1 hpart
  exact hcomma host hhost

theorem valueOf_of_isWrittenAs {s : Setting} {value : String} (h : s.IsWrittenAs value) :
    valueOf s.field.path value = s.value := by
  match s, h with
  | .timeout n, h | .maxIdlePerHost n, h | .deadline (some n), h => exact valueOf_of_integer64 h
  | .userAgent s, h =>
    obtain ⟨rfl, hplain⟩ := h
    have hpath : Field.userAgent.path ≠ listSetting := by decide
    exact (valueOf_of_isPlainText hplain).trans (if_neg hpath)
  | .plainHttp hosts, h =>
    obtain ⟨rfl, hne, hcomma, hplain⟩ := h
    have hpath : Field.plainHttp.path = listSetting := by decide
    rw [valueOf_of_isPlainText hplain, splitOn_joined_hosts hne hcomma]
    simp [Setting.field, Setting.value, hpath]

/-- A foreign variable is no setting, or one that lies outside of the sections. -/
theorem layer_of_isForeign {variableName : String} (h : isForeign variableName = true) (value : String)
    (env : Environment) : Environment.layer ((variableName, value) :: env) = env.layer ∨
      ∃ setting x, Value.firstName (pathOf setting) ∉ sectionNames ∧
        Environment.layer ((variableName, value) :: env) = (setting, x) :: env.layer := by
  cases hsetting : settingOf? variableName with
  | none =>
    left
    simp [Environment.layer, hsetting]
  | some setting =>
    right
    refine ⟨setting, valueOf setting value, ?_, by simp [Environment.layer, hsetting]⟩
    simpa [isForeign, hsetting] using h

/-- By induction on the variables, foreign ones among them. -/
theorem EnvironmentSays.overlay {env : Environment} {settings : List Setting}
    (h : EnvironmentSays env settings) {v : Value} {c : Config} (hv : Holds v c) :
    Holds (v.overlay env.layer) (settings.foldl Setting.applyTo c) := by
  induction h generalizing v c with
  | empty => exact hv
  | @ofSetting variableName value env s settings hname hvalue hrest ih =>
    have hlayer : Environment.layer ((variableName, value) :: env) =
        (s.field.path, s.value) :: env.layer := by
      simp [Environment.layer, hname, valueOf_of_isWrittenAs hvalue]
    rw [hlayer, Value.overlay_cons, s.field.pathOf_path, List.foldl_cons]
    exact ih (hv.set s)
  | @ofForeign variableName value env settings hforeign hrest ih =>
    rcases layer_of_isForeign hforeign value env with hlayer | ⟨setting, x, houtside, hlayer⟩
    · rw [hlayer]
      exact ih hv
    · rw [hlayer, Value.overlay_cons]
      exact ih (hv.set_outside x houtside)

/-! ### Foreign variables -/

/-- Two tables with the same sections. -/
structure SameSections (v w : Value) : Prop where
  left : v = .table v.entries
  right : w = .table w.entries
  sections : ∀ sectionName ∈ sectionNames, v.get? sectionName = w.get? sectionName

theorem set_eq_table (setting : String) (x v : Value) :
    Value.set (pathOf setting) x v = .table (Value.set (pathOf setting) x v).entries := by
  obtain ⟨f, hf⟩ := Value.exists_set_eq setting x
  rw [hf]
  rfl

/-- Trees that agree in their sections still do after the same setting. -/
theorem SameSections.set {v w : Value} (h : SameSections v w) (setting : String) (x : Value) :
    SameSections (Value.set (pathOf setting) x v) (Value.set (pathOf setting) x w) := by
  refine ⟨set_eq_table setting x v, set_eq_table setting x w, ?_⟩
  intro sectionName hmem
  obtain ⟨f, hf⟩ := Value.exists_set_eq setting x
  rw [hf, hf]
  by_cases hname : sectionName = Value.firstName (pathOf setting)
  · rw [← hname, Value.get?_alter_self, Value.get?_alter_self, h.sections sectionName hmem]
  · rw [Value.get?_alter_ne hname, Value.get?_alter_ne hname, h.sections sectionName hmem]

theorem SameSections.overlay {v w : Value} (h : SameSections v w) (layer : List (String × Value)) :
    SameSections (v.overlay layer) (w.overlay layer) := by
  induction layer generalizing v w with
  | nil => exact h
  | cons entry layer ih => exact ih (h.set entry.1 entry.2)

theorem SameSections.set_outside {v : Value} (hv : v = .table v.entries) {setting : String} (x : Value)
    (houtside : Value.firstName (pathOf setting) ∉ sectionNames) :
    SameSections (Value.set (pathOf setting) x v) v := by
  refine ⟨set_eq_table setting x v, hv, ?_⟩
  intro sectionName hmem
  exact Value.get?_set_of_ne fun heq => houtside (heq ▸ hmem)

/-- No reader looks outside of the sections. -/
theorem SameSections.ofValue?_eq {v w : Value} (h : SameSections v w) :
    Config.ofValue? v = Config.ofValue? w := by
  obtain ⟨entries, rfl⟩ : ∃ entries, v = .table entries := ⟨_, h.left⟩
  obtain ⟨entries', rfl⟩ : ∃ entries, w = .table entries := ⟨_, h.right⟩
  have hnetwork : find? "network" entries = find? "network" entries' :=
    h.sections "network" (by decide)
  have hregistries : find? "registries" entries = find? "registries" entries' :=
    h.sections "registries" (by decide)
  simp only [Config.ofValue?, Value.read?, Value.field?, hnetwork, hregistries]

theorem overlay_eq_table {v : Value} (hv : v = .table v.entries) (layer : List (String × Value)) :
    v.overlay layer = .table (v.overlay layer).entries := by
  induction layer generalizing v with
  | nil => exact hv
  | cons entry layer ih => exact ih (set_eq_table entry.1 entry.2 v)

theorem SameSections.of_foreign {v : Value} (hv : v = .table v.entries) {variableName : String}
    (h : isForeign variableName = true) (value : String) (env : Environment) :
    SameSections (v.overlay (Environment.layer ((variableName, value) :: env)))
      (v.overlay env.layer) := by
  rcases layer_of_isForeign h value env with hlayer | ⟨setting, x, houtside, hlayer⟩
  · rw [hlayer]
    exact ⟨overlay_eq_table hv _, overlay_eq_table hv _, fun _ _ => rfl⟩
  · rw [hlayer, Value.overlay_cons]
    exact (SameSections.set_outside hv x houtside).overlay env.layer

end ImageLookup.Settings

namespace ImageLookup.Config

open Settings

/-! ### Loading -/

section Load

variable {file : Option SettingsFile} {env : Environment}

theorem load_eq {layer : List (String × Value)} (h : fileLayer? file = some layer)
    (env : Environment) :
    load file env = match ofValue? ((defaultSettings.overlay layer).overlay env.layer) with
      | some c => .ok c
      | none => .error (loadFailure (file.map SettingsFile.path)) := by
  rw [load, h]
  rfl

/-- A foreign variable makes no difference, whatever else is set. -/
theorem load_foreign {variableName : String} (h : isForeign variableName = true) (value : String)
    (before after : Environment) (file : Option SettingsFile) :
    load file (before ++ (variableName, value) :: after) = load file (before ++ after) := by
  cases hfile : fileLayer? file with
  | none => rw [load, load, hfile]; rfl
  | some layer =>
    have hbase : ∀ rest : Environment,
        (defaultSettings.overlay layer).overlay (Environment.layer (before ++ rest)) =
          ((defaultSettings.overlay layer).overlay before.layer).overlay rest.layer := by
      intro rest
      rw [Environment.layer, List.filterMap_append, Value.overlay_append]
      rfl
    have htable := overlay_eq_table (overlay_eq_table (v := defaultSettings) rfl layer) before.layer
    rw [load_eq hfile, load_eq hfile, hbase, hbase,
      (SameSections.of_foreign htable h value after).ofValue?_eq]

/-- The configuration of a file and an environment that set some of the settings. -/
theorem load_eq_foldl {inFile inEnvironment : List Setting} (hfile : FileSays file inFile)
    (henv : EnvironmentSays env inEnvironment) :
    load file env =
      .ok (inEnvironment.foldl Setting.applyTo (inFile.foldl Setting.applyTo default)) := by
  obtain ⟨layer, hlayer, hholds⟩ := hfile.overlay
  have h := henv.overlay (hholds _ _ holds_defaultSettings)
  rw [load_eq hlayer, ofValue?_of_holds h]

end Load

/-- Each setting is the environment's if it is set there, the file's if it is set there, and the default
    otherwise.  And whatever the file holds, even if it cannot be read, a variable that belongs to no
    section makes no difference at all. -/
theorem load_layered :
    (∀ (file : Option SettingsFile) (env : Environment) (inFile inEnvironment : List Setting),
      FileSays file inFile → EnvironmentSays env inEnvironment →
      load file env = .ok
        ⟨⟨Setting.chosen Setting.timeout? inFile inEnvironment 30,
          Setting.chosen Setting.maxIdlePerHost? inFile inEnvironment 10,
          Setting.chosen Setting.deadline? inFile inEnvironment none,
          Setting.chosen Setting.userAgent? inFile inEnvironment "dockyard/0.1.0"⟩,
          Setting.chosen Setting.plainHttp? inFile inEnvironment []⟩) ∧
    ∀ (file : Option SettingsFile) (before after : Environment) (variableName value : String),
      isForeign variableName = true →
      load file (before ++ (variableName, value) :: after) = load file (before ++ after) := by
  constructor
  · intro file env inFile inEnvironment hfile henv
    rw [load_eq_foldl hfile henv, Setting.foldl_applyTo_default]
  · intro file before after variableName value hforeign
    exact load_foreign hforeign value before after file

/-- A file that sets three settings and has a member of its own, and an environment that sets two of them
    again and a third one, and holds variables of the program; and a file that cannot be read, under
    the environment that holds nothing else. -/
theorem load_layered_both :
    let text := "network: \x7btimeout: 12, deadline: 4\x7d\nregistries:\n  plain_http: [ghcr.io]\nmy_key: [1]\n"
    let env : Environment := [("DOCKYARD_NETWORK__TIMEOUT", toString 60), ("DOCKYARD_TOKEN", "true"),
      ("DOCKYARD_NETWORK__USER_AGENT", "agent"), ("DOCKYARD_CONFIG", "5"),
      ("DOCKYARD_REGISTRIES__PLAIN_HTTP", "localhost:5000,registry.local")]
    load (some ⟨"config.yaml", some text⟩) env =
      .ok ⟨⟨60, 10, some 4, "agent"⟩, ["localhost:5000", "registry.local"]⟩ ∧
    load (some ⟨"gone.yaml", none⟩) [("DOCKYARD_TOKEN", "true")] =
      load (some ⟨"gone.yaml", none⟩) [] := by
  intro text env
  let network : List Setting := [.timeout 12, .deadline (some 4)]
  let registries : List Setting := [.plainHttp ["ghcr.io"]]
  let inEnvironment : List Setting :=
    [.timeout 60, .userAgent "agent", .plainHttp ["localhost:5000", "registry.local"]]
  have hunknown : IsUnknownName "my_key" := ⟨by decide, by decide⟩
  have hroot : RootSays [(.text "network".toList, .mapping (network.map Setting.member)),
      (.text "registries".toList, .mapping (registries.map Setting.member)),
      (.text "my_key".toList, .sequence [.integer 1])] (network ++ registries) :=
    .ofSection (by decide) (by decide) (.ofSection (by decide) (by decide)
      (.ofUnknown (by decide) hunknown rfl .empty))
  have hfile : FileSays (some ⟨"config.yaml", some text⟩) (network ++ registries) :=
    .ofMapping (by decide +kernel) hroot
  have hagent : IsPlainText "agent" :=
    ⟨by decide +kernel, by decide +kernel, by decide +kernel, by decide +kernel⟩
  have hhosts : IsPlainText "localhost:5000,registry.local" :=
    ⟨by decide +kernel, by decide +kernel, by decide +kernel, by decide +kernel⟩
  have henv : EnvironmentSays env inEnvironment := by
    refine .ofSetting Field.timeout.settingOf?_variableName (Text.integer64?_toString (by decide)) ?_
    refine .ofForeign (by decide +kernel) ?_
    refine .ofSetting Field.userAgent.settingOf?_variableName ⟨rfl, hagent⟩ ?_
    refine .ofForeign (by decide +kernel) ?_
    exact .ofSetting Field.plainHttp.settingOf?_variableName ⟨rfl, by decide, by decide, hhosts⟩ .empty
  obtain ⟨hlayered, hforeign⟩ := load_layered
  exact ⟨hlayered _ env _ inEnvironment hfile henv,
    hforeign _ [] [] "DOCKYARD_TOKEN" "true" (by decide +kernel)⟩

/-- A member that no one reads, but that is not a finite number. -/
theorem load_unknown_not_finite :
    let text := "extra: .nan\n"
    (∃ datum, Yaml.read? text.toList = some (.mapping [(.text "extra".toList, datum)])) ∧
      IsUnknownName "extra" ∧
      load (some ⟨"config.yaml", some text⟩) [] = .error (loadFailure (some "config.yaml")) := by
  intro text
  have hread : Yaml.read? text.toList =
      some (.mapping [(.text "extra".toList, .real ".nan".toList)]) := by decide +kernel
  have hlayer : fileLayer? (some ⟨"config.yaml", some text⟩) = none :=
    Option.isNone_iff_eq_none.1 (by decide +kernel)
  refine ⟨⟨_, hread⟩, ⟨by decide, by decide⟩, ?_⟩
  rw [load, hlayer]
  rfl

end ImageLookup.Config
