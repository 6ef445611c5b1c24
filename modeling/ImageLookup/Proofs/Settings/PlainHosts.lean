import ImageLookup.Proofs.Settings.Layering
import ImageLookup.Reference.Words

/-! # Hosts that a variable lists

Hosts hold no commas, so a variable that joins them by commas gives them back.  Its value is read as a
list unless it is read as a truth value or a number first.  Where two hosts are joined there is a comma,
and a host with a port has a colon.  What is left is a single host that is a numeral, such as `1.5`: no
number is a list, and so nothing is loaded (`load_plainHosts`, `load_plainHosts_numeral`).
-/

namespace ImageLookup

open Settings

namespace Reference

theorem comma_not_mem_host {cs : List Char} (h : isHost cs = true) : ',' ∉ cs := by
  intro hcomma
  rcases mem_host h ',' hcomma with hname | hcolon
  · exact absurd hname (by decide)
  · exact absurd hcolon (by decide)

end Reference

namespace Settings

/-! ### What hosts are read as -/

/-- Some characters that truth values and integers do not have. -/
def isMark (c : Char) : Bool := c == ',' || c == '.' || c == ':' || c == 'o'

/-- A host has a dot, a colon or the letters of `localhost`, and so is neither a truth value nor an
    integer. -/
theorem exists_isMark_of_isHost {cs : List Char} (h : Reference.isHost cs = true) :
    ∃ c ∈ cs, isMark c = true := by
  rcases Reference.isHost_iff.1 h with ⟨-, hname⟩ | ⟨name, port, rfl, -, -⟩
  · rcases Bool.or_eq_true_iff.1 hname with hdot | hlocal
    · exact ⟨'.', by simpa using hdot, rfl⟩
    · exact ⟨'o', by rw [eq_of_beq hlocal]; decide, rfl⟩
  · exact ⟨':', by simp, rfl⟩

section Marks

variable {value : String} {c : Char}

theorem lowerAscii_ne_of_isMark (hc : c ∈ value.toList) (hmark : isMark c = true) {word : String}
    (hword : word.toList.any isMark = false) : Text.lowerAscii value.toList ≠ word.toList := by
  intro heq
  have hmem : c.toLower ∈ word.toList := by
    rw [← heq]
    exact List.mem_map_of_mem hc
  have hlower : c.toLower = c := by
    simp only [isMark, Bool.or_eq_true, beq_iff_eq] at hmark
    rcases hmark with ((rfl | rfl) | rfl) | rfl <;> rfl
  rw [List.any_eq_true.2 ⟨c, hlower ▸ hmem, hmark⟩] at hword
  cases hword

theorem integer64?_eq_none_of_isMark (hc : c ∈ value.toList) (hmark : isMark c = true) :
    Text.integer64? 10 value.toList = none := by
  refine Text.integer64?_eq_none_of_mem hc ?_
  simp only [isMark, Bool.or_eq_true, beq_iff_eq] at hmark
  rcases hmark with ((rfl | rfl) | rfl) | rfl <;> rfl

theorem isPlainText_of_isMark (hc : c ∈ value.toList) (hmark : isMark c = true)
    (hdecimal : Text.decimal? value.toList = none) : IsPlainText value where
  notTrue := lowerAscii_ne_of_isMark hc hmark rfl
  notFalse := lowerAscii_ne_of_isMark hc hmark rfl
  notInteger := integer64?_eq_none_of_isMark hc hmark
  notDecimal := hdecimal

theorem valueOf_of_isMark (hc : c ∈ value.toList) (hmark : isMark c = true) {x : Double}
    (hdecimal : Text.decimal? value.toList = some x) (setting : String) :
    valueOf setting value = .real x := by
  have htrue : Text.lowerAscii value.toList ≠ "true".toList :=
    lowerAscii_ne_of_isMark hc hmark rfl
  have hfalse : Text.lowerAscii value.toList ≠ "false".toList :=
    lowerAscii_ne_of_isMark hc hmark rfl
  simp only [valueOf, beq_eq_false_iff_ne.2 htrue, beq_eq_false_iff_ne.2 hfalse,
    integer64?_eq_none_of_isMark hc hmark, hdecimal, Bool.false_eq_true, if_false]

end Marks

/-- The hosts that are read as numbers are the numerals with a point. -/
theorem isSome_decimal?_iff_of_isHost {cs : List Char} (h : Reference.isHost cs = true) :
    (Text.decimal? cs).isSome = true ↔ Text.IsPointed cs := by
  by_cases hpoint : '.' ∈ cs
  · obtain ⟨c, rest, rfl, hc⟩ := Reference.isAlphanum_head_of_isHost h
    have hsign : Text.unsigned (c :: rest) = (false, c :: rest) := by
      unfold Text.unsigned
      split
      · rename_i heq
        rw [(List.cons.inj heq).1] at hc
        cases hc
      · rename_i heq
        rw [(List.cons.inj heq).1] at hc
        cases hc
      · rfl
    exact Text.isSome_decimal?_iff hsign hpoint
  · -- neither a port nor `localhost` belongs to a number
    refine iff_of_false ?_ fun hpointed => hpoint hpointed.point_mem
    rw [Option.not_isSome_iff_eq_none]
    rcases Reference.isHost_iff.1 h with ⟨-, hname⟩ | ⟨name, port, rfl, -, -⟩
    · rcases Bool.or_eq_true_iff.1 hname with hdot | hlocal
      · exact absurd (by simpa using hdot) hpoint
      · rw [eq_of_beq hlocal]
        decide +kernel
    · exact Text.decimal?_eq_none_of_mem (List.mem_append_right name List.mem_cons_self) rfl

/-- A single host that is a numeral. -/
def IsNumeral (hosts : List String) : Prop :=
  ∃ host, hosts = [host] ∧ Text.IsPointed host.toList

/-- With two hosts there is a comma; a single one is text unless it is a numeral. -/
theorem isPlainText_joined {hosts : List String} (hne : hosts ≠ [])
    (hhosts : ∀ host ∈ hosts, Reference.isHost host.toList = true) (hnumeral : ¬IsNumeral hosts) :
    IsPlainText (",".intercalate hosts) := by
  match hosts with
  | [] => exact absurd rfl hne
  | [host] =>
    have hhost := hhosts host List.mem_cons_self
    obtain ⟨c, hc, hmark⟩ := exists_isMark_of_isHost hhost
    rw [String.intercalate_singleton]
    refine isPlainText_of_isMark hc hmark ?_
    rw [← Option.not_isSome_iff_eq_none, isSome_decimal?_iff_of_isHost hhost]
    exact fun hpointed => hnumeral ⟨host, rfl, hpointed⟩
  | first :: second :: rest =>
    have hcomma : ',' ∈ (",".intercalate (first :: second :: rest)).toList := by
      rw [String.toList_intercalate, List.map_cons, List.map_cons, List.intercalate_cons_cons]
      simp
    exact isPlainText_of_isMark hcomma rfl (Text.decimal?_eq_none_of_mem hcomma rfl)

end Settings

/-! ### Addresses -/

namespace Client

/-- The scheme of an address tells whether the host is listed. -/
theorem http_prefix_contentUrl (c : Client) (r : Reference) (kind name : String) :
    "http://".toList <+: (c.contentUrl r kind name).toList ↔ r.host ∈ c.settings.plainHttpHosts := by
  rw [contentUrl, registryUrl, ClientSettings.isPlainHttp]
  by_cases h : r.host ∈ c.settings.plainHttpHosts
  · simp [h]
  · simp [h]

end Client

/-! ### Loading -/

namespace Config

/-- A configuration whose client reaches these hosts over `http`, and no others. -/
structure IsPlainFor (config : Config) (hosts : List String) : Prop where
  plainHttp : config.plainHttp = hosts
  client : ∀ isWeb, ∃ c, Client.ofSettings config.clientSettings isWeb = .ok c ∧
    ∀ (r : Reference) (d : Digest),
      ("http://".toList <+: (c.manifestUrl r).toList ↔ r.host ∈ hosts) ∧
        ("http://".toList <+: (c.blobUrl r d).toList ↔ r.host ∈ hosts)

theorem isPlainFor (hosts : List String) : IsPlainFor { default with plainHttp := hosts } hosts := by
  have hagent : Http.isHeaderValue NetworkConfig.default.userAgent = true :=
    Client.default.userAgentIsHeaderValue
  refine ⟨rfl, fun isWeb => ⟨⟨⟨_, _, _, hosts⟩, hagent, isWeb⟩, dif_pos hagent, ?_⟩⟩
  intro r d
  exact ⟨Client.http_prefix_contentUrl _ r _ _, Client.http_prefix_contentUrl _ r _ _⟩

theorem ofValue?_eq_none_of_plainHttp {v x : Value} (h : v.at? "registries" "plain_http" = some x)
    (hx : x.texts? = none) : ofValue? v = none := by
  obtain ⟨registries, hregistries, hplain⟩ := Option.bind_eq_some_iff.1 h
  rw [ofValue?, Value.read?_of_get? hregistries, Value.read?_of_get? hplain, hx]
  simp

/-- Only one variable counts among foreign ones. -/
theorem load_of_foreign {before after : Environment} (hbefore : ∀ e ∈ before, isForeign e.1 = true)
    (hafter : ∀ e ∈ after, isForeign e.1 = true) (file : Option SettingsFile) (e : String × String) :
    load file (before ++ e :: after) = load file [e] := by
  induction before with
  | nil =>
    induction after with
    | nil => rfl
    | cons next after ih =>
      have hnext := load_foreign (hafter next List.mem_cons_self) next.2 [e] after
      exact (hnext file).trans (ih fun e' he' => hafter e' (List.mem_cons_of_mem next he'))
  | cons first before ih =>
    have hfirst := load_foreign (hbefore first List.mem_cons_self) first.2 [] (before ++ e :: after)
    exact (hfirst file).trans (ih fun e' he' => hbefore e' (List.mem_cons_of_mem first he'))

section Hosts

variable {hosts : List String}

theorem load_of_not_isNumeral (hne : hosts ≠ [])
    (hhosts : ∀ host ∈ hosts, Reference.isHost host.toList = true) (hnumeral : ¬IsNumeral hosts) :
    load none [("DOCKYARD_REGISTRIES__PLAIN_HTTP", ",".intercalate hosts)] =
      .ok { default with plainHttp := hosts } := by
  have hvalue : (Setting.plainHttp hosts).IsWrittenAs (",".intercalate hosts) :=
    ⟨rfl, hne, fun host hhost => Reference.comma_not_mem_host (hhosts host hhost),
      isPlainText_joined hne hhosts hnumeral⟩
  exact load_eq_foldl .absent (.ofSetting Field.plainHttp.settingOf?_variableName hvalue .empty)

/-- A number is not a list of texts, and the load fails. -/
theorem load_of_isNumeral (hhosts : ∀ host ∈ hosts, Reference.isHost host.toList = true)
    (hnumeral : IsNumeral hosts) :
    load none [("DOCKYARD_REGISTRIES__PLAIN_HTTP", ",".intercalate hosts)] =
      .error (loadFailure none) := by
  obtain ⟨host, rfl, hpointed⟩ := hnumeral
  have hhost := hhosts host List.mem_cons_self
  obtain ⟨x, hx⟩ := Option.isSome_iff_exists.1 ((isSome_decimal?_iff_of_isHost hhost).2 hpointed)
  obtain ⟨c, hc, hmark⟩ := exists_isMark_of_isHost hhost
  have hname : settingOf? "DOCKYARD_REGISTRIES__PLAIN_HTTP" = some Field.plainHttp.path :=
    Field.plainHttp.settingOf?_variableName
  have hlayer : Environment.layer [("DOCKYARD_REGISTRIES__PLAIN_HTTP", host)] =
      [(Field.plainHttp.path, .real x)] := by
    simp [Environment.layer, hname, valueOf_of_isMark hc hmark hx]
  have hplace : (Value.set (pathOf Field.plainHttp.path) (.real x) defaultSettings).at?
      "registries" "plain_http" = some (.real x) := by
    rw [Field.pathOf_path]
    exact Value.at?_set_self Field.plainHttp.lowerName_name (by simp)
  have hfile : fileLayer? none = some [] := rfl
  rw [String.intercalate_singleton, load_eq hfile, hlayer, Value.overlay_nil, Value.overlay_cons,
    Value.overlay_nil, ofValue?_eq_none_of_plainHttp hplace rfl]
  rfl

end Hosts

/-- Hosts in a variable are loaded as they are, and exactly their registries are reached over `http`,
    unless the only host is a numeral.  Then nothing is loaded. -/
theorem load_plainHosts (hosts : List String) (before after : Environment) (hne : hosts ≠ [])
    (hhosts : ∀ host ∈ hosts, Reference.isHost host.toList = true)
    (hbefore : ∀ e ∈ before, isForeign e.1 = true) (hafter : ∀ e ∈ after, isForeign e.1 = true) :
    let loaded := load none
      (before ++ ("DOCKYARD_REGISTRIES__PLAIN_HTTP", ",".intercalate hosts) :: after)
    ((∃ config, loaded = .ok config ∧ config.IsPlainFor hosts) ↔ ¬IsNumeral hosts) ∧
      (IsNumeral hosts → loaded = .error (loadFailure none)) := by
  intro loaded
  have hloaded : loaded = load none [("DOCKYARD_REGISTRIES__PLAIN_HTTP", ",".intercalate hosts)] :=
    load_of_foreign hbefore hafter none _
  have herror : IsNumeral hosts → loaded = .error (loadFailure none) := fun hnumeral =>
    hloaded.trans (load_of_isNumeral hhosts hnumeral)
  refine ⟨⟨?_, ?_⟩, herror⟩
  · rintro ⟨config, hconfig, -⟩ hnumeral
    rw [herror hnumeral] at hconfig
    cases hconfig
  · intro hnumeral
    exact ⟨_, hloaded.trans (load_of_not_isNumeral hne hhosts hnumeral), isPlainFor hosts⟩

/-- A host with a port, next to a variable of the program. -/
theorem load_plainHosts_port :
    let loaded := load none [("DOCKYARD_TOKEN", "t"), ("DOCKYARD_REGISTRIES__PLAIN_HTTP", "1.5:80")]
    ∃ config, loaded = .ok config ∧ config.IsPlainFor ["1.5:80"] := by
  have hloaded := load_plainHosts ["1.5:80"] [("DOCKYARD_TOKEN", "t")] [] (by decide) (by decide +kernel)
    (by decide +kernel) (by decide)
  rw [String.intercalate_singleton] at hloaded
  refine hloaded.1.2 ?_
  rintro ⟨host, heq, hpointed⟩
  obtain rfl : "1.5:80" = host := by simpa using heq
  rw [← isSome_decimal?_iff_of_isHost (by decide +kernel)] at hpointed
  exact absurd hpointed (by decide +kernel)

/-- A host that is a numeral is not loaded. -/
theorem load_plainHosts_numeral :
    Reference.isHost "1.5".toList = true ∧
      load none [("DOCKYARD_REGISTRIES__PLAIN_HTTP", ",".intercalate ["1.5"])] =
        .error (loadFailure none) := by
  have hhost : Reference.isHost "1.5".toList = true := by decide +kernel
  have hpointed : Text.IsPointed "1.5".toList :=
    (isSome_decimal?_iff_of_isHost hhost).1 (by decide +kernel)
  exact ⟨hhost, load_of_isNumeral (by simpa using hhost) ⟨"1.5", rfl, hpointed⟩⟩

end Config

end ImageLookup
