import ImageLookup.Proofs.Settings.Numerals
import ImageLookup.Settings.Config

/-! # Places of settings

Every setting of a configuration has its place in the tree: a name in a section.  A path that leads past
the section leaves the place alone, whatever is set there, and so does a path to another name of the same
section.  A table that is entered as a section is the same as its entries, each set at its own place.
-/

namespace ImageLookup.Settings

/-! ### Plain names -/

def isSmallLetter (c : Char) : Bool := c.isLower || c == '_'

theorem lowerChar_eq_self {c : Char} (h : isSmallLetter c = true) : lowerChar c = c := by
  simp only [isSmallLetter, Bool.or_eq_true, beq_iff_eq] at h
  rcases h with h | rfl
  · have hrange := Text.toNat_of_isLower h
    have hkelvin : (c == '\u212a') = false := by
      rw [beq_eq_false_iff_ne]
      rintro rfl
      exact absurd hrange (by decide)
    rw [lowerChar, hkelvin]
    exact Text.toLower_eq_self (by omega)
  · rfl

theorem isPathChar_of_isSmallLetter {c : Char} (h : isSmallLetter c = true) :
    isPathChar c = true := by
  simp only [isSmallLetter, Bool.or_eq_true, beq_iff_eq] at h
  rcases h with h | rfl
  · simp [isPathChar, Text.isAlphanum_of_isLower h]
  · rfl

/-- A name without dots and brackets is not taken apart. -/
theorem pathOf_of_letters {name : String} (h : name.toList.all isSmallLetter = true) :
    pathOf name = [.name name] := by
  have hall : ∀ c ∈ name.toList, isPathChar c = true := fun c hc =>
    isPathChar_of_isSmallLetter (List.all_eq_true.1 h c hc)
  have htake : name.toList.takeWhile isPathChar = name.toList := by
    simpa using @List.takeWhile_append_of_pos _ isPathChar name.toList [] hall
  have hdrop : name.toList.dropWhile isPathChar = [] := by
    simpa using @List.dropWhile_append_of_pos _ isPathChar name.toList [] hall
  rw [pathOf, path?]
  simp only [htake, hdrop]
  split
  · rfl
  · simp [steps?]

theorem lowerName_of_letters {name : String} (h : name.toList.all isSmallLetter = true) :
    lowerName name = name := by
  have hletters := List.all_eq_true.1 h
  rw [lowerName, List.map_congr_left fun c hc => lowerChar_eq_self (hletters c hc), List.map_id',
    String.ofList_toList]

/-! ### Entries -/

theorem alter_alter (name : String) (f g : Option Value → Value) (entries : List (String × Value)) :
    alter name f (alter name g entries) = alter name (fun old => f (some (g old))) entries := by
  induction entries with
  | nil => simp [alter]
  | cons e rest ih =>
    obtain ⟨k, v⟩ := e
    by_cases hk : name = k <;> simp [alter, hk, ih]

namespace Value

variable {name other sectionName : String} {v x : Value}

def at? (sectionName name : String) (v : Value) : Option Value :=
  (v.get? sectionName).bind (get? name)

theorem get?_alter_self (name : String) (f : Option Value → Value) (v : Value) :
    get? name (.table (alter name f v.entries)) = some (f (get? name v)) :=
  find?_alter_self name f v.entries

theorem get?_alter_ne (h : other ≠ name) (f : Option Value → Value) (v : Value) :
    get? other (.table (alter name f v.entries)) = get? other v :=
  find?_alter_ne h f v.entries

/-! ### Entering -/

/-- What is entered reads the target's entries only. -/
theorem exists_enter_eq (name : String) (x : Value) :
    ∃ f, ∀ v, enter name x v = .table (alter (lowerName name) f v.entries) := by
  cases x with
  | table incoming => exact ⟨_, fun v => by rw [enter]⟩
  | _ => exact ⟨_, fun v => by rw [enter]; simp⟩

theorem enter_null (name : String) (x : Value) : enter name x .null = enter name x (.table []) := by
  obtain ⟨f, hf⟩ := exists_enter_eq name x
  rw [hf, hf]
  rfl

theorem get?_enter_self (hname : lowerName name = name) (hx : ∀ entries, x ≠ .table entries) :
    get? name (enter name x v) = some x := by
  have henter : enter name x v = .table (alter name (fun _ => x) v.entries) := by
    rw [enter, hname]
    exact hx
  rw [henter, get?_alter_self]

theorem get?_enter_ne (hname : lowerName name = name) (h : other ≠ name) :
    get? other (enter name x v) = get? other v := by
  obtain ⟨f, hf⟩ := exists_enter_eq name x
  rw [hf, hname, get?_alter_ne h]

/-! ### Setting -/

/-- The name at the root of the tree that a path leads to. -/
def firstName : List Step → String
  | [.name s] => lowerName s
  | .name s :: _ => s
  | _ => ""

theorem exists_pathOf_eq (setting : String) : ∃ first rest, pathOf setting = .name first :: rest := by
  unfold pathOf
  cases hpath : path? setting with
  | none => exact ⟨setting, [], rfl⟩
  | some path =>
    simp only [path?] at hpath
    split at hpath
    · cases hpath
    · obtain ⟨rest, -, rfl⟩ := Option.map_eq_some_iff.1 hpath
      exact ⟨_, rest, rfl⟩

/-- Setting changes what stands under the first name of the path, and nothing else. -/
theorem exists_set_eq (setting : String) (x : Value) : ∃ f, ∀ v,
    set (pathOf setting) x v = .table (alter (firstName (pathOf setting)) f v.entries) := by
  obtain ⟨first, rest, hpath⟩ := exists_pathOf_eq setting
  rw [hpath]
  cases rest with
  | nil => exact exists_enter_eq first x
  | cons step rest => exact ⟨_, fun v => rfl⟩

/-- A path leaves alone what stands under other names at the root. -/
theorem get?_set_of_ne {setting : String} (h : sectionName ≠ firstName (pathOf setting)) :
    get? sectionName (set (pathOf setting) x v) = get? sectionName v := by
  obtain ⟨f, hf⟩ := exists_set_eq setting x
  rw [hf, get?_alter_ne h]

theorem overlay_nil (v : Value) : v.overlay [] = v := rfl

theorem overlay_cons (setting : String) (x : Value) (layer : List (String × Value)) (v : Value) :
    v.overlay ((setting, x) :: layer) = (set (pathOf setting) x v).overlay layer := rfl

theorem overlay_append (first second : List (String × Value)) (v : Value) :
    v.overlay (first ++ second) = (v.overlay first).overlay second :=
  List.foldl_append

/-! ### Setting in a section -/

theorem at?_set_self (hname : lowerName name = name) (hx : ∀ entries, x ≠ .table entries) :
    at? sectionName name (set [.name sectionName, .name name] x v) = some x := by
  have hset : get? sectionName (set [.name sectionName, .name name] x v) =
      some (enter name x ((get? sectionName v).getD .null)) := get?_alter_self ..
  rw [at?, hset, Option.bind_some, get?_enter_self hname hx]

/-- Setting one field leaves all other fields as they were. -/
theorem at?_set_ne {otherSection : String} (hname : lowerName name = name)
    (h : (otherSection, other) ≠ (sectionName, name)) :
    at? otherSection other (set [.name sectionName, .name name] x v) =
      at? otherSection other v := by
  by_cases hsection : otherSection = sectionName
  · subst hsection
    have hother : other ≠ name := fun heq => h (by rw [heq])
    have hset : get? otherSection (set [.name otherSection, .name name] x v) =
        some (enter name x ((get? otherSection v).getD .null)) := get?_alter_self ..
    rw [at?, hset, Option.bind_some, get?_enter_ne hname hother, at?]
    cases get? otherSection v <;> rfl
  · have hset : get? otherSection (set [.name sectionName, .name name] x v) =
        get? otherSection v := get?_alter_ne hsection ..
    rw [at?, hset, at?]

/-! ### Entering sections -/

theorem enter_section_cons (hsection : lowerName sectionName = sectionName)
    (rest : List (String × Value)) :
    enter sectionName (.table ((name, x) :: rest)) v =
      enter sectionName (.table rest) (set [.name sectionName, .name name] x v) := by
  have hset : set [.name sectionName, .name name] x v = .table (alter sectionName
      (fun old => enter name x (old.getD .null)) v.entries) := rfl
  rw [enter, enter, hset, hsection, entries, alter_alter]
  congr 2
  funext old
  rw [enterAll]
  cases old with
  | none => simp [enter_null]
  | some old => rfl

theorem at?_enter_section_nil (hsection : lowerName sectionName = sectionName)
    {otherSection : String} :
    at? otherSection other (enter sectionName (.table []) v) = at? otherSection other v := by
  rw [enter, hsection]
  by_cases hother : otherSection = sectionName
  · subst hother
    rw [at?, get?_alter_self, enterAll, at?]
    cases get? otherSection v <;> rfl
  · rw [at?, get?_alter_ne hother, at?]

end Value

end ImageLookup.Settings
