import ImageLookup.CommandLine.Program
import ImageLookup.Proofs.Json.RoundTrip
import ImageLookup.Proofs.Reference.Canonical

/-! # Reports as documents

What is reported for programs can be read by programs: the document has the fields of the report, each
once and with its value unchanged, whatever characters stand in it.  The text of a reference may be
taken from the document and be read again.
-/

namespace ImageLookup.Report

open Json (Value ReadsAs)

/-! ### Documents of items -/

def Item.members (i : Item) : List (String × Value) := i.fields.map fun f => (f.1, f.2.toJson)

/-- The document of an item is read as a value, without the blanks at its end and on its line. -/
structure IsDocumentOf (v : Value) (i : Item) (color : Bool) : Prop where
  trimmed : Value.read? (Text.octets (String.ofList
    (Text.trimEnd (i.write .json color).toList))) = some v
  printed : Value.read? (Text.octets
    (CommandLine.Output.result (i.write .json color)).stdout) = some v

theorem readsAs_field (layout : Json.Layout) (room : Nat) (f : Field) :
    ReadsAs layout room f.toJson f.toJson := by
  cases f with
  | text s => exact Json.readsAs_text layout room s
  | flag b => exact Json.readsAs_bool layout room b

theorem readsAs_item (i : Item) :
    ReadsAs .pretty Json.depthLimit i.toJson (.object (Json.entered i.members [])) := by
  apply Json.readsAs_object Json.Layout.isBlank_pretty
  intro member hmember
  obtain ⟨f, -, rfl⟩ := List.mem_map.1 hmember
  exact readsAs_field .pretty _ f.2

/-- Colour makes no difference to a document. -/
theorem trimEnd_json (i : Item) (color : Bool) :
    Text.trimEnd (i.write .json color).toList = i.toJson.pretty := by
  have hlast : i.toJson.pretty.getLast? = some '\x7d' := Json.getLast?_print_object .pretty 0 i.members
  rw [Item.write, String.toList_ofList]
  apply Text.trimEnd_eq_self
  intro c hc
  rw [hlast] at hc
  obtain rfl := Option.some.inj hc
  decide

theorem isDocumentOf_entered (i : Item) (color : Bool) :
    IsDocumentOf (.object (Json.entered i.members [])) i color where
  trimmed := by
    have hread := Json.read?_print [] (readsAs_item i) (by simp)
    rwa [List.append_nil, ← Value.pretty, ← trimEnd_json i color] at hread
  printed := by
    have hread := Json.read?_print ['\n'] (readsAs_item i) (List.forall_mem_singleton.2 rfl)
    rw [← Value.pretty, ← trimEnd_json i color, String.ofList_append] at hread
    exact hread

/-- The document of an item with distinct fields has these fields as its members. -/
theorem exists_document (i : Item) (color : Bool) (h : (i.fields.map Prod.fst).Nodup) :
    ∃ members, IsDocumentOf (.object members) i color ∧ members.Perm i.members := by
  refine ⟨_, isDocumentOf_entered i color, ?_⟩
  have hnodup : ((i.members ++ []).map Prod.fst).Nodup := by
    rw [List.append_nil, Item.members, List.map_map]
    exact h
  have hperm := Json.perm_entered hnodup
  rwa [List.append_nil] at hperm

/-! ### What the documents tell -/

theorem exists_reference_of_parse {raw : String} {i : Item} (h : parse raw = .ok i) :
    ∃ r, Reference.parse raw = .ok r ∧ i = ofReference raw r := by
  rw [parse] at h
  cases hparse : Reference.parse raw with
  | error f =>
    rw [hparse] at h
    cases h
  | ok r =>
    rw [hparse] at h
    exact ⟨r, rfl, (Except.ok.inj h).symm⟩

def targetMember : Target → String × Value
  | .tag name => ("tag", .text name)
  | .digest d => ("digest", .text d.text)

/-- Members that tell how a text was read: the text and its reference can be had from them again. -/
structure DescribesReading (members : List (String × Value)) (raw : String) (r : Reference) :
    Prop where
  fields : members.Perm [("input", .text raw), ("canonical", .text r.text),
    ("registry", .text r.host), ("repository", .text r.repository), targetMember r.target]
  input : ∀ s, ("input", .text s) ∈ members → Reference.parse s = .ok r
  canonical : ∀ s, ("canonical", .text s) ∈ members → Reference.parse s = .ok r

/-- Members that tell what was found out about an image. -/
structure DescribesResolution (members : List (String × Value)) (resolution : Resolution) :
    Prop where
  fields : members.Perm [("image", .text resolution.reference.text),
    ("exists", .bool resolution.imageExists),
    ("availability", .text resolution.availability.text),
    ("working_directory", .text resolution.workingDirectory)]
  present : ("exists", .bool true) ∈ members ↔ ("availability", .text "present") ∈ members

theorem members_ofReference (raw : String) (r : Reference) :
    (ofReference raw r).members = [("input", .text raw), ("canonical", .text r.text),
      ("registry", .text r.host), ("repository", .text r.repository), targetMember r.target] := by
  obtain ⟨host, repository, target⟩ := r
  cases target with
  | tag name => rfl
  | digest d => rfl

/-- The fields of a report have names of their own, so none replaces another in the document. -/
theorem nodup_ofReference (raw : String) (r : Reference) :
    ((ofReference raw r).fields.map Prod.fst).Nodup := by
  obtain ⟨host, repository, target⟩ := r
  cases target with
  | tag name =>
    show ["input", "canonical", "registry", "repository", "tag"].Nodup
    decide
  | digest d =>
    show ["input", "canonical", "registry", "repository", "digest"].Nodup
    decide

theorem nodup_ofResolution (resolution : Resolution) :
    ((ofResolution resolution).fields.map Prod.fst).Nodup := by
  show ["image", "exists", "availability", "working_directory"].Nodup
  decide

/-- The order of the members does not matter for what they tell. -/
theorem describesReading {members : List (String × Value)} {raw : String} {r : Reference}
    (hparse : Reference.parse raw = .ok r) (h : members.Perm (ofReference raw r).members) :
    DescribesReading members raw r := by
  have hcanonical := Reference.parse_text (Reference.isCanonical_of_parse hparse)
  rw [members_ofReference] at h
  have htarget : ∀ s, ("input", Value.text s) ≠ targetMember r.target ∧
      ("canonical", Value.text s) ≠ targetMember r.target := by
    intro s
    cases r.target <;> simp [targetMember]
  refine ⟨h, ?_, ?_⟩
  · intro s hs
    have hinput : s = raw := by simpa [htarget s] using h.mem_iff.1 hs
    rw [hinput, hparse]
  · intro s hs
    have htext : s = r.text := by simpa [htarget s] using h.mem_iff.1 hs
    rw [htext, hcanonical]

theorem describesResolution {members : List (String × Value)} {resolution : Resolution}
    (h : members.Perm (ofResolution resolution).members) :
    DescribesResolution members resolution := by
  refine ⟨h, ?_⟩
  rw [h.mem_iff, h.mem_iff]
  obtain ⟨reference, availability, directory⟩ := resolution
  cases availability <;>
    simp [Item.members, ofResolution, Field.toJson, Resolution.imageExists, Availability.text]

/-- Whatever the text and whatever the registry says, and with colour or without.  The document about
    a text that was read has the text as it was given, the canonical text and its parts as members,
    and no others; both texts that it holds are read as that one reference.  The document about an
    image has what was found out as members, and no others, and tells that the image exists exactly
    if it tells that it is present. -/
theorem documents_faithful :
    (∀ raw i, parse raw = .ok i → ∃ r, Reference.parse raw = .ok r ∧
      ∀ color, ∃ members, IsDocumentOf (.object members) i color ∧
        DescribesReading members raw r) ∧
    ∀ resolution color, ∃ members, IsDocumentOf (.object members) (ofResolution resolution) color ∧
      DescribesResolution members resolution := by
  constructor
  · intro raw i hi
    obtain ⟨r, hparse, rfl⟩ := exists_reference_of_parse hi
    refine ⟨r, hparse, fun color => ?_⟩
    obtain ⟨members, hdocument, hperm⟩ := exists_document _ color (nodup_ofReference raw r)
    exact ⟨members, hdocument, describesReading hparse hperm⟩
  · intro resolution color
    obtain ⟨members, hdocument, hperm⟩ := exists_document _ color (nodup_ofResolution resolution)
    exact ⟨members, hdocument, describesResolution hperm⟩

/-- The blanks around a reference are in the document, and are no part of what is read. -/
theorem documents_faithful_blanks :
    let raw := "\tnginx:1.28\n"
    let r : Reference := ⟨"registry-1.docker.io", "library/nginx", .tag "1.28"⟩
    parse raw = .ok (ofReference raw r) ∧
      ∃ members, IsDocumentOf (.object members) (ofReference raw r) true ∧
        ("input", .text raw) ∈ members ∧
        ("canonical", .text "registry-1.docker.io/library/nginx:1.28") ∈ members ∧
        ("tag", .text "1.28") ∈ members ∧ members.length = 5 := by
  intro raw r
  have hread : parse raw = .ok (ofReference raw r) := by decide +kernel
  have hparse : Reference.parse raw = .ok r := by decide +kernel
  obtain ⟨r', hparse', hdocuments⟩ := documents_faithful.1 raw _ hread
  obtain rfl := Except.ok.inj (hparse.symm.trans hparse')
  obtain ⟨members, hdocument, hdescribes⟩ := hdocuments true
  have htext : r.text = "registry-1.docker.io/library/nginx:1.28" := by decide +kernel
  have hmem (member : String × Value) := hdescribes.fields.mem_iff (a := member)
  rw [htext] at hmem
  refine ⟨hread, members, hdocument, (hmem _).2 ?_, (hmem _).2 ?_, (hmem _).2 ?_,
    hdescribes.fields.length_eq⟩
  · simp
  · simp
  · simp [targetMember, r]

end ImageLookup.Report
