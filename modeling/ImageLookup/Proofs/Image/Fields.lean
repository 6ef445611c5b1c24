import ImageLookup.ImageDocument
import ImageLookup.Proofs.Json.Paths

/-! # Fields of image documents

A field is what stands at the end of its own path, if that is of the right kind.  Everything else
about a document, the kinds of its other members and of the values on the way included, has no part
in it: two bodies that hold the same text at a path, or both hold no text there, give the same field.
-/

namespace ImageLookup

open Json (Value)

variable {v w : Value} {body body' : Octets} {path : List String}

/-- Two values hold the same value of a kind at the end of a path, or both hold none of that kind
    there. -/
def SameAt {α : Type} (kind : α → Value) (path : List String) (v w : Value) : Prop :=
  ∀ x, v.Holds path (kind x) ↔ w.Holds path (kind x)

/-- Every field of a manifest is the text or the array at the end of its path; in place of another
    media type stands the type of the answer. -/
structure Manifest.ReadsFrom (m : Manifest) (v : Value) (contentType : Option String) : Prop where
  mediaType : ∀ s, v.Holds ["mediaType"] (.text s) → m.mediaType = some s
  contentType : (∀ s, ¬v.Holds ["mediaType"] (.text s)) → m.mediaType = contentType
  configText : ∀ s, m.configText = some s ↔ v.Holds ["config", "digest"] (.text s) ∧ s ≠ ""
  layers : ∀ items, v.Holds ["layers"] (.array items) → m.layers = items
  noLayers : (∀ items, ¬v.Holds ["layers"] (.array items)) → m.layers = []

/-- The directory of a configuration is the text at the end of its path, unless that is empty. -/
structure ImageConfig.ReadsFrom (c : ImageConfig) (v : Value) : Prop where
  directory : ∀ s, v.Holds ["config", "WorkingDir"] (.text s) → s ≠ "" → c.workingDirectory = s
  noDirectory : (∀ s, v.Holds ["config", "WorkingDir"] (.text s) → s = "") →
    c.workingDirectory = "/"

/-! ### Values at the end of a path -/

theorem documentOf_eq (h : Value.read? body = some v) : documentOf body = v := by
  rw [documentOf, h, Option.getD_some]

theorem documentOf_eq_null (h : Value.read? body = none) : documentOf body = .null := by
  rw [documentOf, h, Option.getD_none]

/-- A reader takes the values of one kind, and what it takes from them is what they were made of. -/
def TakesKind {α : Type} (reader? : Value → Option α) (kind : α → Value) : Prop :=
  ∀ v x, reader? v = some x ↔ v = kind x

theorem takesKind_asText? : TakesKind Value.asText? .text := by
  intro v s
  cases v <;> simp [Value.asText?]

theorem takesKind_asArray? : TakesKind Value.asArray? .array := by
  intro v items
  cases v <;> simp [Value.asArray?]

section

variable {α : Type} {reader? : Value → Option α} {kind : α → Value} {x : α}

/-- A field is found by its reader if and only if it stands at its path and has the right kind. -/
theorem TakesKind.at_iff (hkind : TakesKind reader? kind) (h : v.WellKeyed) :
    (v.at? path).bind reader? = some x ↔ v.Holds path (kind x) := by
  rw [Option.bind_eq_some_iff, ← h.at?_eq_some_iff]
  constructor
  · rintro ⟨w, hw, hx⟩
    rwa [← (hkind w x).1 hx]
  · intro hw
    exact ⟨kind x, hw, (hkind _ x).2 rfl⟩

theorem TakesKind.at_eq_none (hkind : TakesKind reader? kind) (h : v.WellKeyed)
    (hnone : ∀ x, ¬v.Holds path (kind x)) : (v.at? path).bind reader? = none :=
  Option.eq_none_iff_forall_ne_some.2 fun x hx => hnone x ((hkind.at_iff h).1 hx)

/-- A field depends on what stands at its own path, and on nothing else in the document. -/
theorem TakesKind.at_eq (hkind : TakesKind reader? kind) (hv : v.WellKeyed) (hw : w.WellKeyed)
    (h : SameAt kind path v w) : (v.at? path).bind reader? = (w.at? path).bind reader? := by
  apply Option.ext
  intro x
  rw [hkind.at_iff hv, hkind.at_iff hw]
  exact h x

end

theorem textAt?_eq_some_iff (h : v.WellKeyed) {s : String} :
    textAt? v path = some s ↔ v.Holds path (.text s) := takesKind_asText?.at_iff h

/-! ### Fields -/

theorem Manifest.readsFrom_ofBody (h : Value.read? body = some v) (contentType : Option String) :
    (Manifest.ofBody body contentType).ReadsFrom v contentType := by
  have hkeyed := Value.wellKeyed_of_read? h
  rw [ofBody, documentOf_eq h]
  refine ⟨?_, ?_, ?_, ?_, ?_⟩
  · intro s hs
    rw [(textAt?_eq_some_iff hkeyed).2 hs, Option.some_or]
  · intro hnone
    rw [textAt?, takesKind_asText?.at_eq_none hkeyed hnone, Option.none_or]
  · intro s
    rw [Option.filter_eq_some_iff, textAt?_eq_some_iff hkeyed, bne_iff_ne]
  · intro items hitems
    rw [(takesKind_asArray?.at_iff hkeyed).2 hitems, Option.getD_some]
  · intro hnone
    rw [takesKind_asArray?.at_eq_none hkeyed hnone, Option.getD_none]

theorem ImageConfig.workingDirectory_eq (c : ImageConfig) :
    c.workingDirectory = (c.workingDirectory?.filter (· != "")).getD defaultDirectory := by
  rw [workingDirectory]
  split
  case h_1 h =>
    rw [h]
    rfl
  case h_2 h =>
    rw [h]
    rfl
  case h_3 directory hne h =>
    rw [h, Option.filter_some_pos (by simpa using hne), Option.getD_some]

theorem ImageConfig.readsFrom_ofBody (h : Value.read? body = some v) :
    (ImageConfig.ofBody body).ReadsFrom v := by
  have hkeyed := Value.wellKeyed_of_read? h
  rw [ofBody, documentOf_eq h]
  refine ⟨?_, ?_⟩
  · intro s hs hne
    rw [workingDirectory_eq, (textAt?_eq_some_iff hkeyed).2 hs,
      Option.filter_some_pos (by simpa using hne), Option.getD_some]
  · intro hempty
    have hnone : (textAt? v ["config", "WorkingDir"]).filter (· != "") = none := by
      rw [Option.filter_eq_none_iff]
      intro s hs
      simp [hempty s ((textAt?_eq_some_iff hkeyed).1 hs)]
    rw [workingDirectory_eq, hnone]
    rfl

/-- Every body has its fields, each by itself.  A body that is no document has none; in a document each
    field is what stands at the end of its path, if that is of the right kind; and two documents have
    a field in common as soon as they agree at the end of its path, or have nothing of the right kind
    there. -/
theorem fields_independent :
    (∀ body contentType, Value.read? body = none →
      Manifest.ofBody body contentType = ⟨contentType, none, [], none⟩ ∧
        (ImageConfig.ofBody body).workingDirectory = "/") ∧
    (∀ body v, Value.read? body = some v →
      (∀ contentType, (Manifest.ofBody body contentType).ReadsFrom v contentType) ∧
        (ImageConfig.ofBody body).ReadsFrom v) ∧
    ∀ body body' v w, Value.read? body = some v → Value.read? body' = some w →
      (SameAt .text ["mediaType"] v w → ∀ contentType,
        (Manifest.ofBody body contentType).mediaType =
          (Manifest.ofBody body' contentType).mediaType) ∧
      (SameAt .text ["config", "digest"] v w → ∀ contentType contentType',
        (Manifest.ofBody body contentType).configText =
          (Manifest.ofBody body' contentType').configText) ∧
      (SameAt .array ["layers"] v w → ∀ contentType contentType',
        (Manifest.ofBody body contentType).layers =
          (Manifest.ofBody body' contentType').layers) ∧
      (SameAt .text ["config", "WorkingDir"] v w →
        (ImageConfig.ofBody body).workingDirectory =
          (ImageConfig.ofBody body').workingDirectory) := by
  refine ⟨?_, ?_, ?_⟩
  · intro body contentType h
    rw [Manifest.ofBody, ImageConfig.ofBody, documentOf_eq_null h]
    exact ⟨rfl, rfl⟩
  · intro body v h
    exact ⟨Manifest.readsFrom_ofBody h, ImageConfig.readsFrom_ofBody h⟩
  · intro body body' v w hv hw
    have hv' := Value.wellKeyed_of_read? hv
    have hw' := Value.wellKeyed_of_read? hw
    simp only [Manifest.ofBody, ImageConfig.ofBody, documentOf_eq hv, documentOf_eq hw]
    refine ⟨?_, ?_, ?_, ?_⟩
    · intro h contentType
      rw [textAt?, textAt?, takesKind_asText?.at_eq hv' hw' h]
    · intro h _ _
      rw [textAt?, textAt?, takesKind_asText?.at_eq hv' hw' h]
    · intro h _ _
      rw [takesKind_asArray?.at_eq hv' hw' h]
    · intro h
      rw [textAt?, textAt?, takesKind_asText?.at_eq hv' hw' h]

/-- A number for a media type, a text for the configuration, and another member: the fields are those
    of the document with the layers alone. -/
theorem fields_independent_odd :
    let odd := Text.octets
      "\x7b\"config\":\"nope\",\"layers\":[\x7b\x7d,null],\"mediaType\":5,\"x\":[]\x7d"
    let plain := Text.octets "\x7b\"layers\":[\x7b\x7d,null]\x7d"
    let type := some "application/json"
    (Manifest.ofBody odd type).mediaType = (Manifest.ofBody plain type).mediaType ∧
      (Manifest.ofBody odd type).layers = [.object [], .null] ∧
      (ImageConfig.ofBody odd).workingDirectory = (ImageConfig.ofBody plain).workingDirectory ∧
      Manifest.ofBody (Text.octets "not json") type = ⟨type, none, [], none⟩ := by
  intro odd plain type
  have hodd : Value.read? odd = some (.object [("config", .text "nope"),
      ("layers", .array [.object [], .null]), ("mediaType", .integer 5), ("x", .array [])]) := by
    rfl
  have hplain : Value.read? plain = some (.object [("layers", .array [.object [], .null])]) := by
    rfl
  have hnone : Value.read? (Text.octets "not json") = none := by rfl
  obtain ⟨hgarbage, hreads, hagree⟩ := fields_independent
  obtain ⟨hmediaType, -, -, hdirectory⟩ := hagree odd plain _ _ hodd hplain
  refine ⟨hmediaType ?_ type, ?_, hdirectory ?_, (hgarbage _ type hnone).1⟩
  · intro s
    constructor
    · rintro (_ | ⟨hmem, ⟨⟩⟩)
      simp at hmem
    · rintro (_ | ⟨hmem, ⟨⟩⟩)
      simp at hmem
  · apply ((hreads odd _ hodd).1 type).layers
    exact .member (by simp) (.here _)
  · intro s
    constructor
    · rintro (_ | ⟨hmem, _ | ⟨hmem', ⟨⟩⟩⟩)
      simp at hmem
    · rintro (_ | ⟨hmem, hrest⟩)
      simp at hmem

end ImageLookup
