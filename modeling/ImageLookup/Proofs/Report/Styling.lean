import ImageLookup.Proofs.Reference.Qualified
import ImageLookup.Proofs.Report.Documents

/-! # Styling of reports

In a report for people every control sequence is one that the program puts around a mark or a name,
and without them the report is the one without colour.  The exception is the working directory, which
is written as the image has it: control sequences in it reach the terminal, with colour or without.
-/

namespace ImageLookup.Report

variable {cs rest : List Char} {c : Char} {spans : List Span}

/-! ### Removing control sequences -/

/-- The character that every control sequence starts with. -/
def escapeChar : Char := '\x1b'

def afterRendition? : List Char → Option (List Char)
  | '\x1b' :: '[' :: cs =>
    match cs.dropWhile Char.isDigit with
    | 'm' :: rest => some rest
    | _ => none
  | _ => none

/-- What comes before the first control sequence for a rendition, and what follows it. -/
def cutRendition? : List Char → Option (List Char × List Char)
  | [] => none
  | c :: cs =>
    match afterRendition? (c :: cs) with
    | some rest => some ([], rest)
    | none => (cutRendition? cs).map fun cut => (c :: cut.1, cut.2)

/-- A text without its first `n` control sequences for renditions. -/
def withoutRenditions : Nat → List Char → List Char
  | 0, cs => cs
  | n + 1, cs =>
    match cutRendition? cs with
    | some (before, after) => before ++ withoutRenditions n after
    | none => cs

theorem afterRendition?_rendition (code : Nat) (rest : List Char) :
    afterRendition? ((rendition code).toList ++ rest) = some rest := by
  have htext : (rendition code).toList ++ rest =
      '\x1b' :: '[' :: (Nat.toDigits 10 code ++ 'm' :: rest) := by
    simp [rendition, String.toList_append]
  have hdigits : ∀ c ∈ Nat.toDigits 10 code, c.isDigit = true := fun c hc =>
    Nat.isDigit_of_mem_toDigits (by decide) (by decide) hc
  rw [htext, afterRendition?, List.dropWhile_append_of_pos hdigits]
  rfl

theorem cutRendition?_of_after (h : afterRendition? cs = some rest) :
    cutRendition? cs = some ([], rest) := by
  cases cs with
  | nil => cases h
  | cons c cs => rw [cutRendition?, h]

/-- A control sequence for a rendition is taken out, and nothing behind it is touched. -/
theorem withoutRenditions_rendition (n code : Nat) (rest : List Char) :
    withoutRenditions (n + 1) ((rendition code).toList ++ rest) = withoutRenditions n rest := by
  rw [withoutRenditions, cutRendition?_of_after (afterRendition?_rendition code rest)]
  rfl

theorem cutRendition?_append (h : escapeChar ∉ cs) (rest : List Char) :
    cutRendition? (cs ++ rest) = (cutRendition? rest).map fun cut => (cs ++ cut.1, cut.2) := by
  induction cs with
  | nil => simp
  | cons c cs ih =>
    rw [List.mem_cons, not_or] at h
    have hother : afterRendition? (c :: (cs ++ rest)) = none := by
      rw [afterRendition?]
      intro tail heq
      exact h.1 (List.cons.inj heq).1.symm
    rw [List.cons_append, cutRendition?, hother, ih h.2, Option.map_map]
    rfl

/-- A text without the escape character is passed over unchanged. -/
theorem withoutRenditions_append (h : escapeChar ∉ cs) (n : Nat) (rest : List Char) :
    withoutRenditions n (cs ++ rest) = cs ++ withoutRenditions n rest := by
  cases n with
  | zero => rfl
  | succ n =>
    rw [withoutRenditions, withoutRenditions, cutRendition?_append h]
    cases cutRendition? rest with
    | none => rfl
    | some cut => exact List.append_assoc ..

/-! ### Spans -/

/-- The number of control sequences around a span that is set off. -/
def Emphasis.renditions : Emphasis → Nat
  | .none => 0
  | .bold => 2
  | .boldInk _ => 4

theorem toList_write (color : Bool) (spans : List Span) :
    (write color spans).toList = spans.flatMap fun s => (s.write color).toList := by
  induction spans with
  | nil => rfl
  | cons s spans ih =>
    rw [List.flatMap_cons, ← ih]
    simp [write, String.join_cons]

/-- Without colour, nothing is written but the texts of the spans. -/
theorem mem_write_false : c ∈ (write false spans).toList ↔ ∃ s ∈ spans, c ∈ s.text.toList := by
  rw [toList_write, List.mem_flatMap]
  rfl

/-- Without the control sequences around it, a span in colour is one without colour. -/
theorem withoutRenditions_span {s : Span} (h : escapeChar ∉ s.text.toList) (n : Nat)
    (rest : List Char) :
    withoutRenditions (s.emphasis.renditions + n) ((s.write true).toList ++ rest) =
      (s.write false).toList ++ withoutRenditions n rest := by
  obtain ⟨text, emphasis⟩ := s
  have htext := withoutRenditions_append h
  cases emphasis with
  | none =>
    have hwrite : (Span.write true ⟨text, .none⟩).toList = text.toList := by
      simp [Span.write, Emphasis.opening, Emphasis.closing]
    rw [hwrite, htext, Emphasis.renditions, Nat.zero_add]
    rfl
  | bold =>
    have hwrite : (Span.write true ⟨text, .bold⟩).toList =
        (rendition 1).toList ++ (text.toList ++ (rendition 0).toList) := by
      simp [Span.write, Emphasis.opening, Emphasis.closing, String.toList_append]
    rw [hwrite, Emphasis.renditions, Nat.add_comm 2 n, List.append_assoc, List.append_assoc,
      withoutRenditions_rendition (n + 1), htext, withoutRenditions_rendition]
    rfl
  | boldInk ink =>
    have hwrite : (Span.write true ⟨text, .boldInk ink⟩).toList =
        (rendition 1).toList ++ ((rendition ink.code).toList ++ (text.toList ++
          ((rendition 39).toList ++ (rendition 0).toList))) := by
      simp [Span.write, Emphasis.opening, Emphasis.closing, String.toList_append]
    rw [hwrite, Emphasis.renditions, Nat.add_comm 4 n]
    simp only [List.append_assoc]
    rw [withoutRenditions_rendition (n + 3), withoutRenditions_rendition (n + 2), htext,
      withoutRenditions_rendition (n + 1), withoutRenditions_rendition]
    rfl

/-- In colour the same texts are written, with control sequences around those that are set off. -/
theorem withoutRenditions_write (h : ∀ s ∈ spans, escapeChar ∉ s.text.toList) (n : Nat)
    (rest : List Char) :
    withoutRenditions (spans.foldr (fun s k => s.emphasis.renditions + k) n)
        ((write true spans).toList ++ rest) =
      (write false spans).toList ++ withoutRenditions n rest := by
  rw [toList_write, toList_write]
  induction spans with
  | nil => rfl
  | cons s spans ih =>
    have hs := withoutRenditions_span (h s List.mem_cons_self)
    have hrest := ih fun other hother => h other (List.mem_cons_of_mem s hother)
    rw [List.foldr_cons, List.flatMap_cons, List.flatMap_cons, List.append_assoc, hs, hrest,
      List.append_assoc]

theorem write_of_plain (h : ∀ s ∈ spans, s.emphasis = .none) (color : Bool) :
    write color spans = write false spans := by
  have hspan : ∀ s ∈ spans, s.write color = s.write false := by
    intro s hs
    cases color <;> simp [Span.write, h s hs, Emphasis.opening, Emphasis.closing]
  rw [write, write, List.map_congr_left hspan]

/-! ### Texts without control sequences -/

theorem escapeChar_not_mem_append {s t : String} (hs : escapeChar ∉ s.toList)
    (ht : escapeChar ∉ t.toList) : escapeChar ∉ (s ++ t).toList := by
  rw [String.toList_append, List.mem_append, not_or]
  exact ⟨hs, ht⟩

theorem escapeChar_not_mem_text {r : Reference} (h : r.IsQualified) :
    escapeChar ∉ r.text.toList := by
  intro hc
  rcases h.mem_text hc with hc | hc | hc <;> exact absurd hc (by decide)

theorem escapeChar_not_mem_host {r : Reference} (h : r.IsQualified) :
    escapeChar ∉ r.host.toList := by
  intro hc
  exact absurd (Reference.isReferenceChar_of_mem_host h.host hc) (by decide)

theorem escapeChar_not_mem_repository {r : Reference} (h : r.IsQualified) :
    escapeChar ∉ r.repository.toList := by
  intro hc
  rcases h.mem_repository hc with hc | hc <;> exact absurd hc (by decide)

theorem mem_suffix_of_mem_text {target : Target} (h : c ∈ target.text.toList) :
    c ∈ target.suffix.toList := by
  cases target with
  | tag name =>
    rw [Target.suffix, String.toList_append]
    exact List.mem_append_right _ h
  | digest d =>
    rw [Target.suffix, String.toList_append]
    exact List.mem_append_right _ h

theorem escapeChar_not_mem_target {r : Reference} (h : r.IsQualified) :
    escapeChar ∉ r.target.text.toList := by
  intro hc
  have hsuffix := mem_suffix_of_mem_text hc
  rcases Reference.isReferenceChar_of_mem_suffix h.target hsuffix with hc | hc <;>
    exact absurd hc (by decide)

theorem escapeChar_not_mem_ofReference {r : Reference} (h : r.IsQualified) (raw : String) :
    ∀ s ∈ (ofReference raw r).spans, escapeChar ∉ s.text.toList := by
  obtain ⟨label, hlabel, hspans⟩ : ∃ label : String, escapeChar ∉ label.toList ∧
      (ofReference raw r).spans = [checkMark, .plain " ", ⟨r.text, .bold⟩,
        .plain ("\n  Registry:   " ++ r.host), .plain ("\n  Repository: " ++ r.repository),
        .plain (label ++ r.target.text)] := by
    obtain ⟨host, repository, target⟩ := r
    cases target with
    | tag name => exact ⟨"\n  Tag:        ", by decide, rfl⟩
    | digest d => exact ⟨"\n  Digest:     ", by decide, rfl⟩
  intro s hs
  rw [hspans] at hs
  simp only [List.mem_cons, List.not_mem_nil, or_false] at hs
  rcases hs with rfl | rfl | rfl | rfl | rfl | rfl
  · decide
  · decide
  · exact escapeChar_not_mem_text h
  · exact escapeChar_not_mem_append (by decide) (escapeChar_not_mem_host h)
  · exact escapeChar_not_mem_append (by decide) (escapeChar_not_mem_repository h)
  · exact escapeChar_not_mem_append hlabel (escapeChar_not_mem_target h)

/-! ### Reports -/

theorem escapeChar_not_mem_of_parse {raw : String} {i : Item} (h : parse raw = .ok i) :
    escapeChar ∉ (i.write .pretty false).toList := by
  obtain ⟨r, hparse, rfl⟩ := exists_reference_of_parse h
  have hr : r.IsReading := .inl ⟨raw, hparse⟩
  intro hc
  obtain ⟨s, hs, hmem⟩ := mem_write_false.1 hc
  exact escapeChar_not_mem_ofReference hr.isQualified raw s hs hmem

theorem withoutRenditions_of_parse {raw : String} {i : Item} (h : parse raw = .ok i) :
    withoutRenditions 6 (i.write .pretty true).toList = (i.write .pretty false).toList := by
  obtain ⟨r, hparse, rfl⟩ := exists_reference_of_parse h
  have hr : r.IsReading := .inl ⟨raw, hparse⟩
  have hcount : (ofReference raw r).spans.foldr (fun s k => s.emphasis.renditions + k) 0 = 6 := by
    obtain ⟨host, repository, target⟩ := r
    cases target <;> rfl
  have hwrite := withoutRenditions_write (escapeChar_not_mem_ofReference hr.isQualified raw) 0 []
  rw [hcount, List.append_nil] at hwrite
  exact hwrite.trans (List.append_nil _)

def remarks (r : Resolution) : List Span :=
  [.plain (" " ++ r.reference.text ++ " (" ++ (verdict r.availability).2 ++ ")"),
    .plain ("\n  Working directory: " ++ r.workingDirectory)]

theorem spans_ofResolution (r : Resolution) :
    (ofResolution r).spans = (verdict r.availability).1 :: remarks r := rfl

/-- Everything else in the report on an image is made of characters of references and of fixed
    words. -/
theorem escapeChar_mem_ofResolution_iff {r : Resolution} (h : r.reference.IsReading) :
    escapeChar ∈ ((ofResolution r).write .pretty false).toList ↔
      escapeChar ∈ r.workingDirectory.toList := by
  have hmark : escapeChar ∉ (verdict r.availability).1.text.toList := by
    cases r.availability <;> decide
  have hwords : escapeChar ∉ (verdict r.availability).2.toList := by
    cases r.availability <;> decide
  have hfirst : escapeChar ∉ (" " ++ r.reference.text ++ " (" ++ (verdict r.availability).2
      ++ ")").toList := by
    apply escapeChar_not_mem_append ?_ (by decide)
    apply escapeChar_not_mem_append ?_ hwords
    apply escapeChar_not_mem_append ?_ (by decide)
    exact escapeChar_not_mem_append (by decide) (escapeChar_not_mem_text h.isQualified)
  have hlabel : escapeChar ∉ "\n  Working directory: ".toList := by decide
  rw [Item.write, spans_ofResolution, mem_write_false, remarks]
  constructor
  · rintro ⟨s, hs, hc⟩
    simp only [List.mem_cons, List.not_mem_nil, or_false] at hs
    rcases hs with rfl | rfl | rfl
    · exact absurd hc hmark
    · exact absurd hc hfirst
    · rw [Span.plain, String.toList_append, List.mem_append] at hc
      exact hc.resolve_left hlabel
  · intro hc
    refine ⟨.plain ("\n  Working directory: " ++ r.workingDirectory), by simp, ?_⟩
    rw [Span.plain, String.toList_append, List.mem_append]
    exact .inr hc

theorem withoutRenditions_ofResolution (r : Resolution) :
    withoutRenditions 4 ((ofResolution r).write .pretty true).toList =
      ((ofResolution r).write .pretty false).toList := by
  have hmark : escapeChar ∉ (verdict r.availability).1.text.toList := by
    cases r.availability <;> decide
  have hcount : (verdict r.availability).1.emphasis.renditions = 4 := by
    cases r.availability <;> rfl
  have hremarks : write true (remarks r) = write false (remarks r) :=
    write_of_plain (by simp [remarks, Span.plain]) true
  -- nothing is taken out of the remarks, so it does not matter what the directory is
  have hwrite := withoutRenditions_span hmark 0 (write true (remarks r)).toList
  rw [hcount, Nat.add_zero, hremarks] at hwrite
  rw [Item.write, Item.write, spans_ofResolution, toList_write, toList_write, List.flatMap_cons,
    List.flatMap_cons, ← toList_write, ← toList_write, hremarks]
  exact hwrite

/-! ### Directories of documents -/

/-- A configuration document with a working directory. -/
def configDocument (directory : String) : Json.Value :=
  .object [("config", .object [("WorkingDir", .text directory)])]

/-- An image can have every text but the empty one as its working directory. -/
theorem workingDirectory_configDocument {directory : String} (h : directory ≠ "") :
    (ImageConfig.ofBody (Text.octets
      (String.ofList (configDocument directory).pretty))).workingDirectory = directory := by
  have hlayout := Json.Layout.isBlank_pretty
  have hreads : Json.ReadsAs .pretty Json.depthLimit (configDocument directory)
      (configDocument directory) :=
    Json.readsAs_single hlayout "config"
      (Json.readsAs_single hlayout "WorkingDir" (Json.readsAs_text .pretty 125 directory))
  have hread := Json.read?_print [] hreads (by simp)
  rw [List.append_nil] at hread
  have hconfig : (ImageConfig.ofBody (Text.octets (String.ofList
      (configDocument directory).pretty))).workingDirectory? = some directory := by
    rw [ImageConfig.ofBody, documentOf, Json.Value.pretty, hread]
    rfl
  rw [ImageConfig.workingDirectory, hconfig]
  split
  case h_1 hempty => exact absurd (Option.some.inj hempty) h
  case h_2 hnone => cases hnone
  case h_3 hsome => exact (Option.some.inj hsome).symm

/-- Whatever the text that was read, and whatever was found out about a reference that can be read.
    Without colour, the report on the image has an escape character exactly if its working directory
    has one, and a document can give it any directory but the empty one; the report on the text has
    none.  The reports in colour are those without colour but for the first control sequences in them:
    four around the mark, and for a text two more around the canonical text. -/
theorem plain_report_as_directory {r : Resolution} {raw : String} {i : Item}
    (hreading : r.reference.IsReading) (hread : parse raw = .ok i) :
    (escapeChar ∈ ((ofResolution r).write .pretty false).toList ↔
      escapeChar ∈ r.workingDirectory.toList) ∧
    (r.workingDirectory ≠ "" → ∃ body,
      (ImageConfig.ofBody body).workingDirectory = r.workingDirectory) ∧
    escapeChar ∉ (i.write .pretty false).toList ∧
    withoutRenditions 4 ((ofResolution r).write .pretty true).toList =
      ((ofResolution r).write .pretty false).toList ∧
    withoutRenditions 6 (i.write .pretty true).toList = (i.write .pretty false).toList := by
  refine ⟨?_, ?_, ?_, ?_, ?_⟩
  · exact escapeChar_mem_ofResolution_iff hreading
  · intro hdirectory
    exact ⟨_, workingDirectory_configDocument hdirectory⟩
  · exact escapeChar_not_mem_of_parse hread
  · exact withoutRenditions_ofResolution r
  · exact withoutRenditions_of_parse hread

/-- The control sequence in the directory is in the report, and remains when those of the mark are
    taken out of the report in colour. -/
theorem plain_report_as_directory_red :
    let r : Resolution := ⟨⟨"registry.test", "app", .tag "1"⟩, .present, "/\x1b[31mred"⟩
    let raw := "registry.test/app:1"
    let i := ofReference raw r.reference
    r.reference.IsReading ∧ parse raw = .ok i ∧
      escapeChar ∈ ((ofResolution r).write .pretty false).toList ∧
      (∃ body, (ImageConfig.ofBody body).workingDirectory = r.workingDirectory) ∧
      withoutRenditions 4 ((ofResolution r).write .pretty true).toList =
        ((ofResolution r).write .pretty false).toList ∧
      escapeChar ∉ (i.write .pretty false).toList := by
  intro r raw i
  have hparse : Reference.parse raw = .ok r.reference := by decide +kernel
  have hreading : r.reference.IsReading := .inl ⟨raw, hparse⟩
  have hread : parse raw = .ok i := by
    rw [parse, hparse]
    rfl
  obtain ⟨hplain, hcarried, hnone, hcoloured, -⟩ := plain_report_as_directory hreading hread
  exact ⟨hreading, hread, hplain.2 (by decide), hcarried (by decide), hcoloured, hnone⟩

/-- A registry with one image, whose working directory is written in red. -/
def reddening : Http.Network Unit where
  answer q _ :=
    let blob := "\x7b\"config\":\x7b\"WorkingDir\":\"/\\u001b[31mred\"\x7d\x7d"
    let digest := "sha256:9d72f171ad5cb784b55404e1501df39054805575c6a7424eb335c13ffd561e23"
    let manifest := "\x7b\"config\":\x7b\"digest\":\"" ++ digest ++ "\"\x7d\x7d"
    let body := if q.accept = "application/json" then blob else manifest
    (⟨.ok ⟨200, [], ⟨.ok (Text.octets body), 1⟩⟩, 1⟩, ())

/-- The control sequence of this image passes every check on its way to a terminal that was to have
    none. -/
theorem report_reddened_without_colour :
    let s : CommandLine.Surroundings := ⟨[], fun _ => none, none, true⟩
    let args := ["--color", "never", "check", "registry.test/app:1"]
    let r : Resolution := ⟨⟨"registry.test", "app", .tag "1"⟩, .present, "/\x1b[31mred"⟩
    ((Resolver.new .default none).resolve reddening () "registry.test/app:1" none).result = .ok r ∧
      (CommandLine.run reddening () s args).stdout =
        "✓ registry.test/app:1 (exists)\n  Working directory: /\x1b[31mred\n" ∧
      escapeChar ∈ ((ofResolution r).write .pretty false).toList := by
  refine ⟨?_, ?_, ?_⟩
  · decide +kernel
  · decide +kernel
  · decide +kernel

end ImageLookup.Report
