import ImageLookup.Client
import ImageLookup.Proofs.Reference.Qualified

/-! # Addresses and their segments

An address is a scheme, a host and a path, and slashes stand nowhere but between its segments: the
words that make up references and digests hold none.  So cutting an address at its slashes gives back
exactly the words that it was built from.
-/

namespace ImageLookup

open Reference

/-! ### Segments -/

/-- A word between two slashes of an address.  It does not consist of dots. -/
structure IsSegment (cs : List Char) : Prop where
  plain : ∀ c ∈ cs, isReferenceChar c = true
  undotted : ∃ c ∈ cs, c ≠ '.'

namespace IsSegment

variable {cs : List Char}

theorem slash_not_mem (h : IsSegment cs) : '/' ∉ cs :=
  fun hmem => absurd (h.plain _ hmem) (by decide)

theorem ne_nil (h : IsSegment cs) : cs ≠ [] := by
  obtain ⟨c, hc, -⟩ := h.undotted
  exact List.ne_nil_of_mem hc

theorem ne_dot (h : IsSegment cs) : cs ≠ ['.'] := by
  rintro rfl
  obtain ⟨c, hc, hne⟩ := h.undotted
  exact hne (List.mem_singleton.1 hc)

theorem ne_dot_dot (h : IsSegment cs) : cs ≠ ['.', '.'] := by
  rintro rfl
  obtain ⟨c, hc, hne⟩ := h.undotted
  simp at hc
  exact hne hc

/-- What is neither a slash nor a dot makes a segment of any characters of references. -/
theorem of_all (hall : cs.all isReferenceChar = true) (hany : cs.any (· != '.') = true) :
    IsSegment cs := by
  refine ⟨List.all_eq_true.1 hall, ?_⟩
  simpa using hany

theorem of_component (h : isComponent cs = true) : IsSegment cs := by
  refine ⟨fun c hc => isReferenceChar_of_isNameChar (isNameChar_of_mem_component h c hc), ?_⟩
  cases cs with
  | nil => exact absurd rfl (isComponent_ne_nil h)
  | cons c rest =>
    simp only [isComponent, List.head?_cons, Option.any_some, Bool.and_eq_true] at h
    refine ⟨c, List.mem_cons_self, ?_⟩
    rintro rfl
    exact absurd h.1 (by decide)

theorem of_tag (h : isTag cs = true) : IsSegment cs := by
  refine ⟨fun c hc => isReferenceChar_of_isNameChar (isNameChar_of_mem_tag h c hc), ?_⟩
  cases cs with
  | nil => simp [isTag] at h
  | cons c rest =>
    simp only [isTag, List.head?_cons, Option.any_some, Bool.and_eq_true] at h
    refine ⟨c, List.mem_cons_self, ?_⟩
    rintro rfl
    exact absurd h.1.2 (by decide)

/-- The colon of a digest keeps it from being a word of dots. -/
theorem of_digest (d : Digest) : IsSegment d.text.toList := by
  refine ⟨fun c hc => isReferenceChar_of_mem_digest d hc, ':', ?_, by decide⟩
  rw [Digest.toList_text]
  exact List.mem_append_right _ List.mem_cons_self

theorem of_target {target : Target} (h : target.IsValid) : IsSegment target.text.toList := by
  cases target with
  | tag name => exact of_tag h
  | digest d => exact of_digest d

end IsSegment

theorem isSegment_manifests : IsSegment "manifests".toList := .of_all (by decide) (by decide)

theorem isSegment_blobs : IsSegment "blobs".toList := .of_all (by decide) (by decide)

/-! ### Cutting addresses -/

namespace Client

variable {c : Client} {r : Reference} {kind name : String}

def scheme (c : Client) (host : String) : String :=
  if c.settings.isPlainHttp host then "http" else "https"

/-- The path of what a repository holds under a kind and a name. -/
def path (r : Reference) (kind name : String) : List Char :=
  "v2".toList ++ '/' ::
    (r.repository.toList ++ '/' :: (kind.toList ++ '/' :: name.toList))

def pathSegments (r : Reference) (kind name : String) : List (List Char) :=
  "v2".toList :: (r.components ++ [kind.toList, name.toList])

theorem toList_contentUrl (c : Client) (r : Reference) (kind name : String) :
    (c.contentUrl r kind name).toList =
      (c.scheme r.host).toList ++ "://".toList ++ (r.host.toList ++ '/' :: path r kind name) := by
  simp [contentUrl, registryUrl, scheme, path, String.toList_append]

theorem splitOn_path (hkind : IsSegment kind.toList) (hname : IsSegment name.toList) :
    (path r kind name).splitOn '/' = pathSegments r kind name := by
  rw [path, List.splitOn_append_cons_self, List.splitOn_append_cons_self,
    List.splitOn_append_cons_self, List.splitOn_eq_singleton (by decide),
    List.splitOn_eq_singleton hkind.slash_not_mem, List.splitOn_eq_singleton hname.slash_not_mem]
  rfl

/-- No part of a path is empty, a single dot or two dots. -/
theorem isSegment_of_mem_path (h : r.IsQualified) (hkind : IsSegment kind.toList)
    (hname : IsSegment name.toList) : ∀ s ∈ pathSegments r kind name, IsSegment s := by
  intro s hs
  simp only [pathSegments, List.mem_cons, List.mem_append, List.not_mem_nil, or_false] at hs
  rcases hs with rfl | hs | rfl | rfl
  · exact .of_all (by decide) (by decide)
  · exact .of_component (h.components s hs)
  · exact hkind
  · exact hname

/-- Between its slashes an address holds the scheme, nothing, the host and the path. -/
theorem splitOn_contentUrl (h : r.IsQualified) (hkind : IsSegment kind.toList)
    (hname : IsSegment name.toList) :
    (c.contentUrl r kind name).toList.splitOn '/' =
      ((c.scheme r.host).toList ++ [':']) :: [] :: r.host.toList :: pathSegments r kind name := by
  have hscheme : '/' ∉ (c.scheme r.host).toList ++ [':'] := by
    unfold scheme
    split <;> decide
  have hhost : '/' ∉ r.host.toList :=
    fun hmem => absurd (slash_beq_eq_false_of_isHost h.host _ hmem) (by decide)
  have hcut : (c.contentUrl r kind name).toList =
      ((c.scheme r.host).toList ++ [':']) ++ '/' ::
        ([] ++ '/' :: (r.host.toList ++ '/' :: path r kind name)) := by
    rw [toList_contentUrl]
    simp
  rw [hcut, List.splitOn_append_cons_self_of_not_mem hscheme,
    List.splitOn_append_cons_self_of_not_mem List.not_mem_nil,
    List.splitOn_append_cons_self_of_not_mem hhost, splitOn_path hkind hname]

end Client

end ImageLookup
