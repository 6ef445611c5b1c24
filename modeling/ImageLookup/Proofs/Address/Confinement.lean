import ImageLookup.Proofs.Address.Segments

/-! # Where addresses lead

The addresses of manifests and blobs are built from text that others choose: users write references,
and registries write the digests that their manifests name.  None of that text can end the host, leave
the repository or start a query, as no word in it holds a character that could.  How an address is read
depends on its scheme and its host alone.
-/

namespace ImageLookup

def Text.isControl (c : Char) : Bool := c.toNat < 0x20 || (0x7F ≤ c.toNat && c.toNat ≤ 0x9F)

open Reference

/-! ### Reading addresses -/

namespace Http.Url

variable {cs : List Char}

/-- No character above the blank is dropped before an address is read. -/
theorem counted_eq_self (h : ∀ c ∈ cs, 0x20 < c.toNat) : counted cs = cs := by
  have hpadding : ∀ ds : List Char, (∀ c ∈ ds, 0x20 < c.toNat) → ds.dropWhile isPadding = ds := by
    intro ds hds
    cases ds with
    | nil => rfl
    | cons c ds =>
      have hc := hds c List.mem_cons_self
      exact List.dropWhile_cons_of_neg (by simpa [isPadding] using hc)
  have hreverse := hpadding cs.reverse fun c hc => h c (List.mem_reverse.1 hc)
  rw [counted, hpadding cs h, hreverse, List.reverse_reverse, List.filter_eq_self]
  intro c hc
  rw [Bool.not_eq_true', isBreak, Bool.or_eq_false_iff, Bool.or_eq_false_iff]
  have hvisible := h c hc
  refine ⟨⟨?_, ?_⟩, ?_⟩ <;> rw [beq_eq_false_iff_ne] <;> rintro rfl <;>
    exact absurd hvisible (by decide)

/-- The part of an address from which its host and its port are read. -/
def authority (rest : List Char) : List Char :=
  (rest.dropWhile isSlash).takeWhile fun c => !endsAuthority c

/-- Two addresses with the same scheme and authority are read alike, whatever their paths. -/
theorem read?_congr {s s' : String} {secure : Bool} {rest rest' : List Char}
    (h : scheme? (counted s.toList) = some (secure, rest))
    (h' : scheme? (counted s'.toList) = some (secure, rest'))
    (heq : authority rest = authority rest') : read? s = read? s' := by
  unfold authority at heq
  simp only [read?, h, h', Option.bind_eq_bind, Option.bind_some, heq]

/-- The host ends at the first slash behind it, so nothing of a path is read as a part of it. -/
theorem authority_slashes {host tail : List Char}
    (hhost : ∀ c ∈ host, isReferenceChar c = true) (hne : host ≠ [])
    (htail : tail = [] ∨ ∃ rest, tail = '/' :: rest) :
    authority ('/' :: '/' :: (host ++ tail)) = host := by
  have hplain : ∀ c ∈ host, (!endsAuthority c) = true := by
    intro c hc
    have hslash := ne_of_isReferenceChar (hhost c hc) (by decide : isReferenceChar '/' = false)
    have hback := ne_of_isReferenceChar (hhost c hc) (by decide : isReferenceChar '\\' = false)
    have hquery := ne_of_isReferenceChar (hhost c hc) (by decide : isReferenceChar '?' = false)
    have hhash := ne_of_isReferenceChar (hhost c hc) (by decide : isReferenceChar '#' = false)
    simp [endsAuthority, isSlash, hslash, hback, hquery, hhash]
  have hdrop : ('/' :: '/' :: (host ++ tail)).dropWhile isSlash = host ++ tail := by
    obtain ⟨c, rest, rfl⟩ := List.exists_cons_of_ne_nil hne
    have hc := hplain c List.mem_cons_self
    rw [Bool.not_eq_true', endsAuthority, Bool.or_eq_false_iff, Bool.or_eq_false_iff] at hc
    rw [List.dropWhile_cons_of_pos (by decide), List.dropWhile_cons_of_pos (by decide),
      List.cons_append, List.dropWhile_cons_of_neg (by simp [hc.1.1])]
  have hstop : tail.takeWhile (fun c => !endsAuthority c) = [] := by
    rcases htail with rfl | ⟨rest, rfl⟩ <;> rfl
  rw [authority, hdrop, List.takeWhile_append_of_pos hplain, hstop, List.append_nil]

end Http.Url

/-! ### Confinement -/

namespace Client

open Http.Url

variable {c : Client} {r : Reference} {kind name : String}

theorem scheme_cases (c : Client) (host : String) :
    (host ∈ c.settings.plainHttpHosts ∧ c.scheme host = "http") ∨
      (host ∉ c.settings.plainHttpHosts ∧ c.scheme host = "https") := by
  by_cases h : host ∈ c.settings.plainHttpHosts
  · exact .inl ⟨h, by simp [scheme, ClientSettings.isPlainHttp, h]⟩
  · exact .inr ⟨h, by simp [scheme, ClientSettings.isPlainHttp, h]⟩

theorem scheme?_scheme (c : Client) (host : String) (rest : List Char) :
    scheme? ((c.scheme host).toList ++ "://".toList ++ rest) =
      some (!c.settings.isPlainHttp host, '/' :: '/' :: rest) := by
  unfold scheme
  cases c.settings.isPlainHttp host <;> rfl

theorem isReferenceChar_of_mem_contentUrl (h : r.IsQualified) (hkind : IsSegment kind.toList)
    (hname : IsSegment name.toList) {x : Char} (hx : x ∈ (c.contentUrl r kind name).toList) :
    x = '/' ∨ isReferenceChar x = true := by
  by_cases hslash : x = '/'
  · exact .inl hslash
  right
  have hother : (x == '/') = false := beq_eq_false_iff_ne.2 hslash
  obtain ⟨part, hpart, hmem⟩ := Digest.mem_splitOnP_of_mem (p := (· == '/')) hx hother
  rw [← List.splitOn_eq_splitOnP, splitOn_contentUrl h hkind hname] at hpart
  simp only [List.mem_cons] at hpart
  rcases hpart with rfl | rfl | rfl | hpart
  · have hscheme : ((c.scheme r.host).toList ++ [':']).all isReferenceChar = true := by
      unfold scheme
      split <;> decide
    exact List.all_eq_true.1 hscheme x hmem
  · cases hmem
  · exact isReferenceChar_of_mem_host h.host hmem
  · exact (isSegment_of_mem_path h hkind hname part hpart).plain x hmem

/-- What an address must be like to lead to something of a kind and a name in the repository of a
    reference, and nowhere else. -/
structure LeadsTo (c : Client) (r : Reference) (kind name url : String) : Prop where
  http : "http://".toList <+: url.toList ↔ r.host ∈ c.settings.plainHttpHosts
  https : "https://".toList <+: url.toList ↔ r.host ∉ c.settings.plainHttpHosts
  /-- Behind the scheme there is the host up to the next slash, and behind that the path. -/
  parts : ∃ path, url.toList =
      (c.scheme r.host).toList ++ "://".toList ++ (r.host.toList ++ '/' :: path) ∧
    '/' ∉ r.host.toList ∧ '@' ∉ r.host.toList ∧ path.splitOn '/' = pathSegments r kind name
  segments : ∀ s ∈ pathSegments r kind name, s ≠ [] ∧ s ≠ ['.'] ∧ s ≠ ['.', '.']
  plain : ∀ x ∈ url.toList, x ∉ ['?', '#', '%', '\\'] ∧ Text.isBlank x = false ∧
    Text.isControl x = false
  /-- The address is read as that of the registry is. -/
  registry : Http.Url.read? url = Http.Url.read? (c.registryUrl r.host)

section LeadsTo

variable (h : r.IsQualified) (hkind : IsSegment kind.toList) (hname : IsSegment name.toList)
include h hkind hname

/-- A reader sees the registry of the reference in every address that is built for it. -/
theorem read?_contentUrl :
    Http.Url.read? (c.contentUrl r kind name) = Http.Url.read? (c.registryUrl r.host) := by
  have hvisible : ∀ x ∈ (c.contentUrl r kind name).toList, 0x20 < x.toNat := by
    intro x hx
    rcases isReferenceChar_of_mem_contentUrl h hkind hname hx with rfl | hchar
    · decide
    · have hrange := toNat_of_isReferenceChar hchar
      omega
  have hregistry : (c.registryUrl r.host).toList =
      (c.scheme r.host).toList ++ "://".toList ++ (r.host.toList ++ []) := by
    simp [registryUrl, scheme, String.toList_append]
  have hprefix : ∀ x ∈ (c.registryUrl r.host).toList, 0x20 < x.toNat := by
    intro x hx
    refine hvisible x ?_
    rw [hregistry, List.append_nil] at hx
    rw [toList_contentUrl, ← List.append_assoc]
    exact List.mem_append_left _ hx
  have hhost : ∀ x ∈ r.host.toList, isReferenceChar x = true :=
    fun x hx => isReferenceChar_of_mem_host h.host hx
  have hne : r.host.toList ≠ [] := by
    obtain ⟨first, rest, hcons, -⟩ := isAlphanum_head_of_isHost h.host
    exact hcons ▸ List.cons_ne_nil first rest
  apply read?_congr
  · rw [counted_eq_self hvisible, toList_contentUrl, scheme?_scheme]
  · rw [counted_eq_self hprefix, hregistry, scheme?_scheme]
  · rw [authority_slashes hhost hne (.inr ⟨_, rfl⟩), authority_slashes hhost hne (.inl rfl)]

theorem leadsTo_contentUrl : c.LeadsTo r kind name (c.contentUrl r kind name) where
  http := by
    rw [toList_contentUrl]
    rcases scheme_cases c r.host with ⟨hin, hscheme⟩ | ⟨hnot, hscheme⟩ <;> simp [*]
  https := by
    rw [toList_contentUrl]
    rcases scheme_cases c r.host with ⟨hin, hscheme⟩ | ⟨hnot, hscheme⟩ <;> simp [*]
  parts := by
    refine ⟨path r kind name, toList_contentUrl c r kind name, ?_, ?_, splitOn_path hkind hname⟩
    · intro hmem
      exact absurd (isReferenceChar_of_mem_host h.host hmem) (by decide)
    · intro hmem
      exact absurd (isReferenceChar_of_mem_host h.host hmem) (by decide)
  segments := by
    intro s hs
    have hsegment := isSegment_of_mem_path h hkind hname s hs
    exact ⟨hsegment.ne_nil, hsegment.ne_dot, hsegment.ne_dot_dot⟩
  plain := by
    intro x hx
    rcases isReferenceChar_of_mem_contentUrl h hkind hname hx with rfl | hchar
    · decide
    have hrange := toNat_of_isReferenceChar hchar
    refine ⟨?_, isBlank_eq_false_of_isReferenceChar hchar, ?_⟩
    · intro hmem
      have hforbidden : ['?', '#', '%', '\\'].all (fun y => !isReferenceChar y) = true := by decide
      have hother := List.all_eq_true.1 hforbidden x hmem
      rw [hchar] at hother
      cases hother
    · simp only [Text.isControl, Bool.or_eq_false_iff, Bool.and_eq_false_iff,
        decide_eq_false_iff_not]
      omega
  registry := read?_contentUrl h hkind hname

end LeadsTo

/-- Whatever text a reference was read from, the address of its manifest leads to that manifest, and the
    address of a blob to the blob of that digest in the same repository.  Any digest will do, also one
    that a registry names. -/
theorem addresses_confined {r : Reference} (h : r.IsReading) (c : Client) :
    c.LeadsTo r "manifests" r.target.text (c.manifestUrl r) ∧
      ∀ d : Digest, c.LeadsTo r "blobs" d.text (c.blobUrl r d) := by
  have hqualified := h.isQualified
  constructor
  · exact leadsTo_contentUrl hqualified isSegment_manifests (.of_target hqualified.target)
  · intro d
    exact leadsTo_contentUrl hqualified isSegment_blobs (.of_digest d)

/-- A reading that `parse` does not settle for, on a host that is reached over `http`. -/
theorem addresses_confined_localhost :
    let r : Reference := ⟨"localhost", "app", .tag "1"⟩
    let d : Digest := ⟨"x+y", "Z=", by rfl⟩
    let c : Client := ⟨⟨30, 10, "agent", ["localhost"]⟩, by decide +kernel, Http.Url.isWeb⟩
    r.IsReading ∧ c.LeadsTo r "manifests" "1" "http://localhost/v2/app/manifests/1" ∧
      c.LeadsTo r "blobs" d.text "http://localhost/v2/app/blobs/x+y:Z=" := by
  intro r d c
  have hreading : r.IsReading := .inr ⟨"localhost/app:1".toList, by decide +kernel⟩
  have hmanifest : c.manifestUrl r = "http://localhost/v2/app/manifests/1" := by decide +kernel
  have hblob : c.blobUrl r d = "http://localhost/v2/app/blobs/x+y:Z=" := by decide +kernel
  obtain ⟨hleads, hleadsBlob⟩ := addresses_confined hreading c
  exact ⟨hreading, hmanifest ▸ hleads, hblob ▸ hleadsBlob d⟩

end Client

end ImageLookup
