import ImageLookup.Memo
import ImageLookup.Proofs.Address.Segments

/-! # What tells lookups apart

Keys, addresses and canonical texts write a reference down as text, and one text for each is enough:
an address is cut at its slashes, its last two segments are the kind and the name, and among names
only digests have a colon.  So lookups that differ never share a key or an address, even for
repositories that have components named like the fixed segments of addresses.
-/

namespace ImageLookup

open Reference

namespace Client

variable {r r' : Reference} {kind kind' name name' : String}

/-- An address gives back the host, the repository, the kind and the name that it was built from.
    The client, and with it the scheme, is the same on both sides. -/
theorem contentUrl_eq_iff (c : Client) (h : r.IsQualified) (h' : r'.IsQualified)
    (hkind : IsSegment kind.toList) (hkind' : IsSegment kind'.toList)
    (hname : IsSegment name.toList) (hname' : IsSegment name'.toList) :
    c.contentUrl r kind name = c.contentUrl r' kind' name' ↔
      r.host = r'.host ∧ r.repository = r'.repository ∧ kind = kind' ∧ name = name' := by
  constructor
  · intro heq
    have hsplit := splitOn_contentUrl (c := c) h hkind hname
    rw [heq, splitOn_contentUrl h' hkind' hname'] at hsplit
    obtain ⟨-, hhost, hpath⟩ : _ ∧ r'.host.toList = r.host.toList ∧
        r'.components ++ [kind'.toList, name'.toList] =
          r.components ++ [kind.toList, name.toList] := by
      simpa [pathSegments] using hsplit
    obtain ⟨hcomponents, hlast⟩ := List.append_inj' hpath rfl
    have hrepository : r'.repository.toList = r.repository.toList := by
      rw [← intercalate_components, hcomponents, intercalate_components]
    obtain ⟨hkinds, hnames⟩ : kind'.toList = kind.toList ∧ name'.toList = name.toList := by
      simpa using hlast
    exact ⟨String.toList_inj.1 hhost.symm, String.toList_inj.1 hrepository.symm,
      String.toList_inj.1 hkinds.symm, String.toList_inj.1 hnames.symm⟩
  · rintro ⟨hhost, hrepository, rfl, rfl⟩
    rw [contentUrl, contentUrl, hhost, hrepository]

theorem manifestUrl_eq_iff (c : Client) (h : r.IsQualified) (h' : r'.IsQualified) :
    c.manifestUrl r = c.manifestUrl r' ↔ r = r' := by
  constructor
  · intro heq
    obtain ⟨hhost, hrepository, -, hname⟩ := (c.contentUrl_eq_iff h h' isSegment_manifests
      isSegment_manifests (.of_target h.target) (.of_target h'.target)).1 heq
    exact Reference.ext hhost hrepository (Target.eq_of_text_eq h.target h'.target hname)
  · rintro rfl
    rfl

theorem blobUrl_eq_iff (c : Client) (h : r.IsQualified) (h' : r'.IsQualified) (d d' : Digest) :
    c.blobUrl r d = c.blobUrl r' d' ↔
      r.host = r'.host ∧ r.repository = r'.repository ∧ d = d' := by
  refine (c.contentUrl_eq_iff h h' isSegment_blobs isSegment_blobs (.of_digest d)
    (.of_digest d')).trans ?_
  constructor
  · rintro ⟨hhost, hrepository, -, htext⟩
    exact ⟨hhost, hrepository, Digest.text_injective htext⟩
  · rintro ⟨hhost, hrepository, rfl⟩
    exact ⟨hhost, hrepository, rfl, rfl⟩

/-- The segment before the last one tells manifests from blobs, even in repositories that are named
    like it. -/
theorem manifestUrl_ne_blobUrl (c : Client) (h : r.IsQualified) (h' : r'.IsQualified)
    (d : Digest) : c.manifestUrl r ≠ c.blobUrl r' d := by
  intro heq
  obtain ⟨-, -, hkind, -⟩ := (c.contentUrl_eq_iff h h' isSegment_manifests isSegment_blobs
    (.of_target h.target) (.of_digest d)).1 heq
  exact absurd hkind (by decide)

end Client

/-- Keys of lookups hold fingerprints, so they tell credentials apart only as far as the hash does.
    -/
theorem ManifestKey.of_eq_of_iff {r r' : Reference} (h : r.IsQualified) (h' : r'.IsQualified)
    (k k' : Option Credential) :
    ManifestKey.of r k = .of r' k' ↔
      r = r' ∧ ((k = none ∧ k' = none) ∨
        ∃ a a', k = some a ∧ k' = some a' ∧ a.fingerprint = a'.fingerprint) := by
  constructor
  · intro heq
    obtain ⟨hhost, hrepository, htext, hprint⟩ := of_eq_of heq
    refine ⟨Reference.ext hhost hrepository (Target.eq_of_text_eq h.target h'.target htext), ?_⟩
    cases k with
    | none => exact .inl ⟨rfl, by simpa using hprint.symm⟩
    | some a =>
      cases k' with
      | none => cases hprint
      | some a' => exact .inr ⟨a, a', rfl, rfl, Option.some.inj hprint⟩
  · rintro ⟨rfl, ⟨rfl, rfl⟩ | ⟨a, a', rfl, rfl, hprint⟩⟩
    · rfl
    · rw [ManifestKey.of, ManifestKey.of, Option.map_some, Option.map_some, hprint]

/-- For references as they are read, the key of a lookup stands for the reference and the fingerprint of
    the credential, and the address of the manifest and the canonical text stand for the reference.  The
    address of a blob stands for the repository and the digest, and never is that of a manifest.  A tag
    and a digest share neither a key nor an address. -/
theorem lookups_told_apart {r r' : Reference} (h : r.IsReading) (h' : r'.IsReading) (c : Client) :
    (∀ k k' : Option Credential, ManifestKey.of r k = .of r' k' ↔
      r = r' ∧ ((k = none ∧ k' = none) ∨
        ∃ a a', k = some a ∧ k' = some a' ∧ a.fingerprint = a'.fingerprint)) ∧
    (c.manifestUrl r = c.manifestUrl r' ↔ r = r') ∧
    (r.text = r'.text ↔ r = r') ∧
    (∀ d d' : Digest, c.blobUrl r d = c.blobUrl r' d' ↔
      r.host = r'.host ∧ r.repository = r'.repository ∧ d = d') ∧
    (∀ d : Digest, c.manifestUrl r ≠ c.blobUrl r' d) ∧
    (∀ name d, r.target = .tag name → r'.target = .digest d →
      (∀ k k' : Option Credential, ManifestKey.of r k ≠ .of r' k') ∧
        c.manifestUrl r ≠ c.manifestUrl r') := by
  have hq := h.isQualified
  have hq' := h'.isQualified
  refine ⟨ManifestKey.of_eq_of_iff hq hq', c.manifestUrl_eq_iff hq hq', ?_,
    c.blobUrl_eq_iff hq hq', c.manifestUrl_ne_blobUrl hq hq', ?_⟩
  · constructor
    · exact hq.eq_of_text_eq hq'
    · rintro rfl
      rfl
  · intro name d htag hdigest
    have hne : r ≠ r' := by
      rintro rfl
      rw [htag] at hdigest
      cases hdigest
    refine ⟨fun k k' heq => ?_, fun heq => ?_⟩
    · exact hne ((ManifestKey.of_eq_of_iff hq hq' k k').1 heq).1
    · exact hne ((c.manifestUrl_eq_iff hq hq').1 heq)

/-- Components named like the fixed segments of addresses, and a tag spelled like a digest's hash. -/
theorem lookups_told_apart_lookalikes :
    let r : Reference := ⟨"registry.test", "v2/manifests", .tag "x"⟩
    let d : Digest := ⟨"x", "x", by decide +kernel⟩
    let r' : Reference := ⟨"registry.test", "v2/manifests", .digest d⟩
    r.IsReading ∧ r'.IsReading ∧ ManifestKey.of r none ≠ .of r' none ∧
      Client.default.manifestUrl r ≠ Client.default.manifestUrl r' ∧
      Client.default.manifestUrl r ≠ Client.default.blobUrl r' d ∧
      Client.default.blobUrl r d = Client.default.blobUrl r' d := by
  intro r d r'
  have h : r.IsReading :=
    .inr ⟨"registry.test/v2/manifests:x".toList, by decide +kernel⟩
  have h' : r'.IsReading :=
    .inr ⟨"registry.test/v2/manifests@x:x".toList, by decide +kernel⟩
  obtain ⟨-, -, -, hblob, hkinds, htargets⟩ := lookups_told_apart h h' .default
  obtain ⟨hkeys, hurls⟩ := htargets "x" d rfl rfl
  exact ⟨h, h', hkeys none none, hurls, hkinds d, (hblob d d).2 ⟨rfl, rfl, rfl⟩⟩

end ImageLookup
