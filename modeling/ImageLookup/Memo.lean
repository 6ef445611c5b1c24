import ImageLookup.Credential
import ImageLookup.ImageDocument
import ImageLookup.Reference.Basic

/-! # The memo of the last manifest

Questions about the same image tend to follow one another, so the manifest of the latest
lookup is remembered, under a key of everything that the lookup depends on.  The key holds
the fingerprint of the credential and never the secret.
-/

namespace ImageLookup

/-- What a manifest lookup depends on. -/
structure ManifestKey where
  host : String
  repository : String
  target : String
  fingerprint : Option String
deriving DecidableEq, Repr

namespace ManifestKey

def of (r : Reference) (credential : Option Credential) : ManifestKey :=
  ⟨r.host, r.repository, r.target.text, credential.map Credential.fingerprint⟩

theorem of_eq_of {r r' : Reference} {credential credential' : Option Credential}
    (h : ManifestKey.of r credential = .of r' credential') :
    r.host = r'.host ∧ r.repository = r'.repository ∧ r.target.text = r'.target.text ∧
      credential.map Credential.fingerprint = credential'.map Credential.fingerprint := by
  rw [ManifestKey.of, ManifestKey.of, ManifestKey.mk.injEq] at h
  exact h

def text (k : ManifestKey) : String :=
  "ManifestKey \x7b registry_host: \"" ++ k.host ++ "\", repository: \"" ++ k.repository
    ++ "\", target: \"" ++ k.target ++ "\", credential: "
    ++ (match k.fingerprint with
      | some f => "Some(\"" ++ f ++ "\")"
      | none => "None")
    ++ " \x7d"

end ManifestKey

/-- At most one manifest, and the key of the lookup that it came from. -/
structure Memo where
  entry : Option (ManifestKey × Manifest)

namespace Memo

def empty : Memo := ⟨none⟩

/-- The remembered manifest, for the key that it was stored under. -/
def get? (memo : Memo) (key : ManifestKey) : Option Manifest :=
  (memo.entry.filter fun e => e.1 = key).map Prod.snd

def store (_ : Memo) (key : ManifestKey) (m : Manifest) : Memo := ⟨some (key, m)⟩

@[simp] theorem get?_empty (key : ManifestKey) : empty.get? key = none := rfl

theorem get?_eq_some_iff {memo : Memo} {key : ManifestKey} {m : Manifest} :
    memo.get? key = some m ↔ memo.entry = some (key, m) := by
  simp only [get?, Option.map_eq_some_iff, Option.filter_eq_some_iff, decide_eq_true_eq]
  constructor
  · rintro ⟨⟨key', m'⟩, ⟨hentry, rfl⟩, rfl⟩
    exact hentry
  · intro hentry
    exact ⟨(key, m), ⟨hentry, rfl⟩, rfl⟩

end Memo

end ImageLookup
