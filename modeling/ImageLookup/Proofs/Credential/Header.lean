import Mathlib.Data.List.TakeDrop
import ImageLookup.Credential
import ImageLookup.Http.Message
import ImageLookup.Proofs.Text.Base64

/-! # What the header of a credential says

A server that is presented a credential takes the code behind `Basic`, reads it as base64 and cuts the
octets at their first colon.  The user name holds no colon, so the cut falls behind it whatever the
secret holds, and the secret can be told from the header.
-/

namespace ImageLookup.Credential

open Text (octets)
open Text.Base64 (encode decode?)

def colon : UInt8 := 0x3A

/-- A value of a header that presents a user and a secret by a code in base64. -/
structure Presents (header : String) (code : List Char) (user secret : Octets) : Prop where
  header_eq : header = "Basic " ++ String.ofList code
  legal : Http.isHeaderValue header = true
  plain : ∀ c ∈ code, c.isAlphanum = true ∨ c = '+' ∨ c = '/' ∨ c = '='
  spells : Text.Base64.Spells code (user ++ colon :: secret)
  decoded : (decode? code).map (List.span (· != colon)) = some (user, colon :: secret)

theorem octets_authority (c : Credential) :
    octets (userName ++ ":" ++ c.secret) = octets userName ++ colon :: octets c.secret := by
  have hcolon : octets ":" = [colon] := by decide +kernel
  rw [Text.octets_append, Text.octets_append, hcolon, List.append_assoc]
  rfl

/-- The first colon is the one behind the user name. -/
theorem span_colon (secret : Octets) :
    (octets userName ++ colon :: secret).span (· != colon) =
      (octets userName, colon :: secret) := by
  have huser : ∀ o ∈ octets userName, (o != colon) = true := by decide +kernel
  have hstop : (colon != colon) = false := by decide
  rw [List.span_eq_takeWhile_dropWhile, List.takeWhile_append_of_pos huser,
    List.dropWhile_append_of_pos huser, List.takeWhile_cons, List.dropWhile_cons, hstop]
  simp

/-- A server that decodes the header and divides it at its first colon has the user and the secret.
    -/
theorem presents (c : Credential) :
    Presents c.authorization (encode (octets userName ++ colon :: octets c.secret))
      (octets userName) (octets c.secret) := by
  have hheader : c.authorization = "Basic " ++ String.ofList
      (encode (octets userName ++ colon :: octets c.secret)) := by
    rw [authorization, octets_authority]
  refine ⟨hheader, ?_, ?_, Text.Base64.spells_encode _, ?_⟩
  · simp only [hheader, Http.isHeaderValue, String.toList_append, String.toList_ofList,
      List.all_append, Bool.and_eq_true]
    refine ⟨by decide, List.all_eq_true.2 ?_⟩
    apply Text.Base64.forall_mem_encode
    · decide
    · decide
  · apply Text.Base64.forall_mem_encode
    · decide
    · decide
  · rw [Text.Base64.decode?_encode, Option.map_some, span_colon]

/-- A header presents one secret only. -/
theorem Presents.unique {header : String} {code code' : List Char} {user secret : Octets}
    {user' secret' : Octets} (h : Presents header code user secret)
    (h' : Presents header code' user' secret') : secret = secret' := by
  have hcode : code = code' := by
    have htext := congrArg String.toList (h.header_eq.symm.trans h'.header_eq)
    simp only [String.toList_append, String.toList_ofList] at htext
    exact List.append_cancel_left htext
  have hdecoded := h.decoded
  rw [hcode, h'.decoded] at hdecoded
  simp only [Option.some.injEq, Prod.mk.injEq, List.cons.injEq] at hdecoded
  exact hdecoded.2.2.symm

/-- Whatever the secret: the header is legal, its code is the padded base64 text of the user name, a
    colon and the secret, and whoever reads it and cuts at the first colon has both.  So a header
    belongs to one secret only. -/
theorem header_faithful :
    (∀ c : Credential, ∃ code,
      Presents c.authorization code (octets "oauth2") (octets c.secret)) ∧
    ∀ c c' : Credential, c.authorization = c'.authorization ↔ c.secret = c'.secret := by
  refine ⟨fun c => ⟨_, presents c⟩, ?_⟩
  intro c c'
  constructor
  · intro h
    have hoctets : octets c.secret = octets c'.secret := (presents c).unique (h ▸ presents c')
    have htext := Text.text?_octets c.secret
    rw [hoctets, Text.text?_octets] at htext
    exact (Option.some.inj htext).symm
  · intro h
    rw [authorization, authorization, h]

end ImageLookup.Credential
