import ImageLookup.Proofs.Resolution.Directories
import ImageLookup.Proofs.Resolution.Memory

/-! # Deadlines

A deadline can expire at every wait of a resolution: for the answer to each request, and for each body
that is read.  Wherever it does, the image counts as unreachable, and the memo is the one that the
events before that wait left behind.  A deadline that does not expire changes nothing.
-/

namespace ImageLookup.Resolver

open Http (Network)
open Client (Reads)

variable {σ : Type} {rv : Resolver} {net : Network σ} {network : σ}
variable {raw : String} {r : Reference} {credential : Option Credential}
variable {before : List Event} {e : Event}

def unhurried (rv : Resolver) : Resolver := ⟨rv.client, none, rv.memo⟩

theorem resolve_eq_converse (hparse : Reference.parse raw = .ok r) :
    rv.resolve net network raw credential =
      rv.converse net network rv.deadline (.ok (.unavailable r .unreachable))
        (rv.client.resolveReference rv.memo r credential) := by
  rw [resolve, hparse]

/-- A deadline that is kept leaves no trace. -/
theorem resolve_in_time (rv : Resolver) (net : Network σ) (network : σ)
    (credential : Option Credential) (hparse : Reference.parse raw = .ok r)
    (hfits : Event.fits rv.deadline (rv.resolved net network r credential).events = true) :
    (rv.resolve net network raw credential).result =
        (rv.resolved net network r credential).ending ∧
      (rv.resolve net network raw credential).sent =
        Event.requests (rv.resolved net network r credential).events ∧
      (rv.resolve net network raw credential).resolver.memo =
        (rv.resolved net network r credential).events.foldl Event.memoAfter rv.memo := by
  rw [resolved] at hfits ⊢
  rw [resolve_eq_converse hparse, Call.converse_result, Call.converse_sent, Call.converse_memo,
    if_pos hfits, Event.within_eq_self hfits]
  exact ⟨rfl, rfl, rfl⟩

/-- A deadline that expires leaves the events before the wait that was too long, and the request of
    that wait. -/
theorem resolve_late (hparse : Reference.parse raw = .ok r)
    (hlate : Event.Expires rv.deadline (rv.resolved net network r credential).events before e) :
    (rv.resolve net network raw credential).result = .ok (.unavailable r .unreachable) ∧
      (rv.resolve net network raw credential).sent = Event.requests (before ++ [e]) ∧
      (rv.resolve net network raw credential).resolver.memo =
        before.foldl Event.memoAfter rv.memo := by
  obtain ⟨hwithin, hinTime⟩ := hlate.within_and_inTime
  have hfits := hlate.not_fits
  rw [resolved] at hwithin hinTime hfits
  rw [resolve_eq_converse hparse, Call.converse_result, Call.converse_sent, Call.converse_memo,
    Event.foldl_memoAfter_within, hwithin, hinTime, hfits]
  exact ⟨rfl, rfl, rfl⟩

/-- The events before the wait that was too long either fetched the manifest, and then it is in the
    memo, or they left the memo alone. -/
theorem memo_of_late (hparse : Reference.parse raw = .ok r)
    (hlate : Event.Expires rv.deadline (rv.resolved net network r credential).events before e) :
    ((∀ m, ¬Reads rv.client r before m) ∧
      (rv.resolve net network raw credential).resolver.memo = rv.memo) ∨
    ∃ m, Reads rv.client r before m ∧
      (rv.resolve net network raw credential).resolver.memo = ⟨some (.of r credential, m)⟩ := by
  let t : Turn σ := ⟨.resolve raw credential, rv, network⟩
  have hr : t.call.reference? = some r := by
    show (Reference.parse raw).toOption = some r
    rw [hparse]
    rfl
  have hbefore : t.eventsInTime net = before := by
    rw [t.eventsInTime_eq hr, ← hlate.within_and_inTime.2,
      (Call.whole_resolve rv net network r raw credential).1]
    rfl
  have hreading := t.reading net hr
  rw [hbefore] at hreading
  rcases hreading with ⟨hnothing, hmemo⟩ | ⟨m, -, hone, hmemo⟩
  · exact .inl ⟨hnothing.none, hmemo⟩
  · exact .inr ⟨m, hone.reads, hmemo⟩

/-- Whatever the deadline of a resolver, and whatever the network answers and when: a text that is no
    reference is answered with its defect.  A resolution within the deadline has the result, the
    requests and the memo that it has without one.  At whichever wait the deadline expires, the image
    is unreachable and its directory `/`; the memo is as it was, unless the manifest was read before
    that wait, and then the memo holds it under the key of the reference and the credential. -/
theorem deadline_respected (rv : Resolver) (net : Network σ) (network : σ) (raw : String)
    (credential : Option Credential) :
    (∀ f, Reference.parse raw = .error f →
      rv.resolve net network raw credential = ⟨.error f, rv, [], network⟩) ∧
    ∀ r, Reference.parse raw = .ok r →
      let events := (rv.resolved net network r credential).events
      let outcome := rv.resolve net network raw credential
      let unlimited := rv.unhurried.resolve net network raw credential
      (Event.fits rv.deadline events = true →
        outcome.result = unlimited.result ∧ outcome.sent = unlimited.sent ∧
          outcome.resolver.memo = unlimited.resolver.memo) ∧
      (∀ before e, Event.Expires rv.deadline events before e →
        outcome.result = .ok ⟨r, .unreachable, "/"⟩ ∧
        outcome.sent = Event.requests (before ++ [e]) ∧
        (((∀ m, ¬Reads rv.client r before m) ∧ outcome.resolver.memo = rv.memo) ∨
          ∃ m, Reads rv.client r before m ∧
            outcome.resolver.memo = ⟨some (.of r credential, m)⟩)) ∧
      (Event.fits rv.deadline events = true ∨ ∃ before e, Event.Expires rv.deadline events before e) := by
  refine ⟨?_, ?_⟩
  · intro f hparse
    rw [resolve, hparse]
  intro r hparse events outcome unlimited
  refine ⟨?_, ?_, ?_⟩
  · intro hfits
    obtain ⟨hresult, hsent, hmemo⟩ := resolve_in_time rv net network credential hparse hfits
    obtain ⟨hresult', hsent', hmemo'⟩ :=
      resolve_in_time rv.unhurried net network credential hparse rfl
    exact ⟨hresult.trans hresult'.symm, hsent.trans hsent'.symm, hmemo.trans hmemo'.symm⟩
  · intro before e hlate
    obtain ⟨hresult, hsent, -⟩ := resolve_late hparse hlate
    exact ⟨hresult, hsent, memo_of_late hparse hlate⟩
  · cases hfits : Event.fits rv.deadline events with
    | true => exact .inl rfl
    | false => exact .inr (Event.exists_expires_of_not_fits hfits)

/-- The answers of this registry take a millisecond each, and so do their bodies: after four of them
    the manifest is read and the blob is not. -/
theorem deadline_respected_furnished :
    let r : Reference := ⟨"registry.test", "app", .tag "1"⟩
    let raw := "registry.test/app:1"
    let rv : Resolver := .new .default (some 4)
    let net := Turn.furnished "\x7b\"config\":\x7b\"WorkingDir\":\"/app\"\x7d\x7d"
    Reference.parse raw = .ok r ∧
      (rv.unhurried.resolve net () raw none).result = .ok ⟨r, .present, "/app"⟩ ∧
      (rv.resolve net () raw none).result = .ok ⟨r, .unreachable, "/"⟩ ∧
      ∃ before m, Reads rv.client r before m ∧
        (rv.resolve net () raw none).resolver.memo = ⟨some (.of r none, m)⟩ := by
  intro r raw rv net
  have hparse : Reference.parse raw = .ok r := by decide +kernel
  have hpresent : (rv.unhurried.resolve net () raw none).result = .ok ⟨r, .present, "/app"⟩ := by
    decide +kernel
  have hunlike : (rv.resolve net () raw none).result ≠
      (rv.unhurried.resolve net () raw none).result := by decide +kernel
  have hmemo : (rv.resolve net () raw none).resolver.memo.entry.isSome = true := by
    decide +kernel
  obtain ⟨hintime, hexpires, hcases⟩ := (deadline_respected rv net () raw none).2 r hparse
  obtain ⟨before, e, hlate⟩ := hcases.resolve_left fun hfits => hunlike (hintime hfits).1
  obtain ⟨hresult, -, ⟨-, hempty⟩ | ⟨m, hreads, hheld⟩⟩ := hexpires before e hlate
  · rw [hempty] at hmemo
    cases hmemo
  · exact ⟨hparse, hpresent, hresult, before, m, hreads, hheld⟩

end ImageLookup.Resolver
