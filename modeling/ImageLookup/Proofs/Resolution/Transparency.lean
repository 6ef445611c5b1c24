import ImageLookup.Proofs.Conversation.Likeness
import ImageLookup.Proofs.Resolution.Memory

/-! # The memo makes no difference

On a network that answers a request always in the same way, what a resolver replies does not depend on
what it remembers.  The invariant is that a remembered manifest is the one that a lookup would still
find (`Faithful`).  It is kept because only what a lookup found is ever remembered, and it is enough
because the key of the memo fixes every request of the lookup: the address of the manifest directly,
and the credential as long as no two of them have the same hash.
-/

namespace ImageLookup

open Http (Network)
open Conversation (Alike Mirrors)

variable {σ : Type}

/-! ### Steady networks -/

/-- The answer to a request, but for the time that it takes, depends on nothing but the request. -/
def Http.Network.IsSteady (net : Network σ) : Prop :=
  ∀ q s s', SameAnswer (net.answer q s).1.outcome (net.answer q s').1.outcome

theorem Http.Network.IsSteady.mirrors {net : Network σ} (h : net.IsSteady) :
    Mirrors Eq (fun _ _ => True) net net := by
  rintro q _ s s' rfl -
  exact ⟨h q s s', trivial⟩

theorem Http.Network.isSteady_of_stateless (net : Network Unit) : net.IsSteady := by
  intro q _ _
  cases (net.answer q ()).1.outcome with
  | ok answer => exact .ok ⟨rfl, rfl, rfl⟩
  | error fault => exact .error rfl

/-! ### Credentials and their fingerprints -/

/-- No two credentials of the calls have the same hash, unless they are the same. -/
def NoCollision (calls : List Call) : Prop :=
  ∀ call ∈ calls, ∀ call' ∈ calls, ∀ k k', call.credential = some k → call'.credential = some k' →
    Hash.sha256 (Text.octets k.secret) = Hash.sha256 (Text.octets k'.secret) →
    Text.octets k.secret = Text.octets k'.secret

theorem Text.hex_injective {os os' : Octets} (h : Text.hex os = Text.hex os') : os = os' := by
  have hread := Text.ofHex?_hex os
  rw [h, Text.ofHex?_hex] at hread
  exact (Option.some.inj hread).symm

theorem Credential.hash_eq_of_fingerprint_eq {k k' : Credential}
    (h : k.fingerprint = k'.fingerprint) :
    Hash.sha256 (Text.octets k.secret) = Hash.sha256 (Text.octets k'.secret) := by
  rw [fingerprint, fingerprint] at h
  have hhex := congrArg String.toList h
  rw [String.toList_ofList, String.toList_ofList] at hhex
  exact Text.hex_injective hhex

/-- Among the calls a fingerprint stands for one credential. -/
theorem NoCollision.credential_eq {calls : List Call} (h : NoCollision calls) {call call' : Call}
    (hmem : call ∈ calls) (hmem' : call' ∈ calls)
    (hprint : call.credential.map Credential.fingerprint =
      call'.credential.map Credential.fingerprint) :
    call.credential = call'.credential := by
  cases hk : call.credential with
  | none =>
    rw [hk, Option.map_none, eq_comm, Option.map_eq_none_iff] at hprint
    exact hprint.symm
  | some k =>
    cases hk' : call'.credential with
    | none =>
      rw [hk, hk'] at hprint
      cases hprint
    | some k' =>
      rw [hk, hk'] at hprint
      have hhash := Credential.hash_eq_of_fingerprint_eq (Option.some.inj hprint)
      have hsecret := h call hmem call' hmem' k k' hk hk' hhash
      have hread := Text.text?_octets k.secret
      rw [hsecret, Text.text?_octets] at hread
      exact congrArg (some ∘ Credential.mk) (Option.some.inj hread).symm

/-- A key tells the address of the manifest, but not the reference: the text of a tag may be that of
    a digest. -/
theorem Client.manifestUrl_eq_of_key_eq (c : Client) {r r' : Reference} {k k' : Option Credential}
    (h : ManifestKey.of r k = .of r' k') : c.manifestUrl r = c.manifestUrl r' := by
  obtain ⟨hhost, hrepository, htarget, -⟩ := ManifestKey.of_eq_of h
  rw [manifestUrl, manifestUrl, contentUrl, contentUrl, hhost, hrepository, htarget]

/-! ### What would be found -/

namespace Client

variable {net : Network σ} {c : Client} {r r' : Reference} {k : Option Credential} {m : Manifest}
variable {network network' : σ}

/-- How a lookup ends that nothing is remembered for. -/
def freshEnding (c : Client) (net : Network σ) (network : σ) (r : Reference)
    (k : Option Credential) : Except Failure Manifest :=
  ((c.lookup .empty r k).run.transcript net network).ending

/-- A lookup that misses the memo ends as if there were none. -/
theorem ending_of_miss {memo : Memo} (hsteady : net.IsSteady)
    (hmiss : memo.get? (.of r k) = none) :
    ((c.lookup memo r k).run.transcript net network).ending =
      c.freshEnding net network' r k := by
  have halike : Alike Eq (Ends Eq Eq) (c.lookup memo r k).run (c.lookup .empty r k).run :=
    lookup_alike Eq.refl Eq.refl rfl rfl (fun _ => rfl) hmiss rfl
  exact (halike.ending hsteady.mirrors trivial).eq

/-- Where the manifest is to be found under one name, it is found under every other name that has
    the same address. -/
theorem freshEnding_eq_ok (hsteady : net.IsSteady) (hurl : c.manifestUrl r = c.manifestUrl r')
    (h : c.freshEnding net network r k = .ok m) : c.freshEnding net network' r' k = .ok m := by
  have halike : Alike Eq (Ends (fun _ _ => True) Eq) (c.lookup .empty r k).run
      (c.lookup .empty r' k).run :=
    lookup_alike Eq.refl (fun _ => trivial) hurl trivial (fun _ => rfl) rfl rfl
  have hends : Ends (fun _ _ => True) Eq (c.freshEnding net network r k)
      (c.freshEnding net network' r' k) := halike.ending hsteady.mirrors trivial
  exact hends.eq_ok h

theorem located_eq (hsteady : net.IsSteady) (r : Reference) (m : Manifest)
    (k : Option Credential) (network network' : σ) :
    ((c.workingDirectoryFor r m k).transcript net network).ending =
      ((c.workingDirectoryFor r m k).transcript net network').ending := by
  have halike : Alike Eq Eq (c.workingDirectoryFor r m k) (c.workingDirectoryFor r m k) :=
    workingDirectoryFor_alike Eq.refl (fun _ => rfl) r m
  exact halike.ending hsteady.mirrors trivial

end Client

/-! ### Calls -/

section

variable {net : Network σ} {calls : List Call} {call : Call} {rv : Resolver} {network : σ}

/-- What is remembered is what would be found, by a lookup for one of the calls. -/
def Faithful (net : Network σ) (calls : List Call) (rv : Resolver) : Prop :=
  ∀ key m, rv.memo.entry = some (key, m) → ∃ call ∈ calls, ∃ r, key = .of r call.credential ∧
    ∀ network, rv.client.freshEnding net network r call.credential = .ok m

/-- Remembered or searched for: the lookup ends the same. -/
theorem Faithful.lookedUp_ending (h : Faithful net calls rv) (hsteady : net.IsSteady)
    (hdistinct : NoCollision calls) (hmem : call ∈ calls) (r : Reference) (network network' : σ) :
    (rv.lookedUp net network r call.credential).ending =
      rv.client.freshEnding net network' r call.credential := by
  cases hmemo : rv.memo.get? (.of r call.credential) with
  | none => exact Client.ending_of_miss hsteady hmemo
  | some m =>
    obtain ⟨call', hmem', r', hkey, hfound⟩ := h _ m (Memo.get?_eq_some_iff.1 hmemo)
    have hcredential := hdistinct.credential_eq hmem hmem' (ManifestKey.of_eq_of hkey).2.2.2
    have hurl := rv.client.manifestUrl_eq_of_key_eq hkey.symm
    rw [Resolver.lookedUp_of_hit hmemo, hcredential]
    exact (Client.freshEnding_eq_ok hsteady hurl (hfound network)).symm

theorem perform_result_in_time (hdeadline : rv.deadline = none) {r : Reference}
    (hr : call.reference? = some r) :
    (call.perform rv net network).result =
      call.replyTo r (rv.lookedUp net network r call.credential).ending
        (fun m => (rv.located net network r call.credential m).ending) := by
  have hlimit : call.limit rv = none := by
    cases call with
    | resolve raw k => exact hdeadline
    | imageExists r k | workingDirectory r k => rfl
  rw [Call.perform_result rv net network hr, hlimit]
  exact if_pos rfl

/-- A resolver that remembers faithfully replies as one that remembers nothing. -/
theorem Faithful.result_eq (h : Faithful net calls rv) (hsteady : net.IsSteady)
    (hdistinct : NoCollision calls) (hdeadline : rv.deadline = none) (hmem : call ∈ calls)
    (network network' : σ) :
    (call.perform rv net network).result =
      (call.perform (.new rv.client none) net network').result := by
  cases hr : call.reference? with
  | none =>
    obtain ⟨f, hperform⟩ := Call.perform_of_no_reference hr
    rw [hperform, hperform]
  | some r =>
    rw [perform_result_in_time hdeadline hr, perform_result_in_time rfl hr,
      h.lookedUp_ending hsteady hdistinct hmem r network network']
    congr 1
    funext m
    exact Client.located_eq hsteady r m call.credential _ _

/-- What a call adds to the memo is what would be found again. -/
theorem Faithful.step (h : Faithful net calls rv) (hsteady : net.IsSteady)
    (hdistinct : NoCollision calls) (hmem : call ∈ calls) (network : σ) :
    Faithful net calls (call.perform rv net network).resolver := by
  let t : Turn σ := ⟨call, rv, network⟩
  have hclient := (call.perform_resolver rv net network).1
  cases hr : call.reference? with
  | none =>
    have hmemo : (call.perform rv net network).resolver.memo = rv.memo :=
      Turn.outcome_memo_of_no_reference (t := t) hr
    rw [Faithful, hclient, hmemo]
    exact h
  | some r =>
    rcases t.reading net hr with ⟨-, hmemo⟩ | ⟨m, hending, -, hmemo⟩
    · rw [Faithful, hclient, show (call.perform rv net network).resolver.memo = rv.memo from hmemo]
      exact h
    · -- what has just been found would be found again
      intro key m' hentry
      rw [show (call.perform rv net network).resolver.memo = _ from hmemo] at hentry
      obtain ⟨rfl, rfl⟩ := Prod.mk.inj (Option.some.inj hentry)
      refine ⟨call, hmem, r, rfl, ?_⟩
      intro network'
      rw [hclient, ← h.lookedUp_ending hsteady hdistinct hmem r network network']
      exact hending

end

namespace Turn

/-- By induction on the calls, the memo being faithful at each of them. -/
theorem results_eq {net : Network σ} {calls rest : List Call} {rv : Resolver}
    (hsteady : net.IsSteady) (hdistinct : NoCollision calls) (hrest : ∀ call ∈ rest, call ∈ calls)
    (h : Faithful net calls rv) (hdeadline : rv.deadline = none) (network network' : σ) :
    (turns net rest rv network).map (fun t => (t.outcome net).result) =
      rest.map fun call => (call.perform (.new rv.client none) net network').result := by
  induction rest generalizing rv network with
  | nil => rfl
  | cons call rest ih =>
    have hmem := hrest call List.mem_cons_self
    obtain ⟨hclient, hdeadline'⟩ := call.perform_resolver rv net network
    have hlater := ih (fun call hcall => hrest call (List.mem_cons_of_mem _ hcall))
      (h.step hsteady hdistinct hmem network) (hdeadline'.trans hdeadline)
      (call.perform rv net network).network
    rw [hclient] at hlater
    rw [turns, List.map_cons, List.map_cons, ← hlater,
      ← h.result_eq hsteady hdistinct hdeadline hmem network network']
    rfl

/-- On a steady network a resolver without a deadline replies to every call as a resolver would that
    has just been made and remembers nothing. -/
theorem memo_transparent (net : Network σ) (calls : List Call) (client : Client) (network : σ)
    (hsteady : net.IsSteady) (hdistinct : NoCollision calls) :
    ∀ network', (turns net calls (.new client none) network).map
        (fun t => (t.outcome net).result) =
      calls.map fun call => (call.perform (.new client none) net network').result := by
  intro network'
  have hempty : Faithful net calls (.new client none) := by
    intro key m hentry
    cases hentry
  exact results_eq hsteady hdistinct (fun call hcall => hcall) hempty rfl network network'

theorem memo_transparent_welcoming :
    let r : Reference := ⟨"registry.test", "app", .tag "1"⟩
    let calls : List Call := [.imageExists r none, .imageExists r none, .imageExists r (some ⟨"s"⟩),
      .workingDirectory r (some ⟨"t"⟩)]
    welcoming.IsSteady ∧ NoCollision calls ∧
      (turns welcoming calls (.new .default none) ()).map (fun t => (t.outcome welcoming).sent.length)
        = [2, 0, 2, 2] ∧
      (turns welcoming calls (.new .default none) ()).map (fun t => (t.outcome welcoming).result) =
        calls.map fun call => (call.perform (.new .default none) welcoming ()).result := by
  intro r calls
  have hsteady : welcoming.IsSteady := welcoming.isSteady_of_stateless
  have hsecrets : ∀ call ∈ calls, ∀ k, call.credential = some k → k = ⟨"s"⟩ ∨ k = ⟨"t"⟩ := by
    simp [calls, Call.credential, eq_comm]
  have hne : Hash.sha256 (Text.octets "s") ≠ Hash.sha256 (Text.octets "t") := by decide +kernel
  have hdistinct : NoCollision calls := by
    intro call hcall call' hcall' k k' hk hk' hhash
    rcases hsecrets call hcall k hk with rfl | rfl
    · rcases hsecrets call' hcall' k' hk' with rfl | rfl
      · rfl
      · exact absurd hhash hne
    · rcases hsecrets call' hcall' k' hk' with rfl | rfl
      · exact absurd hhash.symm hne
      · rfl
  exact ⟨hsteady, hdistinct, by decide +kernel,
    memo_transparent welcoming calls .default () hsteady hdistinct ()⟩

end Turn

end ImageLookup
