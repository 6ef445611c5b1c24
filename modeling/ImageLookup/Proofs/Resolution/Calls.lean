import ImageLookup.Proofs.Conversation.Transcript
import ImageLookup.Resolver

/-! # Calls of a resolver

Calls are put to one resolver one after the other.  A `Turn` is a call together with the resolver
and the network that it meets, and `turns` lists those of a whole sequence of calls.  What is sent
in a turn are the requests among its events.
-/

namespace ImageLookup

open Http (Network)

/-- One question to a resolver. -/
inductive Call where
  | resolve (raw : String) (credential : Option Credential)
  | imageExists (r : Reference) (credential : Option Credential)
  | workingDirectory (r : Reference) (credential : Option Credential)

inductive Reply where
  | resolution (result : Except Failure Resolution)
  | existence (result : Except Failure Bool)
  | directory (result : String)

namespace Resolver.Outcome

def map {σ α β : Type} (f : α → β) (o : Outcome σ α) : Outcome σ β :=
  ⟨f o.result, o.resolver, o.sent, o.network⟩

end Resolver.Outcome

namespace Call

variable {σ : Type}

def credential : Call → Option Credential
  | .resolve _ credential | .imageExists _ credential | .workingDirectory _ credential => credential

/-- The reference that a call is about, unless its text is none. -/
def reference? : Call → Option Reference
  | .resolve raw _ => (Reference.parse raw).toOption
  | .imageExists r _ | .workingDirectory r _ => some r

def perform (rv : Resolver) (net : Network σ) (network : σ) : Call → Resolver.Outcome σ Reply
  | .resolve raw credential => (rv.resolve net network raw credential).map .resolution
  | .imageExists r credential => (rv.imageExists net network r credential).map .existence
  | .workingDirectory r credential => (rv.workingDirectory net network r credential).map .directory

/-- What happens on the network in the course of a call. -/
def events (rv : Resolver) (net : Network σ) (network : σ) : Call → List Event
  | .resolve raw credential =>
    match Reference.parse raw with
    | .error _ => []
    | .ok r => Event.within rv.deadline
        ((rv.client.resolveReference rv.memo r credential).transcript net network).events
  | .imageExists r credential =>
    ((rv.client.existsOnRegistry rv.memo r credential).transcript net network).events
  | .workingDirectory r credential =>
    ((rv.client.rememberedDirectory rv.memo r credential).transcript net network).events

theorem converse_sent {α : Type} (rv : Resolver) (net : Network σ) (network : σ)
    (limit : Option Nat) (late : α) (c : Conversation α) :
    (rv.converse net network limit late c).sent =
      Event.requests (Event.within limit (c.transcript net network).events) :=
  (Conversation.run_eq_transcript net c (.start network rv.memo limit)).2.1

theorem perform_sent (rv : Resolver) (net : Network σ) (network : σ) (call : Call) :
    (call.perform rv net network).sent = Event.requests (call.events rv net network) := by
  cases call with
  | resolve raw credential =>
    simp only [perform, events, Resolver.Outcome.map, Resolver.resolve]
    cases Reference.parse raw with
    | error f => rfl
    | ok r => exact converse_sent ..
  | imageExists r credential =>
    exact (converse_sent rv net network none (.ok false) _).trans
      (congrArg Event.requests (Event.within_eq_self rfl))
  | workingDirectory r credential =>
    exact (converse_sent rv net network none defaultDirectory _).trans
      (congrArg Event.requests (Event.within_eq_self rfl))

/-- A call changes nothing about a resolver but its memo. -/
theorem perform_resolver (rv : Resolver) (net : Network σ) (network : σ) (call : Call) :
    (call.perform rv net network).resolver.client = rv.client ∧
      (call.perform rv net network).resolver.deadline = rv.deadline := by
  cases call with
  | resolve raw credential =>
    simp only [perform, Resolver.Outcome.map, Resolver.resolve]
    cases Reference.parse raw with
    | error f => exact ⟨rfl, rfl⟩
    | ok r => exact ⟨rfl, rfl⟩
  | imageExists r credential => exact ⟨rfl, rfl⟩
  | workingDirectory r credential => exact ⟨rfl, rfl⟩

end Call

/-! ### Sequences of calls -/

/-- A call, and what it meets. -/
structure Turn (σ : Type) where
  call : Call
  resolver : Resolver
  network : σ

namespace Turn

variable {σ : Type}

def outcome (net : Network σ) (t : Turn σ) : Resolver.Outcome σ Reply :=
  t.call.perform t.resolver net t.network

def events (net : Network σ) (t : Turn σ) : List Event := t.call.events t.resolver net t.network

/-- The turns of calls that are put to a resolver in order. -/
def turns (net : Network σ) : List Call → Resolver → σ → List (Turn σ)
  | [], _, _ => []
  | call :: calls, rv, network =>
    let first : Turn σ := ⟨call, rv, network⟩
    first :: turns net calls (first.outcome net).resolver (first.outcome net).network

theorem client_of_mem_turns {net : Network σ} {calls : List Call} {rv : Resolver} {network : σ}
    {t : Turn σ} (h : t ∈ turns net calls rv network) : t.resolver.client = rv.client := by
  induction calls generalizing rv network with
  | nil => cases h
  | cons call calls ih =>
    rcases List.mem_cons.1 h with rfl | h
    · rfl
    · exact (ih h).trans (call.perform_resolver rv net network).1

end Turn

end ImageLookup
