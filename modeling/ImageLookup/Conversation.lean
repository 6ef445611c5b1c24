import ImageLookup.Client
import ImageLookup.Memo

/-! # Conversations with registries

What the program does on the network is described by a `Conversation`: it sends a request and
goes on depending on the answer, reads the body of an answer, or remembers a manifest, and at
last it gives a result.  Nothing else can happen in between, so every fact about what is sent
and what is remembered is a fact about such a tree.

A conversation is carried out against a network, in a session that records the requests, keeps
the memo and counts down the time that is left.  When an answer or a body takes longer than
that, the conversation is cut short there and has no result.
-/

namespace ImageLookup

open Http (Request Response Fault Timed Network)

inductive Conversation (α : Type) where
  | done (result : α)
  | send (request : Request) (next : Except Fault Response → Conversation α)
  | receive (body : Timed (Except Fault Octets)) (next : Except Fault Octets → Conversation α)
  | remember (key : ManifestKey) (m : Manifest) (next : Conversation α)

namespace Conversation

def bind {α β : Type} (c : Conversation α) (f : α → Conversation β) : Conversation β :=
  match c with
  | .done a => f a
  | .send request next => .send request fun r => (next r).bind f
  | .receive body next => .receive body fun r => (next r).bind f
  | .remember key m next => .remember key m (next.bind f)

instance : Monad Conversation where
  pure := .done
  bind := bind

@[simp] theorem bind_done {α : Type} (c : Conversation α) : c.bind .done = c := by
  induction c with
  | done => rfl
  | send request next ih => simp [bind, ih]
  | receive body next ih => simp [bind, ih]
  | remember key m next ih => simp [bind, ih]

theorem bind_assoc {α β γ : Type} (c : Conversation α) (f : α → Conversation β)
    (g : β → Conversation γ) : (c.bind f).bind g = c.bind fun a => (f a).bind g := by
  induction c with
  | done => rfl
  | send request next ih => simp [bind, ih]
  | receive body next ih => simp [bind, ih]
  | remember key m next ih => simp [bind, ih]

instance : LawfulMonad Conversation :=
  LawfulMonad.mk' Conversation bind_done (fun _ _ => rfl) bind_assoc

end Conversation

/-! ### Sessions -/

/-- Where a conversation stands. -/
structure Session (σ : Type) where
  network : σ
  memo : Memo
  /-- The requests so far, in order. -/
  sent : List Request
  /-- The milliseconds that are left, where they are limited. -/
  timeLeft : Option Nat

namespace Session

def start {σ : Type} (network : σ) (memo : Memo) (limit : Option Nat) : Session σ :=
  ⟨network, memo, [], limit⟩

/-- Lets time pass, unless that is more than is left. -/
def wait? {σ : Type} (s : Session σ) (elapsed : Nat) : Option (Session σ) :=
  match s.timeLeft with
  | none => some s
  | some left =>
    if left < elapsed then none else some ⟨s.network, s.memo, s.sent, some (left - elapsed)⟩

end Session

namespace Conversation

/-- Carries out a conversation.  There is no result when time runs out. -/
def run {σ α : Type} (net : Network σ) : Conversation α → Session σ → Option α × Session σ
  | .done a, s => (some a, s)
  | .send request next, s =>
    let (answer, network) := net.answer request s.network
    let s : Session σ := ⟨network, s.memo, s.sent ++ [request], s.timeLeft⟩
    match s.wait? answer.elapsed with
    | none => (none, s)
    | some s => (next answer.outcome).run net s
  | .receive body next, s =>
    match s.wait? body.elapsed with
    | none => (none, s)
    | some s => (next body.outcome).run net s
  | .remember key m next, s => next.run net ⟨s.network, s.memo.store key m, s.sent, s.timeLeft⟩

theorem run_bind {σ α β : Type} (net : Network σ) (c : Conversation α)
    (f : α → Conversation β) (s : Session σ) :
    (c.bind f).run net s =
      match c.run net s with
      | (some a, s) => (f a).run net s
      | (none, s) => (none, s) := by
  induction c generalizing s with
  | done => rfl
  | send request next ih =>
    simp only [bind, run]
    split
    · rfl
    · exact ih _ _
  | receive body next ih =>
    simp only [bind, run]
    split
    · rfl
    · exact ih _ _
  | remember key m next ih => exact ih _

end Conversation

/-! ### Attempts -/

/-- A conversation that may fail. -/
abbrev Attempt (α : Type) := ExceptT Failure Conversation α

namespace Attempt

/-- Sends a request; a fault is a failure. -/
def send (c : Client) (request : Request) : Attempt Response :=
  ExceptT.mk (.send request fun r => .done (r.mapError (c.failure request.url)))

/-- Reads the body of the answer to a request for `url`; a fault is a failure. -/
def body (c : Client) (url : String) (r : Response) : Attempt Octets :=
  ExceptT.mk (.receive r.body fun b => .done (b.mapError (c.failure url)))

def remember (key : ManifestKey) (m : Manifest) : Attempt Unit :=
  ExceptT.mk (.remember key m (.done (.ok ())))

end Attempt

end ImageLookup
