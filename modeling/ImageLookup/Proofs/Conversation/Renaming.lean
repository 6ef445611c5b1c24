import ImageLookup.Proofs.Conversation.Transcript
import ImageLookup.Resolver

/-! # Renamed conversations

A renaming puts other requests and other keys in the places of those of a conversation.  A network that
it is hidden from gives the same replies to both, and then the renamed conversation leaves the renamed
events and ends as the other does (`transcript_rename`).  Since no event takes longer than before, a limit
cuts both off at the same place.
-/

namespace ImageLookup

open Http (Request Response Fault Timed Network)

/-- What is put in the places of requests, and of the keys of manifests. -/
structure Renaming where
  request : Request → Request
  key : ManifestKey → ManifestKey

variable {σ α β : Type} {ρ : Renaming}

/-! ### Conversations and attempts -/

namespace Conversation

def rename (ρ : Renaming) : Conversation α → Conversation α
  | .done a => .done a
  | .send request next => .send (ρ.request request) fun r => (next r).rename ρ
  | .receive body next => .receive body fun b => (next b).rename ρ
  | .remember key m next => .remember (ρ.key key) m (next.rename ρ)

theorem rename_bind (ρ : Renaming) (c : Conversation α) (f : α → Conversation β) :
    (c >>= f).rename ρ = c.rename ρ >>= fun a => (f a).rename ρ := by
  induction c with
  | done a => rfl
  | send request next ih => exact congrArg (Conversation.send _) (funext ih)
  | receive body next ih => exact congrArg (Conversation.receive _) (funext ih)
  | remember key m next ih => exact congrArg (Conversation.remember _ _) ih

end Conversation

namespace Attempt

def rename (ρ : Renaming) (x : Attempt α) : Attempt α := ExceptT.mk (x.run.rename ρ)

theorem rename_bind (ρ : Renaming) (x : Attempt α) (f : α → Attempt β) :
    rename ρ (x >>= f) = rename ρ x >>= fun a => rename ρ (f a) := by
  refine (Conversation.rename_bind ρ x.run _).trans ?_
  congr 1
  funext result
  cases result with
  | ok a => rfl
  | error f => rfl

/-- A request may change in everything but its address, which failures mention. -/
theorem rename_send (c : Client) {q : Request} (hurl : (ρ.request q).url = q.url) :
    rename ρ (send c q) = send c (ρ.request q) := by
  rw [send, send, hurl]
  rfl

/-- A request whose answer is read where its status is 200, and dealt with otherwise unread. -/
theorem rename_request {c : Client} {q q' : Request} {url : String}
    {onOk onOk' : Response → Octets → Attempt α} {otherwise otherwise' : Response → Attempt α}
    (hq : ρ.request q = q') (hurl : q'.url = q.url)
    (hok : ∀ answer octets, rename ρ (onOk answer octets) = onOk' answer octets)
    (hother : ∀ answer, rename ρ (otherwise answer) = otherwise' answer) :
    rename ρ (do
        let answer ← send c q
        if answer.status = 200 then
          let octets ← body c url answer
          onOk answer octets
        else otherwise answer : Attempt α) =
      (do
        let answer ← send c q'
        if answer.status = 200 then
          let octets ← body c url answer
          onOk' answer octets
        else otherwise' answer : Attempt α) := by
  subst hq
  rw [rename_bind, rename_send c hurl]
  congr 1
  funext answer
  by_cases hstatus : answer.status = 200
  · rw [if_pos hstatus, if_pos hstatus, rename_bind]
    exact congrArg (body c url answer >>= ·) (funext fun octets => hok answer octets)
  · rw [if_neg hstatus, if_neg hstatus]
    exact hother answer

end Attempt

/-! ### Events -/

namespace Event

def rename (ρ : Renaming) : Event → Event
  | .asked request answer => .asked (ρ.request request) answer
  | .heard body => .heard body
  | .kept key m => .kept (ρ.key key) m

@[simp] theorem elapsed_rename (ρ : Renaming) (e : Event) : (e.rename ρ).elapsed = e.elapsed := by
  cases e with
  | asked | heard | kept => rfl

theorem requests_map_rename (ρ : Renaming) (events : List Event) :
    requests (events.map (rename ρ)) = (requests events).map ρ.request := by
  induction events with
  | nil => rfl
  | cons e events ih =>
    cases e with
    | asked request answer => exact congrArg (ρ.request request :: ·) ih
    | heard | kept => exact ih

theorem fits_map_rename (ρ : Renaming) (limit : Option Nat) (events : List Event) :
    fits limit (events.map (rename ρ)) = fits limit events := by
  induction events generalizing limit with
  | nil => rfl
  | cons e events ih => rw [List.map_cons, fits_cons, fits_cons, elapsed_rename, ih]

theorem within_map_rename (ρ : Renaming) (limit : Option Nat) (events : List Event) :
    within limit (events.map (rename ρ)) = (within limit events).map (rename ρ) := by
  induction events generalizing limit with
  | nil => rfl
  | cons e events ih =>
    rw [List.map_cons, within, within, elapsed_rename]
    by_cases hlate : exceeds limit e.elapsed = true
    · rw [if_pos hlate, if_pos hlate]
      rfl
    · rw [if_neg hlate, if_neg hlate, ih]
      rfl

end Event

/-! ### Hidden renamings -/

/-- What a network replies to requests, one after the other. -/
def Http.Network.replies (net : Network σ) : List Request → σ → List (Timed (Except Fault Response))
  | [], _ => []
  | q :: qs, network => (net.answer q network).1 :: net.replies qs (net.answer q network).2

/-- A network gives the same replies from one state to requests, and from another to what is put in
    their places. -/
def Renaming.Hidden (ρ : Renaming) (net : Network σ) (network network' : σ) : Prop :=
  ∀ qs, net.replies qs network = net.replies (qs.map ρ.request) network'

/-- What is hidden stays hidden behind one more request. -/
theorem Renaming.Hidden.step {net : Network σ} {network network' : σ}
    (h : ρ.Hidden net network network') (q : Request) :
    (net.answer q network).1 = (net.answer (ρ.request q) network').1 ∧
      ρ.Hidden net (net.answer q network).2 (net.answer (ρ.request q) network').2 := by
  constructor
  · exact (List.cons.inj (h [q])).1
  · intro qs
    exact (List.cons.inj (h (q :: qs))).2

/-- On a network from which the renaming is hidden, a renamed conversation has the renamed events
    and the same ending. -/
theorem Conversation.transcript_rename {net : Network σ} {network network' : σ}
    (c : Conversation α) (h : ρ.Hidden net network network') :
    ((c.rename ρ).transcript net network').events =
        (c.transcript net network).events.map (Event.rename ρ) ∧
      ((c.rename ρ).transcript net network').ending = (c.transcript net network).ending := by
  induction c generalizing network network' with
  | done a => exact ⟨rfl, rfl⟩
  | send request next ih =>
    obtain ⟨hanswer, hafter⟩ := h.step request
    obtain ⟨hevents, hending⟩ := ih (net.answer request network).1.outcome hafter
    simp only [rename, transcript, ← hanswer]
    exact ⟨congrArg (_ :: ·) hevents, hending⟩
  | receive body next ih =>
    obtain ⟨hevents, hending⟩ := ih body.outcome h
    exact ⟨congrArg (_ :: ·) hevents, hending⟩
  | remember key m next ih =>
    obtain ⟨hevents, hending⟩ := ih h
    exact ⟨congrArg (_ :: ·) hevents, hending⟩

end ImageLookup
