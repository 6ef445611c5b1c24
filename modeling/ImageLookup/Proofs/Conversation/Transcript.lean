import ImageLookup.Conversation

/-! # Transcripts of conversations

A conversation that is carried out leaves a transcript: every request with its answer, every body
with what was read of it, and every manifest that was remembered, in order.  The transcript of an
undisturbed conversation depends on the network alone.  A limit cuts it off behind the first event
that comes too late, and `run_result`, `run_sent` and `run_memo` say that this is all a limit does.

What a conversation may do on any network at all is stated without networks: `Yields` relates it to
the transcripts and the results that some answers lead to, and it follows the steps of the program.
-/

namespace ImageLookup

open Http (Request Response Fault Timed Network)

/-! ### Limits -/

def exceeds (left : Option Nat) (elapsed : Nat) : Bool := left.any (· < elapsed)

@[simp] theorem exceeds_zero (left : Option Nat) : exceeds left 0 = false := by
  cases left <;> rfl

namespace Session

variable {σ : Type} {s : Session σ} {elapsed : Nat}

theorem wait?_of_exceeds (h : exceeds s.timeLeft elapsed = true) : s.wait? elapsed = none := by
  cases hleft : s.timeLeft with
  | none => simp [exceeds, hleft] at h
  | some left => simpa [wait?, exceeds, hleft] using h

theorem wait?_of_not_exceeds (h : exceeds s.timeLeft elapsed = false) :
    s.wait? elapsed = some ⟨s.network, s.memo, s.sent, s.timeLeft.map (· - elapsed)⟩ := by
  obtain ⟨network, memo, sent, timeLeft⟩ := s
  cases timeLeft with
  | none => rfl
  | some left => exact if_neg (by simpa [exceeds] using h)

end Session

/-! ### Events -/

inductive Event where
  | asked (request : Request) (answer : Timed (Except Fault Response))
  | heard (body : Timed (Except Fault Octets))
  | kept (key : ManifestKey) (m : Manifest)

namespace Event

def request? : Event → Option Request
  | .asked request _ => some request
  | _ => none

def elapsed : Event → Nat
  | .asked _ answer => answer.elapsed
  | .heard body => body.elapsed
  | .kept .. => 0

def memoAfter (memo : Memo) : Event → Memo
  | .kept key m => memo.store key m
  | _ => memo

def faultOf {α : Type} : Except Fault α → Option Fault
  | .error f => some f
  | .ok _ => none

def fault? : Event → Option Fault
  | .asked _ answer => faultOf answer.outcome
  | .heard body => faultOf body.outcome
  | .kept .. => none

theorem fault?_heard {body : Timed (Except Fault Octets)} {f : Fault}
    (h : body.outcome = .error f) : (heard body).fault? = some f := by
  rw [fault?, h, faultOf]

def requests (events : List Event) : List Request := events.filterMap request?

def duration : List Event → Nat
  | [] => 0
  | e :: events => e.elapsed + duration events

/-- The events within a limit, and the one that exceeds it. -/
def within : Option Nat → List Event → List Event
  | _, [] => []
  | limit, e :: events =>
    if exceeds limit e.elapsed then [e] else e :: within (limit.map (· - e.elapsed)) events

def fits (limit : Option Nat) (events : List Event) : Bool := limit.all (duration events ≤ ·)

@[simp] theorem requests_nil : requests [] = [] := rfl

@[simp] theorem requests_cons (e : Event) (events : List Event) :
    requests (e :: events) = e.request?.toList ++ requests events := by
  cases h : e.request? with
  | none => rw [requests, List.filterMap_cons_none h, requests, Option.toList_none, List.nil_append]
  | some request => rw [requests, List.filterMap_cons_some h, requests, Option.toList_some,
      List.singleton_append]

@[simp] theorem requests_append (first second : List Event) :
    requests (first ++ second) = requests first ++ requests second := List.filterMap_append

@[simp] theorem fits_nil (limit : Option Nat) : fits limit [] = true := by
  cases limit with
  | none => rfl
  | some left => simp [fits, duration]

theorem fits_cons (limit : Option Nat) (e : Event) (events : List Event) :
    fits limit (e :: events) =
      (!exceeds limit e.elapsed && fits (limit.map (· - e.elapsed)) events) := by
  cases limit with
  | none => rfl
  | some left =>
    have hsum : duration (e :: events) ≤ left ↔
        ¬left < e.elapsed ∧ duration events ≤ left - e.elapsed := by
      rw [duration]
      omega
    rw [Bool.eq_iff_iff]
    simpa [fits, exceeds] using hsum

/-- What a limit leaves is a beginning of the events. -/
theorem within_prefix (limit : Option Nat) (events : List Event) :
    within limit events <+: events := by
  induction events generalizing limit with
  | nil => exact List.prefix_rfl
  | cons e events ih =>
    rw [within]
    split
    · exact ⟨events, rfl⟩
    · exact (List.prefix_cons_inj e).2 (ih (limit.map (· - e.elapsed)))

/-- Nothing is cut off where the limit is kept. -/
theorem within_eq_self {limit : Option Nat} {events : List Event}
    (h : fits limit events = true) : within limit events = events := by
  induction events generalizing limit with
  | nil => rfl
  | cons e events ih =>
    rw [fits_cons, Bool.and_eq_true, Bool.not_eq_true'] at h
    rw [within, if_neg (by simp [h.1]), ih h.2]

end Event

/-! ### Transcripts -/

/-- What an undisturbed conversation leaves behind. -/
structure Transcript (σ α : Type) where
  events : List Event
  ending : α
  /-- The state of the network afterwards. -/
  network : σ

namespace Conversation

variable {σ α β : Type}

def transcript (net : Network σ) : Conversation α → σ → Transcript σ α
  | .done a, network => ⟨[], a, network⟩
  | .send request next, network =>
    let reply := net.answer request network
    let rest := (next reply.1.outcome).transcript net reply.2
    ⟨.asked request reply.1 :: rest.events, rest.ending, rest.network⟩
  | .receive body next, network =>
    let rest := (next body.outcome).transcript net network
    ⟨.heard body :: rest.events, rest.ending, rest.network⟩
  | .remember key m next, network =>
    let rest := next.transcript net network
    ⟨.kept key m :: rest.events, rest.ending, rest.network⟩

/-- The second conversation meets the network as the first one leaves it. -/
theorem transcript_bind (net : Network σ) (c : Conversation α) (f : α → Conversation β)
    (network : σ) :
    (c.bind f).transcript net network =
      let first := c.transcript net network
      let second := (f first.ending).transcript net first.network
      ⟨first.events ++ second.events, second.ending, second.network⟩ := by
  induction c generalizing network with
  | done => rfl
  | send request next ih => simp [bind, transcript, ih]
  | receive body next ih => simp [bind, transcript, ih]
  | remember key m next ih => simp [bind, transcript, ih]

theorem events_prefix_bind (net : Network σ) (c : Conversation α) (f : α → Conversation β)
    (network : σ) :
    (c.transcript net network).events <+: ((c.bind f).transcript net network).events := by
  rw [transcript_bind]
  exact List.prefix_append _ _

/-- What a limit does to a conversation: it keeps what is within, and the result only where that
    is everything. -/
theorem run_eq_transcript (net : Network σ) (c : Conversation α) (s : Session σ) :
    (c.run net s).1 =
        (if Event.fits s.timeLeft (c.transcript net s.network).events
          then some (c.transcript net s.network).ending else none) ∧
      (c.run net s).2.sent =
        s.sent ++ Event.requests
          (Event.within s.timeLeft (c.transcript net s.network).events) ∧
      (c.run net s).2.memo =
        (Event.within s.timeLeft (c.transcript net s.network).events).foldl
          Event.memoAfter s.memo := by
  induction c generalizing s with
  | done a => simp [run, transcript, Event.within]
  | send request next ih =>
    rw [run, transcript]
    cases hlate : exceeds s.timeLeft (net.answer request s.network).1.elapsed with
    | true =>
      simp [Session.wait?_of_exceeds, Event.fits_cons, Event.within, hlate, Event.elapsed,
        Event.request?, Event.memoAfter]
    | false =>
      simp [Session.wait?_of_not_exceeds, Event.fits_cons, Event.within, hlate, ih, Event.elapsed,
        Event.request?, Event.memoAfter]
  | receive body next ih =>
    rw [run, transcript]
    cases hlate : exceeds s.timeLeft body.elapsed with
    | true =>
      simp [Session.wait?_of_exceeds, Event.fits_cons, Event.within, hlate, Event.elapsed,
        Event.request?, Event.memoAfter]
    | false =>
      simp [Session.wait?_of_not_exceeds, Event.fits_cons, Event.within, hlate, ih, Event.elapsed,
        Event.request?, Event.memoAfter]
  | remember key m next ih =>
    simp [run, transcript, Event.fits_cons, Event.within, ih, Event.elapsed, Event.request?,
      Event.memoAfter]

/-! ### What a conversation may leave -/

/-- Whether some answers make a conversation leave these events and end so. -/
def Yields : Conversation α → List Event → α → Prop
  | .done a, events, b => events = [] ∧ b = a
  | .send request next, events, b =>
    ∃ answer rest, events = .asked request answer :: rest ∧ (next answer.outcome).Yields rest b
  | .receive body next, events, b =>
    ∃ rest, events = .heard body :: rest ∧ (next body.outcome).Yields rest b
  | .remember key m next, events, b => ∃ rest, events = .kept key m :: rest ∧ next.Yields rest b

/-- What happens on a network is one of the things that can happen. -/
theorem yields_transcript (net : Network σ) (c : Conversation α) (network : σ) :
    c.Yields (c.transcript net network).events (c.transcript net network).ending := by
  induction c generalizing network with
  | done a => exact ⟨rfl, rfl⟩
  | send request next ih => exact ⟨_, _, rfl, ih _ _⟩
  | receive body next ih => exact ⟨_, rfl, ih _ _⟩
  | remember key m next ih => exact ⟨_, rfl, ih _⟩

/-- A conversation in two parts leaves the events of both, one after the other. -/
theorem yields_bind {c : Conversation α} {f : α → Conversation β} {events : List Event} {b : β} :
    (c.bind f).Yields events b ↔
      ∃ first a second, c.Yields first a ∧ (f a).Yields second b ∧ events = first ++ second := by
  induction c generalizing events with
  | done a =>
    constructor
    · intro h
      exact ⟨[], a, events, ⟨rfl, rfl⟩, h, rfl⟩
    · rintro ⟨_, _, second, ⟨rfl, rfl⟩, h, rfl⟩
      exact h
  | send request next ih =>
    constructor
    · rintro ⟨answer, rest, rfl, h⟩
      obtain ⟨first, a, second, hfirst, hsecond, rfl⟩ := (ih _).1 h
      exact ⟨_, a, second, ⟨answer, first, rfl, hfirst⟩, hsecond, rfl⟩
    · rintro ⟨_, a, second, ⟨answer, first, rfl, hfirst⟩, hsecond, rfl⟩
      exact ⟨answer, _, rfl, (ih _).2 ⟨first, a, second, hfirst, hsecond, rfl⟩⟩
  | receive body next ih =>
    constructor
    · rintro ⟨rest, rfl, h⟩
      obtain ⟨first, a, second, hfirst, hsecond, rfl⟩ := (ih _).1 h
      exact ⟨_, a, second, ⟨first, rfl, hfirst⟩, hsecond, rfl⟩
    · rintro ⟨_, a, second, ⟨first, rfl, hfirst⟩, hsecond, rfl⟩
      exact ⟨_, rfl, (ih _).2 ⟨first, a, second, hfirst, hsecond, rfl⟩⟩
  | remember key m next ih =>
    constructor
    · rintro ⟨rest, rfl, h⟩
      obtain ⟨first, a, second, hfirst, hsecond, rfl⟩ := ih.1 h
      exact ⟨_, a, second, ⟨first, rfl, hfirst⟩, hsecond, rfl⟩
    · rintro ⟨_, a, second, ⟨first, rfl, hfirst⟩, hsecond, rfl⟩
      exact ⟨_, rfl, ih.2 ⟨first, a, second, hfirst, hsecond, rfl⟩⟩

end Conversation

/-! ### Attempts -/

namespace Attempt

variable {α β : Type} {events : List Event}

theorem yields_bind {x : Attempt α} {f : α → Attempt β} {b : Except Failure β} :
    (x >>= f).run.Yields events b ↔
      (∃ failure, x.run.Yields events (.error failure) ∧ b = .error failure) ∨
        ∃ first a second, x.run.Yields first (.ok a) ∧ (f a).run.Yields second b ∧
          events = first ++ second := by
  rw [ExceptT.run_bind]
  refine Conversation.yields_bind.trans ?_
  constructor
  · rintro ⟨first, failure | a, second, hfirst, hsecond, rfl⟩
    · obtain ⟨rfl, rfl⟩ := hsecond
      exact .inl ⟨failure, by simpa using hfirst, rfl⟩
    · exact .inr ⟨first, a, second, hfirst, hsecond, rfl⟩
  · rintro (⟨failure, hfirst, rfl⟩ | ⟨first, a, second, hfirst, hsecond, rfl⟩)
    · exact ⟨events, .error failure, [], hfirst, ⟨rfl, rfl⟩, (List.append_nil events).symm⟩
    · exact ⟨first, .ok a, second, hfirst, hsecond, rfl⟩

theorem yields_send_bind {c : Client} {request : Request} {f : Response → Attempt β}
    {b : Except Failure β} :
    (send c request >>= f).run.Yields events b ↔
      (∃ fault elapsed, events = [.asked request ⟨.error fault, elapsed⟩] ∧
        b = .error (c.failure request.url fault)) ∨
      ∃ answer elapsed rest, events = .asked request ⟨.ok answer, elapsed⟩ :: rest ∧
        (f answer).run.Yields rest b := by
  constructor
  · rintro ⟨⟨fault | answer, elapsed⟩, rest, rfl, h⟩
    · obtain ⟨rfl, rfl⟩ := h
      exact .inl ⟨fault, elapsed, rfl, rfl⟩
    · exact .inr ⟨answer, elapsed, rest, rfl, h⟩
  · rintro (⟨fault, elapsed, rfl, rfl⟩ | ⟨answer, elapsed, rest, rfl, h⟩)
    · exact ⟨⟨.error fault, elapsed⟩, [], rfl, rfl, rfl⟩
    · exact ⟨⟨.ok answer, elapsed⟩, rest, rfl, h⟩

theorem yields_body_bind {c : Client} {url : String} {r : Response} {f : Octets → Attempt β}
    {b : Except Failure β} :
    (body c url r >>= f).run.Yields events b ↔
      (∃ fault, r.body.outcome = .error fault ∧ events = [.heard r.body] ∧
        b = .error (c.failure url fault)) ∨
      ∃ octets rest, r.body.outcome = .ok octets ∧ events = .heard r.body :: rest ∧
        (f octets).run.Yields rest b := by
  obtain ⟨status, headers, ⟨fault | octets, elapsed⟩⟩ := r
  · constructor
    · rintro ⟨rest, rfl, rfl, rfl⟩
      exact .inl ⟨fault, rfl, rfl, rfl⟩
    · rintro (⟨_, ⟨⟩, rfl, rfl⟩ | ⟨_, _, ⟨⟩, _⟩)
      exact ⟨[], rfl, rfl, rfl⟩
  · constructor
    · rintro ⟨rest, rfl, h⟩
      exact .inr ⟨octets, rest, rfl, rfl, h⟩
    · rintro (⟨_, ⟨⟩, _⟩ | ⟨_, rest, ⟨⟩, rfl, h⟩)
      exact ⟨rest, rfl, h⟩

/-- A request whose answer is read where its status is 200, and dealt with otherwise unread. -/
theorem yields_request {c : Client} {request : Request} {url : String}
    {onOk : Response → Octets → Attempt β} {otherwise : Response → Attempt β} {b : Except Failure β}
    (h : (do
      let answer ← send c request
      if answer.status = 200 then
        let octets ← body c url answer
        onOk answer octets
      else otherwise answer : Attempt β).run.Yields events b) :
    (∃ fault elapsed, events = [.asked request ⟨.error fault, elapsed⟩] ∧
      b = .error (c.failure request.url fault)) ∨
    (∃ answer elapsed fault, answer.status = 200 ∧ answer.body.outcome = .error fault ∧
      events = [.asked request ⟨.ok answer, elapsed⟩, .heard answer.body] ∧
      b = .error (c.failure url fault)) ∨
    (∃ answer elapsed octets rest, answer.status = 200 ∧ answer.body.outcome = .ok octets ∧
      events = .asked request ⟨.ok answer, elapsed⟩ :: .heard answer.body :: rest ∧
      (onOk answer octets).run.Yields rest b) ∨
    ∃ answer elapsed rest, answer.status ≠ 200 ∧
      events = .asked request ⟨.ok answer, elapsed⟩ :: rest ∧
      (otherwise answer).run.Yields rest b := by
  rw [yields_send_bind] at h
  obtain ⟨fault, elapsed, rfl, rfl⟩ | ⟨answer, elapsed, rest, rfl, hrest⟩ := h
  · exact .inl ⟨fault, elapsed, rfl, rfl⟩
  by_cases hok : answer.status = 200
  · rw [if_pos hok, yields_body_bind] at hrest
    obtain ⟨fault, hbody, rfl, rfl⟩ | ⟨octets, rest, hbody, rfl, hrest⟩ := hrest
    · exact .inr (.inl ⟨answer, elapsed, fault, hok, hbody, rfl, rfl⟩)
    · exact .inr (.inr (.inl ⟨answer, elapsed, octets, rest, hok, hbody, rfl, hrest⟩))
  · rw [if_neg hok] at hrest
    exact .inr (.inr (.inr ⟨answer, elapsed, rest, hok, rfl, hrest⟩))

end Attempt

end ImageLookup
