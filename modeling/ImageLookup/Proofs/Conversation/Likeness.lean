import ImageLookup.Proofs.Conversation.Transcript
import ImageLookup.Resolver

/-! # Conversations that go alike

Two conversations go alike when they ask for related things and, after answers that agree in all but
the time that they took, go on alike up to related results (`Conversation.Alike`).  On networks that
answer related requests with such answers they then end in related results (`Alike.ending`).  Every
stage of a resolution goes like itself, whatever the manifest is called and whoever asks, as long as
the addresses are the same and the token requests are related.
-/

namespace ImageLookup

open Http (Request Response Fault Timed Network)

/-! ### Answers that agree -/

/-- Two ways to end that agree: both in related results, or both in related failures. -/
inductive Ends {ε ε' α β : Type} (E : ε → ε' → Prop) (V : α → β → Prop) :
    Except ε α → Except ε' β → Prop
  | ok {a b} : V a b → Ends E V (.ok a) (.ok b)
  | error {f g} : E f g → Ends E V (.error f) (.error g)

theorem Ends.eq {ε α : Type} {x y : Except ε α} (h : Ends Eq Eq x y) : x = y := by
  cases h with
  | ok h => rw [h]
  | error h => rw [h]

theorem Ends.eq_ok {ε α : Type} {E : ε → ε → Prop} {x y : Except ε α} {a : α}
    (h : Ends E Eq x y) (hx : x = .ok a) : y = .ok a := by
  cases h with
  | ok heq => rw [← heq, hx]
  | error => cases hx

/-- Responses that differ at most in the time that their bodies take. -/
structure SameResponse (x y : Response) : Prop where
  status : x.status = y.status
  headers : x.headers = y.headers
  body : x.body.outcome = y.body.outcome

/-- Answers that differ at most in the time that their bodies take. -/
abbrev SameAnswer : Except Fault Response → Except Fault Response → Prop := Ends Eq SameResponse

namespace SameResponse

variable {x y : Response}

theorem texts (h : SameResponse x y) (name : String) : x.texts name = y.texts name := by
  rw [Response.texts, Response.values, h.headers]
  rfl

theorem text? (h : SameResponse x y) (name : String) : x.text? name = y.text? name := by
  rw [Response.text?, Response.values, h.headers]
  rfl

theorem probe (h : SameResponse x y) (isWeb : String → Bool) (url : String) :
    Probe.ofResponse isWeb url x = Probe.ofResponse isWeb url y := by
  rw [Probe.ofResponse, Probe.ofResponse, h.status, h.texts]

theorem manifestOf (h : SameResponse x y) (body : Octets) :
    Client.manifestOf x body = Client.manifestOf y body := by
  rw [Client.manifestOf, Client.manifestOf, h.text?, h.text?]

end SameResponse

/-! ### Likeness -/

namespace Conversation

/-- Two conversations ask for related things, and go on alike after answers that agree. -/
inductive Alike {α β : Type} (Q : Request → Request → Prop) (R : α → β → Prop) :
    Conversation α → Conversation β → Prop
  | done {a b} : R a b → Alike Q R (.done a) (.done b)
  | send {request request' next next'} : Q request request' →
    (∀ x y, SameAnswer x y → Alike Q R (next x) (next' y)) →
    Alike Q R (.send request next) (.send request' next')
  | receive {body body' next next'} : body.outcome = body'.outcome →
    (∀ x, Alike Q R (next x) (next' x)) → Alike Q R (.receive body next) (.receive body' next')
  | remember {key key' m m' next next'} : Alike Q R next next' →
    Alike Q R (.remember key m next) (.remember key' m' next')

/-- Networks that stay in related states and answer related requests with answers that agree. -/
def Mirrors {σ τ : Type} (Q : Request → Request → Prop) (S : σ → τ → Prop) (net : Network σ)
    (net' : Network τ) : Prop :=
  ∀ q q' s s', Q q q' → S s s' →
    SameAnswer (net.answer q s).1.outcome (net'.answer q' s').1.outcome ∧
      S (net.answer q s).2 (net'.answer q' s').2

variable {α α' β β' σ τ : Type} {Q : Request → Request → Prop} {R : α → β → Prop}
variable {R' : α' → β' → Prop} {c : Conversation α} {c' : Conversation β}

/-- What goes on alike after alike conversations is alike with them. -/
theorem Alike.bind {f : α → Conversation α'} {f' : β → Conversation β'} (h : Alike Q R c c')
    (hf : ∀ a b, R a b → Alike Q R' (f a) (f' b)) : Alike Q R' (c.bind f) (c'.bind f') := by
  induction h with
  | done hab => exact hf _ _ hab
  | send hq _ ih => exact .send hq ih
  | receive hbody _ ih => exact .receive hbody ih
  | remember _ ih => exact .remember ih

/-- By induction on the tree: networks that mirror each other stay in step. -/
theorem Alike.ending {S : σ → τ → Prop} {net : Network σ} {net' : Network τ}
    (h : Alike Q R c c') (hnet : Mirrors Q S net net') {s : σ} {s' : τ} (hs : S s s') :
    R (c.transcript net s).ending (c'.transcript net' s').ending := by
  induction h generalizing s s' with
  | done hab => exact hab
  | send hq _ ih =>
    obtain ⟨hanswer, hafter⟩ := hnet _ _ s s' hq hs
    exact ih _ _ hanswer hafter
  | @receive body body' next next' hbody _ ih =>
    have hending := ih body.outcome hs
    rw [transcript, transcript, ← hbody]
    exact hending
  | remember _ ih => exact ih hs

end Conversation

open Conversation (Alike)

variable {Q : Request → Request → Prop} {E : Failure → Failure → Prop}

namespace Attempt

variable {α α' β β' : Type} {V : α → β → Prop} {W : α' → β' → Prop}

theorem alike_bind {x : Attempt α} {y : Attempt β} {f : α → Attempt α'} {g : β → Attempt β'}
    (hx : Alike Q (Ends E V) x.run y.run)
    (hf : ∀ a b, V a b → Alike Q (Ends E W) (f a).run (g b).run) :
    Alike Q (Ends E W) (x >>= f).run (y >>= g).run := by
  rw [ExceptT.run_bind, ExceptT.run_bind]
  apply Alike.bind hx
  intro a b hends
  cases hends with
  | ok hab => exact hf _ _ hab
  | error hfg => exact .done (.error hfg)

/-- Sending agrees up to the address in the failure. -/
theorem alike_send (c : Client) {q q' : Request} (hq : Q q q')
    (hE : ∀ f, E (c.failure q.url f) (c.failure q'.url f)) :
    Alike Q (Ends E SameResponse) (send c q).run (send c q').run := by
  apply Alike.send hq
  intro x y hsame
  cases hsame with
  | ok h => exact .done (.ok h)
  | error h =>
    rw [h]
    exact .done (.error (hE _))

theorem alike_body (c : Client) (url : String) {x y : Response} (h : SameResponse x y)
    (hE : ∀ f, E f f) : Alike Q (Ends E Eq) (body c url x).run (body c url y).run := by
  apply Alike.receive h.body
  intro outcome
  cases outcome with
  | ok octets => exact .done (.ok rfl)
  | error fault => exact .done (.error (hE _))

/-- Two requests whose answers are read where their status is 200, and dealt with otherwise
    unread. -/
theorem alike_request {c : Client} {q q' : Request} {url : String}
    {onOk onOk' : Response → Octets → Attempt α} {otherwise otherwise' : Response → Attempt α}
    {V : α → α → Prop} (hq : Q q q') (hE : ∀ f, E f f) (hurl : q.url = q'.url)
    (hok : ∀ x y octets, SameResponse x y →
      Alike Q (Ends E V) (onOk x octets).run (onOk' y octets).run)
    (hother : ∀ x y, SameResponse x y →
      Alike Q (Ends E V) (otherwise x).run (otherwise' y).run) :
    Alike Q (Ends E V)
      (do
        let answer ← send c q
        if answer.status = 200 then
          let octets ← body c url answer
          onOk answer octets
        else otherwise answer : Attempt α).run
      (do
        let answer ← send c q'
        if answer.status = 200 then
          let octets ← body c url answer
          onOk' answer octets
        else otherwise' answer : Attempt α).run := by
  have hsend : Alike Q (Ends E SameResponse) (send c q).run (send c q').run := by
    apply alike_send c hq
    intro f
    rw [hurl]
    exact hE _
  apply alike_bind hsend
  intro x y hsame
  rw [hsame.status]
  by_cases hstatus : y.status = 200
  · rw [if_pos hstatus, if_pos hstatus]
    apply alike_bind (alike_body c url hsame hE)
    rintro octets _ rfl
    exact hok x y octets hsame
  · rw [if_neg hstatus, if_neg hstatus]
    exact hother x y hsame

end Attempt

/-! ### Stages -/

namespace Client

variable {c : Client} {r r' : Reference} {k k' : Option Credential} {token : Option BearerToken}

/-- The stages of a lookup follow, each from those before it. -/
theorem exchange_alike (hE : ∀ f, E f f) (ch : Challenge)
    (htoken : Q (tokenRequest ch k) (tokenRequest ch k')) :
    Alike Q (Ends E Eq) (c.exchange ch k).run (c.exchange ch k').run := by
  rw [exchange, exchange]
  apply Attempt.alike_request htoken hE rfl
  · intro x y octets hsame
    exact .done (.ok rfl)
  · intro x y hsame
    rw [hsame.status]
    by_cases hforbidden : y.status = 403
    · rw [if_pos hforbidden]
      exact .done (.error (hE _))
    · rw [if_neg hforbidden]
      exact .done (.ok rfl)

theorem probe_alike (hQ : ∀ q, Q q q) (hE : ∀ f, E f f) (r : Reference) :
    Alike Q (Ends E Eq) (c.probe r).run (c.probe r).run := by
  rw [probe]
  apply Attempt.alike_bind (Attempt.alike_send c (hQ _) fun f => hE _)
  intro x y hsame
  rw [hsame.probe]
  apply Alike.done
  cases Probe.ofResponse c.isWeb (c.manifestUrl r) y with
  | ok p => exact .ok rfl
  | error f => exact .error (hE f)

theorem authenticate_alike (hQ : ∀ q, Q q q) (hE : ∀ f, E f f)
    (htoken : ∀ ch, Q (tokenRequest ch k) (tokenRequest ch k')) (r : Reference) :
    Alike Q (Ends E Eq) (c.authenticate r k).run (c.authenticate r k').run := by
  rw [authenticate, authenticate]
  apply Attempt.alike_bind (probe_alike hQ hE r)
  rintro p _ rfl
  cases p with
  | noAuthRequired => exact .done (.ok rfl)
  | challenged ch => exact exchange_alike hE ch (htoken ch)

/-- Authentication depends on the address of the manifest, and on nothing else of the reference. -/
theorem authenticate_congr (hurl : c.manifestUrl r = c.manifestUrl r') (k : Option Credential) :
    c.authenticate r k = c.authenticate r' k := by
  rw [authenticate, authenticate, probe, probe, hurl]

/-- The name of the reference appears only where no manifest is found. -/
theorem negotiate_alike (hQ : ∀ q, Q q q) (hE : ∀ f, E f f)
    (hurl : c.manifestUrl r = c.manifestUrl r')
    (hname : E (.imageNotFound r.text) (.imageNotFound r'.text)) (mediaTypes : List String) :
    Alike Q (Ends E Eq) (c.negotiate r token mediaTypes).run
      (c.negotiate r' token mediaTypes).run := by
  induction mediaTypes with
  | nil => exact .done (.error hname)
  | cons mediaType mediaTypes ih =>
    rw [negotiate, negotiate, hurl]
    apply Attempt.alike_request (hQ _) hE rfl
    · intro x y octets hsame
      rw [hsame.manifestOf]
      exact .done (.ok rfl)
    · intro x y _
      exact ih

/-- Lookups that find nothing in their memos. -/
theorem lookup_alike {memo memo' : Memo} (hQ : ∀ q, Q q q) (hE : ∀ f, E f f)
    (hurl : c.manifestUrl r = c.manifestUrl r')
    (hname : E (.imageNotFound r.text) (.imageNotFound r'.text))
    (htoken : ∀ ch, Q (tokenRequest ch k) (tokenRequest ch k'))
    (hmiss : memo.get? (.of r k) = none) (hmiss' : memo'.get? (.of r' k') = none) :
    Alike Q (Ends E Eq) (c.lookup memo r k).run (c.lookup memo' r' k').run := by
  rw [lookup, lookup, hmiss, hmiss', authenticate_congr hurl]
  apply Attempt.alike_bind (authenticate_alike hQ hE htoken r')
  rintro token _ rfl
  apply Attempt.alike_bind (negotiate_alike hQ hE hurl hname negotiationOrder)
  rintro m _ rfl
  exact .remember (.done (.ok rfl))

theorem fetchConfig_alike (hQ : ∀ q, Q q q) (hE : ∀ f, E f f)
    (htoken : ∀ ch, Q (tokenRequest ch k) (tokenRequest ch k')) (r : Reference) (d : Digest) :
    Alike Q (Ends E Eq) (c.fetchConfig r d k).run (c.fetchConfig r d k').run := by
  rw [fetchConfig, fetchConfig]
  apply Attempt.alike_bind (authenticate_alike hQ hE htoken r)
  rintro token _ rfl
  apply Attempt.alike_request (hQ _) hE rfl
  · intro x y octets hsame
    exact .done (.ok rfl)
  · intro x y hsame
    exact .done (.ok rfl)

theorem workingDirectoryFor_alike (hQ : ∀ q, Q q q)
    (htoken : ∀ ch, Q (tokenRequest ch k) (tokenRequest ch k')) (r : Reference) (m : Manifest) :
    Alike Q Eq (c.workingDirectoryFor r m k) (c.workingDirectoryFor r m k') := by
  rw [workingDirectoryFor, workingDirectoryFor]
  cases m.configDigest? with
  | none => exact .done rfl
  | some d =>
    apply Alike.bind (fetchConfig_alike hQ (fun f => Eq.refl f) htoken r d)
    intro x y hends
    rw [hends.eq]
    exact .done rfl

end Client

end ImageLookup
