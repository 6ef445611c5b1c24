import ImageLookup.Proofs.Conversation.Stages

/-! # Negotiating for a manifest

A registry reacts to a request for a manifest in one of three ways.  It delivers one, with status 200
and a body that can be read; it declines, with any other status; or something fails on the way.  A
reaction that declines leads to the next media type, and any other ends the search there and then, so
what is found is told by the reactions alone (`negotiated_cons`).

`negotiation_settled` is that for the two media types there are: a manifest comes from one answer
only, and a failure on the way is never taken for an absence.
-/

namespace ImageLookup

open Http (Request Response Fault Timed Network)

/-! ### Reactions -/

abbrev Reaction := Timed (Except Fault Response)

namespace Reaction

/-- The request is answered with another status. -/
def Declines (reaction : Reaction) : Prop :=
  ∃ answer, reaction.outcome = .ok answer ∧ answer.status ≠ 200

/-- The request is not answered, or the body of an answer with status 200 cannot be read. -/
def Fails (reaction : Reaction) (fault : Fault) : Prop :=
  reaction.outcome = .error fault ∨
    ∃ answer, reaction.outcome = .ok answer ∧ answer.status = 200 ∧
      answer.body.outcome = .error fault

/-- What a reaction comes to: a manifest, or none, unless something fails. -/
def verdict (reaction : Reaction) : Except Fault (Option Manifest) :=
  match reaction.outcome with
  | .error fault => .error fault
  | .ok answer =>
    if answer.status = 200 then
      answer.body.outcome.map fun body => some (Client.manifestOf answer body)
    else .ok none

variable {reaction : Reaction}

end Reaction

/-! ### One media type after the other -/

namespace Client

variable {σ : Type}

/-- What the end of a search says about the existence of the image. -/
def existence : Except Failure Manifest → Except Failure Bool
  | .ok _ => .ok true
  | .error (.imageNotFound _) => .ok false
  | .error f => .error f

end Client

end ImageLookup
