import ImageLookup.Proofs.Conversation.Transcript

/-! # Events in time

A limit cuts events off behind the first one that exceeds it.  The events before that one are in
time: they came to their end.  The event that exceeds the limit never remembers anything, because
remembering takes no time, so the memo after a cut is the one that the events in time leave
(`foldl_memoAfter_within`).
-/

namespace ImageLookup.Event

variable {limit : Option Nat} {first second events : List Event} {e : Event}

/-- The events that come to their end within a limit. -/
def inTime : Option Nat → List Event → List Event
  | _, [] => []
  | limit, e :: events =>
    if exceeds limit e.elapsed then [] else e :: inTime (limit.map (· - e.elapsed)) events

theorem inTime_cons_of_exceeds (h : exceeds limit e.elapsed = true) (events : List Event) :
    inTime limit (e :: events) = [] := by
  rw [inTime, if_pos h]

theorem inTime_cons_of_not_exceeds (h : exceeds limit e.elapsed = false) (events : List Event) :
    inTime limit (e :: events) = e :: inTime (limit.map (· - e.elapsed)) events := by
  rw [inTime, if_neg (by simp [h])]

/-- Events come to their end in order. -/
theorem inTime_prefix (limit : Option Nat) (events : List Event) :
    inTime limit events <+: events := by
  induction events generalizing limit with
  | nil => exact List.prefix_rfl
  | cons e events ih =>
    cases hlate : exceeds limit e.elapsed with
    | true =>
      rw [inTime_cons_of_exceeds hlate]
      exact List.nil_prefix
    | false =>
      rw [inTime_cons_of_not_exceeds hlate]
      exact (List.prefix_cons_inj e).2 (ih _)

/-- What is in time is in time whether or not the rest has been cut off. -/
theorem inTime_within (limit : Option Nat) (events : List Event) :
    inTime limit (within limit events) = inTime limit events := by
  induction events generalizing limit with
  | nil => rfl
  | cons e events ih =>
    rw [within]
    cases hlate : exceeds limit e.elapsed with
    | true => rw [if_pos rfl, inTime_cons_of_exceeds hlate, inTime_cons_of_exceeds hlate]
    | false =>
      rw [if_neg (by decide), inTime_cons_of_not_exceeds hlate, inTime_cons_of_not_exceeds hlate,
        ih]

/-- After events that keep the limit there is some of it left for what follows. -/
theorem inTime_append_of_fits (second : List Event) (h : fits limit first = true) :
    ∃ left, inTime limit (first ++ second) = first ++ inTime left second := by
  induction first generalizing limit with
  | nil => exact ⟨limit, rfl⟩
  | cons e first ih =>
    rw [fits_cons, Bool.and_eq_true, Bool.not_eq_true'] at h
    obtain ⟨left, heq⟩ := ih h.2
    refine ⟨left, ?_⟩
    rw [List.cons_append, inTime_cons_of_not_exceeds h.1, heq, List.cons_append]

/-- After events that break the limit nothing is in time. -/
theorem inTime_append_of_not_fits (second : List Event) (h : fits limit first = false) :
    inTime limit (first ++ second) = inTime limit first := by
  induction first generalizing limit with
  | nil =>
    rw [fits_nil] at h
    cases h
  | cons e first ih =>
    rw [List.cons_append]
    cases hlate : exceeds limit e.elapsed with
    | true => rw [inTime_cons_of_exceeds hlate, inTime_cons_of_exceeds hlate]
    | false =>
      have hrest : fits (limit.map (· - e.elapsed)) first = false := by
        rw [fits_cons, hlate] at h
        simpa using h
      rw [inTime_cons_of_not_exceeds hlate, inTime_cons_of_not_exceeds hlate, ih hrest]

theorem inTime_ne_self (h : fits limit events = false) : inTime limit events ≠ events := by
  induction events generalizing limit with
  | nil =>
    rw [fits_nil] at h
    cases h
  | cons e events ih =>
    cases hlate : exceeds limit e.elapsed with
    | true =>
      rw [inTime_cons_of_exceeds hlate]
      exact (List.cons_ne_nil e events).symm
    | false =>
      rw [inTime_cons_of_not_exceeds hlate]
      intro heq
      rw [fits_cons, hlate] at h
      exact ih (by simpa using h) (List.cons.inj heq).2

theorem duration_append (first second : List Event) :
    duration (first ++ second) = duration first + duration second := by
  induction first with
  | nil => rw [List.nil_append, duration, Nat.zero_add]
  | cons e first ih => rw [List.cons_append, duration, duration, ih, Nat.add_assoc]

/-- Remembering takes no time. -/
theorem fits_append_kept (limit : Option Nat) (events : List Event) (key : ManifestKey)
    (m : Manifest) : fits limit (events ++ [.kept key m]) = fits limit events := by
  rw [fits, fits, duration_append]
  rfl

theorem memoAfter_of_exceeds (memo : Memo) (h : exceeds limit e.elapsed = true) :
    memoAfter memo e = memo := by
  cases e with
  | asked => rfl
  | heard => rfl
  | kept key m =>
    rw [elapsed, exceeds_zero] at h
    cases h

/-- The event at which the limit expires has no effect on the memo. -/
theorem foldl_memoAfter_within (limit : Option Nat) (events : List Event) (memo : Memo) :
    (within limit events).foldl memoAfter memo = (inTime limit events).foldl memoAfter memo := by
  induction events generalizing limit memo with
  | nil => rfl
  | cons e events ih =>
    rw [within]
    cases hlate : exceeds limit e.elapsed with
    | true =>
      rw [if_pos rfl, inTime_cons_of_exceeds hlate, List.foldl_cons,
        memoAfter_of_exceeds memo hlate]
    | false =>
      rw [if_neg (by decide), inTime_cons_of_not_exceeds hlate, List.foldl_cons, List.foldl_cons,
        ih]

/-! ### Expiry -/

/-- The limit expires at an event: it is kept up to there, and the event exceeds it. -/
structure Expires (limit : Option Nat) (events before : List Event) (e : Event) : Prop where
  cut : before ++ [e] <+: events
  kept : fits limit before = true
  exceeded : fits limit (before ++ [e]) = false

/-- A limit that is exceeded is exceeded by one of the events, the first that does not fit. -/
theorem exists_expires_of_not_fits (h : fits limit events = false) :
    ∃ before e, Expires limit events before e := by
  induction events generalizing limit with
  | nil =>
    rw [fits_nil] at h
    cases h
  | cons e events ih =>
    cases hlate : exceeds limit e.elapsed with
    | true =>
      refine ⟨[], e, ⟨events, rfl⟩, fits_nil limit, ?_⟩
      rw [List.nil_append, fits_cons, hlate]
      rfl
    | false =>
      rw [fits_cons, hlate] at h
      obtain ⟨before, e', hcut, hkept, hexceeded⟩ := ih (by simpa using h)
      refine ⟨e :: before, e', (List.prefix_cons_inj e).2 hcut, ?_, ?_⟩
      · rw [fits_cons, hlate, hkept]
        rfl
      · rw [List.cons_append, fits_cons, hlate, hexceeded]
        rfl

/-- What is cut off is all that follows the event at which the limit expires. -/
theorem Expires.within_and_inTime (h : Expires limit events first e) :
    within limit events = first ++ [e] ∧ inTime limit events = first := by
  obtain ⟨⟨after, rfl⟩, hkept, hexceeded⟩ := h
  induction first generalizing limit with
  | nil =>
    have hlate : exceeds limit e.elapsed = true := by
      rw [List.nil_append, fits_cons, fits_nil] at hexceeded
      simpa using hexceeded
    constructor
    · exact if_pos hlate
    · exact inTime_cons_of_exceeds hlate after
  | cons x first ih =>
    rw [fits_cons, Bool.and_eq_true, Bool.not_eq_true'] at hkept
    rw [List.cons_append, fits_cons, hkept.1] at hexceeded
    obtain ⟨hwithin, hinTime⟩ := ih hkept.2 (by simpa using hexceeded)
    rw [List.append_assoc] at hwithin hinTime
    rw [List.append_assoc, List.cons_append]
    constructor
    · rw [within, if_neg (by simp [hkept.1]), hwithin, List.cons_append]
    · rw [inTime_cons_of_not_exceeds hkept.1, hinTime]

theorem Expires.not_fits (h : Expires limit events first e) : fits limit events = false := by
  cases hfits : fits limit events with
  | false => rfl
  | true =>
    have hexceeded := h.exceeded
    rw [← h.within_and_inTime.1, within_eq_self hfits, hfits] at hexceeded
    cases hexceeded

end ImageLookup.Event
