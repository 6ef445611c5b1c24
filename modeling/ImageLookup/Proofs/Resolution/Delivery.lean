import ImageLookup.Proofs.Conversation.Limits
import ImageLookup.Proofs.Resolution.Outcome

/-! # Delivery of manifests

A manifest is fetched when the registry answers a request for it with status 200 and the body is read
to its end in time.  That is told by events alone (`Reads`).  Requests to other addresses and in other
media types stand aside: no answer to them brings a manifest.  A lookup therefore reads at most one,
as the last thing that it does, and as remembering takes no time, no limit can separate the two: either
both have come to pass or neither (`LooksUp.reading`).
-/

namespace ImageLookup

open Http (Request Response Timed Network)

namespace Client

/-! ### Reading a manifest -/

/-- Among the events a request for the manifest is answered with status 200, and the body is read
    to its end. -/
inductive Reads (c : Client) (r : Reference) : List Event → Manifest → Prop
  | here {mediaType token answer elapsed body events} :
    mediaType ∈ negotiationOrder → answer.status = 200 → answer.body.outcome = .ok body →
    Reads c r (.asked (contentRequest (c.manifestUrl r) mediaType token) ⟨.ok answer, elapsed⟩ ::
      .heard answer.body :: events) (manifestOf answer body)
  | later {e events m} : Reads c r events m → Reads c r (e :: events) m

variable {c : Client} {memo : Memo} {r : Reference} {credential : Option Credential}
variable {token : Option BearerToken} {mediaTypes : List String} {limit : Option Nat}
variable {first second events looked later cut : List Event} {e : Event} {m : Manifest}

theorem not_reads_nil : ¬Reads c r [] m := by
  intro h
  cases h

theorem Reads.of_cons (h : Reads c r (e :: events) m) :
    (∃ request answer elapsed body rest, e = .asked request ⟨.ok answer, elapsed⟩ ∧
      events = .heard answer.body :: rest ∧ answer.status = 200 ∧
      answer.body.outcome = .ok body ∧ m = manifestOf answer body) ∨ Reads c r events m := by
  cases h with
  | here hmem hstatus hbody => exact .inl ⟨_, _, _, _, _, rfl, rfl, hstatus, hbody, rfl⟩
  | later h => exact .inr h

theorem Reads.append (h : Reads c r first m) (second : List Event) :
    Reads c r (first ++ second) m := by
  induction h with
  | here hmem hstatus hbody => exact .here hmem hstatus hbody
  | later _ ih => exact .later ih

theorem Reads.prepend (first : List Event) (h : Reads c r second m) :
    Reads c r (first ++ second) m := by
  induction first with
  | nil => exact h
  | cons e first ih => exact .later ih

theorem Reads.of_cut (h : Reads c r cut m) (hcut : cut <+: events) : Reads c r events m := by
  obtain ⟨rest, rfl⟩ := hcut
  exact h.append rest

/-! ### Standing aside -/

/-- Whether an event neither asks for a manifest in one of the media types nor remembers one. -/
def isAside : Event → Bool
  | .asked request _ => !negotiationOrder.contains request.accept
  | .heard _ => true
  | .kept .. => false

theorem Reads.of_cons_aside (h : Reads c r (e :: events) m) (he : isAside e = true) :
    Reads c r events m := by
  cases h with
  | here hmem =>
    have hcontains : negotiationOrder.contains _ = true := List.contains_iff_mem.2 hmem
    rw [isAside, contentRequest, hcontains] at he
    cases he
  | later h => exact h

theorem Reads.of_aside_append (h : Reads c r (first ++ second) m)
    (hfirst : first.all isAside = true) : Reads c r second m := by
  induction first with
  | nil => exact h
  | cons e first ih =>
    rw [List.all_cons, Bool.and_eq_true] at hfirst
    exact ih (h.of_cons_aside hfirst.1) hfirst.2

theorem not_reads_of_aside (h : events.all isAside = true) : ¬Reads c r events m := by
  intro hreads
  have hnil : Reads c r [] m := by
    apply Reads.of_aside_append _ h
    rwa [List.append_nil]
  exact not_reads_nil hnil

theorem isAside_probe (answer) : isAside (.asked (.get (c.manifestUrl r)) answer) = true :=
  (by decide : (!negotiationOrder.contains "*/*") = true)

theorem isAside_tokenRequest (ch : Challenge) (answer) :
    isAside (.asked (tokenRequest ch credential) answer) = true :=
  (by decide : (!negotiationOrder.contains "application/json") = true)

theorem isAside_blobRequest (d : Digest) (answer) :
    isAside (.asked (contentRequest (c.blobUrl r d) "application/json" token) answer) = true :=
  (by decide : (!negotiationOrder.contains "application/json") = true)

theorem Exchanges.aside {ch : Challenge} {result : Except Failure (Option BearerToken)}
    (h : Exchanges c ch credential events result) : events.all isAside = true := by
  cases h with
  | fault | forbidden | withheld | unread | read =>
    rw [List.all_cons, isAside_tokenRequest]
    rfl

theorem Authenticates.aside {result : Except Failure (Option BearerToken)}
    (h : Authenticates c r credential events result) : events.all isAside = true := by
  cases h with
  | fault | refused | unneeded =>
    rw [List.all_cons, isAside_probe]
    rfl
  | challenged _ hexchange => rw [List.all_cons, isAside_probe, hexchange.aside, Bool.and_self]

theorem Fetches.aside {d : Digest} {result : Except Failure (Option ImageConfig)}
    (h : Fetches c r d credential events result) : events.all isAside = true := by
  cases h with
  | unauthenticated hfirst => exact hfirst.aside
  | fault hfirst | declined hfirst | unread hfirst | read hfirst =>
    rw [List.all_append, hfirst.aside, List.all_cons, isAside_blobRequest]
    rfl

/-- Nothing behind the lookup asks for a manifest or remembers one. -/
theorem Locates.aside {directory : String} (h : Locates c r m credential events directory) :
    events.all isAside = true := by
  cases h with
  | unnamed => rfl
  | named _ hfetches => exact hfetches.aside

/-! ### Leaving the memo alone -/

/-- No event changes any memo. -/
def Forgets (events : List Event) : Prop := ∀ e ∈ events, ∀ memo, Event.memoAfter memo e = memo

theorem Forgets.foldl (h : Forgets events) (memo : Memo) :
    events.foldl Event.memoAfter memo = memo := by
  induction events with
  | nil => rfl
  | cons e events ih =>
    rw [List.foldl_cons, h e List.mem_cons_self memo]
    exact ih fun e' he' => h e' (List.mem_cons_of_mem e he')

theorem Forgets.append (hfirst : Forgets first) (hsecond : Forgets second) :
    Forgets (first ++ second) := by
  intro e he
  rcases List.mem_append.1 he with he | he
  · exact hfirst e he
  · exact hsecond e he

theorem forgets_nil : Forgets [] := by
  intro e he
  cases he

theorem Forgets.cons (he : ∀ memo, Event.memoAfter memo e = memo) (h : Forgets events) :
    Forgets (e :: events) := by
  intro e' he'
  rcases List.mem_cons.1 he' with rfl | he'
  · exact he
  · exact h e' he'

theorem Forgets.of_cut (h : Forgets events) (hcut : cut <+: events) : Forgets cut :=
  fun e he => h e (hcut.subset he)

theorem forgets_of_aside (h : events.all isAside = true) : Forgets events := by
  intro e he memo
  have haside := List.all_eq_true.1 h e he
  cases e with
  | asked | heard => rfl
  | kept => cases haside

theorem Negotiates.forgets {result : Except Failure Manifest}
    (h : Negotiates c r token mediaTypes events result) : Forgets events := by
  induction h with
  | exhausted => exact forgets_nil
  | fault => exact forgets_nil.cons fun _ => rfl
  | unread | delivered => exact (forgets_nil.cons fun _ => rfl).cons fun _ => rfl
  | declined _ _ ih => exact ih.cons fun _ => rfl

/-! ### What a lookup reads -/

/-- A negotiation reads the manifest that it ends with, and no other. -/
theorem Negotiates.reads {result : Except Failure Manifest}
    (h : Negotiates c r token mediaTypes events result) (hreads : Reads c r (events ++ later) m) :
    result = .ok m ∨ Reads c r later m := by
  induction h with
  | exhausted => exact .inr hreads
  | fault =>
    rcases hreads.of_cons with ⟨_, _, _, _, _, ⟨⟩, _⟩ | hreads
    exact .inr hreads
  | unread _ hbody =>
    rcases hreads.of_cons with ⟨_, _, _, _, _, ⟨⟩, _, _, hbody', _⟩ | hreads
    · rw [hbody] at hbody'
      cases hbody'
    · rcases hreads.of_cons with ⟨_, _, _, _, _, ⟨⟩, _⟩ | hreads
      exact .inr hreads
  | delivered _ hbody =>
    rcases hreads.of_cons with ⟨_, _, _, _, _, ⟨⟩, _, _, hbody', rfl⟩ | hreads
    · rw [hbody] at hbody'
      obtain rfl := Except.ok.inj hbody'
      exact .inl rfl
    · rcases hreads.of_cons with ⟨_, _, _, _, _, ⟨⟩, _⟩ | hreads
      exact .inr hreads
  | declined hstatus _ ih =>
    rcases hreads.of_cons with ⟨_, _, _, _, _, ⟨⟩, _, hstatus', _⟩ | hreads
    · exact absurd hstatus' hstatus
    · exact ih hreads

/-- An answer without its body is not a manifest yet. -/
theorem not_reads_asked_heard {request : Request} {answer : Timed (Except Http.Fault Response)}
    {body : Timed (Except Http.Fault Octets)} (hcut : cut <+: [.asked request answer, .heard body])
    (hne : cut ≠ [.asked request answer, .heard body]) : ¬Reads c r cut m := by
  intro hreads
  cases hreads with
  | here =>
    obtain ⟨hasked, hcut⟩ := List.cons_prefix_cons.1 hcut
    obtain ⟨hheard, hnil⟩ := List.cons_prefix_cons.1 hcut
    exact hne (by rw [hasked, hheard, List.prefix_nil.1 hnil])
  | later hreads =>
    obtain ⟨-, hcut⟩ := List.cons_prefix_cons.1 hcut
    cases hreads with
    | here => cases (List.cons_prefix_cons.1 hcut).1
    | later hreads =>
      obtain ⟨-, hnil⟩ := List.cons_prefix_cons.1 hcut
      rw [List.prefix_nil.1 hnil] at hreads
      exact not_reads_nil hreads

/-- A manifest is read by the last event only. -/
theorem Negotiates.not_reads_of_cut {result : Except Failure Manifest}
    (h : Negotiates c r token mediaTypes events result) (hcut : cut <+: events)
    (hne : cut ≠ events) : ¬Reads c r cut m := by
  induction h generalizing cut with
  | exhausted => exact absurd (List.prefix_nil.1 hcut) hne
  | fault =>
    intro hreads
    have hreads := hreads.of_cut hcut
    rcases hreads.of_cons with ⟨_, _, _, _, _, ⟨⟩, _⟩ | hreads
    exact not_reads_nil hreads
  | unread | delivered => exact not_reads_asked_heard hcut hne
  | declined hstatus _ ih =>
    intro hreads
    cases cut with
    | nil => exact not_reads_nil hreads
    | cons e cut =>
      obtain ⟨rfl, hrest⟩ := List.cons_prefix_cons.1 hcut
      rcases hreads.of_cons with ⟨_, _, _, _, _, ⟨⟩, _, hstatus', _⟩ | hreads
      · exact hstatus hstatus'
      · exact ih hrest (fun heq => hne (by rw [heq])) hreads

theorem Negotiates.reads_of_ok (h : Negotiates c r token negotiationOrder events (.ok m)) :
    Reads c r events m := by
  obtain ⟨before, mediaType, answer, elapsed, body, hmem, hstatus, hbody, rfl, rfl⟩ := h.ok_cases
  exact (Reads.here hmem hstatus hbody).prepend before

/-! ### What a lookup leaves -/

/-- Nothing is read, and nothing remembered. -/
structure ReadsNothing (c : Client) (r : Reference) (events : List Event) : Prop where
  none : ∀ m, ¬Reads c r events m
  forgets : Forgets events

/-- One manifest is read, and remembered under the key. -/
structure ReadsOne (c : Client) (r : Reference) (key : ManifestKey) (events : List Event)
    (m : Manifest) : Prop where
  reads : Reads c r events m
  only : ∀ m', Reads c r events m' → m' = m
  remembers : ∀ memo, events.foldl Event.memoAfter memo = memo.store key m

theorem readsNothing_of_aside (h : events.all isAside = true) (hcut : cut <+: events) :
    ReadsNothing c r cut where
  none _ hreads := not_reads_of_aside h (hreads.of_cut hcut)
  forgets := (forgets_of_aside h).of_cut hcut

/-- A negotiation that is cut off, by a failure or by a limit, reads nothing. -/
theorem readsNothing_of_cut {result : Except Failure Manifest}
    (hfirst : first.all isAside = true)
    (hsecond : Negotiates c r token mediaTypes second result)
    (hcut : cut <+: first ++ second) (hne : cut ≠ first ++ second) : ReadsNothing c r cut := by
  have hforgets := (forgets_of_aside hfirst).append hsecond.forgets
  refine ⟨?_, hforgets.of_cut hcut⟩
  intro m hreads
  -- the cut falls into what comes before the negotiation, or into the negotiation
  rcases List.prefix_or_prefix_of_prefix hcut (List.prefix_append first second) with h | h
  · exact not_reads_of_aside hfirst (hreads.of_cut h)
  · obtain ⟨rest, rfl⟩ := h
    have hrest : rest <+: second := (List.prefix_append_right_inj first).1 hcut
    exact hsecond.not_reads_of_cut hrest (fun heq => hne (by rw [heq]))
      (hreads.of_aside_append hfirst)

theorem readsOne_of_delivered (hfirst : first.all isAside = true)
    (hsecond : Negotiates c r token negotiationOrder second (.ok m)) (key : ManifestKey)
    (hlater : later.all isAside = true) :
    ReadsOne c r key (first ++ second ++ [.kept key m] ++ later) m where
  reads := by
    rw [List.append_assoc, List.append_assoc]
    exact (hsecond.reads_of_ok.append _).prepend first
  only m' hreads := by
    rw [List.append_assoc, List.append_assoc] at hreads
    rcases hsecond.reads (hreads.of_aside_append hfirst) with heq | hreads
    · exact (Except.ok.inj heq).symm
    · cases hreads with
      | later hreads => exact absurd hreads (not_reads_of_aside hlater)
  remembers memo := by
    rw [List.foldl_append, List.foldl_append,
      ((forgets_of_aside hfirst).append hsecond.forgets).foldl,
      (forgets_of_aside hlater).foldl]
    rfl

/-- Either a lookup reads nothing in time, or it succeeds and is in time as a whole. -/
theorem LooksUp.reading {result : Except Failure Manifest} (limit : Option Nat)
    (h : LooksUp c memo r credential looked result) (hlater : later.all isAside = true) :
    ReadsNothing c r (Event.inTime limit (looked ++ later)) ∨
      ∃ m, result = .ok m ∧
        ReadsOne c r (.of r credential) (Event.inTime limit (looked ++ later)) m := by
  have hprefix := Event.inTime_prefix limit (looked ++ later)
  cases h with
  | remembered => exact .inl (readsNothing_of_aside hlater hprefix)
  | unauthenticated _ hfirst =>
    refine .inl (readsNothing_of_aside ?_ hprefix)
    rw [List.all_append, hfirst.aside, hlater, Bool.and_self]
  | undelivered _ hfirst hsecond =>
    rw [List.append_assoc] at hprefix ⊢
    refine .inl ⟨?_, ?_⟩
    · intro m hreads
      have hreads := (hreads.of_cut hprefix).of_aside_append hfirst.aside
      rcases hsecond.reads hreads with herror | hreads
      · cases herror
      · exact not_reads_of_aside hlater hreads
    · exact ((forgets_of_aside hfirst.aside).append
        (hsecond.forgets.append (forgets_of_aside hlater))).of_cut hprefix
  | @delivered first token second m _ hfirst hsecond =>
    cases hfits : Event.fits limit (first ++ second ++ [.kept (.of r credential) m]) with
    | true =>
      obtain ⟨left, heq⟩ := Event.inTime_append_of_fits later hfits
      rw [heq]
      refine .inr ⟨m, rfl, readsOne_of_delivered hfirst.aside hsecond _ ?_⟩
      exact List.all_eq_true.2 fun e he =>
        List.all_eq_true.1 hlater e ((Event.inTime_prefix left later).subset he)
    | false =>
      -- remembering takes no time: it is the negotiation that is late
      rw [Event.inTime_append_of_not_fits later hfits]
      rw [Event.fits_append_kept] at hfits
      rw [Event.inTime_append_of_not_fits _ hfits]
      exact .inl (readsNothing_of_cut hfirst.aside hsecond (Event.inTime_prefix limit _)
        (Event.inTime_ne_self hfits))

/-- What is fetched is also remembered, so only the memo answers in silence. -/
theorem LooksUp.remembered_of_silent (h : LooksUp c memo r credential looked (.ok m))
    (hsilent : looked = []) : memo.get? (.of r credential) = some m := by
  cases h with
  | remembered hmemo => exact hmemo
  | delivered => simp at hsilent

end Client

end ImageLookup
