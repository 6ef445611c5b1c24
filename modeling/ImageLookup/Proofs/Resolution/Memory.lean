import ImageLookup.Proofs.Reference.Productions
import ImageLookup.Proofs.Resolution.Delivery
import ImageLookup.Proofs.Resolution.Lookups

/-! # What a resolver remembers

The memo holds the manifest that was fetched last: a call that fetches one leaves it in the memo, under
the key of its reference and credential, and every other call leaves the memo as it was.  What one turn
does to the memo is `Turn.reading`; `Recalls.step` carries it over a run.  As the key holds everything
that tells one lookup from another, a manifest never comes to a call that could not have fetched it.
-/

namespace ImageLookup

open Http (Network)

/-! ### Turns -/

namespace Turn

open Client

variable {σ : Type} {net : Network σ} {t : Turn σ} {ts : List (Turn σ)} {r : Reference}
variable {key : ManifestKey} {m : Manifest} {memo : Memo}

def eventsInTime (net : Network σ) (t : Turn σ) : List Event :=
  Event.inTime (t.call.limit t.resolver) (t.events net)

/-- In the course of a turn a manifest is fetched, and the key is that of the call. -/
def Fetched (net : Network σ) (t : Turn σ) (key : ManifestKey) (m : Manifest) : Prop :=
  ∃ r, t.call.reference? = some r ∧ key = .of r t.call.credential ∧
    Reads t.resolver.client r (t.eventsInTime net) m

theorem following_aside (net : Network σ) (t : Turn σ) (r : Reference) :
    (t.call.following t.resolver net t.network r).all isAside = true := by
  simp only [Call.following]
  split
  · exact (t.located_locates net r _).aside
  · exact (t.located_locates net r _).aside
  · rfl
  · rfl

theorem eventsInTime_eq (hr : t.call.reference? = some r) :
    t.eventsInTime net = Event.inTime (t.call.limit t.resolver)
      ((t.looked net r).events ++ t.call.following t.resolver net t.network r) := by
  rw [eventsInTime, events_looked hr, Event.inTime_within]

theorem outcome_memo (hr : t.call.reference? = some r) :
    (t.outcome net).resolver.memo =
      (t.eventsInTime net).foldl Event.memoAfter t.resolver.memo := by
  rw [outcome, Call.perform_memo, ← events, events_looked hr, Event.foldl_memoAfter_within,
    eventsInTime_eq hr]

theorem outcome_memo_of_no_reference (h : t.call.reference? = none) :
    (t.outcome net).resolver.memo = t.resolver.memo := by
  obtain ⟨f, hperform⟩ := Call.perform_of_no_reference h
  rw [outcome, hperform]

/-- A turn reads nothing and leaves the memo, or it reads a manifest and remembers that one. -/
theorem reading (net : Network σ) (hr : t.call.reference? = some r) :
    (ReadsNothing t.resolver.client r (t.eventsInTime net) ∧
      (t.outcome net).resolver.memo = t.resolver.memo) ∨
    ∃ m, (t.looked net r).ending = .ok m ∧
      ReadsOne t.resolver.client r (.of r t.call.credential) (t.eventsInTime net) m ∧
      (t.outcome net).resolver.memo = ⟨some (.of r t.call.credential, m)⟩ := by
  have hreading := (t.looked_yields net r).reading (t.call.limit t.resolver)
    (t.following_aside net r)
  rw [← eventsInTime_eq hr] at hreading
  rw [outcome_memo hr]
  rcases hreading with hnothing | ⟨m, hending, hone⟩
  · exact .inl ⟨hnothing, hnothing.forgets.foldl _⟩
  · exact .inr ⟨m, hending, hone, hone.remembers _⟩

/-- A fetch replaces what was remembered, for whatever key that was. -/
theorem memo_of_fetched (h : t.Fetched net key m) :
    (t.outcome net).resolver.memo = ⟨some (key, m)⟩ := by
  obtain ⟨r, hr, rfl, hreads⟩ := h
  rcases reading net hr with ⟨hnothing, -⟩ | ⟨m', -, hone, hmemo⟩
  · exact absurd hreads (hnothing.none m)
  · rw [hmemo, hone.only m hreads]

theorem memo_of_not_fetched (h : ∀ key m, ¬t.Fetched net key m) :
    (t.outcome net).resolver.memo = t.resolver.memo := by
  cases hr : t.call.reference? with
  | none => exact outcome_memo_of_no_reference hr
  | some r =>
    rcases reading net hr with ⟨-, hmemo⟩ | ⟨m, -, hone, -⟩
    · exact hmemo
    · exact absurd ⟨r, hr, rfl, hone.reads⟩ (h _ m)

theorem not_fetched_of_error {f : Failure} (hr : t.call.reference? = some r)
    (h : (t.looked net r).ending = .error f) : ¬t.Fetched net key m := by
  rintro ⟨r', hr', -, hreads⟩
  obtain rfl := Option.some.inj (hr.symm.trans hr')
  rcases reading net hr with ⟨hnothing, -⟩ | ⟨m', hending, -⟩
  · exact hnothing.none m hreads
  · rw [h] at hending
    cases hending

/-- A lookup that is silent and successful is one that finds the manifest in the memo. -/
theorem looked_remembered_iff :
    (t.looked net r).events = [] ∧ (t.looked net r).ending = .ok m ↔
      t.resolver.memo.entry = some (.of r t.call.credential, m) := by
  rw [← Memo.get?_eq_some_iff]
  have hlooks := t.looked_yields net r
  constructor
  · rintro ⟨hevents, hending⟩
    rw [hending] at hlooks
    exact hlooks.remembered_of_silent hevents
  · intro hmemo
    rw [looked, Resolver.lookedUp_of_hit hmemo]
    exact ⟨rfl, rfl⟩

/-! ### Runs -/

/-- The memo holds what was fetched last in these turns, and nothing if nothing was fetched. -/
structure Recalls (net : Network σ) (ts : List (Turn σ)) (memo : Memo) : Prop where
  nothing : (∀ t ∈ ts, ∀ key m, ¬t.Fetched net key m) → memo = .empty
  latest : ∀ before t after key m, ts = before ++ t :: after → t.Fetched net key m →
    (∀ u ∈ after, ∀ key' m', ¬u.Fetched net key' m') → memo = ⟨some (key, m)⟩

theorem recalls_nil (net : Network σ) : Recalls net [] .empty where
  nothing _ := rfl
  latest before t after key m h := by simp at h

/-- One more turn: what it fetches is the last, and if it fetches nothing the last one stays. -/
theorem Recalls.step (h : Recalls net ts t.resolver.memo) :
    Recalls net (ts ++ [t]) (t.outcome net).resolver.memo where
  nothing hnone := by
    rw [memo_of_not_fetched (hnone t (by simp))]
    exact h.nothing fun u hu => hnone u (List.mem_append_left _ hu)
  latest before u after key m heq hfetched hlast := by
    rcases List.eq_nil_or_concat after with rfl | ⟨after, last, rfl⟩
    · -- the turn itself is the last that fetched
      obtain ⟨-, hlast⟩ := List.append_inj' heq rfl
      obtain rfl := (List.cons.inj hlast).1
      exact memo_of_fetched hfetched
    · rw [List.concat_eq_append, ← List.cons_append, ← List.append_assoc] at heq
      obtain ⟨rfl, hlast'⟩ := List.append_inj' heq rfl
      obtain rfl := (List.cons.inj hlast').1
      rw [List.concat_eq_append] at hlast
      rw [memo_of_not_fetched (hlast t (by simp))]
      exact h.latest before u after key m rfl hfetched
        fun v hv => hlast v (List.mem_append_left _ hv)

/-- Turns in which something was fetched have a last one of them. -/
theorem exists_last_fetched (h : ∃ t ∈ ts, ∃ key m, t.Fetched net key m) :
    ∃ before t after key m, ts = before ++ t :: after ∧ t.Fetched net key m ∧
      ∀ u ∈ after, ∀ key' m', ¬u.Fetched net key' m' := by
  induction ts with
  | nil => simp at h
  | cons t ts ih =>
    by_cases hlater : ∃ u ∈ ts, ∃ key m, u.Fetched net key m
    · obtain ⟨before, u, after, key, m, rfl, hfetched, hlast⟩ := ih hlater
      exact ⟨t :: before, u, after, key, m, rfl, hfetched, hlast⟩
    · obtain ⟨u, hu, key, m, hfetched⟩ := h
      rcases List.mem_cons.1 hu with rfl | hu
      · refine ⟨[], u, ts, key, m, rfl, hfetched, ?_⟩
        intro v hv key' m' hfetched'
        exact hlater ⟨v, hv, key', m', hfetched'⟩
      · exact absurd ⟨u, hu, key, m, hfetched⟩ hlater

theorem Recalls.fetched_of_entry (h : Recalls net ts memo) (hentry : memo.entry = some (key, m)) :
    ∃ t ∈ ts, t.Fetched net key m := by
  by_cases hsome : ∃ t ∈ ts, ∃ key m, t.Fetched net key m
  · obtain ⟨before, t, after, key', m', rfl, hfetched, hlast⟩ := exists_last_fetched hsome
    have hmemo := h.latest before t after key' m' rfl hfetched hlast
    rw [hmemo] at hentry
    obtain ⟨rfl, rfl⟩ := Prod.mk.inj (Option.some.inj hentry)
    exact ⟨t, by simp, hfetched⟩
  · have hmemo := h.nothing fun t ht key m hfetched => hsome ⟨t, ht, key, m, hfetched⟩
    rw [hmemo] at hentry
    cases hentry

/-- By induction on the calls, with the turns before them as the past. -/
theorem recalls_of_turns {calls : List Call} {rv : Resolver} {network : σ}
    {past before after : List (Turn σ)} (hpast : Recalls net past rv.memo)
    (h : turns net calls rv network = before ++ t :: after) :
    Recalls net (past ++ before) t.resolver.memo := by
  induction calls generalizing past before rv network with
  | nil => simp [turns] at h
  | cons call calls ih =>
    rw [turns] at h
    cases before with
    | nil =>
      obtain rfl := (List.cons.inj h).1
      rw [List.append_nil]
      exact hpast
    | cons u before =>
      obtain ⟨rfl, hrest⟩ := List.cons.inj h
      rw [List.append_cons]
      exact ih hpast.step hrest

/-- Whatever calls are put to a resolver, whatever the network answers and wherever the deadline
    falls: the memo holds the manifest that was fetched last, under the key of the call that fetched
    it.  A call that fetches none, and in particular one whose lookup fails, leaves the memo as it
    was.  A lookup takes a manifest from the memo just when the key there is its own; it then asks
    for nothing, and the manifest was fetched for the same reference and the same credential. -/
theorem memo_follows_fetches (net : Network σ) (calls : List Call) (client : Client)
    (deadline : Option Nat) (network : σ) {before after : List (Turn σ)} {t : Turn σ}
    (h : turns net calls (.new client deadline) network = before ++ t :: after) :
    Recalls net before t.resolver.memo ∧
    Recalls net (before ++ [t]) (t.outcome net).resolver.memo ∧
    ((∀ key m, ¬t.Fetched net key m) → (t.outcome net).resolver.memo = t.resolver.memo) ∧
    ∀ r, t.call.reference? = some r →
      (∃ later, t.events net =
        Event.within (t.call.limit t.resolver) ((t.looked net r).events ++ later)) ∧
      (∀ f, (t.looked net r).ending = .error f →
        (t.outcome net).resolver.memo = t.resolver.memo) ∧
      ∀ m,
        ((t.looked net r).events = [] ∧ (t.looked net r).ending = .ok m ↔
          t.resolver.memo.entry = some (.of r t.call.credential, m)) ∧
        (t.resolver.memo.entry = some (.of r t.call.credential, m) →
          ∃ u ∈ before, ∃ r', u.call.reference? = some r' ∧
            u.Fetched net (.of r' u.call.credential) m ∧
            r'.host = r.host ∧ r'.repository = r.repository ∧ r'.target.text = r.target.text ∧
            u.call.credential.map Credential.fingerprint =
              t.call.credential.map Credential.fingerprint ∧
            (r'.target.IsValid → r.target.IsValid → r' = r)) := by
  have hrecalls := recalls_of_turns (recalls_nil net) h
  rw [List.nil_append] at hrecalls
  refine ⟨hrecalls, hrecalls.step, memo_of_not_fetched, ?_⟩
  intro r hr
  refine ⟨⟨_, events_looked hr⟩, ?_, ?_⟩
  · intro f herror
    exact memo_of_not_fetched fun key m => not_fetched_of_error hr herror
  · intro m
    refine ⟨looked_remembered_iff, ?_⟩
    intro hentry
    obtain ⟨u, hu, hfetched⟩ := hrecalls.fetched_of_entry hentry
    obtain ⟨r', hr', hkey, hreads⟩ := hfetched
    obtain ⟨hhost, hrepository, htarget, hfingerprint⟩ := ManifestKey.of_eq_of hkey.symm
    refine ⟨u, hu, r', hr', ⟨r', hr', rfl, hreads⟩, hhost, hrepository, htarget, hfingerprint, ?_⟩
    intro hvalid' hvalid
    have heq := Target.eq_of_text_eq hvalid' hvalid htarget
    obtain ⟨host, repository, target⟩ := r
    rw [← show r'.host = host from hhost, ← show r'.repository = repository from hrepository,
      ← show r'.target = target from heq]

/-- A registry that asks for no authentication and has one manifest for everything, in answers that
    take a millisecond each, with another for their bodies. -/
def welcoming : Network Unit where
  answer _ _ := (⟨.ok ⟨200, [], ⟨.ok [], 1⟩⟩, 1⟩, ())

theorem memo_follows_fetches_welcoming :
    let r : Reference := ⟨"registry.test", "app", .tag "1"⟩
    let first : Turn Unit := ⟨.imageExists r none, .new .default none, ()⟩
    let second : Turn Unit := ⟨.imageExists r none, (first.outcome welcoming).resolver, ()⟩
    let third : Turn Unit := ⟨.imageExists r (some ⟨"s"⟩), (second.outcome welcoming).resolver, ()⟩
    turns welcoming [.imageExists r none, .imageExists r none, .imageExists r (some ⟨"s"⟩)]
        (.new .default none) () = [first] ++ second :: [third] ∧
      [first, second, third].map (fun t => (t.outcome welcoming).sent.length) = [2, 0, 2] ∧
      ∃ m, second.resolver.memo.entry = some (.of r none, m) ∧
        first.Fetched welcoming (.of r none) m ∧ (second.looked welcoming r).events = [] := by
  intro r first second third
  have hturns : turns welcoming
      [.imageExists r none, .imageExists r none, .imageExists r (some ⟨"s"⟩)]
      (.new .default none) () = [first] ++ second :: [third] := rfl
  have hentry : second.resolver.memo.entry =
      some (.of r none, manifestOf ⟨200, [], ⟨.ok [], 1⟩⟩ []) := rfl
  obtain ⟨-, -, -, hcalls⟩ := memo_follows_fetches welcoming _ .default none () hturns
  obtain ⟨hremembered, horigin⟩ := (hcalls r rfl).2.2 (manifestOf ⟨200, [], ⟨.ok [], 1⟩⟩ [])
  obtain ⟨u, hu, r', hr', hfetched, -⟩ := horigin hentry
  obtain rfl := List.mem_singleton.1 hu
  obtain rfl := Option.some.inj hr'
  exact ⟨hturns, by decide +kernel, _, hentry, hfetched, (hremembered.2 hentry).1⟩

end Turn

end ImageLookup
