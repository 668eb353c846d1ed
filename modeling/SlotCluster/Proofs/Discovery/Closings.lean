import SlotCluster.Proofs.Discovery.Reconciliation

/-!
# Links that discovery opens

A query opens one link at most.  Until it ends, its phase tells what has become
of the link: it is not closed while the query waits for an answer over it, and
closed once when the query has got the answer, whatever that is.  So a query
that ends has closed its link once, unless the time limit strikes while it waits
for an answer: then it has not closed the link at all, and never will.
-/

namespace SlotCluster
namespace Discovery

inductive Phase.Awaits : Phase -> Prop where
  | credential : Awaits .authenticating
  | listing : Awaits .listing

namespace Query

variable {q r first : Query} {event : Event} {history : List Event}
  {links : Nat}

/-!
## Until a query ends

What a query has opened and closed so far can be told from its phase.
-/

def Event.isLinked : Event -> Bool
  | linked => true
  | _ => false

def Tends (q : Query) (links : Nat) : Prop :=
  match q.phase with
  | .viewing => q.link = none ∧ links = 0
  | .connecting => q.link = none ∧ links = 0
  | .authenticating => links = 1 ∧ exists l, q.link = some l ∧ l.closings = 0
  | .listing => links = 1 ∧ exists l, q.link = some l ∧ l.closings = 0
  | .closing _ =>
      links = 1 ∧ exists l, q.link = some l ∧ l.closings = 1 ∧ l.isOpen = false
  | .finished _ => True

theorem tends_start (source : Source) (e : Endpoint) :
    (start source e).Tends 0 := by
  cases source <;> exact ⟨rfl, rfl⟩

theorem tends_close {l : Link} (hlink : q.link = some l)
    (hclosings : l.closings = 0) (answer : Except ClusterError Resp.Value) :
    (q.close answer).Tends 1 := by
  refine ⟨rfl, { l with isOpen := false, closings := l.closings + 1 },
    ?_, ?_, rfl⟩
  · rw [close, hlink]
    rfl
  · rw [hclosings]

theorem Tends.waiting (h : q.Tends links) (hawaits : q.phase.Awaits) :
    links = 1 ∧ exists l, q.link = some l ∧ l.closings = 0 := by
  cases hphase : q.phase with
  | authenticating | listing =>
      simp only [Tends, hphase] at h
      exact h
  | _ =>
      rw [hphase] at hawaits
      cases hawaits

theorem Tends.unlinked (h : q.Tends links)
    (hphase : q.phase = .viewing ∨ q.phase = .connecting) :
    q.link = none ∧ links = 0 := by
  rcases hphase with hphase | hphase
  · simp only [Tends, hphase] at h
    exact h
  · simp only [Tends, hphase] at h
    exact h

theorem Tends.step (h : q.Tends links) (hstep : q.step event = some r) :
    r.Tends (links + if event.isLinked then 1 else 0) := by
  cases taken_of_step hstep with
  | greeted phase _ =>
      rcases h.unlinked (Or.inr phase) with ⟨_, rfl⟩
      exact ⟨rfl, _, rfl, rfl⟩
  | asked phase _ =>
      rcases h.unlinked (Or.inr phase) with ⟨_, rfl⟩
      exact ⟨rfl, _, rfl, rfl⟩
  | accepted phase =>
      rcases h.waiting (phase ▸ Phase.Awaits.credential) with
        ⟨rfl, l, hlink, hclosings⟩
      refine ⟨rfl, { l with isAuthenticated := true }, ?_, hclosings⟩
      rw [hlink]
      rfl
  | refused error phase =>
      rcases h.waiting (phase ▸ Phase.Awaits.credential) with
        ⟨rfl, l, hlink, hclosings⟩
      exact tends_close hlink hclosings _
  | answered answer phase =>
      rcases h.waiting (phase ▸ Phase.Awaits.listing) with
        ⟨rfl, l, hlink, hclosings⟩
      exact tends_close hlink hclosings _
  | broke phase =>
      rcases h.waiting (phase ▸ Phase.Awaits.listing) with
        ⟨rfl, l, hlink, hclosings⟩
      simp only [Tends, phase]
      refine ⟨rfl, { l with isOpen := false }, ?_, hclosings⟩
      rw [hlink]
      rfl
  | viewed _ _ | notLinked _ _ | closed _ | timedOut _ => trivial

/-! ## How a query ends -/

inductive Ended (q : Query) (links : Nat) (cut : Prop) : Prop where
  | unlinked (link : q.link = none) (no : links = 0) (whole : ¬ cut)
  | closed {l : Link} (link : q.link = some l) (one : links = 1)
      (closings : l.closings = 1) (shut : l.isOpen = false) (whole : ¬ cut)
  | left {l : Link} (link : q.link = some l) (one : links = 1)
      (closings : l.closings = 0) (cut : cut)

theorem step_finished {result : Except ClusterError (List Node)}
    (h : q.phase = .finished result) (event : Event) : q.step event = none := by
  cases event <;> simp only [step, h]

theorem ended_of_timedOut (h : q.Tends links)
    (hgoing : forall result, q.phase ≠ .finished result) :
    Ended { q with phase := .finished (.error .timeout) } links
      q.phase.Awaits := by
  cases hphase : q.phase with
  | viewing =>
      rcases h.unlinked (Or.inl hphase) with ⟨hlink, hno⟩
      exact .unlinked hlink hno nofun
  | connecting =>
      rcases h.unlinked (Or.inr hphase) with ⟨hlink, hno⟩
      exact .unlinked hlink hno nofun
  | authenticating =>
      rcases h.waiting (hphase ▸ Phase.Awaits.credential) with
        ⟨hone, l, hlink, hclosings⟩
      exact .left hlink hone hclosings Phase.Awaits.credential
  | listing =>
      rcases h.waiting (hphase ▸ Phase.Awaits.listing) with
        ⟨hone, l, hlink, hclosings⟩
      exact .left hlink hone hclosings Phase.Awaits.listing
  | closing answer =>
      simp only [Tends, hphase] at h
      rcases h with ⟨rfl, l, hlink, hclosings, hshut⟩
      exact .closed hlink rfl hclosings hshut nofun
  | finished result => exact absurd hphase (hgoing result)

theorem ended_of_step (h : q.Tends links) (hstep : q.step event = some r)
    {result : Except ClusterError (List Node)}
    (hr : r.phase = .finished result) :
    r.Ended (links + if event.isLinked then 1 else 0)
      (event = .timedOut ∧ q.phase.Awaits) := by
  have hwhole (hother : event ≠ .timedOut) :
      ¬ (event = .timedOut ∧ q.phase.Awaits) :=
    fun hcut => hother hcut.1
  cases taken_of_step hstep with
  | viewed answer phase =>
      rcases h.unlinked (Or.inl phase) with ⟨hlink, hno⟩
      exact .unlinked hlink hno (hwhole nofun)
  | notLinked error phase =>
      rcases h.unlinked (Or.inr phase) with ⟨hlink, hno⟩
      exact .unlinked hlink hno (hwhole nofun)
  | closed phase =>
      simp only [Tends, phase] at h
      rcases h with ⟨rfl, l, hlink, hclosings, hshut⟩
      exact .closed hlink rfl hclosings hshut (hwhole nofun)
  | timedOut going =>
      rw [and_iff_right rfl]
      exact ended_of_timedOut h going
  | broke phase =>
      rw [phase] at hr
      cases hr
  | greeted _ _ | asked _ _ | accepted _ | refused _ _ | answered _ _ =>
      -- The query goes on after these.
      cases hr

/-- The last thing that happens to a query is that its time limit strikes while
it waits for an answer. -/
def CutOff (first : Query) (history : List Event) : Prop :=
  exists before b, history = before ++ [.timedOut] ∧ first.run before = some b ∧
    b.phase.Awaits

theorem cutOff_concat (h : first.run history = some q) :
    first.CutOff (history ++ [event]) <->
      event = .timedOut ∧ q.phase.Awaits := by
  constructor
  · rintro ⟨before, b, hsplit, hb, hawaits⟩
    rcases List.append_inj' hsplit rfl with ⟨rfl, hlast⟩
    cases hlast
    rw [h] at hb
    cases hb
    exact ⟨rfl, hawaits⟩
  · rintro ⟨rfl, hawaits⟩
    exact ⟨history, q, rfl, h, hawaits⟩

theorem tends_of_run (h : first.Tends links)
    (hrun : first.run history = some q) :
    q.Tends (links + history.countP Event.isLinked) := by
  induction history generalizing first links with
  | nil =>
      cases hrun
      exact h
  | cons event rest ih =>
      rcases Option.bind_eq_some_iff.mp hrun with ⟨m, hm, hrest⟩
      have hlater := ih (h.step hm) hrest
      rw [List.countP_cons, Nat.add_comm (rest.countP _), ← Nat.add_assoc]
      exact hlater

theorem ended_of_run (source : Source) (e : Endpoint)
    (hrun : (start source e).run history = some q)
    {result : Except ClusterError (List Node)}
    (hq : q.phase = .finished result) :
    q.Ended (history.countP Event.isLinked)
      ((start source e).CutOff history) := by
  rcases List.eq_nil_or_concat history with rfl | ⟨before, last, rfl⟩
  · cases hrun
    cases source <;> cases hq
  · rw [List.concat_eq_append] at hrun ⊢
    rcases run_concat.mp hrun with ⟨b, hb, hstep⟩
    have htends : b.Tends (before.countP Event.isLinked) := by
      have hall := tends_of_run (tends_start source e) hb
      rwa [Nat.zero_add] at hall
    have hended := ended_of_step htends hstep hq
    rw [← cutOff_concat hb] at hended
    rw [List.countP_append, List.countP_singleton]
    exact hended

end Query

/-! ## Rounds -/

namespace Round

variable {s : Round} {source : Source} {seeds : List Endpoint} {position : Nat}
  {first q : Query}

theorem finished_of_isFinished (hended : s.isFinished = true)
    (hq : s.queries[position]? = some q) :
    exists result, q.phase = .finished result := by
  have hdone : q.result?.isSome = true :=
    List.all_eq_true.mp hended q (List.mem_of_getElem? hq)
  unfold Query.result? at hdone
  split at hdone
  · exact ⟨_, by assumption⟩
  · cases hdone

theorem step_of_isFinished (hended : s.isFinished = true) (position : Nat)
    (event : Query.Event) : s.step position event = none := by
  unfold step
  split
  · rename_i q hq
    rcases finished_of_isFinished hended hq with ⟨result, hphase⟩
    rw [Query.step_finished hphase]
    rfl
  · rfl

/-- When a round is over, every query has opened at most one link.  It has
closed the link once, unless the time limit has struck while the query waited
for an answer over it, and then it has not closed the link at all.  Nothing more
happens in the round. -/
theorem closings_of_run (h : (start source seeds).run events = some s)
    (hended : s.isFinished = true) :
    (forall position first q,
      (start source seeds).queries[position]? = some first ->
      s.queries[position]? = some q ->
        (q.link = none ∧
          (eventsAt position events).countP Query.Event.isLinked = 0 ∨
          exists l, q.link = some l ∧
            (eventsAt position events).countP Query.Event.isLinked = 1 ∧
            (l.closings = 1 ∧ l.isOpen = false ∧
              ¬ first.CutOff (eventsAt position events) ∨
              l.closings = 0 ∧ first.CutOff (eventsAt position events)))) ∧
      forall position event, s.step position event = none := by
  refine ⟨?_, fun position event => step_of_isFinished hended position event⟩
  intro position first q hfirst hq
  rcases run_eq_some_iff.mp h with ⟨_, _, hall⟩
  rcases hall position first hfirst with ⟨last, hrun, hlast⟩
  rw [hq] at hlast
  cases hlast
  rcases finished_of_isFinished hended hq with ⟨result, hphase⟩
  rw [queries_start, List.getElem?_map, Option.map_eq_some_iff] at hfirst
  rcases hfirst with ⟨e, _, rfl⟩
  cases Query.ended_of_run source e hrun hphase with
  | unlinked link no whole => exact Or.inl ⟨link, no⟩
  | closed link one closings shut whole =>
      exact Or.inr ⟨_, link, one, Or.inl ⟨closings, shut, whole⟩⟩
  | left link one closings cut =>
      exact Or.inr ⟨_, link, one, Or.inr ⟨closings, cut⟩⟩

def twoSeeds : List Endpoint :=
  [{ host := "a", port := 1, password := some "k" }, .atAddress "b" 1]

/-- The first endpoint refuses the credential, and its link is closed.  The
second one never answers, and its link is not. -/
theorem closings_of_run_refused :
    exists s p q l m, (start .listing twoSeeds).run
        [(0, .linked), (1, .linked), (0, .refused .timeout), (0, .closed),
          (1, .timedOut)] = some s ∧
      s.isFinished = true ∧ s.queries = [p, q] ∧ p.link = some l ∧
        l.closings = 1 ∧ l.isOpen = false ∧
      q.link = some m ∧ m.closings = 0 ∧
        forall position event, s.step position event = none := by
  have hasked : candidates twoSeeds = twoSeeds := by cbv
  have hstart :
      start .listing twoSeeds = ⟨twoSeeds.map (Query.start .listing)⟩ := by
    rw [start, hasked]
  obtain ⟨s, hrun, hended, p, q, hqueries, l, hl, m, hm⟩ :
    exists s, (start .listing twoSeeds).run
      [(0, .linked), (1, .linked), (0, .refused .timeout), (0, .closed),
      (1, .timedOut)] = some s ∧
        s.isFinished = true ∧
          exists p q, s.queries = [p, q] ∧ exists l, p.link = some l ∧
          exists m, q.link = some m := by
    rw [hstart]
    exact ⟨_, rfl, rfl, _, _, rfl, _, rfl, _, rfl⟩
  rcases closings_of_run hrun hended with ⟨hlinks, hover⟩
  have hkept :
      ¬ (Query.start .listing
        { host := "a", port := 1, password := some "k" }).CutOff
          [.linked, .refused .timeout, .closed] := by
    rintro ⟨before, _, hsplit, _⟩
    have hlast := congrArg List.getLast? hsplit
    rw [List.getLast?_concat] at hlast
    cases hlast
  have hcut : (Query.start .listing (.atAddress "b" 1)).CutOff
      [.linked, .timedOut] :=
    ⟨[.linked], _, rfl, rfl, Phase.Awaits.listing⟩
  rw [hstart, hqueries] at hlinks
  refine ⟨s, p, q, l, m, hrun, hended, hqueries, hl, ?_⟩
  rcases hlinks 0 _ p rfl rfl with
    ⟨hnone, _⟩ | ⟨l', hl', _, ⟨hclosings, hshut, _⟩ | ⟨_, hfalse⟩⟩
  · rw [hl] at hnone
    cases hnone
  · rw [hl] at hl'
    cases hl'
    rcases hlinks 1 _ q rfl rfl with
      ⟨hnone, _⟩ | ⟨m', hm', _, ⟨_, _, hwhole⟩ | ⟨hleft, _⟩⟩
    · rw [hm] at hnone
      cases hnone
    · exact absurd hcut hwhole
    · rw [hm] at hm'
      cases hm'
      exact ⟨hclosings, hshut, hm, hleft, hover⟩
  · exact absurd hfalse hkept

/-- The time limit strikes while a query waits for the listing, and its link
stays open for good. -/
theorem link_left_open :
    ¬ forall source seeds events s, (start source seeds).run events = some s ->
    s.isFinished = true ->
      forall q, q ∈ s.queries ->
      forall l, q.link = some l -> l.closings = 1 := by
  intro hall
  have hasked : candidates [.atAddress "h" 1] = [.atAddress "h" 1] := by cbv
  have hstart : start .listing [.atAddress "h" 1] =
      ⟨[Query.start .listing (.atAddress "h" 1)]⟩ := by
    rw [start, hasked]
    rfl
  have hrun :
      (start .listing [.atAddress "h" 1]).run
          [(0, .linked), (0, .timedOut)] =
        some ⟨[{ endpoint := .atAddress "h" 1
                 phase := .finished (.error .timeout)
                 link := some { endpoint := .atAddress "h" 1 } }]⟩ := by
    rw [hstart]
    rfl
  cases hall .listing _ _ _ hrun rfl _ List.mem_cons_self _ rfl

end Round
end Discovery
end SlotCluster
