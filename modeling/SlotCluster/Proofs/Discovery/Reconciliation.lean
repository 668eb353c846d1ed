import Mathlib.Data.List.Permutation
import SlotCluster.Proofs.Discovery.Candidates

/-!
# What a round brings

In a round nothing passes from one query to another: a query is where its own
events have led it, whatever has happened to the others in between.  So the
views of a round depend on what each endpoint answers, and neither on who
answers first nor on who fails, stays silent or reports a view with a conflict.
-/

namespace SlotCluster
namespace Discovery

/-! ## The events of one query -/

def Query.run (q : Query) (events : List Query.Event) : Option Query :=
  SlotCluster.run step q events

def eventsAt (position : Nat) (events : List (Nat × Query.Event)) :
    List Query.Event :=
  events.filterMap (fun e => if e.1 = position then some e.2 else none)

section

variable {position : Nat} {event : Query.Event}
  {events : List (Nat × Query.Event)}

theorem eventsAt_cons_self :
    eventsAt position ((position, event) :: events) = event ::
      eventsAt position events := by
  rw [eventsAt, List.filterMap_cons, if_pos rfl]
  rfl

theorem eventsAt_cons_of_ne {other : Nat} (h : other ≠ position) :
    eventsAt position ((other, event) :: events) =
      eventsAt position events := by
  rw [eventsAt, List.filterMap_cons, if_neg h]
  rfl

theorem mem_of_mem_eventsAt (h : event ∈ eventsAt position events) :
    (position, event) ∈ events := by
  rcases List.mem_filterMap.mp h with ⟨⟨other, event'⟩, hmem, hsome⟩
  split at hsome
  · rename_i hother
    cases hother
    cases hsome
    exact hmem
  · cases hsome

namespace Round

variable {r s : Round}

theorem step_eq_some_iff :
    r.step position event = some s <->
      exists q new, r.queries[position]? = some q ∧ q.step event = some new ∧
        s = ⟨r.queries.set position new⟩ := by
  unfold step
  cases r.queries[position]? with
  | none => simp
  | some q =>
      simp only [Option.map_eq_some_iff, Option.some.injEq]
      constructor
      · rintro ⟨new, hnew, rfl⟩
        exact ⟨q, new, rfl, hnew, rfl⟩
      · rintro ⟨_, new, rfl, hnew, rfl⟩
        exact ⟨new, hnew, rfl⟩

/-- A round can take a sequence of events exactly when every query can take its
own ones, and it is then where they have led the queries. -/
theorem run_eq_some_iff :
    r.run events = some s <->
      (forall e, e ∈ events -> e.1 < r.queries.length) ∧
        s.queries.length = r.queries.length ∧
        forall (position : Nat) (q : Query), r.queries[position]? = some q ->
          exists new, q.run (eventsAt position events) = some new ∧
            s.queries[position]? = some new := by
  induction events generalizing r with
  | nil =>
      constructor
      · intro h
        cases h
        exact ⟨fun _ he => absurd he List.not_mem_nil, rfl,
          fun _ q hq => ⟨q, rfl, hq⟩⟩
      · rintro ⟨_, hlength, hall⟩
        have hsame : r.queries = s.queries := by
          apply List.ext_getElem?
          intro position
          cases hq : r.queries[position]? with
          | none =>
              rw [List.getElem?_eq_none_iff] at hq
              rw [List.getElem?_eq_none (hlength ▸ hq)]
          | some q =>
              rcases hall position q hq with ⟨new, hnew, hat⟩
              cases hnew
              exact hat.symm
        cases r
        cases s
        cases hsame
        rfl
  | cons e rest ih =>
      rcases e with ⟨position, event⟩
      rw [run, run_cons]
      constructor
      · rintro ⟨middle, hstep, hrest⟩
        rcases step_eq_some_iff.mp hstep with ⟨q, new, hq, hnew, rfl⟩
        rcases ih.mp hrest with ⟨hbounds, hlength, hall⟩
        rw [List.length_set] at hlength
        refine ⟨?_, hlength, ?_⟩
        · intro e he
          rcases List.mem_cons.mp he with rfl | he
          · exact (List.getElem?_eq_some_iff.mp hq).1
          · have hbound := hbounds e he
            rw [List.length_set] at hbound
            exact hbound
        · intro other old hold
          by_cases hother : position = other
          · cases hother
            rw [hq] at hold
            cases hold
            have hset :=
              List.getElem?_set_self (a := new)
                (List.getElem?_eq_some_iff.mp hq).1
            rcases hall position new hset with ⟨last, hlast, hat⟩
            refine ⟨last, ?_, hat⟩
            rw [eventsAt_cons_self]
            exact run_cons.mpr ⟨new, hnew, hlast⟩
          · rw [eventsAt_cons_of_ne hother]
            exact hall other old (by rw [List.getElem?_set_ne hother, hold])
      · rintro ⟨hbounds, hlength, hall⟩
        have hbound := hbounds _ List.mem_cons_self
        rcases hall position _ (List.getElem?_eq_getElem hbound) with
          ⟨last, hlast, hat⟩
        rw [eventsAt_cons_self] at hlast
        rcases run_cons.mp hlast with ⟨new, hnew, hlast⟩
        refine ⟨⟨r.queries.set position new⟩,
          step_eq_some_iff.mpr
            ⟨_, new, List.getElem?_eq_getElem hbound, hnew, rfl⟩,
          ih.mpr ⟨?_, ?_, ?_⟩⟩
        · intro e he
          rw [List.length_set]
          exact hbounds e (List.mem_cons_of_mem _ he)
        · rw [List.length_set]
          exact hlength
        · intro other old hold
          by_cases hother : position = other
          · cases hother
            rw [List.getElem?_set_self hbound] at hold
            cases hold
            exact ⟨last, hlast, hat⟩
          · rw [List.getElem?_set_ne hother] at hold
            rcases hall other old hold with ⟨next, hnext, hthere⟩
            rw [eventsAt_cons_of_ne hother] at hnext
            exact ⟨next, hnext, hthere⟩

end Round

end

/-! ## Answers -/

inductive Answer where
  | silent
  /-- It answers after so many ticks of the clock. -/
  | after (delay : Nat) (result : Except ClusterError (List Node))
  deriving Repr

namespace Answer

/-- What happens to a query with a time limit: the answer comes in time, or the
limit strikes. -/
def event (limit : Duration) : Answer -> Query.Event
  | silent => .timedOut
  | after delay result =>
      if delay ≤ limit.ticks then .viewed result else .timedOut

def view? (limit : Duration) (e : Endpoint) :
    Answer -> Option (Endpoint × Table)
  | after delay (.ok nodes) =>
      if delay ≤ limit.ticks then
        match Table.build nodes with
        | .ok table => some (e, table)
        | .error _ => none
      else none
  | _ => none

def result (limit : Duration) : Answer -> Except ClusterError (List Node)
  | silent => .error .timeout
  | after delay result =>
      if delay ≤ limit.ticks then result else .error .timeout

def ended (limit : Duration) (e : Endpoint) (answer : Answer) : Query :=
  { endpoint := e, phase := .finished (answer.result limit) }

variable {limit : Duration} {e : Endpoint} {answer : Answer}

theorem step_event :
    (Query.start .direct e).step (answer.event limit) =
      some (answer.ended limit e) := by
  cases answer with
  | silent => rfl
  | after delay result =>
      simp only [event, ended, Answer.result]
      split <;> rfl

theorem step_ended :
    (answer.ended limit e).step (answer.event limit) = none := by
  cases answer with
  | silent => rfl
  | after delay result =>
      simp only [event]
      split <;> rfl

theorem view?_ended : (answer.ended limit e).view? = answer.view? limit e := by
  cases answer with
  | silent => rfl
  | after delay result =>
      simp only [ended, Query.view?, Answer.result]
      by_cases htime : delay ≤ limit.ticks
      · simp only [if_pos htime]
        cases result with
        | error err => rfl
        | ok nodes =>
            cases hbuild : Table.build nodes with
            | error err => simp only [view?, if_pos htime, hbuild]
            | ok table => simp only [view?, if_pos htime, hbuild]
      · simp only [if_neg htime]
        cases result with
        | error err => rfl
        | ok nodes => simp only [view?, if_neg htime]

theorem run_eq_ended {events : List Query.Event} {q : Query}
    (hevents : forall event, event ∈ events -> event = answer.event limit)
    (h : (Query.start .direct e).run events = some q)
    (hended : q.result?.isSome = true) : q = answer.ended limit e := by
  cases events with
  | nil =>
      cases h
      cases hended
  | cons first rest =>
      rw [Query.run, hevents first List.mem_cons_self,
        run_cons_of_some step_event] at h
      cases rest with
      | nil => exact (Option.some.inj h).symm
      | cons second rest =>
          rcases run_cons.mp h with ⟨r, hr, _⟩
          rw [hevents second (List.mem_cons_of_mem _ List.mem_cons_self),
            step_ended] at hr
          cases hr

theorem view?_eq_some_iff {v : Endpoint × Table} :
    answer.view? limit e = some v <->
      v.1 = e ∧ exists delay nodes, answer = .after delay (.ok nodes) ∧
        delay ≤ limit.ticks ∧
        Table.build nodes = .ok v.2 := by
  constructor
  · intro h
    unfold view? at h
    split at h
    · rename_i delay nodes
      split at h
      · rename_i htime
        split at h
        · rename_i table htable
          cases h
          exact ⟨rfl, delay, nodes, rfl, htime, htable⟩
        · cases h
      · cases h
    · cases h
  · rintro ⟨rfl, delay, nodes, rfl, htime, htable⟩
    simp only [view?, if_pos htime, htable]

end Answer

def happenings (answers : Endpoint -> Answer) (limit : Duration)
    (seeds : List Endpoint) : List (Nat × Query.Event) :=
  (candidates seeds).mapIdx
    (fun position e => (position, (answers e).event limit))

theorem eventsAt_mapIdx {α : Type} (l : List α) (g : α -> Query.Event)
    (first position : Nat) :
    eventsAt position (l.mapIdx (fun i a => (first + i, g a))) =
      if position < first then [] else (l[position - first]?.map g).toList := by
  induction l generalizing first with
  | nil => split <;> rfl
  | cons a l ih =>
      have hrest : l.mapIdx (fun i a => (first + (i + 1), g a)) =
          l.mapIdx (fun i a => (first + 1 + i, g a)) := by
        congr 1
        funext i b
        rw [Nat.add_assoc, Nat.add_comm 1 i]
      rw [List.mapIdx_cons, hrest]
      rcases Nat.lt_trichotomy position first with hlt | rfl | hgt
      · rw [eventsAt_cons_of_ne (by omega), ih, if_pos (by omega), if_pos hlt]
      · rw [Nat.add_zero, eventsAt_cons_self, ih, if_pos (by omega),
          if_neg (by omega), Nat.sub_self]
        rfl
      · have hindex : position - first = position - (first + 1) + 1 := by omega
        rw [eventsAt_cons_of_ne (by omega), ih, if_neg (by omega),
          if_neg (by omega), hindex, List.getElem?_cons_succ]

theorem eventsAt_happenings {answers : Endpoint -> Answer} {limit : Duration}
    {seeds : List Endpoint} {position : Nat} {e : Endpoint}
    (he : (candidates seeds)[position]? = some e) :
    eventsAt position (happenings answers limit seeds) =
      [(answers e).event limit] := by
  have hevents :=
    eventsAt_mapIdx (candidates seeds)
      (fun e => (answers e).event limit) 0 position
  simp only [Nat.zero_add, Nat.not_lt_zero, if_false, Nat.sub_zero,
    he] at hevents
  exact hevents

/-!
## Rounds of answers

The answers may come in any order: however a round of these answers has ended,
it has ended in one way.
-/

namespace Round

variable {answers : Endpoint -> Answer} {limit : Duration}
  {seeds : List Endpoint} {events : List (Nat × Query.Event)} {s : Round}

theorem queries_start (source : Source) (seeds : List Endpoint) :
    (start source seeds).queries =
      (candidates seeds).map (Query.start source) :=
  rfl

@[simp]
theorem endpoints_start (source : Source) (seeds : List Endpoint) :
    (start source seeds).queries.map Query.endpoint = candidates seeds := by
  have hkept : Query.endpoint ∘ Query.start source = id := by
    funext e
    cases source <;> rfl
  rw [queries_start, List.map_map, hkept, List.map_id]

def answered (answers : Endpoint -> Answer) (limit : Duration)
    (seeds : List Endpoint) : Round :=
  ⟨(candidates seeds).map (fun e => (answers e).ended limit e)⟩

theorem isFinished_answered :
    (answered answers limit seeds).isFinished = true := by
  unfold isFinished answered
  rw [List.all_map, List.all_eq_true]
  intro e _
  rfl

theorem views_answered :
    (answered answers limit seeds).views =
      (candidates seeds).filterMap (fun e => (answers e).view? limit e) := by
  unfold views answered
  rw [List.filterMap_map]
  congr 1
  funext e
  exact Answer.view?_ended

theorem run_of_perm (h : events.Perm (happenings answers limit seeds)) :
    (start .direct seeds).run events = some (answered answers limit seeds) := by
  rw [run_eq_some_iff, queries_start, List.length_map, answered,
    List.length_map]
  refine ⟨?_, rfl, ?_⟩
  · intro event hevent
    rcases List.mem_mapIdx.mp (h.subset hevent) with ⟨position, hposition, rfl⟩
    exact hposition
  · intro position q hq
    rw [List.getElem?_map, Option.map_eq_some_iff] at hq
    rcases hq with ⟨e, he, rfl⟩
    refine ⟨(answers e).ended limit e, ?_, by rw [List.getElem?_map, he]; rfl⟩
    have hown : (eventsAt position events).Perm [(answers e).event limit] := by
      rw [← eventsAt_happenings he]
      exact h.filterMap _
    rw [List.perm_singleton.mp hown]
    exact run_cons_of_some Answer.step_event

/-- However a round of these answers has ended, it has ended in one way. -/
theorem answered_of_run (hevents : events ⊆ happenings answers limit seeds)
    (h : (start .direct seeds).run events = some s)
    (hended : s.isFinished = true) : s = answered answers limit seeds := by
  rcases run_eq_some_iff.mp h with ⟨_, hlength, hall⟩
  rw [queries_start, List.length_map] at hlength
  have hqueries : s.queries = (answered answers limit seeds).queries := by
    apply List.ext_getElem?
    intro position
    rw [answered, List.getElem?_map]
    cases he : (candidates seeds)[position]? with
    | none =>
        rw [List.getElem?_eq_none_iff] at he
        rw [List.getElem?_eq_none (hlength ▸ he)]
        rfl
    | some e =>
        have hstart : (start .direct seeds).queries[position]? =
            some (Query.start .direct e) := by
          rw [queries_start, List.getElem?_map, he]
          rfl
        rcases hall position _ hstart with ⟨q, hq, hat⟩
        have hown (event : Query.Event)
            (hevent : event ∈ eventsAt position events) :
            event = (answers e).event limit := by
          have hmem := hevents (mem_of_mem_eventsAt hevent)
          have hsame :
              event ∈ eventsAt position (happenings answers limit seeds) :=
            List.mem_filterMap.mpr ⟨_, hmem, if_pos rfl⟩
          rw [eventsAt_happenings he] at hsame
          exact List.mem_singleton.mp hsame
        have hdone : q.result?.isSome = true :=
          List.all_eq_true.mp hended q (List.mem_of_getElem? hat)
        rw [hat, Answer.run_eq_ended hown hq hdone]
        rfl
  cases s
  cases hqueries
  rfl

theorem query_of_runs {source : Source} {events' : List (Nat × Query.Event)}
    {s' : Round} {position : Nat} (h : (start source seeds).run events = some s)
    (h' : (start source seeds).run events' = some s')
    (hown : eventsAt position events = eventsAt position events') :
    s.queries[position]? = s'.queries[position]? := by
  rcases run_eq_some_iff.mp h with ⟨_, hlength, hall⟩
  rcases run_eq_some_iff.mp h' with ⟨_, hlength', hall'⟩
  cases hq : (start source seeds).queries[position]? with
  | none =>
      rw [List.getElem?_eq_none_iff] at hq
      rw [List.getElem?_eq_none (hlength ▸ hq),
        List.getElem?_eq_none (hlength' ▸ hq)]
  | some q =>
      rcases hall position q hq with ⟨last, hlast, hat⟩
      rcases hall' position q hq with ⟨last', hlast', hat'⟩
      rw [hown, hlast'] at hlast
      cases hlast
      rw [hat, hat']

end Round

/-! ## Loading -/

/-- The first view is loaded with the credential of its endpoint, if that has
one, and is otherwise as it is. -/
theorem Views.load_cons (seeds : List Endpoint) (e : Endpoint) (table : Table)
    (rest : Views) :
    Views.load seeds ((e, table) :: rest) =
      .ok { table with nodes := table.nodes.map (fun n =>
        { n with
          endpoint := { n.endpoint with
              password := e.credential <|> n.endpoint.password } }) } := by
  cases hcredential : e.credential with
  | none =>
      have hsame :
          table.nodes.map
            (fun n =>
              { n with
                endpoint :=
                  { n.endpoint with
                    password := none <|> n.endpoint.password } }) =
            table.nodes :=
        List.map_id table.nodes
      simp only [load, canonical?, hcredential, hsame]
  | some password =>
      simp only [load, canonical?, hcredential, Table.withCredential]
      rfl

/-- Reconciliation depends only on the set of answers. -/
theorem reconciliation (seeds : List Endpoint) (answers : Endpoint -> Answer)
    (limit : Duration) :
    (candidates seeds).Pairwise Endpoint.Before ∧
    (forall e, e ∈ candidates seeds <->
      seeds.find? (fun s => s.Matches e.host e.port) = some e) ∧
    (forall source,
      (Round.start source seeds).queries.map Query.endpoint =
        candidates seeds) ∧
    (forall events, events.Perm (happenings answers limit seeds) ->
      exists s, (Round.start .direct seeds).run events = some s ∧
        s.isFinished = true) ∧
    (forall events s, events ⊆ happenings answers limit seeds ->
      (Round.start .direct seeds).run events = some s ->
      s.isFinished = true ->
        (s.views.map Prod.fst).Pairwise Endpoint.Before ∧
        (forall e table, (e, table) ∈ s.views <->
          e ∈ candidates seeds ∧
            exists delay nodes, answers e = .after delay (.ok nodes) ∧
            delay ≤ limit.ticks ∧
            Table.build nodes = .ok table) ∧
        (s.views = [] ->
          Views.load seeds s.views = .error (.noViewAvailable seeds)) ∧
        forall e table rest, s.views = (e, table) :: rest ->
          Views.load seeds s.views =
            .ok { table with nodes := table.nodes.map (fun n =>
              { n with
                endpoint :=
                  { n.endpoint with
                    password := e.credential <|> n.endpoint.password } }) }) ∧
    forall source events events' s s' position,
      (Round.start source seeds).run events = some s ->
      (Round.start source seeds).run events' = some s' ->
        eventsAt position events = eventsAt position events' ->
        s.queries[position]? = s'.queries[position]? := by
  refine ⟨pairwise_candidates seeds, fun e => mem_candidates_iff,
    fun source => Round.endpoints_start source seeds, ?_, ?_, ?_⟩
  · intro events hperm
    exact ⟨_, Round.run_of_perm hperm, Round.isFinished_answered⟩
  · intro events s hevents hrun hended
    have hviews : s.views =
        (candidates seeds).filterMap (fun e => (answers e).view? limit e) := by
      rw [Round.answered_of_run hevents hrun hended, Round.views_answered]
    refine ⟨?_, ?_, ?_, ?_⟩
    · rw [List.pairwise_map, hviews]
      refine (pairwise_candidates seeds).filterMap _ ?_
      intro a b hbefore v hv w hw
      rw [(Answer.view?_eq_some_iff.mp hv).1,
        (Answer.view?_eq_some_iff.mp hw).1]
      exact hbefore
    · intro e table
      rw [hviews, List.mem_filterMap]
      constructor
      · rintro ⟨asked, hasked, hview⟩
        rcases Answer.view?_eq_some_iff.mp hview with ⟨rfl, hanswer⟩
        exact ⟨hasked, hanswer⟩
      · rintro ⟨hasked, hanswer⟩
        exact ⟨e, hasked, Answer.view?_eq_some_iff.mpr ⟨rfl, hanswer⟩⟩
    · intro hnone
      rw [hnone]
      rfl
    · intro e table rest hfirst
      rw [hfirst]
      exact Views.load_cons seeds e table rest
  · intro source events events' s s' position h h' hown
    exact Round.query_of_runs h h' hown

def rivals : List Endpoint :=
  [.atAddress "d" 1, { host := "b", port := 1, password := some "p" },
    .atAddress "c" 1, { host := "b", port := 1, password := some "q" },
    .atAddress "a" 1]

def rivalAnswer (e : Endpoint) : Answer :=
  if e.host = "a" then .silent
  else if e.host = "b" then
    .after 5 (.ok [Node.makeMaster "n" (.atAddress "b" 1) []])
  else if e.host = "c" then
    .after 0 (.ok [Node.makeMaster "n" (.atAddress "c" 1) [⟨5, 5⟩]])
  else .after 6 (.ok [])

theorem reconciliation_rivals :
    candidates rivals =
        [.atAddress "a" 1, { host := "b", port := 1, password := some "p" },
          .atAddress "c" 1, .atAddress "d" 1] ∧
      exists s, (Round.start .direct rivals).run
        (happenings rivalAnswer (.ofMillis 5) rivals).reverse = some s ∧
        Views.load rivals s.views =
          .ok
            ⟨[Node.makeMaster "n"
              { host := "b", port := 1, password := some "p" } []],
                Table.unowned⟩ := by
  have hasked : candidates rivals =
      [.atAddress "a" 1, { host := "b", port := 1, password := some "p" },
        .atAddress "c" 1, .atAddress "d" 1] := by
    cbv
  have hround := reconciliation rivals rivalAnswer (.ofMillis 5)
  rcases hround with ⟨_, _, _, horders, hends, _⟩
  rcases horders _ (List.reverse_perm _) with ⟨s, hrun, hended⟩
  rcases hends _ s (List.reverse_perm _).subset hrun hended with
    ⟨_, hmem, _, hload⟩
  refine ⟨hasked, s, hrun, ?_⟩
  have hviews {e : Endpoint} {table : Table} (hview : (e, table) ∈ s.views) :
      e = { host := "b", port := 1, password := some "p" } ∧
        table = ⟨[Node.makeMaster "n" (.atAddress "b" 1) []],
          Table.unowned⟩ := by
    rcases (hmem e table).mp hview with
      ⟨hcandidate, delay, nodes, hanswer, htime, htable⟩
    rw [hasked] at hcandidate
    simp only [List.mem_cons, List.not_mem_nil, or_false] at hcandidate
    rcases hcandidate with rfl | rfl | rfl | rfl
    · cases hanswer
    · cases hanswer
      exact ⟨rfl, (Except.ok.inj htable).symm⟩
    · cases hanswer
      cases htable
    · cases hanswer
      exact absurd htime (by decide)
  cases hfirst : s.views with
  | nil =>
      have hthere :
          (({ host := "b", port := 1, password := some "p" } : Endpoint),
            (⟨[Node.makeMaster "n" (.atAddress "b" 1) []], Table.unowned⟩ :
              Table)) ∈ s.views :=
        (hmem _ _).mpr ⟨by rw [hasked]; decide, 5, _, rfl, by decide, rfl⟩
      rw [hfirst] at hthere
      exact absurd hthere List.not_mem_nil
  | cons v rest =>
      rcases v with ⟨e, table⟩
      have hthere : (e, table) ∈ s.views := hfirst ▸ List.mem_cons_self
      have hsame := hviews hthere
      rw [← hfirst, hload e table rest hfirst, hsame.1, hsame.2]
      rfl

end Discovery
end SlotCluster
