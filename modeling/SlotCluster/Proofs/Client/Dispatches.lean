import SlotCluster.Proofs.Client.Network
import SlotCluster.Proofs.Client.Waits
import SlotCluster.Proofs.Pool.CallTargets

/-!
# Deliveries in a run of a session

A delivery asks for the connection to its target, sends its command on the
connection that it gets, and ends with the reply.  Here one delivery is followed
through a run in which everything else may happen as well, except that the
session gets a new table before the delivery begins.  Its command goes out at
most once, on a connection that was in the pool under the key of the target, and
the delivery ends with what it receives.

When nothing else goes on in the session, the only link that may be opened is
one to the endpoint of the target, and the only command that goes out is that of
the delivery.
-/

namespace SlotCluster

open Client (SessionEvent stepSession)

def Client.SessionEvent.delivery? : SessionEvent -> Option Nat
  | .begin delivery => some delivery
  | .proceed delivery => some delivery
  | .receive delivery _ => some delivery
  | _ => none

namespace Session

variable {s t r u : Session} {event : SessionEvent} {events : List SessionEvent}
  {id d : Nat} {x y : Delivery}

/-! ## Runs of a session -/

def run (s : Session) (events : List SessionEvent) : Option Session :=
  SlotCluster.run stepSession s events

/-- What goes over the links of a session in a run, at those events that count.
The session has the given number. -/
def trafficAt (id : Nat) (counts : SessionEvent -> Bool) (s : Session) :
    List SessionEvent -> Network.Traffic
  | [] => []
  | event :: rest =>
      match stepSession s event with
      | none => []
      | some t =>
          (if counts event then Network.sessionTraffic id s t event else []) ++
            trafficAt id counts t rest

theorem trafficAt_concat {counts : SessionEvent -> Bool}
    (hrun : s.run events = some t) (hstep : stepSession t event = some u) :
    s.trafficAt id counts (events ++ [event]) = s.trafficAt id counts events ++
      if counts event then Network.sessionTraffic id t u event else [] := by
  induction events generalizing s with
  | nil =>
      cases hrun
      rw [List.nil_append, trafficAt, trafficAt, hstep]
      exact List.append_nil _
  | cons first rest ih =>
      rcases Option.bind_eq_some_iff.mp hrun with ⟨r, hr, hrest⟩
      rw [List.cons_append, trafficAt, trafficAt, hr]
      dsimp only
      rw [ih hrest, List.append_assoc]

theorem Rooted.of_run (hs : s.Rooted)
    (hrun : s.run events = some t) : t.Rooted :=
  run_keeps hrun hs
    (fun hr hstep => hr.grown (Client.grown_of_stepSession hr hstep))

theorem rooted_induction {P : Session -> Prop} (hs : s.Rooted) (hbase : P s)
    (hrun : s.run events = some t)
    (hstep : forall {t u : Session} {event : SessionEvent}, event ∈ events ->
        t.Rooted -> P t -> stepSession t event = some u -> P u) : P t := by
  have hboth : t.Rooted ∧ P t := by
    refine run_keeps_of_mem hrun ⟨hs, hbase⟩ ?_
    intro t u event hmem ht hevent
    exact ⟨ht.1.grown (Client.grown_of_stepSession ht.1 hevent),
      hstep hmem ht.1 ht.2 hevent⟩
  exact hboth.2

theorem wire?_of_stepSession (hs : s.Rooted)
    (hstep : stepSession s event = some t) {h : Nat} {wire : Target × Nat}
    (hwire : s.pool.wire? h = some wire) : t.pool.wire? h = some wire := by
  rcases (Client.pool_of_stepSession hs hstep).2 with hsame | ⟨e, he, _, _⟩
  · rw [hsame]
    exact hwire
  · exact Pool.wire?_of_step he hwire

theorem wire?_of_run (hs : s.Rooted) (hrun : s.run events = some t) {h : Nat}
    {wire : Target × Nat} (hwire : s.pool.wire? h = some wire) :
    t.pool.wire? h = some wire := by
  refine rooted_induction (P := fun r => r.pool.wire? h = some wire) hs
    hwire hrun ?_
  intro t u event _ hrooted ht hstep
  exact wire?_of_stepSession hrooted hstep ht

theorem fallback_of_run (hs : s.Rooted) (hrun : s.run events = some t) :
    t.pool.fallback = s.pool.fallback := by
  refine rooted_induction (P := fun r => r.pool.fallback = s.pool.fallback)
    hs rfl hrun ?_
  intro t u event _ hrooted ht hstep
  rcases (Client.pool_of_stepSession hrooted hstep).2 with hsame | ⟨e, he, _, _⟩
  · rw [hsame]
    exact ht
  · rw [Pool.fallback_of_step he]
    exact ht

theorem table_of_run (hs : s.Rooted) (hrun : s.run events = some t)
    (htables : forall event, event ∈ events -> event.table? = none) :
    t.pool.table = s.pool.table := by
  refine rooted_induction (P := fun r => r.pool.table = s.pool.table)
    hs rfl hrun ?_
  intro t u event hmem hrooted ht hstep
  rcases (Client.pool_of_stepSession hrooted hstep).2 with
    hsame | ⟨e, he, hnews, _⟩
  · rw [hsame]
    exact ht
  · rw [Pool.table_of_step he, hnews, htables event hmem]
    exact ht

/-- The delivery begins, if it begins in the run, under the table that the
session has at first. -/
def Prompt (s : Session) (d : Nat) (events : List SessionEvent) : Prop :=
  forall before r, before ++ [.begin d] <+: events -> s.run before = some r ->
    r.pool.table.table = s.pool.table.table

theorem Prompt.mono {more : List SessionEvent} (h : s.Prompt d more)
    (hfront : events <+: more) : s.Prompt d events :=
  fun before r hbegins => h before r (hbegins.trans hfront)

theorem prompt_of_tables (hs : s.Rooted)
    (htables : forall event, event ∈ events -> event.table? = none) :
    s.Prompt d events := by
  intro before r hfront hr
  rw [table_of_run hs hr
    (fun event hmem =>
      htables event (hfront.subset (List.mem_append_left _ hmem)))]

/-!
## One delivery and one event

An event is a turn of the delivery that it is about, and any other delivery
stays as it is.
-/

inductive Turn (s t : Session) (d : Nat) (x : Delivery) :
    SessionEvent -> Delivery -> Prop where
  | stays {event : SessionEvent} (aside : event.delivery? ≠ some d) :
      Turn s t d x event x
  | refused (pending : x.phase = .pending) (pool : t.pool = s.pool) :
      Turn s t d x (.begin d) { x with phase := .finished (.error .shutdown) }
  | begun (pending : x.phase = .pending)
      (pool : t.pool = s.pool.request x.target) :
      Turn s t d x (.begin d) { x with phase := .opening s.pool.calls.length }
  | sends {call h : Nat} (waits : x.phase = .opening call)
      (served : s.pool.phase? call = some (.finished (.ok h)))
      (pool : t.pool = s.pool) :
      Turn s t d x (.proceed d) { x with phase := .sending h }
  | fails {call : Nat} {e : ClusterError} (waits : x.phase = .opening call)
      (failed : s.pool.phase? call = some (.finished (.error e)))
      (pool : t.pool = s.pool) :
      Turn s t d x (.proceed d) { x with phase := .finished (.error e) }
  | answered {h : Nat} (result : Except ClusterError Resp.Value)
      (waits : x.phase = .sending h) (pool : t.pool = s.pool) :
      Turn s t d x (.receive d result) { x with phase := .finished result }

theorem Turn.of_finished (h : Turn s t d x event y)
    {result : Except ClusterError Resp.Value}
    (hx : x.phase = .finished result) : y = x := by
  cases h with
  | stays _ => rfl
  | refused waits _ => rw [waits] at hx; cases hx
  | begun waits _ => rw [waits] at hx; cases hx
  | sends waits _ _ => rw [waits] at hx; cases hx
  | fails waits _ _ => rw [waits] at hx; cases hx
  | answered _ waits _ => rw [waits] at hx; cases hx

@[simp]
theorem deliveries_setPhase (s : Session) (e d : Nat) (phase : DeliveryPhase) :
    (s.setPhase e phase).deliveries[d]? =
      if e = d then (s.deliveries[d]?).map (fun x => { x with phase })
      else s.deliveries[d]? := by
  unfold setPhase
  by_cases h : e = d
  · subst h
    simp
  · simp [h]

theorem phase?_of_delivery (hx : s.deliveries[d]? = some x) :
    s.phase? d = some x.phase := by
  unfold phase?
  rw [hx]
  rfl

theorem turn_of_more (more : List Delivery) (hx : s.deliveries[d]? = some x)
    (hall : t.deliveries = s.deliveries ++ more)
    (haside : event.delivery? = none) :
    exists y, t.deliveries[d]? = some y ∧ Turn s t d x event y := by
  refine ⟨x, ?_, Turn.stays ?_⟩
  · rw [hall, List.getElem?_append_left (List.getElem?_eq_some_iff.mp hx).1]
    exact hx
  · rw [haside]
    exact (Option.some_ne_none d).symm

theorem turn_of_pool {e : Pool.Event} (hx : s.deliveries[d]? = some x)
    (hpassed : (s.pool.step e).map s.withPool = some t)
    (haside : event.delivery? = none) :
    exists y, t.deliveries[d]? = some y ∧ Turn s t d x event y := by
  rcases Option.map_eq_some_iff.mp hpassed with ⟨p, _, rfl⟩
  exact turn_of_more [] hx (List.append_nil _).symm haside

theorem turn_of_setPhase {r : Session} {e : Nat} {phase : DeliveryPhase}
    (hx : s.deliveries[d]? = some x) (hr : r.deliveries = s.deliveries)
    (hevent : event.delivery? = some e)
    (hown : e = d -> Turn s (r.setPhase e phase) d x event { x with phase }) :
    exists y, (r.setPhase e phase).deliveries[d]? = some y ∧
      Turn s (r.setPhase e phase) d x event y := by
  rw [deliveries_setPhase, hr, hx]
  by_cases he : e = d
  · rw [if_pos he]
    exact ⟨_, rfl, hown he⟩
  · rw [if_neg he]
    refine ⟨x, rfl, Turn.stays ?_⟩
    rw [hevent]
    exact fun hsame => he (Option.some.inj hsame)

theorem turn_of_begin {e : Nat} (hbegin : s.begin e = some t)
    (hx : s.deliveries[d]? = some x) :
    exists y, t.deliveries[d]? = some y ∧ Turn s t d x (.begin e) y := by
  unfold Session.begin at hbegin
  split at hbegin
  · rename_i target command guarded hfound
    split at hbegin
    · cases hbegin
      refine turn_of_setPhase hx rfl rfl ?_
      intro he
      subst he
      rw [hx] at hfound
      cases hfound
      exact Turn.refused rfl rfl
    · cases hbegin
      refine turn_of_setPhase (r := s.withPool (s.pool.request target))
        hx rfl rfl ?_
      intro he
      subst he
      rw [hx] at hfound
      cases hfound
      exact Turn.begun rfl rfl
  · cases hbegin

theorem turn_of_proceed {e : Nat} (hproceed : s.proceed e = some t)
    (hx : s.deliveries[d]? = some x) :
    exists y, t.deliveries[d]? = some y ∧ Turn s t d x (.proceed e) y := by
  unfold Session.proceed at hproceed
  split at hproceed
  · rename_i call hopening
    split at hproceed
    · rename_i h hserved
      cases hproceed
      refine turn_of_setPhase hx rfl rfl ?_
      intro he
      subst he
      rw [phase?_of_delivery hx, Option.some.injEq] at hopening
      exact Turn.sends hopening hserved rfl
    · rename_i error hfailed
      cases hproceed
      refine turn_of_setPhase hx rfl rfl ?_
      intro he
      subst he
      rw [phase?_of_delivery hx, Option.some.injEq] at hopening
      exact Turn.fails hopening hfailed rfl
    · cases hproceed
  · cases hproceed

theorem turn_of_receive {e : Nat} {result : Except ClusterError Resp.Value}
    (hreceive : s.receive e result = some t) (hx : s.deliveries[d]? = some x) :
    exists y, t.deliveries[d]? = some y ∧
      Turn s t d x (.receive e result) y := by
  unfold Session.receive at hreceive
  split at hreceive
  · rename_i h hsending
    cases hreceive
    refine turn_of_setPhase hx rfl rfl ?_
    intro he
    subst he
    rw [phase?_of_delivery hx, Option.some.injEq] at hsending
    exact Turn.answered result hsending rfl
  · cases hreceive

theorem turn_of_step (hstep : stepSession s event = some t)
    (hx : s.deliveries[d]? = some x) :
    exists y, t.deliveries[d]? = some y ∧ Turn s t d x event y := by
  cases event with
  | openTarget target =>
      refine turn_of_more [] hx ?_ rfl
      cases hstep
      unfold openTarget
      split <;> exact (List.append_nil _).symm
  | route command =>
      simp only [stepSession] at hstep
      split at hstep
      · rename_i hr
        rcases deliver_of_route hr with ⟨more, heq⟩
        rw [heq, Option.some.injEq] at hstep
        exact turn_of_more more hx (hstep ▸ rfl) rfl
      · cases hstep
        exact turn_of_more [] hx (List.append_nil _).symm rfl
  | sendTo node command =>
      cases hstep
      exact turn_of_more _ hx rfl rfl
  | sendOn handle command =>
      cases hstep
      exact turn_of_more _ hx rfl rfl
  | sendToMasters command =>
      simp only [stepSession] at hstep
      split at hstep
      · rename_i hr
        rcases deliver_of_sendToMasters hr with ⟨more, heq⟩
        rw [heq, Option.some.injEq] at hstep
        exact turn_of_more more hx (hstep ▸ rfl) rfl
      · cases hstep
        exact turn_of_more [] hx (List.append_nil _).symm rfl
  | begin e => exact turn_of_begin hstep hx
  | proceed e => exact turn_of_proceed hstep hx
  | receive e result => exact turn_of_receive hstep hx
  | resume call => exact turn_of_pool (e := .resume call) hx hstep rfl
  | linked call => exact turn_of_pool (e := .linked call) hx hstep rfl
  | notLinked call error =>
      exact turn_of_pool (e := .notLinked call error) hx hstep rfl
  | accepted call => exact turn_of_pool (e := .accepted call) hx hstep rfl
  | refused call error =>
      exact turn_of_pool (e := .refused call error) hx hstep rfl
  | closed call => exact turn_of_pool (e := .closed call) hx hstep rfl
  | broke link => exact turn_of_pool (e := .broke link) hx hstep rfl
  | closeHandle handle =>
      exact turn_of_pool (e := .closeHandle handle) hx hstep rfl
  | apply table => exact turn_of_pool (e := .apply table) hx hstep rfl
  | reordered entries =>
      exact turn_of_pool (e := .reordered entries) hx hstep rfl

/-!
## One delivery in a run

What a delivery has come to after a run is said together with what it has sent
and with the connections that the pool has held by then.
-/

def isAbout (d : Nat) (event : SessionEvent) : Bool :=
  event.delivery? == some d

def sentBy (id d : Nat) (s : Session) (events : List SessionEvent) :
    Network.Traffic :=
  s.trafficAt id (isAbout d) events

def Held (s : Session) (events : List SessionEvent) (key : Target)
    (h : Nat) : Prop :=
  exists before r, before <+: events ∧ s.run before = some r ∧
    r.pool.Holds key h

variable {key : Target} {endpoint : Endpoint}

theorem Held.concat {h : Nat} (hheld : s.Held events key h) :
    s.Held (events ++ [event]) key h := by
  rcases hheld with ⟨before, r, hfront, hr, hholds⟩
  exact ⟨before, r, hfront.trans (List.prefix_append _ _), hr, hholds⟩

theorem Held.wire (hs : s.Rooted) (hrun : s.run events = some t) {h : Nat}
    (hheld : s.Held events key h) :
    exists l, t.pool.wire? h = some (key, l) := by
  rcases hheld with ⟨before, r, ⟨after, hsplit⟩, hr, hholds⟩
  rw [← hsplit] at hrun
  rcases run_append_iff.mp hrun with ⟨r', hr', hrun⟩
  cases hr.symm.trans hr'
  rcases (hs.of_run hr).sound.wire_of_holds hholds with ⟨l, hl⟩
  exact ⟨l, wire?_of_run (hs.of_run hr) hrun hl⟩

/-- How far a delivery has come in a run from `s` to `t`, and what it has
sent. -/
inductive Underway (id : Nat) (s : Session) (d : Nat) (command : Command)
    (key : Target) (endpoint : Endpoint) (events : List SessionEvent)
    (t : Session) : DeliveryPhase -> Prop where
  | pending (silent : s.sentBy id d events = []) :
      Underway id s d command key endpoint events t .pending
  | opening {call : Nat} {phase : Pool.Phase}
      (calls : t.pool.phase? call = some phase)
      (errand : phase.Errand key endpoint (s.Held events key))
      (silent : s.sentBy id d events = []) :
      Underway id s d command key endpoint events t (.opening call)
  | sending {h l : Nat} (held : s.Held events key h)
      (wire : t.pool.wire? h = some (key, l))
      (sent : s.sentBy id d events = [(.link id l, .command command)]) :
      Underway id s d command key endpoint events t (.sending h)
  | failed (e : ClusterError) (silent : s.sentBy id d events = []) :
      Underway id s d command key endpoint events t (.finished (.error e))
  | answered {h l : Nat} {result : Except ClusterError Resp.Value}
      (held : s.Held events key h)
      (wire : t.pool.wire? h = some (key, l))
      (sent : s.sentBy id d events = [(.link id l, .command command)])
      (received : .receive d result ∈ events) :
      Underway id s d command key endpoint events t (.finished result)

theorem sentBy_of_aside (id : Nat) (hrun : s.run events = some t)
    (hstep : stepSession t event = some u) (haside : event.delivery? ≠ some d) :
    s.sentBy id d (events ++ [event]) = s.sentBy id d events := by
  have hother : isAbout d event = false := by
    rw [isAbout, beq_eq_false_iff_ne]
    exact haside
  unfold sentBy
  rw [trafficAt_concat hrun hstep, hother]
  exact List.append_nil _

theorem sentBy_of_about (id : Nat) (hrun : s.run events = some t)
    (hstep : stepSession t event = some u) (habout : event.delivery? = some d) :
    s.sentBy id d (events ++ [event]) = s.sentBy id d events ++
      Network.sessionTraffic id t u event := by
  have hown : isAbout d event = true := by
    rw [isAbout, beq_iff_eq]
    exact habout
  unfold sentBy
  rw [trafficAt_concat hrun hstep, hown]
  rfl

theorem traffic_of_sends {h l : Nat} (hx : t.deliveries[d]? = some x)
    (hsending : x.phase = .sending h) (hwire : t.pool.wire? h = some (key, l)) :
    Network.sessionTraffic id s t (.proceed d) =
      [(.link id l, .command x.command)] := by
  rcases Pool.wire?_eq_some.mp hwire with ⟨handle, hhandle, _, hlink⟩
  rcases x with ⟨target, command, guarded, phase⟩
  dsimp only at hsending
  subst hsending
  unfold Network.sessionTraffic Network.commandOn
  simp only [hx]
  rw [hhandle, ← hlink]
  rfl

theorem Underway.aside {command : Command} {phase : DeliveryPhase}
    (hs : s.Rooted) (hrun : s.run events = some r)
    (hstep : stepSession r event = some u) (haside : event.delivery? ≠ some d)
    (hr : Underway id s d command key endpoint events r phase) :
    Underway id s d command key endpoint (events ++ [event]) u phase := by
  have hrooted : r.Rooted := hs.of_run hrun
  have hsent := sentBy_of_aside id hrun hstep haside
  cases hr with
  | pending silent => exact pending (hsent.trans silent)
  | @opening call calling calls errand silent =>
      rcases (Client.pool_of_stepSession hrooted hstep).2 with
        hsame | ⟨e, he, _, _⟩
      · exact opening (by rw [hsame]; exact calls) (errand.mono Held.concat)
          (hsent.trans silent)
      · rcases hrooted.sound with ⟨keyAt, hseated, _⟩
        rcases Pool.errand_of_step hseated he calls errand with
          ⟨new, hnew, herrand⟩
        refine opening hnew (herrand.mono ?_) (hsent.trans silent)
        intro h hheld
        rcases hheld with hbefore | hnow
        · exact hbefore.concat
        · exact ⟨events ++ [event], u, List.prefix_rfl,
            run_concat.mpr ⟨r, hrun, hstep⟩, hnow⟩
  | sending held wire sent =>
      exact sending held.concat (wire?_of_stepSession hrooted hstep wire)
        (hsent.trans sent)
  | failed e silent => exact failed e (hsent.trans silent)
  | answered held wire sent received =>
      exact answered held.concat (wire?_of_stepSession hrooted hstep wire)
        (hsent.trans sent) (List.mem_append_left _ received)

theorem Underway.own (hs : s.Rooted) (hrun : s.run events = some r)
    (hstep : stepSession r event = some u)
    (hresolve : event = .begin d ->
      x.target.resolve r.pool.table.table r.pool.fallback = .ok (key, endpoint))
    (hr : Underway id s d x.command key endpoint events r x.phase)
    (habout : event.delivery? = some d) (hturn : Turn r u d x event y)
    (hy : u.deliveries[d]? = some y) :
    Underway id s d x.command key endpoint (events ++ [event]) u y.phase := by
  have hafter : s.run (events ++ [event]) = some u :=
    run_concat.mpr ⟨r, hrun, hstep⟩
  have hsent := sentBy_of_about id hrun hstep habout
  cases hturn with
  | stays aside => exact absurd habout aside
  | refused waits pool =>
      rw [waits] at hr
      cases hr with
      | pending silent => exact failed _ (by rw [hsent, silent]; rfl)
  | begun waits pool =>
      rw [waits] at hr
      cases hr with
      | pending silent =>
          rcases (hs.of_run hrun).sound with ⟨keyAt, hseated, _⟩
          rcases Pool.errand_of_request hseated.manned (hresolve rfl) with
            ⟨phase, hphase, herrand⟩
          rw [← pool] at hphase herrand
          refine opening hphase (herrand.mono ?_) (by rw [hsent, silent]; rfl)
          exact fun hnow =>
            ⟨events ++ [.begin d], u, List.prefix_rfl, hafter, hnow⟩
  | @sends call h waits served pool =>
      rw [waits] at hr
      cases hr with
      | opening calls errand silent =>
          rw [served, Option.some.injEq] at calls
          subst calls
          cases errand with
          | seeks ticket _ _ => cases ticket
          | served held =>
              rcases held.concat.wire hs hafter with ⟨l, hwire⟩
              refine sending held.concat hwire ?_
              rw [hsent, silent, traffic_of_sends hy rfl hwire]
              rfl
  | @fails call e waits failed pool =>
      rw [waits] at hr
      cases hr with
      | opening calls errand silent =>
          refine Underway.failed e ?_
          rw [hsent, silent, Network.sessionTraffic, hy]
          rfl
  | answered result waits pool =>
      rw [waits] at hr
      cases hr with
      | sending held wire sent =>
          refine answered held.concat
            (wire?_of_stepSession (hs.of_run hrun) hstep wire) ?_
            (List.mem_append_right _ (List.mem_singleton_self _))
          rw [hsent, sent]
          rfl

theorem underway_of_run (id : Nat) (hs : s.Rooted)
    (hx : s.deliveries[d]? = some x) (hpending : x.phase = .pending)
    (hresolve : x.target.resolve s.pool.table.table s.pool.fallback =
      .ok (key, endpoint))
    (hrun : s.run events = some t) (hprompt : s.Prompt d events) :
    exists phase, t.deliveries[d]? = some { x with phase } ∧
      Underway id s d x.command key endpoint events t phase := by
  induction events using List.reverseRecOn generalizing t with
  | nil =>
      cases hrun
      refine ⟨.pending, ?_, Underway.pending rfl⟩
      rw [hx, ← hpending]
  | append_singleton events event ih =>
      rcases run_concat.mp hrun with ⟨r, hr, hstep⟩
      rcases ih hr (hprompt.mono (List.prefix_append _ _)) with
        ⟨phase, hphase, hunderway⟩
      rcases turn_of_step hstep hphase with ⟨y, hy, hturn⟩
      by_cases habout : event.delivery? = some d
      · have hnow : event = .begin d ->
            x.target.resolve r.pool.table.table r.pool.fallback =
              .ok (key, endpoint) := by
          intro hbegin
          subst hbegin
          rw [hprompt events r List.prefix_rfl hr, fallback_of_run hs hr]
          exact hresolve
        have hnext :=
          Underway.own (x := { x with phase }) hs hr hstep hnow hunderway
            habout hturn hy
        refine ⟨y.phase, ?_, hnext⟩
        rw [hy]
        cases hturn <;> rfl
      · refine ⟨phase, ?_, hunderway.aside hs hr hstep habout⟩
        rw [hy]
        cases hturn with
        | stays _ => rfl
        | _ => exact absurd rfl habout

/-!
## What becomes of a delivery

A delivery ends with what it receives, and keeps it.
-/

theorem delivery_of_run (hx : s.deliveries[d]? = some x)
    (hrun : s.run events = some t) : exists y, t.deliveries[d]? = some y := by
  refine run_keeps hrun ⟨x, hx⟩ ?_
  intro t u event ht hstep
  rcases ht with ⟨y, hy⟩
  rcases turn_of_step hstep hy with ⟨z, hz, _⟩
  exact ⟨z, hz⟩

theorem finished_of_receive (hx : s.deliveries[d]? = some x)
    (hrun : s.run events = some t) {result : Except ClusterError Resp.Value}
    (hmem : .receive d result ∈ events) :
    t.phase? d = some (.finished result) := by
  induction events using List.reverseRecOn generalizing t with
  | nil => cases hmem
  | append_singleton events event ih =>
      rcases run_concat.mp hrun with ⟨r, hr, hstep⟩
      rcases delivery_of_run hx hr with ⟨y, hy⟩
      rcases turn_of_step hstep hy with ⟨z, hz, hturn⟩
      rw [phase?_of_delivery hz]
      rcases List.mem_append.mp hmem with hbefore | hlast
      · have hphase := ih hr hbefore
        rw [phase?_of_delivery hy, Option.some.injEq] at hphase
        rw [hturn.of_finished hphase, hphase]
      · cases List.mem_singleton.mp hlast
        cases hturn with
        | stays aside => exact absurd rfl aside
        | answered result _ _ => rfl

structure Dispatched (id : Nat) (s : Session) (d : Nat) (command : Command)
    (key : Target) (endpoint : Endpoint) (events : List SessionEvent)
    (t : Session) : Prop where
  /-- The command goes out at most once, as it is, on a connection that the pool
  has held under the key. -/
  once : s.sentBy id d events = [] ∨
    exists h l, s.sentBy id d events = [(.link id l, .command command)] ∧
      s.Held events key h ∧ t.pool.wire? h = some (key, l)
  /-- A link that is opened for the delivery goes to the endpoint. -/
  dials : forall {before : List SessionEvent} {r u : Session} {call : Nat},
    before ++ [.linked call] <+: events -> s.run before = some r ->
    r.phase? d = some (.opening call) ->
    stepSession r (.linked call) = some u ->
    u.pool.dialed = r.pool.dialed ++ [endpoint]
  /-- What comes in for the delivery is its result, whatever it is. -/
  verbatim : forall {result : Except ClusterError Resp.Value},
    .receive d result ∈ events -> t.phase? d = some (.finished result)
  /-- Another result is an error, and then nothing has gone out. -/
  ended : forall {result : Except ClusterError Resp.Value},
    t.phase? d = some (.finished result) ->
    .receive d result ∈ events ∨ s.sentBy id d events = [] ∧
      exists e, result = .error e
  /-- A delivery whose command has gone out has its result or takes any. -/
  awaits : s.sentBy id d events ≠ [] ->
    (exists result, t.phase? d = some (.finished result)) ∨
      forall result, exists u, stepSession t (.receive d result) = some u

theorem dispatched_of_run (id : Nat) (hs : s.Rooted)
    (hx : s.deliveries[d]? = some x) (hpending : x.phase = .pending)
    (hresolve : x.target.resolve s.pool.table.table s.pool.fallback =
      .ok (key, endpoint))
    (hrun : s.run events = some t) (hprompt : s.Prompt d events) :
    Dispatched id s d x.command key endpoint events t := by
  rcases underway_of_run id hs hx hpending hresolve hrun hprompt with
    ⟨phase, hphase, hunderway⟩
  have hnow : t.phase? d = some phase := phase?_of_delivery hphase
  constructor
  case once =>
    cases hunderway with
    | pending silent => exact Or.inl silent
    | opening _ _ silent => exact Or.inl silent
    | failed _ silent => exact Or.inl silent
    | sending held wire sent => exact Or.inr ⟨_, _, sent, held, wire⟩
    | answered held wire sent _ => exact Or.inr ⟨_, _, sent, held, wire⟩
  case dials =>
    intro before r u call hfront hr hopening hstep
    have hearlier : s.Prompt d before :=
      hprompt.mono ((List.prefix_append _ _).trans hfront)
    rcases underway_of_run id hs hx hpending hresolve hr hearlier with
      ⟨_, hthen, hway⟩
    rw [phase?_of_delivery hthen, Option.some.injEq] at hopening
    rcases Option.map_eq_some_iff.mp hstep with ⟨p, hp, rfl⟩
    cases Pool.taken_of_step hp with
    | linked connecting =>
        cases hopening
        cases hway with
        | opening calls errand _ =>
            rw [connecting, Option.some.injEq] at calls
            subst calls
            rw [← (errand.ticket rfl).2]
            exact Pool.dialed_of_linked connecting hp
  case verbatim =>
    exact finished_of_receive hx hrun
  case ended =>
    intro result hresult
    rw [hnow, Option.some.injEq] at hresult
    subst hresult
    cases hunderway with
    | failed e silent => exact Or.inr ⟨silent, e, rfl⟩
    | answered _ _ _ received => exact Or.inl received
  case awaits =>
    intro hsent
    cases hunderway with
    | pending silent => exact absurd silent hsent
    | opening _ _ silent => exact absurd silent hsent
    | failed _ silent => exact absurd silent hsent
    | sending _ _ _ =>
        right
        intro result
        refine ⟨t.setPhase d (.finished result), ?_⟩
        show t.receive d result = _
        unfold receive
        rw [hnow]
    | answered _ _ _ _ => exact Or.inl ⟨_, hnow⟩

end Session
end SlotCluster
