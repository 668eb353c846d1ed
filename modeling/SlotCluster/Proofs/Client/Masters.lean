import SlotCluster.Proofs.Client.DeliverySimulation
import SlotCluster.Proofs.Client.SoleDeliveries
import SlotCluster.Proofs.Pool.Sweeps

/-!
# A command for every master

A command for every master of the table is as many deliveries as there are
masters, and they run at the same time on one pool.  Each of them goes the way
it would go alone: as a command for its node that is sent in the same state of
the session, when the same things happen to what concerns the node.  So no
master has an influence on what another one answers, and in the end there is one
result for each, in the order of the table.
-/

namespace SlotCluster

open Client (SessionEvent stepSession)
open Pool (Strand)

namespace Session

variable {s s' t u r : Session} {event : SessionEvent}
  {events : List SessionEvent} {S : Strand} {d e i : Nat} {f : Focus}

def outcome? (s : Session) (d : Nat) :
    Option (Except ClusterError Resp.Value) :=
  (s.deliveries[d]?).bind Delivery.result?

/-! ## What is told of one more event -/

theorem echoes_concat (hrun : s.run events = some r)
    (hstep : stepSession r event = some u) :
    f.echoes S s (events ++ [event]) = f.echoes S s events ++
      (f.echo? (f.strand S s events) r event).toList := by
  induction events generalizing S s with
  | nil =>
      cases hrun
      simp only [List.nil_append, Focus.echoes, Focus.strand, hstep]
      cases f.echo? S r event with
      | none => rfl
      | some echo => rfl
  | cons first rest ih =>
      rcases Option.bind_eq_some_iff.mp hrun with ⟨q, hq, hrest⟩
      simp only [List.cons_append, Focus.echoes, Focus.strand, hq]
      cases f.echo? S s first with
      | none => exact ih hrest
      | some echo => exact congrArg (List.cons echo) (ih hrest)

/-! ## Events elsewhere -/

/-- An event has nothing to do with the node of a delivery: it concerns other
connections and calls of the pool, another delivery to another node, brings more
deliveries, or is none of anybody's business. -/
inductive Elsewhere (f : Focus) (s : Session) : SessionEvent -> Prop where
  | pool {event : SessionEvent} {e : Pool.Event}
      (passed : event.ofPool? = some e)
      (elsewhere : Pool.Elsewhere f.key s.pool e) : Elsewhere f s event
  | openTarget {target : Target} (other : s.leadsTo f.key target = false) :
      Elsewhere f s (.openTarget target)
  | begin {e : Nat} {x : Delivery} (ne : e ≠ f.own)
      (found : s.deliveries[e]? = some x)
      (other : s.leadsTo f.key x.target = false) : Elsewhere f s (.begin e)
  | proceed {e : Nat} (ne : e ≠ f.own) : Elsewhere f s (.proceed e)
  | receive {e : Nat} {result : Except ClusterError Resp.Value}
      (ne : e ≠ f.own) : Elsewhere f s (.receive e result)
  | route (command : Command) : Elsewhere f s (.route command)
  | sendTo (id : String) (command : Command) :
      Elsewhere f s (.sendTo id command)
  | sendOn (handle : Nat) (command : Command) :
      Elsewhere f s (.sendOn handle command)
  | sendToMasters (command : Command) : Elsewhere f s (.sendToMasters command)
  | reordered (entries : List (Target × Nat)) :
      Elsewhere f s (.reordered entries)

theorem echo?_of_ofPool? {e : Pool.Event} (h : event.ofPool? = some e) :
    f.echo? S s event = (S.echo? e).bind Pool.Event.pass? := by
  cases event <;> cases h <;> rfl

theorem Coupled.echo?_of_elsewhere (h : Coupled f S s t)
    (he : Elsewhere f s event) : f.echo? S s event = none := by
  cases he with
  | pool passed elsewhere =>
      rw [echo?_of_ofPool? passed, h.pool.echo?_of_elsewhere elsewhere,
        Option.bind_none]
  | openTarget other =>
      simp only [Focus.echo?, other, Bool.false_eq_true, if_false]
  | @begin e x ne found other =>
      rcases x with ⟨target, command, guarded, phase⟩
      simp only [Focus.echo?, if_neg ne, found]
      cases phase with
      | pending => simp only [other, Bool.false_eq_true, if_false]
      | _ => rfl
  | proceed ne => simp only [Focus.echo?, if_neg ne]
  | receive ne => simp only [Focus.echo?, if_neg ne]
  | _ => rfl

/-!
## Deliveries come to their end

The call for which a delivery waits can come to its end, and then the delivery
can.  Deliveries that are each in agreement with another one can all come to
their end.
-/

theorem outcome?_of_delivery {x : Delivery} (hx : s.deliveries[d]? = some x) :
    s.outcome? d = x.result? := by
  unfold outcome?
  rw [hx]
  rfl

theorem outcome?_of_run (hrun : s.run events = some t)
    {result : Except ClusterError Resp.Value} (h : s.outcome? d = some result) :
    t.outcome? d = some result := by
  refine run_keeps hrun h ?_
  intro t u event ht hstep
  rcases Option.bind_eq_some_iff.mp ht with ⟨x, hx, hresult⟩
  rcases turn_of_step hstep hx with ⟨y, hy, hturn⟩
  rw [outcome?_of_delivery hy, ← hresult]
  rcases x with ⟨target, command, guarded, phase⟩
  cases phase with
  | finished outcome => rw [hturn.of_finished rfl]
  | _ => cases hresult

theorem Rooted.attended (hs : s.Rooted) : s.pool.Attended := by
  rcases hs.run with ⟨table, fallback, events, hrun, _⟩
  exact (Pool.Attended.start table fallback).run
    (Pool.Sound.start table fallback) hrun

theorem run_of_answers {more : List Pool.Event} {p : Pool}
    (hanswers : Pool.Answers more) (hrun : s.pool.run more = some p) :
    exists events, s.run events = some (s.withPool p) := by
  induction more generalizing s with
  | nil =>
      cases hrun
      exact ⟨[], rfl⟩
  | cons e rest ih =>
      rcases run_cons.mp hrun with ⟨q, hq, hrest⟩
      have hpassed : exists event, e.pass? = some event := by
        have he := hanswers e List.mem_cons_self
        cases e with
        | request _ | apply _ | sweep _ | drain | cleaned _ | broke _
        | closeHandle _ =>
            cases he
        | _ => exact ⟨_, rfl⟩
      rcases hpassed with ⟨event, hevent⟩
      rcases ih (s := s.withPool q)
        (fun e he => hanswers e (List.mem_cons_of_mem _ he)) hrest with
        ⟨events, hevents⟩
      refine ⟨event :: events,
        Option.bind_eq_some_iff.mpr ⟨s.withPool q, ?_, hevents⟩⟩
      rw [stepSession_of_ofPool? (ofPool?_of_pass? hevent), hq]
      rfl

theorem outcome?_setPhase {x : Delivery} (hx : s.deliveries[d]? = some x)
    (result : Except ClusterError Resp.Value) :
    (s.setPhase d (.finished result)).outcome? d = some result := by
  unfold outcome?
  rw [deliveries_setPhase, if_pos rfl, hx]
  rfl

theorem ends_of_sending {x : Delivery} {h : Nat}
    (hx : s.deliveries[d]? = some x) (hphase : x.phase = .sending h)
    (result : Except ClusterError Resp.Value) :
    s.run [.receive d result] = some (s.setPhase d (.finished result)) ∧
      (s.setPhase d (.finished result)).outcome? d = some result := by
  refine ⟨run_cons_of_some ?_, outcome?_setPhase hx result⟩
  simp only [stepSession, receive, phase?_of_delivery hx, hphase]

def Ends (s : Session) (d : Nat) : Prop :=
  exists events t result, s.run events = some t ∧ t.outcome? d = some result

theorem Ends.of_run (hrun : s.run events = some t)
    (h : t.Ends d) : s.Ends d := by
  rcases h with ⟨more, u, result, hmore, houtcome⟩
  refine ⟨events ++ more, u, result, ?_, houtcome⟩
  exact run_append_iff.mpr ⟨_, hrun, hmore⟩

theorem ends_of_opening (hs : s.Rooted) {x : Delivery} {call : Nat}
    {phase : Pool.Phase} (hx : s.deliveries[d]? = some x)
    (hphase : x.phase = .opening call)
    (hcall : s.pool.phase? call = some phase) : s.Ends d := by
  rcases Pool.ends_of_phase hs.sound hs.attended hcall with
    ⟨more, p, result, hmore, hanswers, hdone⟩
  rcases run_of_answers hanswers hmore with ⟨events, hrun⟩
  have hx' : (s.withPool p).deliveries[d]? = some x := hx
  apply Ends.of_run hrun
  cases result with
  | error e =>
      refine ⟨[.proceed d], _, _, run_cons_of_some ?_,
        outcome?_setPhase hx' (.error e)⟩
      have hdone' :
          (s.withPool p).pool.phase? call = some (.finished (.error e)) :=
        hdone
      simp only [stepSession, proceed, phase?_of_delivery hx', hphase, hdone']
  | ok h =>
      have hdone' :
          (s.withPool p).pool.phase? call = some (.finished (.ok h)) :=
        hdone
      have hsent : (s.withPool p).run [.proceed d] =
          some ((s.withPool p).setPhase d (.sending h)) := by
        apply run_cons_of_some
        simp only [stepSession, proceed, phase?_of_delivery hx', hphase, hdone']
      apply Ends.of_run hsent
      have hx'' : ((s.withPool p).setPhase d (.sending h)).deliveries[d]? =
          some { x with phase := .sending h } := by
        simp [hx']
      rcases ends_of_sending hx'' rfl (.error .shutdown) with ⟨hend, houtcome⟩
      exact ⟨_, _, _, hend, houtcome⟩

/-- A delivery in agreement with another one is waiting for something that can
happen. -/
theorem Coupled.ends (h : Coupled f S s t) (hs : s.Rooted) : s.Ends f.own := by
  rcases h.delivery with ⟨x, y, hx, hy, _, _, _, hphase⟩
  generalize ha : x.phase = a at hphase
  generalize y.phase = b at hphase
  cases hphase with
  | pending =>
      have hbegun := h.step_begin hs
      have hstep : s.begin f.own =
          some ((s.withPool (s.pool.request x.target)).setPhase f.own
            (.opening s.pool.calls.length)) := by
        rcases x with ⟨target, command, guarded, phase⟩
        cases ha
        simp only [begin, hx, h.shared, Bool.and_false,
          Bool.false_eq_true, if_false]
      rw [hstep] at hbegun
      generalize t.begin f.alone = o at hbegun
      cases hbegun with
      | some hcoupled =>
          have hrun : s.run [.begin f.own] =
              some ((s.withPool (s.pool.request x.target)).setPhase f.own
                (.opening s.pool.calls.length)) :=
            run_cons_of_some hstep
          apply Ends.of_run hrun
          rcases hcoupled.delivery with ⟨x', y', hx', _, _, _, _, hphase'⟩
          have hopening : x'.phase = .opening s.pool.calls.length := by
            rw [deliveries_setPhase, if_pos rfl] at hx'
            rcases Option.map_eq_some_iff.mp hx' with ⟨_, _, rfl⟩
            rfl
          rw [hopening] at hphase'
          generalize y'.phase = c at hphase'
          cases hphase' with
          | opening hcall =>
              rcases hcoupled.pool.phase hcall with ⟨phase, _, hpool, _⟩
              exact ends_of_opening (hs.of_run hrun) hx' hopening hpool
  | opening hcall =>
      rcases h.pool.phase hcall with ⟨phase, _, hpool, _⟩
      exact ends_of_opening hs hx ha hpool
  | sending _ =>
      rcases ends_of_sending hx ha (.error .shutdown) with ⟨hend, houtcome⟩
      exact ⟨_, _, _, hend, houtcome⟩
  | finished result =>
      refine ⟨[], s, result, rfl, ?_⟩
      rw [outcome?_of_delivery hx]
      unfold Delivery.result?
      rw [ha]

/-- Deliveries that are each in agreement with another one can all come to their
end. -/
theorem exists_outcomes {first : Nat} (hs : s.Rooted) (n : Nat)
    (h : forall i, i < n -> exists f S t, f.own = first + i ∧ Coupled f S s t) :
    exists events t,
      s.run events = some t ∧
      forall i, i < n ->
      exists result, t.outcome? (first + i) = some result := by
  induction n with
  | zero => exact ⟨[], s, rfl, nofun⟩
  | succ n ih =>
      rcases ih (fun i hi => h i (Nat.lt_succ_of_lt hi)) with
        ⟨events, t, hrun, houtcomes⟩
      rcases h n (Nat.lt_succ_self n) with ⟨f, S, u, hown, hcoupled⟩
      rcases hcoupled.run hs hrun with ⟨u', _, hafter⟩
      rcases hafter.ends (hs.of_run hrun) with
        ⟨more, r, result, hmore, houtcome⟩
      refine ⟨events ++ more, r, ?_, ?_⟩
      · exact run_append_iff.mpr ⟨_, hrun, hmore⟩
      · intro i hi
        rcases Nat.lt_succ_iff_lt_or_eq.mp hi with hlt | rfl
        · rcases houtcomes i hlt with ⟨other, hother⟩
          exact ⟨other, outcome?_of_run hmore hother⟩
        · exact ⟨result, hown ▸ houtcome⟩

/-! ## All results -/

theorem getElem?_of_mapM {α β : Type} {g : α -> Option β} {xs : List α}
    {ys : List β} (h : xs.mapM g = some ys) :
    ys.length = xs.length ∧ forall i : Nat, ys[i]? = (xs[i]?).bind g := by
  induction xs generalizing ys with
  | nil =>
      cases h
      exact ⟨rfl, fun _ => rfl⟩
  | cons x rest ih =>
      rw [List.mapM_cons] at h
      rcases Option.bind_eq_some_iff.mp h with ⟨y, hy, htail⟩
      rcases Option.bind_eq_some_iff.mp htail with ⟨more, hmore, hall⟩
      cases hall
      rcases ih hmore with ⟨hlength, hitems⟩
      refine ⟨congrArg Nat.succ hlength, ?_⟩
      rintro (_ | i)
      · exact hy.symm
      · exact hitems i

theorem outcomes_of_results {first count : Nat}
    {results : List (Except ClusterError Resp.Value)}
    (hcount : first + count ≤ s.deliveries.length)
    (h : s.results? first count = some results) :
    results.length = count ∧
      forall i, i < count -> results[i]? = s.outcome? (first + i) := by
  rcases getElem?_of_mapM h with ⟨hlength, hitems⟩
  constructor
  · rw [hlength, List.length_take, List.length_drop]
    omega
  · intro i hi
    rw [hitems, List.getElem?_take_of_lt hi, List.getElem?_drop]
    rfl

theorem length_of_run (hrun : s.run events = some t) :
    s.deliveries.length ≤ t.deliveries.length := by
  by_contra hless
  have hlast : t.deliveries.length < s.deliveries.length := by omega
  rcases delivery_of_run (List.getElem?_eq_getElem hlast) hrun with ⟨y, hy⟩
  exact absurd (List.getElem?_eq_some_iff.mp hy).1 (Nat.lt_irrefl _)

theorem exists_mapM {α β : Type} {g : α -> Option β} {xs : List α}
    (h : forall x, x ∈ xs -> exists y, g x = some y) :
    exists ys, xs.mapM g = some ys := by
  induction xs with
  | nil => exact ⟨[], rfl⟩
  | cons x rest ih =>
      rcases h x List.mem_cons_self with ⟨y, hy⟩
      rcases ih (fun x hx => h x (List.mem_cons_of_mem _ hx)) with ⟨ys, hys⟩
      refine ⟨y :: ys, ?_⟩
      rw [List.mapM_cons, hy, hys]
      rfl

theorem exists_results {first count : Nat}
    (h : forall i, i < count ->
      exists result, s.outcome? (first + i) = some result) :
    exists results, s.results? first count = some results := by
  apply exists_mapM
  intro x hx
  rcases List.mem_iff_getElem?.mp hx with ⟨i, hi⟩
  have hlt : i < count := by
    have hbound := (List.getElem?_eq_some_iff.mp hi).1
    rw [List.length_take] at hbound
    omega
  rw [List.getElem?_take_of_lt hlt, List.getElem?_drop] at hi
  rcases h i hlt with ⟨result, hresult⟩
  exact ⟨result, (outcome?_of_delivery hi).symm.trans hresult⟩

/-! ## One delivery for each master -/

def focus (s : Session) (i : Nat) (id : String) : Focus :=
  ⟨id, s.deliveries.length + i, s.deliveries.length⟩

def told (s : Session) (i : Nat) (id : String) (t : Session)
    (events : List SessionEvent) : List SessionEvent :=
  (s.focus i id).echoes (.of (.node id) s.pool) t events

def sendToAll (s : Session) (ids : List String) (command : Command) : Session :=
  s.deliver
    (ids.map (fun id => { target := .node id, command, guarded := true }))

variable {ids : List String} {id : String} {command : Command}

theorem delivery_sendToAll (hid : ids[i]? = some id) :
    (s.sendToAll ids command).deliveries[s.deliveries.length + i]? =
      some { target := .node id, command, guarded := true } := by
  show (s.deliveries ++ ids.map _)[s.deliveries.length + i]? = _
  rw [List.getElem?_append_right (Nat.le_add_right _ _),
    Nat.add_sub_cancel_left, List.getElem?_map, hid]
  rfl

theorem Rooted.sendToAll (hs : s.Rooted) (ids : List String)
    (command : Command) : (s.sendToAll ids command).Rooted :=
  have hgrown : Grown (fun _ => True) s (s.sendToAll ids command) :=
    Grown.of_same rfl rfl
  hs.grown hgrown

theorem coupled_sendToAll (hs : s.Rooted) (hopen : s.isClosed = false)
    (hid : ids[i]? = some id) :
    Coupled (s.focus i id) (.of (.node id) s.pool) (s.sendToAll ids command)
      (s.sendTo id command) where
  pool := by
    rcases hs.sound with ⟨keyAt, hseated, hwired⟩
    exact Pool.Twin.self hseated hwired _
  shared := hopen
  alone := hopen
  delivery := by
    refine ⟨_, { target := .node id, command, guarded := true },
      delivery_sendToAll hid, ?_, rfl, rfl, rfl, .pending⟩
    exact List.getElem?_concat_length

/-! ## Deliveries to different nodes -/

def Addressed (first : Nat) (ids : List String) (s : Session) : Prop :=
  forall i id, ids[i]? = some id ->
    exists x, s.deliveries[first + i]? = some x ∧ x.target = .node id

theorem Turn.target_eq {x y : Delivery} (h : Turn s t d x event y) :
    y.target = x.target := by
  cases h <;> rfl

theorem Addressed.step {first : Nat} (h : Addressed first ids s)
    (hstep : stepSession s event = some t) : Addressed first ids t := by
  intro i id hid
  rcases h i id hid with ⟨x, hx, htarget⟩
  rcases turn_of_step hstep hx with ⟨y, hy, hturn⟩
  exact ⟨y, hy, hturn.target_eq.trans htarget⟩

theorem leadsTo_node {other : String}
    (h : s.leadsTo (.node id) (.node other) = true) : other = id := by
  rcases leadsTo_iff.mp h with ⟨endpoint, hresolve⟩
  unfold Target.resolve at hresolve
  dsimp only at hresolve
  split at hresolve
  · cases hresolve
    rfl
  · cases hresolve

theorem ne_of_place {j : Nat} {other : String} (hdistinct : ids.Nodup)
    (hid : ids[i]? = some id) (hother : ids[j]? = some other)
    (hne : j ≠ i) : other ≠ id := by
  rintro rfl
  rcases List.getElem?_eq_some_iff.mp hother with ⟨hj, hat⟩
  rcases List.getElem?_eq_some_iff.mp hid with ⟨hi, hat'⟩
  exact hne ((List.getElem_inj hdistinct).mp (hat.trans hat'.symm))

theorem elsewhere_of_other {first j : Nat} {other : String} {f : Focus}
    (h : Addressed first ids r) (hother : ids[j]? = some other)
    (hid : other ≠ f.id) (hne : first + j ≠ f.own)
    (habout : event.delivery? = some (first + j)) : Elsewhere f r event := by
  cases event with
  | begin e =>
      cases habout
      rcases h j other hother with ⟨x, hx, htarget⟩
      refine Elsewhere.begin hne hx ?_
      rw [htarget, Bool.eq_false_iff]
      exact fun hleads => hid (leadsTo_node hleads)
  | proceed e =>
      cases habout
      exact Elsewhere.proceed hne
  | receive e result =>
      cases habout
      exact Elsewhere.receive hne
  | _ => cases habout

/-- The event is about one of `count` deliveries from a number on, or about the
pool. -/
def OfRequest (first count : Nat) (event : SessionEvent) : Prop :=
  event.ofPool?.isSome = true ∨
    exists j, j < count ∧ event.delivery? = some (first + j)

theorem solitary_of_echo? {first : Nat} {echo : SessionEvent}
    (hs : Addressed first ids s) (hdistinct : ids.Nodup)
    (hid : ids[i]? = some f.id) (hown : f.own = first + i)
    (hevent : OfRequest first ids.length event)
    (hecho : f.echo? S s event = some echo) : Solitary f.alone echo := by
  rcases hevent with hpool | ⟨j, hj, habout⟩
  · rcases Option.isSome_iff_exists.mp hpool with ⟨e, he⟩
    rw [echo?_of_ofPool? he] at hecho
    rcases Option.bind_eq_some_iff.mp hecho with ⟨e', _, hpass⟩
    rw [Solitary, ofPool?_of_pass? hpass]
    exact Or.inr rfl
  · by_cases hji : j = i
    · rw [hji, ← hown] at habout
      cases event with
      | begin e | proceed e | receive e result =>
          cases habout
          simp only [Focus.echo?, if_true] at hecho
          cases hecho
          exact Or.inl rfl
      | _ => cases habout
    -- A delivery to another node asks for another connection.
    · have hother := List.getElem?_eq_getElem hj
      have hne := ne_of_place hdistinct hid hother hji
      have hplace : first + j ≠ f.own := by omega
      cases event with
      | begin e =>
          cases habout
          rcases hs j _ hother with
            ⟨⟨target, command, guarded, phase⟩, hx, htarget⟩
          cases htarget
          simp only [Focus.echo?, if_neg hplace, hx] at hecho
          split at hecho
          · rename_i heq
            cases heq
            split at hecho
            · rename_i hleads
              exact absurd (leadsTo_node hleads) hne
            · cases hecho
          · cases hecho
      | proceed e | receive e result =>
          cases habout
          simp only [Focus.echo?, if_neg hplace] at hecho
          cases hecho
      | _ => cases habout

/-- A session that is told of nothing but the request and the pool has a
delivery that is alone in it. -/
theorem solitary_of_echoes {first : Nat} (hs : Addressed first ids s)
    (hdistinct : ids.Nodup) (hid : ids[i]? = some f.id)
    (hown : f.own = first + i)
    (hevents : forall event, event ∈ events -> OfRequest first ids.length event)
    {echo : SessionEvent} (hmem : echo ∈ f.echoes S s events) :
    Solitary f.alone echo := by
  induction events generalizing s S with
  | nil => cases hmem
  | cons event rest ih =>
      have hrest :=
        fun event hmem => hevents event (List.mem_cons_of_mem _ hmem)
      simp only [Focus.echoes] at hmem
      cases hstep : stepSession s event with
      | none =>
          rw [hstep] at hmem
          cases hmem
      | some t =>
          rw [hstep] at hmem
          dsimp only at hmem
          cases hecho : f.echo? S s event with
          | none =>
              rw [hecho] at hmem
              exact ih (hs.step hstep) hrest hmem
          | some told =>
              rw [hecho] at hmem
              rcases List.mem_cons.mp hmem with rfl | hmem
              · exact solitary_of_echo? hs hdistinct hid hown
                  (hevents event List.mem_cons_self) hecho
              · exact ih (hs.step hstep) hrest hmem

/-! ## A command for every master -/

/-- How the `i`-th of the nodes fares, to which a session has sent a command: as
it would alone. -/
structure Unaffected (s : Session) (command : Command) (ids : List String)
    (i : Nat) (id : String) (events : List SessionEvent)
    (r : Session) : Prop where
  /-- The command for this node only, sent in the same state, has the same
  result when the same things happen to what concerns the node, and the same
  things are possible. -/
  alone : exists u,
    (s.sendTo id command).run
      (s.told i id (s.sendToAll ids command) events) = some u ∧
    u.outcome? s.deliveries.length = r.outcome? (s.deliveries.length + i) ∧
    forall event echo, (s.focus i id).echo?
        ((s.focus i id).strand (.of (.node id) s.pool) (s.sendToAll ids command)
          events) r event = some echo ->
      (stepSession u echo).isSome = (stepSession r event).isSome
  /-- Nothing is told of other nodes, -/
  deaf : forall event q, Elsewhere (s.focus i id) r event ->
    stepSession r event = some q ->
    s.told i id (s.sendToAll ids command) (events ++ [event]) =
      s.told i id (s.sendToAll ids command) events
  /-- to which the other deliveries go. -/
  others : forall event j, j < ids.length -> j ≠ i ->
    event.delivery? = some (s.deliveries.length + j) ->
    Elsewhere (s.focus i id) r event
  /-- As long as nothing goes on but the request, the delivery is all there is
  to be told of. -/
  sole : (forall event, event ∈ events ->
    OfRequest s.deliveries.length ids.length event) ->
      forall echo, echo ∈ s.told i id (s.sendToAll ids command) events ->
      Solitary s.deliveries.length echo
  /-- Whatever else is different in another run, the result is the same. -/
  settled : forall events' r',
    (s.sendToAll ids command).run events' = some r' ->
    s.told i id (s.sendToAll ids command) events' = s.told i id
      (s.sendToAll ids command) events ->
    r'.outcome? (s.deliveries.length + i) = r.outcome? (s.deliveries.length + i)

theorem unaffected_of_run (hs : s.Rooted) (hopen : s.isClosed = false)
    (hdistinct : ids.Nodup) (hid : ids[i]? = some id)
    (hrun : (s.sendToAll ids command).run events = some r) :
    Unaffected s command ids i id events r := by
  have hall := hs.sendToAll ids command
  have haddressed :
      Addressed s.deliveries.length ids (s.sendToAll ids command) :=
    fun j other hother => ⟨_, delivery_sendToAll hother, rfl⟩
  have hcoupled :
      Coupled (s.focus i id) (.of (.node id) s.pool) (s.sendToAll ids command)
        (s.sendTo id command) :=
    coupled_sendToAll hs hopen hid
  rcases hcoupled.run hall hrun with ⟨u, hu, hafter⟩
  constructor
  case alone =>
    refine ⟨u, hu, hafter.result?_eq.symm, ?_⟩
    intro event echo hecho
    have hstep := hafter.step_echo (hall.of_run hrun) hecho
    generalize stepSession r event = a at hstep ⊢
    generalize stepSession u echo = b at hstep ⊢
    cases hstep with
    | none => rfl
    | some _ => rfl
  case deaf =>
    intro event q helsewhere hstep
    unfold told
    rw [echoes_concat hrun hstep, hafter.echo?_of_elsewhere helsewhere]
    exact List.append_nil _
  case others =>
    intro event j hj hji habout
    have hother := List.getElem?_eq_getElem hj
    have hstill : Addressed s.deliveries.length ids r :=
      run_keeps hrun haddressed (fun haddressed hstep => haddressed.step hstep)
    refine elsewhere_of_other hstill hother
      (ne_of_place hdistinct hid hother hji) ?_ habout
    show s.deliveries.length + j ≠ s.deliveries.length + i
    omega
  case sole =>
    intro hevents echo hmem
    exact solitary_of_echoes haddressed hdistinct hid rfl hevents hmem
  case settled =>
    intro events' r' hrun' hsame
    rcases hcoupled.run hall hrun' with ⟨u', hu', hafter'⟩
    have hecho :
        (s.focus i id).echoes (.of (.node id) s.pool) (s.sendToAll ids command)
          events' = (s.focus i id).echoes (.of (.node id) s.pool)
          (s.sendToAll ids command) events :=
      hsame
    rw [hecho, hu] at hu'
    cases hu'
    exact hafter'.result?_eq.trans hafter.result?_eq.symm

def masterIds (s : Session) : List String :=
  s.pool.table.table.masters.map Node.id

/-- A command for every master of a table with distinct ids.  A closed session
refuses it.  An open session takes it, with one delivery for each master in the
order of the table.  Whatever happens then, none of the masters is affected by
the others, all deliveries can still come to their end, and when they have, the
results are theirs, one for each master in the order of the table. -/
theorem masters_unaffected (hs : s.Rooted)
    (hdistinct : (s.pool.table.table.nodes.map Node.id).Nodup)
    (command : Command) :
    (s.isClosed = true -> s.sendToMasters command = .error .shutdown) ∧
      (s.isClosed = false ->
        s.sendToMasters command = .ok
          (s.sendToAll s.masterIds command, s.masterIds) ∧ s.masterIds.Nodup ∧
          forall events r,
            (s.sendToAll s.masterIds command).run events = some r ->
            (forall i id, s.masterIds[i]? = some id ->
              Unaffected s command s.masterIds i id events r) ∧
              (exists more q results, r.run more = some q ∧
                q.results? s.deliveries.length s.masterIds.length =
                  some results) ∧
              forall results,
                r.results? s.deliveries.length s.masterIds.length =
                  some results ->
                results.length = s.masterIds.length ∧
                  forall i, i < s.masterIds.length ->
                    results[i]? = r.outcome? (s.deliveries.length + i)) := by
  have hnodup : s.masterIds.Nodup :=
    (List.filter_sublist.map Node.id).nodup hdistinct
  constructor
  · intro hclosed
    unfold sendToMasters
    rw [if_pos hclosed]
  · intro hopen
    refine ⟨?_, hnodup, fun events r hrun => ⟨?_, ?_, ?_⟩⟩
    · unfold sendToMasters
      rw [hopen]
      rfl
    · intro i id hid
      exact unaffected_of_run hs hopen hnodup hid hrun
    · have hall := hs.sendToAll s.masterIds command
      have hcoupled : forall i, i < s.masterIds.length ->
          exists f S t, f.own = s.deliveries.length + i ∧ Coupled f S r t := by
        intro i hi
        rcases (coupled_sendToAll hs hopen (List.getElem?_eq_getElem hi)).run
          hall hrun with ⟨t, _, hafter⟩
        exact ⟨_, _, t, rfl, hafter⟩
      rcases exists_outcomes (hall.of_run hrun) s.masterIds.length hcoupled with
        ⟨more, q, hmore, houtcomes⟩
      rcases exists_results houtcomes with ⟨results, hresults⟩
      exact ⟨more, q, results, hmore, hresults⟩
    · intro results hresults
      apply outcomes_of_results _ hresults
      have hstart : s.deliveries.length + s.masterIds.length =
          (s.sendToAll s.masterIds command).deliveries.length := by
        simp [sendToAll, deliver]
      rw [hstart]
      exact length_of_run hrun

def onTwoMasters : Session :=
  .start ⟨0, Pool.twoMasters⟩ (.atAddress "h" 1) (.ofMillis 10000)

/-- One master cannot be reached, and the other one answers as it would have
answered alone. -/
theorem masters_unaffected_unreachable :
    exists r, (onTwoMasters.sendToAll ["n2", "n5"] ⟨"PING", []⟩).run
        [.begin 0, .begin 1, .notLinked 0 .shutdown, .linked 1, .proceed 0,
          .proceed 1, .receive 1 (.ok .ok)] =
          some r ∧
      r.results? 0 2 = some [.error .shutdown, .ok .ok] ∧
      onTwoMasters.told 1 "n5"
        (onTwoMasters.sendToAll ["n2", "n5"] ⟨"PING", []⟩)
          [.begin 0, .begin 1, .notLinked 0 .shutdown, .linked 1, .proceed 0,
            .proceed 1, .receive 1 (.ok .ok)] =
        [.begin 0, .linked 0, .proceed 0, .receive 0 (.ok .ok)] ∧
      Unaffected onTwoMasters ⟨"PING", []⟩ ["n2", "n5"] 1 "n5"
        [.begin 0, .begin 1, .notLinked 0 .shutdown, .linked 1, .proceed 0,
          .proceed 1, .receive 1 (.ok .ok)] r := by
  have hrun : (onTwoMasters.sendToAll ["n2", "n5"] ⟨"PING", []⟩).run
      [.begin 0, .begin 1, .notLinked 0 .shutdown, .linked 1, .proceed 0,
        .proceed 1, .receive 1 (.ok .ok)] = some _ :=
    rfl
  have hopen :=
    (masters_unaffected (Rooted.start _ _ _) (by decide) ⟨"PING", []⟩
      (s := onTwoMasters)).2 rfl
  exact ⟨_, hrun, rfl, rfl, (hopen.2.2 _ _ hrun).1 1 "n5" rfl⟩

/-- A closed session has two masters with different ids and addresses, and a
command for all of them has no results at all. -/
theorem masters_refused_closed :
    onTwoMasters.close.Rooted ∧
      (onTwoMasters.close.pool.table.table.nodes.map Node.id).Nodup ∧
      (onTwoMasters.close.pool.table.table.nodes.map
        (fun n => (n.endpoint.host, n.endpoint.port))).Nodup ∧
      onTwoMasters.close.masterIds = ["n2", "n5"] ∧
      onTwoMasters.close.sendToMasters ⟨"PING", []⟩ = .error .shutdown := by
  have hgrown : Grown (fun _ => True) onTwoMasters onTwoMasters.close :=
    Grown.close _
  exact ⟨(Rooted.start _ _ _).grown hgrown, by decide, by decide, rfl, rfl⟩

end Session
end SlotCluster
