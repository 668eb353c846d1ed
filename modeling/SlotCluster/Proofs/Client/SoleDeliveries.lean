import SlotCluster.Proofs.Client.Dispatches

/-!
# Deliveries that are alone in their session

When nothing else goes on in a session, only the call of the delivery can be
under way, and it asks for one link at most.  So a run of one delivery opens no
link but one to the endpoint of its target, and no command goes out but its own.
-/

namespace SlotCluster

open Client (SessionEvent stepSession)

def Network.Message.isCommand : Network.Message -> Bool
  | .command _ => true
  | _ => false

def Network.commands (log : Network.Traffic) : Network.Traffic :=
  log.filter (fun entry => entry.2.isCommand)

namespace Session

variable {s t u : Session} {event : SessionEvent} {events : List SessionEvent}
  {id d : Nat} {x y : Delivery} {endpoint : Endpoint}

/-- The event is about the delivery, or about a call, a link or a connection of
the pool. -/
def Solitary (d : Nat) (event : SessionEvent) : Prop :=
  event.delivery? = some d ∨ event.ofPool?.isSome = true

/-! ## Commands -/

theorem commands_of_about (habout : event.delivery? = some d) :
    Network.commands (Network.sessionTraffic id s t event) =
      Network.sessionTraffic id s t event := by
  cases event with
  | begin e => rfl
  | receive e result => rfl
  | proceed e =>
      apply List.filter_eq_self.mpr
      intro entry hentry
      simp only [Network.sessionTraffic] at hentry
      split at hentry
      · rcases List.mem_map.mp hentry with ⟨h, _, rfl⟩
        rfl
      · cases hentry
  | _ => cases habout

theorem commands_of_ofPool (hpool : event.ofPool?.isSome = true) :
    Network.commands (Network.sessionTraffic id s t event) = [] := by
  apply List.filter_eq_nil_iff.mpr
  intro entry hentry
  cases event with
  | linked call =>
      simp only [Network.sessionTraffic] at hentry
      split at hentry
      · rcases List.mem_map.mp hentry with ⟨password, _, rfl⟩
        exact Bool.false_ne_true
      · cases hentry
  | accepted call =>
      simp only [Network.sessionTraffic] at hentry
      split at hentry
      · rw [List.mem_singleton.mp hentry]
        exact Bool.false_ne_true
      · cases hentry
  | _ => first | cases hentry | cases hpool

theorem isAbout_of_ofPool (hpool : event.ofPool?.isSome = true) :
    isAbout d event = false := by
  cases event <;> first | rfl | cases hpool

theorem commands_of_run (id : Nat) (s : Session)
    (halone : forall event, event ∈ events -> Solitary d event) :
    Network.commands (s.trafficAt id (fun _ => true) events) =
      s.sentBy id d events := by
  induction events generalizing s with
  | nil => rfl
  | cons event rest ih =>
      unfold sentBy trafficAt
      cases stepSession s event with
      | none => rfl
      | some t =>
          have hrest :=
            ih t (fun event hmem => halone event (List.mem_cons_of_mem _ hmem))
          dsimp only
          unfold Network.commands at hrest ⊢
          rw [if_pos rfl, List.filter_append, hrest]
          congr 1
          rcases halone event List.mem_cons_self with habout | hpool
          · have hown : isAbout d event = true := by
              rw [isAbout, beq_iff_eq]
              exact habout
            rw [hown, if_pos rfl]
            exact commands_of_about habout
          · rw [isAbout_of_ofPool hpool, if_neg Bool.false_ne_true]
            exact commands_of_ofPool hpool

/-! ## Links -/

def Linked (d : Nat) (t : Session) : Prop :=
  exists phase, t.phase? d = some phase ∧ phase ≠ .pending ∧
    forall call, phase = .opening call ->
    exists now, t.pool.phase? call = some now ∧ now.undialed? = none

/-- Nobody waits for a connection but the delivery, and no link has been opened
since `s` but one for it. -/
structure Sole (s : Session) (d : Nat) (endpoint : Endpoint)
    (t : Session) : Prop where
  others : forall {i : Nat} {phase : Pool.Phase},
    t.pool.phase? i = some phase -> (exists result, phase = .finished result) ∨
    t.phase? d = some (.opening i)
  dialed : t.pool.dialed = s.pool.dialed ∨
    t.pool.dialed = s.pool.dialed ++ [endpoint] ∧ Linked d t

namespace Sole

theorem idle (ht : Sole s d endpoint t) {phase : DeliveryPhase}
    (hphase : t.phase? d = some phase)
    (hnot : forall call, phase ≠ .opening call) {i : Nat} {now : Pool.Phase}
    (hi : t.pool.phase? i = some now) :
    exists result, now = .finished result := by
  rcases ht.others hi with hdone | hopening
  · exact hdone
  · rw [hphase, Option.some.injEq] at hopening
    exact absurd hopening (hnot i)

theorem of_same {phase : DeliveryPhase} (ht : Sole s d endpoint t)
    (hpool : u.pool = t.pool) (hphase : u.phase? d = some phase)
    (hbegun : phase ≠ .pending) (hnot : forall call, phase ≠ .opening call)
    (hidle : forall {i : Nat} {now : Pool.Phase}, t.pool.phase? i = some now ->
      exists result, now = .finished result) : Sole s d endpoint u where
  others := by
    intro i now hi
    rw [hpool] at hi
    exact Or.inl (hidle hi)
  dialed := by
    rw [hpool]
    rcases ht.dialed with hnone | ⟨hone, _⟩
    · exact Or.inl hnone
    · exact Or.inr
        ⟨hone, phase, hphase, hbegun, fun call h => absurd h (hnot call)⟩

theorem own (ht : Sole s d endpoint t) (hrooted : t.Rooted)
    (hx : t.deliveries[d]? = some x) (hy : u.deliveries[d]? = some y)
    (hturn : Turn t u d x event y) (habout : event.delivery? = some d) :
    Sole s d endpoint u := by
  have hbefore := phase?_of_delivery hx
  have hafter := phase?_of_delivery hy
  cases hturn with
  | stays aside => exact absurd habout aside
  | refused waits pool =>
      rw [waits] at hbefore
      exact ht.of_same pool hafter nofun nofun (ht.idle hbefore nofun)
  | answered result waits pool =>
      rw [waits] at hbefore
      exact ht.of_same pool hafter nofun nofun (ht.idle hbefore nofun)
  | @sends call h waits served pool =>
      rw [waits] at hbefore
      refine ht.of_same pool hafter nofun nofun (fun {i now} hi => ?_)
      rcases ht.others hi with hdone | hopening
      · exact hdone
      · rw [hbefore] at hopening
        cases hopening
        rw [served, Option.some.injEq] at hi
        exact ⟨_, hi.symm⟩
  | @fails call e waits failed pool =>
      rw [waits] at hbefore
      refine ht.of_same pool hafter nofun nofun (fun {i now} hi => ?_)
      rcases ht.others hi with hdone | hopening
      · exact hdone
      · rw [hbefore] at hopening
        cases hopening
        rw [failed, Option.some.injEq] at hi
        exact ⟨_, hi.symm⟩
  | begun waits pool =>
      rw [waits] at hbefore
      constructor
      · intro i now hi
        rw [pool] at hi
        rcases hrooted.sound with ⟨keyAt, hseated, _⟩
        rcases Pool.phase?_of_begins
          (Pool.begins_of_request x.target hseated.manned) i with
          hsame | ⟨hnew, _⟩
        · rw [hsame] at hi
          exact Or.inl (ht.idle hbefore nofun hi)
        · right
          rw [hafter, hnew]
      · left
        rw [pool,
          (Pool.Lasting.edits (Pool.edits_request t.pool x.target)).dialed]
        rcases ht.dialed with hnone | ⟨_, phase, hphase, hbegun, _⟩
        · exact hnone
        · rw [hbefore, Option.some.injEq] at hphase
          exact absurd hphase.symm hbegun

theorem pool (ht : Sole s d endpoint t) (hrooted : t.Rooted) {e : Pool.Event}
    (hstep : t.pool.step e = some u.pool)
    (hrequest : forall target, e ≠ .request target)
    (hphase : u.phase? d = t.phase? d)
    (hticket : forall {call : Nat} {ticket : Pool.Ticket},
      t.phase? d = some (.opening call) ->
      t.pool.view Pool.Phase.ticket? call = some ticket ->
      ticket.endpoint = endpoint) : Sole s d endpoint u := by
  rcases hrooted.sound with ⟨keyAt, hseated, _⟩
  constructor
  · intro i new hnew
    rcases Pool.phase?_isSome_of_step hseated hstep hrequest hnew with
      ⟨old, hold⟩
    rcases ht.others hold with ⟨result, rfl⟩ | hopening
    · rw [Pool.finished_of_step hseated hstep hold, Option.some.injEq] at hnew
      exact Or.inl ⟨result, hnew.symm⟩
    · exact Or.inr (hphase.trans hopening)
  · rcases Pool.dialed_of_step hstep with hsame | ⟨i, ticket, rfl, hconnecting⟩
    · rw [hsame]
      rcases ht.dialed with hnone | ⟨hone, phase, hbegun, hpending, hlinked⟩
      · exact Or.inl hnone
      · refine Or.inr ⟨hone, phase, hphase.trans hbegun, hpending, ?_⟩
        intro call hcall
        rcases hlinked call hcall with ⟨now, hnow, hdone⟩
        exact Pool.undialed_of_step hseated hstep hnow hdone
    -- Only the call of the delivery can have asked for the link, and it has not
    -- had one.
    · have hopening : t.phase? d = some (.opening i) := by
        rcases ht.others hconnecting with ⟨result, hresult⟩ | hopening
        · cases hresult
        · exact hopening
      have hendpoint : ticket.endpoint = endpoint :=
        hticket hopening (Pool.view_of_phase? Pool.Phase.ticket? hconnecting)
      rw [Pool.dialed_of_linked hconnecting hstep, hendpoint]
      rcases ht.dialed with hnone | ⟨_, phase, hbegun, _, hlinked⟩
      · rw [hnone]
        refine Or.inr ⟨rfl, .opening i, hphase.trans hopening, nofun, ?_⟩
        intro call hcall
        cases hcall
        exact Pool.undialed_of_linked hseated hconnecting hstep
      · rw [hopening, Option.some.injEq] at hbegun
        rcases hlinked i hbegun.symm with ⟨now, hnow, hdone⟩
        rw [hconnecting, Option.some.injEq] at hnow
        rw [← hnow] at hdone
        cases hdone

end Sole

theorem sole_of_run (hs : s.Rooted) (hquiet : s.pool.Quiet)
    (hx : s.deliveries[d]? = some x) (hpending : x.phase = .pending)
    {key : Target}
    (hresolve : x.target.resolve s.pool.table.table s.pool.fallback =
      .ok (key, endpoint))
    (hrun : s.run events = some t) (hprompt : s.Prompt d events)
    (halone : forall event, event ∈ events -> Solitary d event) :
    Sole s d endpoint t := by
  induction events using List.reverseRecOn generalizing t with
  | nil =>
      cases hrun
      exact ⟨fun hi => Or.inl (hquiet.calls hi), Or.inl rfl⟩
  | append_singleton events event ih =>
      rcases run_concat.mp hrun with ⟨r, hr, hstep⟩
      have hbefore : s.Prompt d events := hprompt.mono (List.prefix_append _ _)
      have hsole : Sole s d endpoint r :=
        ih hr hbefore
          (fun event hmem => halone event (List.mem_append_left _ hmem))
      have hrooted : r.Rooted := hs.of_run hr
      rcases underway_of_run 0 hs hx hpending hresolve hr hbefore with
        ⟨phase, hphase, hunderway⟩
      rcases turn_of_step hstep hphase with ⟨y, hy, hturn⟩
      rcases halone event
        (List.mem_append_right _ (List.mem_singleton_self event)) with
        habout | hpool
      · exact hsole.own hrooted hphase hy hturn habout
      · rcases Option.isSome_iff_exists.mp hpool with ⟨e, he⟩
        have hrequest : forall target, e ≠ .request target := by
          intro target htarget
          subst htarget
          cases event <;> cases he
        have hstepped : r.pool.step e = some t.pool := by
          rcases Client.poolEffect_of_stepSession hstep with ⟨_, heffect⟩
          generalize t.pool = pool at heffect
          cases heffect with
          | kept own => rw [he] at own; cases own
          | refused own _ _ => rw [he] at own; cases own
          | requested own _ => rw [he] at own; cases own
          | passed same stepped =>
              rw [he] at same
              cases same
              exact stepped
        have hsame : t.phase? d = r.phase? d := by
          rw [phase?_of_delivery hy, phase?_of_delivery hphase]
          cases hturn with
          | stays _ => rfl
          | _ => cases hpool
        refine hsole.pool hrooted hstepped hrequest hsame ?_
        intro call ticket hopening hticket
        rw [phase?_of_delivery hphase, Option.some.injEq] at hopening
        cases hopening
        cases hunderway with
        | opening calls errand _ =>
            rw [Pool.view_of_phase? _ calls] at hticket
            exact (errand.ticket hticket).2

/-- What a delivery does that is alone in its session, in a run from `s` to
`t`. -/
structure Alone (id : Nat) (s : Session) (d : Nat) (endpoint : Endpoint)
    (events : List SessionEvent) (t : Session) : Prop where
  opened : t.pool.dialed = s.pool.dialed ∨
    t.pool.dialed = s.pool.dialed ++ [endpoint]
  commands : Network.commands (s.trafficAt id (fun _ => true) events) =
    s.sentBy id d events

/-- A delivery alone in its session opens one link at most, which goes to the
endpoint of its target, and no command goes out but its own. -/
theorem alone_of_run (id : Nat) (hs : s.Rooted) (hquiet : s.pool.Quiet)
    (hx : s.deliveries[d]? = some x) (hpending : x.phase = .pending)
    {key : Target}
    (hresolve : x.target.resolve s.pool.table.table s.pool.fallback =
      .ok (key, endpoint))
    (hrun : s.run events = some t) (hprompt : s.Prompt d events)
    (halone : forall event, event ∈ events -> Solitary d event) :
    Alone id s d endpoint events t where
  opened :=
    (sole_of_run hs hquiet hx hpending hresolve hrun hprompt
      halone).dialed.imp_right And.left
  commands := commands_of_run id s halone

end Session
end SlotCluster
