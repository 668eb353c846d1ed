import SlotCluster.Proofs.Transport.Turns

/-!
# Connections that have fallen silent

A connection is silent once it is closed and nobody is in the middle of an
exchange.  It stays so whatever happens: nothing goes out any more, and whoever
still wants to send a request is refused.  Nobody waits for that in vain,
because the turn goes round until everybody has had it.
-/

namespace SlotCluster
namespace Transport
namespace Wire

structure Silent (w : Wire) : Prop where
  shut : w.isOpen = false
  idle : forall {u : Nat} {phase : Phase}, w.phase? u = some phase ->
    phase.isExchange = false

/-- The second wire is a silent one that comes after the first, and nothing has
gone out in between. -/
structure Hushed (w q : Wire) : Prop where
  silent : Silent q
  outbound : q.outbound = w.outbound
  requested : q.requested = w.requested
  address : q.address = w.address
  results : forall {u : Nat} {result : Except ClusterError Resp.Value},
    q.result? u = some result ->
    w.result? u = some result ∨ result = .error w.closedError

namespace Hushed

variable {w q r : Wire} {entrants : List (Option Command)}
  {arrivals : List Resp.Value}

theorem refl (h : Silent w) : Hushed w w where
  silent := h
  outbound := rfl
  requested := rfl
  address := rfl
  results := Or.inl

theorem trans (hwq : Hushed w q) (hqr : Hushed q r) : Hushed w r where
  silent := hqr.silent
  outbound := hqr.outbound.trans hwq.outbound
  requested := hqr.requested.trans hwq.requested
  address := hqr.address.trans hwq.address
  results h := by
    rcases hqr.results h with hq | hclosed
    · exact hwq.results hq
    · refine Or.inr ?_
      rw [hclosed, closedError, hwq.address]
      rfl

theorem setPhase (h : Silent w) (u : Nat) {phase : Phase}
    (hexchange : phase.isExchange = false)
    (hresult : forall result, phase = .finished result ->
      result = .error w.closedError) : Hushed w (w.setPhase u phase) where
  silent := by
    refine ⟨h.shut, ?_⟩
    intro v other hother
    rw [phase?_setPhase] at hother
    by_cases huv : u = v
    · rw [if_pos huv, Option.map_eq_some_iff] at hother
      rcases hother with ⟨_, _, heq⟩
      exact heq ▸ hexchange
    · rw [if_neg huv] at hother
      exact h.idle hother
  outbound := rfl
  requested := rfl
  address := rfl
  results := by
    intro v result hv
    rw [result?_eq_some, phase?_setPhase] at hv
    by_cases huv : u = v
    · rw [if_pos huv, Option.map_eq_some_iff] at hv
      rcases hv with ⟨_, _, heq⟩
      exact Or.inr (hresult result heq)
    · rw [if_neg huv] at hv
      exact Or.inl (result?_eq_some.mpr hv)

theorem seats (h : Silent w) (hasStreams : Bool) (holder : Option Nat)
    (queue : List Nat) : Hushed w { w with hasStreams, holder, queue } :=
  ⟨⟨h.shut, h.idle⟩, rfl, rfl, rfl, Or.inl⟩

theorem enter (h : Silent w) (entrant : Option Command) (holder : Option Nat)
    (queue : List Nat) :
    Hushed w
      { w with
        isOpen := w.isOpen && entrant.isSome
        users := w.users ++ [.entering entrant]
        holder
        queue } where
  silent := by
    constructor
    · change (w.isOpen && entrant.isSome) = false
      rw [h.shut, Bool.false_and]
    · intro u phase hphase
      have hold : phase? { w with users := w.users ++ [.entering entrant] } u =
          some phase :=
        hphase
      rw [phase?_concat] at hold
      by_cases hu : u = w.users.length
      · rw [if_pos hu, Option.some.injEq] at hold
        subst hold
        cases entrant with
        | some _ => rfl
        | none => rfl
      · rw [if_neg hu] at hold
        exact h.idle hold
  outbound := rfl
  requested := rfl
  address := rfl
  results := by
    intro u result hresult
    have hold : phase? { w with users := w.users ++ [.entering entrant] } u =
        some (.finished result) :=
      result?_eq_some.mp hresult
    rw [phase?_concat] at hold
    by_cases hu : u = w.users.length
    · rw [if_pos hu, Option.some.injEq] at hold
      cases entrant with
      | some _ => cases hold
      | none => cases hold
    · rw [if_neg hu] at hold
      exact Or.inl (result?_eq_some.mpr hold)

theorem move (h : Silent w)
    (hmove : Move entrants arrivals w q) : Hushed w q := by
  cases hmove with
  | wait entrant held => exact enter h entrant _ _
  | come entrant free => exact enter h entrant _ _
  | begin turn phase usable streams =>
      rw [h.shut] at usable
      cases usable
  | refuse turn phase =>
      have hseats :=
        seats h (w.hasStreams && w.isOpen) w.queue.head? w.queue.tail
      refine hseats.trans (setPhase hseats.silent _ rfl ?_)
      intro result hresult
      cases hresult
      rfl
  | beginClose turn phase =>
      have hseats := seats h false w.holder w.queue
      exact hseats.trans
        (setPhase hseats.silent _ rfl (fun _ hresult => by cases hresult))
  | skipClose turn phase =>
      have hseats := seats h w.hasStreams w.queue.head? w.queue.tail
      exact hseats.trans
        (setPhase hseats.silent _ rfl (fun _ hresult => by cases hresult))
  | endClose phase =>
      have hseats := seats h w.hasStreams w.queue.head? w.queue.tail
      exact hseats.trans
        (setPhase hseats.silent _ rfl (fun _ hresult => by cases hresult))
  | send phase more => cases h.idle phase
  | sendLast phase => cases h.idle phase
  | breakOff keeps phase exchange kind read =>
      rw [h.idle phase] at exchange
      cases exchange
  | arrive value => exact ⟨⟨h.shut, h.idle⟩, rfl, rfl, rfl, Or.inl⟩
  | fault e => exact ⟨⟨h.shut, h.idle⟩, rfl, rfl, rfl, Or.inl⟩
  | answer phase read => cases h.idle phase
  | @quit _ u request phase other =>
      have hseats :=
        seats h w.hasStreams w.holder (w.queue.filter (fun v => v ≠ u))
      exact hseats.trans
        (setPhase hseats.silent _ rfl (fun _ hresult => by cases hresult))
  | @pass _ u request phase turn =>
      have hseats :=
        seats h w.hasStreams (w.queue.filter (fun v => v ≠ u)).head?
          (w.queue.filter (fun v => v ≠ u)).tail
      exact hseats.trans
        (setPhase hseats.silent _ rfl (fun _ hresult => by cases hresult))

theorem moves (h : Silent w)
    (hmoves : Moves entrants arrivals w q) : Hushed w q := by
  cases hmoves with
  | one move => exact Hushed.move h move
  | two first second =>
      have hfirst := Hushed.move h first
      exact hfirst.trans (Hushed.move hfirst.silent second)

theorem run (h : Silent w) {events : List Event}
    (hrun : w.run events = some q) : Hushed w q :=
  run_keeps hrun (refl h)
    (fun hr hstep => hr.trans (Hushed.moves hr.silent (moves_of_step hstep)))

end Hushed

/-!
## How a connection falls silent

An exchange goes on, brings its reply, or leaves the connection silent.
-/

def Breaks (w q : Wire) : Prop :=
  exists u old, w.phase? u = some old ∧ old.isExchange = true ∧
    (q.phase? u = some .abandoned ∨
      exists e, q.phase? u = some (.finished (.error e)))

section

variable {w q : Wire} {entrants : List (Option Command)}
  {arrivals : List Resp.Value} {u : Nat}

theorem phase?_concat_of_some {old : Phase} (h : w.phase? u = some old)
    (phase : Phase) :
    phase? { w with users := w.users ++ [phase] } u = some old := by
  rw [phase?_concat, if_neg (Nat.ne_of_lt (phase?_lt h))]
  exact h

theorem ended_of_move {phase : Phase} (hphase : w.phase? u = some phase)
    (hended : phase.isEnded = true) (hmove : Move entrants arrivals w q) :
    q.phase? u = some phase := by
  have hother : forall {v : Nat} {old : Phase} (new : Phase),
      w.phase? v = some old -> old.isEnded = false ->
      (w.setPhase v new).phase? u = some phase := by
    intro v old new hold hbusy
    rw [phase?_setPhase_of_ne w new, hphase]
    intro heq
    subst heq
    rw [hold, Option.some.injEq] at hphase
    rw [hphase, hended] at hbusy
    cases hbusy
  cases hmove with
  | wait entrant held => exact phase?_concat_of_some hphase _
  | come entrant free => exact phase?_concat_of_some hphase _
  | begin turn old _ _ => exact hother _ old rfl
  | refuse turn old => exact hother _ old rfl
  | beginClose turn old => exact hother _ old rfl
  | skipClose turn old => exact hother _ old rfl
  | endClose old => exact hother _ old rfl
  | send old more => exact hother _ old rfl
  | sendLast old => exact hother _ old rfl
  | @breakOff _ _ old _ _ keeps hold exchange kind read =>
      apply hother _ hold
      cases old with
      | writing _ => rfl
      | reading => rfl
      | _ => cases exchange
  | arrive value => exact hphase
  | fault e => exact hphase
  | answer old read => exact hother _ old rfl
  | quit old other => exact hother _ old rfl
  | pass old turn => exact hother _ old rfl

theorem ended_of_moves {phase : Phase} (hphase : w.phase? u = some phase)
    (hended : phase.isEnded = true) (hmoves : Moves entrants arrivals w q) :
    q.phase? u = some phase := by
  cases hmoves with
  | one move => exact ended_of_move hphase hended move
  | two first second =>
      exact ended_of_move (ended_of_move hphase hended first) hended second

theorem ended_of_run {phase : Phase} {events : List Event}
    (hphase : w.phase? u = some phase) (hended : phase.isEnded = true)
    (hrun : w.run events = some q) : q.phase? u = some phase :=
  run_keeps hrun hphase
    (fun hr hstep => ended_of_moves hr hended (moves_of_step hstep))

theorem isExchange_of_kind {new : Phase} {address : String}
    (hkind : new = .abandoned ∨
      exists reason, new = .finished (.error (.connection address reason))) :
    new.isExchange = false := by
  rcases hkind with rfl | ⟨reason, rfl⟩
  · rfl
  · rfl

/-- The one exchange in progress is over, and the connection with it. -/
theorem silent_breakOff {old new : Phase} (horderly : Orderly w)
    (hold : w.phase? u = some old) (hexchange : old.isExchange = true)
    (hnew : new.isExchange = false)
    (inbound : List (Except Resp.ReadError Resp.Value)) (keepsStreams : Bool) :
    Silent ({ w with inbound }.breakOff u new keepsStreams) := by
  refine ⟨rfl, ?_⟩
  intro v phase hphase
  change (w.setPhase u new).phase? v = some phase at hphase
  by_cases huv : u = v
  · subst huv
    rw [phase?_setPhase_self new hold, Option.some.injEq] at hphase
    exact hphase ▸ hnew
  · rw [phase?_setPhase_of_ne w new huv] at hphase
    rw [Bool.eq_false_iff]
    intro hboth
    exact huv (horderly.exchange_unique hold hexchange hphase hboth)

theorem exchange_of_move {phase : Phase} (horderly : Orderly w)
    (hphase : w.phase? u = some phase) (hexchange : phase.isExchange = true)
    (hmove : Move entrants arrivals w q) :
    (exists new, q.phase? u = some new ∧ new.isExchange = true) ∨
      (exists value, q.phase? u = some (.finished (.ok value))) ∨ Silent q := by
  have hturn := horderly.exchange_turn hphase hexchange
  -- Whoever has the turn is this user, who has begun and neither waits nor
  -- closes the connection.
  have hmine : forall {v : Nat} {old : Phase}, w.holder = some v ->
      w.phase? v = some old -> old.isExchange = true := by
    intro v old hv hold
    rw [hturn, Option.some.injEq] at hv
    subst hv
    rw [hphase, Option.some.injEq] at hold
    exact hold ▸ hexchange
  have hself : forall {v : Nat} {old : Phase} (new : Phase),
      w.phase? v = some old -> old.isExchange = true ->
      (w.setPhase v new).phase? u = some new := by
    intro v old new hold hold'
    have huv := horderly.exchange_unique hphase hexchange hold hold'
    subst huv
    exact phase?_setPhase_self new hold
  cases hmove with
  | wait entrant held =>
      exact Or.inl ⟨phase, phase?_concat_of_some hphase _, hexchange⟩
  | come entrant free =>
      rw [hturn] at free
      cases free
  | begin turn old _ _ => cases hmine turn old
  | refuse turn old => cases hmine turn old
  | beginClose turn old => cases hmine turn old
  | skipClose turn old => cases hmine turn old
  | endClose old => cases hmine (horderly.turn old rfl rfl) old
  | send old more => exact Or.inl ⟨_, hself _ old rfl, rfl⟩
  | sendLast old => exact Or.inl ⟨_, hself _ old rfl, rfl⟩
  | breakOff keeps hold exchange kind read =>
      exact Or.inr
        (Or.inr
          (silent_breakOff horderly hold exchange
            (isExchange_of_kind kind) _ keeps))
  | arrive value => exact Or.inl ⟨phase, hphase, hexchange⟩
  | fault e => exact Or.inl ⟨phase, hphase, hexchange⟩
  | answer old read => exact Or.inr (Or.inl ⟨_, hself _ old rfl⟩)
  | quit old other =>
      refine Or.inl ⟨phase, ?_, hexchange⟩
      refine (phase?_setPhase_of_ne w .abandoned ?_).trans hphase
      intro heq
      exact other (heq ▸ hturn)
  | pass old turn => cases hmine turn old

theorem silent_of_breaks {event : Event} (horderly : Orderly w)
    (hstep : w.step event = some q) (hbreaks : Breaks w q) : Silent q := by
  rcases hbreaks with ⟨u, phase, hphase, hexchange, hnew⟩
  have hgoes : forall new, q.phase? u = some new ->
      new.isExchange = true -> False := by
    intro new hq hgoing
    rcases hnew with hgone | ⟨e, hfailed⟩
    · rw [hq, Option.some.injEq] at hgone
      rw [hgone] at hgoing
      cases hgoing
    · rw [hq, Option.some.injEq] at hfailed
      rw [hfailed] at hgoing
      cases hgoing
  have hanswered : forall value, q.phase? u ≠ some (.finished (.ok value)) := by
    intro value hq
    rcases hnew with hgone | ⟨e, hfailed⟩
    · rw [hq] at hgone
      cases hgone
    · rw [hq] at hfailed
      cases hfailed
  cases moves_of_step hstep with
  | one move =>
      rcases exchange_of_move horderly hphase hexchange move with
        ⟨new, hq, hgoing⟩ | ⟨value, hq⟩ | hsilent
      · exact absurd hgoing (hgoes new hq)
      · exact absurd hq (hanswered value)
      · exact hsilent
  | two first second =>
      rcases exchange_of_move horderly hphase hexchange first with
        ⟨mid, hr, hmid⟩ | ⟨value, hr⟩ | hsilent
      · rcases exchange_of_move (horderly.move first) hr hmid second with
          ⟨new, hq, hgoing⟩ | ⟨value, hq⟩ | hsilent
        · exact absurd hgoing (hgoes new hq)
        · exact absurd hq (hanswered value)
        · exact hsilent
      · exact absurd (ended_of_move hr rfl second) (hanswered value)
      · exact (Hushed.move hsilent second).silent

end

/-!
## Those who wait on a silent connection

Whoever has the turn on a silent connection gives it up, without a request, and
so the turn goes round.
-/

/-- Events by which a turn is taken or given up.  They depend on nobody but the
connection itself. -/
def passesTurn : Event -> Bool
  | .granted _ => true
  | .closed _ => true
  | _ => false

section

variable {w : Wire} {u : Nat}

theorem turn_over (horderly : Orderly w) (hsilent : Silent w)
    (hturn : w.holder = some u) :
    exists turns q, turns.all passesTurn = true ∧ w.run turns = some q ∧
      q.holder = w.queue.head? ∧ q.queue = w.queue.tail ∧
      (forall request, w.phase? u = some (.queued request) ->
        q.result? u = some (.error w.closedError)) ∧
      forall v, u ≠ v -> q.phase? v = w.phase? v := by
  rcases (Orderly.of_holder horderly hturn).holder_busy rfl with
    ⟨phase, hphase, hbusy⟩
  change w.phase? u = some phase at hphase
  cases phase with
  | queued request =>
      have hgranted :
          w.step (.granted u) = some (w.beginExchange u request) := by
        simp [step, hturn, hphase]
      have hclosed : ¬ (w.isOpen && w.hasStreams) = true := by
        simp [hsilent.shut]
      rw [beginExchange, if_neg hclosed] at hgranted
      refine ⟨[.granted u], _, rfl,
        Option.bind_eq_some_iff.mpr ⟨_, hgranted, rfl⟩, rfl, rfl, ?_, ?_⟩
      · intro _ _
        rw [result?_eq_some]
        exact phase?_setPhase_self (w := w) _ hphase
      · intro v hv
        exact phase?_setPhase_of_ne w _ hv
  | leaving =>
      have hgranted : w.step (.granted u) = some (w.beginClose u) := by
        simp [step, hturn, hphase]
      have hleaving : forall request, w.phase? u ≠ some (.queued request) := by
        simp [hphase]
      by_cases hstreams : w.hasStreams = true
      · rw [beginClose, if_pos hstreams] at hgranted
        have hclosing :
            ({ w with hasStreams := false }.setPhase u .closing).phase? u =
              some .closing :=
          phase?_setPhase_self (w := w) _ hphase
        have hclosed : ({ w with hasStreams := false }.setPhase u .closing).step
            (.closed u) =
            some
              (({ w with hasStreams := false }.setPhase u
                .closing).release.setPhase u .closed) := by
          simp only [step, hclosing]
        refine ⟨[.granted u, .closed u], _, rfl,
          Option.bind_eq_some_iff.mpr
            ⟨_, hgranted, Option.bind_eq_some_iff.mpr ⟨_, hclosed, rfl⟩⟩, rfl,
          rfl, fun request h => absurd h (hleaving request), ?_⟩
        intro v hv
        refine (phase?_setPhase_of_ne (release _) _ hv).trans ?_
        exact phase?_setPhase_of_ne w _ hv
      · rw [beginClose, if_neg hstreams] at hgranted
        refine ⟨[.granted u], _, rfl,
          Option.bind_eq_some_iff.mpr ⟨_, hgranted, rfl⟩, rfl, rfl,
          fun request h => absurd h (hleaving request), ?_⟩
        intro v hv
        exact phase?_setPhase_of_ne w _ hv
  | closing =>
      have hclosed :
          w.step (.closed u) = some (w.release.setPhase u .closed) := by
        simp only [step, hphase]
      refine ⟨[.closed u], _, rfl,
        Option.bind_eq_some_iff.mpr ⟨_, hclosed, rfl⟩, rfl, rfl, ?_, ?_⟩
      · intro request h
        rw [hphase] at h
        cases h
      · intro v hv
        exact phase?_setPhase_of_ne w _ hv
  | writing _ => cases hsilent.idle hphase
  | reading => cases hsilent.idle hphase
  | finished _ => cases hbusy
  | abandoned => cases hbusy
  | closed => cases hbusy

theorem drain_of_turn (horderly : Orderly w) (hsilent : Silent w)
    (hturn : w.holder = some u) :
    exists turns q, turns.all passesTurn = true ∧ w.run turns = some q ∧
      q.holder = none ∧
      forall v request, w.phase? v = some (.queued request) ->
        q.result? v = some (.error w.closedError) := by
  induction hwaiting : w.queue generalizing w u with
  | nil =>
      rcases turn_over horderly hsilent hturn with
        ⟨turns, q, hturns, hrun, hholder, _, hmine, _⟩
      rw [hwaiting] at hholder
      refine ⟨turns, q, hturns, hrun, hholder, ?_⟩
      intro v request hv
      rcases Seats.listed horderly hv rfl with hv' | hv'
      · rw [hturn, Option.some.injEq] at hv'
        subst hv'
        exact hmine request hv
      · rw [hwaiting] at hv'
        cases hv'
  | cons first rest ih =>
      rcases turn_over horderly hsilent hturn with
        ⟨turns, q, hturns, hrun, hholder, hqueue, hmine, hothers⟩
      rw [hwaiting] at hholder hqueue
      have hhushed := Hushed.run hsilent hrun
      rcases ih (Orderly.run horderly hrun) hhushed.silent hholder hqueue with
        ⟨more, r, hmore, hrest, hfree, hrefused⟩
      refine ⟨turns ++ more, r, ?_, ?_, hfree, ?_⟩
      · rw [List.all_append, hturns, hmore]
        rfl
      · exact run_append_iff.mpr ⟨q, hrun, hrest⟩
      · intro v request hv
        by_cases huv : u = v
        · subst huv
          rw [result?_eq_some]
          exact ended_of_run (result?_eq_some.mp (hmine request hv)) rfl hrest
        · have hresult := hrefused v request ((hothers v huv).trans hv)
          rw [closedError, hhushed.address] at hresult
          exact hresult

/-- Everybody who waits on a silent connection to send a request will be
refused. -/
theorem drain (horderly : Orderly w) (hsilent : Silent w) :
    exists turns q, turns.all passesTurn = true ∧ w.run turns = some q ∧
      q.holder = none ∧
      forall v request, w.phase? v = some (.queued request) ->
        q.result? v = some (.error w.closedError) := by
  cases hholder : w.holder with
  | some u => exact drain_of_turn horderly hsilent hholder
  | none =>
      refine ⟨[], w, rfl, rfl, hholder, ?_⟩
      intro v request hv
      rcases Seats.listed horderly hv rfl with hv' | hv'
      · rw [hholder] at hv'
        cases hv'
      · rw [Seats.idle horderly hholder] at hv'
        cases hv'

end

end Wire
end Transport
end SlotCluster
