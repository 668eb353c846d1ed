import SlotCluster.Proofs.Pool.Outcomes

/-!
# Calls can come to their end

A call that waits at an empty cell owns the cell or stands in its queue, and a
queue has an owner.  Whatever the owner is doing, the outside can let it fail,
and then the cell goes to the next call of the queue.  So there is no call that
waits for something that cannot happen any more.
-/

namespace SlotCluster
namespace Pool

variable {keyAt : Nat -> Target} {p q r : Pool} {event : Event} {i c : Nat}
  {t : Ticket} {cell : Cell}

/-!
## Calls at their cells

Every call that waits does so at a cell that serves it, now or later.  When an
owner fails, the first call of the queue becomes the owner for whom the others
wait.
-/

inductive Cell.Serves (i : Nat) (cell : Cell) : Prop where
  | filled {h : Nat} (handle : cell.handle = some h)
  | owned (owner : cell.owner = some i)
  | queued {o : Nat} (owner : cell.owner = some o) (waits : i ∈ cell.queue)

def Attended (p : Pool) : Prop :=
  forall (i : Nat) (t : Ticket), p.phase? i = some (.queued t) ->
    exists cell, p.cells[t.cell]? = some cell ∧ cell.Serves i

theorem Cell.Serves.passOn (h : cell.Serves i) (hnot : cell.owner ≠ some i) :
    cell.passOn.Serves i := by
  cases h with
  | filled handle => exact Serves.filled handle
  | owned owner => exact absurd owner hnot
  | queued _ waits =>
      cases hqueue : cell.queue with
      | nil =>
          rw [hqueue] at waits
          cases waits
      | cons first rest =>
          have howner : cell.passOn.owner = some first :=
            congrArg List.head? hqueue
          have hrest : cell.passOn.queue = rest := congrArg List.tail hqueue
          rw [hqueue] at waits
          rcases List.mem_cons.mp waits with hfirst | hlater
          · exact Serves.owned (hfirst ▸ howner)
          · exact Serves.queued howner (hrest ▸ hlater)

namespace Attended

theorem start (table : Shared) (fallback : Endpoint) :
    Attended { table, fallback } := by
  intro i t hi
  cases hi

theorem keep (hp : Attended p)
    (hphase : forall {i : Nat} {t : Ticket}, q.phase? i = some (.queued t) ->
      p.phase? i = some (.queued t) ∨
        exists cell, q.cells[t.cell]? = some cell ∧ cell.Serves i)
    (hcells : forall {c i : Nat} {cell : Cell}, p.cells[c]? = some cell ->
        cell.Serves i -> p.view Phase.opening? i = none ->
        exists new, q.cells[c]? = some new ∧ new.Serves i) : Attended q := by
  intro i t hi
  rcases hphase hi with hold | hserved
  · rcases hp i t hold with ⟨cell, hcell, hserves⟩
    exact hcells hcell hserves (view_of_phase? Phase.opening? hold)
  · exact hserved

theorem of_same (hp : Attended p) (hcells : q.cells = p.cells)
    (hcalls : q.calls = p.calls) : Attended q := by
  unfold Attended phase?
  rw [hcells, hcalls]
  exact hp

theorem setPhase (hp : Attended p) (i : Nat) {phase : Phase}
    (hnot : forall t, phase ≠ .queued t) : Attended (p.setPhase i phase) := by
  refine hp.keep (fun {j t} hj => Or.inl ?_)
    (fun hcell hserves _ => ⟨_, hcell, hserves⟩)
  rw [phase?_setPhase] at hj
  by_cases hij : i = j
  · rw [if_pos hij, Option.map_eq_some_iff] at hj
    rcases hj with ⟨_, _, heq⟩
    exact absurd heq (hnot t)
  · rw [if_neg hij] at hj
    exact hj

theorem addCall (hp : Attended p) (target : Target) (phase : Phase)
    (hserved : forall {t : Ticket}, phase = .queued t ->
      exists cell, q.cells[t.cell]? = some cell ∧ cell.Serves p.calls.length)
    (hcells : forall {c i : Nat} {cell : Cell}, p.cells[c]? = some cell ->
      cell.Serves i -> exists new, q.cells[c]? = some new ∧ new.Serves i)
    (hcalls : q.calls = (p.addCall target phase).calls) : Attended q := by
  refine hp.keep (fun {j t} hj => ?_)
    (fun hcell hserves _ => hcells hcell hserves)
  have hphase : (p.addCall target phase).phase? j = some (.queued t) := by
    unfold phase? at hj ⊢
    rw [← hcalls]
    exact hj
  rw [phase?_addCall] at hphase
  by_cases hnew : j = p.calls.length
  · rw [if_pos hnew, Option.some.injEq] at hphase
    exact Or.inr (hnew ▸ hserved hphase)
  · rw [if_neg hnew] at hphase
    exact Or.inl hphase

theorem move (hs : Seated keyAt p) (hp : Attended p)
    (h : Move p q) : Attended q := by
  cases h with
  | refuse target result =>
      exact hp.addCall target (.finished result)
        nofun (fun hcell hserves => ⟨_, hcell, hserves⟩) rfl
  | @arrive t target entry filled =>
      refine hp.addCall target (.queued t) (fun {u} heq => ?_)
        (fun hcell hserves => ⟨_, hcell, hserves⟩) rfl
      cases heq
      rcases Option.isSome_iff_exists.mp filled with ⟨h, hh⟩
      rcases cellHandle?_eq_some.mp hh with ⟨cell, hcell, hhandle⟩
      exact ⟨cell, hcell, Cell.Serves.filled hhandle⟩
  | @wait t cell owner target entry found empty owned =>
      have hqueue : forall d,
        ((p.addCall target (.queued t)).modifyCell t.cell
          (fun c =>
            { c with queue := c.queue ++ [p.calls.length] })).cells[d]? =
              if t.cell = d then (p.cells[d]?).map (fun c =>
                { c with queue := c.queue ++ [p.calls.length] })
            else p.cells[d]? := fun d => cells_modifyCell ..
      refine hp.addCall target (.queued t) (fun {u} heq => ?_)
        (fun {d j other} hother hserves => ?_) rfl
      · cases heq
        rw [hqueue, if_pos rfl, found]
        exact ⟨_, rfl,
          Cell.Serves.queued owned
            (List.mem_append_right _ (List.mem_singleton_self _))⟩
      · rw [hqueue]
        by_cases hd : t.cell = d
        · rw [if_pos hd, hother]
          refine ⟨_, rfl, ?_⟩
          cases hserves with
          | filled handle => exact Cell.Serves.filled handle
          | owned owner => exact Cell.Serves.owned owner
          | queued owner waits =>
              exact Cell.Serves.queued owner (List.mem_append_left _ waits)
        · rw [if_neg hd]
          exact ⟨other, hother, hserves⟩
  | @found t target openPool new free =>
      refine hp.addCall target
        (.connecting t) nofun (fun {d j other} hother hserves => ?_) rfl
      rw [cells_openCell,
        if_neg (Nat.ne_of_lt (List.getElem?_eq_some_iff.mp hother).1)]
      exact ⟨other, hother, hserves⟩
  | forget entry filled dead => exact hp.of_same rfl rfl
  | take phase filled entry openPool => exact hp.setPhase _ nofun
  | @discard i t h error phase filled =>
      rcases closeHandle_eq p h with ⟨links, heq, _⟩
      unfold discard
      rw [heq]
      exact (hp.of_same (q := { p with links }) rfl rfl).setPhase _ nofun
  | promote phase found owned => exact hp.setPhase _ nofun
  | @dial i t phase =>
      exact (hp.of_same
        (q := { p with links := p.links ++ [{ endpoint := t.endpoint }] })
        rfl rfl).setPhase _ nofun
  | @fill i t l phase =>
      rcases hs.opening_owner (view_of_phase? Phase.opening? phase) with
        ⟨own, hown, _⟩
      have hfilled : (p.fillCell i t l).cells[t.cell]? =
          some { handle := some p.handles.length } := by
        rw [cells_fillCell i l hown, if_pos rfl]
      refine hp.keep (fun {j u} hj => ?_)
        (fun {d j other} hother hserves _ => ?_)
      · rw [phase?_fillCell phase] at hj
        by_cases hij : i = j
        · rw [if_pos hij] at hj
          cases hj
          exact Or.inr ⟨_, hfilled, Cell.Serves.filled rfl⟩
        · rw [if_neg hij] at hj
          exact Or.inl hj
      · by_cases hd : t.cell = d
        · exact ⟨_, hd ▸ hfilled, Cell.Serves.filled rfl⟩
        · rw [cells_fillCell i l hown, if_neg hd]
          exact ⟨other, hother, hserves⟩
  | reject error phase closed => exact hp.setPhase _ nofun
  | finish phase => exact hp.setPhase _ nofun
  | relink links length closing => exact hp.of_same rfl rfl
  | inform table cells => exact hp.of_same rfl rfl
  | reorder perm leads => exact hp.of_same rfl rfl

theorem fail (hs : Seated keyAt p) (hp : Attended p) {old : Phase}
    (error : ClusterError) (hi : p.phase? i = some old)
    (hopening : old.opening? = some t) : Attended (p.fail i t error) := by
  have hview : p.view Phase.opening? i = some t :=
    (view_of_phase? _ hi).trans hopening
  rcases hs.opening_cell hview with ⟨own, hown, howner, hempty⟩
  have hunfilled : p.cellHandle? t.cell = none := by
    simp [cellHandle?, hown, hempty]
  refine hp.keep (fun {j u} hj => Or.inl ?_)
    (fun {d j other} hother hserves hwaits => ?_)
  · rw [phase?_fail error hunfilled hi] at hj
    by_cases hij : i = j
    · rw [if_pos hij] at hj
      cases hj
    · rw [if_neg hij] at hj
      exact hj
  · rw [cells_fail i error hunfilled hown]
    by_cases hd : t.cell = d
    · subst hd
      rw [hown, Option.some.injEq] at hother
      subst hother
      rw [if_pos rfl]
      refine ⟨_, rfl, hserves.passOn ?_⟩
      intro hsame
      rw [howner, Option.some.injEq] at hsame
      subst hsame
      rw [hview] at hwaits
      cases hwaits
    · rw [if_neg hd]
      exact ⟨other, hother, hserves⟩

theorem runChores (hp : Attended p) (chores : List Chore)
    (cleanups : List Cleanup) :
    Attended { (p.runChores chores).1 with cleanups } := by
  have htidied := (tidied_runChores p chores).1
  apply hp.of_same
  · change (p.runChores chores).1.cells = p.cells
    rw [htidied.frame]
  · change (p.runChores chores).1.calls = p.calls
    rw [htidied.frame]

theorem kind (hs : Sound p) (hp : Attended p)
    (h : Kind p event q) : Attended q := by
  cases h with
  | moves chain =>
      have hboth : Sound q ∧ Attended q := by
        induction chain with
        | refl => exact ⟨hs, hp⟩
        | tail _ h ih =>
            rcases ih with ⟨hsound, hattended⟩
            refine ⟨hsound.move h, ?_⟩
            rcases hsound with ⟨keyAt, hseated, _⟩
            exact hattended.move hseated h
      exact hboth.2
  | notLinked phase =>
      rcases hs with ⟨keyAt, hseated, _⟩
      exact hp.fail hseated _ phase rfl
  | rejected phase =>
      rcases hs with ⟨keyAt, hseated, _⟩
      exact hp.fail hseated _ phase rfl
  | sweep table =>
      have hswept :
          Attended { p with
            entries := p.entries.filter (fun e => !e.1.isStale table) } :=
        hp.of_same rfl rfl
      exact hswept.runChores _ _
  | drain =>
      exact (hp.of_same (q := { p with isClosed := true }) rfl rfl).runChores
        _ _
  | cleaned found => exact hp.runChores _ _

theorem run {events : List Event} (hs : Sound p) (hp : Attended p)
    (h : p.run events = some q) : Attended q :=
  (run_induction (fun hs hi hk => hi.kind hs hk) hs hp h).2

end Attended

/-!
## Owners give way

The outside can let the owner of a cell fail, with answers to its call only.
-/

/-- The call has failed and has passed its cell on. -/
structure Yields (p : Pool) (i c : Nat) (q : Pool) : Prop where
  phase : exists error, q.phase? i = some (.finished (.error error))
  others : forall {j : Nat}, i ≠ j -> q.phase? j = p.phase? j
  cell : forall {cell : Cell}, p.cells[c]? = some cell ->
    q.cells[c]? = some cell.passOn

theorem Yields.after (h : Yields r i c q) (hcells : r.cells = p.cells)
    (hothers : forall {j : Nat}, i ≠ j -> r.phase? j = p.phase? j) :
    Yields p i c q where
  phase := h.phase
  others hij := (h.others hij).trans (hothers hij)
  cell hcell := h.cell (hcells ▸ hcell)

theorem yields_of_fail (hs : Seated keyAt p) {old : Phase}
    (error : ClusterError) (hi : p.phase? i = some old)
    (hopening : old.opening? = some t) :
    Yields p i t.cell (p.fail i t error) := by
  rcases hs.opening_cell ((view_of_phase? _ hi).trans hopening) with
    ⟨own, hown, _, hempty⟩
  have hunfilled : p.cellHandle? t.cell = none := by
    simp [cellHandle?, hown, hempty]
  refine ⟨⟨error, ?_⟩, fun hij => ?_, fun {cell} hcell => ?_⟩
  · rw [phase?_fail error hunfilled hi, if_pos rfl]
  · rw [phase?_fail error hunfilled hi, if_neg hij]
  · rw [cells_fail i error hunfilled hcell, if_pos rfl]

def Event.call? : Event -> Option Nat
  | .resume i => some i
  | .linked i => some i
  | .notLinked i _ => some i
  | .accepted i => some i
  | .refused i _ => some i
  | .closed i => some i
  | _ => none

def Answers (events : List Event) : Prop :=
  forall event, event ∈ events -> event.call?.isSome = true

theorem answers_nil : Answers [] :=
  fun _ he => absurd he List.not_mem_nil

theorem Answers.cons {events : List Event} {i : Nat} (h : Answers events)
    (hevent : event.call? = some i) : Answers (event :: events) := by
  intro e he
  rcases List.mem_cons.mp he with rfl | he
  · rw [hevent]
    rfl
  · exact h e he

def Yielding (p : Pool) (i c : Nat) : Prop :=
  exists events q, p.run events = some q ∧ Answers events ∧ Yields p i c q

theorem yielding_of_connecting (hp : Sound p)
    (hi : p.phase? i = some (.connecting t)) : p.Yielding i t.cell := by
  rcases hp with ⟨keyAt, hs, _⟩
  have hstep :
      p.step (.notLinked i .shutdown) = some (p.fail i t .shutdown) := by
    simp only [step, hi]
  exact ⟨[.notLinked i .shutdown], _, run_cons.mpr ⟨_, hstep, rfl⟩,
    answers_nil.cons rfl, yields_of_fail hs _ hi rfl⟩

theorem yielding_of_rejecting (hp : Sound p) {l : Nat} {error : ClusterError}
    (hi : p.phase? i = some (.rejecting t l error)) : p.Yielding i t.cell := by
  rcases hp with ⟨keyAt, hs, _⟩
  have hstep : p.step (.closed i) = some (p.fail i t error) := by
    simp only [step, hi]
  exact ⟨[.closed i], _, run_cons.mpr ⟨_, hstep, rfl⟩, answers_nil.cons rfl,
    yields_of_fail hs _ hi rfl⟩

theorem Yielding.of_step {links : List Link} {new : Phase}
    (hstep : p.step event = some r) (habout : event.call? = some i)
    (hr : r = setPhase { p with links } i new) (h : r.Yielding i c) :
    p.Yielding i c := by
  rcases h with ⟨events, q, hrun, hanswers, hyields⟩
  refine ⟨event :: events, q, run_cons.mpr ⟨r, hstep, hrun⟩,
    hanswers.cons habout, hyields.after ?_ (fun hij => ?_)⟩
  · rw [hr]
    rfl
  · rw [hr]
    exact phase?_setPhase_of_ne { p with links } _ hij

theorem yielding_of_owner (hp : Sound p) (hcell : p.cells[c]? = some cell)
    (howner : cell.owner = some i) : p.Yielding i c := by
  have hticket : cell.handle = none ∧
      exists t, p.view Phase.ticket? i = some t ∧ t.cell = c := by
    rcases hp with ⟨keyAt, hs, _⟩
    exact hs.owner_ticket hcell howner
  rcases hticket with ⟨hempty, t, ht, rfl⟩
  rcases view_eq_some.mp ht with ⟨phase, hi, hphase⟩
  cases phase with
  | queued u =>
      cases hphase
      have hstep :
          p.step (.resume i) = some (p.setPhase i (.connecting t)) := by
        rcases cell with ⟨handle, owner, queue⟩
        cases hempty
        cases howner
        simp only [step, hi, resume, hcell, if_true]
      exact Yielding.of_step hstep
        rfl rfl (yielding_of_connecting (hp.step hstep)
          (phase?_setPhase_self _ hi))
  | connecting u =>
      cases hphase
      exact yielding_of_connecting hp hi
  | authenticating u l =>
      cases hphase
      have hstep :
          p.step (.refused i .shutdown) = some (p.refused i t l .shutdown) := by
        simp only [step, hi]
      exact Yielding.of_step hstep
        rfl rfl (yielding_of_rejecting (hp.step hstep)
          (phase?_setPhase_self (p := p.closeLink l) _ hi))
  | rejecting u l error =>
      cases hphase
      exact yielding_of_rejecting hp hi
  | discarding h error => cases hphase
  | finished result => cases hphase

/-! ## Every call can end -/

def Ends (p : Pool) (i : Nat) : Prop :=
  exists events q result, p.run events = some q ∧ Answers events ∧
    q.phase? i = some (.finished result)

theorem Ends.of_finished {result : Except ClusterError Nat}
    (hi : p.phase? i = some (.finished result)) : p.Ends i :=
  ⟨[], p, result, rfl, answers_nil, hi⟩

theorem Ends.of_step {j : Nat} (hstep : p.step event = some q)
    (habout : event.call? = some j) (h : q.Ends i) : p.Ends i := by
  rcases h with ⟨events, r, result, hrun, hanswers, hi⟩
  exact ⟨event :: events, r, result, run_cons.mpr ⟨q, hstep, hrun⟩,
    hanswers.cons habout, hi⟩

theorem ends_of_discarding {h : Nat} {error : ClusterError}
    (hi : p.phase? i = some (.discarding h error)) : p.Ends i := by
  have hstep :
      p.step (.closed i) = some (p.setPhase i (.finished (.error error))) := by
    simp only [step, hi]
  exact Ends.of_step hstep rfl (Ends.of_finished (phase?_setPhase_self _ hi))

theorem ends_of_owner (hp : Sound p) (hcell : p.cells[c]? = some cell)
    (howner : cell.owner = some i) : p.Ends i := by
  rcases yielding_of_owner hp hcell howner with
    ⟨events, q, hrun, hanswers, hyields⟩
  rcases hyields.phase with ⟨error, hi⟩
  exact ⟨events, q, _, hrun, hanswers, hi⟩

theorem ends_of_filled {h : Nat} (hi : p.phase? i = some (.queued t))
    (hfilled : p.cellHandle? t.cell = some h) : p.Ends i := by
  have hstep : p.step (.resume i) = some (p.conclude i t h) := by
    rcases cellHandle?_eq_some.mp hfilled with
      ⟨⟨handle, owner, queue⟩, hcell, hhandle⟩
    cases hhandle
    simp only [step, hi, resume, hcell]
  rcases concluded_of_conclude hi hfilled with ⟨new, hdone⟩
  apply Ends.of_step hstep rfl
  cases hdone.verdict with
  | shut _ => exact ends_of_discarding hdone.phase
  | gone _ _ => exact ends_of_discarding hdone.phase
  | unknown _ _ => exact ends_of_discarding hdone.phase
  | taken _ _ _ => exact Ends.of_finished hdone.phase

theorem ends_of_queued (hp : Sound p) (ha : Attended p)
    (hi : p.phase? i = some (.queued t)) : p.Ends i := by
  -- Induction on the queue of the cell, which gets shorter with each owner that
  -- gives way.
  rcases ha i t hi with ⟨cell, hcell, hserves⟩
  generalize hlength : cell.queue.length = left
  induction left using Nat.strongRecOn generalizing p cell with
  | ind left ih =>
      cases hserves with
      | filled handle =>
          exact ends_of_filled hi
            (cellHandle?_eq_some.mpr ⟨cell, hcell, handle⟩)
      | owned owner => exact ends_of_owner hp hcell owner
      | @queued o owner waits =>
          have hother : cell.owner ≠ some i := by
            rcases hp with ⟨keyAt, hs, _⟩
            exact (hs.queue_ticket hcell waits).2.1
          have hne : o ≠ i := fun hsame => hother (hsame ▸ owner)
          rcases yielding_of_owner hp hcell owner with
            ⟨events, q, hrun, hanswers, hyields⟩
          have hshort : cell.passOn.queue.length < left := by
            change cell.queue.tail.length < left
            rw [List.length_tail, ← hlength]
            exact Nat.sub_lt (List.length_pos_of_mem waits) Nat.one_pos
          rcases ih _ hshort (hp.run hrun) (ha.run hp hrun)
              ((hyields.others hne).trans hi) cell.passOn (hyields.cell hcell)
              ((Cell.Serves.queued owner waits).passOn hother) rfl with
            ⟨more, r, result, hmore, hanswered, hresult⟩
          refine ⟨events ++ more, r, result, ?_, ?_, hresult⟩
          · exact run_append_iff.mpr ⟨_, hrun, hmore⟩
          · intro event hmem
            exact (List.mem_append.mp hmem).elim (hanswers event)
              (hanswered event)

/-- Every call can come to its end. -/
theorem ends_of_phase (hp : Sound p) (ha : Attended p) {phase : Phase}
    (hi : p.phase? i = some phase) : p.Ends i := by
  have hopening {t : Ticket} (h : phase.opening? = some t) : p.Ends i := by
    rcases hp with ⟨keyAt, hs, hw⟩
    rcases hs.opening_owner ((view_of_phase? _ hi).trans h) with
      ⟨cell, hcell, howner⟩
    exact ends_of_owner ⟨keyAt, hs, hw⟩ hcell howner
  cases phase with
  | queued t => exact ends_of_queued hp ha hi
  | connecting t => exact hopening rfl
  | authenticating t l => exact hopening rfl
  | rejecting t l error => exact hopening rfl
  | discarding h error => exact ends_of_discarding hi
  | finished result => exact Ends.of_finished hi

end Pool
end SlotCluster
