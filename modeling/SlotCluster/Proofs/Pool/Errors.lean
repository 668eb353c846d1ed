import Mathlib.Data.List.Induction
import SlotCluster.Proofs.Pool.Outcomes

/-!
# Errors of calls

Why a call ends with an error.  Most errors have a reason in the call itself, in
the table, in a sweep or in the end of the pool.  One has not: as long as a call
waits, another call may take away the entry that leads to its cell, and what the
call then gets or opens is closed again.
-/

namespace SlotCluster
namespace Pool

variable {keyAt : Nat -> Target} {p q r : Pool} {i : Nat} {t : Ticket}
  {event : Event}

/-! ## What does not come back -/

structure Aged (p q : Pool) : Prop where
  length : p.cells.length ≤ q.cells.length
  entry_old : forall {key : Target} {c : Nat}, c < p.cells.length ->
    q.entry? key = some c -> p.entry? key = some c
  cell_kept : forall {c h : Nat}, p.cellHandle? c = some h ->
    q.cellHandle? c = some h

namespace Aged

theorem refl (p : Pool) : Aged p p :=
  ⟨Nat.le_refl _, fun _ => id, id⟩

theorem trans (hpq : Aged p q) (hqr : Aged q r) : Aged p r where
  length := Nat.le_trans hpq.length hqr.length
  entry_old hc h :=
    hpq.entry_old hc (hqr.entry_old (Nat.lt_of_lt_of_le hc hpq.length) h)
  cell_kept h := hqr.cell_kept (hpq.cell_kept h)

theorem of_same (hcells : q.cells = p.cells)
    (hentries : forall {key : Target} {c : Nat}, q.entry? key = some c ->
        p.entry? key = some c) : Aged p q where
  length := Nat.le_of_eq (congrArg List.length hcells).symm
  entry_old _ h := hentries h
  cell_kept := by
    intro c h hc
    unfold cellHandle? at hc ⊢
    rw [hcells]
    exact hc

theorem move (hs : Seated keyAt p) (h : Move p q) : Aged p q := by
  cases h with
  | @wait t cell owner target entry found empty owned =>
      refine ⟨Nat.le_of_eq (List.length_modify ..).symm, fun _ => id, ?_⟩
      intro c h hc
      rw [cellHandle?_modifyCell]
      · exact hc
      · exact fun _ => rfl
  | @found t target openPool new free =>
      refine ⟨?_, ?_, ?_⟩
      · change _ ≤ (p.cells ++ [_]).length
        rw [List.length_append]
        exact Nat.le_add_right _ _
      · intro key c hc hentry
        rw [entry?_openCell target free] at hentry
        by_cases hkey : t.key = key
        · rw [if_pos hkey, Option.some.injEq] at hentry
          omega
        · rw [if_neg hkey] at hentry
          exact hentry
      · intro c h hc
        rw [cellHandle?_openCell]
        exact hc
  | @forget key c h entry filled dead =>
      refine of_same rfl ?_
      intro other d hentry
      rw [entry?_removeEntry] at hentry
      by_cases hkey : key = other
      · rw [if_pos hkey] at hentry
        cases hentry
      · rw [if_neg hkey] at hentry
        exact hentry
  | @discard i t h error phase filled =>
      rcases closeHandle_eq p h with ⟨links, heq, _⟩
      unfold discard
      rw [heq]
      exact of_same rfl id
  | @fill i t l phase =>
      rcases hs.opening_cell (view_of_phase? Phase.opening? phase) with
        ⟨own, hown, _, hempty⟩
      refine ⟨Nat.le_of_eq (List.length_modify ..).symm, fun _ => id, ?_⟩
      intro c h hc
      rw [cellHandle?_fillCell i l hown, if_neg]
      · exact hc
      · intro htc
        subst htc
        simp [cellHandle?, hown, hempty] at hc
  | reorder perm leads =>
      exact of_same rfl (fun hentry => (leads _).symm.trans hentry)
  | _ => exact of_same rfl id

theorem fail (hs : Seated keyAt p) {t : Ticket} (error : ClusterError)
    (hopening : p.view Phase.opening? i = some t) :
    Aged p (p.fail i t error) := by
  rcases hs.opening_cell hopening with ⟨own, hown, _, hempty⟩
  have hunfilled : p.cellHandle? t.cell = none := by
    simp [cellHandle?, hown, hempty]
  refine ⟨?_, ?_, ?_⟩
  · rcases forsake_eq p t with ⟨entries, heq, _⟩
    rw [fail_eq i error hunfilled, heq]
    exact Nat.le_of_eq (List.length_modify ..).symm
  · intro key c _ hentry
    rw [entry?_fail i error hunfilled] at hentry
    by_cases hgone : t.key = key ∧ p.entry? key = some t.cell
    · rw [if_pos hgone] at hentry
      cases hentry
    · rw [if_neg hgone] at hentry
      exact hentry
  · intro c h hc
    rcases cellHandle?_eq_some.mp hc with ⟨cell, hcell, hhandle⟩
    rw [cellHandle?_eq_some, cells_fail i error hunfilled hown, if_neg]
    · exact ⟨cell, hcell, hhandle⟩
    · intro htc
      subst htc
      rw [hunfilled] at hc
      cases hc

theorem runChores (p : Pool) (chores : List Chore) (cleanups : List Cleanup) :
    Aged p { (p.runChores chores).1 with cleanups } := by
  have htidied := (tidied_runChores p chores).1
  refine of_same ?_ htidied.entry_old
  change (p.runChores chores).1.cells = p.cells
  rw [htidied.frame]

theorem kind (hp : Sound p) (h : Kind p event q) : Aged p q := by
  rcases hp with ⟨keyAt, hs, hw⟩
  cases h with
  | moves chain =>
      have hboth : (exists keyAt, Seated keyAt q) ∧ Aged p q := by
        induction chain with
        | refl => exact ⟨⟨keyAt, hs⟩, refl p⟩
        | tail _ h ih =>
            rcases ih with ⟨⟨keyAt', hs'⟩, haged⟩
            rcases hs'.move h with ⟨keyAt'', hs'', _⟩
            exact ⟨⟨keyAt'', hs''⟩, haged.trans (move hs' h)⟩
      exact hboth.2
  | notLinked phase => exact fail hs _ (view_of_phase? _ phase)
  | rejected phase => exact fail hs _ (view_of_phase? _ phase)
  | sweep table =>
      have hswept :
          Aged p { p with
            entries := p.entries.filter (fun e => !e.1.isStale table) } := by
        refine of_same rfl ?_
        intro key c hentry
        rw [entry?_eq_some ((List.filter_sublist.map _).nodup hs.keys_nodup)]
          at hentry
        exact (entry?_eq_some hs.keys_nodup).mpr (List.mem_of_mem_filter hentry)
      exact hswept.trans (runChores _ _ _)
  | drain =>
      have hclosed : Aged p { p with isClosed := true } := of_same rfl id
      exact hclosed.trans (runChores _ _ _)
  | @cleaned n c found => exact runChores p c.chores _

theorem step (hp : Sound p) (h : p.step event = some q) : Aged p q :=
  kind hp (hp.kind_of h)

theorem run {events : List Event} (hp : Sound p)
    (h : p.run events = some q) : Aged p q :=
  (run_induction (I := Aged p) (fun hs hi hk => hi.trans (kind hs hk)) hp
    (refl p) h).2

end Aged

/-! ## How an entry goes away -/

/-- Another call that was opening a connection for the cell of a call has
failed. -/
inductive Fails (p : Pool) (i : Nat) (t : Ticket) : Event -> Prop where
  | notLinked {j : Nat} {u : Ticket} {e : ClusterError} (other : j ≠ i)
      (phase : p.phase? j = some (.connecting u)) (cell : u.cell = t.cell) :
      Fails p i t (.notLinked j e)
  | rejected {j l : Nat} {u : Ticket} {e : ClusterError} (other : j ≠ i)
      (phase : p.phase? j = some (.rejecting u l e)) (cell : u.cell = t.cell) :
      Fails p i t (.closed j)

/-- Another call does not want the connection in the cell of a call: it has
closed, or the table does not know its node any more. -/
inductive Retires (p : Pool) (i : Nat) (t : Ticket) : Event -> Prop where
  | dead {target : Target} {endpoint : Endpoint} {h : Nat}
      (resolve : target.resolve p.table.table p.fallback =
        .ok (t.key, endpoint)) (filled : p.cellHandle? t.cell = some h)
      (dead : p.isOpen h = false) : Retires p i t (.request target)
  | unknown {j h : Nat} {u : Ticket} {event : Event} (other : j ≠ i)
      (concludes : p.Concludes j u event h) (cell : u.cell = t.cell)
      (unknown : ¬ p.Knows t.key) : Retires p i t event

/-- An event takes the entry away from the cell of a call that goes on after
it. -/
structure Loses (p q : Pool) (i : Nat) (t : Ticket) : Prop where
  before : p.view Phase.ticket? i = some t
  after : q.view Phase.ticket? i = some t
  entry : p.entry? t.key = some t.cell
  gone : q.entry? t.key ≠ some t.cell

theorem Verdict.ticket?_eq_none {h : Nat} {new : Phase}
    (hv : Verdict p t h new) : new.ticket? = none := by
  cases hv <;> rfl

theorem Loses.of_begins {target : Target} (hl : Loses p q i t)
    (hs : Seated keyAt p) (hb : Begins p target q) :
    Retires p i t (.request target) := by
  cases hb with
  | shut closed => exact absurd hl.entry hl.gone
  | unresolved unknown => exact absurd hl.entry hl.gone
  | @found u free =>
      have hgone := hl.gone
      rw [entry?_openCell target free] at hgone
      by_cases hkey : u.key = t.key
      · rw [hkey, hl.entry] at free
        cases free
      · rw [if_neg hkey] at hgone
        exact absurd hl.entry hgone
  | @replaced u c h resolve entry filled dead =>
      have hfree : Pool.entry? (p.removeEntry u.key) u.key = none := by
        simp
      have hgone := hl.gone
      rw [entry?_openCell target hfree, entry?_removeEntry] at hgone
      by_cases hkey : u.key = t.key
      · rw [hkey, hl.entry, Option.some.injEq] at entry
        subst entry
        exact Retires.dead (hkey ▸ resolve) filled dead
      · rw [if_neg hkey, if_neg hkey] at hgone
        exact absurd hl.entry hgone
  | waits entry => exact absurd hl.entry hl.gone
  | @shares u h _ entry knows done =>
      rcases done.entries hl.entry hl.gone with ⟨hcell, hunknown⟩
      rw [← hcell] at entry
      rw [hs.entry_inj hl.entry entry] at hunknown
      exact absurd knows hunknown

theorem Loses.of_fail {j : Nat} {u : Ticket} {old : Phase} {e : ClusterError}
    (hl : Loses p (p.fail j u e) i t) (hs : Seated keyAt p)
    (hold : p.phase? j = some old) (hopening : old.opening? = some u) :
    j ≠ i ∧ u.cell = t.cell := by
  rcases hs.opening_cell ((view_of_phase? _ hold).trans hopening) with
    ⟨own, hown, _, hempty⟩
  have hunfilled : p.cellHandle? u.cell = none := by
    simp [cellHandle?, hown, hempty]
  constructor
  · intro hji
    subst hji
    have hstill := hl.after
    rw [view_of_phase? _ ((phase?_fail e hunfilled hold j).trans (if_pos rfl))]
      at hstill
    cases hstill
  · have hgone := hl.gone
    rw [entry?_fail j e hunfilled] at hgone
    by_cases hboth : u.key = t.key ∧ p.entry? t.key = some u.cell
    · rw [hl.entry, Option.some.injEq] at hboth
      exact hboth.2.symm
    · rw [if_neg hboth] at hgone
      exact absurd hl.entry hgone

/-- An entry goes away by a sweep or the end of the pool, by the failure of
another call, or because another call does not want the connection in the
cell. -/
theorem Loses.kinds (hl : Loses p q i t) (hs : Seated keyAt p)
    (hstep : p.step event = some q) :
    event.Sweeps ∨ Fails p i t event ∨ Retires p i t event := by
  cases deed_of_step hs hstep with
  | request begins => exact Or.inr (Or.inr (hl.of_begins hs begins))
  | @conclude _ j h u new _ concludes done =>
      rcases done.entries hl.entry hl.gone with ⟨hcell, hunknown⟩
      refine Or.inr (Or.inr (Retires.unknown ?_ concludes hcell.symm hunknown))
      intro hji
      subst hji
      have hstill := hl.after
      rw [view_of_phase? _ done.phase, done.verdict.ticket?_eq_none] at hstill
      cases hstill
  | notLinked phase =>
      rcases hl.of_fail hs phase rfl with ⟨hother, hcell⟩
      exact Or.inr (Or.inl (Fails.notLinked hother phase hcell))
  | rejected phase =>
      rcases hl.of_fail hs phase rfl with ⟨hother, hcell⟩
      exact Or.inr (Or.inl (Fails.rejected hother phase hcell))
  | promote phase => exact absurd hl.entry hl.gone
  | dial phase => exact absurd hl.entry hl.gone
  | refuse phase => exact absurd hl.entry hl.gone
  | finish phase => exact absurd hl.entry hl.gone
  | clean sweeps calls => exact Or.inl sweeps
  | aside calls entries =>
      have hgone := hl.gone
      rw [entries] at hgone
      exact absurd hl.entry hgone

/-!
## Over a run

A call has had its ticket before a step, or it begins with the step and has an
entry.  An entry that a call has lost does not come back to its cell.
-/

def Happens (origin : Pool) (events : List Event) (event : Event)
    (p : Pool) : Prop :=
  exists n : Nat, events[n]? = some event ∧ origin.run (events.take n) = some p

def Lost (origin : Pool) (events : List Event) (i : Nat) (t : Ticket)
    (kind : Pool -> Event -> Prop) : Prop :=
  exists event p q, Happens origin events event p ∧ p.step event = some q ∧
    Loses p q i t ∧ kind p event

/-- The reasons for an error that lie in the call itself, in the table, in
sweeps and in the end of the pool. -/
inductive Earned (origin : Pool) (events : List Event) (p : Pool) (i : Nat) :
    Event -> ClusterError -> Prop where
  | shutdown {target : Target} (added : i = p.calls.length)
      (closed : p.isClosed = true) :
      Earned origin events p i (.request target) .shutdown
  | unresolved {target : Target} {e : ClusterError} (added : i = p.calls.length)
      (unknown : target.resolve p.table.table p.fallback = .error e) :
      Earned origin events p i (.request target) e
  | notLinked {t : Ticket} {e : ClusterError}
      (phase : p.phase? i = some (.connecting t)) :
      Earned origin events p i (.notLinked i e) e
  | refused {t : Ticket} {l : Nat} {e : ClusterError}
      (phase : p.phase? i = some (.authenticating t l)) :
      Earned origin events p i (.refused i e) (.ofHandshake t.endpoint e)
  | closed {t : Ticket} {h : Nat} {event : Event}
      (concludes : p.Concludes i t event h) (closed : p.isClosed = true) :
      Earned origin events p i event (evictedError t)
  | unknown {t : Ticket} {h : Nat} {event : Event} {id : String}
      (concludes : p.Concludes i t event h) (key : t.key = .node id)
      (missing : p.table.table.contains id = false) :
      Earned origin events p i event (.unknownNode id)
  | evicted {t : Ticket} {h : Nat} {event : Event}
      (concludes : p.Concludes i t event h)
      (lost : Lost origin events i t (fun _ => Event.Sweeps)) :
      Earned origin events p i event (evictedError t)

/-- A call of an open pool gets an error because another call has taken the
entry away. -/
inductive Robbed (origin : Pool) (events : List Event) (p : Pool) (i : Nat) :
    Event -> ClusterError -> Prop where
  | failure {t : Ticket} {h : Nat} {event : Event}
      (concludes : p.Concludes i t event h) (openPool : p.isClosed = false)
      (lost : Lost origin events i t (fun q => Fails q i t)) :
      Robbed origin events p i event (evictedError t)
  | retirement {t : Ticket} {h : Nat} {event : Event}
      (concludes : p.Concludes i t event h) (openPool : p.isClosed = false)
      (lost : Lost origin events i t (fun q => Retires q i t)) :
      Robbed origin events p i event (evictedError t)

section

variable {origin : Pool} {events : List Event} {kind : Pool -> Event -> Prop}
  {e : ClusterError}

theorem Happens.append (h : Happens origin events event p) (more : List Event) :
    Happens origin (events ++ more) event p := by
  rcases h with ⟨n, hn, hrun⟩
  have hlt := (List.getElem?_eq_some_iff.mp hn).1
  refine ⟨n, ?_, ?_⟩
  · rw [List.getElem?_append_left hlt]
    exact hn
  · rw [List.take_append_of_le_length (Nat.le_of_lt hlt)]
    exact hrun

theorem Happens.last (hrun : origin.run events = some p) (event : Event) :
    Happens origin (events ++ [event]) event p := by
  refine ⟨events.length, List.getElem?_concat_length, ?_⟩
  rw [List.take_left]
  exact hrun

theorem Happens.rest (h : Happens origin events event p)
    (hstep : p.step event = some q) (hrun : origin.run events = some r) :
    exists more earlier, origin.run earlier = some p ∧ q.run more = some r := by
  rcases h with ⟨n, hn, hp⟩
  rcases List.getElem?_eq_some_iff.mp hn with ⟨hlt, hget⟩
  have hsplit :
      origin.run (events.take n ++ event :: events.drop (n + 1)) = some r := by
    rw [← hget, List.getElem_cons_drop, List.take_append_drop]
    exact hrun
  exact ⟨_, _, hp, run_after hsplit hp hstep⟩

theorem Concludes.ticket {h : Nat} (hc : p.Concludes i t event h) :
    p.view Phase.ticket? i = some t := by
  cases hc with
  | resume phase _ => exact view_of_phase? _ phase
  | linked phase _ => exact view_of_phase? _ phase
  | accepted phase => exact view_of_phase? _ phase

theorem Lost.append (h : Lost origin events i t kind) (more : List Event) :
    Lost origin (events ++ more) i t kind := by
  rcases h with ⟨event, p, q, hhappens, hstep, hloses, hkind⟩
  exact ⟨event, p, q, hhappens.append more, hstep, hloses, hkind⟩

theorem Earned.append (h : Earned origin events p i event e)
    (more : List Event) : Earned origin (events ++ more) p i event e := by
  cases h with
  | shutdown added closed => exact Earned.shutdown added closed
  | unresolved added unknown => exact Earned.unresolved added unknown
  | notLinked phase => exact Earned.notLinked phase
  | refused phase => exact Earned.refused phase
  | closed concludes closed => exact Earned.closed concludes closed
  | unknown concludes key missing => exact Earned.unknown concludes key missing
  | evicted concludes lost => exact Earned.evicted concludes (lost.append more)

theorem Robbed.append (h : Robbed origin events p i event e)
    (more : List Event) : Robbed origin (events ++ more) p i event e := by
  cases h with
  | failure concludes openPool lost =>
      exact Robbed.failure concludes openPool (lost.append more)
  | retirement concludes openPool lost =>
      exact Robbed.retirement concludes openPool (lost.append more)

theorem ticket_of_step (hs : Seated keyAt p) (hstep : p.step event = some q)
    (h : q.view Phase.ticket? i = some t) :
    p.view Phase.ticket? i = some t ∨ q.entry? t.key = some t.cell := by
  rcases view_eq_some.mp h with ⟨new, hnew, hticket⟩
  rcases turn_of_step hs hstep hnew with hsame | hturn
  · exact Or.inl ((view_of_phase? _ hsame).trans hticket)
  · cases hturn with
    | began ticket _ entry =>
        rw [hticket, Option.some.injEq] at ticket
        subst ticket
        exact Or.inr entry
    | proceeds before after _ =>
        rw [hticket, Option.some.injEq] at after
        subst after
        exact Or.inl before
    | refused phase =>
        cases hticket
        exact Or.inl (view_of_phase? _ phase)
    | concluded _ done =>
        rw [done.verdict.ticket?_eq_none] at hticket
        cases hticket
    | served => cases hticket
    | shut _ _ => cases hticket
    | unresolved _ _ => cases hticket
    | notLinked _ => cases hticket
    | ended _ => cases hticket

/-- Whoever waits has its entry, or has lost it in one of three ways. -/
theorem entry_or_lost {table : Shared} {fallback : Endpoint}
    (hrun : run { table, fallback } events = some p)
    (hticket : p.view Phase.ticket? i = some t) :
    p.entry? t.key = some t.cell ∨
      Lost { table, fallback } events i t (fun _ => Event.Sweeps) ∨
      Lost { table, fallback } events i t (fun q => Fails q i t) ∨
      Lost { table, fallback } events i t (fun q => Retires q i t) := by
  induction events using List.reverseRecOn generalizing p with
  | nil =>
      cases hrun
      cases hticket
  | append_singleton events event ih =>
      rcases run_concat.mp hrun with ⟨r, hr, hstep⟩
      rcases (Sound.start table fallback).run hr with ⟨keyAt, hs, _⟩
      by_cases hentry : p.entry? t.key = some t.cell
      · exact Or.inl hentry
      rcases ticket_of_step hs hstep hticket with hbefore | hnew
      · rcases ih hr hbefore with hold | hswept | hfailed | hretired
        · have hloses : Loses r p i t := ⟨hbefore, hticket, hold, hentry⟩
          have hlast := Happens.last hr event
          rcases hloses.kinds hs hstep with hkind | hkind | hkind
          · exact Or.inr (Or.inl ⟨event, r, p, hlast, hstep, hloses, hkind⟩)
          · exact Or.inr
              (Or.inr (Or.inl ⟨event, r, p, hlast, hstep, hloses, hkind⟩))
          · exact Or.inr
              (Or.inr (Or.inr ⟨event, r, p, hlast, hstep, hloses, hkind⟩))
        · exact Or.inr (Or.inl (hswept.append _))
        · exact Or.inr (Or.inr (Or.inl (hfailed.append _)))
        · exact Or.inr (Or.inr (Or.inr (hretired.append _)))
      · exact absurd hnew hentry

theorem entry_of_lost {table : Shared} {fallback : Endpoint}
    (hrun : run { table, fallback } events = some p)
    (hlost : Lost { table, fallback } events i t kind) :
    p.entry? t.key ≠ some t.cell := by
  rcases hlost with ⟨event, r, q, hhappens, hstep, hloses, _⟩
  rcases hhappens.rest hstep hrun with ⟨more, earlier, hr, hrest⟩
  have hsound := ((Sound.start table fallback).run hr).step hstep
  have haged := Aged.run hsound hrest
  rcases hsound with ⟨keyAt, hs, _⟩
  intro hentry
  exact hloses.gone (haged.entry_old (hs.ticket_key hloses.after).2 hentry)

theorem not_retired_of_opening {table : Shared} {fallback : Endpoint}
    (hrun : run { table, fallback } events = some p)
    (hopening : p.view Phase.opening? i = some t) :
    ¬ Lost { table, fallback } events i t (fun q => Retires q i t) := by
  intro hlost
  rcases hlost with ⟨event, r, q, hhappens, hstep, hloses, hretires⟩
  rcases hhappens.rest hstep hrun with ⟨more, earlier, hr, hrest⟩
  have hsound := (Sound.start table fallback).run hr
  have hone : r.run [event] = some q := run_cons.mpr ⟨q, hstep, rfl⟩
  have haged : Aged r q := Aged.run hsound hone
  have hfilled : exists h, q.cellHandle? t.cell = some h := by
    cases hretires with
    | dead resolve filled dead => exact ⟨_, haged.cell_kept filled⟩
    | unknown other concludes cell unknown =>
        rcases hsound with ⟨keyAt, hs, _⟩
        rcases concluded_of_step hs concludes hstep with ⟨_, hdone⟩
        rw [← cell]
        exact ⟨_, hdone.cell⟩
  rcases hfilled with ⟨h, hfilled⟩
  have hkept := (Aged.run (hsound.step hstep) hrest).cell_kept hfilled
  rcases (Sound.start table fallback).run hrun with ⟨keyAt, hs, _⟩
  rcases hs.opening_cell hopening with ⟨cell, hcell, _, hempty⟩
  simp [cellHandle?, hcell, hempty] at hkept

/-- An error has been there before a step, or the step gives a reason for it. -/
theorem error_of_step {table : Shared} {fallback : Endpoint}
    (hrun : run { table, fallback } events = some p)
    (hstep : p.step event = some q) (herror : q.view Phase.error? i = some e) :
    p.view Phase.error? i = some e ∨
      Earned { table, fallback } events p i event e ∨
      Robbed { table, fallback } events p i event e := by
  rcases (Sound.start table fallback).run hrun with ⟨keyAt, hs, _⟩
  rcases view_eq_some.mp herror with ⟨new, hnew, he⟩
  rcases turn_of_step hs hstep hnew with hsame | hturn
  · exact Or.inl ((view_of_phase? _ hsame).trans he)
  · cases hturn with
    | began _ sound _ =>
        rw [sound] at he
        cases he
    | served => cases he
    | shut added closed =>
        cases he
        exact Or.inr (Or.inl (Earned.shutdown added closed))
    | unresolved added unknown =>
        cases he
        exact Or.inr (Or.inl (Earned.unresolved added unknown))
    | proceeds _ _ sound =>
        rw [sound] at he
        cases he
    | notLinked phase =>
        cases he
        exact Or.inr (Or.inl (Earned.notLinked phase))
    | refused phase =>
        cases he
        exact Or.inr (Or.inl (Earned.refused phase))
    | @concluded _ t h _ concludes done =>
        cases done.verdict with
        | shut closed =>
            cases he
            exact Or.inr (Or.inl (Earned.closed concludes closed))
        | gone openPool away =>
            cases he
            rcases entry_or_lost hrun concludes.ticket with hentry | hlost |
              hlost | hlost
            · exact absurd hentry away
            · exact Or.inr (Or.inl (Earned.evicted concludes hlost))
            · exact Or.inr (Or.inr (Robbed.failure concludes openPool hlost))
            · exact Or.inr (Or.inr (Robbed.retirement concludes openPool hlost))
        | unknown key missing =>
            cases he
            exact Or.inr (Or.inl (Earned.unknown concludes key missing))
        | taken _ _ _ => cases he
    | ended before =>
        cases he
        exact Or.inl before

end

/-! ## Why calls fail -/

/-- Every error of a call has a reason: the pool is closed; the table does not
know the target at the beginning, or its node at the end; the attempt of the
call itself fails; a sweep or the end of the pool has taken its entry away; or
another call has.  A call that goes on to hand out a connection gets it exactly
if none of this has happened.  From a call that opens its connection itself,
only the failure of another call at the same cell can take the entry away,
besides sweeps and the end of the pool. -/
theorem errors_of_run {table : Shared} {fallback : Endpoint}
    {events : List Event} {p : Pool}
    (hrun : run { table, fallback } events = some p) (i : Nat) :
    (forall e, p.view Phase.error? i = some e ->
      exists event q, Happens { table, fallback } events event q ∧
        (Earned { table, fallback } events q i event e ∨
          Robbed { table, fallback } events q i event e)) ∧
      (forall event q t h, p.Concludes i t event h -> p.step event = some q ->
        (q.phase? i = some (.finished (.ok h)) <->
          p.isClosed = false ∧ p.Knows t.key ∧
            ¬ Lost { table, fallback } events i t (fun _ => Event.Sweeps) ∧
            ¬ Lost { table, fallback } events i t (fun r => Fails r i t) ∧
            ¬ Lost { table, fallback } events i t (fun r => Retires r i t))) ∧
      forall t, p.view Phase.opening? i = some t ->
        ¬ Lost { table, fallback } events i t (fun r => Retires r i t) := by
  refine ⟨?_, ?_, fun t => not_retired_of_opening hrun⟩
  · intro e herror
    induction events using List.reverseRecOn generalizing p with
    | nil =>
        cases hrun
        cases herror
    | append_singleton events event ih =>
        rcases run_concat.mp hrun with ⟨r, hr, hstep⟩
        rcases error_of_step hr hstep herror with hbefore | hearned | hrobbed
        · rcases ih hr hbefore with ⟨earlier, q, hhappens, hreason⟩
          refine ⟨earlier, q, hhappens.append _, ?_⟩
          rcases hreason with hearned | hrobbed
          · exact Or.inl (hearned.append _)
          · exact Or.inr (hrobbed.append _)
        · exact ⟨event, r, Happens.last hr event, Or.inl (hearned.append _)⟩
        · exact ⟨event, r, Happens.last hr event, Or.inr (hrobbed.append _)⟩
  · intro event q t h hconcludes hstep
    rcases (Sound.start table fallback).run hrun with ⟨keyAt, hs, _⟩
    rcases concluded_of_step hs hconcludes hstep with ⟨new, hdone⟩
    constructor
    · intro hok
      have hverdict := hdone.verdict
      rw [hdone.phase, Option.some.injEq] at hok
      subst hok
      cases hverdict with
      | taken openPool entry knows =>
          exact ⟨openPool, knows, fun hlost => entry_of_lost hrun hlost entry,
            fun hlost => entry_of_lost hrun hlost entry,
            fun hlost => entry_of_lost hrun hlost entry⟩
    · intro hnothing
      rcases hnothing with ⟨hopen, hknows, hswept, hfailed, hretired⟩
      rw [hdone.phase]
      cases hdone.verdict with
      | shut closed =>
          rw [hopen] at closed
          cases closed
      | gone _ away =>
          rcases entry_or_lost hrun hconcludes.ticket with hentry | hlost |
            hlost | hlost
          · exact absurd hentry away
          · exact absurd hlost hswept
          · exact absurd hlost hfailed
          · exact absurd hlost hretired
      | unknown key missing =>
          rw [hknows _ key] at missing
          cases missing
      | taken _ _ _ => rfl

def failureWhileWaiting : List Event :=
  [.request (.address "d" 2), .request (.address "d" 2), .notLinked 0 .timeout,
    .resume 1, .linked 1, .closed 1]

/-- A call alone gets its connection.  If another one fails while it waits, its
error has a reason. -/
theorem errors_of_run_served_and_robbed :
    (exists p q,
      run { table := default, fallback := .atAddress "h" 1 }
        [.request (.address "d" 2)] = some p ∧
      p.step (.linked 0) = some q ∧ q.phase? 0 = some (.finished (.ok 0))) ∧
    exists p, run { table := default, fallback := .atAddress "h" 1 }
      failureWhileWaiting = some p ∧
      exists event q,
        Happens { table := default, fallback := .atAddress "h" 1 }
          failureWhileWaiting event q ∧
        (Earned { table := default, fallback := .atAddress "h" 1 }
          failureWhileWaiting q 1 event
            (evictedError ⟨.address "d" 2, .atAddress "d" 2, 0⟩) ∨
          Robbed { table := default, fallback := .atAddress "h" 1 }
            failureWhileWaiting q 1 event
            (evictedError ⟨.address "d" 2, .atAddress "d" 2, 0⟩)) := by
  constructor
  · have hrun : run { table := default, fallback := .atAddress "h" 1 }
        [.request (.address "d" 2)] = some _ :=
      rfl
    refine ⟨_, _, hrun, rfl, ?_⟩
    have hnobody : forall kind,
        ¬ Lost { table := default, fallback := .atAddress "h" 1 }
          [.request (.address "d" 2)] 0
          ⟨.address "d" 2, .atAddress "d" 2, 0⟩ kind := by
      intro kind hlost
      rcases hlost with ⟨event, p, q, ⟨n, hn, hp⟩, _, hloses, _⟩
      match n with
      | 0 =>
          cases hp
          cases hloses.before
      | _ + 1 => cases hn
    refine ((errors_of_run hrun 0).2.1
      (.linked 0) _ ⟨.address "d" 2, .atAddress "d" 2, 0⟩ 0
      (Concludes.linked rfl rfl) rfl).mpr ?_
    exact ⟨rfl, fun id h => (by cases h), hnobody _, hnobody _, hnobody _⟩
  · have hrun : run { table := default, fallback := .atAddress "h" 1 }
        failureWhileWaiting = some _ :=
      rfl
    exact ⟨_, hrun, (errors_of_run hrun 1).1 _ rfl⟩

/-- Not every error has its reason in the call itself, in the table, in sweeps
or in the end of the pool. -/
theorem error_unearned :
    ¬ forall (table : Shared) (fallback : Endpoint) (events : List Event)
      (p : Pool) (i : Nat) (e : ClusterError),
      run { table, fallback } events = some p ->
        p.phase? i = some (.finished (.error e)) ->
        exists event q e', Happens { table, fallback } events event q ∧
          Earned { table, fallback } events q i event e' := by
  intro h
  rcases h default (.atAddress "h" 1) failureWhileWaiting _ 1 _ rfl rfl with
    ⟨event, q, e', ⟨n, hn, hq⟩, hearned⟩
  have hnosweep : forall t,
      ¬ Lost { table := default, fallback := .atAddress "h" 1 }
        failureWhileWaiting 1 t (fun _ => Event.Sweeps) := by
    intro t hlost
    rcases hlost with ⟨event, _, _, ⟨m, hm, _⟩, _, _, hsweeps⟩
    match m with
    | 0 | 1 | 2 | 3 | 4 | 5 =>
        cases hm
        exact hsweeps
    | _ + 6 => cases hm
  -- Only the second call's own events, its beginning and what follows the link,
  -- can be its reason.
  match n with
  | 0 | 1 =>
      cases hn
      cases hq
      cases hearned with
      | shutdown _ closed => cases closed
      | unresolved _ unknown => cases unknown
      | closed concludes _ => cases concludes
      | unknown concludes _ _ => cases concludes
      | evicted concludes _ => cases concludes
  | 2 | 5 =>
      cases hn
      cases hearned with
      | closed concludes _ => cases concludes
      | unknown concludes _ _ => cases concludes
      | evicted concludes _ => cases concludes
  | 3 =>
      cases hn
      cases hq
      cases hearned with
      | closed _ closed => cases closed
      | unknown concludes key _ =>
          cases concludes with
          | resume phase _ =>
              cases phase
              cases key
      | evicted _ lost => exact hnosweep _ lost
  | 4 =>
      cases hn
      cases hq
      cases hearned with
      | closed _ closed => cases closed
      | unknown concludes key _ =>
          cases concludes with
          | linked phase _ =>
              cases phase
              cases key
      | evicted _ lost => exact hnosweep _ lost
  | _ + 6 => cases hn

end Pool
end SlotCluster
