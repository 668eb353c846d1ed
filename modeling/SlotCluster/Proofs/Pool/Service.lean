import SlotCluster.Proofs.Pool.Closings

/-!
# Connections that are handed out

Between the moment when a call looks up its target and the moment when it has
its connection, tables may change, entries may be swept and the pool may end.  A
call therefore looks once more before it hands out a connection, and this look
and the end of the call are one step.  Whatever has happened before, a
connection that is handed out is the one in the pool under its own key, the pool
is not closed, and its table knows the node.
-/

namespace SlotCluster
namespace Pool

variable {keyAt : Nat -> Target} {p q : Pool} {event : Event} {i h : Nat}
  {t : Ticket}

/-! ## The last look -/

structure Grants (p : Pool) (t : Ticket) (h : Nat) : Prop where
  openPool : p.isClosed = false
  entry : p.entry? t.key = some t.cell
  filled : p.cellHandle? t.cell = some h
  knows : p.Knows t.key

theorem not_finished_of_discard {n : Nat} {error : ClusterError} :
    (p.discard i n error).phase? i ≠ some (.finished (.ok h)) := by
  intro hi
  unfold discard at hi
  rw [phase?_setPhase, if_pos rfl, Option.map_eq_some_iff] at hi
  rcases hi with ⟨_, _, hphase⟩
  cases hphase

theorem grants_of_conclude {n : Nat} (hfilled : p.cellHandle? t.cell = some n)
    (hi : (p.conclude i t n).phase? i = some (.finished (.ok h))) :
    p.conclude i t n = p.setPhase i (.finished (.ok h)) ∧ Grants p t h := by
  have hserved
      (hphase : (p.setPhase i (.finished (.ok n))).phase? i =
        some (.finished (.ok h))) : n = h := by
    rw [phase?_setPhase, if_pos rfl, Option.map_eq_some_iff] at hphase
    rcases hphase with ⟨_, _, hphase⟩
    cases hphase
    rfl
  unfold conclude at hi ⊢
  by_cases hgone : (p.entry? t.key ≠ some t.cell || p.isClosed) = true
  · rw [if_pos hgone] at hi
    exact absurd hi not_finished_of_discard
  · rw [if_neg hgone] at hi ⊢
    simp only [ne_eq, Bool.or_eq_true, decide_eq_true_eq, not_or, not_not,
      Bool.not_eq_true] at hgone
    cases hkey : t.key with
    | address host port =>
        rw [hkey] at hi
        have hn := hserved hi
        subst hn
        exact ⟨rfl, hgone.2, hgone.1, hfilled, fun id h => by
          rw [hkey] at h; cases h⟩
    | node id =>
        rw [hkey] at hi
        by_cases hstale : Target.isStale p.table.table (.node id) = true
        · simp only [hstale, if_true] at hi
          exact absurd hi not_finished_of_discard
        · simp only [hstale] at hi ⊢
          have hn := hserved hi
          subst hn
          refine ⟨rfl, hgone.2, hgone.1, hfilled, ?_⟩
          intro other hother
          rw [hkey, Target.node.injEq] at hother
          rw [← hother]
          simpa [Target.isStale] using hstale

/-! ## Calls that begin -/

theorem phase?_addCall_length (p : Pool) (target : Target) (phase : Phase) :
    (p.addCall target phase).phase? p.calls.length = some phase := by
  simp

theorem grants_of_request {target : Target} (hmanned : p.Manned)
    (hi : (p.request target).phase? p.calls.length = some (.finished (.ok h))) :
    exists t, p.request target =
      (p.addCall target (.queued t)).setPhase p.calls.length
        (.finished (.ok h)) ∧
      Grants (p.addCall target (.queued t)) t h ∧ p.isOpen h = true := by
  have hrequested := requested target hmanned
  generalize p.request target = q at hi hrequested ⊢
  cases hrequested with
  | shut _ =>
      rw [phase?_addCall_length] at hi
      cases hi
  | unresolved _ _ =>
      rw [phase?_addCall_length] at hi
      cases hi
  | found _ _ _ =>
      rw [phase?_openCell_self] at hi
      cases hi
  | @replaced key endpoint _ _ _ _ _ _ _ =>
      have hconnecting :=
        phase?_openCell_self target (p.removeEntry key)
          ⟨key, endpoint, p.cells.length⟩
      cases hconnecting.symm.trans hi
  | @waits key endpoint c _ _ _ _ _ _ _ _ =>
      have hqueued :=
        phase?_addCall_length p target (.queued ⟨key, endpoint, c⟩)
      cases hqueued.symm.trans hi
  | @shares key endpoint c g _ _ _ filled live =>
      rcases grants_of_conclude
        (p := p.addCall target (.queued ⟨key, endpoint, c⟩))
        (t := ⟨key, endpoint, c⟩) filled hi with ⟨heq, hgrants⟩
      have hsame : g = h := by
        have hstill := hgrants.filled
        change p.cellHandle? c = some h at hstill
        rw [filled, Option.some.injEq] at hstill
        exact hstill
      exact ⟨⟨key, endpoint, c⟩, heq, hgrants, hsame ▸ live⟩

/-! ## Steps that end with a connection -/

inductive Obtained (p r : Pool) (i h : Nat) : Prop where
  | live (opened : r.isOpen h = true)
  | waited {t : Ticket} (phase : p.phase? i = some (.queued t))
  | accepted {t : Ticket} {l : Nat}
      (phase : p.phase? i = some (.authenticating t l))
      (same : r.isOpen h = p.isLinkOpen l)

def filled (p : Pool) (t : Ticket) (l : Nat) : Pool :=
  { p with
    handles := p.handles ++ [⟨t.key, t.endpoint, l, p.table⟩]
    cells :=
      p.cells.modify t.cell (fun _ => { handle := some p.handles.length }) }

theorem cellHandle?_filled {cell : Cell} (l : Nat)
    (hcell : p.cells[t.cell]? = some cell) :
    (p.filled t l).cellHandle? t.cell = some p.handles.length := by
  rw [cellHandle?_eq_some]
  refine ⟨{ handle := some p.handles.length }, ?_, rfl⟩
  change (p.cells.modify t.cell _)[t.cell]? = _
  simp [hcell]

@[simp]
theorem isOpen_filled (p : Pool) (t : Ticket) (l : Nat) :
    (p.filled t l).isOpen p.handles.length = p.isLinkOpen l := by
  change ((p.handles ++ [_])[p.handles.length]?).any _ = _
  rw [List.getElem?_concat_length]
  rfl

theorem grants_of_establish {l : Nat} {cell : Cell}
    (hcell : p.cells[t.cell]? = some cell)
    (hi : (p.establish i t l).phase? i = some (.finished (.ok h))) :
    p.establish i t l = (p.filled t l).setPhase i (.finished (.ok h)) ∧
      Grants (p.filled t l) t h ∧ h = p.handles.length := by
  rcases grants_of_conclude (p := p.filled t l) (cellHandle?_filled l hcell)
    hi with ⟨heq, hgrants⟩
  refine ⟨heq, hgrants, ?_⟩
  have hfilled := hgrants.filled
  rw [cellHandle?_filled l hcell, Option.some.injEq] at hfilled
  exact hfilled.symm

theorem grants_of_step (hs : Seated keyAt p) (hstep : p.step event = some q)
    (hbefore : p.phase? i ≠ some (.finished (.ok h)))
    (hafter : q.phase? i = some (.finished (.ok h))) :
    exists r t, q = r.setPhase i (.finished (.ok h)) ∧ Grants r t h ∧
      Obtained p r i h := by
  rcases turn_of_step hs hstep hafter with hsame | hturn
  · exact absurd hsame hbefore
  · cases hturn with
    | began ticket _ _ => cases ticket
    | proceeds _ after _ => cases after
    | @served target h =>
        cases hstep
        rcases phase?_of_begins (begins_of_request target hs.manned) i with
          hsame | ⟨hi, _⟩
        · rw [hsame] at hafter
          exact absurd hafter hbefore
        · subst hi
          rcases grants_of_request hs.manned hafter with
            ⟨t, heq, hgrants, hlive⟩
          exact ⟨_, t, heq, hgrants, Obtained.live hlive⟩
    | @concluded _ t n _ concludes done =>
        cases concludes with
        | resume phase filled =>
            rcases cellHandle?_eq_some.mp filled with
              ⟨⟨handle, owner, queue⟩, hcell, hhandle⟩
            cases hhandle
            simp only [step, phase, resume, hcell, Option.some.injEq] at hstep
            subst hstep
            rcases grants_of_conclude filled hafter with ⟨heq, hgrants⟩
            exact ⟨p, t, heq, hgrants, Obtained.waited phase⟩
        | linked phase bare =>
            rcases hs.opening_owner (view_of_phase? Phase.opening? phase) with
              ⟨cell, hcell, _⟩
            simp only [step, phase, linked, bare, Option.some.injEq] at hstep
            subst hstep
            rcases grants_of_establish
              (p := { p with links := p.links ++ [{ endpoint := t.endpoint }] })
              hcell hafter with ⟨heq, hgrants, hh⟩
            refine ⟨_, t, heq, hgrants, Obtained.live ?_⟩
            rw [hh, isOpen_filled]
            exact (isLinkOpen_dialLink p i p.links.length t).trans (by simp)
        | @accepted l phase =>
            rcases hs.opening_owner (view_of_phase? Phase.opening? phase) with
              ⟨cell, hcell, _⟩
            simp only [step, phase, accepted, Option.some.injEq] at hstep
            subst hstep
            rcases grants_of_establish (p := { p with
              links :=
                p.links.modify l
                  (fun link => { link with isAuthenticated := true }) })
              hcell hafter with ⟨heq, hgrants, hh⟩
            refine ⟨_, t, heq, hgrants, Obtained.accepted phase ?_⟩
            rw [hh, isOpen_filled, isLinkOpen_authenticated]

/-! ## Calls that find a connection -/

/-- A call for the target finds a connection under its key when it begins
now. -/
def Finds (p : Pool) (target : Target) (h : Nat) : Prop :=
  exists key endpoint c,
    target.resolve p.table.table p.fallback = .ok (key, endpoint) ∧
    p.entry? key = some c ∧ p.cellHandle? c = some h

theorem setPhase_addCall (p : Pool) (target : Target) (old new : Phase) :
    (p.addCall target old).setPhase p.calls.length new =
      p.addCall target new := by
  unfold addCall setPhase
  simp only [modify_last]

/-- The call that has just found an entry hands out the connection there. -/
theorem conclude_found {target key : Target} {endpoint : Endpoint} {c g : Nat}
    (hopen : p.isClosed = false)
    (hresolve : target.resolve p.table.table p.fallback = .ok (key, endpoint))
    (hentry : p.entry? key = some c) :
    (p.addCall target (.queued ⟨key, endpoint, c⟩)).conclude p.calls.length
      ⟨key, endpoint, c⟩ g = p.addCall target (.finished (.ok g)) := by
  rw [conclude_of_entry (p := p.addCall target (.queued ⟨key, endpoint, c⟩))
    (t := ⟨key, endpoint, c⟩) hopen hentry (knows_of_resolve hresolve)]
  exact setPhase_addCall p target _ _

theorem request_of_finds_live {target : Target} {g : Nat}
    (hopen : p.isClosed = false) (hfinds : p.Finds target g)
    (hlive : p.isOpen g = true) :
    p.request target = p.addCall target (.finished (.ok g)) := by
  rcases hfinds with ⟨key, endpoint, c, hresolve, hentry, hfilled⟩
  rw [request_of_live hopen hresolve hentry hfilled hlive]
  exact conclude_found hopen hresolve hentry

/-- A call that finds a connection does not queue up: it has that connection,
opens a new one if that connection has closed, or ends with an error if the pool
has. -/
theorem unqueued_of_finds {target : Target} {g : Nat}
    (hfinds : p.Finds target g) :
    exists new, (p.request target).phase? p.calls.length = some new ∧
      forall t, new ≠ .queued t := by
  cases hclosed : p.isClosed with
  | true =>
      unfold request
      rw [if_pos hclosed, phase?_addCall_length]
      exact ⟨_, rfl, nofun⟩
  | false =>
      cases hlive : p.isOpen g with
      | true =>
          rw [request_of_finds_live hclosed hfinds hlive, phase?_addCall_length]
          exact ⟨_, rfl, nofun⟩
      | false =>
          rcases hfinds with ⟨key, endpoint, c, hresolve, hentry, hfilled⟩
          rw [request_of_dead hclosed hresolve hentry hfilled hlive]
          exact ⟨_, phase?_openCell_self target (p.removeEntry key)
            ⟨key, endpoint, p.cells.length⟩, nofun⟩

/-! ## Runs -/

theorem Grants.serves {r : Pool} (hr : Grants r t h) (hq : Sound q)
    (hentries : q.entries = r.entries) (hcells : q.cells = r.cells)
    (htable : q.table = r.table) :
    exists handle c,
      q.handles[h]? = some handle ∧ q.entry? handle.target = some c ∧
      q.cellHandle? c = some h ∧ q.Knows handle.target := by
  rcases hq with ⟨keyAt, hs, hw⟩
  have hentry : q.entry? t.key = some t.cell := by
    unfold entry?
    rw [hentries]
    exact hr.entry
  have hfilled : q.cellHandle? t.cell = some h := by
    unfold cellHandle?
    rw [hcells]
    exact hr.filled
  have hknows : q.Knows t.key := by
    intro id hid
    rw [htable]
    exact hr.knows id hid
  rcases hw.cell_wire hfilled with ⟨l, hwire⟩
  rcases wire?_eq_some.mp hwire with ⟨handle, hhandle, htarget, _⟩
  rw [hs.entry_key hentry] at htarget
  refine ⟨handle, t.cell, hhandle, ?_, hfilled, ?_⟩
  · rw [htarget]
    exact hentry
  · rw [htarget]
    exact hknows

theorem Happens.of_concat {origin r : Pool} {events : List Event}
    {other : Event} (h : Happens origin (events ++ [event]) other r)
    (hrun : origin.run events = some p) :
    Happens origin events other r ∨ other = event ∧ r = p := by
  rcases h with ⟨n, hn, hr⟩
  by_cases hlt : n < events.length
  · rw [List.getElem?_append_left hlt] at hn
    rw [List.take_append_of_le_length (Nat.le_of_lt hlt)] at hr
    exact Or.inl ⟨n, hn, hr⟩
  · have hle : n < (events ++ [event]).length :=
      (List.getElem?_eq_some_iff.mp hn).1
    have hlast : n = events.length := by
      rw [List.length_append, List.length_singleton] at hle
      omega
    subst hlast
    rw [List.getElem?_concat_length, Option.some.injEq] at hn
    rw [List.take_left, hrun, Option.some.injEq] at hr
    exact Or.inr ⟨hn.symm, hr.symm⟩

theorem unqueued_of_began {table : Shared} {fallback : Endpoint}
    {events : List Event} {target : Target} {r : Pool} {g : Nat}
    (hrun : run { table, fallback } events = some p)
    (hbegan : Happens { table, fallback } (events ++ [event])
      (.request target) r)
    (hi : r.calls.length = i) (hfinds : r.Finds target g) :
    forall t, p.phase? i ≠ some (.queued t) := by
  rcases hbegan.of_concat hrun with hearlier | ⟨hevent, hsame⟩
  · rcases hearlier.rest rfl hrun with ⟨more, earlier, hr, hmore⟩
    have hrequest : r.step (.request target) = some (r.request target) := rfl
    have hsound : Sound (r.request target) :=
      ((Sound.start table fallback).run hr).step hrequest
    rcases unqueued_of_finds hfinds with ⟨old, hold, hnot⟩
    rw [hi] at hold
    rcases unqueued_of_run hsound hmore hold hnot with ⟨new, hnew, hstill⟩
    intro t ht
    rw [hnew, Option.some.injEq] at ht
    exact hstill t ht
  · subst hsame
    intro t ht
    rw [← hi, phase?_length] at ht
    cases ht

section

variable {table : Shared} {fallback : Endpoint} {events : List Event}
  (hrun : run { table, fallback } events = some p)
  (hstep : p.step event = some q)
  (hbefore : p.phase? i ≠ some (.finished (.ok h)))
  (hafter : q.phase? i = some (.finished (.ok h)))

include hrun hstep hbefore hafter

theorem unfinished_of_service {r : Pool} {target : Target} {more : List Event}
    (hr : Sound (r.request target))
    (hmore : (r.request target).run more = some p)
    (result : Except ClusterError Nat) :
    (r.request target).phase? i ≠ some (.finished result) := by
  intro hi
  have hp : p.phase? i = some (.finished result) := finished_of_run hr hmore hi
  rcases (Sound.start table fallback).run hrun with ⟨keyAt, hs, _⟩
  have hq := finished_of_step hs hstep hp
  rw [hafter] at hq
  exact hbefore (hp.trans hq.symm)

/-- A call that has not queued up ends with an open connection, unless its own
link has closed by itself before the answer to its credential. -/
theorem open_of_service (hunqueued : forall t, p.phase? i ≠ some (.queued t)) :
    q.isOpen h = true ∨
      exists t l, p.phase? i = some (.authenticating t l) ∧
        .broke l ∈ events := by
  rcases (Sound.start table fallback).run hrun with ⟨keyAt, hs, _⟩
  rcases grants_of_step hs hstep hbefore hafter with ⟨r, t, rfl, _, hobtained⟩
  cases hobtained with
  | live opened => exact Or.inl opened
  | waited phase => exact absurd phase (hunqueued _)
  | @accepted u l phase same =>
      rcases open_of_handshake hrun phase with hopen | hbroke
      · exact Or.inl (same.trans hopen)
      · exact Or.inr ⟨u, l, phase, hbroke⟩

variable {target : Target} {r : Pool} {g : Nat}
  (hbegan : Happens { table, fallback } (events ++ [event]) (.request target) r)
  (hi : r.calls.length = i) (hfinds : r.Finds target g)

include hbegan hi hfinds

/-- A call that has found an open connection ends with that connection in its
first step. -/
theorem live_of_service (hlive : r.isOpen g = true) :
    h = g ∧ q.isOpen h = true := by
  have hfirst :
      (r.request target).phase? i = some (.finished (.error .shutdown)) ∨
        r.request target = r.addCall target (.finished (.ok g)) := by
    cases hclosed : r.isClosed with
    | true =>
        left
        unfold request
        rw [if_pos hclosed, ← hi, phase?_addCall_length]
    | false => exact Or.inr (request_of_finds_live hclosed hfinds hlive)
  rcases hbegan.of_concat hrun with hearlier | ⟨hevent, hsame⟩
  · rcases hearlier.rest rfl hrun with ⟨more, earlier, hr, hmore⟩
    have hrequest : r.step (.request target) = some (r.request target) := rfl
    have hsound : Sound (r.request target) :=
      ((Sound.start table fallback).run hr).step hrequest
    have hnever := unfinished_of_service hrun hstep hbefore hafter hsound hmore
    rcases hfirst with hphase | hphase
    · exact absurd hphase (hnever _)
    · rw [hphase, ← hi] at hnever
      exact absurd (phase?_addCall_length r target _) (hnever _)
  · subst hevent hsame
    cases hstep
    rcases hfirst with hphase | hphase
    · rw [hafter] at hphase
      cases hphase
    · rw [hphase, ← hi, phase?_addCall_length] at hafter
      cases hafter
      rw [hphase]
      exact ⟨rfl, hlive⟩

end

/-- Whatever has happened to a pool: when a call ends with a connection, the
pool holds that connection under the connection's own key, is not closed, and
its table knows the node.  A call that has found an open connection ends with
that one and it is still open; one that has found a connection which had closed
opens another, which is open, too, unless its link has closed by itself before
the answer to its credential. -/
theorem service_of_run {table : Shared} {fallback : Endpoint}
    {events : List Event} {event : Event} {p q : Pool} {i h : Nat}
    (hrun : run { table, fallback } events = some p)
    (hstep : p.step event = some q)
    (hbefore : p.phase? i ≠ some (.finished (.ok h)))
    (hafter : q.phase? i = some (.finished (.ok h))) :
    (exists handle c,
      q.handles[h]? = some handle ∧ q.entry? handle.target = some c ∧
      q.cellHandle? c = some h ∧ q.Knows handle.target) ∧
    q.isClosed = false ∧
    forall {target : Target} {r : Pool} {g : Nat},
      Happens { table, fallback } (events ++ [event]) (.request target) r ->
        r.calls.length = i ->
        r.Finds target g ->
          (r.isOpen g = true -> h = g ∧ q.isOpen h = true) ∧
          (q.isOpen h = true ∨
            exists t l, p.phase? i = some (.authenticating t l) ∧
              .broke l ∈ events) := by
  have hp : Sound p := (Sound.start table fallback).run hrun
  rcases hp with ⟨keyAt, hs, hw⟩
  have hq : Sound q := Sound.step ⟨keyAt, hs, hw⟩ hstep
  rcases grants_of_step hs hstep hbefore hafter with ⟨r, t, heq, hgrants, _⟩
  refine ⟨hgrants.serves hq ?_ ?_ ?_, ?_, ?_⟩
  · rw [heq]
    rfl
  · rw [heq]
    rfl
  · rw [heq]
    rfl
  · rw [heq]
    exact hgrants.openPool
  · intro target r g hbegan hi hfinds
    constructor
    · exact live_of_service hrun hstep hbefore hafter hbegan hi hfinds
    · exact open_of_service hrun hstep hbefore hafter
        (unqueued_of_began hrun hbegan hi hfinds)

/-- The second call for an address finds the connection of the first one. -/
theorem service_of_run_shared :
    exists p q, run { table := default, fallback := .atAddress "h" 1 }
        [.request (.address "d" 2), .linked 0] = some p ∧
          p.step (.request (.address "d" 2)) = some q ∧
      q.phase? 1 = some (.finished (.ok 0)) ∧ q.isClosed = false ∧
        q.isOpen 0 = true := by
  have hrun : run { table := default, fallback := .atAddress "h" 1 }
      [.request (.address "d" 2), .linked 0] = some _ := rfl
  have hbegan := Happens.last hrun (.request (.address "d" 2))
  have hserved :=
    @service_of_run _ _ _ (.request (.address "d" 2)) _ _ 1 0 hrun rfl nofun rfl
  have hfound := hserved.2.2 hbegan rfl ⟨.address "d" 2, _, 0, rfl, rfl, rfl⟩
  exact ⟨_, _, hrun, rfl, rfl, hserved.2.1, (hfound.1 rfl).2⟩

end Pool
end SlotCluster
