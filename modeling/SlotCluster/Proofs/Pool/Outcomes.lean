import SlotCluster.Proofs.Pool.Cleanups

/-!
# What becomes of a call

A call ends with the connection of its cell or with an error.  Here every step
is looked at from the side of one call: what the step makes of it, and how the
step can take away the entry that leads to its cell.
-/

namespace SlotCluster
namespace Pool

def Phase.error? : Phase -> Option ClusterError
  | .rejecting _ _ error => some error
  | .discarding _ error => some error
  | .finished (.error error) => some error
  | _ => none

/-- The table knows the node of a key, if the key is a node. -/
def Knows (p : Pool) (key : Target) : Prop :=
  forall id, key = .node id -> p.table.table.contains id = true

inductive Verdict (p : Pool) (t : Ticket) (h : Nat) : Phase -> Prop where
  | shut (closed : p.isClosed = true) :
      Verdict p t h (.discarding h (evictedError t))
  | gone (openPool : p.isClosed = false) (away : p.entry? t.key ≠ some t.cell) :
      Verdict p t h (.discarding h (evictedError t))
  | unknown {id : String} (key : t.key = .node id)
      (missing : p.table.table.contains id = false) :
      Verdict p t h (.discarding h (.unknownNode id))
  | taken (openPool : p.isClosed = false) (entry : p.entry? t.key = some t.cell)
      (knows : p.Knows t.key) : Verdict p t h (.finished (.ok h))

/-- A call has a connection, its own or that of its cell, and goes on to hand it
out. -/
inductive Concludes (p : Pool) (i : Nat) (t : Ticket) :
    Event -> Nat -> Prop where
  | resume {h : Nat} (phase : p.phase? i = some (.queued t))
      (filled : p.cellHandle? t.cell = some h) : Concludes p i t (.resume i) h
  | linked (phase : p.phase? i = some (.connecting t))
      (bare : t.endpoint.credential = none) :
      Concludes p i t (.linked i) p.handles.length
  | accepted {l : Nat} (phase : p.phase? i = some (.authenticating t l)) :
      Concludes p i t (.accepted i) p.handles.length

/-- The pool after a call has decided about its connection. -/
structure Concluded (p q : Pool) (i : Nat) (t : Ticket) (h : Nat)
    (new : Phase) : Prop where
  verdict : Verdict p t h new
  phase : q.phase? i = some new
  others : forall {j : Nat}, i ≠ j -> q.phase? j = p.phase? j
  entries : forall {key : Target} {c : Nat}, p.entry? key = some c ->
    q.entry? key ≠ some c -> c = t.cell ∧ ¬ p.Knows key
  cell : q.cellHandle? t.cell = some h

variable {keyAt : Nat -> Target} {p q : Pool} {i : Nat} {t : Ticket}
  {event : Event}

theorem knows_of_resolve {target key : Target} {endpoint : Endpoint}
    (h : target.resolve p.table.table p.fallback = .ok (key, endpoint)) :
    p.Knows key := by
  intro id hkey
  subst hkey
  cases target with
  | node other =>
      unfold Target.resolve at h
      cases hnode : p.table.table.node? other with
      | none => simp [hnode] at h
      | some n =>
          simp only [hnode, Except.ok.injEq, Prod.mk.injEq,
            Target.node.injEq] at h
          rw [Table.contains, ← h.1, hnode]
          rfl
  | address host port =>
      unfold Target.resolve at h
      cases hnode : p.table.table.nodeAt? host port with
      | none => simp [hnode] at h
      | some n =>
          simp only [hnode, Except.ok.injEq, Prod.mk.injEq,
            Target.node.injEq] at h
          rw [Table.contains, Table.node?, List.find?_isSome]
          exact ⟨n, List.mem_of_find?_eq_some hnode, by simp [h.1]⟩

/-! ## Calls that decide about a connection -/

theorem concluded_of_discard {h : Nat} {old : Phase} {error : ClusterError}
    {entries : List (Target × Nat)} (hphase : p.phase? i = some old)
    (hverdict : Verdict p t h (.discarding h error))
    (hfilled : p.cellHandle? t.cell = some h)
    (hentries : forall {key : Target} {c : Nat}, p.entry? key = some c ->
      entry? { p with entries } key ≠ some c -> c = t.cell ∧ ¬ p.Knows key) :
    Concluded p (discard { p with entries } i h error) i t h
      (.discarding h error) := by
  rcases closeHandle_eq { p with entries } h with ⟨links, heq, _⟩
  unfold discard
  rw [heq]
  exact ⟨hverdict,
    phase?_setPhase_self (p := { p with entries, links }) _ hphase,
    fun hij => phase?_setPhase_of_ne { p with entries, links } _ hij,
    hentries, hfilled⟩

theorem concluded_of_conclude {h : Nat} {old : Phase}
    (hphase : p.phase? i = some old) (hfilled : p.cellHandle? t.cell = some h) :
    exists new, Concluded p (p.conclude i t h) i t h new := by
  have hkeep : forall {key : Target} {c : Nat}, p.entry? key = some c ->
      p.entry? key ≠ some c -> c = t.cell ∧ ¬ p.Knows key :=
    fun hentry haway => absurd hentry haway
  unfold conclude
  by_cases hgone : (p.entry? t.key ≠ some t.cell || p.isClosed) = true
  · rw [if_pos hgone]
    cases hclosed : p.isClosed with
    | true =>
        exact ⟨_, concluded_of_discard hphase (Verdict.shut hclosed)
          hfilled hkeep⟩
    | false =>
        rw [hclosed, Bool.or_false, decide_eq_true_eq] at hgone
        exact ⟨_, concluded_of_discard hphase (Verdict.gone hclosed hgone)
          hfilled hkeep⟩
  · rw [if_neg hgone]
    simp only [ne_eq, Bool.or_eq_true, decide_eq_true_eq, not_or, not_not,
      Bool.not_eq_true] at hgone
    have htaken (hknows : p.Knows t.key) :
        Concluded p (p.setPhase i (.finished (.ok h))) i t h
          (.finished (.ok h)) :=
      ⟨Verdict.taken hgone.2 hgone.1 hknows, phase?_setPhase_self _ hphase,
        fun hij => phase?_setPhase_of_ne p _ hij, hkeep, hfilled⟩
    cases hkey : t.key with
    | address host port =>
        exact ⟨_, htaken (fun id h => by rw [hkey] at h; cases h)⟩
    | node id =>
        cases hcontains : p.table.table.contains id with
        | true =>
            have hstale : Target.isStale p.table.table (.node id) = false := by
              rw [Target.isStale, hcontains]
              rfl
            simp only [hstale, Bool.false_eq_true, if_false]
            refine ⟨_, htaken ?_⟩
            intro other hother
            rw [hkey, Target.node.injEq] at hother
            exact hother ▸ hcontains
        | false =>
            have hstale : Target.isStale p.table.table (.node id) = true := by
              rw [Target.isStale, hcontains]
              rfl
            simp only [hstale, if_true]
            refine ⟨_, concluded_of_discard hphase
              (Verdict.unknown hkey hcontains) hfilled ?_⟩
            intro key c hentry haway
            change Pool.entry? (p.removeEntry (.node id)) key ≠ some c at haway
            rw [entry?_removeEntry] at haway
            by_cases hsame : Target.node id = key
            · subst hsame
              rw [← hkey, hgone.1, Option.some.injEq] at hentry
              refine ⟨hentry.symm, fun hknows => ?_⟩
              rw [hknows id rfl] at hcontains
              cases hcontains
            · rw [if_neg hsame] at haway
              exact absurd hentry haway

theorem Concluded.of_same {r : Pool} {h : Nat} {new : Phase}
    (hc : Concluded r q i t h new) (hclosed : r.isClosed = p.isClosed)
    (hentries : r.entries = p.entries) (htable : r.table = p.table)
    (hcalls : r.calls = p.calls) : Concluded p q i t h new := by
  have hentry : forall key, r.entry? key = p.entry? key := by
    intro key
    unfold entry?
    rw [hentries]
  have hknows : forall {key : Target}, r.Knows key <-> p.Knows key := by
    intro key
    unfold Knows
    rw [htable]
  have hphase : forall j, r.phase? j = p.phase? j := by
    intro j
    unfold phase?
    rw [hcalls]
  refine ⟨?_, hc.phase, fun hij => (hc.others hij).trans (hphase _),
    ?_, hc.cell⟩
  · cases hc.verdict with
    | shut closed => exact Verdict.shut (hclosed ▸ closed)
    | gone openPool away =>
        exact Verdict.gone (hclosed ▸ openPool) (hentry t.key ▸ away)
    | unknown key missing => exact Verdict.unknown key (htable ▸ missing)
    | taken openPool entry knows =>
        exact Verdict.taken (hclosed ▸ openPool) (hentry t.key ▸ entry)
          (hknows.mp knows)
  · intro key c hbefore hafter
    rcases hc.entries ((hentry key).trans hbefore) hafter with ⟨hcell, hunknown⟩
    exact ⟨hcell, fun h => hunknown (hknows.mpr h)⟩

theorem concluded_of_establish {l : Nat} {old : Phase} {cell : Cell}
    (hphase : p.phase? i = some old) (hcell : p.cells[t.cell]? = some cell) :
    exists new, Concluded p (p.establish i t l) i t p.handles.length new := by
  have hfilled : cellHandle?
      { p with
        handles := p.handles ++ [⟨t.key, t.endpoint, l, p.table⟩]
        cells :=
          p.cells.modify t.cell
            (fun _ => { handle := some p.handles.length }) } t.cell =
      some p.handles.length := by
    rw [cellHandle?_eq_some]
    refine ⟨{ handle := some p.handles.length }, ?_, rfl⟩
    change (p.cells.modify t.cell _)[t.cell]? = _
    simp [hcell]
  rcases concluded_of_conclude
      (p := { p with
        handles := p.handles ++ [⟨t.key, t.endpoint, l, p.table⟩]
        cells :=
          p.cells.modify t.cell
            (fun _ => { handle := some p.handles.length }) })
      hphase hfilled with ⟨new, hnew⟩
  exact ⟨new, Concluded.of_same hnew rfl rfl rfl rfl⟩

theorem concluded_of_step {h : Nat} (hs : Seated keyAt p)
    (hc : p.Concludes i t event h) (hstep : p.step event = some q) :
    exists new, Concluded p q i t h new := by
  cases hc with
  | resume phase filled =>
      rcases cellHandle?_eq_some.mp filled with
        ⟨⟨handle, owner, queue⟩, hcell, hhandle⟩
      cases hhandle
      simp only [step, phase, resume, hcell, Option.some.injEq] at hstep
      subst hstep
      exact concluded_of_conclude phase filled
  | linked phase bare =>
      rcases hs.opening_owner (view_of_phase? Phase.opening? phase) with
        ⟨cell, hcell, _⟩
      simp only [step, phase, linked, bare, Option.some.injEq] at hstep
      subst hstep
      rcases concluded_of_establish
        (p := { p with links := p.links ++ [{ endpoint := t.endpoint }] })
        (l := p.links.length) phase hcell with ⟨new, hnew⟩
      exact ⟨new, hnew.of_same rfl rfl rfl rfl⟩
  | @accepted l phase =>
      rcases hs.opening_owner (view_of_phase? Phase.opening? phase) with
        ⟨cell, hcell, _⟩
      simp only [step, phase, accepted, Option.some.injEq] at hstep
      subst hstep
      rcases concluded_of_establish
        (p :=
          { p with
            links :=
              p.links.modify l
                (fun link => { link with isAuthenticated := true }) })
        (l := l) phase hcell with ⟨new, hnew⟩
      exact ⟨new, hnew.of_same rfl rfl rfl rfl⟩

/-! ## Calls that begin -/

inductive Begins (p : Pool) (target : Target) : Pool -> Prop where
  | shut (closed : p.isClosed = true) :
      Begins p target (p.addCall target (.finished (.error .shutdown)))
  | unresolved {e : ClusterError}
      (unknown : target.resolve p.table.table p.fallback = .error e) :
      Begins p target (p.addCall target (.finished (.error e)))
  | found {t : Ticket} (free : p.entry? t.key = none) :
      Begins p target (p.openCell target t)
  | replaced {t : Ticket} {c h : Nat}
      (resolve : target.resolve p.table.table p.fallback =
        .ok (t.key, t.endpoint))
      (entry : p.entry? t.key = some c) (filled : p.cellHandle? c = some h)
      (dead : p.isOpen h = false) :
      Begins p target ((p.removeEntry t.key).openCell target t)
  | waits {t : Ticket} (entry : p.entry? t.key = some t.cell) :
      Begins p target ((p.addCall target (.queued t)).modifyCell t.cell
        (fun cell => { cell with queue := cell.queue ++ [p.calls.length] }))
  | shares {t : Ticket} {h : Nat} {q : Pool}
      (entry : p.entry? t.key = some t.cell) (knows : p.Knows t.key)
      (done : Concluded (p.addCall target (.queued t)) q p.calls.length t h
        (.finished (.ok h))) : Begins p target q

theorem begins_of_request (target : Target) (hmanned : p.Manned) :
    Begins p target (p.request target) := by
  have hrequested := requested target hmanned
  generalize p.request target = q at hrequested
  cases hrequested with
  | shut closed => exact Begins.shut closed
  | unresolved _ unknown => exact Begins.unresolved unknown
  | found _ _ free => exact Begins.found free
  | @replaced key endpoint _ _ _ resolve entry filled dead =>
      exact Begins.replaced (t := ⟨key, endpoint, p.cells.length⟩) resolve entry
        filled dead
  | @waits key endpoint c _ _ _ _ entry _ _ _ =>
      exact Begins.waits (t := ⟨key, endpoint, c⟩) entry
  | @shares key endpoint c h openPool resolve entry filled _ =>
      have hknows := knows_of_resolve resolve
      have hphase :
          (p.addCall target (.queued ⟨key, endpoint, c⟩)).phase?
            p.calls.length = some (.queued ⟨key, endpoint, c⟩) := by
        simp
      rcases concluded_of_conclude (t := ⟨key, endpoint, c⟩) hphase filled with
        ⟨new, hdone⟩
      -- The entry has just been found, in a pool that is open.
      cases hdone.verdict with
      | shut closed =>
          change p.isClosed = true at closed
          rw [openPool] at closed
          cases closed
      | gone _ away => exact absurd entry away
      | unknown hkey missing =>
          have hcontains := hknows _ hkey
          change p.table.table.contains _ = false at missing
          rw [hcontains] at missing
          cases missing
      | taken _ _ _ =>
          exact Begins.shares (t := ⟨key, endpoint, c⟩) entry hknows hdone

/-! ## What a step does -/

def Event.Sweeps : Event -> Prop
  | .sweep _ => True
  | .drain => True
  | .cleaned _ => True
  | _ => False

inductive Deed (p : Pool) : Event -> Pool -> Prop where
  | request {target : Target} {q : Pool} (begins : Begins p target q) :
      Deed p (.request target) q
  | conclude {event : Event} {i h : Nat} {t : Ticket} {new : Phase} {q : Pool}
      (concludes : p.Concludes i t event h) (done : Concluded p q i t h new) :
      Deed p event q
  | promote {i : Nat} {t : Ticket} (phase : p.phase? i = some (.queued t)) :
      Deed p (.resume i) (p.setPhase i (.connecting t))
  | dial {i : Nat} {t : Ticket} (phase : p.phase? i = some (.connecting t)) :
      Deed p (.linked i) (p.dialLink i t)
  | notLinked {i : Nat} {t : Ticket} {e : ClusterError}
      (phase : p.phase? i = some (.connecting t)) :
      Deed p (.notLinked i e) (p.fail i t e)
  | refuse {i l : Nat} {t : Ticket} {e : ClusterError}
      (phase : p.phase? i = some (.authenticating t l)) :
      Deed p (.refused i e) (p.refused i t l e)
  | rejected {i l : Nat} {t : Ticket} {e : ClusterError}
      (phase : p.phase? i = some (.rejecting t l e)) :
      Deed p (.closed i) (p.fail i t e)
  | finish {i h : Nat} {e : ClusterError}
      (phase : p.phase? i = some (.discarding h e)) :
      Deed p (.closed i) (p.setPhase i (.finished (.error e)))
  | clean {event : Event} {q : Pool} (sweeps : event.Sweeps)
      (calls : q.calls = p.calls) : Deed p event q
  | aside {event : Event} {q : Pool} (calls : q.calls = p.calls)
      (entries : forall key, q.entry? key = p.entry? key) : Deed p event q

theorem resume_of_empty (hempty : p.cellHandle? t.cell = none)
    (h : p.resume i t = some q) : q = p.setPhase i (.connecting t) := by
  unfold resume at h
  cases hcell : p.cells[t.cell]? with
  | none => simp [hcell] at h
  | some cell =>
      rcases cell with ⟨handle, owner, queue⟩
      cases handle with
      | some n => simp [cellHandle?, hcell] at hempty
      | none =>
          simp only [hcell] at h
          by_cases howner : owner = some i
          · rw [if_pos howner, Option.some.injEq] at h
            exact h.symm
          · rw [if_neg howner] at h
            cases h

@[simp]
theorem calls_runChores (p : Pool) (chores : List Chore) :
    (p.runChores chores).1.calls = p.calls := by
  rw [(tidied_runChores p chores).1.frame]

theorem deed_of_step (hs : Seated keyAt p) (hstep : p.step event = some q) :
    Deed p event q := by
  have hconclude {j h : Nat} {u : Ticket} (hc : p.Concludes j u event h) :
      Deed p event q := by
    rcases concluded_of_step hs hc hstep with ⟨_, hdone⟩
    exact Deed.conclude hc hdone
  cases taken_of_step hstep with
  | request target => exact Deed.request (begins_of_request target hs.manned)
  | @resume _ u _ phase resumed =>
      cases hfilled : p.cellHandle? u.cell with
      | some h => exact hconclude (Concludes.resume phase hfilled)
      | none =>
          rw [resume_of_empty hfilled resumed]
          exact Deed.promote phase
  | @linked j u phase =>
      cases hcredential : u.endpoint.credential with
      | none => exact hconclude (Concludes.linked phase hcredential)
      | some password =>
          have hdial : p.linked j u = p.dialLink j u := by
            simp only [linked, hcredential, dialLink]
          rw [hdial]
          exact Deed.dial phase
  | notLinked phase => exact Deed.notLinked phase
  | accepted phase => exact hconclude (Concludes.accepted phase)
  | refused phase => exact Deed.refuse phase
  | rejected phase => exact Deed.rejected phase
  | discarded phase => exact Deed.finish phase
  | apply table => exact Deed.aside rfl (fun _ => rfl)
  | sweep table =>
      exact Deed.clean trivial
        (calls_runChores
          { p with entries := p.entries.filter (fun e => !e.1.isStale table) }
          _)
  | drain =>
      exact Deed.clean trivial (calls_runChores { p with isClosed := true } _)
  | @cleaned _ c found => exact Deed.clean trivial (calls_runChores p c.chores)
  | broke l => exact Deed.aside rfl (fun _ => rfl)
  | closeHandle h =>
      rcases closeHandle_eq p h with ⟨links, heq, _⟩
      rw [heq]
      exact Deed.aside rfl (fun _ => rfl)
  | reordered perm leads => exact Deed.aside rfl leads

/-! ## What a step makes of a call -/

inductive Turn (p q : Pool) (i : Nat) : Event -> Phase -> Prop where
  | began {target : Target} {t : Ticket} {new : Phase}
      (ticket : new.ticket? = some t) (sound : new.error? = none)
      (entry : q.entry? t.key = some t.cell) : Turn p q i (.request target) new
  | served {target : Target} {h : Nat} :
      Turn p q i (.request target) (.finished (.ok h))
  | shut {target : Target} (added : i = p.calls.length)
      (closed : p.isClosed = true) :
      Turn p q i (.request target) (.finished (.error .shutdown))
  | unresolved {target : Target} {e : ClusterError} (added : i = p.calls.length)
      (unknown : target.resolve p.table.table p.fallback = .error e) :
      Turn p q i (.request target) (.finished (.error e))
  | proceeds {event : Event} {t : Ticket} {new : Phase}
      (before : p.view Phase.ticket? i = some t) (after : new.ticket? = some t)
      (sound : new.error? = none) : Turn p q i event new
  | notLinked {t : Ticket} {e : ClusterError}
      (phase : p.phase? i = some (.connecting t)) :
      Turn p q i (.notLinked i e) (.finished (.error e))
  | refused {t : Ticket} {l : Nat} {e : ClusterError}
      (phase : p.phase? i = some (.authenticating t l)) :
      Turn p q i (.refused i e) (.rejecting t l (.ofHandshake t.endpoint e))
  | concluded {event : Event} {t : Ticket} {h : Nat} {new : Phase}
      (concludes : p.Concludes i t event h) (done : Concluded p q i t h new) :
      Turn p q i event new
  | ended {e : ClusterError} (before : p.view Phase.error? i = some e) :
      Turn p q i (.closed i) (.finished (.error e))

theorem turn_of_begins {target : Target} {new : Phase} (h : Begins p target q)
    (hnew : q.phase? i = some new) :
    p.phase? i = some new ∨ Turn p q i (.request target) new := by
  have hadded {phase : Phase}
      (hturn : i = p.calls.length -> Turn p q i (.request target) phase)
      (hphase : (if i = p.calls.length then some phase else p.phase? i) =
        some new) : p.phase? i = some new ∨
      Turn p q i (.request target) new := by
    by_cases hi : i = p.calls.length
    · rw [if_pos hi, Option.some.injEq] at hphase
      exact Or.inr (hphase ▸ hturn hi)
    · rw [if_neg hi] at hphase
      exact Or.inl hphase
  cases h with
  | shut closed =>
      rw [phase?_addCall] at hnew
      exact hadded (fun hi => Turn.shut hi closed) hnew
  | unresolved unknown =>
      rw [phase?_addCall] at hnew
      exact hadded (fun hi => Turn.unresolved hi unknown) hnew
  | @found t free =>
      rw [phase?_openCell] at hnew
      refine hadded (fun _ => Turn.began (t := t) rfl rfl ?_) hnew
      rw [entry?_openCell target free, if_pos rfl]
  | @replaced t c h resolve entry filled dead =>
      rw [phase?_openCell] at hnew
      refine hadded (fun _ => Turn.began (t := t) rfl rfl ?_) hnew
      have hfree : Pool.entry? (p.removeEntry t.key) t.key = none := by
        simp
      rw [entry?_openCell target hfree, if_pos rfl]
  | @waits t entry =>
      have hphase : (p.addCall target (.queued t)).phase? i = some new := hnew
      rw [phase?_addCall] at hphase
      exact hadded (fun _ => Turn.began (t := t) rfl rfl entry) hphase
  | @shares t h _ entry knows done =>
      by_cases hi : p.calls.length = i
      · subst hi
        rw [done.phase, Option.some.injEq] at hnew
        exact Or.inr (hnew ▸ Turn.served)
      · rw [done.others hi, phase?_addCall, if_neg (Ne.symm hi)] at hnew
        exact Or.inl hnew

theorem phase?_fail_of_opening (hs : Seated keyAt p) {old : Phase}
    (error : ClusterError) (hold : p.phase? i = some old)
    (hopening : old.opening? = some t) (j : Nat) :
    (p.fail i t error).phase? j =
      if i = j then some (.finished (.error error)) else p.phase? j := by
  rcases hs.opening_cell ((view_of_phase? _ hold).trans hopening) with
    ⟨cell, hcell, _, hempty⟩
  exact phase?_fail error (by simp [cellHandle?, hcell, hempty]) hold j

/-- A step leaves a call as it was, or it is a turn of the call. -/
theorem turn_of_step (hs : Seated keyAt p) (hstep : p.step event = some q)
    {new : Phase} (hnew : q.phase? i = some new) :
    p.phase? i = some new ∨ Turn p q i event new := by
  have hone {j : Nat} {phase : Phase} (hturn : Turn p q j event phase)
      (hphase : (if j = i then some phase else p.phase? i) = some new) :
      p.phase? i = some new ∨ Turn p q i event new := by
    by_cases hj : j = i
    · subst hj
      rw [if_pos rfl, Option.some.injEq] at hphase
      exact Or.inr (hphase ▸ hturn)
    · rw [if_neg hj] at hphase
      exact Or.inl hphase
  have hset {j : Nat} {old phase : Phase} (hold : p.phase? j = some old)
      (hq : (p.setPhase j phase).phase? i = some new) :
      (if j = i then some phase else p.phase? i) = some new := by
    rw [← hq, phase?_setPhase]
    by_cases hj : j = i
    · subst hj
      rw [if_pos rfl, if_pos rfl, hold]
      rfl
    · rw [if_neg hj, if_neg hj]
  have hframe (hcalls : q.calls = p.calls) :
      p.phase? i = some new ∨ Turn p q i event new := by
    unfold phase? at hnew
    rw [hcalls] at hnew
    exact Or.inl hnew
  cases deed_of_step hs hstep with
  | request begins => exact turn_of_begins begins hnew
  | @conclude _ j h t phase _ concludes done =>
      by_cases hj : j = i
      · subst hj
        rw [done.phase, Option.some.injEq] at hnew
        exact Or.inr (hnew ▸ Turn.concluded concludes done)
      · rw [done.others hj] at hnew
        exact Or.inl hnew
  | promote phase =>
      exact hone (Turn.proceeds (view_of_phase? _ phase) rfl rfl)
        (hset phase hnew)
  | dial phase =>
      rw [phase?_dialLink phase] at hnew
      exact hone (Turn.proceeds (view_of_phase? _ phase) rfl rfl) hnew
  | notLinked phase =>
      rw [phase?_fail_of_opening hs _ phase rfl] at hnew
      exact hone (Turn.notLinked phase) hnew
  | refuse phase => exact hone (Turn.refused phase) (hset phase hnew)
  | rejected phase =>
      rw [phase?_fail_of_opening hs _ phase rfl] at hnew
      exact hone (Turn.ended (view_of_phase? _ phase)) hnew
  | finish phase =>
      exact hone (Turn.ended (view_of_phase? _ phase)) (hset phase hnew)
  | clean sweeps calls => exact hframe calls
  | aside calls entries => exact hframe calls

end Pool
end SlotCluster
