import SlotCluster.Proofs.Pool.CallTargets
import SlotCluster.Proofs.Pool.Evictions
import SlotCluster.Proofs.Pool.NoLeak
import SlotCluster.Proofs.Pool.Progress

/-!
# What a sweep does

A sweep takes its entries away in one step, and afterwards it closes what it
finds in their cells, one connection after the other.  Other calls go on all the
time, but they cannot get at a cell that has lost its entry, unless they have
found it before.  Such a call closes what it gets or opens, and ends with an
error.

So the sweep and the calls that it has caught close the connections of the
entries that have been taken away, and the links of all other entries and calls
are none of their business.
-/

namespace SlotCluster
namespace Pool

variable {keyAt : Nat -> Target} {p q r : Pool} {event : Event} {i c n l : Nat}
  {t : Ticket} {known : Table} {gone : List (Target × Nat)}

def stale (p : Pool) (known : Table) : List (Target × Nat) :=
  p.entries.filter (fun e => e.1.isStale known)

theorem mem_stale {e : Target × Nat} :
    e ∈ p.stale known <-> e ∈ p.entries ∧ e.1.isStale known = true :=
  List.mem_filter

/-! ## What is left alone -/

/-- Only links and the list of cleanups have changed, apart from entries.  The
links of the entries that are left and of the calls that are opening a
connection are as they were, and so is every link that is not in a cell of the
given entries. -/
structure Spared (gone : List (Target × Nat)) (p q : Pool) :
    Prop extends Untouched p q where
  handshakes : forall {i l : Nat}, q.view Phase.handshake? i = some l ->
    q.links[l]? = p.links[l]?
  others : forall {l : Nat},
    (forall {e : Target × Nat}, e ∈ gone -> q.entryLink? e ≠ some l) ->
    q.links[l]? = p.links[l]?

theorem spared_of_runChores (entries : List (Target × Nat))
    {chores : List Chore} (hw : Wired keyAt { p with entries })
    (h : Untouched p q)
    (hchores : forall {chore : Chore}, chore ∈ chores ->
      exists e, e ∈ gone ∧ chore = .cell e.2)
    (hlinks : q.links = (runChores { p with entries } chores).1.links) :
    Spared gone p q where
  toUntouched := h
  handshakes := by
    intro i l hi
    rw [hlinks]
    apply links_runChores
    intro chore c g key _ _ _ hwire
    refine hw.handshake_free (i := i) ?_ hwire
    rw [h.frame] at hi
    exact hi
  others := by
    intro l hfree
    rw [hlinks]
    apply links_runChores
    intro chore c g key hmem habout hcell hwire
    rcases hchores hmem with ⟨e, he, rfl⟩
    cases habout
    exact hfree he (entryLink?_eq_some.mpr
      ⟨g, key, (h.cellHandle?_eq e.2).trans hcell, (h.wire?_eq g).trans hwire⟩)

theorem spared_sweep (hp : Sound p) (known : Table) :
    Spared (p.stale known) p (p.sweep known) := by
  have hswept : Sound (p.swept known) := hp.clean rfl List.filter_sublist rfl
  rcases hswept with ⟨keyAt, _, hw⟩
  refine spared_of_runChores _ hw (untouched_sweep hp known).2
    (fun hmem => ?_) rfl
  rcases List.mem_map.mp hmem with ⟨e, he, rfl⟩
  exact ⟨e, he, rfl⟩

/-! ## The sweep among the cleanups -/

def Clearing (n : Nat) (gone : List (Target × Nat)) (p : Pool) : Prop :=
  exists k, p.cleanups[n]? = some k ∧ k.evicted = gone.length ∧
    k.chores.Sublist (gone.map (fun e => .cell e.2))

theorem clearing_of_sweep (p : Pool) (known : Table) :
    Clearing p.cleanups.length (p.stale known) (p.sweep known) := by
  rcases cleanup_of_sweep p known with ⟨k, hk, hchores, hevicted⟩
  refine ⟨k, hk, hevicted, ?_⟩
  rw [hchores]
  exact (tidied_runChores (p.swept known) _).1.left

theorem Clearing.step (hp : Sound p) (h : Clearing n gone p)
    (hstep : p.step event = some q) : Clearing n gone q := by
  rcases h with ⟨k, hk, hevicted, hchores⟩
  rcases cleanup_of_kind (hp.kind_of hstep) hk with ⟨m, hm, hdwindles, _⟩
  exact ⟨m, hm, hdwindles.evicted.trans hevicted,
    hdwindles.chores.trans hchores⟩

theorem spared_cleaned (hp : Sound p) (hsweeping : Sweeping n p)
    (h : Clearing n gone p) (hstep : p.step (.cleaned n) = some q) :
    q.entries = p.entries ∧ Spared gone p q := by
  rcases untouched_cleaned hp hsweeping hstep with ⟨hentries, huntouched⟩
  rcases hp with ⟨keyAt, _, hw⟩
  rcases h with ⟨k, hk, _, hchores⟩
  cases taken_of_step hstep with
  | @cleaned _ found hfound =>
      rw [hk, Option.some.injEq] at hfound
      subst hfound
      refine ⟨hentries,
        spared_of_runChores p.entries hw huntouched (fun hmem => ?_) rfl⟩
      rcases List.mem_map.mp (hchores.subset hmem) with ⟨e, he, rfl⟩
      exact ⟨e, he, rfl⟩

theorem returned_of_cleanup {k : Cleanup} (hk : p.cleanups[n]? = some k) :
    exists rest q,
      (forall {event : Event}, event ∈ rest -> event = .cleaned n) ∧
      p.run rest = some q ∧ q.Returned n := by
  -- Induction on what is left to do.
  generalize hlength : k.chores.length = left
  induction left using Nat.strongRecOn generalizing p k with
  | ind left ih =>
      cases hclosing : k.closing with
      | none => exact ⟨[], p, nofun, rfl, k, hk, hclosing⟩
      | some link =>
          rcases cleaned_of_closing hk (by rw [hclosing]; rfl) with
            ⟨q, m, hstep, hm, hdone | hless⟩
          · refine ⟨[.cleaned n], q, fun hmem => List.mem_singleton.mp hmem, ?_,
              m, hm, hdone⟩
            exact run_cons.mpr ⟨q, hstep, rfl⟩
          · rcases ih m.chores.length (hlength ▸ hless) hm rfl with
              ⟨rest, s, hrest, hrun, hreturned⟩
            refine ⟨.cleaned n :: rest, s, fun hmem => ?_,
              run_cons.mpr ⟨q, hstep, hrun⟩, hreturned⟩
            rcases List.mem_cons.mp hmem with hfirst | hlater
            · exact hfirst
            · exact hrest hlater

/-!
## Links that the sweep closes

Either a chore is left, or the link in its cell has been asked to close.
-/

theorem closings_closeLink (hlt : l < p.links.length) :
    (p.closeLink l).closings l = p.closings l + 1 := by
  change closings { p with links := p.links.modify l _ } l = _
  rw [closings_modify, if_pos rfl]
  unfold closings
  rw [List.getElem?_eq_getElem hlt]
  rfl

theorem asked_of_runChores {chores : List Chore} {h : Nat} {key : Target}
    (hchore : .cell c ∈ chores) (hcell : p.cellHandle? c = some h)
    (hwire : p.wire? h = some (key, l)) (hlt : l < p.links.length) :
    .cell c ∈ (p.runChores chores).2.1 ∨
      p.closings l < (p.runChores chores).1.closings l := by
  induction chores generalizing p with
  | nil => cases hchore
  | cons chore rest ih =>
      rcases List.mem_cons.mp hchore with hfirst | hlater
      · subst hfirst
        rcases wire?_eq_some.mp hwire with ⟨handle, hhandle, _, hlink⟩
        unfold runChores
        simp only [takeChore, Option.bind_some, hcell, hhandle, hlink]
        right
        rw [closings_closeLink hlt]
        exact Nat.lt_succ_self _
      · unfold runChores
        dsimp only
        split
        · exact Or.inl hlater
        · have htaken : (p.takeChore chore).1 =
              { p with entries := (p.takeChore chore).1.entries } := by
            cases chore <;> rfl
          have hrest :=
            ih (p := (p.takeChore chore).1) hlater (by rw [htaken]; exact hcell)
              (by rw [htaken]; exact hwire) (by rw [htaken]; exact hlt)
          have hsame : (p.takeChore chore).1.closings l = p.closings l := by
            rw [htaken]
            rfl
          rw [hsame] at hrest
          exact hrest

theorem Sound.wire_lt {h : Nat} {key : Target} (hp : Sound p)
    (hwire : p.wire? h = some (key, l)) : l < p.links.length := by
  rcases hp with ⟨keyAt, _, hw⟩
  exact hw.wire_lt hwire

/-- The link in the cell has been asked to close more often than before, or the
cleanup has still to look at the cell. -/
structure Owed (n c l before : Nat) (p : Pool) : Prop where
  carried : exists h key, p.cellHandle? c = some h ∧ p.wire? h = some (key, l)
  least : before ≤ p.closings l
  asked : before < p.closings l ∨
    exists k, p.cleanups[n]? = some k ∧ Chore.cell c ∈ k.chores

theorem owed_of_sweep (hp : Sound p) {e : Target × Nat} (he : e ∈ p.stale known)
    (hl : p.entryLink? e = some l) :
    Owed p.cleanups.length e.2 l (p.closings l) (p.sweep known) := by
  rcases entryLink?_eq_some.mp hl with ⟨h, key, hcell, hwire⟩
  have huntouched := (untouched_sweep hp known).2
  have hstep : p.step (.sweep known) = some (p.sweep known) := rfl
  refine ⟨⟨h, key, (huntouched.cellHandle?_eq _).trans hcell,
    (huntouched.wire?_eq _).trans hwire⟩, closings_of_step hstep l, ?_⟩
  have hlt : l < p.links.length := hp.wire_lt hwire
  have hchore : Chore.cell e.2 ∈ p.staleChores known :=
    List.mem_map_of_mem (f := fun e => Chore.cell e.2) he
  rcases asked_of_runChores (p := p.swept known) hchore hcell hwire hlt with
    hleft | hasked
  · rcases cleanup_of_sweep p known with ⟨k, hk, hchores, _⟩
    exact Or.inr ⟨k, hk, hchores ▸ hleft⟩
  · exact Or.inl hasked

theorem Owed.step {before : Nat} (hp : Sound p) (h : Owed n c l before p)
    (hstep : p.step event = some q) : Owed n c l before q := by
  rcases h.carried with ⟨g, key, hcell, hwire⟩
  have hmore := closings_of_step hstep l
  refine ⟨⟨g, key, (Aged.step hp hstep).cell_kept hcell,
    wire?_of_step hstep hwire⟩, Nat.le_trans h.least hmore, ?_⟩
  rcases h.asked with hasked | ⟨k, hk, hchore⟩
  · exact Or.inl (Nat.lt_of_lt_of_le hasked hmore)
  · by_cases hevent : event = .cleaned n
    · subst hevent
      cases taken_of_step hstep with
      | @cleaned _ found hfound =>
          rw [hk, Option.some.injEq] at hfound
          subst hfound
          have hlt : l < p.links.length := hp.wire_lt hwire
          rcases asked_of_runChores hchore hcell hwire hlt with hleft | hasked
          · refine Or.inr
              ⟨{ k with
                chores := (p.runChores k.chores).2.1
                closing := (p.runChores k.chores).2.2 }, ?_, hleft⟩
            rw [cleanups_continueCleanup]
            exact List.getElem?_set_self (List.getElem?_eq_some_iff.mp hk).1
          · exact Or.inl (Nat.lt_of_le_of_lt h.least hasked)
    · rcases cleanup_of_kind (hp.kind_of hstep) hk with ⟨m, hm, _, hsame⟩
      exact Or.inr ⟨m, hm, hsame hevent ▸ hchore⟩

theorem Owed.paid {before : Nat} (hp : Tended p) (h : Owed n c l before p)
    {k : Cleanup} (hk : p.cleanups[n]? = some k) (hidle : k.closing = none) :
    before < p.closings l := by
  rcases h.asked with hasked | ⟨m, hm, hchore⟩
  · exact hasked
  · rw [hk, Option.some.injEq] at hm
    rw [← hm, hp.idle (List.mem_of_getElem? hk) hidle] at hchore
    cases hchore

/-! ## Calls that are caught -/

/-- The call waits or opens a connection for the cell, or it is about to end
with an error, or has done so. -/
inductive Phase.Caught (c : Nat) : Phase -> Prop where
  | held {phase : Phase} {t : Ticket} (ticket : phase.ticket? = some t)
      (cell : t.cell = c) : Caught c phase
  | discards (h : Nat) (error : ClusterError) : Caught c (.discarding h error)
  | failed (error : ClusterError) : Caught c (.finished (.error error))

/-- A call for a cell that has lost its entry does not get out. -/
theorem caught_of_step (hs : Seated keyAt p) (hp : Evicted c p)
    (hstep : p.step event = some q) {old : Phase} (hold : p.phase? i = some old)
    (hcaught : old.Caught c) :
    exists new, q.phase? i = some new ∧ new.Caught c := by
  have hfollows := follows_of_step hs hstep i
  rw [hold] at hfollows
  generalize q.phase? i = new at hfollows
  cases hfollows with
  | stays _ => exact ⟨old, rfl, hcaught⟩
  | promoted =>
      cases hcaught with
      | held ticket cell => exact ⟨_, rfl, Phase.Caught.held ticket cell⟩
  | dialed _ =>
      cases hcaught with
      | held ticket cell => exact ⟨_, rfl, Phase.Caught.held ticket cell⟩
  | refused =>
      cases hcaught with
      | held ticket cell => exact ⟨_, rfl, Phase.Caught.held ticket cell⟩
  | @concluded _ new t h ticket verdict =>
      refine ⟨new, rfl, ?_⟩
      cases verdict with
      | shut _ => exact Phase.Caught.discards h _
      | gone _ _ => exact Phase.Caught.discards h _
      | unknown _ _ => exact Phase.Caught.discards h _
      | taken _ entry _ =>
          cases hcaught with
          | held own cell =>
              rw [ticket, Option.some.injEq] at own
              subst own
              exact absurd (cell ▸ entry) (hp.free t.key)
          | discards _ _ => cases ticket
          | failed _ => cases ticket
  | failed _ => exact ⟨_, rfl, Phase.Caught.failed _⟩
  | closed => exact ⟨_, rfl, Phase.Caught.failed _⟩

theorem caught_of_run {events : List Event} (hp : Sound p) (hc : Evicted c p)
    (hrun : p.run events = some q) {old : Phase} (hold : p.phase? i = some old)
    (hcaught : old.Caught c) :
    exists new, q.phase? i = some new ∧ new.Caught c := by
  refine (hp.induction
    (I :=
      fun p => Evicted c p ∧ exists new, p.phase? i = some new ∧ new.Caught c)
    ⟨hc, old, hold, hcaught⟩ hrun ?_).2
  rintro p q event hp ⟨hc, new, hnew, hcaught⟩ hstep
  refine ⟨hc.aged (Aged.step hp hstep), ?_⟩
  rcases hp with ⟨keyAt, hs, _⟩
  exact caught_of_step hs hc hstep hnew hcaught

/-!
## What becomes of a link

A call that waits for the answer to its credential goes on waiting until it has
the answer.
-/

theorem Settled.closed (h : Settled p q) (hlt : l < p.links.length)
    (hl : p.isLinkOpen l = false) :
    l < q.links.length ∧ q.isLinkOpen l = false := by
  refine ⟨Nat.lt_of_lt_of_le hlt h.length, ?_⟩
  rw [Bool.eq_false_iff]
  intro hopen
  rw [h.links hlt hopen] at hl
  cases hl

theorem closed_of_step (hstep : p.step event = some q)
    (hlt : l < p.links.length) (hl : p.isLinkOpen l = false) :
    l < q.links.length ∧ q.isLinkOpen l = false := by
  rcases settled_or_established hstep with
    hsettled | ⟨i, t, own, links, hlinks, rfl⟩
  · exact hsettled.closed hlt hl
  · rcases hlinks.closed hlt hl with ⟨hstill, hclosed⟩
    exact (Settled.conclude (filled { p with links } t own) i t
      p.handles.length).closed hstill hclosed

/-- The link that has been opened for a call waits for the answer to the
credential, has closed, or is in the connection with which the call has
ended. -/
inductive Traced (p : Pool) (i l : Nat) : Prop where
  | waits {t : Ticket} (phase : p.phase? i = some (.authenticating t l))
  | closed (known : l < p.links.length) (done : p.isLinkOpen l = false)
  | served {h : Nat} (phase : p.phase? i = some (.finished (.ok h)))

theorem closed_of_discard {h : Nat} {key : Target} (error : ClusterError)
    (hwire : p.wire? h = some (key, l)) :
    (p.discard i h error).isLinkOpen l = false := by
  rw [Bool.eq_false_iff]
  intro hopen
  have hlive : (p.discard i h error).isOpen h = true := by
    refine isOpen_iff_wire.mpr ⟨key, l, ?_, hopen⟩
    rcases closeHandle_eq p h with ⟨links, heq, _⟩
    unfold discard
    rw [heq]
    exact hwire
  rw [isOpen_discard] at hlive
  cases hlive

theorem closed_or_served {h : Nat} {key : Target} {old : Phase}
    (hi : p.phase? i = some old) (hwire : p.wire? h = some (key, l)) :
    (p.conclude i t h).isLinkOpen l = false ∨
      (p.conclude i t h).phase? i = some (.finished (.ok h)) := by
  unfold conclude
  split
  · exact Or.inl (closed_of_discard _ hwire)
  · split
    · split
      · exact Or.inl (closed_of_discard (p := p.removeEntry _) _ hwire)
      · exact Or.inr (phase?_setPhase_self _ hi)
    · exact Or.inr (phase?_setPhase_self _ hi)

theorem traced_of_establish {old : Phase} (hi : p.phase? i = some old)
    (hlt : l < p.links.length) : Traced (p.establish i t l) i l := by
  have hwire : (p.filled t l).wire? p.handles.length = some (t.key, l) := by
    change ((p.handles ++ [_])[p.handles.length]?).map _ = _
    rw [List.getElem?_concat_length]
    rfl
  rcases closed_or_served (p := p.filled t l) (t := t) hi hwire with
    hclosed | hserved
  · exact Traced.closed
      (Nat.lt_of_lt_of_le hlt (Settled.conclude (p.filled t l) i t _).length)
      hclosed
  · exact Traced.served hserved

theorem traced_of_linked (hi : p.phase? i = some (.connecting t))
    (hstep : p.step (.linked i) = some q) : Traced q i p.links.length := by
  simp only [step, hi, Option.some.injEq] at hstep
  subst hstep
  unfold linked
  cases t.endpoint.credential with
  | some password =>
      exact Traced.waits
        (phase?_setPhase_self
          (p :=
            { p with links := p.links ++ [{ endpoint := t.endpoint }] }) _ hi)
  | none =>
      apply traced_of_establish
        (p := { p with links := p.links ++ [{ endpoint := t.endpoint }] }) hi
      rw [List.length_append]
      exact Nat.lt_succ_self _

theorem answered_of_step (hs : Seated keyAt p) (hstep : p.step event = some q)
    (hi : p.phase? i = some (.authenticating t l)) :
    q.phase? i = p.phase? i ∨ q = p.accepted i t l ∨
      exists error, q = p.refused i t l error := by
  have hother {j : Nat} {old : Phase} (hold : p.phase? j = some old)
      (hcalm : old.handshake? = none) : j ≠ i := by
    intro hij
    rw [hij, hi, Option.some.injEq] at hold
    rw [← hold] at hcalm
    cases hcalm
  have hframe (hcalls : q.calls = p.calls) : q.phase? i = p.phase? i := by
    unfold phase?
    rw [hcalls]
  cases deed_of_step hs hstep with
  | request begins =>
      rcases phase?_of_begins begins i with hsame | ⟨hnew, _⟩
      · exact Or.inl hsame
      · exact absurd (phase?_lt hi) (Nat.not_lt.mpr (Nat.le_of_eq hnew.symm))
  | @conclude _ j h u new _ concludes done =>
      by_cases hij : j = i
      · subst hij
        cases concludes with
        | resume phase _ => exact absurd rfl (hother phase rfl)
        | linked phase _ => exact absurd rfl (hother phase rfl)
        | accepted phase =>
            simp only [step, hi, Option.some.injEq] at hstep
            exact Or.inr (Or.inl hstep.symm)
      · exact Or.inl (done.others hij)
  | promote phase => exact Or.inl (phase?_setPhase_of_ne p _ (hother phase rfl))
  | dial phase =>
      left
      rw [phase?_dialLink phase, if_neg (hother phase rfl)]
  | notLinked phase =>
      left
      rw [phase?_fail_of_opening hs _ phase rfl, if_neg (hother phase rfl)]
  | @refuse j m u e phase =>
      by_cases hij : j = i
      · subst hij
        rw [hi, Option.some.injEq, Phase.authenticating.injEq] at phase
        rcases phase with ⟨rfl, rfl⟩
        exact Or.inr (Or.inr ⟨e, rfl⟩)
      · exact Or.inl (phase?_setPhase_of_ne (p.closeLink m) _ hij)
  | rejected phase =>
      left
      rw [phase?_fail_of_opening hs _ phase rfl, if_neg (hother phase rfl)]
  | finish phase => exact Or.inl (phase?_setPhase_of_ne p _ (hother phase rfl))
  | clean _ calls => exact Or.inl (hframe calls)
  | aside calls _ => exact Or.inl (hframe calls)

theorem Traced.step (hp : Sound p) (h : Traced p i l)
    (hstep : p.step event = some q) : Traced q i l := by
  rcases hp with ⟨keyAt, hs, hw⟩
  cases h with
  | closed known done =>
      rcases closed_of_step hstep known done with ⟨hknown, hdone⟩
      exact Traced.closed hknown hdone
  | served phase => exact Traced.served (finished_of_step hs hstep phase)
  | @waits t phase =>
      have hlt : l < p.links.length :=
        hw.handshake_lt (view_of_phase? Phase.handshake? phase)
      rcases answered_of_step hs hstep phase with hsame | rfl | ⟨error, rfl⟩
      · exact Traced.waits (hsame.trans phase)
      · apply traced_of_establish
          (p := { p with links := p.links.modify l _ }) phase
        rw [List.length_modify]
        exact hlt
      · apply Traced.closed
        · change l < (p.links.modify l _).length
          rw [List.length_modify]
          exact hlt
        · change (p.closeLink l).isLinkOpen l = false
          rw [isLinkOpen_closeLink]
          simp

theorem Traced.run {events : List Event} (hp : Sound p) (h : Traced p i l)
    (hrun : p.run events = some q) : Traced q i l :=
  hp.induction (I := fun p => Traced p i l) h hrun
    (fun hp hi hr => hi.step hp hr)

/-- All links that have been opened for a call are closed when it has ended with
an error. -/
theorem closed_of_failed {before after : List Event} {b : Pool}
    {error : ClusterError} (hp : Sound p)
    (hrun : p.run (before ++ .linked i :: after) = some r)
    (hb : p.run before = some b)
    (hi : r.phase? i = some (.finished (.error error))) :
    r.isLinkOpen b.links.length = false := by
  rcases run_split.mp hrun with ⟨b', q, hb', hstep, hafter⟩
  cases hb.symm.trans hb'
  cases taken_of_step hstep with
  | linked phase =>
      have htraced :=
        (traced_of_linked phase hstep).run ((hp.run hb).step hstep) hafter
      cases htraced with
      | waits phase => cases hi.symm.trans phase
      | closed _ done => exact done
      | served phase => cases hi.symm.trans phase

/-- A call that is caught can come to its end, and that is an error. -/
theorem fails_of_caught (hp : Sound p) (ha : Attended p) (hc : Evicted c p)
    {phase : Phase} (hi : p.phase? i = some phase) (hcaught : phase.Caught c) :
    exists events q error,
      p.run events = some q ∧ q.phase? i = some (.finished (.error error)) := by
  rcases ends_of_phase hp ha hi with ⟨events, q, result, hrun, _, hresult⟩
  rcases caught_of_run hp hc hrun hi hcaught with ⟨new, hnew, hstill⟩
  rw [hresult, Option.some.injEq] at hnew
  subst hnew
  cases hstill with
  | held ticket _ => cases ticket
  | failed error => exact ⟨events, q, error, hrun, hresult⟩

/-! ## All that a sweep does -/

/-- What a sweep of a pool has done and is going to do, at a later moment.  It
has returned once its cleanup waits for nothing. -/
structure Swept (p : Pool) (known : Table) (r : Pool) : Prop where
  spares : forall {s : Pool}, r.step (.cleaned p.cleanups.length) = some s ->
    s.entries = r.entries ∧ Spared (p.stale known) r s
  returns : exists rest s,
    (forall {event : Event}, event ∈ rest ->
      event = .cleaned p.cleanups.length) ∧ r.run rest = some s ∧
    s.Returned p.cleanups.length
  result : exists k, r.cleanups[p.cleanups.length]? = some k ∧
    k.evicted = (p.stale known).length ∧
    (k.closing = none ->
      forall {e : Target × Nat} {l : Nat}, e ∈ p.stale known ->
      p.entryLink? e = some l ->
      r.isLinkOpen l = false ∧ p.closings l < r.closings l)

theorem swept_of_run (hp : Sound p) (ht : Tended p) {more : List Event}
    (hmore : (p.sweep known).run more = some r) : Swept p known r := by
  have hstep : p.step (.sweep known) = some (p.sweep known) := rfl
  have hsweep : Sound (p.sweep known) := hp.step hstep
  have hr : Sound r := hsweep.run hmore
  have htended : Tended r := (ht.kind (Kind.sweep known)).run hsweep hmore
  have hclearing : Clearing p.cleanups.length (p.stale known) r :=
    hsweep.induction (clearing_of_sweep p known) hmore
      (fun hp hi hr => Clearing.step hp hi hr)
  rcases hclearing with ⟨k, hk, hevicted, hchores⟩
  refine ⟨fun hcleaned => ?_, returned_of_cleanup hk, k, hk, hevicted,
    fun hidle {e l} he hl => ?_⟩
  · exact spared_cleaned hr ((sweeping_of_sweep hp known).run hsweep hmore)
      ⟨k, hk, hevicted, hchores⟩ hcleaned
  · have howed : Owed p.cleanups.length e.2 l (p.closings l) r :=
      hsweep.induction (owed_of_sweep hp he hl) hmore
        (fun hp hi hr => Owed.step hp hi hr)
    rcases mem_stale.mp he with ⟨hentry, hstale⟩
    have hshut : Shut r e.2 := by
      refine ((leaving_of_sweep hp hentry hstale).run hsweep hmore).shut htended
        (fun hm => ?_)
      rw [hk, Option.some.injEq] at hm
      exact hm ▸ hidle
    rcases howed.carried with ⟨h, key, hcell, hwire⟩
    exact ⟨hshut h l key hcell hwire, howed.paid htended hk hidle⟩

/-- Whatever has happened to a pool: a sweep takes exactly the entries away
whose target the table does not know, leaves everything else alone in each of
its steps, comes to its end, and has then closed the connections of those
entries.  A call that has been on its way to one of them can come to its end,
ends with nothing but an error, and then every link is closed that has been
opened for it. -/
theorem sweep_exact {table : Shared} {fallback : Endpoint} {events : List Event}
    {p : Pool} (hrun : run { table, fallback } events = some p)
    (known : Table) :
    exists q, p.step (.sweep known) = some q ∧
      q.entries = p.entries.filter (fun e => !e.1.isStale known) ∧
        Spared (p.stale known) p q ∧
      forall {more : List Event} {r : Pool}, q.run more = some r ->
        Swept p known r ∧
        forall {e : Target × Nat} {i : Nat} {t : Ticket}, e ∈ p.stale known ->
          p.view Phase.ticket? i = some t -> t.cell = e.2 ->
            (exists rest s error,
              r.run rest = some s ∧
              s.phase? i = some (.finished (.error error))) ∧
            forall {result : Except ClusterError Nat},
              r.phase? i = some (.finished result) ->
              (exists error, result = .error error) ∧
              forall {before after : List Event} {b : Pool},
                events ++ .sweep known :: more = before ++ .linked i :: after ->
                  run { table, fallback } before = some b ->
                    r.isLinkOpen b.links.length = false := by
  have hstart : Sound { table, fallback } := Sound.start table fallback
  have hp : Sound p := hstart.run hrun
  have ht : Tended p := (Tended.start table fallback).run hstart hrun
  have hstep : p.step (.sweep known) = some (p.sweep known) := rfl
  have hsweep : Sound (p.sweep known) := hp.step hstep
  refine ⟨p.sweep known, hstep, (untouched_sweep hp known).1,
    spared_sweep hp known, fun {more r} hmore => ?_⟩
  refine ⟨swept_of_run hp ht hmore, fun {e i t} he hticket hcell => ?_⟩
  have hwhole :
      run { table, fallback } (events ++ .sweep known :: more) = some r :=
    run_split.mpr ⟨p, _, hrun, hstep, hmore⟩
  have hattended : Attended r :=
    (Attended.start table fallback).run hstart hwhole
  rcases mem_stale.mp he with ⟨hentry, hstale⟩
  have hleaving := leaving_of_sweep hp hentry hstale
  rcases view_eq_some.mp hticket with ⟨old, hold, hphase⟩
  have hcalls : (p.sweep known).phase? i = some old := by
    rw [(untouched_sweep hp known).2.frame]
    exact hold
  rcases caught_of_run hsweep hleaving.toEvicted hmore hcalls
      (Phase.Caught.held hphase hcell) with
    ⟨new, hnew, hcaught⟩
  refine ⟨fails_of_caught (hsweep.run hmore) hattended
    (hleaving.run hsweep hmore).toEvicted hnew hcaught, ?_⟩
  intro result hresult
  rw [hresult, Option.some.injEq] at hnew
  subst hnew
  cases hcaught with
  | held ticket _ => cases ticket
  | failed error =>
      refine ⟨⟨error, rfl⟩, fun hsplit hb => ?_⟩
      exact closed_of_failed hstart (hsplit ▸ hwhole) hb hresult

def twoMasters : Table :=
  ⟨[.makeMaster "n2" (.atAddress "d" 2) [],
    .makeMaster "n5" (.atAddress "g" 5) []], Table.unowned⟩

def fourTargets : List Event :=
  [.request (.address "d" 2), .linked 0, .request (.address "e" 3), .linked 1,
    .request (.address "g" 5), .request (.address "f" 4),
    .request (.address "f" 4)]

/-- A sweep closes the connection to `e:3`, and the calls on their way to `f:4`
fail. -/
theorem sweep_exact_opening :
    exists p q r,
      run { table := default, fallback := .atAddress "h" 1 } fourTargets = some
        p ∧ p.size = 4 ∧
      p.step (.sweep twoMasters) = some q ∧
        q.entries = [(.address "d" 2, 0), (.address "g" 5, 2)] ∧
      q.links[0]? = p.links[0]? ∧
      q.run [.cleaned 0, .linked 3, .closed 3, .resume 4, .closed 4] = some r ∧
      (exists k, r.cleanups[0]? = some k ∧ k.evicted = 2) ∧
        r.isLinkOpen 1 = false ∧ r.isLinkOpen 2 = false ∧
      (exists error, r.phase? 3 = some (.finished (.error error))) ∧
      exists error, r.phase? 4 = some (.finished (.error error)) := by
  obtain ⟨p, r, b, t, u, first, second, hrun, hmore, hb, hsize, hkept, hstale,
    hnone, hlink, hlinks, hcell, hwire,
      ht, hu, hat, hbeside, hfirst, hsecond, hidle⟩ :
        exists p r b t u first second,
      run { table := default, fallback := .atAddress "h" 1 }
        fourTargets = some p ∧
        (p.sweep twoMasters).run
        [.cleaned 0, .linked 3, .closed 3, .resume 4, .closed 4] = some r ∧
        run { table := default, fallback := .atAddress "h" 1 }
          (fourTargets ++ [.sweep twoMasters, .cleaned 0]) =
          some b ∧
        p.size = 4 ∧
        p.entries.filter (fun e => !e.1.isStale twoMasters) =
          [(.address "d" 2, 0), (.address "g" 5, 2)] ∧
        p.stale twoMasters = [(.address "e" 3, 1), (.address "f" 4, 3)] ∧
          p.cleanups.length = 0 ∧
        p.entryLink? (.address "e" 3, 1) = some 1 ∧ b.links.length = 2 ∧
        (p.sweep twoMasters).cellHandle? 0 = some 0 ∧
        (p.sweep twoMasters).wire? 0 = some (.address "d" 2, 0) ∧
        p.view Phase.ticket? 3 = some t ∧ p.view Phase.ticket? 4 = some u ∧
          t.cell = 3 ∧ u.cell = 3 ∧
        r.phase? 3 = some (.finished first) ∧
          r.phase? 4 = some (.finished second) ∧
        forall k, r.cleanups[0]? = some k -> k.closing = none :=
    ⟨_, _, _, _, _, _, _, rfl, rfl, rfl, rfl, rfl, rfl, rfl, rfl, rfl, rfl, rfl,
      rfl, rfl, rfl, rfl, rfl, rfl,
      fun _ hk => Option.some.inj hk ▸ rfl⟩
  rcases sweep_exact hrun twoMasters with ⟨q, hq, hentries, hspared, hlater⟩
  cases hq
  rcases hlater hmore with ⟨hswept, hcalls⟩
  have hclosed : (.address "e" 3, 1) ∈ p.stale twoMasters := by simp [hstale]
  have hcaught : (.address "f" 4, 3) ∈ p.stale twoMasters := by simp [hstale]
  rcases hswept.result with ⟨k, hk, hevicted, hdone⟩
  rw [hnone] at hk
  rw [hstale] at hevicted
  have hthird := (hcalls hcaught ht hat).2 hfirst
  have hfourth := (hcalls hcaught hu hbeside).2 hsecond
  refine ⟨p, p.sweep twoMasters, r, hrun, hsize, rfl, hentries.trans hkept, ?_,
    hmore, ⟨k, hk, hevicted⟩, (hdone (hidle k hk) hclosed hlink).1, ?_, ?_, ?_⟩
  · refine hspared.links (e := (.address "d" 2, 0)) ?_ hcell hwire
    rw [hentries, hkept]
    exact List.mem_cons_self
  · rw [← hlinks]
    exact hthird.2 rfl hb
  · rcases hthird.1 with ⟨error, rfl⟩
    exact ⟨error, hfirst⟩
  · rcases hfourth.1 with ⟨error, rfl⟩
    exact ⟨error, hsecond⟩

end Pool
end SlotCluster
