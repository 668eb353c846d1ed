import SlotCluster.Proofs.Pool.Service

/-!
# The errand of a call

A call looks up its target once, when it begins, and goes on with the key and
the endpoint that it has found.  So the link that it opens goes to that
endpoint, and the connection with which it ends was in the pool under that key.
Nothing else opens a link, and a connection keeps its key and its link for good.
-/

namespace SlotCluster
namespace Pool

variable {keyAt : Nat -> Target} {p q r : Pool} {event : Event} {i : Nat}
  {t : Ticket}

/-!
## What lasts

No link changes its endpoint and no connection its key and its link.  No
closing is forgotten.
-/

/-- The endpoints of all links that have ever been opened, the oldest first. -/
def dialed (p : Pool) : List Endpoint :=
  p.links.map Link.endpoint

def closings (p : Pool) (l : Nat) : Nat :=
  ((p.links[l]?).map Link.closings).getD 0

theorem closings_modify (p : Pool) (l m : Nat) (f : Link -> Link) :
    closings { p with links := p.links.modify l f } m =
      if l = m then ((p.links[m]?).map (fun link => (f link).closings)).getD 0
      else p.closings m := by
  unfold closings
  rw [List.getElem?_modify]
  by_cases hlm : l = m
  · rw [if_pos hlm]
    cases p.links[m]? with
    | none => rfl
    | some link => simp [hlm]
  · rw [if_neg hlm]
    cases p.links[m]? with
    | none => rfl
    | some link => simp [hlm]

structure Lasting (p q : Pool) : Prop where
  fallback : q.fallback = p.fallback
  dialed : q.dialed = p.dialed
  wires : forall {h : Nat} {wire : Target × Nat}, p.wire? h = some wire ->
    q.wire? h = some wire
  closings : forall l, p.closings l ≤ q.closings l

namespace Lasting

theorem of_same (hfallback : q.fallback = p.fallback)
    (hlinks : q.links = p.links) (hhandles : q.handles = p.handles) :
    Lasting p q where
  fallback := hfallback
  dialed := congrArg (List.map Link.endpoint) hlinks
  wires := by
    unfold wire?
    rw [hhandles]
    exact id
  closings l := by
    have hsame : p.closings l = q.closings l := by
      unfold Pool.closings
      rw [hlinks]
    exact Nat.le_of_eq hsame

theorem refl (p : Pool) : Lasting p p :=
  of_same rfl rfl rfl

theorem trans (hpq : Lasting p q) (hqr : Lasting q r) : Lasting p r where
  fallback := hqr.fallback.trans hpq.fallback
  dialed := hqr.dialed.trans hpq.dialed
  wires h := hqr.wires (hpq.wires h)
  closings l := Nat.le_trans (hpq.closings l) (hqr.closings l)

theorem modifyLink (p : Pool) (l : Nat) {f : Link -> Link}
    (hf : forall link, (f link).endpoint = link.endpoint)
    (hclosings : forall link, link.closings ≤ (f link).closings) :
    Lasting p { p with links := p.links.modify l f } where
  fallback := rfl
  dialed := by
    unfold Pool.dialed
    apply List.ext_getElem?
    intro m
    rw [List.getElem?_map, List.getElem?_map, List.getElem?_modify]
    cases p.links[m]? with
    | none => rfl
    | some link =>
        by_cases hlm : l = m
        · simp [hlm, hf]
        · simp [hlm]
  wires := id
  closings m := by
    rw [closings_modify]
    by_cases hlm : l = m
    · rw [if_pos hlm]
      unfold Pool.closings
      cases p.links[m]? with
      | none => exact Nat.le_refl _
      | some link => exact hclosings link
    · exact Nat.le_of_eq (if_neg hlm).symm

theorem closeLink (p : Pool) (l : Nat) : Lasting p (p.closeLink l) :=
  modifyLink p l (fun _ => rfl) (fun _ => Nat.le_succ _)

theorem closeHandle (p : Pool) (h : Nat) : Lasting p (p.closeHandle h) := by
  unfold Pool.closeHandle
  split
  · exact closeLink p _
  · exact refl p

theorem edit (h : Edit p q) : Lasting p q := by
  cases h with
  | change change =>
      cases change with
      | setPhase i phase => exact of_same rfl rfl rfl
      | removeEntry key => exact of_same rfl rfl rfl
      | modifyCell c _ => exact of_same rfl rfl rfl
      | closeHandle h => exact closeHandle p h
  | addCall target phase => exact of_same rfl rfl rfl
  | addCell key => exact of_same rfl rfl rfl

theorem edits (h : Edits p q) : Lasting p q := by
  induction h with
  | refl => exact refl p
  | tail _ last ih => exact ih.trans (edit last)

theorem filled (p : Pool) (t : Ticket) (l : Nat) :
    Lasting p (p.filled t l) where
  fallback := rfl
  dialed := rfl
  wires := by
    intro h wire hwire
    rcases Option.map_eq_some_iff.mp hwire with ⟨handle, hhandle, _⟩
    change ((p.handles ++ [_])[h]?).map _ = some wire
    rw [List.getElem?_append_left (List.getElem?_eq_some_iff.mp hhandle).1]
    exact hwire
  closings _ := Nat.le_refl _

theorem establish (p : Pool) (i : Nat) (t : Ticket) (l : Nat) :
    Lasting p (p.establish i t l) :=
  (filled p t l).trans (edits (changes_conclude _ i t p.handles.length).edits)

theorem linked (p : Pool) (i : Nat) (t : Ticket) :
    Lasting { p with links := p.links ++ [{ endpoint := t.endpoint }] }
      (p.linked i t) := by
  unfold Pool.linked
  dsimp only
  split
  · exact of_same rfl rfl rfl
  · exact establish _ i t _

theorem runChores (p : Pool) (chores : List Chore) :
    Lasting p (p.runChores chores).1 := by
  induction chores generalizing p with
  | nil => exact refl p
  | cons chore rest ih =>
      have htaken : Lasting p (p.takeChore chore).1 := by
        cases chore <;> exact of_same rfl rfl rfl
      unfold Pool.runChores
      dsimp only
      split
      · exact htaken.trans (closeLink _ _)
      · exact htaken.trans (ih _)

theorem apply (p : Pool) (table : Shared) : Lasting p (p.apply table) where
  fallback := rfl
  dialed := rfl
  wires := by
    intro h wire hwire
    unfold Pool.apply
    rw [wire?_informCells]
    exact hwire
  closings _ := Nat.le_refl _

end Lasting

/-- A step opens no link, or it is the answer to a call that has asked for
one. -/
theorem lasting_of_step (hstep : p.step event = some q) :
    Lasting p q ∨
      exists i t, event = .linked i ∧ p.phase? i = some (.connecting t) ∧
      Lasting { p with
        links := p.links ++ [{ endpoint := t.endpoint }] } q := by
  have hcleaned {s : Pool} (hs : Lasting p s) (chores : List Chore)
      (cleanups : List Cleanup) :
      Lasting p { (s.runChores chores).1 with cleanups } :=
    (hs.trans (Lasting.runChores s chores)).trans (Lasting.of_same rfl rfl rfl)
  cases taken_of_step hstep with
  | request target => exact Or.inl (Lasting.edits (edits_request p target))
  | resume _ resumed =>
      exact Or.inl (Lasting.edits (changes_resume resumed).edits)
  | @linked i t phase => exact Or.inr ⟨i, t, rfl, phase, Lasting.linked p i t⟩
  | notLinked _ => exact Or.inl (Lasting.edits (changes_fail p _ _ _).edits)
  | @accepted i l t phase =>
      have hmarked :=
        Lasting.modifyLink p l
          (f := fun link => { link with isAuthenticated := true })
          (fun _ => rfl) (fun _ => Nat.le_refl _)
      exact Or.inl (hmarked.trans (Lasting.establish _ i t l))
  | refused _ =>
      exact Or.inl ((Lasting.closeLink p _).trans (Lasting.of_same rfl rfl rfl))
  | rejected _ => exact Or.inl (Lasting.edits (changes_fail p _ _ _).edits)
  | discarded _ => exact Or.inl (Lasting.of_same rfl rfl rfl)
  | apply table => exact Or.inl (Lasting.apply p table)
  | reordered perm leads => exact Or.inl (Lasting.of_same rfl rfl rfl)
  | sweep table =>
      exact Or.inl
        (hcleaned (s := p.swept table) (Lasting.of_same rfl rfl rfl) _ _)
  | drain =>
      exact Or.inl
        (hcleaned (s := { p with isClosed := true })
          (Lasting.of_same rfl rfl rfl) _ _)
  | cleaned _ => exact Or.inl (hcleaned (Lasting.refl p) _ _)
  | broke l =>
      exact Or.inl
        (Lasting.modifyLink p l (fun _ => rfl) (fun _ => Nat.le_refl _))
  | closeHandle h => exact Or.inl (Lasting.closeHandle p h)

theorem fallback_of_step (hstep : p.step event = some q) :
    q.fallback = p.fallback := by
  rcases lasting_of_step hstep with hlasting | ⟨i, t, _, _, hlasting⟩
  · exact hlasting.fallback
  · exact hlasting.fallback

theorem wire?_of_step (hstep : p.step event = some q) {h : Nat}
    {wire : Target × Nat} (hwire : p.wire? h = some wire) :
    q.wire? h = some wire := by
  rcases lasting_of_step hstep with hlasting | ⟨i, t, _, _, hlasting⟩
  · exact hlasting.wires hwire
  · exact hlasting.wires hwire

theorem closings_of_step (hstep : p.step event = some q) (l : Nat) :
    p.closings l ≤ q.closings l := by
  rcases lasting_of_step hstep with hlasting | ⟨i, t, _, _, hlasting⟩
  · exact hlasting.closings l
  · refine Nat.le_trans ?_ (hlasting.closings l)
    unfold closings
    by_cases hl : l < p.links.length
    · exact Nat.le_of_eq (by rw [List.getElem?_append_left hl])
    · rw [List.getElem?_eq_none (Nat.le_of_not_lt hl)]
      exact Nat.zero_le _

theorem dialed_of_linked (hphase : p.phase? i = some (.connecting t))
    (hstep : p.step (.linked i) = some q) :
    q.dialed = p.dialed ++ [t.endpoint] := by
  simp only [step, hphase, Option.some.injEq] at hstep
  rw [← hstep]
  exact (Lasting.linked p i t).dialed.trans List.map_append

theorem dialed_of_step (hstep : p.step event = some q) :
    q.dialed = p.dialed ∨
      exists i t, event = .linked i ∧ p.phase? i = some (.connecting t) := by
  rcases lasting_of_step hstep with hlasting | ⟨i, t, hevent, hphase, _⟩
  · exact Or.inl hlasting.dialed
  · exact Or.inr ⟨i, t, hevent, hphase⟩

/-!
## Calls that have no link yet

A call that has had its link gets no other.
-/

def Phase.undialed? : Phase -> Option Ticket
  | .queued ticket => some ticket
  | .connecting ticket => some ticket
  | _ => none

theorem undialed_of_step (hs : Seated keyAt p) (hstep : p.step event = some q)
    {old : Phase} (hold : p.phase? i = some old)
    (hdone : old.undialed? = none) :
    exists new, q.phase? i = some new ∧ new.undialed? = none := by
  have hfollows := follows_of_step hs hstep i
  rw [hold] at hfollows
  generalize q.phase? i = new at hfollows
  cases hfollows with
  | stays _ => exact ⟨old, rfl, hdone⟩
  | promoted => cases hdone
  | dialed _ => exact ⟨_, rfl, rfl⟩
  | refused => exact ⟨_, rfl, rfl⟩
  | concluded _ verdict =>
      refine ⟨_, rfl, ?_⟩
      cases verdict <;> rfl
  | failed _ => exact ⟨_, rfl, rfl⟩
  | closed => exact ⟨_, rfl, rfl⟩

theorem undialed_of_linked (hs : Seated keyAt p)
    (hphase : p.phase? i = some (.connecting t))
    (hstep : p.step (.linked i) = some q) :
    exists new, q.phase? i = some new ∧ new.undialed? = none := by
  cases hcredential : t.endpoint.credential with
  | none =>
      rcases concluded_of_step hs (Concludes.linked hphase hcredential)
        hstep with ⟨new, hdone⟩
      refine ⟨new, hdone.phase, ?_⟩
      cases hdone.verdict <;> rfl
  | some password =>
      simp only [step, hphase, linked, hcredential, Option.some.injEq] at hstep
      refine ⟨.authenticating t p.links.length, ?_, rfl⟩
      rw [← hstep]
      exact phase?_setPhase_self
        (p :=
          { p with links := p.links ++ [{ endpoint := t.endpoint }] }) _ hphase

theorem phase?_isSome_of_step (hs : Seated keyAt p)
    (hstep : p.step event = some q)
    (hevent : forall target, event ≠ .request target) {new : Phase}
    (hnew : q.phase? i = some new) : exists old, p.phase? i = some old := by
  have hview {α : Type} {part : Phase -> Option α} {a : α}
      (h : p.view part i = some a) : exists old, p.phase? i = some old := by
    rcases view_eq_some.mp h with ⟨old, hold, _⟩
    exact ⟨old, hold⟩
  rcases turn_of_step hs hstep hnew with hsame | hturn
  · exact ⟨new, hsame⟩
  · cases hturn with
    | began _ _ _ => exact absurd rfl (hevent _)
    | served => exact absurd rfl (hevent _)
    | shut _ _ => exact absurd rfl (hevent _)
    | unresolved _ _ => exact absurd rfl (hevent _)
    | proceeds before _ _ => exact hview before
    | notLinked phase => exact ⟨_, phase⟩
    | refused phase => exact ⟨_, phase⟩
    | concluded concludes _ => exact hview concludes.ticket
    | ended before => exact hview before

/-! ## From the look-up to the connection -/

def Holds (p : Pool) (key : Target) (h : Nat) : Prop :=
  exists c, p.entry? key = some c ∧ p.cellHandle? c = some h

theorem Sound.wire_of_holds (hp : Sound p) {key : Target} {h : Nat}
    (hholds : p.Holds key h) : exists l, p.wire? h = some (key, l) := by
  rcases hp with ⟨keyAt, hs, hw⟩
  rcases hholds with ⟨c, hentry, hcell⟩
  rw [← hs.entry_key hentry]
  exact hw.cell_wire hcell

variable {key : Target} {endpoint : Endpoint} {held : Nat -> Prop}

/-- A call in this phase has looked for a key and an endpoint.  If it has ended
with a connection, that is one of those that the pool has held. -/
inductive Phase.Errand (key : Target) (endpoint : Endpoint)
    (held : Nat -> Prop) : Phase -> Prop where
  | seeks {phase : Phase} {t : Ticket} (ticket : phase.ticket? = some t)
      (sought : t.key = key) (found : t.endpoint = endpoint) :
      Errand key endpoint held phase
  | discards (h : Nat) (error : ClusterError) :
      Errand key endpoint held (.discarding h error)
  | failed (error : ClusterError) :
      Errand key endpoint held (.finished (.error error))
  | served {h : Nat} (holds : held h) :
      Errand key endpoint held (.finished (.ok h))

namespace Phase.Errand

theorem mono {more : Nat -> Prop} {phase : Phase}
    (h : phase.Errand key endpoint held)
    (hmore : forall {n : Nat}, held n -> more n) :
    phase.Errand key endpoint more := by
  cases h with
  | seeks ticket sought found => exact seeks ticket sought found
  | discards n error => exact discards n error
  | failed error => exact failed error
  | served holds => exact served (hmore holds)

theorem ticket {phase : Phase} (h : phase.Errand key endpoint held)
    (ht : phase.ticket? = some t) : t.key = key ∧ t.endpoint = endpoint := by
  cases h with
  | seeks own sought found =>
      rw [ht, Option.some.injEq] at own
      subst own
      exact ⟨sought, found⟩
  | discards _ _ => cases ht
  | failed _ => cases ht
  | served _ => cases ht

end Phase.Errand

theorem errand_of_request {target : Target} (hmanned : p.Manned)
    (hresolve : target.resolve p.table.table p.fallback = .ok (key, endpoint)) :
    exists phase, (p.request target).phase? p.calls.length = some phase ∧
      phase.Errand key endpoint ((p.request target).Holds key) := by
  have hrequested := requested target hmanned
  generalize p.request target = q at hrequested
  cases hrequested with
  | shut _ =>
      exact ⟨_, phase?_addCall_length p target _, Phase.Errand.failed _⟩
  | unresolved _ unknown => cases hresolve.symm.trans unknown
  | found _ resolve _ =>
      cases hresolve.symm.trans resolve
      exact ⟨_, phase?_openCell_self target p ⟨key, endpoint, p.cells.length⟩,
        Phase.Errand.seeks rfl rfl rfl⟩
  | replaced _ resolve _ _ _ =>
      cases hresolve.symm.trans resolve
      exact ⟨_, phase?_openCell_self target (p.removeEntry key)
        ⟨key, endpoint, p.cells.length⟩, Phase.Errand.seeks rfl rfl rfl⟩
  | @waits _ _ c _ _ _ resolve _ _ _ _ =>
      cases hresolve.symm.trans resolve
      exact ⟨_, phase?_addCall_length p target (.queued ⟨key, endpoint, c⟩),
        Phase.Errand.seeks rfl rfl rfl⟩
  | @shares _ _ c _ openPool resolve entry filled _ =>
      cases hresolve.symm.trans resolve
      rw [conclude_found openPool resolve entry]
      exact ⟨_, phase?_addCall_length p target _,
        Phase.Errand.served ⟨c, entry, filled⟩⟩

/-- A call that ends with a connection gets the one that the pool has under the
key of its ticket. -/
theorem holds_of_step (hs : Seated keyAt p) (hstep : p.step event = some q)
    (hticket : p.view Phase.ticket? i = some t) {h : Nat}
    (hnew : q.phase? i = some (.finished (.ok h))) : q.Holds t.key h := by
  rcases turn_of_step hs hstep hnew with hsame | hturn
  · rw [view_of_phase? _ hsame] at hticket
    cases hticket
  · cases hturn with
    | began ticket _ _ => cases ticket
    | proceeds _ after _ => cases after
    | @served target h =>
        -- The call is older than the one that begins.
        cases hstep
        rcases phase?_of_begins (begins_of_request target hs.manned) i with
          hsame | ⟨hi, _⟩
        · rw [hnew] at hsame
          rw [view_of_phase? _ hsame.symm] at hticket
          cases hticket
        · exact absurd (view_lt hticket) (by omega)
    | @concluded _ u n _ concludes done =>
        have hown : u = t :=
          Option.some.inj (concludes.ticket.symm.trans hticket)
        subst hown
        cases done.verdict with
        | taken openPool entry knows =>
            refine ⟨u.cell, ?_, done.cell⟩
            by_contra haway
            exact (done.entries entry haway).2 knows

theorem errand_of_step (hs : Seated keyAt p) (hstep : p.step event = some q)
    {old : Phase} (hold : p.phase? i = some old)
    (herrand : old.Errand key endpoint held) :
    exists new, q.phase? i = some new ∧
      new.Errand key endpoint (fun h => held h ∨ q.Holds key h) := by
  have hseeks {new : Phase} (hsame : new.ticket? = old.ticket?) {t : Ticket}
      (ht : old.ticket? = some t) :
      new.Errand key endpoint (fun h => held h ∨ q.Holds key h) :=
    Phase.Errand.seeks (hsame.trans ht) (herrand.ticket ht).1
      (herrand.ticket ht).2
  have hfollows := follows_of_step hs hstep i
  rw [hold] at hfollows
  generalize hnew : q.phase? i = new at hfollows
  cases hfollows with
  | stays _ => exact ⟨old, rfl, herrand.mono Or.inl⟩
  | promoted => exact ⟨_, rfl, hseeks rfl rfl⟩
  | dialed _ => exact ⟨_, rfl, hseeks rfl rfl⟩
  | refused => exact ⟨_, rfl, hseeks rfl rfl⟩
  | @concluded _ new t h ticket verdict =>
      refine ⟨new, rfl, ?_⟩
      cases verdict with
      | shut _ => exact Phase.Errand.discards h _
      | gone _ _ => exact Phase.Errand.discards h _
      | unknown _ _ => exact Phase.Errand.discards h _
      | taken _ _ _ =>
          have hholds :=
            holds_of_step hs hstep ((view_of_phase? _ hold).trans ticket) hnew
          rw [(herrand.ticket ticket).1] at hholds
          exact Phase.Errand.served (Or.inr hholds)
  | failed _ => exact ⟨_, rfl, Phase.Errand.failed _⟩
  | closed => exact ⟨_, rfl, Phase.Errand.failed _⟩

end Pool
end SlotCluster
