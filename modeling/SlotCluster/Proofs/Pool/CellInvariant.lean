import SlotCluster.Proofs.Pool.Moves

/-!
# Who sits where

The invariant that ties calls, cells and entries together.  Every cell belongs
to one key from its beginning to the end of the pool, an owner always holds a
ticket for its cell, and a call that is opening a connection owns the cell that
it opens it for.  A cell is either filled, or owned, or forsaken; only the first
two kinds have entries.
-/

namespace SlotCluster
namespace Pool

structure Seated (keyAt : Nat -> Target) (p : Pool) : Prop where
  keys_nodup : (p.entries.map Prod.fst).Nodup
  entry_key : forall {key : Target} {c : Nat}, p.entry? key = some c ->
    keyAt c = key
  manned : p.Manned
  ticket_key : forall {i : Nat} {t : Ticket}, p.view Phase.ticket? i = some t ->
    keyAt t.cell = t.key ∧ t.cell < p.cells.length
  owner_ticket : forall {c : Nat} {cell : Cell} {i : Nat},
    p.cells[c]? = some cell -> cell.owner = some i ->
    cell.handle = none ∧ exists t, p.view Phase.ticket? i = some t ∧ t.cell = c
  queue_ticket : forall {c : Nat} {cell : Cell} {i : Nat},
    p.cells[c]? = some cell -> i ∈ cell.queue ->
    cell.handle = none ∧ cell.owner ≠ some i ∧
      exists t, p.phase? i = some (.queued t) ∧ t.cell = c
  queue_nodup : forall {c : Nat} {cell : Cell}, p.cells[c]? = some cell ->
    cell.queue.Nodup
  opening_owner : forall {i : Nat} {t : Ticket},
    p.view Phase.opening? i = some t ->
    exists cell, p.cells[t.cell]? = some cell ∧ cell.owner = some i

namespace Seated

variable {keyAt : Nat -> Target} {p q : Pool}

theorem start (keyAt : Nat -> Target) (table : Shared) (fallback : Endpoint) :
    Seated keyAt { table, fallback } where
  keys_nodup := List.nodup_nil
  entry_key h := by cases h
  manned h := by cases h
  ticket_key h := by cases h
  owner_ticket h := by simp at h
  queue_ticket h := by simp at h
  queue_nodup h := by simp at h
  opening_owner h := by cases h

/-! ## What follows for one pool -/

theorem entry_inj (hp : Seated keyAt p) {key other : Target} {c : Nat}
    (hkey : p.entry? key = some c) (hother : p.entry? other = some c) :
    key = other := by
  rw [← hp.entry_key hkey, ← hp.entry_key hother]

theorem opening_cell (hp : Seated keyAt p) {i : Nat} {t : Ticket}
    (h : p.view Phase.opening? i = some t) :
    exists cell, p.cells[t.cell]? = some cell ∧ cell.owner = some i ∧
      cell.handle = none := by
  rcases hp.opening_owner h with ⟨cell, hcell, howner⟩
  exact ⟨cell, hcell, howner, (hp.owner_ticket hcell howner).1⟩

theorem opening_inj (hp : Seated keyAt p) {i j : Nat} {t u : Ticket}
    (hi : p.view Phase.opening? i = some t)
    (hj : p.view Phase.opening? j = some u)
    (hcell : t.cell = u.cell) : i = j := by
  rcases hp.opening_owner hi with ⟨cell, hc, howner⟩
  rcases hp.opening_owner hj with ⟨other, hc', howner'⟩
  rw [← hcell, hc] at hc'
  cases hc'
  rw [howner] at howner'
  exact Option.some.inj howner'

theorem ne_of_queued (hp : Seated keyAt p) {i j c : Nat} {t : Ticket}
    {cell : Cell} (hi : p.view Phase.opening? i = some t)
    (hcell : p.cells[c]? = some cell) (hj : j ∈ cell.queue) : i ≠ j := by
  intro hij
  subst hij
  rcases hp.queue_ticket hcell hj with ⟨_, _, u, hu, _⟩
  rw [view_of_phase? _ hu] at hi
  cases hi

theorem not_mem_keys (hp : Seated keyAt p) {key : Target}
    (hfree : p.entry? key = none) : key ∉ p.entries.map Prod.fst := by
  intro hmem
  rcases List.mem_map.mp hmem with ⟨⟨other, c⟩, he, hkey⟩
  rw [← hkey, (entry?_eq_some hp.keys_nodup).mpr he] at hfree
  cases hfree

theorem free_of_filled (hp : Seated keyAt p) {i : Nat} {t : Ticket} {h : Nat}
    (hphase : p.phase? i = some (.queued t))
    (hfilled : p.cellHandle? t.cell = some h) {c : Nat} {cell : Cell}
    (hcell : p.cells[c]? = some cell) :
    cell.owner ≠ some i ∧ i ∉ cell.queue := by
  have hview : p.view Phase.ticket? i = some t := view_of_phase? _ hphase
  rcases cellHandle?_eq_some.mp hfilled with ⟨full, hfull, hhandle⟩
  constructor
  · intro howner
    rcases hp.owner_ticket hcell howner with ⟨hnone, u, hu, hat⟩
    rw [hview] at hu
    cases hu
    rw [hat, hcell] at hfull
    cases hfull
    rw [hnone] at hhandle
    cases hhandle
  · intro hqueue
    rcases hp.queue_ticket hcell hqueue with ⟨hnone, _, u, hu, hat⟩
    rw [hphase] at hu
    cases hu
    rw [hat, hcell] at hfull
    cases hfull
    rw [hnone] at hhandle
    cases hhandle

theorem free_of_new (hp : Seated keyAt p) {c : Nat} {cell : Cell}
    (hcell : p.cells[c]? = some cell) :
    cell.owner ≠ some p.calls.length ∧ p.calls.length ∉ cell.queue := by
  constructor
  · intro howner
    rcases hp.owner_ticket hcell howner with ⟨_, t, ht, _⟩
    exact Nat.lt_irrefl _ (view_lt ht)
  · intro hqueue
    rcases hp.queue_ticket hcell hqueue with ⟨_, _, t, ht, _⟩
    exact Nat.lt_irrefl _ (phase?_lt ht)

/-! ## Changes that keep calls and cells -/

/-- A pool with some of the entries, in any order. -/
theorem confine (hp : Seated keyAt p) (hnodup : (q.entries.map Prod.fst).Nodup)
    (hentries : q.entries ⊆ p.entries) (hcells : q.cells = p.cells)
    (hcalls : q.calls = p.calls) : Seated keyAt q := by
  have hentry : forall {key : Target} {c : Nat}, q.entry? key = some c ->
      p.entry? key = some c := by
    intro key c h
    rw [entry?_eq_some hnodup] at h
    rw [entry?_eq_some hp.keys_nodup]
    exact hentries h
  have hphase : forall i, q.phase? i = p.phase? i := by
    intro i
    unfold phase?
    rw [hcalls]
  have hview : forall {α : Type} (part : Phase -> Option α) i,
      q.view part i = p.view part i := by
    intro α part i
    unfold view
    rw [hphase]
  constructor
  case keys_nodup =>
    exact hnodup
  case entry_key =>
    intro key c h
    exact hp.entry_key (hentry h)
  case manned =>
    intro key c h
    rw [hcells]
    exact hp.manned (hentry h)
  case ticket_key =>
    intro i t h
    rw [hcells]
    exact hp.ticket_key (hview _ i ▸ h)
  case owner_ticket =>
    intro c cell i h howner
    simp only [hview]
    exact hp.owner_ticket (hcells ▸ h) howner
  case queue_ticket =>
    intro c cell i h hqueue
    simp only [hphase]
    exact hp.queue_ticket (hcells ▸ h) hqueue
  case queue_nodup =>
    intro c cell h
    exact hp.queue_nodup (hcells ▸ h)
  case opening_owner =>
    intro i t h
    rw [hcells]
    exact hp.opening_owner (hview _ i ▸ h)

theorem shrink (hp : Seated keyAt p) (hentries : q.entries.Sublist p.entries)
    (hcells : q.cells = p.cells) (hcalls : q.calls = p.calls) :
    Seated keyAt q :=
  hp.confine ((hentries.map Prod.fst).nodup hp.keys_nodup) hentries.subset
    hcells hcalls

theorem removeEntry (hp : Seated keyAt p) (key : Target) :
    Seated keyAt (p.removeEntry key) :=
  hp.shrink List.filter_sublist rfl rfl

theorem closeHandle (hp : Seated keyAt p) (h : Nat) :
    Seated keyAt (p.closeHandle h) := by
  rcases closeHandle_eq p h with ⟨links, heq, _⟩
  rw [heq]
  exact hp.shrink (List.Sublist.refl _) rfl rfl

/-!
## Changes of one call

A call changes its phase.  What it owns it must go on to hold a ticket for, and
it may open a connection only for a cell that it owns.
-/

theorem addCall (hp : Seated keyAt p) (target : Target) {phase : Phase}
    (hopening : phase.opening? = none)
    (hticket : forall t, phase.ticket? = some t ->
      keyAt t.cell = t.key ∧ t.cell < p.cells.length) :
    Seated keyAt (p.addCall target phase) := by
  have hview : forall {α : Type} {part : Phase -> Option α} {i : Nat} {a : α},
      p.view part i = some a ->
      (p.addCall target phase).view part i = some a := by
    intro α part i a h
    rw [view_addCall, if_neg (Nat.ne_of_lt (view_lt h))]
    exact h
  constructor
  case keys_nodup =>
    exact hp.keys_nodup
  case entry_key =>
    exact hp.entry_key
  case manned =>
    exact hp.manned
  case ticket_key =>
    intro i t h
    rw [view_addCall] at h
    by_cases hi : i = p.calls.length
    · rw [if_pos hi] at h
      exact hticket t h
    · rw [if_neg hi] at h
      exact hp.ticket_key h
  case owner_ticket =>
    intro c cell i hcell howner
    rcases hp.owner_ticket hcell howner with ⟨hnone, t, ht, hat⟩
    exact ⟨hnone, t, hview ht, hat⟩
  case queue_ticket =>
    intro c cell i hcell hqueue
    rcases hp.queue_ticket hcell hqueue with ⟨hnone, hother, t, ht, hat⟩
    refine ⟨hnone, hother, t, ?_, hat⟩
    rw [phase?_addCall, if_neg (Nat.ne_of_lt (phase?_lt ht))]
    exact ht
  case queue_nodup =>
    exact hp.queue_nodup
  case opening_owner =>
    intro i t h
    rw [view_addCall] at h
    by_cases hi : i = p.calls.length
    · rw [if_pos hi, hopening] at h
      cases h
    · rw [if_neg hi] at h
      exact hp.opening_owner h

/-- A call changes its phase.  What it owns it must go on to hold a ticket for,
and it may open a connection only for a cell that it owns. -/
theorem setPhase (hp : Seated keyAt p) {i : Nat} {old phase : Phase}
    (hi : p.phase? i = some old)
    (hticket : forall t, phase.ticket? = some t -> old.ticket? = some t)
    (hopening : forall t, phase.opening? = some t ->
      exists cell, p.cells[t.cell]? = some cell ∧ cell.owner = some i)
    (howner : forall {c : Nat} {cell : Cell}, p.cells[c]? = some cell ->
      cell.owner = some i -> phase.ticket? = old.ticket?)
    (hqueue : forall {c : Nat} {cell : Cell}, p.cells[c]? = some cell ->
      i ∉ cell.queue) : Seated keyAt (p.setPhase i phase) := by
  constructor
  case keys_nodup =>
    exact hp.keys_nodup
  case entry_key =>
    exact hp.entry_key
  case manned =>
    exact hp.manned
  case ticket_key =>
    intro j t h
    rw [view_setPhase _ hi] at h
    by_cases hij : i = j
    · rw [if_pos hij] at h
      exact hp.ticket_key ((view_of_phase? _ hi).trans (hticket t h))
    · rw [if_neg hij] at h
      exact hp.ticket_key h
  case owner_ticket =>
    intro c cell j hcell hj
    rcases hp.owner_ticket hcell hj with ⟨hnone, t, ht, hat⟩
    refine ⟨hnone, t, ?_, hat⟩
    rw [view_setPhase _ hi]
    by_cases hij : i = j
    · subst hij
      rw [if_pos rfl, howner hcell hj, ← view_of_phase? Phase.ticket? hi]
      exact ht
    · rw [if_neg hij]
      exact ht
  case queue_ticket =>
    intro c cell j hcell hj
    rcases hp.queue_ticket hcell hj with ⟨hnone, hother, t, ht, hat⟩
    refine ⟨hnone, hother, t, ?_, hat⟩
    rw [phase?_setPhase_of_ne]
    · exact ht
    · intro hij
      subst hij
      exact hqueue hcell hj
  case queue_nodup =>
    exact hp.queue_nodup
  case opening_owner =>
    intro j t h
    rw [view_setPhase _ hi] at h
    by_cases hij : i = j
    · subst hij
      rw [if_pos rfl] at h
      exact hopening t h
    · rw [if_neg hij] at h
      exact hp.opening_owner h

theorem retire (hp : Seated keyAt p) {i : Nat} {old phase : Phase}
    (hi : p.phase? i = some old)
    (hnone : phase.ticket? = none)
    (hfree : forall {c : Nat} {cell : Cell}, p.cells[c]? = some cell ->
      cell.owner ≠ some i ∧ i ∉ cell.queue) :
    Seated keyAt (p.setPhase i phase) := by
  apply hp.setPhase hi
  · intro t ht
    rw [hnone] at ht
    cases ht
  · intro t ht
    have hticket := Phase.ticket?_of_opening? ht
    rw [hnone] at hticket
    cases hticket
  · intro c cell hcell howner
    exact absurd howner (hfree hcell).1
  · intro c cell hcell
    exact (hfree hcell).2

theorem proceed (hp : Seated keyAt p) {i : Nat} {old phase : Phase} {t : Ticket}
    {cell : Cell} (hi : p.phase? i = some old) (hold : old.ticket? = some t)
    (hphase : phase.opening? = some t) (hcell : p.cells[t.cell]? = some cell)
    (howner : cell.owner = some i) : Seated keyAt (p.setPhase i phase) := by
  have hticket : phase.ticket? = some t := Phase.ticket?_of_opening? hphase
  apply hp.setPhase hi
  · intro u hu
    rw [hold, ← hticket]
    exact hu
  · intro u hu
    rw [hphase] at hu
    cases hu
    exact ⟨cell, hcell, howner⟩
  · intro c other hother hown
    rw [hold, hticket]
  · intro c other hother hqueue
    rcases hp.queue_ticket hother hqueue with ⟨_, hnot, u, hu, hat⟩
    rw [hi] at hu
    cases hu
    cases hold
    rw [hat, hother] at hcell
    cases hcell
    exact hnot howner

/-! ## Changes of one cell -/

theorem enqueue (hp : Seated keyAt p) {i : Nat} {t : Ticket} {cell : Cell}
    (hi : p.phase? i = some (.queued t))
    (hfree : forall {c : Nat} {cell : Cell}, p.cells[c]? = some cell ->
      cell.owner ≠ some i ∧ i ∉ cell.queue)
    (hcell : p.cells[t.cell]? = some cell) (hempty : cell.handle = none) :
    Seated keyAt
      (p.modifyCell t.cell (fun c => { c with queue := c.queue ++ [i] })) := by
  have hback : forall {c : Nat} {new : Cell},
      (p.modifyCell t.cell
        (fun c => { c with queue := c.queue ++ [i] })).cells[c]? = some new ->
        exists was, p.cells[c]? = some was ∧ new.handle = was.handle ∧
          new.owner = was.owner ∧
          (new.queue = was.queue ∨ c = t.cell ∧ was = cell ∧
              new.queue = was.queue ++ [i]) := by
    intro c new hnew
    rw [cells_modifyCell] at hnew
    by_cases hc : t.cell = c
    · subst hc
      rw [if_pos rfl, hcell, Option.map_some, Option.some.injEq] at hnew
      subst hnew
      exact ⟨cell, hcell, rfl, rfl, Or.inr ⟨rfl, rfl, rfl⟩⟩
    · rw [if_neg hc] at hnew
      exact ⟨new, hnew, rfl, rfl, Or.inl rfl⟩
  have hforth : forall {c : Nat} {was : Cell}, p.cells[c]? = some was ->
      exists new,
        (p.modifyCell t.cell
          (fun c => { c with queue := c.queue ++ [i] })).cells[c]? = some new ∧
        new.handle = was.handle ∧ new.owner = was.owner := by
    intro c was hwas
    rw [cells_modifyCell]
    by_cases hc : t.cell = c
    · rw [if_pos hc, hwas]
      exact ⟨_, rfl, rfl, rfl⟩
    · rw [if_neg hc]
      exact ⟨was, hwas, rfl, rfl⟩
  constructor
  case keys_nodup =>
    exact hp.keys_nodup
  case entry_key =>
    exact hp.entry_key
  case manned =>
    intro key c hentry
    rcases hp.manned hentry with ⟨was, hwas, hinterest⟩
    rcases hforth hwas with ⟨new, hnew, hh, ho⟩
    exists new, hnew
    rw [hh, ho]
    exact hinterest
  case ticket_key =>
    intro j u hu
    rcases hp.ticket_key hu with ⟨hkey, hlt⟩
    refine ⟨hkey, ?_⟩
    simpa [modifyCell] using hlt
  case owner_ticket =>
    intro c new j hnew hj
    rcases hback hnew with ⟨was, hwas, hh, ho, _⟩
    rw [ho] at hj
    rw [hh]
    exact hp.owner_ticket hwas hj
  case queue_ticket =>
    intro c new j hnew hj
    rcases hback hnew with ⟨was, hwas, hh, ho, hq | ⟨hc, hsame, hq⟩⟩
    · rw [hq] at hj
      rw [hh, ho]
      exact hp.queue_ticket hwas hj
    · rw [hq, List.mem_append, List.mem_singleton] at hj
      rw [hh, ho]
      rcases hj with hj | hj
      · exact hp.queue_ticket hwas hj
      · subst hj
        exact ⟨hsame ▸ hempty, (hfree hwas).1, t, hi, hc.symm⟩
  case queue_nodup =>
    intro c new hnew
    rcases hback hnew with ⟨was, hwas, _, _, hq | ⟨_, _, hq⟩⟩
    · rw [hq]
      exact hp.queue_nodup hwas
    · rw [hq, List.nodup_append]
      refine ⟨hp.queue_nodup hwas, by simp, ?_⟩
      intro a ha b hb
      rw [List.mem_singleton] at hb
      intro hab
      exact (hfree hwas).2 (hb ▸ hab ▸ ha)
  case opening_owner =>
    intro j u hu
    rcases hp.opening_owner hu with ⟨was, hwas, howns⟩
    rcases hforth hwas with ⟨new, hnew, _, ho⟩
    exact ⟨new, hnew, ho.trans howns⟩

/-- The call `i` has left the cell of its ticket, which has got another content,
for another phase. -/
structure Vacated (i : Nat) (t : Ticket) (new : Cell) (phase : Phase)
    (p q : Pool) : Prop where
  entries : q.entries = p.entries
  length : q.cells.length = p.cells.length
  cells : forall c, q.cells[c]? = if t.cell = c then some new else p.cells[c]?
  phases : forall j, q.phase? j = if i = j then some phase else p.phase? j

namespace Vacated

variable {i : Nat} {t : Ticket} {new : Cell} {phase : Phase}

theorem entry?_eq (h : Vacated i t new phase p q) (key : Target) :
    q.entry? key = p.entry? key := by
  unfold entry?
  rw [h.entries]

theorem view_eq (h : Vacated i t new phase p q) {α : Type}
    (part : Phase -> Option α) (j : Nat) :
    q.view part j = if i = j then part phase else p.view part j := by
  unfold view
  rw [h.phases]
  by_cases hij : i = j <;> simp [hij]

theorem cell_cases (h : Vacated i t new phase p q) {c : Nat} {cell : Cell}
    (hcell : q.cells[c]? = some cell) :
    t.cell = c ∧ cell = new ∨ t.cell ≠ c ∧ p.cells[c]? = some cell := by
  rw [h.cells] at hcell
  by_cases hc : t.cell = c
  · rw [if_pos hc, Option.some.injEq] at hcell
    exact Or.inl ⟨hc, hcell.symm⟩
  · rw [if_neg hc] at hcell
    exact Or.inr ⟨hc, hcell⟩

end Vacated

/-- The owner of a cell leaves it: only calls from its queue may sit there
afterwards. -/
theorem vacate (hp : Seated keyAt p) {i : Nat} {t : Ticket} {cell new : Cell}
    {phase : Phase} (hi : p.view Phase.opening? i = some t)
    (hcell : p.cells[t.cell]? = some cell) (hleft : Vacated i t new phase p q)
    (hopening : phase.opening? = none)
    (hticket : forall u, phase.ticket? = some u -> u = t)
    (howner : forall {j : Nat}, new.owner = some j ->
      new.handle = none ∧ j ∈ cell.queue)
    (hqueue : forall {j : Nat}, j ∈ new.queue ->
      new.handle = none ∧ new.owner ≠ some j ∧ j ∈ cell.queue)
    (hnodup : new.queue.Nodup)
    (hmanned : forall {key : Target}, p.entry? key = some t.cell ->
      new.handle ≠ none ∨ new.owner ≠ none) : Seated keyAt q := by
  have hticket_i : p.view Phase.ticket? i = some t := ticket?_of_opening? hi
  constructor
  case keys_nodup =>
    rw [hleft.entries]
    exact hp.keys_nodup
  case entry_key =>
    intro key c h
    rw [hleft.entry?_eq] at h
    exact hp.entry_key h
  case manned =>
    intro key c h
    rw [hleft.entry?_eq] at h
    rw [hleft.cells]
    by_cases hc : t.cell = c
    · subst hc
      rw [if_pos rfl]
      exact ⟨new, rfl, hmanned h⟩
    · rw [if_neg hc]
      exact hp.manned h
  case ticket_key =>
    intro j u h
    rw [hleft.length]
    rw [hleft.view_eq] at h
    by_cases hij : i = j
    · rw [if_pos hij] at h
      rw [hticket u h]
      exact hp.ticket_key hticket_i
    · rw [if_neg hij] at h
      exact hp.ticket_key h
  case owner_ticket =>
    intro c was j hwas hj
    rcases hleft.cell_cases hwas with ⟨hc, hnew⟩ | ⟨hc, hwas⟩
    · subst hc hnew
      rcases howner hj with ⟨hnone, hmem⟩
      rcases hp.queue_ticket hcell hmem with ⟨_, _, u, hu, hat⟩
      refine ⟨hnone, u, ?_, hat⟩
      rw [hleft.view_eq, if_neg (hp.ne_of_queued hi hcell hmem),
        view_of_phase? _ hu]
      rfl
    · rcases hp.owner_ticket hwas hj with ⟨hnone, u, hu, hat⟩
      refine ⟨hnone, u, ?_, hat⟩
      rw [hleft.view_eq, if_neg]
      · exact hu
      · intro hij
        subst hij
        rw [hticket_i] at hu
        cases hu
        exact hc hat
  case queue_ticket =>
    intro c was j hwas hj
    rcases hleft.cell_cases hwas with ⟨hc, hnew⟩ | ⟨_, hwas⟩
    · subst hc hnew
      rcases hqueue hj with ⟨hnone, hother, hmem⟩
      rcases hp.queue_ticket hcell hmem with ⟨_, _, u, hu, hat⟩
      refine ⟨hnone, hother, u, ?_, hat⟩
      rw [hleft.phases, if_neg (hp.ne_of_queued hi hcell hmem)]
      exact hu
    · rcases hp.queue_ticket hwas hj with ⟨hnone, hother, u, hu, hat⟩
      refine ⟨hnone, hother, u, ?_, hat⟩
      rw [hleft.phases, if_neg (hp.ne_of_queued hi hwas hj)]
      exact hu
  case queue_nodup =>
    intro c was hwas
    rcases hleft.cell_cases hwas with ⟨_, hnew⟩ | ⟨_, hwas⟩
    · subst hnew
      exact hnodup
    · exact hp.queue_nodup hwas
  case opening_owner =>
    intro j u hu
    rw [hleft.view_eq] at hu
    by_cases hij : i = j
    · rw [if_pos hij, hopening] at hu
      cases hu
    · rw [if_neg hij] at hu
      rcases hp.opening_owner hu with ⟨was, hwas, howns⟩
      refine ⟨was, ?_, howns⟩
      rw [hleft.cells, if_neg]
      · exact hwas
      · intro hc
        exact hij (hp.opening_inj hi hu hc)

theorem openCell (hp : Seated keyAt p) (target : Target) {t : Ticket}
    (hnew : t.cell = p.cells.length) (hfree : p.entry? t.key = none) :
    Seated (Function.update keyAt t.cell t.key) (p.openCell target t) := by
  have hold : forall {c : Nat}, c < p.cells.length ->
      Function.update keyAt t.cell t.key c = keyAt c := by
    intro c hc
    rw [Function.update_of_ne]
    omega
  have hself : Function.update keyAt t.cell t.key t.cell = t.key :=
    Function.update_self ..
  have hkeep : forall {c : Nat} {cell : Cell}, p.cells[c]? = some cell ->
      (p.openCell target t).cells[c]? = some cell := by
    intro c cell h
    rw [cells_openCell,
      if_neg (Nat.ne_of_lt (List.getElem?_eq_some_iff.mp h).1)]
    exact h
  have hlast : (p.openCell target t).cells[t.cell]? =
      some { owner := some p.calls.length } := by
    simp [hnew]
  have hback : forall {c : Nat} {cell : Cell},
      (p.openCell target t).cells[c]? = some cell ->
      p.cells[c]? = some cell ∨ c = t.cell ∧
        cell = { owner := some p.calls.length } := by
    intro c cell h
    rw [cells_openCell] at h
    by_cases hc : c = p.cells.length
    · rw [if_pos hc, Option.some.injEq] at h
      exact Or.inr ⟨hc.trans hnew.symm, h.symm⟩
    · rw [if_neg hc] at h
      exact Or.inl h
  have hlength : (p.openCell target t).cells.length = p.cells.length + 1 := by
    simp [Pool.openCell]
  constructor
  case keys_nodup =>
    change ((p.entries ++ [(t.key, t.cell)]).map Prod.fst).Nodup
    rw [List.map_append, List.nodup_append]
    refine ⟨hp.keys_nodup, by simp, ?_⟩
    intro a ha b hb hab
    rw [List.map_singleton, List.mem_singleton] at hb
    rw [hab, hb] at ha
    exact hp.not_mem_keys hfree ha
  case entry_key =>
    intro key c h
    rw [entry?_openCell target hfree] at h
    by_cases hkey : t.key = key
    · rw [if_pos hkey, Option.some.injEq] at h
      rw [← h, hself, hkey]
    · rw [if_neg hkey] at h
      rcases hp.manned h with ⟨cell, hcell, _⟩
      rw [hold (List.getElem?_eq_some_iff.mp hcell).1]
      exact hp.entry_key h
  case manned =>
    intro key c h
    rw [entry?_openCell target hfree] at h
    by_cases hkey : t.key = key
    · rw [if_pos hkey, Option.some.injEq] at h
      subst h
      exact ⟨_, hlast, Or.inr (by simp)⟩
    · rw [if_neg hkey] at h
      rcases hp.manned h with ⟨cell, hcell, hinterest⟩
      exact ⟨cell, hkeep hcell, hinterest⟩
  case ticket_key =>
    intro i u h
    rw [view_openCell] at h
    rw [hlength]
    by_cases hi : i = p.calls.length
    · rw [if_pos hi] at h
      cases h
      exact ⟨hself, by omega⟩
    · rw [if_neg hi] at h
      rcases hp.ticket_key h with ⟨hkey, hlt⟩
      exact ⟨(hold hlt).trans hkey, by omega⟩
  case owner_ticket =>
    intro c cell i hcell howner
    rcases hback hcell with hcell | ⟨hc, hnewcell⟩
    · rcases hp.owner_ticket hcell howner with ⟨hnone, u, hu, hat⟩
      refine ⟨hnone, u, ?_, hat⟩
      rw [view_openCell, if_neg (Nat.ne_of_lt (view_lt hu))]
      exact hu
    · subst hnewcell
      cases howner
      refine ⟨rfl, t, ?_, hc.symm⟩
      rw [view_openCell, if_pos rfl]
      rfl
  case queue_ticket =>
    intro c cell i hcell hqueue
    rcases hback hcell with hcell | ⟨_, hnewcell⟩
    · rcases hp.queue_ticket hcell hqueue with ⟨hnone, hother, u, hu, hat⟩
      refine ⟨hnone, hother, u, ?_, hat⟩
      rw [phase?_openCell, if_neg (Nat.ne_of_lt (phase?_lt hu))]
      exact hu
    · subst hnewcell
      cases hqueue
  case queue_nodup =>
    intro c cell hcell
    rcases hback hcell with hcell | ⟨_, hnewcell⟩
    · exact hp.queue_nodup hcell
    · subst hnewcell
      exact List.nodup_nil
  case opening_owner =>
    intro i u h
    rw [view_openCell] at h
    by_cases hi : i = p.calls.length
    · rw [if_pos hi] at h
      cases h
      exact ⟨_, hlast, by rw [hi]⟩
    · rw [if_neg hi] at h
      rcases hp.opening_owner h with ⟨cell, hcell, howner⟩
      exact ⟨cell, hkeep hcell, howner⟩

/-! ## Moves -/

theorem discard (hp : Seated keyAt p) {i h : Nat} {t : Ticket}
    (error : ClusterError) (hphase : p.phase? i = some (.queued t))
    (hfilled : p.cellHandle? t.cell = some h) :
    Seated keyAt (p.discard i h error) := by
  have hqueued : (p.closeHandle h).phase? i = some (.queued t) := by
    rw [phase?_closeHandle]
    exact hphase
  apply (hp.closeHandle h).retire hqueued
  · rfl
  · intro c cell hcell
    rcases closeHandle_eq p h with ⟨links, heq, _⟩
    rw [heq] at hcell
    exact hp.free_of_filled hphase hfilled hcell

theorem fill (hp : Seated keyAt p) {i l : Nat} {t : Ticket}
    (hphase : p.phase? i = some (.authenticating t l)) :
    Seated keyAt (p.fillCell i t l) := by
  have hopening : p.view Phase.opening? i = some t := view_of_phase? _ hphase
  rcases hp.opening_owner hopening with ⟨cell, hcell, _⟩
  have hleft : Vacated i t ⟨some p.handles.length, none, []⟩ (.queued t) p
      (p.fillCell i t l) := by
    refine ⟨rfl, ?_, cells_fillCell i l hcell, phase?_fillCell hphase⟩
    simp [fillCell, Pool.setPhase]
  refine hp.vacate hopening hcell hleft rfl ?_ ?_ ?_ ?_ ?_
  · intro u hu
    cases hu
    rfl
  · intro j hj
    cases hj
  · intro j hj
    cases hj
  · exact List.nodup_nil
  · intro key _
    exact Or.inl (by simp)

/-- Every move keeps the invariant, and only a new cell is given a key. -/
theorem move (hp : Seated keyAt p) (h : Move p q) :
    exists keyAt' : Nat -> Target,
      Seated keyAt' q ∧ forall c, c < p.cells.length -> keyAt' c = keyAt c := by
  have hsame (hq : Seated keyAt q) : exists keyAt' : Nat -> Target,
      Seated keyAt' q ∧ forall c, c < p.cells.length -> keyAt' c = keyAt c :=
    ⟨keyAt, hq, fun _ _ => rfl⟩
  cases h with
  | refuse target result =>
      apply hsame
      apply hp.addCall target rfl
      intro t ht
      cases ht
  | arrive target entry filled =>
      apply hsame
      rcases Option.isSome_iff_exists.mp filled with ⟨h, hfilled⟩
      rcases cellHandle?_eq_some.mp hfilled with ⟨cell, hcell, _⟩
      apply hp.addCall target rfl
      intro t ht
      cases ht
      exact ⟨hp.entry_key entry, (List.getElem?_eq_some_iff.mp hcell).1⟩
  | @wait t cell owner target entry found empty owned =>
      apply hsame
      have hadded : Seated keyAt (p.addCall target (.queued t)) := by
        apply hp.addCall target rfl
        intro u hu
        cases hu
        exact ⟨hp.entry_key entry, (List.getElem?_eq_some_iff.mp found).1⟩
      have hlast : (p.addCall target (.queued t)).phase? p.calls.length =
          some (.queued t) := by
        simp
      exact hadded.enqueue hlast
        (fun hother => hp.free_of_new hother) found empty
  | @found t target openPool new free =>
      refine ⟨Function.update keyAt t.cell t.key,
        hp.openCell target new free, ?_⟩
      intro c hc
      rw [Function.update_of_ne]
      omega
  | @forget key c h entry filled dead => exact hsame (hp.removeEntry key)
  | take phase filled entry openPool =>
      apply hsame
      exact hp.retire phase
        rfl (fun hcell => hp.free_of_filled phase filled hcell)
  | discard error phase filled => exact hsame (hp.discard error phase filled)
  | promote phase found owned =>
      exact hsame (hp.proceed phase rfl rfl found owned)
  | @dial i t phase =>
      apply hsame
      rcases hp.opening_owner (view_of_phase? Phase.opening? phase) with
        ⟨cell, hcell, howner⟩
      have hlinks :
          Seated keyAt
            { p with links := p.links ++ [{ endpoint := t.endpoint }] } :=
        hp.shrink (List.Sublist.refl _) rfl rfl
      exact hlinks.proceed phase rfl rfl hcell howner
  | fill phase => exact hsame (hp.fill phase)
  | @reject i t l error phase closed =>
      apply hsame
      rcases hp.opening_owner (view_of_phase? Phase.opening? phase) with
        ⟨cell, hcell, howner⟩
      exact hp.proceed phase rfl rfl hcell howner
  | @finish i h error phase =>
      apply hsame
      have hview : p.view Phase.ticket? i = none := view_of_phase? _ phase
      apply hp.retire phase rfl
      intro c cell hcell
      constructor
      · intro howner
        rcases hp.owner_ticket hcell howner with ⟨_, t, ht, _⟩
        rw [hview] at ht
        cases ht
      · intro hqueue
        rcases hp.queue_ticket hcell hqueue with ⟨_, _, t, ht, _⟩
        rw [phase] at ht
        cases ht
  | relink links length closing =>
      exact hsame (hp.shrink (List.Sublist.refl _) rfl rfl)
  | inform table cells => exact hsame (hp.shrink (List.Sublist.refl _) rfl rfl)
  | reorder perm leads =>
      have hnodup := (perm.map Prod.fst).nodup_iff.mpr hp.keys_nodup
      exact hsame (hp.confine hnodup perm.subset rfl rfl)

/-! ## Failing owners -/

/-- The pool after an owner has failed: its cell goes to the first call in the
queue, and the entry goes away, since the cell is empty. -/
theorem fail (hp : Seated keyAt p) {i : Nat} {t : Ticket} (error : ClusterError)
    (hopening : p.view Phase.opening? i = some t) :
    Seated keyAt (p.fail i t error) := by
  rcases hp.opening_cell hopening with ⟨cell, hcell, _, hempty⟩
  rcases view_eq_some.mp hopening with ⟨old, hold, _⟩
  have hunfilled : p.cellHandle? t.cell = none := by
    simp [cellHandle?, hcell, hempty]
  rcases forsake_eq p t with ⟨entries, heq, hsub⟩
  have hforsaken : Seated keyAt { p with entries } := hp.shrink hsub rfl rfl
  have hleft : Vacated i t cell.passOn (.finished (.error error))
      { p with entries } (p.fail i t error) := by
    refine ⟨?_, ?_, cells_fail i error hunfilled hcell,
      phase?_fail error hunfilled hold⟩
    · rw [fail_eq i error hunfilled, heq]
      rfl
    · rw [fail_eq i error hunfilled, heq]
      simp [Pool.setPhase, modifyCell]
  refine hforsaken.vacate hopening hcell hleft rfl ?_ ?_ ?_ ?_ ?_
  · intro u hu
    cases hu
  · intro j hj
    exact ⟨hempty, List.mem_of_head? hj⟩
  · intro j hj
    refine ⟨hempty, ?_, List.mem_of_mem_tail hj⟩
    intro hhead
    have hnodup := hp.queue_nodup hcell
    rcases List.head?_eq_some_iff.mp hhead with ⟨rest, hrest⟩
    change j ∈ cell.queue.tail at hj
    rw [hrest] at hnodup hj
    exact (List.nodup_cons.mp hnodup).1 hj
  · exact (hp.queue_nodup hcell).sublist (List.tail_sublist _)
  · intro key hentry
    rw [← heq, entry?_forsake] at hentry
    by_cases hgone : t.key = key ∧ p.entry? key = some t.cell
    · rw [if_pos hgone] at hentry
      cases hentry
    · rw [if_neg hgone] at hentry
      have hkey : t.key = key := by
        rw [← (hp.ticket_key (ticket?_of_opening? hopening)).1]
        exact hp.entry_key hentry
      exact absurd ⟨hkey, hentry⟩ hgone

end Seated
end Pool
end SlotCluster
