import SlotCluster.Proofs.Pool.Service

/-!
# Entries that are taken away

A sweep removes all entries that it finds stale at once and then closes their
connections one after the other, while calls go on.  What the other entries lead
to stays as it is.  A cell that has lost its entry gets none again, and a call
that still puts a connection into it closes that connection in the same step.
So when the sweep has nothing left to do, everything that it has removed is
closed, and remains so.
-/

namespace SlotCluster
namespace Pool

variable {keyAt : Nat -> Target} {p q r : Pool} {event : Event} {i c n : Nat}
  {t : Ticket}

/-! ## Pools that get no connection -/

/-- No cell has got a connection, no connection has got another link, and no
link has opened but new ones. -/
structure Settled (p q : Pool) : Prop where
  cells : forall {c h : Nat}, q.cellHandle? c = some h ->
    p.cellHandle? c = some h
  wires : forall {h : Nat} {wire : Target × Nat}, q.wire? h = some wire ->
    p.wire? h = some wire
  links : forall {l : Nat}, l < p.links.length -> q.isLinkOpen l = true ->
    p.isLinkOpen l = true
  length : p.links.length ≤ q.links.length

namespace Settled

theorem of_same (hcells : q.cells = p.cells) (hhandles : q.handles = p.handles)
    (hlinks : q.links = p.links) : Settled p q where
  cells := by
    unfold cellHandle?
    rw [hcells]
    exact id
  wires := by
    unfold wire?
    rw [hhandles]
    exact id
  links := by
    unfold isLinkOpen
    rw [hlinks]
    exact fun _ => id
  length := Nat.le_of_eq (congrArg List.length hlinks).symm

theorem refl (p : Pool) : Settled p p :=
  of_same rfl rfl rfl

theorem trans (hpq : Settled p q) (hqr : Settled q r) : Settled p r where
  cells h := hpq.cells (hqr.cells h)
  wires h := hpq.wires (hqr.wires h)
  links hl h := hpq.links hl (hqr.links (Nat.lt_of_lt_of_le hl hpq.length) h)
  length := Nat.le_trans hpq.length hqr.length

theorem relink {links : List Link} (hlength : p.links.length ≤ links.length)
    (hclosing : forall {l : Nat}, l < p.links.length ->
      isLinkOpen { p with links } l = true -> p.isLinkOpen l = true) :
    Settled p { p with links } where
  cells := id
  wires := id
  links := hclosing
  length := hlength

theorem closeLink (p : Pool) (l : Nat) : Settled p (p.closeLink l) := by
  apply relink
  · exact Nat.le_of_eq (List.length_modify ..).symm
  · intro m _ hopen
    change (p.closeLink l).isLinkOpen m = true at hopen
    rw [isLinkOpen_closeLink, Bool.and_eq_true] at hopen
    exact hopen.1

theorem closeHandle (p : Pool) (h : Nat) : Settled p (p.closeHandle h) := by
  unfold Pool.closeHandle
  split
  · exact closeLink p _
  · exact refl p

theorem modifyCell (p : Pool) (d : Nat) {f : Cell -> Cell}
    (hf : forall cell, (f cell).handle = cell.handle) :
    Settled p (p.modifyCell d f) where
  cells := by
    intro c h hc
    rcases cellHandle?_eq_some.mp hc with ⟨cell, hcell, hfilled⟩
    rw [cells_modifyCell] at hcell
    by_cases hdc : d = c
    · rw [if_pos hdc, Option.map_eq_some_iff] at hcell
      rcases hcell with ⟨was, hwas, hnew⟩
      rw [← hnew, hf] at hfilled
      exact cellHandle?_eq_some.mpr ⟨was, hwas, hfilled⟩
    · rw [if_neg hdc] at hcell
      exact cellHandle?_eq_some.mpr ⟨cell, hcell, hfilled⟩
  wires := id
  links _ := id
  length := Nat.le_refl _

theorem fresh (p : Pool) (entries : List (Target × Nat)) :
    Settled p { p with entries, cells := p.cells ++ [{}] } where
  cells := by
    intro c h hc
    rcases cellHandle?_eq_some.mp hc with ⟨cell, hcell, hfilled⟩
    change (p.cells ++ [({} : Cell)])[c]? = some cell at hcell
    by_cases hlt : c < p.cells.length
    · rw [List.getElem?_append_left hlt] at hcell
      exact cellHandle?_eq_some.mpr ⟨cell, hcell, hfilled⟩
    · rw [List.getElem?_append_right (Nat.le_of_not_lt hlt)] at hcell
      rw [List.mem_singleton.mp (List.mem_of_getElem? hcell)] at hfilled
      cases hfilled
  wires := id
  links _ := id
  length := Nat.le_refl _

theorem edit (h : Edit p q) : Settled p q := by
  cases h with
  | change change =>
      cases change with
      | setPhase i phase => exact of_same rfl rfl rfl
      | removeEntry key => exact of_same rfl rfl rfl
      | modifyCell c same => exact modifyCell p c same
      | closeHandle h => exact closeHandle p h
  | addCall target phase => exact of_same rfl rfl rfl
  | addCell key => exact fresh p _

theorem edits (h : Edits p q) : Settled p q := by
  induction h with
  | refl => exact refl p
  | tail _ last ih => exact ih.trans (edit last)

theorem conclude (p : Pool) (i : Nat) (t : Ticket) (h : Nat) :
    Settled p (p.conclude i t h) :=
  edits (changes_conclude p i t h).edits

theorem request (p : Pool) (target : Target) :
    Settled p (p.request target) :=
  edits (edits_request p target)

theorem resume (h : p.resume i t = some q) : Settled p q :=
  edits (changes_resume h).edits

theorem fail (p : Pool) (i : Nat) (t : Ticket) (error : ClusterError) :
    Settled p (p.fail i t error) :=
  edits (changes_fail p i t error).edits

theorem tidied {chores rest : List Chore} (h : Tidied chores p q rest) :
    Settled p q where
  cells hc := (h.cellHandle?_eq _).symm.trans hc
  wires hw := (h.wire?_eq _).symm.trans hw
  links _ := h.closing
  length := Nat.le_of_eq h.length.symm

theorem apply (p : Pool) (table : Shared) : Settled p (p.apply table) where
  cells := id
  wires := by
    intro h wire hwire
    unfold Pool.apply at hwire
    rw [wire?_informCells] at hwire
    exact hwire
  links _ := id
  length := Nat.le_refl _

end Settled

theorem settled_or_established (hstep : p.step event = some q) :
    Settled p q ∨
      exists i t l links,
        Settled p { p with links } ∧ q = establish { p with links } i t l := by
  have hcleaned {s : Pool} (hs : Settled p s) (chores : List Chore)
      (cleanups : List Cleanup) :
      Settled p { (s.runChores chores).1 with cleanups } :=
    (hs.trans (Settled.tidied (tidied_runChores s chores).1)).trans
      (Settled.of_same rfl rfl rfl)
  cases taken_of_step hstep with
  | request target => exact Or.inl (Settled.request p target)
  | resume _ resumed => exact Or.inl (Settled.resume resumed)
  | @linked i t phase =>
      have hdialed :
          Settled p { p with
            links := p.links ++ [{ endpoint := t.endpoint }] } := by
        apply Settled.relink
        · rw [List.length_append]
          exact Nat.le_add_right _ _
        · intro l hl hopen
          change ((p.links ++ [_])[l]?).any Link.isOpen = true at hopen
          rw [List.getElem?_append_left hl] at hopen
          exact hopen
      unfold linked
      dsimp only
      split
      · exact Or.inl (hdialed.trans (Settled.of_same rfl rfl rfl))
      · exact Or.inr ⟨i, t, _, _, hdialed, rfl⟩
  | notLinked _ => exact Or.inl (Settled.fail p _ _ _)
  | @accepted i l t phase =>
      refine Or.inr ⟨i, t, l, _, ?_, rfl⟩
      apply Settled.relink
      · exact Nat.le_of_eq (List.length_modify ..).symm
      · intro m _ hopen
        rw [isLinkOpen_authenticated] at hopen
        exact hopen
  | refused _ =>
      exact Or.inl ((Settled.closeLink p _).trans (Settled.of_same rfl rfl rfl))
  | rejected _ => exact Or.inl (Settled.fail p _ _ _)
  | discarded _ => exact Or.inl (Settled.of_same rfl rfl rfl)
  | apply table => exact Or.inl (Settled.apply p table)
  | reordered perm leads => exact Or.inl (Settled.of_same rfl rfl rfl)
  | sweep table =>
      exact Or.inl
        (hcleaned (s := p.swept table) (Settled.of_same rfl rfl rfl) _ _)
  | drain =>
      exact Or.inl
        (hcleaned (s := { p with isClosed := true })
          (Settled.of_same rfl rfl rfl) _ _)
  | cleaned _ => exact Or.inl (hcleaned (Settled.refl p) _ _)
  | broke l =>
      left
      apply Settled.relink
      · exact Nat.le_of_eq (List.length_modify ..).symm
      · intro m _ hopen
        unfold isLinkOpen at hopen ⊢
        rw [List.getElem?_modify] at hopen
        cases hlink : p.links[m]? with
        | none =>
            rw [hlink] at hopen
            cases hopen
        | some link =>
            rw [hlink] at hopen
            by_cases hlm : l = m
            · simp [hlm] at hopen
            · simpa [hlm] using hopen
  | closeHandle h => exact Or.inl (Settled.closeHandle p h)

/-!
## Cells without an entry

A call that puts its link into a cell without an entry closes it at once.
-/

structure Evicted (c : Nat) (p : Pool) : Prop where
  known : c < p.cells.length
  free : forall key, p.entry? key ≠ some c

theorem Evicted.aged (hp : Evicted c p) (h : Aged p q) : Evicted c q where
  known := Nat.lt_of_lt_of_le hp.known h.length
  free key hentry := hp.free key (h.entry_old hp.known hentry)

theorem Shut.settled (hp : Shut p c) (h : Settled p q)
    (hlt : forall {n l : Nat} {key : Target}, p.cellHandle? c = some n ->
        p.wire? n = some (key, l) -> l < p.links.length) : Shut q c := by
  intro n l key hcell hwire
  have hold := h.cells hcell
  rw [Bool.eq_false_iff]
  intro hopen
  have hstill := h.links (hlt hold (h.wires hwire)) hopen
  rw [hp n l key hold (h.wires hwire)] at hstill
  cases hstill

theorem shut_of_establish {l : Nat} {cell : Cell}
    (hcell : p.cells[t.cell]? = some cell)
    (haway : p.entry? t.key ≠ some t.cell) :
    Shut (p.establish i t l) t.cell := by
  have hgone {r : Pool} (hr : r.entry? t.key ≠ some t.cell) :
      (r.entry? t.key ≠ some t.cell || r.isClosed) = true := by
    rw [Bool.or_eq_true, decide_eq_true_eq]
    exact Or.inl hr
  have hdiscard : p.establish i t l =
      (p.filled t l).discard i p.handles.length (evictedError t) :=
    if_pos (hgone haway)
  have hfilled :
      (p.establish i t l).cellHandle? t.cell = some p.handles.length := by
    rcases closeHandle_eq (p.filled t l) p.handles.length with ⟨links, heq, _⟩
    rw [hdiscard, discard, heq]
    exact cellHandle?_filled l hcell
  intro h m key hh hwire
  rw [hfilled, Option.some.injEq] at hh
  subst hh
  rw [Bool.eq_false_iff]
  intro hopen
  have hlive := isOpen_iff_wire.mpr ⟨key, m, hwire, hopen⟩
  rw [hdiscard, isOpen_discard] at hlive
  cases hlive

theorem Shut.establish_of_ne (hw : Wired keyAt p) {l : Nat} {links : List Link}
    (hlinks : Settled p { p with links }) (hne : t.cell ≠ c) (hp : Shut p c) :
    Shut (establish { p with links } i t l) c := by
  have hcells :
      (filled { p with links } t l).cellHandle? c = p.cellHandle? c := by
    unfold cellHandle?
    change ((p.cells.modify t.cell _)[c]?).bind Cell.handle = _
    rw [List.getElem?_modify_ne _ _ hne]
  have hwires {h m : Nat} {key : Target} (hh : p.cellHandle? c = some h)
      (hwire : (filled { p with links } t l).wire? h = some (key, m)) :
      p.wire? h = some (key, m) := by
    change ((p.handles ++ [_])[h]?).map _ = _ at hwire
    rw [List.getElem?_append_left (hw.handle_lt hh)] at hwire
    exact hwire
  have hshut : Shut (filled { p with links } t l) c := by
    intro h m key hh hwire
    rw [hcells] at hh
    have hold := hp.settled hlinks (fun hn hm => hw.wire_lt hm)
    exact hold h m key hh (hwires hh hwire)
  refine hshut.settled (Settled.conclude _ i t p.handles.length)
    (fun {h m key} hh hwire => ?_)
  rw [hcells] at hh
  exact Nat.lt_of_lt_of_le (hw.wire_lt (hwires hh hwire)) hlinks.length

/-- What is closed in a cell without an entry stays closed, and whatever is put
there is closed, too. -/
theorem Evicted.shut_of_step (hw : Wired keyAt p) (hp : Evicted c p)
    (hshut : Shut p c) (hstep : p.step event = some q) : Shut q c := by
  rcases settled_or_established hstep with
    hsettled | ⟨i, t, l, links, hlinks, rfl⟩
  · exact hshut.settled hsettled (fun _ hwire => hw.wire_lt hwire)
  · by_cases hcell : t.cell = c
    · subst hcell
      exact shut_of_establish (p := { p with links })
        (List.getElem?_eq_getElem hp.known) (hp.free t.key)
    · exact Shut.establish_of_ne hw hlinks hcell hshut

/-!
## Cleanups in progress

A cleanup loses chores only, and a cell that is no longer among them is closed.
Cleanups are never forgotten.
-/

theorem entry_of_sweep (hs : Seated keyAt p) {table : Table} {key : Target}
    (h : entry? (p.sweep table) key = some c) :
    p.entry? key = some c ∧ key.isStale table = false :=
  (entry?_swept hs table).mp
    ((tidied_runChores (p.swept table) _).1.entry_old h)

structure Dwindles (k m : Cleanup) (q : Pool) : Prop where
  chores : m.chores.Sublist k.chores
  done : forall {c : Nat}, Chore.cell c ∈ k.chores ->
    Chore.cell c ∈ m.chores ∨ q.Shut c
  evicted : m.evicted = k.evicted

theorem Dwindles.refl (k : Cleanup) (q : Pool) : Dwindles k k q :=
  ⟨List.Sublist.refl _, Or.inl, rfl⟩

theorem cleanups_beginCleanup (p : Pool) (chores : List Chore) (evicted : Nat) :
    (p.beginCleanup chores evicted).cleanups =
      p.cleanups ++
        [⟨(p.runChores chores).2.1, (p.runChores chores).2.2, evicted⟩] := by
  change (p.runChores chores).1.cleanups ++ [_] = _
  rw [(tidied_runChores p chores).1.frame]

theorem cleanups_continueCleanup (p : Pool) (n : Nat) (k : Cleanup) :
    (p.continueCleanup n k).cleanups =
      p.cleanups.set n
        { k with
          chores := (p.runChores k.chores).2.1
          closing := (p.runChores k.chores).2.2 } := by
  change (p.runChores k.chores).1.cleanups.set n _ = _
  rw [(tidied_runChores p k.chores).1.frame]

theorem cleanup_of_kind (h : Kind p event q) {k : Cleanup}
    (hk : p.cleanups[n]? = some k) :
    exists m, q.cleanups[n]? = some m ∧ Dwindles k m q ∧
      (event ≠ .cleaned n -> m = k) := by
  have hlt : n < p.cleanups.length := (List.getElem?_eq_some_iff.mp hk).1
  have hsame (hq : q.cleanups[n]? = some k) : exists m,
      q.cleanups[n]? = some m ∧ Dwindles k m q ∧
      (event ≠ .cleaned n -> m = k) :=
    ⟨k, hq, Dwindles.refl k q, fun _ => rfl⟩
  have hbegun {s : Pool} (hs : s.cleanups = p.cleanups) (chores : List Chore)
      (evicted : Nat) :
      (s.beginCleanup chores evicted).cleanups[n]? = some k := by
    rw [cleanups_beginCleanup, hs, List.getElem?_append_left hlt]
    exact hk
  cases h with
  | moves chain =>
      apply hsame
      rw [(moves_frame chain).1]
      exact hk
  | notLinked _ =>
      apply hsame
      rw [(fail_frame ..).1]
      exact hk
  | rejected _ =>
      apply hsame
      rw [(fail_frame ..).1]
      exact hk
  | sweep table => exact hsame (hbegun (s := p.swept table) rfl _ _)
  | drain => exact hsame (hbegun (s := { p with isClosed := true }) rfl _ _)
  | @cleaned m k' found =>
      have htidied := (tidied_runChores p k'.chores).1
      have hlist := cleanups_continueCleanup p m k'
      by_cases hmn : m = n
      · subst hmn
        rw [hk, Option.some.injEq] at found
        subst found
        refine ⟨{ k with
          chores := (p.runChores k.chores).2.1,
          closing :=
            (p.runChores k.chores).2.2 }, ?_,
              ⟨htidied.left, htidied.cell_done, rfl⟩, fun hne => absurd rfl hne⟩
        rw [hlist, List.getElem?_set_self hlt]
      · apply hsame
        rw [hlist, List.getElem?_set_ne hmn]
        exact hk

theorem cleanup_of_run (hp : Sound p) {events : List Event}
    (hrun : p.run events = some q) {k : Cleanup}
    (hk : p.cleanups[n]? = some k) : exists m, q.cleanups[n]? = some m := by
  refine (run_induction (I := fun p => exists m, p.cleanups[n]? = some m) ?_ hp
    ⟨k, hk⟩ hrun).2
  intro p q event _ hi hkind
  rcases hi with ⟨k, hk⟩
  rcases cleanup_of_kind hkind hk with ⟨m, hm, _⟩
  exact ⟨m, hm⟩

/-- The cell has lost its entry to a cleanup, which closes what is in the cell
or has done so. -/
structure Leaving (n c : Nat) (p : Pool) : Prop extends Evicted c p where
  closes : p.Shut c ∨
    exists k, p.cleanups[n]? = some k ∧ Chore.cell c ∈ k.chores

def Sweeping (n : Nat) (p : Pool) : Prop :=
  exists k, p.cleanups[n]? = some k ∧
    forall {chore : Chore}, chore ∈ k.chores ->
    exists c, chore = .cell c ∧ Evicted c p

theorem Leaving.step (hp : Sound p) (h : Leaving n c p)
    (hstep : p.step event = some q) : Leaving n c q := by
  refine ⟨h.toEvicted.aged (Aged.step hp hstep), ?_⟩
  rcases h.closes with hshut | ⟨k, hk, hchore⟩
  · rcases hp with ⟨keyAt, _, hw⟩
    exact Or.inl (h.toEvicted.shut_of_step hw hshut hstep)
  · rcases cleanup_of_kind (hp.kind_of hstep) hk with ⟨m, hm, hdwindles, _⟩
    rcases hdwindles.done hchore with hleft | hshut
    · exact Or.inr ⟨m, hm, hleft⟩
    · exact Or.inl hshut

theorem Sweeping.step (hp : Sound p) (h : Sweeping n p)
    (hstep : p.step event = some q) : Sweeping n q := by
  rcases h with ⟨k, hk, hchores⟩
  rcases cleanup_of_kind (hp.kind_of hstep) hk with ⟨m, hm, hdwindles, _⟩
  refine ⟨m, hm, fun hmem => ?_⟩
  rcases hchores (hdwindles.chores.subset hmem) with ⟨c, heq, hc⟩
  exact ⟨c, heq, hc.aged (Aged.step hp hstep)⟩

theorem Leaving.run {events : List Event} (hp : Sound p) (h : Leaving n c p)
    (hrun : p.run events = some q) : Leaving n c q :=
  hp.induction (I := Leaving n c) h hrun (fun hp hi hr => hi.step hp hr)

theorem Sweeping.run {events : List Event} (hp : Sound p) (h : Sweeping n p)
    (hrun : p.run events = some q) : Sweeping n q :=
  hp.induction (I := Sweeping n) h hrun (fun hp hi hr => hi.step hp hr)

/-- A cleanup that waits for nothing has closed everything. -/
theorem Leaving.shut (hp : Tended p) (h : Leaving n c p)
    (hidle : forall {k : Cleanup}, p.cleanups[n]? = some k ->
        k.closing = none) : Shut p c := by
  rcases h.closes with hshut | ⟨k, hk, hchore⟩
  · exact hshut
  · rw [hp.idle (List.mem_of_getElem? hk) (hidle hk)] at hchore
    cases hchore

/-! ## What sweeps take away, and what they leave -/

def staleChores (p : Pool) (table : Table) : List Chore :=
  (p.entries.filter (fun e => e.1.isStale table)).map (fun e => .cell e.2)

theorem cleanup_of_sweep (p : Pool) (table : Table) : exists k,
    (p.sweep table).cleanups[p.cleanups.length]? = some k ∧
      k.chores = ((p.swept table).runChores (p.staleChores table)).2.1 ∧
      k.evicted = (p.entries.filter (fun e => e.1.isStale table)).length := by
  have hlist : (p.sweep table).cleanups = p.cleanups ++ [_] :=
    cleanups_beginCleanup (p.swept table) (p.staleChores table) _
  rw [hlist]
  exact ⟨_, List.getElem?_concat_length, rfl, rfl⟩

theorem evicted_of_sweep (hs : Seated keyAt p) {table : Table}
    {e : Target × Nat} (he : e ∈ p.entries)
    (hstale : e.1.isStale table = true) : Evicted e.2 (p.sweep table) where
  known := by
    have hentry : p.entry? e.1 = some e.2 :=
      (entry?_eq_some hs.keys_nodup).mpr he
    rcases hs.manned hentry with ⟨cell, hcell, _⟩
    have hcells : (p.sweep table).cells = p.cells := by
      change ((p.swept table).runChores _).1.cells = p.cells
      rw [(tidied_runChores (p.swept table) _).1.frame]
      rfl
    rw [hcells]
    exact (List.getElem?_eq_some_iff.mp hcell).1
  free key hentry := by
    rcases entry_of_sweep hs hentry with ⟨hold, hfresh⟩
    rw [hs.entry_inj hold ((entry?_eq_some hs.keys_nodup).mpr he),
      hstale] at hfresh
    cases hfresh

theorem leaving_of_sweep (hp : Sound p) {table : Table} {e : Target × Nat}
    (he : e ∈ p.entries) (hstale : e.1.isStale table = true) :
    Leaving p.cleanups.length e.2 (p.sweep table) := by
  rcases hp with ⟨keyAt, hs, _⟩
  refine ⟨evicted_of_sweep hs he hstale, ?_⟩
  have hchore : Chore.cell e.2 ∈ p.staleChores table :=
    List.mem_map_of_mem (f := fun e => Chore.cell e.2)
      (List.mem_filter.mpr ⟨he, hstale⟩)
  rcases (tidied_runChores (p.swept table) _).1.cell_done hchore with
    hleft | hshut
  · rcases cleanup_of_sweep p table with ⟨k, hk, hchores, _⟩
    exact Or.inr ⟨k, hk, hchores ▸ hleft⟩
  · exact Or.inl hshut

theorem sweeping_of_sweep (hp : Sound p) (table : Table) :
    Sweeping p.cleanups.length (p.sweep table) := by
  rcases hp with ⟨keyAt, hs, _⟩
  rcases cleanup_of_sweep p table with ⟨k, hk, hchores, _⟩
  refine ⟨k, hk, fun hmem => ?_⟩
  rw [hchores] at hmem
  rcases List.mem_map.mp
    ((tidied_runChores (p.swept table) _).1.left.subset hmem) with ⟨e, he, rfl⟩
  rcases List.mem_filter.mp he with ⟨he, hstale⟩
  exact ⟨e.2, rfl, evicted_of_sweep hs he hstale⟩

/-- Nothing has changed but entries, cleanups and links, and the links of the
entries that are left have not changed either. -/
structure Untouched (p q : Pool) : Prop where
  frame : q = { p with
    entries := q.entries
    links := q.links
    cleanups := q.cleanups }
  links : forall {e : Target × Nat} {h l : Nat} {key : Target}, e ∈ q.entries ->
    q.cellHandle? e.2 = some h -> q.wire? h = some (key, l) ->
    q.links[l]? = p.links[l]?

theorem Untouched.cleanups (h : Untouched p q) (cleanups : List Cleanup) :
    Untouched p { q with cleanups } where
  frame := by rw [h.frame]
  links he := h.links he

theorem Untouched.cellHandle?_eq (h : Untouched p q) (c : Nat) :
    q.cellHandle? c = p.cellHandle? c := by
  rw [h.frame]
  rfl

theorem Untouched.wire?_eq (h : Untouched p q) (n : Nat) :
    q.wire? n = p.wire? n := by
  rw [h.frame]
  rfl

theorem entries_runChores (p : Pool) {chores : List Chore}
    (hcells : forall {chore : Chore}, chore ∈ chores ->
      exists c, chore = .cell c) :
    (p.runChores chores).1.entries = p.entries := by
  induction chores with
  | nil => rfl
  | cons chore rest ih =>
      rcases hcells List.mem_cons_self with ⟨c, rfl⟩
      unfold runChores
      dsimp only [takeChore]
      split
      · rfl
      · exact ih (fun hmem => hcells (List.mem_cons_of_mem _ hmem))

theorem untouched_runChores (hs : Seated keyAt p) (hw : Wired keyAt p)
    {chores : List Chore}
    (hchores : forall {chore : Chore}, chore ∈ chores ->
      exists c, chore = .cell c ∧ forall key, p.entry? key ≠ some c) :
    (p.runChores chores).1.entries = p.entries ∧
      Untouched p (p.runChores chores).1 := by
  have htidied := (tidied_runChores p chores).1
  have hentries : (p.runChores chores).1.entries = p.entries := by
    apply entries_runChores
    intro chore hmem
    rcases hchores hmem with ⟨c, heq, _⟩
    exact ⟨c, heq⟩
  refine ⟨hentries, ?_, ?_⟩
  · rw [htidied.frame]
  · intro e h l key he hcell hwire
    rw [htidied.cellHandle?_eq] at hcell
    rw [htidied.wire?_eq] at hwire
    rw [hentries] at he
    apply links_runChores
    -- The connection is in one cell, and that cell has an entry.
    intro chore c g other hmem habout hg hother
    rcases hchores hmem with ⟨d, rfl, hfree⟩
    cases habout
    have hsame : g = h := hw.wire_inj hother hwire
    subst hsame
    have hcells : c = e.2 := hw.cell_inj hg hcell
    exact hfree e.1 (hcells ▸ (entry?_eq_some hs.keys_nodup).mpr he)

theorem untouched_sweep (hp : Sound p) (table : Table) :
    (p.sweep table).entries = p.entries.filter (fun e => !e.1.isStale table) ∧
      Untouched p (p.sweep table) := by
  have hswept : Sound (p.swept table) := hp.clean rfl List.filter_sublist rfl
  rcases hp with ⟨keyAt, hs, _⟩
  rcases hswept with ⟨keyAt', hs', hw'⟩
  have hchores {chore : Chore} (hmem : chore ∈ p.staleChores table) : exists c,
      chore = .cell c ∧ forall key, entry? (p.swept table) key ≠ some c := by
    rcases List.mem_map.mp hmem with ⟨e, he, rfl⟩
    rcases List.mem_filter.mp he with ⟨he, hstale⟩
    refine ⟨e.2, rfl, fun key hentry => ?_⟩
    rcases (entry?_swept hs table).mp hentry with ⟨hold, hfresh⟩
    rw [hs.entry_inj hold ((entry?_eq_some hs.keys_nodup).mpr he),
      hstale] at hfresh
    cases hfresh
  rcases untouched_runChores hs' hw' hchores with ⟨hentries, huntouched⟩
  have hswept := huntouched.cleanups (p.sweep table).cleanups
  exact ⟨hentries, hswept.frame, hswept.links⟩

theorem untouched_cleaned (hp : Sound p) (h : Sweeping n p)
    (hstep : p.step (.cleaned n) = some q) :
    q.entries = p.entries ∧ Untouched p q := by
  rcases hp with ⟨keyAt, hs, hw⟩
  rcases h with ⟨k, hk, hchores⟩
  cases taken_of_step hstep with
  | @cleaned _ found hfound =>
      rw [hk, Option.some.injEq] at hfound
      subst hfound
      rcases untouched_runChores hs hw (fun hmem => by
        rcases hchores hmem with ⟨c, heq, hc⟩
        exact ⟨c, heq, hc.free⟩) with ⟨hentries, huntouched⟩
      exact ⟨hentries, huntouched.cleanups _⟩

/-!
## How far a cleanup is from its end

A cleanup that waits goes on when it is told to, and each time it has fewer
chores left.
-/

theorem runChores_length (p : Pool) (chores : List Chore) :
    (p.runChores chores).2.2 = none ∨
      (p.runChores chores).2.1.length < chores.length := by
  induction chores generalizing p with
  | nil => exact Or.inl rfl
  | cons chore rest ih =>
      unfold runChores
      dsimp only
      split
      · exact Or.inr (Nat.lt_succ_self _)
      · exact (ih _).imp_right (fun hlt => Nat.lt_succ_of_lt hlt)

theorem cleaned_of_closing {k : Cleanup} (hk : p.cleanups[n]? = some k)
    (hclosing : k.closing.isSome = true) :
    exists q m, p.step (.cleaned n) = some q ∧ q.cleanups[n]? = some m ∧
      (m.closing = none ∨ m.chores.length < k.chores.length) := by
  have hlt : n < p.cleanups.length := (List.getElem?_eq_some_iff.mp hk).1
  refine ⟨p.continueCleanup n k,
    { k with
      chores := (p.runChores k.chores).2.1
      closing := (p.runChores k.chores).2.2 }, ?_, ?_, ?_⟩
  · simp only [step, hk, hclosing, if_true]
  · rw [cleanups_continueCleanup]
    exact List.getElem?_set_self hlt
  · exact runChores_length p k.chores

end Pool
end SlotCluster
