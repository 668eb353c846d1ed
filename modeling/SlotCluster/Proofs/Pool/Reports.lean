import SlotCluster.Proofs.Pool.CallTargets
import SlotCluster.Proofs.Pool.Evictions

/-!
# What a pool says about its connections

A pool says that it is connected to a target when it has a connection under the
key of the target.  It does not look whether that connection is still open: it
learns of one that has closed by itself, or that its holder has closed, when the
next call for the key begins.  Until then the answer is wrong, and it is wrong
in no other case.  Whoever closes a connection within an open pool has taken its
entry away before or takes it away in the same step; only while a pool is being
closed may a call discard a connection whose entry is still there.
-/

namespace SlotCluster
namespace Pool

variable {keyAt : Nat -> Target} {p q : Pool} {event : Event}
  {i c g h l m n : Nat} {t : Ticket} {key target : Target}

/-! ## The answer -/

/-- What the pool says about a target is true. -/
def Tells (p : Pool) (target : Target) : Prop :=
  p.isConnected target = true <-> exists h, p.Finds target h ∧ p.isOpen h = true

theorem isConnected_iff :
    p.isConnected target = true <-> exists h, p.Finds target h := by
  unfold isConnected
  constructor
  · intro hsome
    split at hsome
    · rename_i key endpoint hresolve
      rcases Option.isSome_iff_exists.mp hsome with ⟨h, hbind⟩
      rcases Option.bind_eq_some_iff.mp hbind with ⟨c, hentry, hfilled⟩
      exact ⟨h, key, endpoint, c, hresolve, hentry, hfilled⟩
    · cases hsome
  · intro hfinds
    rcases hfinds with ⟨h, key, endpoint, c, hresolve, hentry, hfilled⟩
    simp only [hresolve, hentry, Option.bind_some, hfilled, Option.isSome_some]

theorem Finds.unique (hg : p.Finds target g)
    (hh : p.Finds target h) : g = h := by
  rcases hg with ⟨key, endpoint, c, hresolve, hentry, hfilled⟩
  rcases hh with ⟨key', endpoint', d, hresolve', hentry', hfilled'⟩
  rw [hresolve] at hresolve'
  cases hresolve'
  rw [hentry] at hentry'
  cases hentry'
  exact Option.some.inj (hfilled.symm.trans hfilled')

theorem Finds.holds (hfinds : p.Finds target h) :
    exists key endpoint,
      target.resolve p.table.table p.fallback = .ok (key, endpoint) ∧
      p.Holds key h := by
  rcases hfinds with ⟨key, endpoint, c, hresolve, hentry, hfilled⟩
  exact ⟨key, endpoint, hresolve, c, hentry, hfilled⟩

theorem tells_iff :
    p.Tells target <-> forall h, p.Finds target h -> p.isOpen h = true := by
  unfold Tells
  rw [isConnected_iff]
  constructor
  · intro htells h hfinds
    rcases htells.mp ⟨h, hfinds⟩ with ⟨g, hfound, hopen⟩
    exact hfinds.unique hfound ▸ hopen
  · intro hall
    constructor
    · intro hsome
      rcases hsome with ⟨h, hfinds⟩
      exact ⟨h, hfinds, hall h hfinds⟩
    · intro hsome
      rcases hsome with ⟨h, hfinds, _⟩
      exact ⟨h, hfinds⟩

/-! ## Calls find out -/

theorem not_finds_openCell {endpoint : Endpoint}
    (hresolve : target.resolve p.table.table p.fallback = .ok (key, endpoint))
    (hfree : p.entry? key = none) :
    ¬ (p.openCell target ⟨key, endpoint, p.cells.length⟩).Finds target h := by
  intro hfinds
  rcases hfinds with ⟨key', endpoint', c, hresolve', hentry, hfilled⟩
  change target.resolve p.table.table p.fallback = _ at hresolve'
  rw [hresolve] at hresolve'
  cases hresolve'
  rw [entry?_openCell target (t := ⟨key, endpoint, p.cells.length⟩) hfree,
    if_pos rfl, Option.some.injEq] at hentry
  subst hentry
  rw [cellHandle?_openCell] at hfilled
  have hlt := cellHandle?_lt hfilled
  exact absurd hlt (Nat.lt_irrefl _)

/-- A call leaves links as they are when it begins.  If it finds a connection
that has closed, it takes the entry away, so what the pool says is true
again. -/
theorem request_tells (hmanned : p.Manned) (hopen : p.isClosed = false) :
    (p.request target).links = p.links ∧ (p.request target).Tells target := by
  rw [tells_iff]
  have hrequested := requested target hmanned
  generalize p.request target = q at hrequested ⊢
  cases hrequested with
  | shut closed =>
      rw [hopen] at closed
      cases closed
  | unresolved _ unknown =>
      refine ⟨rfl, fun h hfinds => ?_⟩
      rcases hfinds with ⟨key, endpoint, c, resolve, _⟩
      cases unknown.symm.trans resolve
  | found _ resolve free =>
      exact ⟨rfl, fun h hfinds =>
        absurd hfinds (not_finds_openCell resolve free)⟩
  | @replaced key _ _ _ _ resolve _ _ _ =>
      have hfree : Pool.entry? (p.removeEntry key) key = none := by simp
      exact ⟨rfl, fun h hfinds =>
        absurd hfinds
          (not_finds_openCell (p := p.removeEntry key) resolve hfree)⟩
  | @waits _ _ c _ cell _ resolve entry found empty _ =>
      refine ⟨rfl, fun h hfinds => ?_⟩
      rcases hfinds with ⟨key', endpoint', d, hresolve, hentry, hfilled⟩
      cases resolve.symm.trans hresolve
      cases entry.symm.trans hentry
      rcases cellHandle?_eq_some.mp hfilled with ⟨cell', hcell, hhandle⟩
      rw [cells_modifyCell, if_pos rfl] at hcell
      change (p.cells[c]?).map _ = _ at hcell
      rw [found, Option.map_some, Option.some.injEq] at hcell
      subst hcell
      cases empty.symm.trans hhandle
  | @shares key endpoint c g openPool resolve entry filled live =>
      have hfinds : p.Finds target g :=
        ⟨key, endpoint, c, resolve, entry, filled⟩
      rw [conclude_found openPool resolve entry]
      exact ⟨rfl, fun h hfound => hfinds.unique (p := p) hfound ▸ live⟩

/-!
## Cleanups of a pool that is not closed

Only a sweep begins a cleanup, and cleanups are about cells that have lost
their entries.
-/

theorem cleanups_of_kind (hp : Sound p) (hkind : Kind p event q)
    (hopen : q.isClosed = false) :
    q.cleanups.length = p.cleanups.length ∨
      exists table, event = .sweep table := by
  cases hkind with
  | moves chain => exact Or.inl (congrArg List.length (moves_frame chain).1)
  | notLinked _ => exact Or.inl (congrArg List.length (fail_frame ..).1)
  | rejected _ => exact Or.inl (congrArg List.length (fail_frame ..).1)
  | sweep table => exact Or.inr ⟨table, rfl⟩
  | drain =>
      rw [(Draining.start hp).closed] at hopen
      cases hopen
  | cleaned _ =>
      rw [cleanups_continueCleanup, List.length_set]
      exact Or.inl rfl

theorem sweeping_of_run {table : Shared} {fallback : Endpoint}
    {events : List Event} (hrun : run { table, fallback } events = some p)
    (hopen : p.isClosed = false) (hn : n < p.cleanups.length) :
    Sweeping n p := by
  have hall : p.isClosed = true ∨
      forall n, n < p.cleanups.length -> Sweeping n p := by
    refine (Sound.start table fallback).induction
      (I :=
        fun p => p.isClosed = true ∨
        forall n, n < p.cleanups.length -> Sweeping n p)
      (Or.inr (fun n hn => absurd hn (Nat.not_lt_zero n))) hrun
      (fun {p q event} hp hi hstep => ?_)
    cases hclosed : q.isClosed with
    | true => exact Or.inl rfl
    | false =>
        right
        intro n hn
        have hold : n < p.cleanups.length -> Sweeping n q := by
          intro hlt
          rcases hi with hi | hi
          · rw [isClosed_of_step hp hi hstep] at hclosed
            cases hclosed
          · exact (hi n hlt).step hp hstep
        rcases cleanups_of_kind hp (hp.kind_of hstep) hclosed with
          hlength | ⟨known, hevent⟩
        · exact hold (hlength ▸ hn)
        · subst hevent
          cases hstep
          by_cases hlt : n < p.cleanups.length
          · exact hold hlt
          · have hlength :
                (p.sweep known).cleanups.length = p.cleanups.length + 1 := by
              unfold sweep
              rw [cleanups_beginCleanup, List.length_append]
              rfl
            have hlast : n = p.cleanups.length := by omega
            rw [hlast]
            exact sweeping_of_sweep hp known
  rcases hall with hclosed | hall
  · rw [hclosed] at hopen
    cases hopen
  · exact hall n hn

/-! ## Connections that are in the pool -/

theorem conclude_eq (p : Pool) (i : Nat) (t : Ticket) (h : Nat) :
    exists entries links calls,
      p.conclude i t h = { p with entries, links, calls } := by
  have hdiscard (r : Pool) (error : ClusterError) :
      exists links calls, r.discard i h error = { r with links, calls } := by
    rcases closeHandle_eq r h with ⟨links, heq, _⟩
    unfold discard
    rw [heq]
    exact ⟨links, _, rfl⟩
  unfold conclude
  split
  · rcases hdiscard p (evictedError t) with ⟨links, calls, heq⟩
    exact ⟨p.entries, links, calls, heq⟩
  · split
    · rename_i id _
      split
      · rcases hdiscard (p.removeEntry t.key) (.unknownNode id) with
          ⟨links, calls, heq⟩
        exact ⟨_, links, calls, heq⟩
      · exact ⟨p.entries, p.links, _, rfl⟩
    · exact ⟨p.entries, p.links, _, rfl⟩

@[simp]
theorem wire?_conclude (p : Pool) (i : Nat) (t : Ticket) (h n : Nat) :
    (p.conclude i t h).wire? n = p.wire? n := by
  rcases conclude_eq p i t h with ⟨entries, links, calls, heq⟩
  rw [heq]
  rfl

@[simp]
theorem cellHandle?_conclude (p : Pool) (i : Nat) (t : Ticket) (h c : Nat) :
    (p.conclude i t h).cellHandle? c = p.cellHandle? c := by
  rcases conclude_eq p i t h with ⟨entries, links, calls, heq⟩
  rw [heq]
  rfl

theorem links_conclude (hopen : p.isClosed = false)
    (hentry : entry? (p.conclude i t h) t.key = some t.cell) :
    (p.conclude i t h).links = p.links := by
  have hdiscard (r : Pool) (error : ClusterError) :
      entry? (r.discard i h error) t.key = r.entry? t.key := by
    rcases closeHandle_eq r h with ⟨links, heq, _⟩
    unfold discard
    rw [heq]
    rfl
  unfold conclude at hentry ⊢
  split at hentry
  · rename_i hgone
    rw [hdiscard] at hentry
    rw [hentry, hopen] at hgone
    simp at hgone
  · rename_i hhere
    rw [if_neg hhere]
    split at hentry
    · split at hentry
      · rw [hdiscard, entry?_removeEntry, if_pos rfl] at hentry
        cases hentry
      · rename_i hfresh
        rw [if_neg hfresh]
        rfl
    · rfl

theorem open_of_conclude (hw : Wired keyAt (p.conclude i t g))
    (hopen : p.isClosed = false) (hown : p.wire? g = some (t.key, m))
    (hcell : p.cellHandle? t.cell = some g)
    (hholds : (p.conclude i t g).Holds key h)
    (hwire : (p.conclude i t g).wire? h = some (key, l))
    (hl : p.isLinkOpen l = true) : (p.conclude i t g).isLinkOpen l = true := by
  rcases open_conclude i t g hl with hstill | ⟨key', hclosed⟩
  · exact hstill
  -- The link belongs to the connection of the call, so the entry is that of the
  -- call.
  · have hsame : g = h :=
      hw.wire_inj ((wire?_conclude p i t g g).trans hclosed) hwire
    subst hsame
    rw [wire?_conclude, hown] at hwire
    cases hwire
    rcases hholds with ⟨c, hentry, hfilled⟩
    rw [← hw.cell_inj ((cellHandle?_conclude p i t g t.cell).trans hcell)
      hfilled] at hentry
    unfold isLinkOpen
    rw [links_conclude hopen hentry]
    exact hl

@[simp]
theorem wire?_filled (p : Pool) (t : Ticket) (l h : Nat) :
    (p.filled t l).wire? h =
      if h = p.handles.length then some (t.key, l) else p.wire? h :=
  wire?_fillCell p 0 t l h

inductive Fades (p : Pool) (key : Target) (h l : Nat) : Event -> Prop where
  | already {event : Event} (holds : p.Holds key h)
      (wire : p.wire? h = some (key, l)) (closed : p.isLinkOpen l = false) :
      Fades p key h l event
  | handshake {event : Event} {i : Nat} {t : Ticket}
      (phase : p.phase? i = some (.authenticating t l))
      (closed : p.isLinkOpen l = false) : Fades p key h l event
  | broke : Fades p key h l (.broke l)
  | closeHandle : Fades p key h l (.closeHandle h)

theorem fades_of_settled (hp : Sound p) (hstep : p.step event = some q)
    (hsettled : Settled p q) (hholds : q.Holds key h)
    (hwire : q.wire? h = some (key, l))
    (hopen : p.wire? h = some (key, l) -> p.isLinkOpen l = true ->
      q.isLinkOpen l = true ∨ Fades p key h l event) :
    q.isLinkOpen l = true ∨ Fades p key h l event := by
  rcases hholds with ⟨c, hentry, hfilled⟩
  have hbefore := hsettled.cells hfilled
  have hold : p.Holds key h :=
    ⟨c, (Aged.step hp hstep).entry_old (cellHandle?_lt hbefore) hentry, hbefore⟩
  cases hl : p.isLinkOpen l with
  | false => exact Or.inr (Fades.already hold (hsettled.wires hwire) hl)
  | true => exact hopen (hsettled.wires hwire) hl

theorem fades_of_untouched (hp : Sound p) (hstep : p.step event = some q)
    (hun : Untouched p q) (hholds : q.Holds key h)
    (hwire : q.wire? h = some (key, l)) :
    q.isLinkOpen l = true ∨ Fades p key h l event := by
  rcases hp.step hstep with ⟨keyAt, hs, _⟩
  rcases hholds with ⟨c, hentry, hfilled⟩
  have hlink :=
    hun.links ((entry?_eq_some hs.keys_nodup).mp hentry) hfilled hwire
  rw [hun.cellHandle?_eq] at hfilled
  rw [hun.wire?_eq] at hwire
  cases hl : p.isLinkOpen l with
  | false =>
      have hold :=
        (Aged.step hp hstep).entry_old (cellHandle?_lt hfilled) hentry
      exact Or.inr (Fades.already ⟨c, hold, hfilled⟩ hwire hl)
  | true =>
      left
      unfold isLinkOpen
      rw [hlink]
      exact hl

theorem fades_of_establish {links : List Link} {own : Nat} (hp : Sound p)
    (hstep : p.step event = some (establish { p with links } i t own))
    (hopen : p.isClosed = false)
    (hcell : exists cell, p.cells[t.cell]? = some cell)
    (hkept : forall {m : Nat}, p.isLinkOpen m = true ->
      isLinkOpen { p with links } m = true)
    (hholds : (establish { p with links } i t own).Holds key h)
    (hwire : (establish { p with links } i t own).wire? h = some (key, l))
    (hown : isLinkOpen { p with links } own = true ∨ Fades p key h own event) :
    (establish { p with links } i t own).isLinkOpen l = true ∨
      Fades p key h l event := by
  rcases hp.step hstep with ⟨keyAt, hs, hw⟩
  rcases hcell with ⟨cell, hcell⟩
  have hwires (n : Nat) : (establish { p with links } i t own).wire? n =
      if n = p.handles.length then some (t.key, own) else p.wire? n :=
    (wire?_conclude (filled { p with links } t own) i t _ n).trans
      (wire?_filled { p with links } t own n)
  have hcells (c : Nat) : (establish { p with links } i t own).cellHandle? c =
      (filled { p with links } t own).cellHandle? c :=
    cellHandle?_conclude (filled { p with links } t own) i t _ c
  have hstill {m : Nat}
    (hsame : (establish { p with links } i t own).wire? h = some (key, m))
      (hm : isLinkOpen { p with links } m = true) :
      (establish { p with links } i t own).isLinkOpen m = true :=
    open_of_conclude (p := filled { p with links } t own) hw hopen
      ((wire?_filled { p with links } t own p.handles.length).trans
        (if_pos rfl))
      (cellHandle?_filled (p := { p with links }) own hcell) hholds hsame hm
  by_cases hnew : h = p.handles.length
  · have hl : l = own := by
      rw [hwires, if_pos hnew] at hwire
      cases hwire
      rfl
    subst hl
    exact hown.imp_left (hstill hwire)
  · have hbefore : p.wire? h = some (key, l) := by
      rw [hwires, if_neg hnew] at hwire
      exact hwire
    rcases hholds with ⟨c, hentry, hfilled⟩
    have hother : t.cell ≠ c := by
      intro hsame
      subst hsame
      rw [hcells, cellHandle?_filled (p := { p with links }) own hcell,
        Option.some.injEq] at hfilled
      exact hnew hfilled.symm
    have hold : p.cellHandle? c = some h := by
      rw [← hfilled, hcells]
      change p.cellHandle? c = ((p.cells.modify t.cell _)[c]?).bind Cell.handle
      rw [List.getElem?_modify_ne _ _ hother]
      rfl
    cases hl : p.isLinkOpen l with
    | false =>
        exact Or.inr
          (Fades.already
            ⟨c, (Aged.step hp hstep).entry_old (cellHandle?_lt hold) hentry,
              hold⟩ hbefore hl)
    | true => exact Or.inl (hstill hwire (hkept hl))

theorem fades_of_linked (hp : Sound p)
    (hstep : p.step event = some (p.linked i t)) (hopen : p.isClosed = false)
    (hcell : exists cell, p.cells[t.cell]? = some cell)
    (hholds : (p.linked i t).Holds key h)
    (hwire : (p.linked i t).wire? h = some (key, l)) :
    (p.linked i t).isLinkOpen l = true ∨ Fades p key h l event := by
  have hdialed (m : Nat) :
      isLinkOpen { p with links := p.links ++ [{ endpoint := t.endpoint }] } m =
        (p.isLinkOpen m || decide (m = p.links.length)) :=
    isLinkOpen_dialLink p i m t
  have hfresh {m : Nat} (hm : p.isLinkOpen m = true) :
      isLinkOpen { p with links := p.links ++ [{ endpoint := t.endpoint }] }
        m = true := by
    rw [hdialed, hm, Bool.true_or]
  cases hcredential : t.endpoint.credential with
  | some password =>
      have hdial : p.linked i t = p.dialLink i t := by
        simp only [linked, hcredential, dialLink]
      rw [hdial] at hholds hwire ⊢
      cases hl : p.isLinkOpen l with
      | false => exact Or.inr (Fades.already hholds hwire hl)
      | true => exact Or.inl (hfresh hl)
  | none =>
      have hestablish : p.linked i t =
          establish { p with links := p.links ++ [{ endpoint := t.endpoint }] }
            i t p.links.length := by
        simp only [linked, hcredential]
      rw [hestablish] at hstep hholds hwire ⊢
      exact fades_of_establish hp hstep hopen hcell hfresh hholds hwire
        (Or.inl (by rw [hdialed, decide_eq_true rfl, Bool.or_true]))

theorem open_of_resume (hs : Seated keyAt p) (hw : Wired keyAt p)
    {keyAt' : Nat -> Target} (hw' : Wired keyAt' q) (hopen : p.isClosed = false)
    (hphase : p.phase? i = some (.queued t)) (hresumed : p.resume i t = some q)
    (hholds : q.Holds key h) (hwire : q.wire? h = some (key, l))
    (hl : p.isLinkOpen l = true) : q.isLinkOpen l = true := by
  cases hfilled : p.cellHandle? t.cell with
  | none =>
      rw [resume_of_empty hfilled hresumed]
      exact hl
  | some g =>
      rcases cellHandle?_eq_some.mp hfilled with
        ⟨⟨handle, owner, queue⟩, hcell, hhandle⟩
      cases hhandle
      simp only [resume, hcell, Option.some.injEq] at hresumed
      subst hresumed
      rcases hw.cell_wire hfilled with ⟨m, hown⟩
      rw [(hs.ticket_key (view_of_phase? Phase.ticket? hphase)).1] at hown
      exact open_of_conclude hw' hopen hown hfilled hholds hwire hl

/-- Nobody in an open pool closes a connection and leaves it in the pool. -/
theorem fades_of_step (hp : Sound p)
    (hsweeping : forall {n : Nat}, n < p.cleanups.length -> Sweeping n p)
    (hstep : p.step event = some q) (hopen : q.isClosed = false)
    (hholds : q.Holds key h) (hwire : q.wire? h = some (key, l)) :
    q.isLinkOpen l = true ∨ Fades p key h l event := by
  have hbefore : p.isClosed = false := isClosed_eq_false_of_step hp hstep hopen
  have hsettled (hs : Settled p q)
      (hkept : p.wire? h = some (key, l) -> p.isLinkOpen l = true ->
        q.isLinkOpen l = true ∨ Fades p key h l event) :
      q.isLinkOpen l = true ∨ Fades p key h l event :=
    fades_of_settled hp hstep hs hholds hwire hkept
  have huntouched (hun : Untouched p q) :
      q.isLinkOpen l = true ∨ Fades p key h l event :=
    fades_of_untouched hp hstep hun hholds hwire
  rcases hp with ⟨keyAt, hs, hw⟩
  cases taken_of_step hstep with
  | request target =>
      refine hsettled (Settled.request p target) (fun _ hl => Or.inl ?_)
      unfold isLinkOpen
      rw [(request_tells hs.manned hbefore).1]
      exact hl
  | resume phase resumed =>
      rcases Sound.step ⟨keyAt, hs, hw⟩ hstep with ⟨_, _, hw'⟩
      exact hsettled (Settled.resume resumed)
        (fun _ hl =>
          Or.inl (open_of_resume hs hw hw' hbefore phase resumed
            hholds hwire hl))
  | linked phase =>
      rcases hs.opening_owner (view_of_phase? Phase.opening? phase) with
        ⟨cell, hcell, _⟩
      exact fades_of_linked ⟨keyAt, hs, hw⟩ hstep hbefore
        ⟨cell, hcell⟩ hholds hwire
  | notLinked _ =>
      exact hsettled (Settled.fail p _ _ _)
        (fun _ hl => Or.inl (open_fail _ _ _ hl))
  | @accepted i own t phase =>
      rcases hs.opening_owner (view_of_phase? Phase.opening? phase) with
        ⟨cell, hcell, _⟩
      refine fades_of_establish ⟨keyAt, hs, hw⟩ hstep hbefore ⟨cell, hcell⟩
        (fun hm => (isLinkOpen_authenticated p own _).trans hm) hholds hwire ?_
      rw [isLinkOpen_authenticated]
      cases hown : p.isLinkOpen own with
      | false => exact Or.inr (Fades.handshake phase hown)
      | true => exact Or.inl rfl
  | @refused i own t error phase =>
      refine hsettled
        ((Settled.closeLink p own).trans (Settled.of_same rfl rfl rfl))
        (fun hown hl => Or.inl ?_)
      change (p.closeLink own).isLinkOpen l = true
      rw [isLinkOpen_closeLink, hl, Bool.true_and, decide_eq_true_eq]
      intro hsame
      exact hw.handshake_free (view_of_phase? Phase.handshake? phase)
        (hsame ▸ hown)
  | rejected _ =>
      exact hsettled (Settled.fail p _ _ _)
        (fun _ hl => Or.inl (open_fail _ _ _ hl))
  | discarded _ =>
      exact hsettled (Settled.of_same rfl rfl rfl) (fun _ hl => Or.inl hl)
  | apply table =>
      exact hsettled (Settled.apply p table) (fun _ hl => Or.inl hl)
  | reordered perm leads =>
      exact hsettled (Settled.of_same rfl rfl rfl) (fun _ hl => Or.inl hl)
  | sweep table =>
      exact huntouched (untouched_sweep ⟨keyAt, hs, hw⟩ table).2
  | drain =>
      rw [(Draining.start ⟨keyAt, hs, hw⟩).closed] at hopen
      cases hopen
  | @cleaned n k found =>
      exact huntouched
        (untouched_cleaned ⟨keyAt, hs, hw⟩
          (hsweeping (List.getElem?_eq_some_iff.mp found).1) hstep).2
  | broke m =>
      cases hl : p.isLinkOpen l with
      | false => exact Or.inr (Fades.already hholds hwire hl)
      | true =>
          by_cases hm : m = l
          · exact Or.inr (hm ▸ Fades.broke)
          · left
            change ((p.links.modify m _)[l]?).any Link.isOpen = true
            rw [List.getElem?_modify_ne _ _ hm]
            exact hl
  | closeHandle n =>
      refine hsettled (Settled.closeHandle p n) (fun hown hl => ?_)
      rcases open_closeHandle n hl with hstill | ⟨key', hclosed⟩
      · exact Or.inl hstill
      · rw [hw.wire_inj hclosed hown]
        exact Or.inr Fades.closeHandle

/-! ## Runs -/

/-- A connection in the pool is open, unless it has closed by itself, its holder
has closed it, or the pool is closed. -/
theorem open_of_holds {table : Shared} {fallback : Endpoint}
    {events : List Event} (hrun : run { table, fallback } events = some p)
    (hholds : p.Holds key h) (hwire : p.wire? h = some (key, l)) :
    p.isLinkOpen l = true ∨ .broke l ∈ events ∨ .closeHandle h ∈ events ∨
      p.isClosed = true := by
  induction events using List.reverseRecOn generalizing p with
  | nil =>
      cases hrun
      rcases hholds with ⟨c, hentry, _⟩
      cases hentry
  | append_singleton events event ih =>
      rcases run_concat.mp hrun with ⟨r, hr, hstep⟩
      have hp : Sound r := (Sound.start table fallback).run hr
      cases hopen : p.isClosed with
      | true => exact Or.inr (Or.inr (Or.inr rfl))
      | false =>
          have hbefore : r.isClosed = false :=
            isClosed_eq_false_of_step hp hstep hopen
          rcases fades_of_step hp (sweeping_of_run hr hbefore) hstep hopen
            hholds hwire with hl | hfades
          · exact Or.inl hl
          · right
            cases hfades with
            | already holds wire closed =>
                rcases ih hr holds wire with hl | hbroke | hclosed | hend
                · rw [hl] at closed
                  cases closed
                · exact Or.inl (List.mem_append_left _ hbroke)
                · exact Or.inr (Or.inl (List.mem_append_left _ hclosed))
                · rw [hend] at hbefore
                  cases hbefore
            | handshake phase closed =>
                rcases open_of_handshake hr phase with hl | hbroke
                · rw [hl] at closed
                  cases closed
                · exact Or.inl (List.mem_append_left _ hbroke)
            | broke => exact Or.inl List.mem_concat_self
            | closeHandle => exact Or.inr (Or.inl List.mem_concat_self)

/-- A link that breaks makes the pool tell something wrong about every target
that leads to it. -/
theorem not_tells_of_broke (hfinds : p.Finds target h)
    (hwire : p.wire? h = some (key, l)) (hstep : p.step (.broke l) = some q) :
    ¬ q.Tells target := by
  intro htells
  cases taken_of_step hstep with
  | broke =>
      rcases isOpen_iff_wire.mp (tells_iff.mp htells h hfinds) with
        ⟨key', m, hm, hopen⟩
      have hsame : m = l :=
        congrArg Prod.snd (Option.some.inj (Eq.trans (Eq.symm hm) hwire))
      subst hsame
      rcases isLinkOpen_iff.mp hopen with ⟨link, hlink, hlive⟩
      change (p.links.modify m _)[m]? = some link at hlink
      rw [List.getElem?_modify_eq, Option.map_eq_map,
        Option.map_eq_some_iff] at hlink
      rcases hlink with ⟨old, _, hold⟩
      rw [← hold] at hlive
      cases hlive

/-- Whatever has happened to a pool: what it says about a target is true unless
it finds a connection that is closed, and then it says yes.  Such a connection
is one to the key of the target that has closed by itself or that its holder has
closed, if the pool is not closed.  Every connection that closes by itself makes
the answer wrong, and in a pool that is not closed the answer is right again as
soon as a call for the target has begun. -/
theorem connected_of_run {table : Shared} {fallback : Endpoint}
    {events : List Event} {p : Pool}
    (hrun : run { table, fallback } events = some p) (target : Target) :
    (p.Tells target <-> forall h, p.Finds target h -> p.isOpen h = true) ∧
    (forall {h : Nat}, p.Finds target h -> p.isOpen h = false ->
      p.isConnected target = true ∧
      exists key endpoint l,
        target.resolve p.table.table p.fallback = .ok (key, endpoint) ∧
        p.wire? h = some (key, l) ∧ p.isLinkOpen l = false ∧
        (.broke l ∈ events ∨ .closeHandle h ∈ events ∨ p.isClosed = true)) ∧
    (forall {h l : Nat} {key : Target} {q : Pool}, p.Finds target h ->
      p.wire? h = some (key, l) ->
      p.step (.broke l) = some q -> ¬ q.Tells target) ∧
    (p.isClosed = false -> (p.request target).Tells target) := by
  have hp : Sound p := (Sound.start table fallback).run hrun
  refine ⟨tells_iff, fun {h} hfinds hclosed => ?_, not_tells_of_broke,
    fun hopen => ?_⟩
  · rcases hfinds.holds with ⟨key, endpoint, hresolve, hholds⟩
    rcases hp.wire_of_holds hholds with ⟨l, hwire⟩
    have hl : p.isLinkOpen l = false := by
      rw [Bool.eq_false_iff]
      intro hopen
      rw [isOpen_iff_wire.mpr ⟨key, l, hwire, hopen⟩] at hclosed
      cases hclosed
    refine ⟨isConnected_iff.mpr ⟨h, hfinds⟩, key, endpoint, l, hresolve,
      hwire, hl, ?_⟩
    refine (open_of_holds hrun hholds hwire).resolve_left (fun hopen => ?_)
    rw [hl] at hopen
    cases hopen
  · rcases hp with ⟨keyAt, hs, _⟩
    exact (request_tells hs.manned hopen).2

/-- A connection is opened and used, and its link breaks: the pool goes on
saying that it is connected until the next call begins. -/
theorem connected_of_run_broken :
    exists p, run { table := default, fallback := .atAddress "h" 1 }
        [.request (.address "d" 2), .linked 0, .broke 0] = some p ∧
      ¬ p.Tells (.address "d" 2) ∧
        (p.request (.address "d" 2)).Tells (.address "d" 2) := by
  have hrun : run { table := default, fallback := .atAddress "h" 1 }
      [.request (.address "d" 2), .linked 0] = some _ := rfl
  have hbroken : run { table := default, fallback := .atAddress "h" 1 }
      [.request (.address "d" 2), .linked 0, .broke 0] = some _ := rfl
  have hbefore := connected_of_run hrun (.address "d" 2)
  have hafter := connected_of_run hbroken (.address "d" 2)
  exact ⟨_, hbroken,
    hbefore.2.2.1 ⟨.address "d" 2, _, 0, rfl, rfl, rfl⟩ rfl rfl,
    hafter.2.2.2 rfl⟩

/-- The pool says yes although the only connection that it has is closed. -/
theorem connected_after_break :
    exists p, run { table := default, fallback := .atAddress "h" 1 }
        [.request (.address "d" 2), .linked 0, .broke 0] = some p ∧
      p.isConnected (.address "d" 2) = true ∧ ¬ exists h,
        p.Finds (.address "d" 2) h ∧ p.isOpen h = true := by
  have hrun : run { table := default, fallback := .atAddress "h" 1 }
      [.request (.address "d" 2), .linked 0, .broke 0] = some _ := rfl
  refine ⟨_, hrun, rfl, fun hsome => ?_⟩
  rcases hsome with ⟨h, hfinds, hopen⟩
  have hfirst : h = 0 := hfinds.unique ⟨.address "d" 2, _, 0, rfl, rfl, rfl⟩
  subst hfirst
  cases hopen

end Pool
end SlotCluster
