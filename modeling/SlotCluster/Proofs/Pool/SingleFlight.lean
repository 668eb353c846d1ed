import SlotCluster.Proofs.Pool.Cleanups

/-!
# Single flight

For every key there should be one attempt to open a connection, or one open
connection, and never two of them.  This module says what of it the pool keeps.

A cell is in use as long as a call owns it or its connection is open.  There is
one flight as long as nothing but the cell of the entry is in use.  Two kinds of
events take the entry away from a cell that stays in use: the failure of an
owner behind which other calls wait, and a sweep of a key whose cell is in use.
After such an event the next call for the key opens a second cell, and there are
two flights.
-/

namespace SlotCluster
namespace Pool

def Attempting (p : Pool) (key : Target) (i : Nat) : Prop :=
  exists t, p.view Phase.opening? i = some t ∧ t.key = key

def Live (p : Pool) (key : Target) (h : Nat) : Prop :=
  exists l, p.wire? h = some (key, l) ∧ p.isLinkOpen l = true

/-- One attempt for a key, or one connection, and not both. -/
structure SingleFlight (p : Pool) (key : Target) : Prop where
  attempt_unique : forall {i j : Nat}, p.Attempting key i ->
    p.Attempting key j -> i = j
  connection_unique : forall {g h : Nat}, p.Live key g -> p.Live key h -> g = h
  apart : forall {i h : Nat}, p.Attempting key i -> ¬ p.Live key h

/-- A call owns a cell for a key, or the connection in it is open. -/
def InUse (p : Pool) (key : Target) (c : Nat) : Prop :=
  (exists cell i t, p.cells[c]? = some cell ∧ cell.owner = some i ∧
    p.view Phase.ticket? i = some t ∧ t.key = key) ∨
      exists h, p.cellHandle? c = some h ∧ p.Live key h

/-- A cell is in use for a key, but the entry of the key does not lead to it. -/
def Stray (p : Pool) (key : Target) : Prop :=
  exists c, p.InUse key c ∧ p.entry? key ≠ some c

def Awaited (p : Pool) (key : Target) (i : Nat) : Prop :=
  exists t cell, p.view Phase.opening? i = some t ∧ t.key = key ∧
    p.entry? key = some t.cell ∧ p.cells[t.cell]? = some cell ∧ cell.queue ≠ []

/-- Whether an event takes the entry of a key away from a cell that stays in
use. -/
def Strands (p : Pool) (key : Target) : Event -> Prop
  | .notLinked i _ => p.Awaited key i
  | .closed i => p.Awaited key i
  | .sweep table =>
      key.isStale table = true ∧
        exists c, p.entry? key = some c ∧ (p.sweep table).InUse key c
  | _ => False

/-- No event of a run takes the entry of a key away from a cell that stays in
use, as long as the pool is open. -/
def StrandFree (key : Target) : Pool -> List Event -> Prop
  | _, [] => True
  | p, event :: rest =>
      (p.isClosed = false -> ¬ p.Strands key event) ∧
        forall q, p.step event = some q -> StrandFree key q rest

def Event.OfCall : Event -> Prop
  | .request _ => True
  | .resume _ => True
  | _ => False

variable {keyAt : Nat -> Target} {p q : Pool} {key : Target}

/-!
## Cells that are busy

A cell is busy while a call owns it or the connection in it is open.  A move
makes no cell busy but a new one, and takes an entry away only from a cell that
is not busy.
-/

def Busy (p : Pool) (c : Nat) : Prop :=
  (exists cell, p.cells[c]? = some cell ∧ cell.owner ≠ none) ∨
    exists h, p.cellHandle? c = some h ∧ p.isOpen h = true

theorem inUse_iff (hs : Seated keyAt p) (hw : Wired keyAt p) {c : Nat} :
    p.InUse key c <-> keyAt c = key ∧ p.Busy c := by
  constructor
  · intro h
    rcases h with ⟨cell, i, t, hcell, howner, ht, hkey⟩ |
      ⟨h, hfilled, l, hwire, hlink⟩
    · constructor
      · rcases hs.owner_ticket hcell howner with ⟨_, u, hu, hat⟩
        rw [ht, Option.some.injEq] at hu
        subst hu
        rw [← hat, (hs.ticket_key ht).1]
        exact hkey
      · exact Or.inl ⟨cell, hcell, by simp [howner]⟩
    · constructor
      · rcases hw.cell_wire hfilled with ⟨m, hm⟩
        rw [hwire, Option.some.injEq, Prod.mk.injEq] at hm
        exact hm.1.symm
      · exact Or.inr ⟨h, hfilled, isOpen_iff_wire.mpr ⟨key, l, hwire, hlink⟩⟩
  · intro h
    rcases h with ⟨hkey, ⟨cell, hcell, howner⟩ | ⟨h, hfilled, hopen⟩⟩
    · rcases Option.ne_none_iff_exists'.mp howner with ⟨i, hi⟩
      rcases hs.owner_ticket hcell hi with ⟨_, t, ht, hat⟩
      refine Or.inl ⟨cell, i, t, hcell, hi, ht, ?_⟩
      rw [← (hs.ticket_key ht).1, hat, hkey]
    · rcases hw.cell_wire hfilled with ⟨l, hl⟩
      rcases isOpen_iff_wire.mp hopen with ⟨other, m, hm, hlink⟩
      rw [hl, Option.some.injEq, Prod.mk.injEq] at hm
      refine Or.inr ⟨h, hfilled, l, ?_, hm.2 ▸ hlink⟩
      rw [hl, hkey]

theorem busy_lt {c : Nat} (h : p.Busy c) : c < p.cells.length := by
  rcases h with ⟨cell, hcell, _⟩ | ⟨h, hfilled, _⟩
  · exact (List.getElem?_eq_some_iff.mp hcell).1
  · exact cellHandle?_lt hfilled

theorem not_busy_of_filled (hs : Seated keyAt p) {c h : Nat}
    (hfilled : p.cellHandle? c = some h)
    (hdead : p.isOpen h = false) : ¬ p.Busy c := by
  rcases cellHandle?_eq_some.mp hfilled with ⟨full, hfull, hhandle⟩
  intro hbusy
  rcases hbusy with ⟨cell, hcell, howner⟩ | ⟨g, hg, hopen⟩
  · rw [hfull] at hcell
    cases hcell
    rcases Option.ne_none_iff_exists'.mp howner with ⟨i, hi⟩
    rw [(hs.owner_ticket hfull hi).1] at hhandle
    cases hhandle
  · rw [hfilled, Option.some.injEq] at hg
    rw [hg, hopen] at hdead
    cases hdead

theorem Busy.back {c : Nat} (h : q.Busy c)
    (hcells : forall {cell : Cell}, q.cells[c]? = some cell ->
      exists was, p.cells[c]? = some was ∧ cell.handle = was.handle ∧
        (cell.owner ≠ none -> was.owner ≠ none))
    (hopen : forall {h : Nat}, q.isOpen h = true -> p.isOpen h = true) :
    p.Busy c := by
  rcases h with ⟨cell, hcell, howner⟩ | ⟨h, hfilled, hlive⟩
  · rcases hcells hcell with ⟨was, hwas, _, hkept⟩
    exact Or.inl ⟨was, hwas, hkept howner⟩
  · rcases cellHandle?_eq_some.mp hfilled with ⟨cell, hcell, hhandle⟩
    rcases hcells hcell with ⟨was, hwas, hsame, _⟩
    exact Or.inr
      ⟨h, cellHandle?_eq_some.mpr ⟨was, hwas, hsame ▸ hhandle⟩, hopen hlive⟩

theorem Busy.of_same {c : Nat} (h : q.Busy c) (hcells : q.cells = p.cells)
    (hopen : forall {h : Nat}, q.isOpen h = true -> p.isOpen h = true) :
    p.Busy c :=
  h.back (fun hcell => ⟨_, hcells ▸ hcell, rfl, id⟩) hopen

theorem isOpen_of_relink {links : List Link}
    (hclosing : forall l, isLinkOpen { p with links } l = true ->
      p.isLinkOpen l = true)
    {h : Nat} (hopen : isOpen { p with links } h = true) :
    p.isOpen h = true := by
  rcases isOpen_iff.mp hopen with ⟨handle, hhandle, hlink⟩
  exact isOpen_iff.mpr ⟨handle, hhandle, hclosing _ hlink⟩

theorem isOpen_closeHandle (p : Pool) {h n : Nat}
    (hopen : (p.closeHandle n).isOpen h = true) : p.isOpen h = true := by
  rcases isOpen_iff.mp hopen with ⟨handle, hhandle, hlink⟩
  rw [isLinkOpen_closeHandle, Bool.and_eq_true] at hlink
  rcases closeHandle_eq p n with ⟨links, heq, _⟩
  rw [heq] at hhandle
  exact isOpen_iff.mpr ⟨handle, hhandle, hlink.1⟩

theorem isOpen_of_dialLink (hw : Wired keyAt p) {i h : Nat} {t : Ticket}
    (hopen : (p.dialLink i t).isOpen h = true) : p.isOpen h = true := by
  rcases isOpen_iff_wire.mp hopen with ⟨key, l, hwire, hlink⟩
  change p.wire? h = some (key, l) at hwire
  rw [isLinkOpen_dialLink, Bool.or_eq_true, decide_eq_true_eq] at hlink
  rcases hlink with hlink | hnew
  · exact isOpen_iff_wire.mpr ⟨key, l, hwire, hlink⟩
  · exact absurd hnew (Nat.ne_of_lt (hw.wire_lt hwire))

theorem busy_of_fillCell (hs : Seated keyAt p) (hw : Wired keyAt p)
    {i l c : Nat} {t : Ticket}
    (hphase : p.phase? i = some (.authenticating t l))
    (h : (p.fillCell i t l).Busy c) : p.Busy c := by
  rcases hs.opening_owner (view_of_phase? Phase.opening? hphase) with
    ⟨own, hown, howner⟩
  by_cases hc : t.cell = c
  · rw [← hc]
    exact Or.inl ⟨own, hown, by simp [howner]⟩
  · rcases h with ⟨cell, hcell, howned⟩ | ⟨h, hfilled, hopen⟩
    · rw [cells_fillCell i l hown, if_neg hc] at hcell
      exact Or.inl ⟨cell, hcell, howned⟩
    · rw [cellHandle?_fillCell i l hown, if_neg hc] at hfilled
      rcases isOpen_iff_wire.mp hopen with ⟨key, m, hwire, hlink⟩
      rw [wire?_fillCell, if_neg (Nat.ne_of_lt (hw.handle_lt hfilled))] at hwire
      exact Or.inr ⟨h, hfilled, isOpen_iff_wire.mpr ⟨key, m, hwire, hlink⟩⟩

theorem busy_of_move (hs : Seated keyAt p) (hw : Wired keyAt p) (h : Move p q)
    {c : Nat} (hbusy : q.Busy c) :
    p.Busy c ∨ p.isClosed = false ∧ exists key, q.entry? key = some c := by
  cases h with
  | @wait t cell owner target entry found empty owned =>
      refine Or.inl (hbusy.back ?_ id)
      intro new hnew
      rw [cells_modifyCell] at hnew
      change (if t.cell = c then (p.cells[c]?).map _ else p.cells[c]?) =
        some new at hnew
      by_cases hc : t.cell = c
      · rw [if_pos hc, Option.map_eq_some_iff] at hnew
        rcases hnew with ⟨was, hwas, hnew⟩
        subst hnew
        exact ⟨was, hwas, rfl, id⟩
      · rw [if_neg hc] at hnew
        exact ⟨new, hnew, rfl, id⟩
  | @found t target openPool new free =>
      by_cases hc : c = p.cells.length
      · refine Or.inr ⟨openPool, t.key, ?_⟩
        rw [entry?_openCell target free, if_pos rfl, new, hc]
      · refine Or.inl (hbusy.back ?_ id)
        intro cell hcell
        rw [cells_openCell, if_neg hc] at hcell
        exact ⟨cell, hcell, rfl, id⟩
  | @discard i t h error phase filled =>
      have hcells : (p.discard i h error).cells = p.cells := by
        rcases closeHandle_eq p h with ⟨links, heq, _⟩
        unfold discard
        rw [heq]
        rfl
      exact Or.inl
        (hbusy.of_same hcells
          (fun hopen => isOpen_closeHandle p (n := h) hopen))
  | dial phase => exact Or.inl (hbusy.of_same rfl (isOpen_of_dialLink hw))
  | fill phase => exact Or.inl (busy_of_fillCell hs hw phase hbusy)
  | relink links length closing =>
      exact Or.inl (hbusy.of_same rfl (isOpen_of_relink closing))
  | inform table cells =>
      refine Or.inl (hbusy.of_same rfl ?_)
      intro h hopen
      rcases isOpen_iff_wire.mp hopen with ⟨key, l, hwire, hlink⟩
      rw [wire?_informCells] at hwire
      exact isOpen_iff_wire.mpr ⟨key, l, hwire, hlink⟩
  | _ => exact Or.inl (hbusy.of_same rfl id)

theorem entry_of_busy (hs : Seated keyAt p) (h : Move p q) {c : Nat}
    (hbusy : q.Busy c) (hentry : p.entry? key = some c) :
    q.entry? key = some c := by
  cases h with
  | @found t target openPool new free =>
      rw [entry?_openCell target free, if_neg]
      · exact hentry
      · intro hkey
        rw [hkey, hentry] at free
        cases free
  | @forget other d h entry filled dead =>
      rw [entry?_removeEntry, if_neg]
      · exact hentry
      · intro hkey
        rw [hkey, hentry, Option.some.injEq] at entry
        subst entry
        exact not_busy_of_filled hs filled dead (hbusy.of_same rfl id)
  | @discard i t h error phase filled =>
      rcases closeHandle_eq p h with ⟨links, heq, _⟩
      unfold discard
      rw [heq]
      exact hentry
  | reorder perm leads => exact (leads key).trans hentry
  | _ => exact hentry

/-! ## Cells in use -/

/-- Only the cell of the entry is in use, as long as the pool is open; later on
at most one cell is. -/
structure Orderly (key : Target) (p : Pool) : Prop where
  pooled : p.isClosed = false -> ¬ p.Stray key
  one : forall {c d : Nat}, p.InUse key c -> p.InUse key d -> c = d

theorem one_of_not_stray (h : ¬ p.Stray key) {c d : Nat} (hc : p.InUse key c)
    (hd : p.InUse key d) : c = d := by
  have hentry : forall {e : Nat}, p.InUse key e -> p.entry? key = some e := by
    intro e he
    by_contra hne
    exact h ⟨e, he, hne⟩
  have hsame := (hentry hc).symm.trans (hentry hd)
  exact Option.some.inj hsame

theorem inUse_of_attempt (hs : Seated keyAt p) {i : Nat} {t : Ticket}
    (h : p.view Phase.opening? i = some t) (hkey : t.key = key) :
    p.InUse key t.cell := by
  rcases hs.opening_owner h with ⟨cell, hcell, howner⟩
  exact Or.inl ⟨cell, i, t, hcell, howner, ticket?_of_opening? h, hkey⟩

theorem inUse_of_live (hw : Wired keyAt p) {h : Nat} (hlive : p.Live key h) :
    exists c, p.cellHandle? c = some h ∧ p.InUse key c := by
  rcases hlive with ⟨l, hwire, hlink⟩
  rcases hw.wire_cell hwire with ⟨c, hc⟩
  exact ⟨c, hc, Or.inr ⟨h, hc, l, hwire, hlink⟩⟩

theorem singleFlight_of_one (hp : Sound p)
    (hone : forall {c d : Nat}, p.InUse key c -> p.InUse key d -> c = d) :
    p.SingleFlight key := by
  rcases hp with ⟨keyAt, hs, hw⟩
  constructor
  · intro i j hi hj
    rcases hi with ⟨t, ht, htkey⟩
    rcases hj with ⟨u, hu, hukey⟩
    exact hs.opening_inj ht hu
      (hone (inUse_of_attempt hs ht htkey) (inUse_of_attempt hs hu hukey))
  · intro g h hg hh
    rcases inUse_of_live hw hg with ⟨c, hc, hcuse⟩
    rcases inUse_of_live hw hh with ⟨d, hd, hduse⟩
    rw [hone hcuse hduse, hd, Option.some.injEq] at hc
    exact hc.symm
  · intro i h hi hh
    rcases hi with ⟨t, ht, htkey⟩
    rcases inUse_of_live hw hh with ⟨c, hc, hcuse⟩
    rcases hs.opening_cell ht with ⟨cell, hcell, _, hempty⟩
    rw [← hone (inUse_of_attempt hs ht htkey) hcuse] at hc
    simp [cellHandle?, hcell, hempty] at hc

/-! ## Moves -/

theorem inUse_of_move (hp : Sound p) (h : Move p q) {c : Nat}
    (huse : q.InUse key c) :
    p.InUse key c ∨ p.isClosed = false ∧ q.entry? key = some c := by
  rcases hp with ⟨keyAt, hs, hw⟩
  rcases hs.move h with ⟨keyAt', hs', hkeys⟩
  rcases (inUse_iff hs' (Wired.move hs hw h hkeys)).mp huse with ⟨hkey, hbusy⟩
  rcases busy_of_move hs hw h hbusy with hbefore | ⟨hopen, other, hentry⟩
  · refine Or.inl ((inUse_iff hs hw).mpr ⟨?_, hbefore⟩)
    rw [← hkeys c (busy_lt hbefore), hkey]
  · refine Or.inr ⟨hopen, ?_⟩
    rw [← hkey, hs'.entry_key hentry]
    exact hentry

theorem not_stray_of_move (hp : Sound p) (h : Move p q)
    (hnone : ¬ p.Stray key) : ¬ q.Stray key := by
  intro hstray
  rcases hstray with ⟨c, huse, haway⟩
  rcases inUse_of_move hp h huse with hbefore | ⟨_, hentry⟩
  · have hentry : p.entry? key = some c := by
      by_contra hne
      exact hnone ⟨c, hbefore, hne⟩
    rcases hp.move h with ⟨keyAt', hs', hw'⟩
    rcases hp with ⟨keyAt, hs, _⟩
    exact haway (entry_of_busy hs h ((inUse_iff hs' hw').mp huse).2 hentry)
  · exact haway hentry

theorem Orderly.move (hp : Sound p) (ho : Orderly key p) (h : Move p q) :
    Orderly key q := by
  have hclosed : q.isClosed = p.isClosed := (move_frame h).2
  cases hopen : p.isClosed with
  | false =>
      have hnone := not_stray_of_move hp h (ho.pooled hopen)
      exact ⟨fun _ => hnone, one_of_not_stray hnone⟩
  | true =>
      have hback : forall {c : Nat}, q.InUse key c -> p.InUse key c := by
        intro c huse
        rcases inUse_of_move hp h huse with hbefore | ⟨hno, _⟩
        · exact hbefore
        · rw [hopen] at hno
          cases hno
      constructor
      · intro hno
        rw [hclosed, hopen] at hno
        cases hno
      · intro c d hc hd
        exact ho.one (hback hc) (hback hd)

theorem Orderly.moves (hp : Sound p) (ho : Orderly key p) (h : Moves p q) :
    Orderly key q := by
  have hboth : Sound q ∧ Orderly key q := by
    induction h with
    | refl => exact ⟨hp, ho⟩
    | tail _ h ih => exact ⟨ih.1.move h, ih.2.move ih.1 h⟩
  exact hboth.2

/-! ## Owners that fail -/

theorem inUse_of_fail (hs : Seated keyAt p) (hw : Wired keyAt p) {i : Nat}
    {t : Ticket} {error : ClusterError}
    (hopening : p.view Phase.opening? i = some t) {c : Nat}
    (huse : (p.fail i t error).InUse key c) : p.InUse key c := by
  rcases hs.opening_cell hopening with ⟨own, hown, howner, hempty⟩
  have hunfilled : p.cellHandle? t.cell = none := by
    simp [cellHandle?, hown, hempty]
  rcases (inUse_iff (hs.fail error hopening)
      (Wired.fail hs hw error hopening)).mp huse with
    ⟨hkey, hbusy⟩
  refine (inUse_iff hs hw).mpr ⟨hkey, hbusy.back ?_ ?_⟩
  · intro cell hcell
    rw [cells_fail i error hunfilled hown] at hcell
    by_cases hc : t.cell = c
    · rw [if_pos hc, Option.some.injEq] at hcell
      subst hcell
      exact ⟨own, hc ▸ hown, rfl, fun _ => by simp [howner]⟩
    · rw [if_neg hc] at hcell
      exact ⟨cell, hcell, rfl, id⟩
  · intro h hopen
    rcases forsake_eq p t with ⟨entries, heq, _⟩
    rw [fail_eq i error hunfilled, heq] at hopen
    exact hopen

/-- The failure of an owner strands its cell exactly if others wait for the
owner. -/
theorem stray_fail_iff (hs : Seated keyAt p) (hw : Wired keyAt p) {i : Nat}
    {t : Ticket} {error : ClusterError}
    (hopening : p.view Phase.opening? i = some t) (hnone : ¬ p.Stray key) :
    (p.fail i t error).Stray key <-> p.Awaited key i := by
  rcases hs.opening_cell hopening with ⟨own, hown, howner, hempty⟩
  have hunfilled : p.cellHandle? t.cell = none := by
    simp [cellHandle?, hown, hempty]
  have hs' := hs.fail error hopening
  have hw' := Wired.fail hs hw error hopening
  constructor
  · intro hstray
    rcases hstray with ⟨c, huse, haway⟩
    have hentry : p.entry? key = some c := by
      by_contra hne
      exact hnone ⟨c, inUse_of_fail hs hw hopening huse, hne⟩
    rw [entry?_fail i error hunfilled] at haway
    by_cases hgone : t.key = key ∧ p.entry? key = some t.cell
    · refine ⟨t, own, hopening, hgone.1, hgone.2, hown, ?_⟩
      rw [hentry, Option.some.injEq] at hgone
      rcases ((inUse_iff hs' hw').mp huse).2 with ⟨cell, hcell, howned⟩ |
        ⟨h, hfilled, _⟩
      · rw [cells_fail i error hunfilled hown, if_pos hgone.2.symm,
          Option.some.injEq] at hcell
        intro hqueue
        rw [← hcell] at howned
        simp [Cell.passOn, hqueue] at howned
      · rcases cellHandle?_eq_some.mp hfilled with ⟨cell, hcell, hhandle⟩
        rw [cells_fail i error hunfilled hown, if_pos hgone.2.symm,
          Option.some.injEq] at hcell
        rw [← hcell] at hhandle
        simp [Cell.passOn, hempty] at hhandle
    · rw [if_neg hgone] at haway
      exact absurd hentry haway
  · intro hawaited
    rcases hawaited with ⟨u, cell, hu, hkey, hentry, hcell, hqueue⟩
    rw [hopening, Option.some.injEq] at hu
    subst hu
    refine ⟨t.cell,
      (inUse_iff hs' hw').mpr ⟨?_, Or.inl ⟨cell.passOn, ?_, ?_⟩⟩, ?_⟩
    · rw [(hs.ticket_key (ticket?_of_opening? hopening)).1]
      exact hkey
    · rw [cells_fail i error hunfilled hcell, if_pos rfl]
    · simpa [Cell.passOn] using hqueue
    · rw [entry?_fail i error hunfilled, if_pos ⟨hkey, hentry⟩]
      simp

/-!
## Cleanups

Chores that are about no key keep every entry.
-/

theorem inUse_of_tidied {chores rest : List Chore} (h : Tidied chores p q rest)
    {c : Nat} (huse : q.InUse key c) : p.InUse key c := by
  rcases huse with ⟨cell, i, t, hcell, howner, ht, hkey⟩ |
    ⟨n, hfilled, l, hwire, hlink⟩
  · rw [h.frame] at hcell
    rw [h.view_eq] at ht
    exact Or.inl ⟨cell, i, t, hcell, howner, ht, hkey⟩
  · rw [h.cellHandle?_eq] at hfilled
    rw [h.wire?_eq] at hwire
    exact Or.inr ⟨n, hfilled, l, hwire, h.closing hlink⟩

theorem entry_of_tidied {chores rest : List Chore} (h : Tidied chores p q rest)
    (hkeys : Chore.key key ∉ chores) {c : Nat}
    (hentry : p.entry? key = some c) : q.entry? key = some c := by
  rcases h.entry_done hentry with hstill | ⟨hmem, _⟩
  · exact hstill
  · exact absurd hmem hkeys

theorem not_stray_of_tidied {chores rest : List Chore}
    (h : Tidied chores p q rest) (hkeys : Chore.key key ∉ chores)
    (hnone : ¬ p.Stray key) : ¬ q.Stray key := by
  intro hstray
  rcases hstray with ⟨c, huse, haway⟩
  have hentry : p.entry? key = some c := by
    by_contra hne
    exact hnone ⟨c, inUse_of_tidied h huse, hne⟩
  exact haway (entry_of_tidied h hkeys hentry)

def swept (p : Pool) (table : Table) : Pool :=
  { p with entries := p.entries.filter (fun e => !e.1.isStale table) }

theorem entry?_swept (hs : Seated keyAt p) (table : Table) {c : Nat} :
    Pool.entry? (p.swept table) key = some c <->
      p.entry? key = some c ∧ key.isStale table = false := by
  rw [entry?_eq_some ((List.filter_sublist.map _).nodup hs.keys_nodup),
    entry?_eq_some hs.keys_nodup]
  unfold swept
  simp [List.mem_filter]

theorem tidied_sweep (p : Pool) (table : Table) :
    exists chores rest r, Tidied chores (p.swept table) r rest ∧
      (forall key : Target, Chore.key key ∉ chores) ∧
        p.sweep table = { r with cleanups := (p.sweep table).cleanups } := by
  refine ⟨_, _, _,
    (tidied_runChores (p.swept table)
      ((p.entries.filter (fun e => e.1.isStale table)).map
        (fun e => .cell e.2))).1, ?_, rfl⟩
  intro key hkey
  rcases List.mem_map.mp hkey with ⟨e, _, he⟩
  cases he

theorem stray_sweep_iff (hs : Seated keyAt p) (table : Table)
    (hnone : ¬ p.Stray key) :
    (p.sweep table).Stray key <-> p.Strands key (.sweep table) := by
  rcases tidied_sweep p table with ⟨chores, rest, r, htidied, hkeys, hsweep⟩
  have hback : forall {c : Nat}, (p.sweep table).InUse key c ->
      p.InUse key c := by
    intro c huse
    rw [hsweep] at huse
    exact inUse_of_tidied htidied huse
  have hsweptEntry : Pool.entry? (p.sweep table) key = r.entry? key := by
    rw [hsweep]
    rfl
  constructor
  · intro hstray
    rcases hstray with ⟨c, huse, haway⟩
    have hentry : p.entry? key = some c := by
      by_contra hne
      exact hnone ⟨c, hback huse, hne⟩
    cases hstale : key.isStale table with
    | true => exact ⟨hstale, c, hentry, huse⟩
    | false =>
        rw [hsweptEntry] at haway
        exact absurd
          (entry_of_tidied htidied (hkeys key)
            ((entry?_swept hs table).mpr ⟨hentry, hstale⟩)) haway
  · intro hstrands
    rcases hstrands with ⟨hstale, c, _, huse⟩
    refine ⟨c, huse, ?_⟩
    intro hentry
    rw [hsweptEntry] at hentry
    have hfresh := ((entry?_swept hs table).mp (htidied.entry_old hentry)).2
    rw [hstale] at hfresh
    cases hfresh

/-!
## Steps and runs

In an open pool without stray cells, stray cells come from the events that
strand them.
-/

theorem strands_of_stray (hp : Sound p) (ht : Tended p)
    (hopen : p.isClosed = false) (hnone : ¬ p.Stray key) {event : Event}
    (h : Kind p event q) (hstill : q.isClosed = false) (hstray : q.Stray key) :
    p.Strands key event := by
  cases h with
  | moves chain =>
      have horderly : Orderly key p := ⟨fun _ => hnone, one_of_not_stray hnone⟩
      exact absurd hstray ((horderly.moves hp chain).pooled hstill)
  | notLinked phase =>
      rcases hp with ⟨keyAt, hs, hw⟩
      exact (stray_fail_iff hs hw (view_of_phase? _ phase) hnone).mp hstray
  | rejected phase =>
      rcases hp with ⟨keyAt, hs, hw⟩
      exact (stray_fail_iff hs hw (view_of_phase? _ phase) hnone).mp hstray
  | sweep table =>
      rcases hp with ⟨keyAt, hs, _⟩
      exact (stray_sweep_iff hs table hnone).mp hstray
  | drain =>
      have hclosed : p.drain.isClosed = true := by
        change (runChores _ _).1.isClosed = true
        rw [(tidied_runChores _ _).1.frame]
      rw [hclosed] at hstill
      cases hstill
  | @cleaned n c found =>
      have hcells : Chore.key key ∉ c.chores := by
        intro hmem
        rw [ht.keyed (List.mem_of_getElem? found) hmem] at hopen
        cases hopen
      have hnone' : ¬ (p.runChores c.chores).1.Stray key :=
        not_stray_of_tidied (tidied_runChores p c.chores).1 hcells hnone
      exact absurd hstray hnone'

theorem stray_of_strands (hp : Sound p) (hnone : ¬ p.Stray key) {event : Event}
    (h : p.step event = some q) (hstrands : p.Strands key event) :
    q.Stray key := by
  rcases hp with ⟨keyAt, hs, hw⟩
  cases taken_of_step h with
  | notLinked phase =>
      exact (stray_fail_iff hs hw (view_of_phase? _ phase) hnone).mpr hstrands
  | rejected phase =>
      exact (stray_fail_iff hs hw (view_of_phase? _ phase) hnone).mpr hstrands
  | discarded phase =>
      rcases hstrands with ⟨t, _, ht, _⟩
      rw [view_of_phase? _ phase] at ht
      cases ht
  | sweep table => exact (stray_sweep_iff hs table hnone).mpr hstrands
  | _ => cases hstrands

theorem Orderly.kind (hp : Sound p) (ht : Tended p) (ho : Orderly key p)
    {event : Event} (h : Kind p event q)
    (hfree : p.isClosed = false -> ¬ p.Strands key event) : Orderly key q := by
  have hshrink (hclosed : p.isClosed = true -> q.isClosed = true)
      (hback : forall {c : Nat}, q.InUse key c -> p.InUse key c) :
      Orderly key q := by
    constructor
    · intro hstill hstray
      cases hopen : p.isClosed with
      | false =>
          exact hfree hopen
            (strands_of_stray hp ht hopen (ho.pooled hopen) h hstill hstray)
      | true =>
          rw [hclosed hopen] at hstill
          cases hstill
    · intro c d hc hd
      exact ho.one (hback hc) (hback hd)
  cases h with
  | moves chain => exact ho.moves hp chain
  | notLinked phase =>
      rcases hp with ⟨keyAt, hs, hw⟩
      exact hshrink (fun h => (fail_frame ..).2.trans h)
        (inUse_of_fail hs hw (view_of_phase? _ phase))
  | rejected phase =>
      rcases hp with ⟨keyAt, hs, hw⟩
      exact hshrink (fun h => (fail_frame ..).2.trans h)
        (inUse_of_fail hs hw (view_of_phase? _ phase))
  | sweep table =>
      rcases tidied_sweep p table with ⟨chores, rest, r, htidied, _, hsweep⟩
      apply hshrink
      · intro h
        rw [hsweep, htidied.frame]
        exact h
      · intro c huse
        rw [hsweep] at huse
        exact inUse_of_tidied htidied huse
  | drain =>
      apply hshrink
      · intro _
        change (runChores _ _).1.isClosed = true
        rw [(tidied_runChores _ _).1.frame]
      · intro c huse
        exact inUse_of_tidied
          (tidied_runChores { p with isClosed := true } _).1 huse
  | @cleaned n c found =>
      apply hshrink
      · intro h
        change (runChores _ _).1.isClosed = true
        rw [(tidied_runChores _ _).1.frame]
        exact h
      · intro d huse
        exact inUse_of_tidied (tidied_runChores p c.chores).1 huse

theorem Orderly.run {events : List Event} (hp : Sound p) (ht : Tended p)
    (ho : Orderly key p) (hfree : StrandFree key p events)
    (h : p.run events = some q) : Orderly key q := by
  induction events generalizing p with
  | nil =>
      cases h
      exact ho
  | cons event rest ih =>
      rcases run_cons.mp h with ⟨r, hr, hrest⟩
      have hkind := hp.kind_of hr
      exact ih (hp.step hr) (ht.kind hkind) (ho.kind hp ht hkind hfree.1)
        (hfree.2 r hr) hrest

/-!
## Two flights

The owner of a cell is opening a connection, or it may do so next.
-/

def Running (p : Pool) (key : Target) (c : Nat) : Prop :=
  (exists i t, p.view Phase.opening? i = some t ∧ t.cell = c ∧ t.key = key) ∨
    exists h, p.cellHandle? c = some h ∧ p.Live key h

theorem not_singleFlight_of_running (hw : Wired keyAt p) {c d : Nat}
    (hc : p.Running key c) (hd : p.Running key d) (hne : c ≠ d) :
    ¬ p.SingleFlight key := by
  intro hflight
  rcases hc with ⟨i, t, ht, htc, htkey⟩ | ⟨g, hg, hglive⟩
  · rcases hd with ⟨j, u, hu, hud, hukey⟩ | ⟨h, _, hhlive⟩
    · have hsame : i = j := hflight.attempt_unique ⟨t, ht, htkey⟩ ⟨u, hu, hukey⟩
      rw [hsame, hu, Option.some.injEq] at ht
      exact hne (by rw [← htc, ← hud, ht])
    · exact hflight.apart ⟨t, ht, htkey⟩ hhlive
  · rcases hd with ⟨j, u, hu, _, hukey⟩ | ⟨h, hh, hhlive⟩
    · exact hflight.apart ⟨u, hu, hukey⟩ hglive
    · rw [hflight.connection_unique hglive hhlive] at hg
      exact hne (hw.cell_inj hg hh)

theorem running_or_queued (hs : Seated keyAt p) {c : Nat} (h : p.InUse key c) :
    p.Running key c ∨
      exists cell i t, p.cells[c]? = some cell ∧ cell.handle = none ∧
      cell.owner = some i ∧ p.phase? i = some (.queued t) ∧ t.cell = c ∧
        t.key = key := by
  rcases h with ⟨cell, i, t, hcell, howner, ht, hkey⟩ | hlive
  · rcases hs.owner_ticket hcell howner with ⟨hempty, u, hu, hat⟩
    rw [ht, Option.some.injEq] at hu
    subst hu
    rcases view_eq_some.mp ht with ⟨phase, hphase, hticket⟩
    cases phase with
    | queued u =>
        cases hticket
        exact Or.inr ⟨cell, i, t, hcell, hempty, howner, hphase, hat, hkey⟩
    | connecting u =>
        cases hticket
        exact Or.inl (Or.inl ⟨i, t, view_of_phase? _ hphase, hat, hkey⟩)
    | authenticating u l =>
        cases hticket
        exact Or.inl (Or.inl ⟨i, t, view_of_phase? _ hphase, hat, hkey⟩)
    | rejecting u l error =>
        cases hticket
        exact Or.inl (Or.inl ⟨i, t, view_of_phase? _ hphase, hat, hkey⟩)
    | discarding _ _ => cases hticket
    | finished _ => cases hticket
  · exact Or.inl (Or.inr hlive)

/-- Within one more event the owner of a cell in use is opening a connection,
and nothing else has changed. -/
theorem running_of_inUse (hs : Seated keyAt p) (hw : Wired keyAt p) {c : Nat}
    (h : p.InUse key c) :
    exists events q, (forall event, event ∈ events -> event.OfCall) ∧
      p.run events = some q ∧
      Seated keyAt q ∧ Wired keyAt q ∧ q.Running key c ∧
        forall d, (p.Running key d -> q.Running key d) ∧
          (p.InUse key d -> q.InUse key d) := by
  rcases running_or_queued hs h with
    hrunning | ⟨cell, i, t, hcell, hempty, howner, hphase, hat, hkey⟩
  · exact ⟨[], p, fun _ h => (List.not_mem_nil h).elim, rfl, hs, hw, hrunning,
      fun _ => ⟨id, id⟩⟩
  · subst hat
    have hresume :
        p.step (.resume i) = some (p.setPhase i (.connecting t)) := by
      simp only [step, hphase, resume, hcell]
      rcases cell with ⟨handle, owner, queue⟩
      cases hempty
      cases howner
      simp
    have hs' : Seated keyAt (p.setPhase i (.connecting t)) :=
      hs.proceed hphase rfl rfl hcell howner
    have hw' : Wired keyAt (p.setPhase i (.connecting t)) :=
      hw.setPhase hphase rfl
    refine ⟨[.resume i], _, ?_, ?_, hs', hw', ?_, ?_⟩
    · intro event hevent
      rw [List.mem_singleton] at hevent
      subst hevent
      trivial
    · exact run_cons_of_some hresume
    · refine Or.inl ⟨i, t, ?_, rfl, hkey⟩
      rw [view_setPhase _ hphase, if_pos rfl]
      rfl
    · intro d
      constructor
      · intro hd
        rcases hd with ⟨j, u, hu, hud, hukey⟩ | hlive
        · refine Or.inl ⟨j, u, ?_, hud, hukey⟩
          rw [view_setPhase _ hphase, if_neg]
          · exact hu
          · intro hij
            subst hij
            rw [view_of_phase? _ hphase] at hu
            cases hu
        · exact Or.inr hlive
      · intro hd
        rw [inUse_iff hs' hw']
        exact (inUse_iff hs hw).mp hd

theorem inUse_openCell (hs : Seated keyAt p) (hw : Wired keyAt p)
    (target : Target) {t : Ticket} (hopen : p.isClosed = false)
    (hnew : t.cell = p.cells.length) (hfree : p.entry? t.key = none) :
    (p.openCell target t).InUse t.key t.cell ∧
      forall {key : Target} {c : Nat}, p.InUse key c ->
      (p.openCell target t).InUse key c := by
  have hs' := hs.openCell target hnew hfree
  have hkeys : forall c, c < p.cells.length ->
      Function.update keyAt t.cell t.key c = keyAt c := by
    intro c hc
    rw [Function.update_of_ne]
    omega
  have hw' := Wired.move hs hw (Move.found target hopen hnew hfree) hkeys
  constructor
  · refine (inUse_iff hs' hw').mpr
      ⟨Function.update_self ..,
        Or.inl ⟨{ owner := some p.calls.length }, ?_, ?_⟩⟩
    · simp [hnew]
    · simp
  · intro key c huse
    rcases (inUse_iff hs hw).mp huse with ⟨hkey, hbusy⟩
    refine (inUse_iff hs' hw').mpr ⟨(hkeys c (busy_lt hbusy)).trans hkey, ?_⟩
    rcases hbusy with ⟨cell, hcell, howner⟩ | ⟨h, hfilled, hlive⟩
    · refine Or.inl ⟨cell, ?_, howner⟩
      rw [cells_openCell,
        if_neg (Nat.ne_of_lt (List.getElem?_eq_some_iff.mp hcell).1)]
      exact hcell
    · refine Or.inr ⟨h, ?_, hlive⟩
      rw [cellHandle?_openCell]
      exact hfilled

/-- A call for a key without an entry, or with a dead one, puts a second cell
into use. -/
theorem second_of_stray (hs : Seated keyAt p) (hw : Wired keyAt p)
    {target : Target} {endpoint : Endpoint} (hopen : p.isClosed = false)
    (hresolve : target.resolve p.table.table p.fallback = .ok (key, endpoint))
    {c : Nat} (huse : p.InUse key c) (haway : p.entry? key ≠ some c) :
    exists events q keyAt' d, (forall event, event ∈ events -> event.OfCall) ∧
      p.run events = some q ∧ Seated keyAt' q ∧ Wired keyAt' q ∧ c ≠ d ∧
        q.InUse key c ∧ q.InUse key d := by
  have hlt : c ≠ p.cells.length :=
    Nat.ne_of_lt (busy_lt ((inUse_iff hs hw).mp huse).2)
  have hrequest : forall event, event ∈ [Event.request target] ->
      event.OfCall := by
    intro event hevent
    rw [List.mem_singleton] at hevent
    subst hevent
    trivial
  have hkeys : forall d, d < p.cells.length ->
      Function.update keyAt p.cells.length key d = keyAt d := by
    intro d hd
    rw [Function.update_of_ne]
    omega
  cases hentry : p.entry? key with
  | none =>
      refine ⟨[.request target], _, _, p.cells.length, hrequest,
        congrArg some (request_of_free hopen hresolve hentry),
        hs.openCell target rfl hentry,
        Wired.move hs hw (Move.found target hopen rfl hentry) hkeys, hlt, ?_⟩
      have hboth :=
        inUse_openCell (t := ⟨key, endpoint, p.cells.length⟩) hs hw target
          hopen rfl hentry
      exact ⟨hboth.2 huse, hboth.1⟩
  | some d =>
      have hne : c ≠ d := by
        intro h
        exact haway (h ▸ hentry)
      by_cases hduse : p.InUse key d
      · exact ⟨[], p, keyAt, d, fun _ h => (List.not_mem_nil h).elim, rfl, hs,
          hw, hne, huse, hduse⟩
      · have hidle : ¬ p.Busy d :=
          fun h => hduse ((inUse_iff hs hw).mpr ⟨hs.entry_key hentry, h⟩)
        rcases hs.manned hentry with ⟨cell, hcell, hinterest⟩
        cases hhandle : cell.handle with
        | none =>
            rcases hinterest with h | h
            · exact absurd hhandle h
            · exact absurd (Or.inl ⟨cell, hcell, h⟩) hidle
        | some h =>
            have hfilled : p.cellHandle? d = some h :=
              cellHandle?_eq_some.mpr ⟨cell, hcell, hhandle⟩
            have hdead : p.isOpen h = false := by
              rw [Bool.eq_false_iff]
              intro hlive
              exact hidle (Or.inr ⟨h, hfilled, hlive⟩)
            have hfree : Pool.entry? (p.removeEntry key) key = none := by
              simp
            have hs' := hs.removeEntry key
            have hw' :=
              Wired.move hs hw (Move.forget hentry hfilled hdead)
                (fun _ _ => rfl)
            refine ⟨[.request target], _, _, p.cells.length, hrequest,
              congrArg some
                (request_of_dead hopen hresolve hentry hfilled hdead),
              hs'.openCell target rfl hfree,
              Wired.move hs' hw' (Move.found target hopen rfl hfree) hkeys, hlt,
              ?_⟩
            have hboth :=
              inUse_openCell (t := ⟨key, endpoint, p.cells.length⟩) hs' hw'
                target hopen rfl hfree
            exact ⟨hboth.2 huse, hboth.1⟩

/-- Calls alone break the single flight of a key with a stray cell. -/
theorem two_flights_of_stray (hp : Sound p) {target : Target}
    {endpoint : Endpoint} (hopen : p.isClosed = false)
    (hresolve : target.resolve p.table.table p.fallback = .ok (key, endpoint))
    (hstray : p.Stray key) :
    exists events q, (forall event, event ∈ events -> event.OfCall) ∧
      p.run events = some q ∧ ¬ q.SingleFlight key := by
  rcases hp with ⟨keyAt, hs, hw⟩
  rcases hstray with ⟨c, huse, haway⟩
  rcases second_of_stray hs hw hopen hresolve huse haway with
    ⟨first, q, keyAt', d, hfirst, hq, hsq, hwq, hne, hcuse, hduse⟩
  rcases running_of_inUse hsq hwq hcuse with
    ⟨second, r, hsecond, hr, hsr, hwr, hcrun, hkeep⟩
  rcases running_of_inUse hsr hwr ((hkeep d).2 hduse) with
    ⟨third, s, hthird, hs, _, hws, hdrun, hkeep'⟩
  refine ⟨first ++ (second ++ third), s, ?_, ?_, ?_⟩
  · intro event hevent
    rcases List.mem_append.mp hevent with h | h
    · exact hfirst event h
    · rcases List.mem_append.mp h with h | h
      · exact hsecond event h
      · exact hthird event h
  · exact run_append_iff.mpr ⟨q, hq, run_append_iff.mpr ⟨r, hr, hs⟩⟩
  · exact not_singleFlight_of_running hws ((hkeep' c).1 hcrun) hdrun hne

theorem strandFree_of_calls {events : List Event}
    (h : forall event, event ∈ events -> event.OfCall) :
    StrandFree key p events := by
  induction events generalizing p with
  | nil => trivial
  | cons event rest ih =>
      refine ⟨?_, fun q _ => ih (fun e he => h e (List.mem_cons_of_mem _ he))⟩
      intro _ hstrands
      have hcall := h event List.mem_cons_self
      cases event with
      | request target => exact hstrands
      | resume i => exact hstrands
      | _ => exact hcall

/-! ## When there is one flight -/

/-- There is one flight for a key through every run in which no event strands
the cell of the key while the pool is open.  In an open pool the cell becomes
stray by such an event only, and as long as calls find no stray cell, and only
then, they keep the single flight whatever they do. -/
theorem singleFlight_of_run {table : Shared} {fallback : Endpoint}
    {events : List Event} {p : Pool}
    (hrun : run { table, fallback } events = some p) (key : Target) :
    (StrandFree key { table, fallback } events -> p.SingleFlight key) ∧
      (p.isClosed = false ->
        (forall event q, p.step event = some q -> q.isClosed = false ->
          ¬ p.Stray key ->
          (q.Stray key <-> p.Strands key event)) ∧
        forall (target : Target) (endpoint : Endpoint),
          target.resolve p.table.table p.fallback = .ok (key, endpoint) ->
          ((forall more q, (forall event, event ∈ more -> event.OfCall) ->
            p.run more = some q ->
            q.SingleFlight key) <-> ¬ p.Stray key)) := by
  have hstart : Sound { table, fallback } := Sound.start table fallback
  have hsound : Sound p := hstart.run hrun
  have htended : Tended p := (Tended.start table fallback).run hstart hrun
  refine ⟨?_, fun hopen => ⟨?_, ?_⟩⟩
  · intro hfree
    have hnone : ¬ Stray { table, fallback } key := by
      intro h
      rcases h with ⟨c, ⟨cell, i, t, hcell, _⟩ | ⟨h, hfilled, _⟩, _⟩
      · cases hcell
      · cases hfilled
    have hbegin : Orderly key { table, fallback } :=
      ⟨fun _ => hnone, one_of_not_stray hnone⟩
    exact singleFlight_of_one hsound
      (hbegin.run hstart (Tended.start table fallback) hfree hrun).one
  · intro event q hstep hstill hnone
    have hkind : Kind p event q := by
      rcases hsound with ⟨keyAt, hs, _⟩
      exact kind_of_step hs hstep
    exact ⟨strands_of_stray hsound htended hopen hnone hkind hstill,
      stray_of_strands hsound hnone hstep⟩
  · intro target endpoint hresolve
    constructor
    · intro hcalls hstray
      rcases two_flights_of_stray hsound hopen hresolve hstray with
        ⟨more, q, hmore, hq, hbroken⟩
      exact hbroken (hcalls more q hmore hq)
    · intro hnone more q hmore hq
      have hbegin : Orderly key p := ⟨fun _ => hnone, one_of_not_stray hnone⟩
      exact singleFlight_of_one (hsound.run hq)
        (hbegin.run hsound htended (strandFree_of_calls hmore) hq).one

/-- Two calls for an address share one attempt.  If the first of them fails, the
cell of the second is stray, and calls can open a second connection beside
it. -/
theorem singleFlight_shared_and_lost :
    (exists p, run { table := default, fallback := .atAddress "h" 1 }
        [.request (.address "d" 2), .request (.address "d" 2), .linked 0] =
          some p ∧
      p.SingleFlight (.address "d" 2)) ∧
    exists p, run { table := default, fallback := .atAddress "h" 1 }
        [.request (.address "d" 2), .request (.address "d" 2),
          .notLinked 0 .timeout] = some p ∧
      ¬ forall more q, (forall event, event ∈ more -> event.OfCall) ->
        p.run more = some q ->
        q.SingleFlight (.address "d" 2) := by
  constructor
  · have hrun : run { table := default, fallback := .atAddress "h" 1 }
        [.request (.address "d" 2), .request (.address "d" 2), .linked 0] =
        some _ :=
      rfl
    refine ⟨_, hrun, (singleFlight_of_run hrun (.address "d" 2)).1 ?_⟩
    exact ⟨fun _ => id,
      fun _ _ => ⟨fun _ => id, fun _ _ => ⟨fun _ => id, fun _ _ => trivial⟩⟩⟩
  · have hrun : run { table := default, fallback := .atAddress "h" 1 }
        [.request (.address "d" 2), .request (.address "d" 2),
          .notLinked 0 .timeout] = some _ :=
      rfl
    refine ⟨_, hrun, ?_⟩
    intro hcalls
    have hnone :=
      (((singleFlight_of_run hrun (.address "d" 2)).2 rfl).2 (.address "d" 2)
        _ rfl).mp hcalls
    refine hnone
      ⟨0, Or.inl ⟨_, 1, ⟨.address "d" 2, .atAddress "d" 2, 0⟩, rfl, rfl,
        rfl, rfl⟩, ?_⟩
    decide

/-- The owner of a cell fails while a second call waits, and a third call begins
before the second one goes on: the second and the third call open a connection
at the same time. -/
theorem two_attempts_after_failure :
    ¬ forall (table : Shared) (fallback : Endpoint) (events : List Event)
      (p : Pool) (key : Target),
      run { table, fallback } events = some p -> p.SingleFlight key := by
  intro h
  have hflight :=
    h default (.atAddress "h" 1)
      [.request (.address "d" 2), .request (.address "d" 2),
        .notLinked 0 .timeout, .request (.address "d" 2), .resume 1]
      _ (.address "d" 2) rfl
  have hsame : 1 = 2 :=
    hflight.attempt_unique ⟨⟨.address "d" 2, .atAddress "d" 2, 0⟩, rfl, rfl⟩
      ⟨⟨.address "d" 2, .atAddress "d" 2, 1⟩, rfl, rfl⟩
  cases hsame

end Pool
end SlotCluster
