import SlotCluster.Proofs.Pool.CellInvariant

/-!
# Which link belongs to which cell

The invariant that ties cells, handles and links together.  Every handle sits in
one cell and keeps the link that was opened for it, no two handles share a link,
and a link on which a call still waits for the answer to its credential belongs
to no handle.
-/

namespace SlotCluster
namespace Pool

structure Wired (keyAt : Nat -> Target) (p : Pool) : Prop where
  cell_wire : forall {c h : Nat}, p.cellHandle? c = some h ->
    exists l, p.wire? h = some (keyAt c, l)
  wire_cell : forall {h : Nat} {wire : Target × Nat}, p.wire? h = some wire ->
    exists c, p.cellHandle? c = some h
  cell_inj : forall {c d h : Nat}, p.cellHandle? c = some h ->
    p.cellHandle? d = some h -> c = d
  wire_inj : forall {g h l : Nat} {key other : Target},
    p.wire? g = some (key, l) -> p.wire? h = some (other, l) -> g = h
  wire_lt : forall {h l : Nat} {key : Target}, p.wire? h = some (key, l) ->
    l < p.links.length
  handshake_lt : forall {i l : Nat}, p.view Phase.handshake? i = some l ->
    l < p.links.length
  handshake_inj : forall {i j l : Nat}, p.view Phase.handshake? i = some l ->
    p.view Phase.handshake? j = some l -> i = j
  handshake_free : forall {i h l : Nat} {key : Target},
    p.view Phase.handshake? i = some l -> p.wire? h ≠ some (key, l)

theorem eq_of_replaced {α : Type} {f : Nat -> Option α} {place i j : Nat}
    {fresh a : α}
    (hinj : forall {i j : Nat} {a : α}, f i = some a -> f j = some a -> i = j)
    (hfresh : forall i, f i ≠ some fresh)
    (hi : (if place = i then some fresh else f i) = some a)
    (hj : (if place = j then some fresh else f j) = some a) : i = j := by
  by_cases hpi : place = i
  · by_cases hpj : place = j
    · exact hpi.symm.trans hpj
    · rw [if_neg hpj, ← hi, if_pos hpi] at hj
      exact absurd hj (hfresh j)
  · by_cases hpj : place = j
    · rw [if_neg hpi, ← hj, if_pos hpj] at hi
      exact absurd hi (hfresh i)
    · rw [if_neg hpi] at hi
      rw [if_neg hpj] at hj
      exact hinj hi hj

namespace Wired

variable {keyAt keyAt' : Nat -> Target} {p q : Pool}

theorem start (keyAt : Nat -> Target) (table : Shared) (fallback : Endpoint) :
    Wired keyAt { table, fallback } where
  cell_wire h := by cases h
  wire_cell h := by cases h
  cell_inj h := by cases h
  wire_inj h := by cases h
  wire_lt h := by cases h
  handshake_lt h := by cases h
  handshake_inj h := by cases h
  handshake_free h := by cases h

theorem keep (hp : Wired keyAt p)
    (hkeys : forall c, c < p.cells.length -> keyAt' c = keyAt c)
    (hcells : forall c, q.cellHandle? c = p.cellHandle? c)
    (hwires : forall h, q.wire? h = p.wire? h)
    (hlinks : p.links.length ≤ q.links.length)
    (hshakes : forall {i l : Nat}, q.view Phase.handshake? i = some l ->
      p.view Phase.handshake? i = some l) :
    Wired keyAt' q := by
  constructor
  case cell_wire =>
    intro c h hc
    rw [hcells] at hc
    rw [hwires, hkeys c (cellHandle?_lt hc)]
    exact hp.cell_wire hc
  case wire_cell =>
    intro h wire hw
    rw [hwires] at hw
    rcases hp.wire_cell hw with ⟨c, hc⟩
    exact ⟨c, (hcells c).trans hc⟩
  case cell_inj =>
    intro c d h hc hd
    rw [hcells] at hc hd
    exact hp.cell_inj hc hd
  case wire_inj =>
    intro g h l key other hg hh
    rw [hwires] at hg hh
    exact hp.wire_inj hg hh
  case wire_lt =>
    intro h l key hh
    rw [hwires] at hh
    exact Nat.lt_of_lt_of_le (hp.wire_lt hh) hlinks
  case handshake_lt =>
    intro i l hi
    exact Nat.lt_of_lt_of_le (hp.handshake_lt (hshakes hi)) hlinks
  case handshake_inj =>
    intro i j l hi hj
    exact hp.handshake_inj (hshakes hi) (hshakes hj)
  case handshake_free =>
    intro i h l key hi
    rw [hwires]
    exact hp.handshake_free (hshakes hi)

theorem handle_lt (hp : Wired keyAt p) {c h : Nat}
    (hc : p.cellHandle? c = some h) : h < p.handles.length := by
  rcases hp.cell_wire hc with ⟨l, hl⟩
  exact wire?_lt hl

theorem dial (hp : Wired keyAt p) {i : Nat} {t : Ticket}
    (hphase : p.phase? i = some (.connecting t)) :
    Wired keyAt (p.dialLink i t) := by
  have hshakes : forall j, (p.dialLink i t).view Phase.handshake? j =
      if i = j then some p.links.length else p.view Phase.handshake? j :=
    view_dialLink Phase.handshake? hphase
  have hlength : (p.dialLink i t).links.length = p.links.length + 1 := by
    simp [dialLink, Pool.setPhase]
  constructor
  case cell_wire =>
    exact hp.cell_wire
  case wire_cell =>
    exact hp.wire_cell
  case cell_inj =>
    exact hp.cell_inj
  case wire_inj =>
    exact hp.wire_inj
  case wire_lt =>
    intro h l key hh
    rw [hlength]
    exact Nat.lt_succ_of_lt (hp.wire_lt hh)
  case handshake_lt =>
    intro j l hj
    rw [hlength]
    rw [hshakes] at hj
    by_cases hij : i = j
    · rw [if_pos hij, Option.some.injEq] at hj
      omega
    · rw [if_neg hij] at hj
      exact Nat.lt_succ_of_lt (hp.handshake_lt hj)
  case handshake_inj =>
    intro j k l hj hk
    rw [hshakes] at hj hk
    exact eq_of_replaced hp.handshake_inj
      (fun j hlast => Nat.lt_irrefl _ (hp.handshake_lt hlast)) hj hk
  case handshake_free =>
    intro j h l key hj hh
    rw [hshakes] at hj
    by_cases hij : i = j
    · rw [if_pos hij, Option.some.injEq] at hj
      have hlt := hp.wire_lt hh
      omega
    · rw [if_neg hij] at hj
      exact hp.handshake_free hj hh

theorem fill (hs : Seated keyAt p) (hp : Wired keyAt p) {i l : Nat} {t : Ticket}
    (hphase : p.phase? i = some (.authenticating t l)) :
    Wired keyAt (p.fillCell i t l) := by
  have hshake : p.view Phase.handshake? i = some l := view_of_phase? _ hphase
  rcases hs.opening_cell (view_of_phase? Phase.opening? hphase) with
    ⟨cell, hcell, _, hempty⟩
  have hkey : keyAt t.cell = t.key :=
    (hs.ticket_key (view_of_phase? Phase.ticket? hphase)).1
  have hcells := cellHandle?_fillCell i l hcell
  have hwires := wire?_fillCell p i t l
  have hshakes : forall j, (p.fillCell i t l).view Phase.handshake? j =
      if i = j then none else p.view Phase.handshake? j :=
    view_fillCell Phase.handshake? hphase
  have hold : forall {c h : Nat}, p.cellHandle? c = some h ->
      h ≠ p.handles.length :=
    fun hc => Nat.ne_of_lt (hp.handle_lt hc)
  constructor
  case cell_wire =>
    intro c h hc
    rw [hcells] at hc
    rw [hwires]
    by_cases hat : t.cell = c
    · rw [if_pos hat, Option.some.injEq] at hc
      rw [if_pos hc.symm, ← hat, hkey]
      exact ⟨l, rfl⟩
    · rw [if_neg hat] at hc
      rw [if_neg (hold hc)]
      exact hp.cell_wire hc
  case wire_cell =>
    intro h wire hh
    rw [hwires] at hh
    by_cases hnew : h = p.handles.length
    · exists t.cell
      rw [hcells, if_pos rfl, hnew]
    · rw [if_neg hnew] at hh
      rcases hp.wire_cell hh with ⟨c, hc⟩
      exists c
      rw [hcells, if_neg]
      · exact hc
      · intro hat
        subst hat
        simp [cellHandle?, hcell, hempty] at hc
  case cell_inj =>
    intro c d h hc hd
    rw [hcells] at hc hd
    exact eq_of_replaced hp.cell_inj (fun c hlast => hold hlast rfl) hc hd
  case wire_inj =>
    intro g h k key other hg hh
    rw [hwires] at hg hh
    by_cases hgn : g = p.handles.length
    · by_cases hhn : h = p.handles.length
      · exact hgn.trans hhn.symm
      · rw [if_pos hgn, Option.some.injEq, Prod.mk.injEq] at hg
        rw [if_neg hhn] at hh
        exact absurd (hg.2 ▸ hh) (hp.handshake_free hshake)
    · rw [if_neg hgn] at hg
      by_cases hhn : h = p.handles.length
      · rw [if_pos hhn, Option.some.injEq, Prod.mk.injEq] at hh
        exact absurd (hh.2 ▸ hg) (hp.handshake_free hshake)
      · rw [if_neg hhn] at hh
        exact hp.wire_inj hg hh
  case wire_lt =>
    intro h k key hh
    rw [hwires] at hh
    by_cases hnew : h = p.handles.length
    · rw [if_pos hnew, Option.some.injEq, Prod.mk.injEq] at hh
      exact hh.2 ▸ hp.handshake_lt hshake
    · rw [if_neg hnew] at hh
      exact hp.wire_lt hh
  case handshake_lt =>
    intro j k hj
    rw [hshakes] at hj
    by_cases hij : i = j
    · rw [if_pos hij] at hj
      cases hj
    · rw [if_neg hij] at hj
      exact hp.handshake_lt hj
  case handshake_inj =>
    intro j k m hj hk
    rw [hshakes] at hj hk
    by_cases hij : i = j
    · rw [if_pos hij] at hj
      cases hj
    · by_cases hik : i = k
      · rw [if_pos hik] at hk
        cases hk
      · rw [if_neg hij] at hj
        rw [if_neg hik] at hk
        exact hp.handshake_inj hj hk
  case handshake_free =>
    intro j h k key hj hh
    rw [hshakes] at hj
    rw [hwires] at hh
    by_cases hij : i = j
    · rw [if_pos hij] at hj
      cases hj
    · rw [if_neg hij] at hj
      by_cases hnew : h = p.handles.length
      · rw [if_pos hnew, Option.some.injEq, Prod.mk.injEq] at hh
        exact hij (hp.handshake_inj hshake (hh.2 ▸ hj))
      · rw [if_neg hnew] at hh
        exact hp.handshake_free hj hh

theorem setPhase (hp : Wired keyAt p) {i : Nat} {old phase : Phase}
    (hi : p.phase? i = some old) (hnone : phase.handshake? = none) :
    Wired keyAt (p.setPhase i phase) := by
  refine hp.keep (fun _ _ => rfl) (fun _ => rfl) (fun _ => rfl)
    (Nat.le_refl _) ?_
  intro j l hj
  rw [view_setPhase _ hi] at hj
  by_cases hij : i = j
  · rw [if_pos hij, hnone] at hj
    cases hj
  · rw [if_neg hij] at hj
    exact hj

theorem addCall (hp : Wired keyAt p) (target : Target) {phase : Phase}
    (hnone : phase.handshake? = none) :
    Wired keyAt (p.addCall target phase) := by
  refine hp.keep (fun _ _ => rfl) (fun _ => rfl) (fun _ => rfl)
    (Nat.le_refl _) ?_
  intro j l hj
  rw [view_addCall] at hj
  by_cases hlast : j = p.calls.length
  · rw [if_pos hlast, hnone] at hj
    cases hj
  · rw [if_neg hlast] at hj
    exact hj

theorem modifyCell (hp : Wired keyAt p) (c : Nat) {f : Cell -> Cell}
    (hf : forall cell, (f cell).handle = cell.handle) :
    Wired keyAt (p.modifyCell c f) :=
  hp.keep (fun _ _ => rfl) (cellHandle?_modifyCell p c hf) (fun _ => rfl)
    (Nat.le_refl _) id

theorem relink (hp : Wired keyAt p) {links : List Link}
    (hlength : links.length = p.links.length) : Wired keyAt { p with links } :=
  hp.keep (fun _ _ => rfl) (fun _ => rfl) (fun _ => rfl)
    (Nat.le_of_eq hlength.symm) id

/-- Every move keeps the invariant, whatever keys are given to new cells. -/
theorem move (hs : Seated keyAt p) (hp : Wired keyAt p) (h : Move p q)
    (hkeys : forall c, c < p.cells.length -> keyAt' c = keyAt c) :
    Wired keyAt' q := by
  have hrekeyed : Wired keyAt' p :=
    hp.keep hkeys (fun _ => rfl) (fun _ => rfl) (Nat.le_refl _) id
  cases h with
  | refuse target result => exact hrekeyed.addCall target rfl
  | arrive target entry filled => exact hrekeyed.addCall target rfl
  | wait target entry found empty owned =>
      exact (hrekeyed.addCall target rfl).modifyCell _ (fun _ => rfl)
  | @found t target openPool new free =>
      refine hp.keep hkeys (cellHandle?_openCell p target t) (fun _ => rfl)
        (Nat.le_refl _) ?_
      intro i l hi
      rw [view_openCell] at hi
      by_cases hlast : i = p.calls.length
      · rw [if_pos hlast] at hi
        cases hi
      · rw [if_neg hlast] at hi
        exact hi
  | forget entry filled dead =>
      exact hrekeyed.keep (fun _ _ => rfl) (fun _ => rfl) (fun _ => rfl)
        (Nat.le_refl _) id
  | take phase filled entry openPool => exact hrekeyed.setPhase phase rfl
  | @discard i t h error phase filled =>
      rcases closeHandle_eq p h with ⟨links, heq, hlength⟩
      have hqueued : phase? { p with links } i = some (.queued t) := phase
      unfold Pool.discard
      rw [heq]
      exact (hrekeyed.relink hlength).setPhase hqueued rfl
  | promote phase found owned => exact hrekeyed.setPhase phase rfl
  | dial phase => exact hrekeyed.dial phase
  | @fill i t l phase =>
      have hlength : (p.fillCell i t l).cells.length = p.cells.length := by
        simp [fillCell, Pool.setPhase]
      refine (Wired.fill hs hp phase).keep ?_ (fun _ => rfl) (fun _ => rfl)
        (Nat.le_refl _) id
      rw [hlength]
      exact hkeys
  | reject error phase closed => exact hrekeyed.setPhase phase rfl
  | finish phase => exact hrekeyed.setPhase phase rfl
  | relink links length closing => exact hrekeyed.relink length
  | inform table cells =>
      refine hrekeyed.keep (fun _ _ => rfl) (fun _ => rfl) ?_ (Nat.le_refl _) id
      intro h
      rw [wire?_informCells]
      rfl
  | reorder perm leads =>
      exact hrekeyed.keep (fun _ _ => rfl) (fun _ => rfl) (fun _ => rfl)
        (Nat.le_refl _) id

theorem fail (hs : Seated keyAt p) (hp : Wired keyAt p) {i : Nat} {t : Ticket}
    (error : ClusterError) (hopening : p.view Phase.opening? i = some t) :
    Wired keyAt (p.fail i t error) := by
  rcases hs.opening_cell hopening with ⟨cell, hcell, _, hempty⟩
  rcases view_eq_some.mp hopening with ⟨old, hold, _⟩
  rcases forsake_eq p t with ⟨entries, heq, _⟩
  rw [fail_eq i error (by simp [cellHandle?, hcell, hempty]), heq]
  have hforsaken : Wired keyAt { p with entries } :=
    hp.keep (fun _ _ => rfl) (fun _ => rfl) (fun _ => rfl) (Nat.le_refl _) id
  have hpassed := hforsaken.modifyCell t.cell (f := Cell.passOn) (fun _ => rfl)
  exact hpassed.setPhase hold rfl

end Wired
end Pool
end SlotCluster
