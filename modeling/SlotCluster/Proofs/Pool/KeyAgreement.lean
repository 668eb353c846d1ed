import Mathlib.Data.List.Forall2
import SlotCluster.Proofs.Pool.Steps
import SlotCluster.Proofs.Pool.Tracks

/-!
# Pools that agree about one key

What a pool does for one key does not depend on what it does for the others.  To
say so, two pools are compared that may differ in everything but what concerns
the key.  A *strand* lists, by one track for each sort of things, what the two
pools have in common.  They agree about everything on the strand, and in the
first pool nothing else has to do with the key or with a thing on the strand.

Here are the small changes that steps of a pool are made of.  Each of them is
considered twice: in both pools at once, when it concerns the key, and in the
first pool only, when it does not.
-/

namespace SlotCluster
namespace Pool

open Track (Pairs Has Matched)

theorem rel_imp {α β : Type} {R R' : α -> β -> Prop} {x : Option α}
    {y : Option β} (h : Option.Rel R x y)
    (himp : forall {a : α} {b : β}, R a b -> R' a b) : Option.Rel R' x y := by
  cases h with
  | none => exact .none
  | some hab => exact .some (himp hab)

theorem view_of_call {α : Type} {p : Pool} {i : Nat} {call : Call}
    {part : Phase -> Option α} {a : α} (hcall : p.calls[i]? = some call)
    (hpart : part call.phase = some a) : p.view part i = some a := by
  unfold view phase?
  rw [hcall]
  exact hpart

theorem Seated.entry_lt {keyAt : Nat -> Target} {p : Pool} (hp : Seated keyAt p)
    {key : Target} {c : Nat} (h : p.entry? key = some c) :
    c < p.cells.length := by
  rcases hp.manned h with ⟨_, hcell, _⟩
  exact (List.getElem?_eq_some_iff.mp hcell).1

def addCell (p : Pool) (key : Target) : Pool :=
  { p with
    entries := p.entries ++ [(key, p.cells.length)]
    cells := p.cells ++ [{}] }

def addHandle (p : Pool) (x : Handle) : Pool :=
  { p with handles := p.handles ++ [x] }

def addLink (p : Pool) (x : Link) : Pool :=
  { p with links := p.links ++ [x] }

theorem entry?_addCell (p : Pool) (key other : Target) :
    Pool.entry? (p.addCell key) other =
      (p.entry? other).or
        (if key = other then some p.cells.length else none) := by
  unfold entry? addCell
  rw [List.find?_append]
  by_cases h : key = other
  · subst h
    cases p.entries.find? (fun e => e.1 = key) <;> simp
  · cases p.entries.find? (fun e => e.1 = other) <;> simp [h]

/-! ## Strands -/

structure Strand where
  calls : Track
  cells : Track
  handles : Track
  links : Track
  deriving Repr

namespace Strand

variable {S S' S'' : Strand} {p p' p'' : Pool}

structure Within (S S' : Strand) : Prop where
  calls : forall {i j : Nat}, Pairs S.calls i j -> Pairs S'.calls i j
  cells : forall {i j : Nat}, Pairs S.cells i j -> Pairs S'.cells i j
  handles : forall {i j : Nat}, Pairs S.handles i j -> Pairs S'.handles i j
  links : forall {i j : Nat}, Pairs S.links i j -> Pairs S'.links i j

def grow (S : Strand) (p p' : Pool) : Strand where
  calls := S.calls.extend p.calls.length p'.calls.length
  cells := S.cells.extend p.cells.length p'.cells.length
  handles := S.handles.extend p.handles.length p'.handles.length
  links := S.links.extend p.links.length p'.links.length

structure Longer (p p' : Pool) : Prop where
  calls : p.calls.length ≤ p'.calls.length
  cells : p.cells.length ≤ p'.cells.length
  handles : p.handles.length ≤ p'.handles.length
  links : p.links.length ≤ p'.links.length

theorem Longer.trans (h : Longer p p') (h' : Longer p' p'') : Longer p p'' where
  calls := Nat.le_trans h.calls h'.calls
  cells := Nat.le_trans h.cells h'.cells
  handles := Nat.le_trans h.handles h'.handles
  links := Nat.le_trans h.links h'.links

theorem grow_grow (S : Strand) (h : Longer p p') (h' : Longer p' p'') :
    (S.grow p p').grow p' p'' = S.grow p p'' := by
  unfold grow
  rw [Track.extend_extend _ h.calls h'.calls,
    Track.extend_extend _ h.cells h'.cells,
    Track.extend_extend _ h.handles h'.handles,
    Track.extend_extend _ h.links h'.links]

theorem within_grow (S : Strand) (p p' : Pool) : S.Within (S.grow p p') where
  calls h := h.append _
  cells h := h.append _
  handles h := h.append _
  links h := h.append _

end Strand

/-! ## Things that agree -/

variable {key other : Target} {S S' : Strand} {keyAt : Nat -> Target}
  {p q : Pool} {i j c d l m : Nat}

inductive TicketTwin (key : Target) (S : Strand) :
    Ticket -> Ticket -> Prop where
  | intro (endpoint : Endpoint) {c d : Nat} (cell : Pairs S.cells c d) :
      TicketTwin key S ⟨key, endpoint, c⟩ ⟨key, endpoint, d⟩

inductive PhaseTwin (key : Target) (S : Strand) : Phase -> Phase -> Prop where
  | queued {t u : Ticket} (ticket : TicketTwin key S t u) :
      PhaseTwin key S (.queued t) (.queued u)
  | connecting {t u : Ticket} (ticket : TicketTwin key S t u) :
      PhaseTwin key S (.connecting t) (.connecting u)
  | authenticating {t u : Ticket} {l m : Nat} (ticket : TicketTwin key S t u)
      (link : Pairs S.links l m) :
      PhaseTwin key S (.authenticating t l) (.authenticating u m)
  | rejecting {t u : Ticket} {l m : Nat} (error : ClusterError)
      (ticket : TicketTwin key S t u) :
      PhaseTwin key S (.rejecting t l error) (.rejecting u m error)
  | discarding {h g : Nat} (error : ClusterError)
      (handle : Pairs S.handles h g) :
      PhaseTwin key S (.discarding h error) (.discarding g error)
  | failed (error : ClusterError) :
      PhaseTwin key S (.finished (.error error)) (.finished (.error error))
  | served {h g : Nat} (handle : Pairs S.handles h g) :
      PhaseTwin key S (.finished (.ok h)) (.finished (.ok g))

structure CellTwin (S : Strand) (x y : Cell) : Prop where
  handle : Option.Rel (Pairs S.handles) x.handle y.handle
  owner : Option.Rel (Pairs S.calls) x.owner y.owner
  queue : List.Forall₂ (Pairs S.calls) x.queue y.queue

theorem TicketTwin.mono {t u : Ticket} (h : TicketTwin key S t u)
    (hsub : S.Within S') : TicketTwin key S' t u := by
  cases h with
  | intro endpoint cell => exact intro endpoint (hsub.cells cell)

theorem PhaseTwin.mono {x y : Phase} (h : PhaseTwin key S x y)
    (hsub : S.Within S') : PhaseTwin key S' x y := by
  cases h with
  | queued ticket => exact queued (ticket.mono hsub)
  | connecting ticket => exact connecting (ticket.mono hsub)
  | authenticating ticket link =>
      exact authenticating (ticket.mono hsub) (hsub.links link)
  | rejecting error ticket => exact rejecting error (ticket.mono hsub)
  | discarding error handle => exact discarding error (hsub.handles handle)
  | failed error => exact failed error
  | served handle => exact served (hsub.handles handle)

theorem CellTwin.mono {x y : Cell} (h : CellTwin S x y) (hsub : S.Within S') :
    CellTwin S' x y where
  handle := rel_imp h.handle hsub.handles
  owner := rel_imp h.owner hsub.calls
  queue := h.queue.imp (fun _ _ => hsub.calls)

/-- A phase that has nothing to do with the key and with the things on the
strand. -/
structure Phase.Foreign (key : Target) (S : Strand) (phase : Phase) : Prop where
  ticket : forall {t : Ticket}, phase.ticket? = some t ->
    t.key ≠ key ∧ ¬ Has S.cells t.cell
  handshake : forall {l : Nat}, phase.handshake? = some l -> ¬ Has S.links l

/-- Two pools agree about everything on a strand, and everything on the strand
belongs to one key.  In the first pool whatever is not on the strand has nothing
to do with the key and keeps away from what is on it. -/
structure Twin (key : Target) (S : Strand) (p q : Pool) : Prop where
  table : q.table = p.table
  fallback : q.fallback = p.fallback
  closed : q.isClosed = p.isClosed
  entry : Option.Rel (Pairs S.cells) (p.entry? key) (q.entry? key)
  others : forall {other : Target} {c : Nat}, p.entry? other = some c ->
    other ≠ key -> ¬ Has S.cells c
  calls : Matched S.calls (fun x y => PhaseTwin key S x.phase y.phase)
    (fun x => x.phase.Foreign key S) p.calls q.calls
  cells : Matched S.cells (CellTwin S)
    (fun x => forall h, x.handle = some h -> ¬ Has S.handles h) p.cells q.cells
  handles : Matched S.handles
    (fun x y => x.target = key ∧ Pairs S.links x.link y.link)
    (fun x => ¬ Has S.links x.link) p.handles q.handles
  links : Matched S.links (fun x y => y.isOpen = x.isOpen)
    (fun _ => True) p.links q.links

namespace Twin

theorem phase (h : Twin key S p q) (hi : Pairs S.calls i j) :
    exists x y, p.phase? i = some x ∧ q.phase? j = some y ∧
      PhaseTwin key S x y := by
  rcases h.calls.on hi with ⟨x, y, hx, hy, hxy⟩
  unfold phase?
  rw [hx, hy]
  exact ⟨x.phase, y.phase, rfl, rfl, hxy⟩

theorem cell (h : Twin key S p q) (hc : Pairs S.cells c d) :
    exists x y, p.cells[c]? = some x ∧ q.cells[d]? = some y ∧ CellTwin S x y :=
  h.cells.on hc

theorem foreign (h : Twin key S p q) (hnot : ¬ Has S.calls i) {phase : Phase}
    (hphase : p.phase? i = some phase) : phase.Foreign key S := by
  rcases Option.map_eq_some_iff.mp hphase with ⟨x, hx, rfl⟩
  exact h.calls.off hx hnot

theorem isOpen_eq (h : Twin key S p q) {n k : Nat} (hn : Pairs S.handles n k) :
    q.isOpen k = p.isOpen n := by
  rcases h.handles.on hn with ⟨x, y, hx, hy, _, hxy⟩
  rcases h.links.on hxy with ⟨a, b, ha, hb, hab⟩
  unfold isOpen isLinkOpen
  rw [hx, hy, Option.any_some, Option.any_some, ha, hb]
  exact hab

theorem entry_iff (h : Twin key S p q) (hc : Pairs S.cells c d) :
    p.entry? key = some c <-> q.entry? key = some d := by
  have hentry := h.entry
  generalize p.entry? key = x at hentry
  generalize q.entry? key = y at hentry
  cases hentry with
  | none => exact ⟨nofun, nofun⟩
  | some hpair =>
      rw [Option.some.injEq, Option.some.injEq]
      exact h.cells.eq_iff hpair hc

end Twin

/-!
## One pool

A pool agrees with itself about every key, along the strand of all that has to
do with the key.
-/

def Call.seeks (key : Target) (call : Call) : Bool :=
  call.phase.ticket?.any (fun t => t.key = key)

def Strand.of (key : Target) (p : Pool) : Strand where
  calls :=
    Track.pick p.calls.length (fun i => (p.calls[i]?).any (Call.seeks key))
  cells :=
    Track.pick p.cells.length
      (fun c =>
        p.entry? key =
          some c || p.calls.any
            (fun call =>
              call.phase.ticket?.any (fun t => t.key = key && t.cell = c)) ||
            ((p.cellHandle? c).bind p.wire?).any (fun wire => wire.1 = key))
  handles :=
    Track.pick p.handles.length
      (fun h => (p.handles[h]?).any (fun handle => handle.target = key))
  links :=
    Track.pick p.links.length
      (fun l =>
        p.handles.any (fun handle => handle.target = key && handle.link = l) ||
          p.calls.any (fun call =>
            call.seeks key && call.phase.handshake? = some l))

theorem seeks_iff {call : Call} :
    call.seeks key = true <->
      exists t, call.phase.ticket? = some t ∧ t.key = key := by
  unfold Call.seeks
  rw [Option.any_eq_true]
  simp

namespace Strand

theorem pairs_calls_of {call : Call} {t : Ticket}
    (hcall : p.calls[i]? = some call) (ht : call.phase.ticket? = some t)
    (hkey : t.key = key) : Pairs (of key p).calls i i := by
  refine Track.pairs_pick.mpr ⟨rfl, (List.getElem?_eq_some_iff.mp hcall).1, ?_⟩
  rw [hcall]
  exact seeks_iff.mpr ⟨t, ht, hkey⟩

theorem pairs_calls_of_view (hs : Seated keyAt p) {t : Ticket}
    (ht : p.view Phase.ticket? i = some t) (hkey : keyAt t.cell = key) :
    Pairs (of key p).calls i i := by
  rcases view_eq_some.mp ht with ⟨phase, hphase, hticket⟩
  rcases Option.map_eq_some_iff.mp hphase with ⟨call, hcall, rfl⟩
  exact pairs_calls_of hcall hticket ((hs.ticket_key ht).1.symm.trans hkey)

theorem pairs_handles_of {n : Nat} {x : Handle} (hx : p.handles[n]? = some x)
    (hkey : x.target = key) : Pairs (of key p).handles n n := by
  refine Track.pairs_pick.mpr ⟨rfl, (List.getElem?_eq_some_iff.mp hx).1, ?_⟩
  rw [hx]
  exact decide_eq_true hkey

theorem target_of_has {n : Nat} {x : Handle} (hx : p.handles[n]? = some x)
    (h : Has (of key p).handles n) : x.target = key := by
  have hpicked := (Track.has_pick.mp h).2
  rw [hx] at hpicked
  exact of_decide_eq_true hpicked

theorem pairs_cells_of_entry (hs : Seated keyAt p) (h : p.entry? key = some c) :
    Pairs (of key p).cells c c := by
  refine Track.pairs_pick.mpr ⟨rfl, hs.entry_lt h, ?_⟩
  simp [h]

theorem pairs_cells_of_ticket (hs : Seated keyAt p) {call : Call} {t : Ticket}
    (hcall : p.calls[i]? = some call) (ht : call.phase.ticket? = some t)
    (hkey : t.key = key) : Pairs (of key p).cells t.cell t.cell := by
  refine Track.pairs_pick.mpr
    ⟨rfl, (hs.ticket_key (view_of_call hcall ht)).2, ?_⟩
  have hany : p.calls.any
      (fun call =>
        call.phase.ticket?.any (fun u => u.key = key && u.cell = t.cell)) =
      true := by
    refine List.any_eq_true.mpr ⟨call, List.mem_of_getElem? hcall, ?_⟩
    rw [ht]
    simp [hkey]
  rw [hany, Bool.or_true, Bool.true_or]

theorem pairs_cells_of_handle {n : Nat} {x : Handle}
    (hn : p.cellHandle? c = some n) (hx : p.handles[n]? = some x)
    (hkey : x.target = key) : Pairs (of key p).cells c c := by
  refine Track.pairs_pick.mpr ⟨rfl, cellHandle?_lt hn, ?_⟩
  rw [hn, Option.bind_some, wire?_eq_some.mpr ⟨x, hx, hkey, rfl⟩,
    Option.any_some, decide_eq_true rfl, Bool.or_true]

theorem keyAt_of_has (hs : Seated keyAt p) (hw : Wired keyAt p)
    (h : Has (of key p).cells c) : keyAt c = key := by
  have hpicked := (Track.has_pick.mp h).2
  rw [Bool.or_eq_true, Bool.or_eq_true] at hpicked
  rcases hpicked with (hentry | hticket) | hhandle
  · exact hs.entry_key (of_decide_eq_true hentry)
  · rcases List.any_eq_true.mp hticket with ⟨call, hmem, hcall⟩
    rcases List.mem_iff_getElem?.mp hmem with ⟨i, hi⟩
    rcases (Option.any_eq_true _ _).mp hcall with ⟨t, ht, hmatch⟩
    rw [Bool.and_eq_true, decide_eq_true_eq, decide_eq_true_eq] at hmatch
    rw [← hmatch.1, ← hmatch.2]
    exact (hs.ticket_key (view_of_call hi ht)).1
  · rcases (Option.any_eq_true _ _).mp hhandle with ⟨wire, hwire, hkey⟩
    rcases Option.bind_eq_some_iff.mp hwire with ⟨n, hn, hwire⟩
    rcases hw.cell_wire hn with ⟨l, hl⟩
    rw [hl] at hwire
    cases hwire
    exact of_decide_eq_true hkey

theorem has_links_iff (hw : Wired keyAt p) : Has (of key p).links l <->
    (exists (n : Nat) (x : Handle), p.handles[n]? = some x ∧ x.target = key ∧
      x.link = l) ∨
      exists (i : Nat) (call : Call) (t : Ticket),
        p.calls[i]? = some call ∧ call.phase.ticket? = some t ∧ t.key = key ∧
        call.phase.handshake? = some l := by
  refine Track.has_pick.trans ?_
  rw [Bool.or_eq_true, List.any_eq_true, List.any_eq_true]
  simp only [Bool.and_eq_true, decide_eq_true_eq, seeks_iff]
  constructor
  · rintro ⟨_, ⟨x, hx, hmatch⟩ | ⟨call, hcall, ⟨t, ht, hkey⟩, hl⟩⟩
    · rcases List.mem_iff_getElem?.mp hx with ⟨n, hn⟩
      exact Or.inl ⟨n, x, hn, hmatch⟩
    · rcases List.mem_iff_getElem?.mp hcall with ⟨i, hi⟩
      exact Or.inr ⟨i, call, t, hi, ht, hkey, hl⟩
  · rintro (⟨n, x, hx, hkey, hl⟩ | ⟨i, call, t, hcall, ht, hkey, hl⟩)
    · exact ⟨hw.wire_lt (wire?_eq_some.mpr ⟨x, hx, rfl, hl⟩),
        Or.inl ⟨x, List.mem_of_getElem? hx, hkey, hl⟩⟩
    · exact ⟨hw.handshake_lt (view_of_call hcall hl),
        Or.inr ⟨call, List.mem_of_getElem? hcall, ⟨t, ht, hkey⟩, hl⟩⟩

theorem pairs_links_of (h : Has (of key p).links l) :
    Pairs (of key p).links l l :=
  Track.pairs_pick.mpr ⟨rfl, Track.has_pick.mp h⟩

theorem phaseTwin_of (hs : Seated keyAt p) (hw : Wired keyAt p) {call : Call}
    (hcall : p.calls[i]? = some call) (hseeks : call.seeks key = true) :
    PhaseTwin key (of key p) call.phase call.phase := by
  rcases seeks_iff.mp hseeks with ⟨t, ht, hkey⟩
  have hcell := pairs_cells_of_ticket hs hcall ht hkey
  have htwin : TicketTwin key (of key p) t t := by
    rcases t with ⟨k, endpoint, c⟩
    cases hkey
    exact .intro endpoint hcell
  rcases call with ⟨target, phase⟩
  cases phase with
  | queued u =>
      cases ht
      exact .queued htwin
  | connecting u =>
      cases ht
      exact .connecting htwin
  | authenticating u l =>
      cases ht
      exact .authenticating htwin
        (pairs_links_of
          ((has_links_iff hw).mpr (Or.inr ⟨i, _, t, hcall, rfl, hkey, rfl⟩)))
  | rejecting u l error =>
      cases ht
      exact .rejecting error htwin
  | discarding n error => cases ht
  | finished result => cases ht

theorem cellTwin_of (hs : Seated keyAt p) (hw : Wired keyAt p) {x : Cell}
    (hx : p.cells[c]? = some x) (hkey : keyAt c = key) :
    CellTwin (of key p) x x where
  handle := by
    cases hhandle : x.handle with
    | none => exact .none
    | some n =>
        rcases hw.cell_wire (cellHandle?_eq_some.mpr ⟨x, hx, hhandle⟩) with
          ⟨l, hl⟩
        rcases wire?_eq_some.mp hl with ⟨handle, hn, htarget, _⟩
        exact .some (pairs_handles_of hn (htarget.trans hkey))
  owner := by
    cases howner : x.owner with
    | none => exact .none
    | some i =>
        rcases (hs.owner_ticket hx howner).2 with ⟨t, ht, hat⟩
        exact .some (pairs_calls_of_view hs ht (hat ▸ hkey))
  queue := by
    rw [List.forall₂_same]
    intro i hi
    rcases (hs.queue_ticket hx hi).2.2 with ⟨t, ht, hat⟩
    exact pairs_calls_of_view hs (view_of_phase? _ ht) (hat ▸ hkey)

end Strand

namespace Twin

theorem self (hs : Seated keyAt p) (hw : Wired keyAt p) (key : Target) :
    Twin key (.of key p) p p where
  table := rfl
  fallback := rfl
  closed := rfl
  entry := by
    cases hentry : p.entry? key with
    | none => exact .none
    | some c => exact .some (Strand.pairs_cells_of_entry hs hentry)
  others := by
    intro other c hentry hother hhas
    exact hother
      ((hs.entry_key hentry).symm.trans (Strand.keyAt_of_has hs hw hhas))
  calls := by
    apply Matched.of_pick
    · intro i call hcall hhas
      have hpicked := (Track.has_pick.mp hhas).2
      rw [hcall] at hpicked
      exact Strand.phaseTwin_of hs hw hcall hpicked
    · intro i call hcall hnot
      have hkeys : forall {t : Ticket}, call.phase.ticket? = some t ->
          t.key ≠ key :=
        fun ht hkey => hnot (Strand.pairs_calls_of hcall ht hkey).has
      refine ⟨fun {t} ht => ⟨hkeys ht, fun hhas => hkeys ht ?_⟩,
        fun {l} hl hhas => ?_⟩
      · exact (hs.ticket_key (view_of_call hcall ht)).1.symm.trans
          (Strand.keyAt_of_has hs hw hhas)
      -- The link would be one of a handle, or the one of another handshake.
      · rcases (Strand.has_links_iff hw).mp hhas with ⟨n, x, hx, _, hlink⟩ |
          ⟨j, seeker, t, hj, ht, hkey, hl'⟩
        · exact hw.handshake_free (view_of_call hcall hl)
            (wire?_eq_some.mpr ⟨x, hx, rfl, hlink⟩)
        · have hij :=
            hw.handshake_inj (view_of_call hcall hl) (view_of_call hj hl')
          subst hij
          rw [hcall] at hj
          cases hj
          exact hkeys ht hkey
  cells := by
    apply Matched.of_pick
    · intro c x hx hhas
      exact Strand.cellTwin_of hs hw hx (Strand.keyAt_of_has hs hw hhas)
    · intro c x hx hnot n hn hhas
      have hfilled := cellHandle?_eq_some.mpr ⟨x, hx, hn⟩
      rcases hw.cell_wire hfilled with ⟨l, hl⟩
      rcases wire?_eq_some.mp hl with ⟨handle, hhandle, _, _⟩
      exact hnot
        (Strand.pairs_cells_of_handle hfilled hhandle
          (Strand.target_of_has hhandle hhas)).has
  handles := by
    apply Matched.of_pick
    · intro n x hx hhas
      have htarget := Strand.target_of_has hx hhas
      exact ⟨htarget,
        Strand.pairs_links_of
          ((Strand.has_links_iff hw).mpr (Or.inl ⟨n, x, hx, htarget, rfl⟩))⟩
    · intro n x hx hnot hhas
      have hwire : p.wire? n = some (x.target, x.link) :=
        wire?_eq_some.mpr ⟨x, hx, rfl, rfl⟩
      rcases (Strand.has_links_iff hw).mp hhas with ⟨k, y, hy, htarget, hlink⟩ |
        ⟨j, seeker, t, hj, _, _, hl⟩
      · have hnk := hw.wire_inj hwire (wire?_eq_some.mpr ⟨y, hy, rfl, hlink⟩)
        subst hnk
        exact hnot (Strand.pairs_handles_of hy htarget).has
      · exact hw.handshake_free (view_of_call hj hl) hwire
  links := Matched.of_pick (fun _ _ => rfl) (fun _ _ => trivial)

/-! ## Changes of both pools -/

theorem setPhase (h : Twin key S p q) (hi : Pairs S.calls i j) {x y : Phase}
    (hxy : PhaseTwin key S x y) :
    Twin key S (p.setPhase i x) (q.setPhase j y) :=
  { h with calls := h.calls.modify hi (fun _ => hxy) }

theorem modifyCell (h : Twin key S p q) (hc : Pairs S.cells c d)
    {f f' : Cell -> Cell}
    (hf : forall {x y : Cell}, CellTwin S x y -> CellTwin S (f x) (f' y)) :
    Twin key S (p.modifyCell c f) (q.modifyCell d f') :=
  { h with cells := h.cells.modify hc hf }

theorem relink (h : Twin key S p q) (hl : Pairs S.links l m) {f : Link -> Link}
    (hf : forall {x y : Link}, y.isOpen = x.isOpen ->
      (f y).isOpen = (f x).isOpen) :
    Twin key S { p with links := p.links.modify l f }
      { q with links := q.links.modify m f } :=
  { h with links := h.links.modify hl hf }

theorem removeEntry (h : Twin key S p q) :
    Twin key S (p.removeEntry key) (q.removeEntry key) :=
  { h with
    entry := by
      rw [entry?_removeEntry, entry?_removeEntry, if_pos rfl, if_pos rfl]
      exact .none
    others := by
      intro other c hentry hother
      rw [entry?_removeEntry, if_neg (Ne.symm hother)] at hentry
      exact h.others hentry hother }

theorem addCall (h : Twin key S p q) (target target' : Target) {x y : Phase}
    (hxy : PhaseTwin key S x y) :
    Twin key { S with calls := S.calls.push p.calls.length }
      (p.addCall target x) (q.addCall target' y) :=
  have hsub : S.Within { S with calls := S.calls.push p.calls.length } :=
    { calls := fun h => h.append _, cells := id, handles := id, links := id }
  { h with
    calls :=
      (h.calls.imp (fun hphase => PhaseTwin.mono hphase hsub)
        (fun _ hforeign => ⟨hforeign.1, hforeign.2⟩)).push
          (PhaseTwin.mono hxy hsub)
    cells :=
      h.cells.imp (fun hcell => CellTwin.mono hcell hsub)
        (fun _ hfree => hfree) }

theorem addCell (h : Twin key S p q) (hs : Seated keyAt p) :
    Twin key { S with cells := S.cells.push p.cells.length } (p.addCell key)
      (q.addCell key) :=
  have hsub : S.Within { S with cells := S.cells.push p.cells.length } :=
    { calls := id, cells := fun h => h.append _, handles := id, links := id }
  { h with
    entry := by
      rw [entry?_addCell, entry?_addCell, if_pos rfl, if_pos rfl]
      have hlast :
          Pairs (S.cells.push p.cells.length) p.cells.length
            q.cells.length := by
        rw [← h.cells.length]
        exact Track.pairs_last _ _
      have hentry := h.entry
      generalize p.entry? key = x at hentry ⊢
      generalize q.entry? key = y at hentry ⊢
      cases hentry with
      | none => exact .some hlast
      | some hpair => exact .some (hsub.cells hpair)
    others := by
      intro other c hentry hother
      rw [entry?_addCell, if_neg (Ne.symm hother), Option.or_none] at hentry
      rw [Track.has_push, not_or]
      exact ⟨h.others hentry hother, Nat.ne_of_lt (hs.entry_lt hentry)⟩
    calls := by
      apply h.calls.imp (fun hphase => PhaseTwin.mono hphase hsub)
      intro i x hx hforeign
      refine ⟨fun ht => ⟨(hforeign.ticket ht).1, ?_⟩, hforeign.handshake⟩
      rw [Track.has_push, not_or]
      exact ⟨(hforeign.ticket ht).2,
        Nat.ne_of_lt (hs.ticket_key (view_of_call hx ht)).2⟩
    cells := by
      apply (h.cells.imp (fun hcell => CellTwin.mono hcell hsub)
        (fun _ hfree => hfree)).push
      exact ⟨.none, .none, .nil⟩ }

theorem addLink (h : Twin key S p q) (hw : Wired keyAt p) {x y : Link}
    (hxy : y.isOpen = x.isOpen) :
    Twin key { S with links := S.links.push p.links.length } (p.addLink x)
      (q.addLink y) :=
  have hsub : S.Within { S with links := S.links.push p.links.length } :=
    { calls := id, cells := id, handles := id, links := fun h => h.append _ }
  { h with
    calls := by
      apply h.calls.imp (fun hphase => PhaseTwin.mono hphase hsub)
      intro i x hx hforeign
      refine ⟨hforeign.ticket, fun hl => ?_⟩
      rw [Track.has_push, not_or]
      exact ⟨hforeign.handshake hl,
        Nat.ne_of_lt (hw.handshake_lt (view_of_call hx hl))⟩
    cells :=
      h.cells.imp (fun hcell => CellTwin.mono hcell hsub) (fun _ hfree => hfree)
    handles := by
      apply h.handles.imp (fun hxy => ⟨hxy.1, hsub.links hxy.2⟩)
      intro n x hx hfree
      rw [Track.has_push, not_or]
      exact ⟨hfree,
        Nat.ne_of_lt (hw.wire_lt (wire?_eq_some.mpr ⟨x, hx, rfl, rfl⟩))⟩
    links := h.links.push hxy }

theorem addHandle (h : Twin key S p q)
    (hbound : forall {c n : Nat}, p.cellHandle? c = some n ->
      n < p.handles.length)
    {x y : Handle} (hxy : x.target = key ∧ Pairs S.links x.link y.link) :
    Twin key { S with handles := S.handles.push p.handles.length }
      (p.addHandle x) (q.addHandle y) :=
  have hsub : S.Within { S with handles := S.handles.push p.handles.length } :=
    { calls := id, cells := id, handles := fun h => h.append _, links := id }
  { h with
    calls :=
      h.calls.imp (fun hphase => PhaseTwin.mono hphase hsub)
        (fun _ hforeign => ⟨hforeign.1, hforeign.2⟩)
    cells := by
      apply h.cells.imp (fun hcell => CellTwin.mono hcell hsub)
      intro c x hx hfree n hn
      rw [Track.has_push, not_or]
      exact ⟨hfree n hn,
        Nat.ne_of_lt (hbound (cellHandle?_eq_some.mpr ⟨x, hx, hn⟩))⟩
    handles := h.handles.push hxy }

/-! ## Changes of the first pool only -/

theorem setPhase_off (h : Twin key S p q) (hi : ¬ Has S.calls i) {x : Phase}
    (hx : x.Foreign key S) : Twin key S (p.setPhase i x) q :=
  { h with calls := h.calls.modify_off hi (fun _ => hx) }

theorem modifyCell_off (h : Twin key S p q) (hc : ¬ Has S.cells c)
    {f : Cell -> Cell}
    (hf : forall {x : Cell} {n : Nat}, (f x).handle = some n ->
      x.handle = some n ∨ ¬ Has S.handles n) :
    Twin key S (p.modifyCell c f) q :=
  { h with
    cells := h.cells.modify_off hc (fun hx n hn => (hf hn).elim (hx n) id) }

theorem relink_off (h : Twin key S p q) (hl : ¬ Has S.links l)
    (f : Link -> Link) : Twin key S { p with links := p.links.modify l f } q :=
  { h with links := h.links.modify_off hl (fun _ => trivial) }

theorem reorder_off (h : Twin key S p q) {entries : List (Target × Nat)}
    (hleads : forall other, entry? { p with entries } other = p.entry? other) :
    Twin key S { p with entries } q where
  table := h.table
  fallback := h.fallback
  closed := h.closed
  entry := by
    rw [hleads]
    exact h.entry
  others := by
    intro other c hentry
    rw [hleads] at hentry
    exact h.others hentry
  calls := h.calls
  cells := h.cells
  handles := h.handles
  links := h.links

theorem removeEntry_off (h : Twin key S p q) (hother : other ≠ key) :
    Twin key S (p.removeEntry other) q :=
  { h with
    entry := by
      simp [hother]
      exact h.entry
    others := by
      intro third c hentry hthird
      rw [entry?_removeEntry] at hentry
      split at hentry
      · cases hentry
      · exact h.others hentry hthird }

theorem addCall_off (h : Twin key S p q) (target : Target) {x : Phase}
    (hx : x.Foreign key S) : Twin key S (p.addCall target x) q :=
  { h with calls := h.calls.push_off hx }

theorem addCell_off (h : Twin key S p q) (hother : other ≠ key) :
    Twin key S (p.addCell other) q :=
  { h with
    entry := by
      rw [entry?_addCell, if_neg hother, Option.or_none]
      exact h.entry
    others := by
      intro third c hentry hthird
      rw [entry?_addCell, Option.or_eq_some_iff] at hentry
      rcases hentry with hentry | ⟨_, hnew⟩
      · exact h.others hentry hthird
      · split at hnew
        · cases hnew
          exact h.cells.not_has
        · cases hnew
    cells := h.cells.push_off nofun }

theorem addLink_off (h : Twin key S p q) (x : Link) :
    Twin key S (p.addLink x) q :=
  { h with links := h.links.push_off trivial }

theorem addHandle_off (h : Twin key S p q) {x : Handle}
    (hx : ¬ Has S.links x.link) : Twin key S (p.addHandle x) q :=
  { h with handles := h.handles.push_off hx }

end Twin
end Pool
end SlotCluster
