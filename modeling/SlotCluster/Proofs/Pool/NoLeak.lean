import SlotCluster.Proofs.Pool.Cleanups

/-!
# No leaks

Whoever opens a link sees to it that it ends up in an entry or is closed.  The
invariant says of every open link who minds it: the call that waits for the
answer to its credential, the entry of its cell, a cleanup that still has to
look at the cell, or a call that waits at the cell.  In a quiet pool, where no
call and no cleanup is left in the middle, only entries remain.
-/

namespace SlotCluster
namespace Pool

structure Quiet (p : Pool) : Prop where
  calls : forall {i : Nat} {phase : Phase}, p.phase? i = some phase ->
    exists result, phase = .finished result
  cleanups : forall {c : Cleanup}, c ∈ p.cleanups -> c.closing = none

/-- The cleanup with this number has begun and does not wait for a close any
more. -/
def Returned (p : Pool) (n : Nat) : Prop :=
  exists c, p.cleanups[n]? = some c ∧ c.closing = none

def entryLink? (p : Pool) (e : Target × Nat) : Option Nat :=
  ((p.cellHandle? e.2).bind (fun h => p.handles[h]?)).map Handle.link

/-- Somebody hands out the connection in a cell or is going to close it. -/
inductive Minded (p : Pool) (c : Nat) : Prop where
  | entry {key : Target} (found : p.entry? key = some c)
  | chore {cleanup : Cleanup} (listed : cleanup ∈ p.cleanups)
      (left : Chore.cell c ∈ cleanup.chores)
  | call {i : Nat} {t : Ticket} (phase : p.phase? i = some (.queued t))
      (waits : t.cell = c)

/-- Every open link is minded, on its own while it waits for the answer to a
credential and with its cell afterwards. -/
def Covered (p : Pool) : Prop :=
  forall l, p.isLinkOpen l = true ->
    (exists i, p.view Phase.handshake? i = some l) ∨
      exists c h key,
        p.cellHandle? c = some h ∧ p.wire? h = some (key, l) ∧ p.Minded c

namespace Covered

variable {keyAt : Nat -> Target} {p q : Pool}

theorem start (table : Shared) (fallback : Endpoint) :
    Covered { table, fallback } := by
  intro l h
  cases h

/-!
## Moves

Links stay minded if no link opens and nobody turns away from a link that stays
open.
-/

theorem keep (hp : Covered p)
    (hopen : forall {l : Nat}, q.isLinkOpen l = true -> p.isLinkOpen l = true)
    (hshake : forall {i l : Nat}, p.view Phase.handshake? i = some l ->
      q.isLinkOpen l = true -> q.view Phase.handshake? i = some l)
    (hcell : forall {c h : Nat}, p.cellHandle? c = some h ->
      q.cellHandle? c = some h)
    (hwire : forall {h : Nat} {wire : Target × Nat}, p.wire? h = some wire ->
      q.wire? h = some wire)
    (hminded : forall {c h l : Nat} {key : Target}, p.cellHandle? c = some h ->
        p.wire? h = some (key, l) -> q.isLinkOpen l = true -> p.Minded c ->
        q.Minded c) : Covered q := by
  intro l hl
  rcases hp l (hopen hl) with ⟨i, hi⟩ | ⟨c, h, key, hc, hh, hm⟩
  · exact Or.inl ⟨i, hshake hi hl⟩
  · exact Or.inr ⟨c, h, key, hcell hc, hwire hh, hminded hc hh hl hm⟩

theorem addCall (hp : Covered p) (target : Target) (phase : Phase) :
    Covered (p.addCall target phase) := by
  refine hp.keep (q := p.addCall target phase) id ?_ id id ?_
  · intro i l hi _
    rw [view_addCall, if_neg (Nat.ne_of_lt (view_lt hi))]
    exact hi
  · intro c h l key _ _ _ hm
    cases hm with
    | entry found => exact Minded.entry found
    | chore listed left => exact Minded.chore listed left
    | @call i t phase waits =>
        refine Minded.call (i := i) (t := t) ?_ waits
        rw [phase?_addCall, if_neg (Nat.ne_of_lt (phase?_lt phase))]
        exact phase

theorem modifyCell (hp : Covered p) (c : Nat) {f : Cell -> Cell}
    (hf : forall cell, (f cell).handle = cell.handle) :
    Covered (p.modifyCell c f) := by
  refine hp.keep (q := p.modifyCell c f) id (fun hi _ => hi)
    (fun hc => (cellHandle?_modifyCell p c hf _).trans hc) id ?_
  intro d h l key _ _ _ hm
  cases hm with
  | entry found => exact Minded.entry found
  | chore listed left => exact Minded.chore listed left
  | call phase waits => exact Minded.call phase waits

theorem setPhase (hp : Covered p) {i : Nat} {old phase : Phase}
    (hi : p.phase? i = some old)
    (hshake : forall {l : Nat}, old.handshake? = some l ->
      p.isLinkOpen l = false)
    (hwait : forall {t : Ticket} {h l : Nat} {key : Target}, old = .queued t ->
      p.cellHandle? t.cell = some h -> p.wire? h = some (key, l) ->
      p.isLinkOpen l = true -> exists key, p.entry? key = some t.cell) :
    Covered (p.setPhase i phase) := by
  refine hp.keep (q := p.setPhase i phase) id ?_ id id ?_
  · intro j l hj hl
    rw [view_setPhase _ hi, if_neg]
    · exact hj
    · intro hij
      subst hij
      rw [view_of_phase? _ hi] at hj
      have hclosed := hshake hj
      change p.isLinkOpen l = true at hl
      rw [hl] at hclosed
      cases hclosed
  · intro c h l key hc hh hl hm
    cases hm with
    | entry found => exact Minded.entry found
    | chore listed left => exact Minded.chore listed left
    | @call j t waiting waits =>
        by_cases hij : i = j
        · subst hij
          rw [hi, Option.some.injEq] at waiting
          subst waits
          rcases hwait waiting hc hh hl with ⟨other, hentry⟩
          exact Minded.entry (p := p.setPhase i phase) hentry
        · refine Minded.call (i := j) (t := t) ?_ waits
          rw [phase?_setPhase_of_ne _ _ hij]
          exact waiting

theorem relink (hp : Covered p) {links : List Link}
    (hclosing : forall l, isLinkOpen { p with links } l = true ->
      p.isLinkOpen l = true) : Covered { p with links } := by
  refine hp.keep (q := { p with links }) (fun h => hclosing _ h)
    (fun hi _ => hi) id id ?_
  intro c h l key _ _ _ hm
  cases hm with
  | entry found => exact Minded.entry found
  | chore listed left => exact Minded.chore listed left
  | call phase waits => exact Minded.call phase waits

theorem openCell (hp : Covered p) (target : Target) {t : Ticket}
    (hfree : p.entry? t.key = none) : Covered (p.openCell target t) := by
  refine hp.keep (q := p.openCell target t) id ?_ ?_ id ?_
  · intro i l hi _
    rw [view_openCell, if_neg (Nat.ne_of_lt (view_lt hi))]
    exact hi
  · intro c h hc
    rw [cellHandle?_openCell]
    exact hc
  · intro c h l key _ _ _ hm
    cases hm with
    | @entry key found =>
        have hstill : Pool.entry? (p.openCell target t) key = some c := by
          rw [entry?_openCell target hfree, if_neg]
          · exact found
          · intro hkey
            rw [hkey, found] at hfree
            cases hfree
        exact Minded.entry hstill
    | chore listed left => exact Minded.chore listed left
    | @call i u phase waits =>
        refine Minded.call (i := i) (t := u) ?_ waits
        rw [phase?_openCell, if_neg (Nat.ne_of_lt (phase?_lt phase))]
        exact phase

theorem removeEntry (hp : Covered p) (key : Target)
    (hclosed : forall {c h l : Nat} {other : Target}, p.entry? key = some c ->
      p.cellHandle? c = some h -> p.wire? h = some (other, l) ->
      p.isLinkOpen l = false) : Covered (p.removeEntry key) := by
  refine hp.keep (q := p.removeEntry key) id (fun hi _ => hi) id id ?_
  intro c h l other hc hh hl hm
  cases hm with
  | @entry own found =>
      have hstill : Pool.entry? (p.removeEntry key) own = some c := by
        rw [entry?_removeEntry, if_neg]
        · exact found
        · intro hkey
          subst hkey
          have hshut := hclosed found hc hh
          change p.isLinkOpen l = true at hl
          rw [hl] at hshut
          cases hshut
      exact Minded.entry hstill
  | chore listed left => exact Minded.chore listed left
  | call phase waits => exact Minded.call phase waits

theorem closeHandle (hp : Covered p) (n : Nat) : Covered (p.closeHandle n) := by
  rcases closeHandle_eq p n with ⟨links, heq, _⟩
  rw [heq]
  apply hp.relink
  intro l hl
  rw [← heq, isLinkOpen_closeHandle, Bool.and_eq_true] at hl
  exact hl.1

theorem dialLink (hp : Covered p) {i : Nat} {t : Ticket}
    (hi : p.phase? i = some (.connecting t)) : Covered (p.dialLink i t) := by
  intro l hl
  rw [isLinkOpen_dialLink, Bool.or_eq_true, decide_eq_true_eq] at hl
  rcases hl with hl | hnew
  · rcases hp l hl with ⟨j, hj⟩ | ⟨c, h, key, hc, hh, hm⟩
    · refine Or.inl ⟨j, ?_⟩
      rw [view_dialLink _ hi, if_neg]
      · exact hj
      · intro hij
        subst hij
        rw [view_of_phase? _ hi] at hj
        cases hj
    · refine Or.inr ⟨c, h, key, hc, hh, ?_⟩
      cases hm with
      | entry found => exact Minded.entry (p := p.dialLink i t) found
      | chore listed left =>
          exact Minded.chore (p := p.dialLink i t) listed left
      | @call j u phase waits =>
          refine Minded.call (i := j) (t := u) ?_ waits
          rw [phase?_dialLink hi, if_neg]
          · exact phase
          · intro hij
            subst hij
            rw [hi] at phase
            cases phase
  · refine Or.inl ⟨i, ?_⟩
    rw [view_dialLink _ hi, if_pos rfl, hnew]
    rfl

theorem fillCell (hs : Seated keyAt p) (hp : Covered p) {i l : Nat} {t : Ticket}
    (hi : p.phase? i = some (.authenticating t l)) :
    Covered (p.fillCell i t l) := by
  rcases hs.opening_cell (view_of_phase? Phase.opening? hi) with
    ⟨own, hown, _, hempty⟩
  have hwaits : (p.fillCell i t l).phase? i = some (.queued t) := by
    rw [phase?_fillCell hi, if_pos rfl]
  intro m hm
  rcases hp m hm with ⟨j, hj⟩ | ⟨c, h, key, hc, hh, hminded⟩
  · by_cases hij : i = j
    · subst hij
      rw [view_of_phase? _ hi] at hj
      cases hj
      refine Or.inr
        ⟨t.cell, p.handles.length, t.key, ?_, ?_, Minded.call hwaits rfl⟩
      · rw [cellHandle?_fillCell i l hown, if_pos rfl]
      · simp
    · refine Or.inl ⟨j, ?_⟩
      rw [view_fillCell _ hi, if_neg hij]
      exact hj
  · refine Or.inr ⟨c, h, key, ?_, ?_, ?_⟩
    · rw [cellHandle?_fillCell i l hown, if_neg]
      · exact hc
      · intro hat
        rw [← hat] at hc
        simp [cellHandle?, hown, hempty] at hc
    · rw [wire?_fillCell, if_neg (Nat.ne_of_lt (wire?_lt hh))]
      exact hh
    · cases hminded with
      | entry found => exact Minded.entry (p := p.fillCell i t l) found
      | chore listed left =>
          exact Minded.chore (p := p.fillCell i t l) listed left
      | @call j u phase waits =>
          refine Minded.call (i := j) (t := u) ?_ waits
          rw [phase?_fillCell hi, if_neg]
          · exact phase
          · intro hij
            subst hij
            rw [hi] at phase
            cases phase

theorem discard (hp : Covered p) {i h : Nat} {t : Ticket} (error : ClusterError)
    (hi : p.phase? i = some (.queued t))
    (hfilled : p.cellHandle? t.cell = some h) :
    Covered (p.discard i h error) := by
  have hqueued : (p.closeHandle h).phase? i = some (.queued t) := by
    rw [phase?_closeHandle]
    exact hi
  apply (hp.closeHandle h).setPhase hqueued
  · intro l hl
    cases hl
  · intro u g l key hsame hg hwire hopen
    cases hsame
    rcases closeHandle_eq p h with ⟨links, heq, _⟩
    have hsame :
        (p.closeHandle h).cellHandle? t.cell = p.cellHandle? t.cell := by
      rw [heq]
      rfl
    rw [hsame, hfilled, Option.some.injEq] at hg
    subst hg
    rw [heq] at hwire
    rcases wire?_eq_some.mp hwire with ⟨handle, hhandle, _, hl⟩
    change p.handles[h]? = some handle at hhandle
    rw [isLinkOpen_closeHandle, hhandle] at hopen
    simp [hl] at hopen

theorem move (hs : Seated keyAt p) (hp : Covered p)
    (h : Move p q) : Covered q := by
  cases h with
  | refuse target result => exact hp.addCall target _
  | arrive target entry filled => exact hp.addCall target _
  | wait target entry found empty owned =>
      exact (hp.addCall target _).modifyCell _ (fun _ => rfl)
  | found target openPool new free => exact hp.openCell target free
  | @forget key c h entry filled dead =>
      apply hp.removeEntry key
      intro d g l other hd hg hwire
      rw [entry, Option.some.injEq] at hd
      subst hd
      rw [filled, Option.some.injEq] at hg
      subst hg
      rw [Bool.eq_false_iff]
      intro hopen
      rw [isOpen_iff_wire.mpr ⟨other, l, hwire, hopen⟩] at dead
      cases dead
  | @take i t h phase filled entry openPool =>
      apply hp.setPhase phase
      · intro l hl
        cases hl
      · intro u g l key hqueued _ _ _
        cases hqueued
        exact ⟨t.key, entry⟩
  | discard error phase filled => exact hp.discard error phase filled
  | @promote i t cell phase found owned =>
      apply hp.setPhase phase
      · intro l hl
        cases hl
      · intro u g l key hqueued hg _ _
        cases hqueued
        simp [cellHandle?, found, (hs.owner_ticket found owned).1] at hg
  | dial phase => exact hp.dialLink phase
  | fill phase => exact hp.fillCell hs phase
  | @reject i t l error phase closed =>
      apply hp.setPhase phase
      · intro m hm
        cases hm
        exact closed
      · intro u g m key hqueued _ _ _
        cases hqueued
  | finish phase =>
      apply hp.setPhase phase
      · intro l hl
        cases hl
      · intro u g l key hqueued _ _ _
        cases hqueued
  | relink links length closing => exact hp.relink closing
  | inform table cells =>
      refine hp.keep (q := informCells { p with table } table cells) id
        (fun hi _ => hi) id ?_ ?_
      · intro h wire hh
        rw [wire?_informCells]
        exact hh
      · intro c h l key _ _ _ hm
        cases hm with
        | entry found => exact Minded.entry found
        | chore listed left => exact Minded.chore listed left
        | call phase waits => exact Minded.call phase waits
  | reorder perm leads =>
      refine hp.keep id (fun hi _ => hi) id (fun hh => hh) ?_
      intro c h l key _ _ _ hm
      cases hm with
      | entry found => exact Minded.entry ((leads _).trans found)
      | chore listed left => exact Minded.chore listed left
      | call phase waits => exact Minded.call phase waits

/-! ## Owners that fail -/

/-- A failing owner minds no link, and the entry that it removes leads to an
empty cell. -/
theorem fail (hs : Seated keyAt p) (hp : Covered p) {i : Nat} {t : Ticket}
    {old : Phase} (error : ClusterError) (hi : p.phase? i = some old)
    (hopening : old.opening? = some t) (hshake : old.handshake? = none) :
    Covered (p.fail i t error) := by
  rcases hs.opening_cell ((view_of_phase? _ hi).trans hopening) with
    ⟨own, hown, _, hempty⟩
  have hcell : p.cellHandle? t.cell = none := by
    simp [cellHandle?, hown, hempty]
  have hforsaken :
      Covered (p.forsake t) ∧ (p.forsake t).phase? i = some old := by
    unfold forsake
    by_cases hentry : p.entry? t.key = some t.cell
    · rw [if_pos hentry]
      refine ⟨hp.removeEntry t.key ?_, hi⟩
      intro c h l other hc hh _
      rw [hentry, Option.some.injEq] at hc
      rw [← hc, hcell] at hh
      cases hh
    · rw [if_neg hentry]
      exact ⟨hp, hi⟩
  rw [fail_eq i error hcell]
  apply (hforsaken.1.modifyCell t.cell (f := Cell.passOn)
    (fun _ => rfl)).setPhase hforsaken.2
  · intro l hl
    rw [hshake] at hl
    cases hl
  · intro u h l key hqueued _ _ _
    rw [hqueued] at hopening
    cases hopening

/-! ## Cleanups -/

/-- Doing chores closes what nobody else minds, if the chores that are left are
noted down. -/
theorem tidied {chores rest : List Chore} (h : Tidied chores p q rest)
    {cleanups : List Cleanup}
    (hp : forall l, p.isLinkOpen l = true ->
      (exists i, p.view Phase.handshake? i = some l) ∨
        exists c h key, p.cellHandle? c = some h ∧ p.wire? h = some (key, l) ∧
          (p.Minded c ∨ Chore.cell c ∈ chores))
    (hkept : forall {cleanup : Cleanup} {c : Nat}, cleanup ∈ p.cleanups ->
      Chore.cell c ∈ cleanup.chores ->
      Chore.cell c ∈ chores ∨
        exists other, other ∈ cleanups ∧ Chore.cell c ∈ other.chores)
    (hrest : exists cleanup, cleanup ∈ cleanups ∧ cleanup.chores = rest) :
    Covered { q with cleanups } := by
  intro l hl
  change q.isLinkOpen l = true at hl
  rcases hp l (h.closing hl) with ⟨i, hi⟩ | ⟨c, n, key, hc, hn, hm⟩
  · refine Or.inl ⟨i, ?_⟩
    change q.view Phase.handshake? i = some l
    rw [h.view_eq]
    exact hi
  have hcq : q.cellHandle? c = some n := (h.cellHandle?_eq c).trans hc
  have hnq : q.wire? n = some (key, l) := (h.wire?_eq n).trans hn
  -- The link is open, so the cell has not been looked at.
  have hunshut : ¬ q.Shut c := by
    intro hshut
    rw [hshut n l key hcq hnq] at hl
    cases hl
  have hleft : Chore.cell c ∈ chores -> Minded { q with cleanups } c := by
    intro hmem
    rcases h.cell_done hmem with hstill | hshut
    · rcases hrest with ⟨cleanup, hlisted, hchores⟩
      exact Minded.chore hlisted (hchores ▸ hstill)
    · exact absurd hshut hunshut
  refine Or.inr ⟨c, n, key, hcq, hnq, ?_⟩
  rcases hm with hm | hm
  · cases hm with
    | entry found =>
        rcases h.entry_done found with hentry | ⟨_, hshut⟩
        · exact Minded.entry hentry
        · exact absurd hshut hunshut
    | chore listed left =>
        rcases hkept listed left with hmem | ⟨other, hlisted, hmem⟩
        · exact hleft hmem
        · exact Minded.chore hlisted hmem
    | @call i t phase waits =>
        refine Minded.call (i := i) (t := t) ?_ waits
        rw [h.frame]
        exact phase
  · exact hleft hm

theorem sweep (hs : Seated keyAt p) (hp : Covered p) (table : Table) :
    Covered (p.sweep table) := by
  rcases tidied_runChores
    { p with entries := p.entries.filter (fun e => !e.1.isStale table) }
    ((p.entries.filter (fun e => e.1.isStale table)).map
      (fun e => .cell e.2)) with ⟨htidied, _⟩
  refine tidied htidied ?_ ?_
    ⟨_, List.mem_append_right _ (List.mem_singleton_self _), rfl⟩
  · intro l hl
    rcases hp l hl with hshake | ⟨c, h, key, hc, hh, hm⟩
    · exact Or.inl hshake
    · refine Or.inr ⟨c, h, key, hc, hh, ?_⟩
      cases hm with
      | @entry other found =>
          have hmem : (other, c) ∈ p.entries :=
            (entry?_eq_some hs.keys_nodup).mp found
          cases hstale : other.isStale table with
          | true =>
              right
              exact List.mem_map.mpr
                ⟨(other, c), List.mem_filter.mpr ⟨hmem, hstale⟩, rfl⟩
          | false =>
              left
              have hstill :
                  entry? { p with
                    entries := p.entries.filter (fun e => !e.1.isStale table) }
                      other = some c := by
                rw [entry?_eq_some
                  ((List.filter_sublist.map _).nodup hs.keys_nodup)]
                exact List.mem_filter.mpr ⟨hmem, by simp [hstale]⟩
              exact Minded.entry hstill
      | chore listed left => exact Or.inl (Minded.chore listed left)
      | call phase waits => exact Or.inl (Minded.call phase waits)
  · intro cleanup c hlisted hmem
    rw [htidied.frame]
    exact Or.inr ⟨cleanup, List.mem_append_left _ hlisted, hmem⟩

theorem drain (hp : Covered p) : Covered p.drain := by
  rcases tidied_runChores { p with isClosed := true }
      (p.entries.map (fun e => .key e.1)) with
    ⟨htidied, _⟩
  refine tidied htidied ?_ ?_
    ⟨_, List.mem_append_right _ (List.mem_singleton_self _), rfl⟩
  · intro l hl
    rcases hp l hl with hshake | ⟨c, h, key, hc, hh, hm⟩
    · exact Or.inl hshake
    · refine Or.inr ⟨c, h, key, hc, hh, Or.inl ?_⟩
      cases hm with
      | entry found => exact Minded.entry found
      | chore listed left => exact Minded.chore listed left
      | call phase waits => exact Minded.call phase waits
  · intro cleanup c hlisted hmem
    rw [htidied.frame]
    exact Or.inr ⟨cleanup, List.mem_append_left _ hlisted, hmem⟩

theorem continueCleanup (hp : Covered p) {n : Nat} {c : Cleanup}
    (hfound : p.cleanups[n]? = some c) : Covered (p.continueCleanup n c) := by
  rcases tidied_runChores p c.chores with ⟨htidied, _⟩
  have hlt : n < p.cleanups.length := (List.getElem?_eq_some_iff.mp hfound).1
  refine tidied htidied ?_ ?_
    ⟨{ c with
      chores := (p.runChores c.chores).2.1
      closing :=
        (p.runChores c.chores).2.2 }, List.mem_of_getElem? (i := n) ?_, rfl⟩
  · intro l hl
    rcases hp l hl with hshake | ⟨d, h, key, hd, hh, hm⟩
    · exact Or.inl hshake
    · exact Or.inr ⟨d, h, key, hd, hh, Or.inl hm⟩
  · intro cleanup d hlisted hmem
    rcases List.getElem?_of_mem hlisted with ⟨m, hm⟩
    by_cases hmn : n = m
    · subst hmn
      rw [hfound, Option.some.injEq] at hm
      exact Or.inl (hm ▸ hmem)
    · refine Or.inr ⟨cleanup, List.mem_of_getElem? (i := m) ?_, hmem⟩
      rw [htidied.frame, List.getElem?_set_ne hmn]
      exact hm
  · rw [htidied.frame, List.getElem?_set_self hlt]

theorem kind (hs : Sound p) (hp : Covered p) {event : Event}
    (h : Kind p event q) : Covered q := by
  cases h with
  | moves chain =>
      have hboth : Sound q ∧ Covered q := by
        induction chain with
        | refl => exact ⟨hs, hp⟩
        | tail _ h ih =>
            rcases ih with ⟨hsound, hcovered⟩
            refine ⟨hsound.move h, ?_⟩
            rcases hsound with ⟨keyAt, hseated, _⟩
            exact hcovered.move hseated h
      exact hboth.2
  | notLinked phase =>
      rcases hs with ⟨keyAt, hseated, _⟩
      exact hp.fail hseated _ phase rfl rfl
  | rejected phase =>
      rcases hs with ⟨keyAt, hseated, _⟩
      exact hp.fail hseated _ phase rfl rfl
  | sweep table =>
      rcases hs with ⟨keyAt, hseated, _⟩
      exact hp.sweep hseated table
  | drain => exact hp.drain
  | cleaned found => exact hp.continueCleanup found

theorem run {events : List Event} (hs : Sound p) (hp : Covered p)
    (h : p.run events = some q) : Covered q :=
  (run_induction (fun hs hi hk => hi.kind hs hk) hs hp h).2

end Covered

/-! ## Quiet pools -/

variable {keyAt : Nat -> Target} {p : Pool}

theorem entryLink?_eq_some {e : Target × Nat} {l : Nat} :
    p.entryLink? e = some l <->
      exists h key, p.cellHandle? e.2 = some h ∧ p.wire? h = some (key, l) := by
  unfold entryLink?
  rw [Option.map_eq_some_iff]
  constructor
  · intro h
    rcases h with ⟨handle, hbind, hl⟩
    rcases Option.bind_eq_some_iff.mp hbind with ⟨n, hn, hhandle⟩
    exact ⟨n, handle.target, hn, wire?_eq_some.mpr ⟨handle, hhandle, rfl, hl⟩⟩
  · intro h
    rcases h with ⟨n, key, hn, hwire⟩
    rcases wire?_eq_some.mp hwire with ⟨handle, hhandle, _, hl⟩
    exact ⟨handle, Option.bind_eq_some_iff.mpr ⟨n, hn, hhandle⟩, hl⟩

theorem filled_of_quiet (hs : Seated keyAt p) (hq : p.Quiet) {e : Target × Nat}
    (he : e ∈ p.entries) : (p.cellHandle? e.2).isSome := by
  rcases hs.manned ((entry?_eq_some hs.keys_nodup).mpr he) with
    ⟨cell, hcell, hhandle | howner⟩
  · rcases Option.ne_none_iff_exists'.mp hhandle with ⟨h, hh⟩
    rw [cellHandle?_eq_some.mpr ⟨cell, hcell, hh⟩]
    rfl
  · rcases Option.ne_none_iff_exists'.mp howner with ⟨i, hi⟩
    rcases hs.owner_ticket hcell hi with ⟨_, t, ht, _⟩
    rcases view_eq_some.mp ht with ⟨phase, hphase, hticket⟩
    rcases hq.calls hphase with ⟨result, hfinished⟩
    rw [hfinished] at hticket
    cases hticket

theorem entry_of_quiet (hs : Seated keyAt p) (ht : Tended p) (hc : Covered p)
    (hq : p.Quiet) {l : Nat} (hl : p.isLinkOpen l = true) :
    exists e, e ∈ p.entries ∧ p.entryLink? e = some l := by
  rcases hc l hl with ⟨i, hi⟩ | ⟨c, h, key, hcell, hwire, hm⟩
  · rcases view_eq_some.mp hi with ⟨phase, hphase, hshake⟩
    rcases hq.calls hphase with ⟨result, hfinished⟩
    rw [hfinished] at hshake
    cases hshake
  · cases hm with
    | @entry other found =>
        exact ⟨(other, c), (entry?_eq_some hs.keys_nodup).mp found,
          entryLink?_eq_some.mpr ⟨h, key, hcell, hwire⟩⟩
    | chore listed left =>
        rw [ht.idle listed (hq.cleanups listed)] at left
        cases left
    | call phase waits =>
        rcases hq.calls phase with ⟨result, hfinished⟩
        cases hfinished

theorem entry_unique (hs : Seated keyAt p) (hw : Wired keyAt p)
    {e f : Target × Nat} {l : Nat} (he : e ∈ p.entries) (hf : f ∈ p.entries)
    (hel : p.entryLink? e = some l)
    (hfl : p.entryLink? f = some l) : e = f := by
  rcases entryLink?_eq_some.mp hel with ⟨g, key, hg, hgl⟩
  rcases entryLink?_eq_some.mp hfl with ⟨h, other, hh, hhl⟩
  rw [hw.wire_inj hgl hhl] at hg
  have hcell : e.2 = f.2 := hw.cell_inj hg hh
  have hkey : e.1 = f.1 := by
    apply hs.entry_inj (c := f.2)
    · rw [← hcell]
      exact (entry?_eq_some hs.keys_nodup).mpr he
    · exact (entry?_eq_some hs.keys_nodup).mpr hf
  exact Prod.ext hkey hcell

/-- After any run, if the pool is quiet, every entry holds a connection and
every open link is the link of exactly one entry.  Once the end of the pool has
returned there are no entries, and if the pool is quiet then, no link is
open. -/
theorem no_leak {table : Shared} {fallback : Endpoint} {events : List Event}
    {p : Pool} (hrun : run { table, fallback } events = some p) :
    (p.Quiet ->
      (forall e, e ∈ p.entries -> (p.cellHandle? e.2).isSome) ∧
        forall l, p.isLinkOpen l = true ->
          ∃! e, e ∈ p.entries ∧ p.entryLink? e = some l) ∧
      forall before after q, events = before ++ .drain :: after ->
        run { table, fallback } before = some q ->
          p.Returned q.cleanups.length ->
          p.entries = [] ∧ (p.Quiet -> forall l, p.isLinkOpen l = false) := by
  have hstart : Sound { table, fallback } := Sound.start table fallback
  have hsound : Sound p := hstart.run hrun
  have htended : Tended p := (Tended.start table fallback).run hstart hrun
  have hcovered : Covered p := (Covered.start table fallback).run hstart hrun
  rcases hsound with ⟨keyAt, hs, hw⟩
  refine ⟨fun hq => ⟨fun e he => filled_of_quiet hs hq he, ?_⟩, ?_⟩
  · intro l hl
    rcases entry_of_quiet hs htended hcovered hq hl with ⟨e, he, hel⟩
    exact ⟨e, ⟨he, hel⟩, fun f hf => entry_unique hs hw hf.1 he hf.2 hel⟩
  · intro before after q hevents hbefore hreturned
    have hafter : q.drain.run after = some p := by
      rw [hevents] at hrun
      exact run_after hrun hbefore rfl
    have hq : Sound q := hstart.run hbefore
    have hdrained : Sound q.drain := hq.kind Kind.drain
    have hdraining : Draining q.cleanups.length p :=
      (Draining.start hq).run hdrained hafter
    rcases hreturned with ⟨cleanup, hfound, hdone⟩
    have hnil : p.entries = [] :=
      hdraining.entries_eq_nil ⟨keyAt, hs, hw⟩ htended hfound hdone
    refine ⟨hnil, ?_⟩
    intro hquiet l
    rw [Bool.eq_false_iff]
    intro hl
    rcases entry_of_quiet hs htended hcovered hquiet hl with ⟨e, he, _⟩
    rw [hnil] at he
    cases he

/-- A connection is opened and kept; then the pool ends and closes it. -/
theorem no_leak_kept_and_drained :
    (exists p, run { table := default, fallback := .atAddress "h" 1 }
        [.request (.address "d" 2), .linked 0] = some p ∧ p.Quiet ∧
          p.isLinkOpen 0 = true ∧
      ∃! e, e ∈ p.entries ∧ p.entryLink? e = some 0) ∧
    exists p, run { table := default, fallback := .atAddress "h" 1 }
        [.request (.address "d" 2), .linked 0, .drain, .cleaned 0] = some p ∧
          p.Quiet ∧
      p.entries = [] ∧ forall l, p.isLinkOpen l = false := by
  constructor
  · have hrun : run { table := default, fallback := .atAddress "h" 1 }
        [.request (.address "d" 2), .linked 0] = some _ := rfl
    refine ⟨_, hrun, ?quiet, rfl, ((no_leak hrun).1 ?quiet).2 0 rfl⟩
    constructor
    · intro i phase hphase
      cases i with
      | zero =>
          cases hphase
          exact ⟨_, rfl⟩
      | succ i => cases hphase
    · intro c hc
      cases hc
  · have hrun : run { table := default, fallback := .atAddress "h" 1 }
        [.request (.address "d" 2), .linked 0, .drain, .cleaned 0] = some _ :=
      rfl
    have hends :=
      (no_leak hrun).2 [.request (.address "d" 2), .linked 0]
        [.cleaned 0] _ rfl rfl ⟨_, rfl, rfl⟩
    refine ⟨_, hrun, ?drained, hends.1, hends.2 ?drained⟩
    constructor
    · intro i phase hphase
      cases i with
      | zero =>
          cases hphase
          exact ⟨_, rfl⟩
      | succ i => cases hphase
    · intro c hc
      cases List.mem_singleton.mp hc
      rfl

end Pool
end SlotCluster
