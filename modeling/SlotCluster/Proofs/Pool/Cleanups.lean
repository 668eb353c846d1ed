import SlotCluster.Proofs.Pool.Steps

/-!
# Cleanups over a run

What a cleanup has still to do.  A cleanup that closes nothing has nothing left
to do, keys are chores of the end of the pool only, and after the pool has
ended, the keys that still have an entry are among the chores of the cleanup
that ended it.
-/

namespace SlotCluster
namespace Pool

variable {p q : Pool}

/-!
## What calls leave alone

Entries come with new cells only, and a closed pool gets none.
-/

theorem move_frame (h : Move p q) :
    q.cleanups = p.cleanups ∧ q.isClosed = p.isClosed := by
  cases h with
  | @discard i t h error phase filled =>
      rcases closeHandle_eq p h with ⟨links, heq, _⟩
      unfold discard
      rw [heq]
      exact ⟨rfl, rfl⟩
  | _ => exact ⟨rfl, rfl⟩

theorem moves_frame (h : Moves p q) :
    q.cleanups = p.cleanups ∧ q.isClosed = p.isClosed := by
  induction h with
  | refl => exact ⟨rfl, rfl⟩
  | tail _ h ih =>
      rcases move_frame h with ⟨hcleanups, hclosed⟩
      exact ⟨hcleanups.trans ih.1, hclosed.trans ih.2⟩

theorem fail_frame (p : Pool) (i : Nat) (t : Ticket) (error : ClusterError) :
    (p.fail i t error).cleanups = p.cleanups ∧
      (p.fail i t error).isClosed = p.isClosed := by
  unfold fail
  dsimp only
  split
  · exact ⟨rfl, rfl⟩
  · exact ⟨rfl, rfl⟩

theorem entry_of_move (h : Move p q) {key : Target} {c : Nat}
    (hentry : q.entry? key = some c) :
    p.entry? key = some c ∨ p.isClosed = false ∧ p.entry? key = none := by
  cases h with
  | @found t target openPool new free =>
      rw [entry?_openCell target free] at hentry
      by_cases hkey : t.key = key
      · exact Or.inr ⟨openPool, hkey ▸ free⟩
      · rw [if_neg hkey] at hentry
        exact Or.inl hentry
  | @forget other d h entry filled dead =>
      rw [entry?_removeEntry] at hentry
      by_cases hkey : other = key
      · rw [if_pos hkey] at hentry
        cases hentry
      · rw [if_neg hkey] at hentry
        exact Or.inl hentry
  | @discard i t h error phase filled =>
      rcases closeHandle_eq p h with ⟨links, heq, _⟩
      unfold discard at hentry
      rw [heq] at hentry
      exact Or.inl hentry
  | reorder perm leads =>
      rw [leads] at hentry
      exact Or.inl hentry
  | _ => exact Or.inl hentry

theorem entry_of_moves (hclosed : p.isClosed = true) (h : Moves p q)
    {key : Target} {c : Nat} (hentry : q.entry? key = some c) :
    p.entry? key = some c := by
  induction h with
  | refl => exact hentry
  | tail chain h ih =>
      rcases entry_of_move h hentry with hbefore | ⟨hopen, _⟩
      · exact ih hbefore
      · rw [(moves_frame chain).2, hclosed] at hopen
        cases hopen

/-! ## What is left to do -/

structure Tended (p : Pool) : Prop where
  idle : forall {c : Cleanup}, c ∈ p.cleanups -> c.closing = none ->
    c.chores = []
  keyed : forall {c : Cleanup} {key : Target}, c ∈ p.cleanups ->
    Chore.key key ∈ c.chores -> p.isClosed = true

namespace Tended

theorem start (table : Shared) (fallback : Endpoint) :
    Tended { table, fallback } where
  idle h := by cases h
  keyed h := by cases h

theorem frame (hp : Tended p)
    (h : q.cleanups = p.cleanups ∧ q.isClosed = p.isClosed) : Tended q where
  idle hc := hp.idle (h.1 ▸ hc)
  keyed hc hkey := h.2.trans (hp.keyed (h.1 ▸ hc) hkey)

theorem beginCleanup (hp : Tended p) {chores : List Chore} (evicted : Nat)
    (hkeys : forall {key : Target}, Chore.key key ∈ chores ->
      p.isClosed = true) : Tended (p.beginCleanup chores evicted) := by
  rcases tidied_runChores p chores with ⟨htidied, hdone⟩
  have hmem : forall {c : Cleanup},
      c ∈ (p.beginCleanup chores evicted).cleanups ->
      c ∈ p.cleanups ∨
        c = ⟨(p.runChores chores).2.1, (p.runChores chores).2.2, evicted⟩ := by
    intro c hc
    change c ∈ (p.runChores chores).1.cleanups ++ [_] at hc
    rw [htidied.frame, List.mem_append, List.mem_singleton] at hc
    exact hc
  have hclosed : (p.beginCleanup chores evicted).isClosed = p.isClosed := by
    change (p.runChores chores).1.isClosed = _
    rw [htidied.frame]
  constructor
  · intro c hc hidle
    rcases hmem hc with hold | hnew
    · exact hp.idle hold hidle
    · rw [hnew] at hidle ⊢
      exact hdone hidle
  · intro c key hc hkey
    rw [hclosed]
    rcases hmem hc with hold | hnew
    · exact hp.keyed hold hkey
    · rw [hnew] at hkey
      exact hkeys (htidied.left.subset hkey)

theorem continueCleanup (hp : Tended p) {n : Nat} {c : Cleanup}
    (hfound : p.cleanups[n]? = some c) : Tended (p.continueCleanup n c) := by
  rcases tidied_runChores p c.chores with ⟨htidied, hdone⟩
  have hmem : forall {d : Cleanup}, d ∈ (p.continueCleanup n c).cleanups ->
      d ∈ p.cleanups ∨
        d = { c with
          chores := (p.runChores c.chores).2.1
          closing := (p.runChores c.chores).2.2 } := by
    intro d hd
    change d ∈ (p.runChores c.chores).1.cleanups.set n _ at hd
    rw [htidied.frame] at hd
    exact List.mem_or_eq_of_mem_set hd
  have hclosed : (p.continueCleanup n c).isClosed = p.isClosed := by
    change (p.runChores c.chores).1.isClosed = _
    rw [htidied.frame]
  constructor
  · intro d hd hidle
    rcases hmem hd with hold | hnew
    · exact hp.idle hold hidle
    · rw [hnew] at hidle ⊢
      exact hdone hidle
  · intro d key hd hkey
    rw [hclosed]
    rcases hmem hd with hold | hnew
    · exact hp.keyed hold hkey
    · rw [hnew] at hkey
      exact hp.keyed (List.mem_of_getElem? hfound) (htidied.left.subset hkey)

theorem kind (hp : Tended p) {event : Event}
    (h : Kind p event q) : Tended q := by
  cases h with
  | moves chain => exact hp.frame (moves_frame chain)
  | notLinked phase => exact hp.frame (fail_frame ..)
  | rejected phase => exact hp.frame (fail_frame ..)
  | sweep table =>
      have hswept :
          Tended { p with
            entries := p.entries.filter (fun e => !e.1.isStale table) } :=
        hp.frame ⟨rfl, rfl⟩
      apply hswept.beginCleanup
      intro key hkey
      rcases List.mem_map.mp hkey with ⟨e, _, he⟩
      cases he
  | drain =>
      have hclosed : Tended { p with isClosed := true } :=
        ⟨hp.idle, fun _ _ => rfl⟩
      exact hclosed.beginCleanup 0 (fun _ => rfl)
  | cleaned found => exact hp.continueCleanup found

theorem run {events : List Event} (hs : Sound p) (hp : Tended p)
    (h : p.run events = some q) : Tended q :=
  (run_induction (fun _ hi hk => hi.kind hk) hs hp h).2

end Tended

/-! ## The end of the pool -/

theorem isClosed_of_step (hp : Sound p) {event : Event}
    (hclosed : p.isClosed = true) (h : p.step event = some q) :
    q.isClosed = true := by
  cases hp.kind_of h with
  | moves chain => exact (moves_frame chain).2.trans hclosed
  | notLinked _ => exact (fail_frame ..).2.trans hclosed
  | rejected _ => exact (fail_frame ..).2.trans hclosed
  | sweep table =>
      show (runChores _ _).1.isClosed = true
      rw [(tidied_runChores _ _).1.frame]
      exact hclosed
  | drain =>
      show (runChores _ _).1.isClosed = true
      rw [(tidied_runChores _ _).1.frame]
  | cleaned _ =>
      show (runChores _ _).1.isClosed = true
      rw [(tidied_runChores _ _).1.frame]
      exact hclosed

theorem isClosed_eq_false_of_step (hp : Sound p) {event : Event}
    (h : p.step event = some q) (hopen : q.isClosed = false) :
    p.isClosed = false := by
  rw [Bool.eq_false_iff]
  intro hclosed
  rw [isClosed_of_step hp hclosed h] at hopen
  cases hopen

theorem closed_of_run {events : List Event} (hp : Sound p)
    (hclosed : p.isClosed = true) (h : p.run events = some q) :
    q.isClosed = true :=
  hp.induction (I := fun p => p.isClosed = true) hclosed h
    (fun hp hi hr => isClosed_of_step hp hi hr)

/-- The pool has ended, and every entry that is left is a chore of the given
cleanup. -/
structure Draining (n : Nat) (p : Pool) : Prop where
  closed : p.isClosed = true
  left : forall {key : Target} {c : Nat}, p.entry? key = some c ->
    exists cleanup,
      p.cleanups[n]? = some cleanup ∧ Chore.key key ∈ cleanup.chores
  begun : n < p.cleanups.length

namespace Draining

variable {n : Nat}

theorem start (hs : Sound p) : Draining p.cleanups.length p.drain := by
  rcases tidied_runChores { p with isClosed := true }
      (p.entries.map (fun e => .key e.1)) with
    ⟨htidied, _⟩
  have hcleanups : p.drain.cleanups =
      p.cleanups ++
        [⟨(runChores { p with isClosed := true }
          (p.entries.map (fun e => .key e.1))).2.1,
            (runChores { p with isClosed := true }
              (p.entries.map (fun e => .key e.1))).2.2, 0⟩] := by
    change (runChores _ _).1.cleanups ++ [_] = _
    rw [htidied.frame]
  constructor
  · change (runChores _ _).1.isClosed = true
    rw [htidied.frame]
  · intro key c hentry
    rcases hs with ⟨keyAt, hseated, _⟩
    have hbefore : (key, c) ∈ p.entries :=
      (entry?_eq_some hseated.keys_nodup).mp (htidied.entry_old hentry)
    rw [hcleanups, List.getElem?_concat_length]
    refine ⟨_, rfl, ?_⟩
    apply htidied.key_left (c := c) _ hentry
    exact List.mem_map.mpr ⟨(key, c), hbefore, rfl⟩
  · rw [hcleanups]
    simp

theorem shrink (hp : Draining n p)
    (hframe : q.cleanups = p.cleanups ∧ q.isClosed = p.isClosed)
    (hentries : forall {key : Target} {c : Nat}, q.entry? key = some c ->
      p.entry? key = some c) : Draining n q where
  closed := hframe.2.trans hp.closed
  left h := hframe.1 ▸ hp.left (hentries h)
  begun := hframe.1 ▸ hp.begun

theorem beginCleanup (hp : Draining n p) (chores : List Chore) (evicted : Nat) :
    Draining n (p.beginCleanup chores evicted) := by
  rcases tidied_runChores p chores with ⟨htidied, _⟩
  have hnew : (p.beginCleanup chores evicted).cleanups = p.cleanups ++
      [⟨(p.runChores chores).2.1, (p.runChores chores).2.2, evicted⟩] := by
    change (p.runChores chores).1.cleanups ++ [_] = _
    rw [htidied.frame]
  constructor
  · change (p.runChores chores).1.isClosed = true
    rw [htidied.frame]
    exact hp.closed
  · intro key c hentry
    rw [hnew, List.getElem?_append_left hp.begun]
    exact hp.left (htidied.entry_old hentry)
  · rw [hnew, List.length_append]
    exact Nat.lt_add_right _ hp.begun

theorem continueCleanup (hp : Draining n p) {m : Nat} {c : Cleanup}
    (hfound : p.cleanups[m]? = some c) :
    Draining n (p.continueCleanup m c) := by
  rcases tidied_runChores p c.chores with ⟨htidied, _⟩
  have hcleanups : (p.continueCleanup m c).cleanups =
      p.cleanups.set m
        { c with
          chores := (p.runChores c.chores).2.1
          closing := (p.runChores c.chores).2.2 } := by
    change (p.runChores c.chores).1.cleanups.set m _ = _
    rw [htidied.frame]
  constructor
  · change (p.runChores c.chores).1.isClosed = true
    rw [htidied.frame]
    exact hp.closed
  · intro key d hentry
    rcases hp.left (htidied.entry_old hentry) with ⟨cleanup, hcleanup, hkey⟩
    rw [hcleanups]
    by_cases hn : m = n
    · subst hn
      rw [hfound] at hcleanup
      cases hcleanup
      rw [List.getElem?_set_self hp.begun]
      exact ⟨_, rfl, htidied.key_left hkey hentry⟩
    · rw [List.getElem?_set_ne hn]
      exact ⟨cleanup, hcleanup, hkey⟩
  · rw [hcleanups, List.length_set]
    exact hp.begun

theorem kind (hs : Sound p) (hp : Draining n p) {event : Event}
    (h : Kind p event q) : Draining n q := by
  rcases hs with ⟨keyAt, hseated, _⟩
  have hfail : forall {i : Nat} {t : Ticket} {error : ClusterError},
      p.view Phase.opening? i = some t -> Draining n (p.fail i t error) := by
    intro i t error hopening
    apply hp.shrink (fail_frame ..)
    intro key c hentry
    rcases hseated.opening_cell hopening with ⟨cell, hcell, _, hempty⟩
    rw [entry?_fail i error (by simp [cellHandle?, hcell, hempty])] at hentry
    by_cases hgone : t.key = key ∧ p.entry? key = some t.cell
    · rw [if_pos hgone] at hentry
      cases hentry
    · rw [if_neg hgone] at hentry
      exact hentry
  cases h with
  | moves chain =>
      exact hp.shrink (moves_frame chain) (entry_of_moves hp.closed chain)
  | notLinked phase => exact hfail (view_of_phase? _ phase)
  | rejected phase => exact hfail (view_of_phase? _ phase)
  | sweep table =>
      have hswept :
          Draining n { p with
            entries := p.entries.filter (fun e => !e.1.isStale table) } := by
        refine hp.shrink (q := { p with entries := _ }) ⟨rfl, rfl⟩ ?_
        intro key c hentry
        have hnodup := hseated.keys_nodup
        rw [entry?_eq_some ((List.filter_sublist.map _).nodup hnodup)] at hentry
        rw [entry?_eq_some hnodup]
        exact List.mem_of_mem_filter hentry
      exact hswept.beginCleanup _ _
  | drain =>
      have hclosed : Draining n { p with isClosed := true } :=
        ⟨rfl, hp.left, hp.begun⟩
      exact hclosed.beginCleanup _ _
  | cleaned found => exact hp.continueCleanup found

theorem run {events : List Event} (hs : Sound p) (hp : Draining n p)
    (h : p.run events = some q) : Draining n q :=
  (run_induction (fun hs hi hk => hi.kind hs hk) hs hp h).2

/-- Once the cleanup that ended the pool is done, the pool has no entries. -/
theorem entries_eq_nil (hs : Sound p) (ht : Tended p) (hp : Draining n p)
    {cleanup : Cleanup} (hfound : p.cleanups[n]? = some cleanup)
    (hdone : cleanup.closing = none) : p.entries = [] := by
  rcases hs with ⟨keyAt, hseated, _⟩
  apply List.eq_nil_iff_forall_not_mem.mpr
  intro e he
  rcases hp.left ((entry?_eq_some hseated.keys_nodup).mpr he) with
    ⟨found, hsame, hkey⟩
  rw [hfound] at hsame
  cases hsame
  rw [ht.idle (List.mem_of_getElem? hfound) hdone] at hkey
  cases hkey

end Draining
end Pool
end SlotCluster
