import SlotCluster.Proofs.Pool.Chores
import SlotCluster.Proofs.Pool.Inversion
import SlotCluster.Proofs.Pool.LinkInvariant

/-!
# Steps and runs of a pool

Every step is a chain of moves, the failure of an owner, or a part of a cleanup.
What moves, failures and cleanups keep therefore holds after every run; the
invariants on calls, cells and links are the first of this kind.
-/

namespace SlotCluster
namespace Pool

/-! ## Kinds of steps -/

inductive Kind (p : Pool) : Event -> Pool -> Prop where
  | moves {event : Event} {q : Pool} (chain : Moves p q) : Kind p event q
  | notLinked {i : Nat} {t : Ticket} {error : ClusterError}
      (phase : p.phase? i = some (.connecting t)) :
      Kind p (.notLinked i error) (p.fail i t error)
  | rejected {i l : Nat} {t : Ticket} {error : ClusterError}
      (phase : p.phase? i = some (.rejecting t l error)) :
      Kind p (.closed i) (p.fail i t error)
  | sweep (table : Table) : Kind p (.sweep table) (p.sweep table)
  | drain : Kind p .drain p.drain
  | cleaned {n : Nat} {c : Cleanup} (found : p.cleanups[n]? = some c) :
      Kind p (.cleaned n) (p.continueCleanup n c)

theorem kind_of_step {keyAt : Nat -> Target} {p q : Pool} {event : Event}
    (hs : Seated keyAt p) (h : p.step event = some q) : Kind p event q := by
  have hcell : forall {i : Nat} {t : Ticket} {phase : Phase},
      p.phase? i = some phase -> phase.opening? = some t ->
      exists cell, p.cells[t.cell]? = some cell := by
    intro i t phase hphase hopening
    rcases hs.opening_owner ((view_of_phase? _ hphase).trans hopening) with
      ⟨cell, hcell, _⟩
    exact ⟨cell, hcell⟩
  cases taken_of_step h with
  | request target => exact Kind.moves (moves_request target hs.manned)
  | resume phase resumed => exact Kind.moves (moves_resume phase resumed)
  | linked phase =>
      rcases hcell phase rfl with ⟨cell, hc⟩
      exact Kind.moves (moves_linked phase hc)
  | notLinked phase => exact Kind.notLinked phase
  | accepted phase =>
      rcases hcell phase rfl with ⟨cell, hc⟩
      exact Kind.moves (moves_accepted phase hc)
  | refused phase => exact Kind.moves (moves_refused _ phase)
  | rejected phase => exact Kind.rejected phase
  | discarded phase =>
      exact Kind.moves (Relation.ReflTransGen.single (Move.finish phase))
  | apply table =>
      exact Kind.moves (Relation.ReflTransGen.single (Move.inform table _))
  | sweep table => exact Kind.sweep table
  | drain => exact Kind.drain
  | cleaned found => exact Kind.cleaned found
  | broke l =>
      exact Kind.moves
        (Relation.ReflTransGen.single
          (relink_modify p l (f := fun link => { link with isOpen := false })
            (fun _ h => by cases h)))
  | closeHandle n => exact Kind.moves (moves_closeHandle p n)
  | reordered perm leads =>
      exact Kind.moves (Relation.ReflTransGen.single (Move.reorder perm leads))

/-! ## Runs -/

/-- The invariants that no step breaks. -/
def Sound (p : Pool) : Prop :=
  exists keyAt, Seated keyAt p ∧ Wired keyAt p

namespace Sound

variable {p q : Pool}

theorem start (table : Shared) (fallback : Endpoint) :
    Sound { table, fallback } :=
  ⟨fun _ => .node "", Seated.start _ table fallback,
    Wired.start _ table fallback⟩

theorem move (hp : Sound p) (h : Move p q) : Sound q := by
  rcases hp with ⟨keyAt, hs, hw⟩
  rcases hs.move h with ⟨keyAt', hs', hkeys⟩
  exact ⟨keyAt', hs', Wired.move hs hw h hkeys⟩

theorem fail (hp : Sound p) {i : Nat} {t : Ticket} (error : ClusterError)
    (hopening : p.view Phase.opening? i = some t) :
    Sound (p.fail i t error) := by
  rcases hp with ⟨keyAt, hs, hw⟩
  exact ⟨keyAt, hs.fail error hopening, Wired.fail hs hw error hopening⟩

theorem clean (hp : Sound p)
    (hframe : q =
      { p with
        entries := q.entries
        links := q.links
        cleanups := q.cleanups
        isClosed := q.isClosed })
    (hentries : q.entries.Sublist p.entries)
    (hlength : q.links.length = p.links.length) : Sound q := by
  rcases hp with ⟨keyAt, hs, hw⟩
  refine ⟨keyAt, ?_, ?_⟩
  · apply hs.shrink hentries
    · rw [hframe]
    · rw [hframe]
  · apply hw.keep (fun _ _ => rfl)
    · intro c
      rw [hframe]
      rfl
    · intro h
      rw [hframe]
      rfl
    · exact Nat.le_of_eq hlength.symm
    · intro i l hi
      rw [hframe] at hi
      exact hi

theorem tidied (hp : Sound p) {chores rest : List Chore}
    (h : Tidied chores p q rest) (cleanups : List Cleanup) :
    Sound { q with cleanups } := by
  apply hp.clean
  · rw [h.frame]
  · exact h.entries
  · exact h.length

theorem kind (hp : Sound p) {event : Event} (h : Kind p event q) : Sound q := by
  cases h with
  | moves chain =>
      induction chain with
      | refl => exact hp
      | tail _ h ih => exact ih.move h
  | notLinked phase => exact hp.fail _ (view_of_phase? _ phase)
  | rejected phase => exact hp.fail _ (view_of_phase? _ phase)
  | sweep table =>
      have hswept :
          Sound { p with
            entries := p.entries.filter (fun e => !e.1.isStale table) } :=
        hp.clean rfl List.filter_sublist rfl
      exact hswept.tidied (tidied_runChores _ _).1 _
  | drain =>
      have hclosed : Sound { p with isClosed := true } :=
        hp.clean rfl (List.Sublist.refl _) rfl
      exact hclosed.tidied (tidied_runChores _ _).1 _
  | @cleaned n c found => exact hp.tidied (tidied_runChores p c.chores).1 _

theorem kind_of (hp : Sound p) {event : Event} (h : p.step event = some q) :
    Kind p event q := by
  rcases hp with ⟨keyAt, hs, _⟩
  exact kind_of_step hs h

theorem step (hp : Sound p) {event : Event}
    (h : p.step event = some q) : Sound q :=
  hp.kind (hp.kind_of h)

end Sound

theorem Sound.induction {I : Pool -> Prop} {p q : Pool} {events : List Event}
    (hp : Sound p) (hi : I p) (h : p.run events = some q)
    (hstep : forall {p q : Pool} {event : Event}, Sound p -> I p ->
        p.step event = some q -> I q) : I q := by
  have hboth : Sound q ∧ I q :=
    run_keeps h ⟨hp, hi⟩
      (fun hr hlast => ⟨hr.1.step hlast, hstep hr.1 hr.2 hlast⟩)
  exact hboth.2

theorem run_induction {I : Pool -> Prop} {p q : Pool} {events : List Event}
    (hstep : forall {p q : Pool} {event : Event}, Sound p -> I p ->
      Kind p event q -> I q)
    (hp : Sound p) (hi : I p) (h : p.run events = some q) : Sound q ∧ I q := by
  refine run_keeps h ⟨hp, hi⟩ (fun hr hlast => ?_)
  exact ⟨hr.1.step hlast, hstep hr.1 hr.2 (hr.1.kind_of hlast)⟩

theorem Sound.run {p q : Pool} {events : List Event} (hp : Sound p)
    (h : p.run events = some q) : Sound q :=
  run_keeps h hp (fun hr hlast => hr.step hlast)

/-! ## Any order -/

/-- No two entries have the same key, so the entries can be found in any order
at all. -/
theorem Sound.step_reordered {p : Pool} {entries : List (Target × Nat)}
    (hp : Sound p) (h : entries.Perm p.entries) :
    p.step (.reordered entries) = some { p with entries } := by
  rcases hp with ⟨keyAt, hs, _⟩
  have hnodup : (entries.map Prod.fst).Nodup :=
    (h.map Prod.fst).nodup_iff.mpr hs.keys_nodup
  have hleads : forall e, e ∈ entries ->
      entry? { p with entries } e.1 = p.entry? e.1 := by
    intro e he
    rw [(entry?_eq_some hs.keys_nodup).mpr (h.subset he)]
    exact (entry?_eq_some (p := { p with entries }) hnodup).mpr he
  change p.reorder entries = _
  unfold reorder
  rw [if_pos]
  rw [Bool.and_eq_true, List.isPerm_iff, List.all_eq_true]
  exact ⟨h, fun e he => decide_eq_true (hleads e he)⟩

end Pool
end SlotCluster
