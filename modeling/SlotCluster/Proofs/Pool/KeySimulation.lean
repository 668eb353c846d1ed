import SlotCluster.Proofs.Pool.Closings
import SlotCluster.Proofs.Pool.Progress
import SlotCluster.Proofs.Pool.KeyAgreement

/-!
# What a pool does for one key

A pool that agrees with another one about a key goes on doing so.  When
something happens to a thing on the strand, the same has to happen in the other
pool: it is possible there if and only if it is possible here, and the two pools
agree afterwards.  When something happens to anything else, the other pool need
not do anything.

So one pool that serves many keys does for each of them what a pool does that
serves this key alone.
-/

namespace SlotCluster
namespace Pool

open Track (Pairs Has Matched)

/-! ## Sizes -/

structure SameSize (p p' : Pool) : Prop where
  calls : p'.calls.length = p.calls.length
  cells : p'.cells.length = p.cells.length
  handles : p'.handles.length = p.handles.length
  links : p'.links.length = p.links.length

namespace SameSize

variable {p p' p'' : Pool}

theorem refl (p : Pool) : SameSize p p :=
  ⟨rfl, rfl, rfl, rfl⟩

theorem trans (h : SameSize p p') (h' : SameSize p' p'') : SameSize p p'' where
  calls := h'.calls.trans h.calls
  cells := h'.cells.trans h.cells
  handles := h'.handles.trans h.handles
  links := h'.links.trans h.links

theorem setPhase (p : Pool) (i : Nat) (phase : Phase) :
    SameSize p (p.setPhase i phase) :=
  ⟨List.length_modify .., rfl, rfl, rfl⟩

theorem modifyCell (p : Pool) (c : Nat) (f : Cell -> Cell) :
    SameSize p (p.modifyCell c f) :=
  ⟨rfl, List.length_modify .., rfl, rfl⟩

theorem removeEntry (p : Pool) (key : Target) :
    SameSize p (p.removeEntry key) :=
  ⟨rfl, rfl, rfl, rfl⟩

theorem relink (p : Pool) (l : Nat) (f : Link -> Link) :
    SameSize p { p with links := p.links.modify l f } :=
  ⟨rfl, rfl, rfl, List.length_modify ..⟩

theorem closeHandle (p : Pool) (n : Nat) : SameSize p (p.closeHandle n) := by
  rcases closeHandle_eq p n with ⟨links, heq, hlength⟩
  rw [heq]
  exact ⟨rfl, rfl, rfl, hlength⟩

theorem changes (h : Changes p p') : SameSize p p' := by
  induction h with
  | refl => exact refl p
  | tail _ last ih =>
      refine ih.trans ?_
      cases last with
      | setPhase i phase => exact setPhase _ i phase
      | removeEntry key => exact removeEntry _ key
      | modifyCell c _ => exact modifyCell _ c _
      | closeHandle n => exact closeHandle _ n

theorem longer (h : SameSize p p') : Strand.Longer p p' where
  calls := Nat.le_of_eq h.calls.symm
  cells := Nat.le_of_eq h.cells.symm
  handles := Nat.le_of_eq h.handles.symm
  links := Nat.le_of_eq h.links.symm

theorem grow_eq (h : SameSize p p') (S : Strand) : S.grow p p' = S := by
  unfold Strand.grow
  rw [h.calls, h.cells, h.handles, h.links]
  simp only [Track.extend_self]

end SameSize

theorem claimCell_eq (p : Pool) (key : Target) :
    exists entries cells, (p.claimCell key).1 = { p with entries, cells } := by
  unfold claimCell
  split
  · exact ⟨_, _, rfl⟩
  · split
    · split
      · exact ⟨p.entries, p.cells, rfl⟩
      · exact ⟨_, _, rfl⟩
    · exact ⟨p.entries, p.cells, rfl⟩

@[simp]
theorem calls_claimCell (p : Pool) (key : Target) :
    (p.claimCell key).1.calls = p.calls := by
  rcases p.claimCell_eq key with ⟨entries, cells, heq⟩
  rw [heq]

/-! ## Steps of both pools -/

variable {key other : Target} {S : Strand} {keyAt : Nat -> Target}
  {p p' p'' q q' q'' : Pool} {i j n k l m : Nat} {t u : Ticket}

structure Together (key : Target) (S : Strand) (p p' q' : Pool) : Prop where
  longer : Strand.Longer p p'
  twin : Twin key (S.grow p p') p' q'

namespace Together

theorem trans (h : Together key S p p' q')
    (h' : Together key (S.grow p p') p' p'' q'') :
    Together key S p p'' q'' where
  longer := h.longer.trans h'.longer
  twin := by
    rw [← S.grow_grow h.longer h'.longer]
    exact h'.twin

theorem of_same (h : Twin key S p' q') (hsize : SameSize p p') :
    Together key S p p' q' where
  longer := hsize.longer
  twin := by
    rw [hsize.grow_eq]
    exact h

theorem after_same (hsize : SameSize p p') (h : Together key S p' p'' q'') :
    Together key S p p'' q'' where
  longer := hsize.longer.trans h.longer
  twin := by
    rw [← S.grow_grow hsize.longer h.longer, hsize.grow_eq]
    exact h.twin

theorem rel_of_same {x y : Option Pool} (h : Option.Rel (Twin key S) x y)
    (hsize : forall {p' : Pool}, x = some p' -> SameSize p p') :
    Option.Rel (fun p' q' => Together key S p p' q') x y := by
  cases h with
  | none => exact .none
  | some htwin => exact .some (of_same htwin (hsize rfl))

theorem addCall (h : Twin key S p q) (target target' : Target) {x y : Phase}
    (hxy : PhaseTwin key S x y) :
    Together key S p (p.addCall target x) (q.addCall target' y) ∧
      Pairs (S.grow p (p.addCall target x)).calls p.calls.length
        q.calls.length := by
  have hgrow : S.grow p (p.addCall target x) =
      { S with calls := S.calls.push p.calls.length } := by
    simp [Strand.grow, Pool.addCall, Track.extend_succ]
  refine ⟨⟨⟨?_, Nat.le_refl _, Nat.le_refl _, Nat.le_refl _⟩, ?_⟩, ?_⟩
  · simp [Pool.addCall]
  · rw [hgrow]
    exact h.addCall target target' hxy
  · rw [hgrow, ← h.calls.length]
    exact Track.pairs_last _ _

theorem addCell (h : Twin key S p q) (hs : Seated keyAt p) :
    Together key S p (p.addCell key) (q.addCell key) ∧
      Pairs (S.grow p (p.addCell key)).cells p.cells.length q.cells.length := by
  have hgrow : S.grow p (p.addCell key) =
      { S with cells := S.cells.push p.cells.length } := by
    simp [Strand.grow, Pool.addCell, Track.extend_succ]
  refine ⟨⟨⟨Nat.le_refl _, ?_, Nat.le_refl _, Nat.le_refl _⟩, ?_⟩, ?_⟩
  · simp [Pool.addCell]
  · rw [hgrow]
    exact h.addCell hs
  · rw [hgrow, ← h.cells.length]
    exact Track.pairs_last _ _

theorem addLink (h : Twin key S p q) (hw : Wired keyAt p) {x y : Link}
    (hxy : y.isOpen = x.isOpen) :
    Together key S p (p.addLink x) (q.addLink y) ∧
      Pairs (S.grow p (p.addLink x)).links p.links.length q.links.length := by
  have hgrow : S.grow p (p.addLink x) =
      { S with links := S.links.push p.links.length } := by
    simp [Strand.grow, Pool.addLink, Track.extend_succ]
  refine ⟨⟨⟨Nat.le_refl _, Nat.le_refl _, Nat.le_refl _, ?_⟩, ?_⟩, ?_⟩
  · simp [Pool.addLink]
  · rw [hgrow]
    exact h.addLink hw hxy
  · rw [hgrow, ← h.links.length]
    exact Track.pairs_last _ _

theorem addHandle (h : Twin key S p q)
    (hbound : forall {c n : Nat}, p.cellHandle? c = some n ->
      n < p.handles.length)
    {x y : Handle} (hxy : x.target = key ∧ Pairs S.links x.link y.link) :
    Together key S p (p.addHandle x) (q.addHandle y) ∧
      Pairs (S.grow p (p.addHandle x)).handles p.handles.length
        q.handles.length := by
  have hgrow : S.grow p (p.addHandle x) =
      { S with handles := S.handles.push p.handles.length } := by
    simp [Strand.grow, Pool.addHandle, Track.extend_succ]
  refine ⟨⟨⟨Nat.le_refl _, Nat.le_refl _, ?_, Nat.le_refl _⟩, ?_⟩, ?_⟩
  · simp [Pool.addHandle]
  · rw [hgrow]
    exact h.addHandle hbound hxy
  · rw [hgrow, ← h.handles.length]
    exact Track.pairs_last _ _

end Together

namespace Twin

theorem closeHandle (h : Twin key S p q) (hn : Pairs S.handles n k) :
    Twin key S (p.closeHandle n) (q.closeHandle k) := by
  rcases h.handles.on hn with ⟨x, y, hx, hy, _, hxy⟩
  unfold Pool.closeHandle
  rw [hx, hy]
  exact h.relink hxy (fun _ => rfl)

theorem discard (h : Twin key S p q) (hi : Pairs S.calls i j)
    (hn : Pairs S.handles n k) (error : ClusterError) :
    Twin key S (p.discard i n error) (q.discard j k error) :=
  (h.closeHandle hn).setPhase hi (.discarding error hn)

theorem conclude (h : Twin key S p q) (hi : Pairs S.calls i j)
    (ht : TicketTwin key S t u) (hn : Pairs S.handles n k) :
    Twin key S (p.conclude i t n) (q.conclude j u k) := by
  cases ht with
  | @intro endpoint c d hc =>
      have hgone : (decide (q.entry? key ≠ some d) || q.isClosed) =
          (decide (p.entry? key ≠ some c) || p.isClosed) := by
        rw [h.closed, decide_eq_decide.mpr (not_congr (h.entry_iff hc)).symm]
      unfold Pool.conclude
      dsimp only
      rw [hgone, h.table]
      split
      · exact h.discard hi hn _
      · cases key with
        | address host port => exact h.setPhase hi (.served hn)
        | node id =>
            dsimp only
            split
            · exact h.removeEntry.discard hi hn _
            · exact h.setPhase hi (.served hn)

theorem enter (h : Twin key S p q) (hi : Pairs S.calls i j)
    (ht : TicketTwin key S t u) : Twin key S (p.enter i t) (q.enter j u) := by
  have hticket := ht
  cases ht with
  | @intro endpoint c d hc =>
      rcases h.cell hc with
        ⟨⟨handle, owner, queue⟩, ⟨handle', owner', queue'⟩, hx, hy,
          ⟨hhandle, howner, hqueue⟩⟩
      unfold Pool.enter
      simp only [hx, hy]
      cases hhandle with
      | some hn => exact h.conclude hi hticket hn
      | none =>
          cases howner with
          | none =>
              apply (h.modifyCell hc _).setPhase hi (.connecting hticket)
              exact fun hxy => ⟨hxy.handle, .some hi, hxy.queue⟩
          | some _ =>
              apply h.modifyCell hc
              intro x y hxy
              exact ⟨hxy.handle, hxy.owner,
                List.rel_append hxy.queue (.cons hi .nil)⟩

theorem resume (h : Twin key S p q) (hi : Pairs S.calls i j)
    (ht : TicketTwin key S t u) :
    Option.Rel (Twin key S) (p.resume i t) (q.resume j u) := by
  have hticket := ht
  cases ht with
  | @intro endpoint c d hc =>
      rcases h.cell hc with
        ⟨⟨handle, owner, queue⟩, ⟨handle', owner', queue'⟩, hx, hy,
          ⟨hhandle, howner, _⟩⟩
      unfold Pool.resume
      simp only [hx, hy]
      cases hhandle with
      | some hn => exact .some (h.conclude hi hticket hn)
      | none =>
          cases howner with
          | none => exact .none
          | some hk =>
              simp only [Option.some.injEq, h.calls.eq_iff hk hi]
              split
              · exact .some (h.setPhase hi (.connecting hticket))
              · exact .none

theorem forsake (h : Twin key S p q) (ht : TicketTwin key S t u) :
    Twin key S (p.forsake t) (q.forsake u) := by
  cases ht with
  | @intro endpoint c d hc =>
      unfold Pool.forsake
      dsimp only
      rw [← if_congr (h.entry_iff hc) rfl rfl]
      split
      · exact h.removeEntry
      · exact h

theorem fail (h : Twin key S p q) (hi : Pairs S.calls i j)
    (ht : TicketTwin key S t u) (hempty : p.cellHandle? t.cell = none)
    (error : ClusterError) :
    Twin key S (p.fail i t error) (q.fail j u error) := by
  have hempty' : q.cellHandle? u.cell = none := by
    cases ht with
    | @intro endpoint c d hc =>
        rcases h.cell hc with ⟨x, y, hx, hy, hxy⟩
        unfold cellHandle? at hempty ⊢
        rw [hx, Option.bind_some] at hempty
        rw [hy, Option.bind_some]
        have hhandle := hxy.handle
        rw [hempty] at hhandle
        generalize y.handle = handle at hhandle
        cases hhandle
        rfl
  rw [fail_eq i error hempty, fail_eq j error hempty']
  apply Twin.setPhase _ hi (.failed error)
  have hforsaken := h.forsake ht
  cases ht with
  | intro endpoint hc =>
      apply hforsaken.modifyCell hc
      intro x y hxy
      have hqueue := hxy.queue
      unfold Cell.passOn
      generalize x.queue = xs at hqueue ⊢
      generalize y.queue = ys at hqueue ⊢
      cases hqueue with
      | nil => exact ⟨hxy.handle, .none, .nil⟩
      | cons hfirst hrest => exact ⟨hxy.handle, .some hfirst, hrest⟩

theorem establish (h : Twin key S p q) (hi : Pairs S.calls i j)
    (ht : TicketTwin key S t u) (hl : Pairs S.links l m)
    (hbound : forall {c n : Nat}, p.cellHandle? c = some n ->
      n < p.handles.length) :
    Together key S p (p.establish i t l) (q.establish j u m) := by
  have hkey : t.key = key := by
    cases ht
    rfl
  rcases Together.addHandle h hbound (x := ⟨t.key, t.endpoint, l, p.table⟩)
    (y := ⟨u.key, u.endpoint, m, q.table⟩) ⟨hkey, hl⟩ with ⟨hadded, hn⟩
  have hsub := S.within_grow p (p.addHandle ⟨t.key, t.endpoint, l, p.table⟩)
  apply hadded.trans
  refine Together.of_same ?_
    ((SameSize.modifyCell _ t.cell _).trans
      (SameSize.changes (changes_conclude _ i t p.handles.length)))
  have ht' := ht.mono hsub
  refine Twin.conclude
    (Twin.modifyCell hadded.twin ?_ (fun _ => ⟨.some hn, .none, .nil⟩))
    (hsub.calls hi) ht' hn
  cases ht' with
  | intro _ hc => exact hc

theorem linked (h : Twin key S p q) (hw : Wired keyAt p)
    (hi : Pairs S.calls i j) (ht : TicketTwin key S t u) :
    Together key S p (p.linked i t) (q.linked j u) := by
  rcases Together.addLink h hw (x := { endpoint := t.endpoint })
    (y := { endpoint := u.endpoint }) rfl with ⟨hadded, hl⟩
  have hsub := S.within_grow p (p.addLink { endpoint := t.endpoint })
  have hsame : u.endpoint = t.endpoint := by
    cases ht
    rfl
  apply hadded.trans
  unfold Pool.linked
  dsimp only
  rw [hsame]
  cases hcredential : t.endpoint.credential with
  | some password =>
      refine Together.of_same ?_ (SameSize.setPhase _ i _)
      rw [hsame] at hadded
      exact hadded.twin.setPhase (hsub.calls hi)
        (.authenticating (ht.mono hsub) hl)
  | none =>
      rw [hsame] at hadded
      exact hadded.twin.establish (hsub.calls hi) (ht.mono hsub) hl hw.handle_lt

theorem accepted (h : Twin key S p q) (hw : Wired keyAt p)
    (hi : Pairs S.calls i j) (ht : TicketTwin key S t u)
    (hl : Pairs S.links l m) :
    Together key S p (p.accepted i t l) (q.accepted j u m) := by
  have hmarked : Together key S p
      { p with
        links :=
          p.links.modify l (fun link => { link with isAuthenticated := true }) }
      { q with
        links :=
          q.links.modify m
            (fun link => { link with isAuthenticated := true }) } :=
    Together.of_same (h.relink hl (fun hsame => hsame)) (SameSize.relink p l _)
  apply hmarked.trans
  rw [(SameSize.relink p l _).grow_eq]
  exact Twin.establish (h.relink hl (fun hsame => hsame)) hi ht hl hw.handle_lt

theorem refused (h : Twin key S p q) (hi : Pairs S.calls i j)
    (ht : TicketTwin key S t u) (hl : Pairs S.links l m)
    (error : ClusterError) :
    Twin key S (p.refused i t l error) (q.refused j u m error) := by
  have hclosed : Twin key S (p.closeLink l) (q.closeLink m) :=
    h.relink hl (fun _ => rfl)
  have hticket := ht
  cases ht with
  | intro endpoint hc => exact hclosed.setPhase hi (.rejecting _ hticket)

theorem claimCell (h : Twin key S p q) (hs : Seated keyAt p) :
    Together key S p (p.claimCell key).1 (q.claimCell key).1 ∧
      Pairs (S.grow p (p.claimCell key).1).cells (p.claimCell key).2
        (q.claimCell key).2 := by
  have hentry := h.entry
  unfold Pool.claimCell
  generalize hx : p.entry? key = x at hentry ⊢
  generalize hy : q.entry? key = y at hentry ⊢
  cases hentry with
  | none => exact Together.addCell h hs
  | @some c d hc =>
      rcases h.cell hc with
        ⟨⟨handle, _, _⟩, ⟨handle', _, _⟩, hx, hy, ⟨hhandle, _, _⟩⟩
      dsimp only
      unfold cellHandle?
      rw [hx, hy]
      dsimp only [Option.bind_some]
      cases hhandle with
      | none =>
          refine ⟨Together.of_same h (SameSize.refl p), ?_⟩
          rw [(SameSize.refl p).grow_eq]
          exact hc
      | some hn =>
          dsimp only
          rw [h.isOpen_eq hn]
          split
          · refine ⟨Together.of_same h (SameSize.refl p), ?_⟩
            rw [(SameSize.refl p).grow_eq]
            exact hc
          · rcases Together.addCell h.removeEntry (hs.removeEntry key) with
              ⟨hadded, hc⟩
            exact ⟨hadded.after_same (SameSize.removeEntry p key), hc⟩

theorem request (h : Twin key S p q) (hs : Seated keyAt p) {target : Target}
    (hkey : forall {k : Target} {endpoint : Endpoint},
      target.resolve p.table.table p.fallback = .ok (k, endpoint) -> k = key) :
    Together key S p (p.request target) (q.request target) ∧
      Pairs (S.grow p (p.request target)).calls p.calls.length
        q.calls.length := by
  unfold Pool.request
  rw [h.closed, h.table, h.fallback]
  split
  · exact Together.addCall h target target (.failed .shutdown)
  · cases hresolve : target.resolve p.table.table p.fallback with
    | error e => exact Together.addCall h target target (.failed e)
    | ok found =>
        rcases found with ⟨k, endpoint⟩
        have hsame := hkey hresolve
        subst hsame
        rcases h.claimCell hs with ⟨hclaimed, hc⟩
        have hqueued :
            TicketTwin k (S.grow p (p.claimCell k).1)
              ⟨k, endpoint, (p.claimCell k).2⟩
              ⟨k, endpoint, (q.claimCell k).2⟩ :=
          .intro endpoint hc
        rcases Together.addCall hclaimed.twin target target
          (.queued hqueued) with ⟨hadded, hi⟩
        have hsub :=
          (S.grow p (p.claimCell k).1).within_grow (p.claimCell k).1
            ((p.claimCell k).1.addCall target
              (.queued ⟨k, endpoint, (p.claimCell k).2⟩))
        have hentered :=
          Together.of_same (hadded.twin.enter hi (hqueued.mono hsub))
            (SameSize.changes (changes_enter _ _ _))
        refine ⟨hclaimed.trans (hadded.trans hentered), ?_⟩
        rw [calls_claimCell, calls_claimCell] at hi
        rw [← S.grow_grow hclaimed.longer (hadded.longer.trans hentered.longer),
          ← Strand.grow_grow _ hadded.longer hentered.longer,
          (SameSize.changes (changes_enter _ _ _)).grow_eq]
        exact hi

theorem apply (h : Twin key S p q) (table : Shared) :
    Twin key S (p.apply table) (q.apply table) :=
  have hwire (cells : List Nat) (r : Pool) (n : Nat) (x : Handle) :
      (if cells.any (fun cell => r.cellHandle? cell = some n) then { x with
      table } else x).target = x.target ∧
        (if cells.any (fun cell => r.cellHandle? cell = some n) then { x with
            table } else x).link = x.link := by
    split <;> exact ⟨rfl, rfl⟩
  { h with
    table := rfl
    handles := by
      apply h.handles.mapIdx
      · intro n k x y hxy
        rw [(hwire _ _ n x).1, (hwire _ _ n x).2, (hwire _ _ k y).2]
        exact hxy
      · intro n x hfree
        rw [(hwire _ _ n x).2]
        exact hfree }

/-! ## Steps of the first pool only -/

theorem closeHandle_off (h : Twin key S p q) (hn : ¬ Has S.handles n) :
    Twin key S (p.closeHandle n) q := by
  unfold Pool.closeHandle
  cases hx : p.handles[n]? with
  | none => exact h
  | some x => exact h.relink_off (h.handles.off hx hn) _

theorem foreign_finished (result : Except ClusterError Nat) :
    Phase.Foreign key S (.finished result) where
  ticket ht := by cases ht
  handshake hl := by cases hl

theorem foreign_of_ticket {phase : Phase} (ht : phase.ticket? = some t)
    (hkey : t.key ≠ key) (hcell : ¬ Has S.cells t.cell)
    (hlink : phase.handshake? = none) : phase.Foreign key S where
  ticket hu := by
    rw [ht] at hu
    cases hu
    exact ⟨hkey, hcell⟩
  handshake hl := by
    rw [hlink] at hl
    cases hl

theorem discard_off (h : Twin key S p q) (hi : ¬ Has S.calls i)
    (hn : ¬ Has S.handles n) (error : ClusterError) :
    Twin key S (p.discard i n error) q := by
  apply (h.closeHandle_off hn).setPhase_off hi
  constructor
  · intro t ht
    cases ht
  · intro l hl
    cases hl

theorem conclude_off (h : Twin key S p q) (hi : ¬ Has S.calls i)
    (hkey : t.key ≠ key) (hn : ¬ Has S.handles n) :
    Twin key S (p.conclude i t n) q := by
  unfold Pool.conclude
  split
  · exact h.discard_off hi hn _
  · split
    · rename_i id hid
      split
      · exact (h.removeEntry_off hkey).discard_off hi hn _
      · exact h.setPhase_off hi (foreign_finished _)
    · exact h.setPhase_off hi (foreign_finished _)

theorem enter_off (h : Twin key S p q) (hi : ¬ Has S.calls i)
    (hkey : t.key ≠ key) (hcell : ¬ Has S.cells t.cell) :
    Twin key S (p.enter i t) q := by
  unfold Pool.enter
  split
  · rename_i n _ _ hx
    exact h.conclude_off hi hkey (h.cells.off hx hcell n rfl)
  · have hconnecting : Phase.Foreign key S (.connecting t) :=
      foreign_of_ticket rfl hkey hcell rfl
    have howned :
        Twin key S (p.modifyCell t.cell (fun c => { c with owner := some i }))
          q :=
      h.modifyCell_off hcell Or.inl
    exact howned.setPhase_off hi hconnecting
  · exact h.modifyCell_off hcell Or.inl

theorem resume_off (h : Twin key S p q) (hi : ¬ Has S.calls i)
    (hkey : t.key ≠ key) (hcell : ¬ Has S.cells t.cell)
    (hstep : p.resume i t = some p') : Twin key S p' q := by
  unfold Pool.resume at hstep
  split at hstep
  · rename_i n _ _ hx
    rw [← Option.some.inj hstep]
    exact h.conclude_off hi hkey (h.cells.off hx hcell n rfl)
  · split at hstep
    · rw [← Option.some.inj hstep]
      exact h.setPhase_off hi (foreign_of_ticket rfl hkey hcell rfl)
    · cases hstep
  · cases hstep

theorem fail_off (h : Twin key S p q) (hi : ¬ Has S.calls i)
    (hkey : t.key ≠ key) (hcell : ¬ Has S.cells t.cell) (error : ClusterError) :
    Twin key S (p.fail i t error) q := by
  have hpassed : Twin key S (p.modifyCell t.cell Cell.passOn) q :=
    h.modifyCell_off hcell Or.inl
  unfold Pool.fail
  dsimp only
  split
  · exact (hpassed.removeEntry_off hkey).setPhase_off hi (foreign_finished _)
  · exact hpassed.setPhase_off hi (foreign_finished _)

theorem establish_off (h : Twin key S p q) (hi : ¬ Has S.calls i)
    (hkey : t.key ≠ key) (hcell : ¬ Has S.cells t.cell) (hl : ¬ Has S.links l) :
    Twin key S (p.establish i t l) q := by
  have hadded : Twin key S (p.addHandle ⟨t.key, t.endpoint, l, p.table⟩) q :=
    h.addHandle_off hl
  have hfilled :=
    hadded.modifyCell_off hcell
      (f := fun _ => { handle := some p.handles.length })
      (fun hn => Or.inr (Option.some.inj hn ▸ h.handles.not_has))
  exact hfilled.conclude_off hi hkey h.handles.not_has

theorem linked_off (h : Twin key S p q) (hi : ¬ Has S.calls i)
    (hkey : t.key ≠ key) (hcell : ¬ Has S.cells t.cell) :
    Twin key S (p.linked i t) q := by
  have hadded : Twin key S (p.addLink { endpoint := t.endpoint }) q :=
    h.addLink_off _
  unfold Pool.linked
  dsimp only
  split
  · apply hadded.setPhase_off hi
    constructor
    · intro u hu
      cases hu
      exact ⟨hkey, hcell⟩
    · intro l hl
      cases hl
      exact h.links.not_has
  · exact hadded.establish_off hi hkey hcell h.links.not_has

theorem claimCell_off (h : Twin key S p q) (hother : other ≠ key) :
    Twin key S (p.claimCell other).1 q ∧
      ¬ Has S.cells (p.claimCell other).2 := by
  unfold Pool.claimCell
  cases hentry : p.entry? other with
  | none => exact ⟨h.addCell_off hother, h.cells.not_has⟩
  | some c =>
      dsimp only
      split
      · split
        · exact ⟨h, h.others hentry hother⟩
        · exact ⟨(h.removeEntry_off hother).addCell_off hother, h.cells.not_has⟩
      · exact ⟨h, h.others hentry hother⟩

theorem request_off (h : Twin key S p q) {target : Target}
    (hkey : forall {endpoint : Endpoint},
      target.resolve p.table.table p.fallback ≠ .ok (key, endpoint)) :
    Twin key S (p.request target) q := by
  unfold Pool.request
  split
  · exact h.addCall_off target (foreign_finished _)
  · split
    · exact h.addCall_off target (foreign_finished _)
    · rename_i k endpoint hresolve
      have hother : k ≠ key := fun hsame => hkey (hsame ▸ hresolve)
      rcases h.claimCell_off hother with ⟨hclaimed, hcell⟩
      have hqueued :
          Phase.Foreign key S (.queued ⟨k, endpoint, (p.claimCell k).2⟩) :=
        foreign_of_ticket rfl hother hcell rfl
      have hadded := hclaimed.addCall_off target hqueued
      exact hadded.enter_off hclaimed.calls.not_has hother hcell

end Twin

/-! ## Events -/

/-- What an event of the first pool is in the second one, when it is about
something on the strand.  A new table is everybody's business. -/
def Strand.echo? (S : Strand) : Event -> Option Event
  | .resume i => (S.calls.number? i).map .resume
  | .linked i => (S.calls.number? i).map .linked
  | .notLinked i error => (S.calls.number? i).map (fun j => .notLinked j error)
  | .accepted i => (S.calls.number? i).map .accepted
  | .refused i error => (S.calls.number? i).map (fun j => .refused j error)
  | .closed i => (S.calls.number? i).map .closed
  | .apply table => some (.apply table)
  | .broke l => (S.links.number? l).map .broke
  | .closeHandle n => (S.handles.number? n).map .closeHandle
  | _ => none

namespace Twin

theorem isLinkOpen_eq (h : Twin key S p q) (hl : Pairs S.links l m) :
    q.isLinkOpen m = p.isLinkOpen l := by
  rcases h.links.on hl with ⟨x, y, hx, hy, hxy⟩
  unfold isLinkOpen
  rw [hx, hy]
  exact hxy

/-- What happens to a thing on the strand is possible in both pools or in none,
and they agree after it. -/
theorem step (h : Twin key S p q) (hp : Sound p) {e e' : Event}
    (he : S.echo? e = some e') :
    Option.Rel (Together key S p) (p.step e) (q.step e') := by
  rcases hp with ⟨keyAt, hs, hw⟩
  have hempty {i : Nat} {phase : Phase} {t : Ticket}
      (hphase : p.phase? i = some phase) (ht : phase.opening? = some t) :
      p.cellHandle? t.cell = none := by
    rcases hs.opening_cell ((view_of_phase? _ hphase).trans ht) with
      ⟨cell, hcell, _, hnone⟩
    simp [cellHandle?, hcell, hnone]
  cases e with
  | resume i =>
      rcases Option.map_eq_some_iff.mp he with ⟨j, hj, rfl⟩
      have hi := Track.pairs_of_number? hj
      rcases h.phase hi with ⟨x, y, hx, hy, hxy⟩
      simp only [Pool.step, hx, hy]
      cases hxy with
      | queued ht =>
          exact Together.rel_of_same (h.resume hi ht)
            (fun hresumed => SameSize.changes (changes_resume hresumed))
      | _ => exact .none
  | linked i =>
      rcases Option.map_eq_some_iff.mp he with ⟨j, hj, rfl⟩
      have hi := Track.pairs_of_number? hj
      rcases h.phase hi with ⟨x, y, hx, hy, hxy⟩
      simp only [Pool.step, hx, hy]
      cases hxy with
      | connecting ht => exact .some (h.linked hw hi ht)
      | _ => exact .none
  | notLinked i error =>
      rcases Option.map_eq_some_iff.mp he with ⟨j, hj, rfl⟩
      have hi := Track.pairs_of_number? hj
      rcases h.phase hi with ⟨x, y, hx, hy, hxy⟩
      simp only [Pool.step, hx, hy]
      cases hxy with
      | connecting ht =>
          exact .some
            (Together.of_same (h.fail hi ht (hempty hx rfl) error)
              (SameSize.changes (changes_fail p i _ error)))
      | _ => exact .none
  | accepted i =>
      rcases Option.map_eq_some_iff.mp he with ⟨j, hj, rfl⟩
      have hi := Track.pairs_of_number? hj
      rcases h.phase hi with ⟨x, y, hx, hy, hxy⟩
      simp only [Pool.step, hx, hy]
      cases hxy with
      | authenticating ht hl => exact .some (h.accepted hw hi ht hl)
      | _ => exact .none
  | refused i error =>
      rcases Option.map_eq_some_iff.mp he with ⟨j, hj, rfl⟩
      have hi := Track.pairs_of_number? hj
      rcases h.phase hi with ⟨x, y, hx, hy, hxy⟩
      simp only [Pool.step, hx, hy]
      cases hxy with
      | authenticating ht hl =>
          exact .some (Together.of_same (h.refused hi ht hl error)
            ((SameSize.relink p _ _).trans (SameSize.setPhase _ i _)))
      | _ => exact .none
  | closed i =>
      rcases Option.map_eq_some_iff.mp he with ⟨j, hj, rfl⟩
      have hi := Track.pairs_of_number? hj
      rcases h.phase hi with ⟨x, y, hx, hy, hxy⟩
      simp only [Pool.step, hx, hy]
      cases hxy with
      | rejecting error ht =>
          exact .some
            (Together.of_same (h.fail hi ht (hempty hx rfl) error)
              (SameSize.changes (changes_fail p i _ error)))
      | discarding error _ =>
          exact .some
            (Together.of_same (h.setPhase hi (.failed error))
              (SameSize.setPhase p i _))
      | _ => exact .none
  | apply table =>
      cases he
      refine .some (Together.of_same (h.apply table) ⟨rfl, rfl, ?_, rfl⟩)
      exact List.length_mapIdx
  | broke l =>
      rcases Option.map_eq_some_iff.mp he with ⟨m, hm, rfl⟩
      have hl := Track.pairs_of_number? hm
      simp only [Pool.step, h.isLinkOpen_eq hl]
      split
      · exact .some
          (Together.of_same (h.relink hl (fun _ => rfl))
            (SameSize.relink p l _))
      · exact .none
  | closeHandle n =>
      rcases Option.map_eq_some_iff.mp he with ⟨k, hk, rfl⟩
      exact .some
        (Together.of_same (h.closeHandle (Track.pairs_of_number? hk))
          (SameSize.closeHandle p n))
  | _ => cases he

/-- What happens to anything else is nothing to the second pool. -/
theorem step_off (h : Twin key S p q) {e : Event} (he : S.echo? e = none)
    (hstep : p.step e = some p') (hrequest : forall target, e ≠ .request target)
    (hsweeps : ¬ e.Sweeps) : Twin key S p' q := by
  cases taken_of_step hstep with
  | request target => exact absurd rfl (hrequest target)
  | resume phase resumed =>
      have hi := Track.not_has_of_map he
      have hticket := (h.foreign hi phase).ticket rfl
      exact h.resume_off hi hticket.1 hticket.2 resumed
  | linked phase =>
      have hi := Track.not_has_of_map he
      have hticket := (h.foreign hi phase).ticket rfl
      exact h.linked_off hi hticket.1 hticket.2
  | @notLinked i t error phase =>
      have hi : ¬ Has S.calls i := Track.not_has_of_map he
      have hticket := (h.foreign hi phase).ticket rfl
      exact h.fail_off hi hticket.1 hticket.2 _
  | accepted phase =>
      have hi := Track.not_has_of_map he
      have hforeign := h.foreign hi phase
      have hticket := hforeign.ticket rfl
      have hmarked :=
        h.relink_off (hforeign.handshake rfl)
          (fun link => { link with isAuthenticated := true })
      exact hmarked.establish_off hi hticket.1 hticket.2
        (hforeign.handshake rfl)
  | @refused i l t error phase =>
      have hi : ¬ Has S.calls i := Track.not_has_of_map he
      have hforeign := h.foreign hi phase
      have hticket := hforeign.ticket rfl
      have hrejecting :
          Phase.Foreign key S
            (.rejecting t l (.ofHandshake t.endpoint error)) :=
        foreign_of_ticket rfl hticket.1 hticket.2 rfl
      have hclosed : Twin key S (p.closeLink l) q :=
        h.relink_off (hforeign.handshake rfl) _
      exact hclosed.setPhase_off hi hrejecting
  | rejected phase =>
      have hi := Track.not_has_of_map he
      have hticket := (h.foreign hi phase).ticket rfl
      exact h.fail_off hi hticket.1 hticket.2 _
  | discarded phase =>
      exact h.setPhase_off (Track.not_has_of_map he) (foreign_finished _)
  | apply table => cases he
  | sweep table => exact absurd trivial hsweeps
  | drain => exact absurd trivial hsweeps
  | cleaned found => exact absurd trivial hsweeps
  | broke l => exact h.relink_off (Track.not_has_of_map he) _
  | reordered perm leads => exact h.reorder_off leads
  | closeHandle n => exact h.closeHandle_off (Track.not_has_of_map he)

end Twin

/-! ## Events elsewhere -/

/-- An event has to do with another key than the given one: with a call that is
after the connection of the other key or closes it, with such a connection, or
with its link. -/
inductive Elsewhere (key : Target) (p : Pool) : Event -> Prop where
  | sought {e : Event} {i : Nat} {t : Ticket} (answers : e.call? = some i)
      (ticket : p.view Phase.ticket? i = some t) (other : t.key ≠ key) :
      Elsewhere key p e
  | discarded {i h l : Nat} {error : ClusterError} {third : Target}
      (phase : p.phase? i = some (.discarding h error))
      (wire : p.wire? h = some (third, l)) (other : third ≠ key) :
      Elsewhere key p (.closed i)
  | held {h l : Nat} {third : Target} (wire : p.wire? h = some (third, l))
      (other : third ≠ key) : Elsewhere key p (.broke l)
  | greeting {i l : Nat} {t : Ticket} (ticket : p.view Phase.ticket? i = some t)
      (link : p.view Phase.handshake? i = some l) (other : t.key ≠ key) :
      Elsewhere key p (.broke l)
  | dropped {h l : Nat} {third : Target} (wire : p.wire? h = some (third, l))
      (other : third ≠ key) : Elsewhere key p (.closeHandle h)

namespace Twin

theorem not_has_of_ticket (h : Twin key S p q)
    (ht : p.view Phase.ticket? i = some t) (hother : t.key ≠ key) :
    ¬ Has S.calls i := by
  intro hhas
  rcases Track.has_iff.mp hhas with ⟨j, hj⟩
  rcases h.phase hj with ⟨x, y, hx, _, hxy⟩
  rw [view_of_phase? _ hx] at ht
  have hkey {u v : Ticket} (hticket : TicketTwin key S u v) (hu : u = t) :
      t.key = key := by
    cases hticket
    rw [← hu]
  cases hxy with
  | queued ticket => exact hother (hkey ticket (Option.some.inj ht))
  | connecting ticket => exact hother (hkey ticket (Option.some.inj ht))
  | authenticating ticket _ => exact hother (hkey ticket (Option.some.inj ht))
  | rejecting _ ticket => exact hother (hkey ticket (Option.some.inj ht))
  | discarding _ _ => cases ht
  | failed _ => cases ht
  | served _ => cases ht

theorem not_has_of_wire (h : Twin key S p q)
    (hwire : p.wire? n = some (other, l)) (hother : other ≠ key) :
    ¬ Has S.handles n := by
  intro hhas
  rcases Track.has_iff.mp hhas with ⟨k, hk⟩
  rcases h.handles.on hk with ⟨x, y, hx, _, hkey, _⟩
  rcases wire?_eq_some.mp hwire with ⟨handle, hhandle, htarget, _⟩
  rw [hx] at hhandle
  cases hhandle
  exact hother (htarget.symm.trans hkey)

theorem echo?_of_elsewhere (h : Twin key S p q) {e : Event}
    (he : Elsewhere key p e) : S.echo? e = none := by
  have hcalls {i : Nat} {e : Event} (hi : ¬ Has S.calls i)
      (habout : e.call? = some i) : S.echo? e = none := by
    have hnumber := Track.number?_eq_none.mpr hi
    cases e with
    | resume _ | linked _ | notLinked _ _ | accepted _ | refused _ _
    | closed _ =>
        cases habout
        exact Option.map_eq_none_iff.mpr hnumber
    | _ => cases habout
  have hlinks {l : Nat} (hl : ¬ Has S.links l) : S.echo? (.broke l) = none :=
    Option.map_eq_none_iff.mpr (Track.number?_eq_none.mpr hl)
  cases he with
  | sought answers ticket hother =>
      exact hcalls (h.not_has_of_ticket ticket hother) answers
  | discarded phase wire hother =>
      refine hcalls (fun hhas => ?_) rfl
      rcases Track.has_iff.mp hhas with ⟨j, hj⟩
      rcases h.phase hj with ⟨x, y, hx, _, hxy⟩
      rw [phase] at hx
      cases hx
      cases hxy with
      | discarding _ hpair => exact h.not_has_of_wire wire hother hpair.has
  | held wire hother =>
      rcases wire?_eq_some.mp wire with ⟨x, hx, _, rfl⟩
      exact hlinks (h.handles.off hx (h.not_has_of_wire wire hother))
  | greeting ticket link hother =>
      rcases view_eq_some.mp link with ⟨phase, hphase, hl⟩
      exact hlinks
        ((h.foreign (h.not_has_of_ticket ticket hother) hphase).handshake hl)
  | dropped wire hother =>
      exact Option.map_eq_none_iff.mpr
        (Track.number?_eq_none.mpr (h.not_has_of_wire wire hother))

end Twin
end Pool
end SlotCluster
