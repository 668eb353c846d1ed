import SlotCluster.Proofs.Pool.Aliases
import SlotCluster.Proofs.Pool.Errors
import SlotCluster.Proofs.Pool.Phases

/-!
# Who closes a link

A link closes by itself, or because somebody asks for it: the holder of its
connection, a call or a cleanup that must not leave the connection in the pool,
or the call whose credential was refused.  So a link on which a call waits for
the answer to its credential is open unless it has closed by itself.
-/

namespace SlotCluster
namespace Pool

variable {keyAt : Nat -> Target} {p q : Pool} {event : Event} {i l : Nat}
  {t : Ticket}

def Held (p : Pool) (l : Nat) : Prop :=
  exists h key, p.wire? h = some (key, l)

/-! ## What leaves a link open -/

theorem open_closeHandle (h : Nat) (hl : p.isLinkOpen l = true) :
    (p.closeHandle h).isLinkOpen l = true ∨
      exists key, p.wire? h = some (key, l) := by
  rw [isLinkOpen_closeHandle, hl, Bool.true_and, decide_eq_true_eq]
  by_cases hown : (p.handles[h]?).map Handle.link = some l
  · rcases Option.map_eq_some_iff.mp hown with ⟨handle, hhandle, hlink⟩
    exact Or.inr
      ⟨handle.target, wire?_eq_some.mpr ⟨handle, hhandle, rfl, hlink⟩⟩
  · exact Or.inl hown

theorem open_conclude (i : Nat) (t : Ticket) (h : Nat)
    (hl : p.isLinkOpen l = true) :
    (p.conclude i t h).isLinkOpen l = true ∨
      exists key, p.wire? h = some (key, l) := by
  unfold conclude
  split
  · exact open_closeHandle h hl
  · split
    · split
      · exact open_closeHandle (p := p.removeEntry _) h hl
      · exact Or.inl hl
    · exact Or.inl hl

theorem open_of_edit (h : Edit p q) (hl : p.isLinkOpen l = true) :
    q.isLinkOpen l = true ∨ p.Held l := by
  cases h with
  | change change =>
      cases change with
      | setPhase i phase => exact Or.inl hl
      | removeEntry key => exact Or.inl hl
      | modifyCell c _ => exact Or.inl hl
      | closeHandle h =>
          rcases open_closeHandle h hl with hopen | hwire
          · exact Or.inl hopen
          · exact Or.inr ⟨h, hwire⟩
  | addCall target phase => exact Or.inl hl
  | addCell key => exact Or.inl hl

theorem handles_of_edits (h : Edits p q) : q.handles = p.handles := by
  induction h with
  | refl => rfl
  | tail _ last ih =>
      rw [← ih]
      cases last with
      | change change =>
          cases change with
          | setPhase i phase => rfl
          | removeEntry key => rfl
          | modifyCell c _ => rfl
          | closeHandle h =>
              rcases closeHandle_eq _ h with ⟨links, heq, _⟩
              rw [heq]
      | addCall target phase => rfl
      | addCell key => rfl

theorem open_of_edits (h : Edits p q) (hl : p.isLinkOpen l = true) :
    q.isLinkOpen l = true ∨ p.Held l := by
  induction h with
  | refl => exact Or.inl hl
  | tail before last ih =>
      rcases ih with hopen | hheld
      · rcases open_of_edit last hopen with hstill | ⟨h, key, hwire⟩
        · exact Or.inl hstill
        · unfold wire? at hwire
          rw [handles_of_edits before] at hwire
          exact Or.inr ⟨h, key, hwire⟩
      · exact Or.inr hheld

theorem open_fail (i : Nat) (t : Ticket) (error : ClusterError)
    (hl : p.isLinkOpen l = true) : (p.fail i t error).isLinkOpen l = true := by
  unfold fail
  dsimp only
  split
  · exact hl
  · exact hl

theorem open_establish (i : Nat) (t : Ticket) (own : Nat)
    (hl : p.isLinkOpen l = true) :
    (p.establish i t own).isLinkOpen l = true ∨ l = own := by
  let filled : Pool :=
    { p with
      handles := p.handles ++ [⟨t.key, t.endpoint, own, p.table⟩]
      cells :=
        p.cells.modify t.cell (fun _ => { handle := some p.handles.length }) }
  have hfilled : filled.isLinkOpen l = true := hl
  rcases open_conclude i t p.handles.length hfilled with hopen | ⟨key, hwire⟩
  · exact Or.inl hopen
  · have hnew : filled.wire? p.handles.length = some (t.key, own) := by
      change ((p.handles ++ [_])[p.handles.length]?).map _ = _
      rw [List.getElem?_concat_length]
      rfl
    rw [hnew] at hwire
    cases hwire
    exact Or.inr rfl

theorem open_linked (i : Nat) (t : Ticket) (hl : p.isLinkOpen l = true) :
    (p.linked i t).isLinkOpen l = true := by
  rcases isLinkOpen_iff.mp hl with ⟨link, hlink, _⟩
  have hlt : l < p.links.length := (List.getElem?_eq_some_iff.mp hlink).1
  let dialed : Pool :=
    { p with links := p.links ++ [{ endpoint := t.endpoint }] }
  have hdialed : dialed.isLinkOpen l = true := by
    change ((p.links ++ [_])[l]?).any Link.isOpen = true
    rw [List.getElem?_append_left hlt]
    exact hl
  unfold linked
  dsimp only
  split
  · exact hdialed
  · rcases open_establish i t p.links.length hdialed with hopen | hown
    · exact hopen
    · omega

theorem open_accepted (i : Nat) (t : Ticket) (own : Nat)
    (hl : p.isLinkOpen l = true) :
    (p.accepted i t own).isLinkOpen l = true ∨ l = own :=
  open_establish i t own ((isLinkOpen_authenticated p own l).trans hl)

/-!
## What chores leave alone

A link that is not in a cell that one of the chores is about stays exactly as
it is.
-/

inductive Chore.About (p : Pool) (c : Nat) : Chore -> Prop where
  | cell : About p c (.cell c)
  | key {key : Target} (entry : p.entry? key = some c) : About p c (.key key)

theorem Chore.About.of_takeChore {first chore : Chore} {c : Nat}
    (h : chore.About (p.takeChore first).1 c) : chore.About p c := by
  cases h with
  | cell => exact Chore.About.cell
  | @key key entry =>
      refine Chore.About.key ?_
      cases first with
      | cell d => exact entry
      | key other =>
          change Pool.entry? (p.removeEntry other) key = some c at entry
          rw [entry?_removeEntry] at entry
          by_cases hkey : other = key
          · rw [if_pos hkey] at entry
            cases entry
          · rw [if_neg hkey] at entry
            exact entry

theorem about_of_takeChore {chore : Chore} {c : Nat}
    (h : (p.takeChore chore).2 = some c) : chore.About p c := by
  cases chore with
  | cell d =>
      cases h
      exact Chore.About.cell
  | key key => exact Chore.About.key h

theorem links_runChores (p : Pool) (chores : List Chore)
    (hfree : forall {chore : Chore} {c h : Nat} {key : Target},
      chore ∈ chores -> chore.About p c -> p.cellHandle? c = some h ->
      p.wire? h ≠ some (key, l)) :
    (p.runChores chores).1.links[l]? = p.links[l]? := by
  induction chores generalizing p with
  | nil => rfl
  | cons chore rest ih =>
      have hsame : (p.takeChore chore).1.links = p.links := by
        cases chore <;> rfl
      have hcells :
          forall c, (p.takeChore chore).1.cellHandle? c = p.cellHandle? c := by
        cases chore <;> exact fun _ => rfl
      have hhandles : (p.takeChore chore).1.handles = p.handles := by
        cases chore <;> rfl
      unfold runChores
      cases hfound :
          ((p.takeChore chore).2.bind (p.takeChore chore).1.cellHandle?).bind
            (fun handle => (p.takeChore chore).1.handles[handle]?) with
      | none =>
          simp only [hfound]
          rw [ih, hsame]
          intro other c h key hmem habout hcell
          rw [hcells] at hcell
          unfold wire?
          rw [hhandles]
          exact hfree (List.mem_cons_of_mem _ hmem) habout.of_takeChore hcell
      | some handle =>
          simp only [hfound]
          rcases Option.bind_eq_some_iff.mp hfound with ⟨h, hbind, hhandle⟩
          rcases Option.bind_eq_some_iff.mp hbind with ⟨c, hc, hcell⟩
          rw [hcells] at hcell
          rw [hhandles] at hhandle
          have hother : handle.link ≠ l := by
            intro hlink
            exact hfree List.mem_cons_self (about_of_takeChore hc) hcell
              (wire?_eq_some.mpr ⟨handle, hhandle, rfl, hlink⟩)
          change ((p.takeChore chore).1.links.modify handle.link _)[l]? = _
          rw [List.getElem?_modify_ne _ _ hother, hsame]

theorem open_runChores (chores : List Chore) (hl : p.isLinkOpen l = true) :
    (p.runChores chores).1.isLinkOpen l = true ∨ p.Held l := by
  by_cases hheld : p.Held l
  · exact Or.inr hheld
  · left
    unfold isLinkOpen
    rw [links_runChores p chores (fun _ _ _ hwire => hheld ⟨_, _, hwire⟩)]
    exact hl

/-! ## Steps -/

inductive Closes (p : Pool) (l : Nat) : Event -> Prop where
  | held {event : Event} (held : p.Held l) : Closes p l event
  | accepted {i : Nat} {t : Ticket}
      (phase : p.phase? i = some (.authenticating t l)) :
      Closes p l (.accepted i)
  | refused {i : Nat} {t : Ticket} {e : ClusterError}
      (phase : p.phase? i = some (.authenticating t l)) :
      Closes p l (.refused i e)
  | broke : Closes p l (.broke l)

theorem open_of_step (hstep : p.step event = some q)
    (hl : p.isLinkOpen l = true) :
    q.isLinkOpen l = true ∨ Closes p l event := by
  have hheld {r : Pool} (h : r.isLinkOpen l = true ∨ p.Held l) :
      r.isLinkOpen l = true ∨ Closes p l event := h.imp_right Closes.held
  cases taken_of_step hstep with
  | request target => exact hheld (open_of_edits (edits_request p target) hl)
  | resume _ resumed =>
      exact hheld (open_of_edits (changes_resume resumed).edits hl)
  | linked _ => exact Or.inl (open_linked _ _ hl)
  | notLinked _ => exact Or.inl (open_fail _ _ _ hl)
  | accepted phase =>
      rcases open_accepted _ _ _ hl with hopen | hown
      · exact Or.inl hopen
      · exact Or.inr (Closes.accepted (hown ▸ phase))
  | @refused i own t error phase =>
      by_cases hown : own = l
      · exact Or.inr (Closes.refused (hown ▸ phase))
      · left
        change (p.closeLink own).isLinkOpen l = true
        rw [isLinkOpen_closeLink, hl, Bool.true_and, decide_eq_true_eq]
        exact hown
  | rejected _ => exact Or.inl (open_fail _ _ _ hl)
  | discarded _ => exact Or.inl hl
  | apply table => exact Or.inl hl
  | reordered perm leads => exact Or.inl hl
  | sweep table =>
      exact hheld
        (open_runChores
          (p :=
            { p with
              entries := p.entries.filter (fun e => !e.1.isStale table) }) _ hl)
  | drain =>
      exact hheld (open_runChores (p := { p with isClosed := true }) _ hl)
  | cleaned _ => exact hheld (open_runChores _ hl)
  | broke m =>
      by_cases hm : m = l
      · exact Or.inr (hm ▸ Closes.broke)
      · left
        change ((p.links.modify m _)[l]?).any Link.isOpen = true
        rw [List.getElem?_modify_ne _ _ hm]
        exact hl
  | closeHandle n =>
      apply hheld
      exact (open_closeHandle n hl).imp_right (fun hwire => ⟨n, hwire⟩)

/-!
## Links that wait for the answer to a credential

Nobody closes a link on which a call goes on waiting.
-/

theorem Held.not_handshake (hw : Wired keyAt p) (h : p.Held l) :
    p.phase? i ≠ some (.authenticating t l) := by
  intro hi
  rcases h with ⟨n, key, hwire⟩
  exact hw.handshake_free (view_of_phase? Phase.handshake? hi) hwire

theorem open_of_waiting (hs : Seated keyAt p) (hw : Wired keyAt p)
    (hstep : p.step event = some q)
    (hi : p.phase? i = some (.authenticating t l))
    (hstill : q.phase? i = some (.authenticating t l))
    (hl : p.isLinkOpen l = true) :
    q.isLinkOpen l = true ∨ event = .broke l := by
  rcases open_of_step hstep hl with hopen | hcloses
  · exact Or.inl hopen
  · have hsame {j : Nat} {u : Ticket}
        (hj : p.phase? j = some (.authenticating u l)) : j = i :=
      hw.handshake_inj (view_of_phase? Phase.handshake? hj)
        (view_of_phase? Phase.handshake? hi)
    cases hcloses with
    | held held => exact absurd hi (held.not_handshake hw)
    | @accepted j u phase =>
        rcases concluded_of_step hs (Concludes.accepted phase) hstep with
          ⟨new, hdone⟩
        have hnew := hdone.phase
        rw [hsame phase, hstill, Option.some.injEq] at hnew
        have hverdict := hdone.verdict
        rw [← hnew] at hverdict
        cases hverdict
    | @refused j u e phase =>
        have hj := hsame phase
        subst hj
        simp only [step, phase, Option.some.injEq] at hstep
        have hnew : q.phase? j =
            some (.rejecting u l (.ofHandshake u.endpoint e)) := by
          rw [← hstep]
          exact phase?_setPhase_self (p := p.closeLink l) _ phase
        rw [hstill] at hnew
        cases hnew
    | broke => exact Or.inr rfl

/-- The link on which a call waits for the answer to its credential is open, if
it has not closed by itself. -/
theorem open_of_handshake {table : Shared} {fallback : Endpoint}
    {events : List Event} (hrun : run { table, fallback } events = some p)
    (hi : p.phase? i = some (.authenticating t l)) :
    p.isLinkOpen l = true ∨ .broke l ∈ events := by
  induction events using List.reverseRecOn generalizing p with
  | nil =>
      cases hrun
      cases hi
  | append_singleton events event ih =>
      rcases run_concat.mp hrun with ⟨r, hr, hstep⟩
      rcases (Sound.start table fallback).run hr with ⟨keyAt, hs, hw⟩
      rcases handshake_of_step hs hstep hi with hold | hopen
      · rcases ih hr hold with hl | hbroke
        · rcases open_of_waiting hs hw hstep hold hi hl with hopen | hevent
          · exact Or.inl hopen
          · exact Or.inr
              (List.mem_append_right _ (List.mem_singleton.mpr hevent.symm))
        · exact Or.inr (List.mem_append_left _ hbroke)
      · exact Or.inl hopen

end Pool
end SlotCluster
