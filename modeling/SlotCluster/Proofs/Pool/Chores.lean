import SlotCluster.Proofs.Pool.Views

/-!
# Chores of a cleanup

A part of a cleanup removes entries and closes links, and nothing else.  A chore
is done once the connection that it is about is closed; the chores after it stay
as they are.
-/

namespace SlotCluster
namespace Pool

def Shut (p : Pool) (c : Nat) : Prop :=
  forall (h l : Nat) (key : Target), p.cellHandle? c = some h ->
    p.wire? h = some (key, l) -> p.isLinkOpen l = false

/-- A pool after some of its chores have been done, while the others are
left. -/
structure Tidied (chores : List Chore) (p q : Pool)
    (rest : List Chore) : Prop where
  left : rest.Sublist chores
  frame : q = { p with entries := q.entries, links := q.links }
  entries : q.entries.Sublist p.entries
  entry_old : forall {key : Target} {c : Nat}, q.entry? key = some c ->
    p.entry? key = some c
  length : q.links.length = p.links.length
  closing : forall {l : Nat}, q.isLinkOpen l = true -> p.isLinkOpen l = true
  cell_done : forall {c : Nat}, Chore.cell c ∈ chores ->
    Chore.cell c ∈ rest ∨ q.Shut c
  entry_done : forall {key : Target} {c : Nat}, p.entry? key = some c ->
    q.entry? key = some c ∨ Chore.key key ∈ chores ∧ q.Shut c
  key_left : forall {key : Target} {c : Nat}, Chore.key key ∈ chores ->
    q.entry? key = some c -> Chore.key key ∈ rest

namespace Tidied

theorem refl (chores : List Chore) (p : Pool) : Tidied chores p p chores where
  left := List.Sublist.refl _
  frame := rfl
  entries := List.Sublist.refl _
  entry_old := id
  length := rfl
  closing := id
  cell_done := Or.inl
  entry_done := Or.inl
  key_left h _ := h

theorem cellHandle?_eq {chores rest : List Chore} {p q : Pool}
    (h : Tidied chores p q rest) (c : Nat) :
    q.cellHandle? c = p.cellHandle? c := by
  rw [h.frame]
  rfl

theorem wire?_eq {chores rest : List Chore} {p q : Pool}
    (h : Tidied chores p q rest) (n : Nat) : q.wire? n = p.wire? n := by
  rw [h.frame]
  rfl

theorem view_eq {α : Type} {chores rest : List Chore} {p q : Pool}
    (h : Tidied chores p q rest) (part : Phase -> Option α) (i : Nat) :
    q.view part i = p.view part i := by
  rw [h.frame]
  rfl

theorem shut {chores rest : List Chore} {p q : Pool}
    (h : Tidied chores p q rest) {c : Nat} (hc : p.Shut c) : q.Shut c := by
  intro n l key hcell hwire
  rw [h.cellHandle?_eq] at hcell
  rw [h.wire?_eq] at hwire
  rw [Bool.eq_false_iff]
  intro hopen
  have hstill := h.closing hopen
  rw [hc n l key hcell hwire] at hstill
  cases hstill

theorem trans {first second third : List Chore} {p q r : Pool}
    (hpq : Tidied first p q second) (hqr : Tidied second q r third) :
    Tidied first p r third where
  left := hqr.left.trans hpq.left
  frame := by
    rw [hqr.frame, hpq.frame]
  entries := hqr.entries.trans hpq.entries
  entry_old h := hpq.entry_old (hqr.entry_old h)
  length := hqr.length.trans hpq.length
  closing h := hpq.closing (hqr.closing h)
  cell_done h := by
    rcases hpq.cell_done h with hleft | hshut
    · exact hqr.cell_done hleft
    · exact Or.inr (hqr.shut hshut)
  entry_done h := by
    rcases hpq.entry_done h with hentry | ⟨hmem, hshut⟩
    · rcases hqr.entry_done hentry with hentry | ⟨hmem, hshut⟩
      · exact Or.inl hentry
      · exact Or.inr ⟨hpq.left.subset hmem, hshut⟩
    · exact Or.inr ⟨hmem, hqr.shut hshut⟩
  key_left hmem hentry :=
    hqr.key_left (hpq.key_left hmem (hqr.entry_old hentry)) hentry

end Tidied

theorem tidied_chore (p : Pool) (chore : Chore) (rest : List Chore)
    {links : List Link} (hlength : links.length = p.links.length)
    (hclosing : forall {l : Nat}, isLinkOpen { p with links } l = true ->
      p.isLinkOpen l = true)
    (hshut : forall {c : Nat}, (p.takeChore chore).2 = some c ->
      Shut { (p.takeChore chore).1 with links } c) :
    Tidied (chore :: rest) p { (p.takeChore chore).1 with links } rest := by
  cases chore with
  | cell c =>
      refine ⟨List.sublist_cons_self _ _, rfl, List.Sublist.refl _, id, hlength,
        hclosing, ?_, fun h => Or.inl h, ?_⟩
      · intro d hd
        rcases List.mem_cons.mp hd with hd | hd
        · cases hd
          exact Or.inr (hshut rfl)
        · exact Or.inl hd
      · intro key d hkey _
        rcases List.mem_cons.mp hkey with hkey | hkey
        · cases hkey
        · exact hkey
  | key key =>
      have hentry : forall other,
          Pool.entry? { (p.takeChore (.key key)).1 with links } other =
            if key = other then none else p.entry? other :=
        entry?_removeEntry p key
      refine ⟨List.sublist_cons_self _ _, rfl, List.filter_sublist, ?_, hlength,
        hclosing, ?_, ?_, ?_⟩
      · intro other d h
        rw [hentry] at h
        by_cases hkey : key = other
        · rw [if_pos hkey] at h
          cases h
        · rw [if_neg hkey] at h
          exact h
      · intro d hd
        rcases List.mem_cons.mp hd with hd | hd
        · cases hd
        · exact Or.inl hd
      · intro other d hother
        rw [hentry]
        by_cases hkey : key = other
        · subst hkey
          exact Or.inr ⟨List.mem_cons_self, hshut hother⟩
        · rw [if_neg hkey]
          exact Or.inl hother
      · intro other d hother h
        rw [hentry] at h
        rcases List.mem_cons.mp hother with hother | hother
        · cases hother
          rw [if_pos rfl] at h
          cases h
        · exact hother

theorem tidied_runChores (p : Pool) (chores : List Chore) :
    Tidied chores p (p.runChores chores).1 (p.runChores chores).2.1 ∧
      ((p.runChores chores).2.2 = none -> (p.runChores chores).2.1 = []) := by
  induction chores generalizing p with
  | nil => exact ⟨Tidied.refl [] p, fun _ => rfl⟩
  | cons chore rest ih =>
      have hhandles : (p.takeChore chore).1.handles = p.handles := by
        cases chore <;> rfl
      have hcells :
          forall c, (p.takeChore chore).1.cellHandle? c = p.cellHandle? c := by
        cases chore <;> exact fun _ => rfl
      unfold runChores
      cases hfound :
          ((p.takeChore chore).2.bind (p.takeChore chore).1.cellHandle?).bind
            (fun handle => (p.takeChore chore).1.handles[handle]?) with
      | none =>
          simp only [hfound]
          have hdone : Tidied (chore :: rest) p (p.takeChore chore).1 rest := by
            have hlinks : (p.takeChore chore).1 =
                { (p.takeChore chore).1 with links := p.links } := by
              cases chore <;> rfl
            rw [hlinks]
            apply tidied_chore p chore rest rfl id
            intro c hc h l key hcell hwire
            rcases wire?_eq_some.mp hwire with ⟨handle, hhandle, _⟩
            rw [hc] at hfound
            change (p.takeChore chore).1.cellHandle? c = some h at hcell
            change (p.takeChore chore).1.handles[h]? = some handle at hhandle
            simp [hcell, hhandle] at hfound
          rcases ih (p.takeChore chore).1 with ⟨hrest, hnone⟩
          exact ⟨hdone.trans hrest, hnone⟩
      | some handle =>
          simp only [hfound]
          refine ⟨?_, by simp⟩
          have hmodified : (p.takeChore chore).1.closeLink handle.link =
              { (p.takeChore chore).1 with
                links := (p.closeLink handle.link).links } := by
            cases chore <;> rfl
          rw [hmodified]
          apply tidied_chore p chore rest
          · exact List.length_modify ..
          · intro l hopen
            change (p.closeLink handle.link).isLinkOpen l = true at hopen
            rw [isLinkOpen_closeLink, Bool.and_eq_true] at hopen
            exact hopen.1
          · intro c hc h l key hcell hwire
            rcases wire?_eq_some.mp hwire with ⟨other, hother, _, hl⟩
            change (p.takeChore chore).1.cellHandle? c = some h at hcell
            change (p.takeChore chore).1.handles[h]? = some other at hother
            simp only [hc, Option.bind_some, hcell, hother,
              Option.some.injEq] at hfound
            change (p.closeLink handle.link).isLinkOpen l = false
            rw [isLinkOpen_closeLink, ← hl, hfound]
            simp

end Pool
end SlotCluster
