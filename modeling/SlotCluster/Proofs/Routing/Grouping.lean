import SlotCluster.Command
import SlotCluster.Routing.Plan

/-!
# Groups of keys

Splitting a command gathers the positions of its keys by target.  Every target
has at most one group, the group holds the positions of exactly its keys in
their order, and the part of the command for the group has exactly the keys of
its target with what belongs to them.
-/

namespace SlotCluster
namespace Routing

/-! ## Positions -/

/-- The positions of the items that satisfy a predicate, when the first item has
the given position. -/
def positionsFrom {α : Type} (first : Nat) (P : α -> Bool) : List α -> List Nat
  | [] => []
  | a :: rest =>
      if P a then
        first :: positionsFrom (first + 1) P rest
      else
        positionsFrom (first + 1) P rest

theorem mem_positionsFrom {α : Type} {first p : Nat} {P : α -> Bool}
    {items : List α} :
    p ∈ positionsFrom first P items <->
      first ≤ p ∧ exists a, items[p - first]? = some a ∧ P a = true := by
  induction items generalizing first with
  | nil => simp [positionsFrom]
  | cons a rest ih =>
      have htail : p ∈ positionsFrom (first + 1) P rest <->
          first < p ∧ exists b, (a :: rest)[p - first]? = some b ∧
            P b = true := by
        rw [ih]
        constructor
        · intro h
          rcases h with ⟨hle, b, hb, hP⟩
          refine ⟨by omega, b, ?_, hP⟩
          rw [show p - first = (p - (first + 1)) + 1 by omega]
          exact hb
        · intro h
          rcases h with ⟨hlt, b, hb, hP⟩
          refine ⟨by omega, b, ?_, hP⟩
          rw [show p - first = (p - (first + 1)) + 1 by omega] at hb
          exact hb
      rw [positionsFrom]
      by_cases ha : P a = true
      · rw [if_pos ha, List.mem_cons, htail]
        constructor
        · intro h
          rcases h with h | ⟨hlt, hb⟩
          · rw [h, Nat.sub_self]
            exact ⟨Nat.le_refl _, a, rfl, ha⟩
          · exact ⟨by omega, hb⟩
        · intro h
          rcases h with ⟨hle, hb⟩
          by_cases heq : p = first
          · exact Or.inl heq
          · exact Or.inr ⟨by omega, hb⟩
      · rw [if_neg ha, htail]
        constructor
        · intro h
          exact ⟨by omega, h.2⟩
        · intro h
          rcases h with ⟨hle, b, hb, hP⟩
          rcases Nat.lt_or_eq_of_le hle with hlt | heq
          · exact ⟨hlt, b, hb, hP⟩
          · rw [heq, Nat.sub_self, List.getElem?_cons_zero,
              Option.some.injEq] at hb
            exact absurd (hb ▸ hP) ha

theorem filterMap_positionsFrom {α β : Type} (P : α -> Bool) (front : List β)
    {items : List α} {beside : List β}
    (hlength : items.length = beside.length) :
    (positionsFrom front.length P items).filterMap
      (fun p => (front ++ beside)[p]?) =
      ((items.zip beside).filter (fun x => P x.1)).map Prod.snd := by
  induction items generalizing front beside with
  | nil => rfl
  | cons a items ih =>
      cases beside with
      | nil => cases hlength
      | cons b beside =>
          have hlength' : items.length = beside.length := by simpa using hlength
          have hrest := ih (front ++ [b]) hlength'
          rw [List.length_append, List.length_singleton, List.append_assoc,
            List.singleton_append] at hrest
          have hhead : (front ++ b :: beside)[front.length]? = some b := by
            rw [List.getElem?_append_right (Nat.le_refl _), Nat.sub_self]
            rfl
          rw [positionsFrom, List.zip_cons_cons, List.filter_cons]
          by_cases ha : P a = true
          · rw [if_pos ha, if_pos ha, List.filterMap_cons_some hhead, hrest,
              List.map_cons]
          · rw [if_neg ha, if_neg ha, hrest]

/-! ## Groups -/

variable {targetOf : Bytes -> Target}

def positionsIn (groups : List Group) (target : Target) : List Nat :=
  ((groups.find? (fun g => g.target = target)).map Group.positions).getD []

theorem positionsIn_addPosition (groups : List Group) (target other : Target)
    (position : Nat) :
    positionsIn (addPosition target position groups) other =
      if target = other then
        positionsIn groups other ++ [position]
      else
        positionsIn groups other := by
  induction groups with
  | nil =>
      unfold positionsIn addPosition
      by_cases h : target = other <;> simp [h]
  | cons g rest ih =>
      unfold positionsIn at ih ⊢
      rw [addPosition]
      by_cases hg : g.target = target
      · rw [if_pos hg]
        by_cases h : target = other
        · simp [h, hg]
        · simp [h, hg]
      · rw [if_neg hg]
        by_cases ho : g.target = other
        · have hne : target ≠ other := fun h => hg (ho.trans h.symm)
          simp [ho, hne]
        · simp only [List.find?_cons, ho, decide_false]
          exact ih

theorem targets_addPosition (groups : List Group) (target : Target)
    (position : Nat) :
    (addPosition target position groups).map Group.target =
      if target ∈ groups.map Group.target then groups.map Group.target
      else groups.map Group.target ++ [target] := by
  induction groups with
  | nil => simp [addPosition]
  | cons g rest ih =>
      rw [addPosition]
      by_cases hg : g.target = target
      · simp [hg]
      · rw [if_neg hg, List.map_cons, ih, List.map_cons]
        by_cases hmem : target ∈ rest.map Group.target
        · simp [hmem]
        · rw [if_neg hmem, if_neg]
          · rfl
          · rw [List.mem_cons, not_or]
            exact ⟨Ne.symm hg, hmem⟩

theorem targets_addPosition_nodup {groups : List Group}
    (h : (groups.map Group.target).Nodup) (target : Target) (position : Nat) :
    ((addPosition target position groups).map Group.target).Nodup := by
  rw [targets_addPosition]
  by_cases hmem : target ∈ groups.map Group.target
  · rw [if_pos hmem]
    exact h
  · rw [if_neg hmem, List.nodup_append]
    refine ⟨h, by simp, ?_⟩
    intro a ha b hb hab
    rw [List.mem_singleton] at hb
    exact hmem (hb ▸ hab ▸ ha)

theorem groupFrom_spec (targetOf : Bytes -> Target) (position : Nat)
    {groups : List Group} (keys : List Bytes)
    (h : (groups.map Group.target).Nodup) :
    ((groupFrom targetOf position groups keys).map Group.target).Nodup ∧
      forall target,
        positionsIn (groupFrom targetOf position groups keys) target =
        positionsIn groups target ++
          positionsFrom position
            (fun key => decide (targetOf key = target)) keys := by
  induction keys generalizing position groups with
  | nil => exact ⟨h, fun target => (List.append_nil _).symm⟩
  | cons key rest ih =>
      rcases ih (position + 1)
        (targets_addPosition_nodup h (targetOf key) position) with
        ⟨hnodup, hrest⟩
      refine ⟨hnodup, ?_⟩
      intro target
      rw [groupFrom, hrest, positionsIn_addPosition, positionsFrom]
      by_cases htarget : targetOf key = target
      · simp [htarget]
      · simp [htarget]

theorem positionsIn_of_mem {groups : List Group}
    (h : (groups.map Group.target).Nodup) {g : Group} (hg : g ∈ groups) :
    positionsIn groups g.target = g.positions := by
  induction groups with
  | nil => cases hg
  | cons first rest ih =>
      rw [List.map_cons, List.nodup_cons] at h
      unfold positionsIn at ih ⊢
      rcases List.mem_cons.mp hg with heq | hmem
      · rw [heq]
        simp
      · have hne : first.target ≠ g.target := by
          intro heq
          exact h.1 (List.mem_map.mpr ⟨g, hmem, heq.symm⟩)
        simp only [List.find?_cons, hne, decide_false]
        exact ih h.2 hmem

theorem groupKeys_spec (targetOf : Bytes -> Target) (keys : List Bytes) :
    ((groupKeys targetOf keys).map Group.target).Nodup ∧
      forall target, positionsIn (groupKeys targetOf keys) target =
        positionsFrom 0 (fun key => decide (targetOf key = target)) keys := by
  have hnil : (([] : List Group).map Group.target).Nodup := List.nodup_nil
  exact groupFrom_spec targetOf 0 keys hnil

theorem positions_of_mem {keys : List Bytes} {g : Group}
    (h : g ∈ groupKeys targetOf keys) :
    g.positions =
      positionsFrom 0 (fun key => decide (targetOf key = g.target)) keys := by
  rcases groupKeys_spec targetOf keys with ⟨hnodup, hpositions⟩
  rw [← positionsIn_of_mem hnodup h]
  exact hpositions g.target

theorem exists_group (targetOf : Bytes -> Target) {keys : List Bytes}
    {key : Bytes} (h : key ∈ keys) :
    exists g, g ∈ groupKeys targetOf keys ∧ g.target = targetOf key := by
  have hpositions := (groupKeys_spec targetOf keys).2 (targetOf key)
  rcases List.getElem?_of_mem h with ⟨p, hp⟩
  have hmem : p ∈
      positionsFrom 0
        (fun other => decide (targetOf other = targetOf key)) keys :=
    mem_positionsFrom.mpr ⟨Nat.zero_le p, key, hp, by simp⟩
  cases hfind :
      (groupKeys targetOf keys).find? (fun g => g.target = targetOf key) with
  | some g =>
      exact ⟨g, List.mem_of_find?_eq_some hfind, by
        simpa using List.find?_some hfind⟩
  | none =>
      rw [positionsIn, hfind] at hpositions
      change [] = _ at hpositions
      rw [← hpositions] at hmem
      cases hmem

theorem target_of_mem_groupFrom {position : Nat} {groups : List Group}
    {keys : List Bytes} {target : Target}
    (h : target ∈ (groupFrom targetOf position groups keys).map Group.target) :
    target ∈ groups.map Group.target ∨
      exists key, key ∈ keys ∧ targetOf key = target := by
  induction keys generalizing position groups with
  | nil => exact Or.inl h
  | cons key rest ih =>
      rcases ih h with hearlier | ⟨other, hother, htarget⟩
      · rw [targets_addPosition] at hearlier
        by_cases hmem : targetOf key ∈ groups.map Group.target
        · rw [if_pos hmem] at hearlier
          exact Or.inl hearlier
        · rw [if_neg hmem, List.mem_append, List.mem_singleton] at hearlier
          rcases hearlier with hearlier | hnew
          · exact Or.inl hearlier
          · exact Or.inr ⟨key, List.mem_cons_self, hnew.symm⟩
      · exact Or.inr ⟨other, List.mem_cons_of_mem _ hother, htarget⟩

theorem mem_targets_groupKeys {keys : List Bytes} {target : Target} :
    target ∈ (groupKeys targetOf keys).map Group.target <->
      exists key, key ∈ keys ∧ targetOf key = target := by
  constructor
  · intro h
    rcases target_of_mem_groupFrom h with hnone | hkey
    · cases hnone
    · exact hkey
  · intro h
    rcases h with ⟨key, hkey, htarget⟩
    rcases exists_group targetOf hkey with ⟨g, hg, hsame⟩
    rw [← htarget, ← hsame]
    exact List.mem_map_of_mem hg

theorem target_of_only {keys : List Bytes} {g : Group}
    (h : groupKeys targetOf keys = [g]) {key : Bytes} (hkey : key ∈ keys) :
    targetOf key = g.target := by
  rcases exists_group targetOf hkey with ⟨other, hother, htarget⟩
  rw [h, List.mem_singleton] at hother
  rw [← htarget, hother]

theorem exists_only {keys : List Bytes} (hkeys : keys ≠ [])
    (hone : forall key other, key ∈ keys -> other ∈ keys ->
      targetOf key = targetOf other) :
    exists g, groupKeys targetOf keys = [g] := by
  have hnodup := (groupKeys_spec targetOf keys).1
  cases hgroups : groupKeys targetOf keys with
  | nil =>
      rcases List.exists_mem_of_ne_nil keys hkeys with ⟨key, hkey⟩
      rcases exists_group targetOf hkey with ⟨g, hg, _⟩
      rw [hgroups] at hg
      cases hg
  | cons g rest =>
      cases rest with
      | nil => exact ⟨g, rfl⟩
      | cons h rest =>
          have hfirst : g ∈ groupKeys targetOf keys :=
            hgroups ▸ List.mem_cons_self
          have hsecond : h ∈ groupKeys targetOf keys :=
            hgroups ▸ List.mem_cons_of_mem _ List.mem_cons_self
          rcases mem_targets_groupKeys.mp (List.mem_map_of_mem hfirst) with
            ⟨key, hkey, htarget⟩
          rcases mem_targets_groupKeys.mp (List.mem_map_of_mem hsecond) with
            ⟨other, hother, htarget'⟩
          rw [hgroups, List.map_cons, List.map_cons, List.nodup_cons, ← htarget,
            ← htarget', hone key other hkey hother] at hnodup
          exact absurd List.mem_cons_self hnodup.1

/-! ## Plans -/

/-- A command with many keys goes to one target as it is, or to each of its
targets in part. -/
theorem plan_of_multi {c : Command} {step : Nat}
    (hmulti : c.keyLayout = .multi step) (harity : c.checkArity = .ok ())
    (table : Table) (fallback : Endpoint) :
    (exists g, groupKeys (Routing.targetOf table fallback) c.keys = [g] ∧
        plan table fallback c = .ok (.whole g.target)) ∨
      (forall g, groupKeys (Routing.targetOf table fallback) c.keys ≠ [g]) ∧
        plan table fallback c =
          .ok
            (.split (groupKeys (Routing.targetOf table fallback) c.keys)) := by
  unfold plan
  rw [harity, hmulti]
  dsimp only
  cases hgroups : groupKeys (Routing.targetOf table fallback) c.keys with
  | nil => exact Or.inr ⟨nofun, rfl⟩
  | cons g rest =>
      cases rest with
      | nil => exact Or.inl ⟨g, rfl, rfl⟩
      | cons other rest => exact Or.inr ⟨nofun, rfl⟩

end Routing
end SlotCluster
