import Mathlib.Data.List.Forall2
import SlotCluster.Proofs.Routing.Sharding

/-!
# Splitting a command

A command with many keys that belong to more than one target is split.  Its key
positions are sorted by target, so no position is lost and none is listed twice,
and every part has the arguments of the positions of one group, in their order.
All parts together have the arguments of the command, and no value has been
taken from its key.
-/

namespace SlotCluster
namespace Routing

/-! ## Groups -/

variable {targetOf : Bytes -> Target} {keys : List Bytes} {g : Group}

theorem positionsFrom_eq {α : Type} (first : Nat) (P : α -> Bool)
    (items : List α) :
    positionsFrom first P items =
      ((items.zipIdx first).filter (fun x => P x.1)).map Prod.snd := by
  induction items generalizing first with
  | nil => rfl
  | cons a rest ih =>
      rw [positionsFrom, List.zipIdx_cons, List.filter_cons]
      by_cases ha : P a = true
      · rw [if_pos ha, if_pos ha, List.map_cons, ih]
      · rw [if_neg ha, if_neg ha, ih]

theorem pairwise_positionsFrom {α : Type} (first : Nat) (P : α -> Bool)
    (items : List α) : (positionsFrom first P items).Pairwise (· < ·) := by
  have hall : ((items.zipIdx first).map Prod.snd).Pairwise (· < ·) := by
    rw [List.zipIdx_map_snd]
    exact List.pairwise_lt_range'
  rw [positionsFrom_eq]
  exact hall.sublist (List.filter_sublist.map Prod.snd)

theorem targets_groupFrom (targetOf : Bytes -> Target) (position : Nat)
    (groups : List Group) (keys : List Bytes) :
    (groupFrom targetOf position groups keys).map Group.target =
      groups.map Group.target ++
        ((keys.map targetOf).filter
          (fun target =>
            !decide (target ∈ groups.map Group.target))).eraseDups := by
  induction keys generalizing position groups with
  | nil => exact (List.append_nil _).symm
  | cons key rest ih =>
      rw [groupFrom, ih, targets_addPosition, List.map_cons, List.filter_cons]
      by_cases hmem : targetOf key ∈ groups.map Group.target
      · simp [hmem]
      · rw [if_neg hmem, if_pos (by simpa using hmem), List.eraseDups_cons,
          List.filter_filter, List.append_assoc, List.singleton_append]
        congr 4
        funext target
        simp [Bool.and_comm, beq_eq_decide]

theorem targets_groupKeys (targetOf : Bytes -> Target) (keys : List Bytes) :
    (groupKeys targetOf keys).map Group.target =
      (keys.map targetOf).eraseDups := by
  unfold groupKeys
  rw [targets_groupFrom]
  simp

/-- The groups of a command hold the positions of its keys, sorted by target. -/
structure Sorted (targetOf : Bytes -> Target) (keys : List Bytes)
    (groups : List Group) : Prop where
  /-- Every position is in one group, and only once. -/
  partition : (groups.flatMap Group.positions).Perm (List.range keys.length)
  increasing : forall {g : Group}, g ∈ groups -> g.positions.Pairwise (· < ·)
  distinct : (groups.map Group.target).Nodup
  /-- Targets stand in the order in which they appear first. -/
  order : groups.map Group.target = (keys.map targetOf).eraseDups
  belongs : forall {g : Group} {p : Nat}, g ∈ groups -> p ∈ g.positions ->
    (keys[p]?).map targetOf = some g.target

theorem perm_positions (targetOf : Bytes -> Target) (keys : List Bytes) :
    ((groupKeys targetOf keys).flatMap Group.positions).Perm
      (List.range keys.length) := by
  have hgroups : (groupKeys targetOf keys).flatMap Group.positions =
      (((groupKeys targetOf keys).map Group.target).flatMap
        (fun target =>
          keys.zipIdx.filter (fun x => decide (targetOf x.1 = target)))).map
            Prod.snd := by
    rw [List.map_flatMap, List.flatMap_map]
    apply List.flatMap_congr
    intro g hg
    rw [positions_of_mem hg, positionsFrom_eq]
  have hcover (x : Bytes × Nat) (hx : x ∈ keys.zipIdx) :
      targetOf x.1 ∈ (groupKeys targetOf keys).map Group.target :=
    mem_targets_groupKeys.mpr ⟨x.1, List.fst_mem_of_mem_zipIdx hx, rfl⟩
  rw [hgroups, List.range_eq_range', ← List.zipIdx_map_snd 0 keys]
  exact (perm_flatMap_filter (fun x : Bytes × Nat => targetOf x.1)
    (groupKeys_spec targetOf keys).1 hcover).map _

theorem sorted_groupKeys (targetOf : Bytes -> Target) (keys : List Bytes) :
    Sorted targetOf keys (groupKeys targetOf keys) where
  partition := perm_positions targetOf keys
  increasing hg := by
    rw [positions_of_mem hg]
    exact pairwise_positionsFrom 0 _ keys
  distinct := (groupKeys_spec targetOf keys).1
  order := targets_groupKeys targetOf keys
  belongs := by
    intro g p hg hp
    rw [positions_of_mem hg, mem_positionsFrom] at hp
    rcases hp with ⟨_, key, hkey, htarget⟩
    rw [Nat.sub_zero] at hkey
    rw [hkey, Option.map_some, of_decide_eq_true htarget]

/-! ## Plans that split -/

variable {c : Command} {step : Nat} {table : Table} {fallback : Endpoint}
  {groups : List Group}

/-- Exactly those commands are split whose keys are complete and have more than
one target. -/
theorem plan_eq_split_iff :
    plan table fallback c = .ok (.split groups) <->
      exists step, c.keyLayout = .multi step ∧ c.checkArity = .ok () ∧
        2 ≤ groups.length ∧
        groups = groupKeys (Routing.targetOf table fallback) c.keys := by
  constructor
  · intro h
    cases harity : c.checkArity with
    | error e =>
        simp only [plan, harity] at h
        cases h
    | ok done =>
        cases hlayout : c.keyLayout with
        | keyless =>
            simp only [plan, harity, hlayout] at h
            cases h
        | single =>
            simp only [plan, harity, hlayout] at h
            split at h <;> cases h
        | multi step =>
            rcases plan_of_multi hlayout harity table fallback with
              ⟨g, _, hplan⟩ | ⟨hmany, hplan⟩
            · rw [hplan] at h
              cases h
            · rw [hplan] at h
              cases h
              refine ⟨step, rfl, rfl, ?_, rfl⟩
              -- There is a key, so there is a group, and it is not the only
              -- one.
              rcases List.exists_mem_of_ne_nil
                _ (keys_ne_nil_of_multi hlayout) with ⟨key, hkey⟩
              rcases exists_group (Routing.targetOf table fallback) hkey with
                ⟨g, hg, _⟩
              rcases hgroups :
                groupKeys (Routing.targetOf table fallback) c.keys with
                  _ | ⟨first, _ | ⟨second, rest⟩⟩
              · rw [hgroups] at hg
                cases hg
              · exact absurd hgroups (hmany first)
              · simp
  · rintro ⟨step, hmulti, harity, htwo, rfl⟩
    rcases plan_of_multi hmulti harity table fallback with
      ⟨g, honly, _⟩ | ⟨_, hplan⟩
    · rw [honly] at htwo
      exact absurd htwo (by simp)
    · exact hplan

/-! ## Parts -/

theorem getElem?_flatMap_of_length {α : Type} {f : Nat -> List α}
    {positions : List Nat}
    (hlength : forall p, p ∈ positions -> (f p).length = step) {i p j : Nat}
    (hp : positions[i]? = some p) (hj : j < step) :
    (positions.flatMap f)[i * step + j]? = (f p)[j]? := by
  induction positions generalizing i with
  | nil => cases hp
  | cons first rest ih =>
      have hfirst := hlength first List.mem_cons_self
      rw [List.flatMap_cons]
      cases i with
      | zero =>
          cases hp
          rw [Nat.zero_mul, Nat.zero_add, List.getElem?_append_left (by omega)]
      | succ i =>
          have hrest :=
            ih (fun q hq => hlength q (List.mem_cons_of_mem _ hq)) hp
          rw [Nat.succ_mul, List.getElem?_append_right (by omega),
            hfirst, ← hrest]
          congr 1
          omega

theorem length_flatMap_of_length {α : Type} {f : Nat -> List α}
    {positions : List Nat}
    (hlength : forall p, p ∈ positions -> (f p).length = step) :
    (positions.flatMap f).length = positions.length * step := by
  induction positions with
  | nil => exact (Nat.zero_mul step).symm
  | cons first rest ih =>
      rw [List.flatMap_cons, List.length_append,
        hlength first List.mem_cons_self,
        ih (fun q hq => hlength q (List.mem_cons_of_mem _ hq)),
        List.length_cons, Nat.succ_mul, Nat.add_comm]

theorem flatMap_argsOf (step : Nat) (args : List Bytes) :
    (Command.itemsOf step args).flatMap Command.argsOf = args := by
  induction args using Command.itemsOf.induct step with
  | case1 => rw [Command.itemsOf_nil, List.flatMap_nil]
  | case2 key rest ih =>
      rw [Command.itemsOf_cons, List.flatMap_cons, ih]
      show key :: (rest.take (step - 1) ++ rest.drop (step - 1)) = _
      rw [List.take_append_drop]

theorem length_keys_mul (hmulti : c.keyLayout = .multi step)
    (harity : c.checkArity = .ok ()) :
    c.keys.length * step = c.args.length := by
  have hstep := step_pos_of_multi hmulti
  have hmod := length_mod_of_multi hmulti harity
  rw [keys_of_multi hmulti, List.length_map]
  generalize c.args = args at hmod
  induction args using Command.itemsOf.induct step with
  | case1 =>
      rw [Command.itemsOf_nil, List.length_nil, List.length_nil, Nat.zero_mul]
  | case2 key rest ih =>
      rcases Command.length_drop_mod hstep hmod with ⟨hle, hrest⟩
      rw [Command.itemsOf_cons, List.length_cons, Nat.succ_mul, ih hrest,
        List.length_drop, List.length_cons]
      omega

/-- A command has just the arguments that another one has at some key
positions. -/
structure PartOf (c : Command) (step : Nat) (positions : List Nat)
    (part : Command) : Prop where
  nonempty : part.args ≠ []
  name : part.name = c.name
  layout : part.keyLayout = .multi step
  complete : part.checkArity = .ok ()
  length : part.args.length = positions.length * step
  /-- The key group with number `i` is the one at the position with number `i`,
  argument for argument. -/
  group : forall {i p j : Nat}, positions[i]? = some p -> j < step ->
    (part.args[i * step + j]?).isSome ∧
      part.args[i * step + j]? = c.args[p * step + j]?

theorem selectKeyGroups_of_multi (hmulti : c.keyLayout = .multi step)
    (positions : List Nat) :
    c.selectKeyGroups positions =
      ⟨c.name, positions.flatMap (Command.keyGroup step c.args)⟩ := by
  unfold Command.selectKeyGroups
  rw [hmulti]

theorem positions_ne_nil (hg : g ∈ groupKeys targetOf keys) :
    g.positions ≠ [] := by
  rcases mem_targets_groupKeys.mp (List.mem_map_of_mem hg) with
    ⟨key, hkey, htarget⟩
  rcases List.getElem?_of_mem hkey with ⟨p, hp⟩
  have hmem : p ∈ g.positions := by
    rw [positions_of_mem hg, mem_positionsFrom]
    exact ⟨Nat.zero_le p, key, hp, by simpa using htarget⟩
  exact List.ne_nil_of_mem hmem

theorem partOf_of_mem (hmulti : c.keyLayout = .multi step)
    (harity : c.checkArity = .ok ()) (hg : g ∈ groupKeys targetOf c.keys) :
    PartOf c step g.positions (c.selectKeyGroups g.positions) := by
  have hstep := step_pos_of_multi hmulti
  have hgroup (p : Nat) (hp : p ∈ g.positions) :
      p * step + step ≤ c.args.length ∧
        Command.keyGroup step c.args p =
          (c.args.drop (p * step)).take step := by
    have hroom : p * step + step ≤ c.args.length := by
      rw [← length_keys_mul hmulti harity, ← Nat.succ_mul]
      exact Nat.mul_le_mul_right step (positions_lt hg hp)
    exact ⟨hroom, if_pos hroom⟩
  have hblock (p : Nat) (hp : p ∈ g.positions) :
      (Command.keyGroup step c.args p).length = step := by
    rw [(hgroup p hp).2, List.length_take, List.length_drop]
    have hroom := (hgroup p hp).1
    omega
  have hlength := length_flatMap_of_length hblock
  have hargs : g.positions.flatMap (Command.keyGroup step c.args) ≠ [] := by
    rw [← List.length_pos_iff, hlength]
    exact Nat.mul_pos (List.length_pos_iff.mpr (positions_ne_nil hg)) hstep
  have hlayout := keyLayout_of_multi hmulti hargs
  rw [selectKeyGroups_of_multi hmulti]
  refine ⟨hargs, rfl, hlayout, ?_, hlength, fun {i p j} hp hj => ?_⟩
  · unfold Command.checkArity
    rw [hlayout]
    dsimp only
    rw [hlength, if_pos (Nat.mul_mod_left _ _)]
  · have hmem := List.mem_of_getElem? hp
    rcases hgroup p hmem with ⟨hroom, hblock'⟩
    have harg :
        (g.positions.flatMap (Command.keyGroup step c.args))[i * step + j]? =
          c.args[p * step + j]? := by
      rw [getElem?_flatMap_of_length hblock hp hj, hblock',
        List.getElem?_take_of_lt hj, List.getElem?_drop]
    refine ⟨?_, harg⟩
    rw [harg, List.getElem?_eq_getElem (by omega)]
    rfl

theorem perm_items (hmulti : c.keyLayout = .multi step)
    (harity : c.checkArity = .ok ()) (targetOf : Bytes -> Target) :
    ((groupKeys targetOf c.keys).flatMap
      (fun g => Command.itemsOf step (c.selectKeyGroups g.positions).args)).Perm
        (Command.itemsOf step c.args) := by
  have hgroups : (groupKeys targetOf c.keys).flatMap
        (fun g => Command.itemsOf step (c.selectKeyGroups g.positions).args) =
      ((groupKeys targetOf c.keys).map Group.target).flatMap (fun target =>
        (Command.itemsOf step c.args).filter
            (fun item => decide (targetOf item.1 = target))) := by
    rw [List.flatMap_map]
    apply List.flatMap_congr
    intro g hg
    rw [selectKeyGroups_of_multi hmulti]
    rw [keys_of_multi hmulti] at hg
    exact itemsOf_part (step_pos_of_multi hmulti)
      (length_mod_of_multi hmulti harity) hg
  rw [hgroups]
  refine perm_flatMap_filter (fun item : Item => targetOf item.1)
    (groupKeys_spec targetOf c.keys).1 ?_
  intro item hitem
  refine mem_targets_groupKeys.mpr ⟨item.1, ?_, rfl⟩
  rw [keys_of_multi hmulti]
  exact List.mem_map_of_mem hitem

/-- What a split makes of a command.  The positions of the keys are sorted by
target.  Every target gets one part, which has the name and the layout of the
command and the arguments of the group's positions, in their order.  All parts
together have the items of the command, each a key with its value, and so its
arguments. -/
theorem split_exact (hplan : plan table fallback c = .ok (.split groups)) :
    exists step, c.keyLayout = .multi step ∧ 2 ≤ groups.length ∧
      Sorted (Routing.targetOf table fallback) c.keys groups ∧
      List.Forall₂
        (fun g d => d.target = g.target ∧ PartOf c step g.positions d.command)
        groups
        (Session.deliveriesOf c (.split groups)) ∧
      ((Session.deliveriesOf c (.split groups)).flatMap
        (fun d => Command.itemsOf step d.command.args)).Perm
        (Command.itemsOf step c.args) ∧
      ((Session.deliveriesOf c (.split groups)).flatMap
        (fun d => d.command.args)).Perm c.args := by
  rcases plan_eq_split_iff.mp hplan with ⟨step, hmulti, harity, htwo, rfl⟩
  have hitems := perm_items hmulti harity (Routing.targetOf table fallback)
  refine ⟨step, hmulti, htwo, sorted_groupKeys _ c.keys, ?_, ?_, ?_⟩
  · unfold Session.deliveriesOf
    rw [List.forall₂_map_right_iff, List.forall₂_same]
    exact fun g hg => ⟨rfl, partOf_of_mem hmulti harity hg⟩
  · unfold Session.deliveriesOf
    rw [List.flatMap_map]
    exact hitems
  · have hargs := hitems.flatMap_right Command.argsOf
    rw [flatMap_argsOf, List.flatMap_assoc] at hargs
    unfold Session.deliveriesOf
    rw [List.flatMap_map]
    simp only [flatMap_argsOf] at hargs
    exact hargs

theorem groupKeys_oneOwned :
    groupKeys (Session.oneOwned [97]).targetOf [[97], [98], [97]] =
      [⟨.node "n1", [0, 2]⟩, ⟨.address "d" 2, [1]⟩] := by
  have ha : (Session.oneOwned [97]).targetOf [97] = .node "n1" := by
    rw [Session.targetOf_oneOwned, if_pos rfl]
  have hb : (Session.oneOwned [97]).targetOf [98] = .address "d" 2 := by
    rw [Session.targetOf_oneOwned, if_neg (by decide)]
  simp only [groupKeys, groupFrom, ha, hb]
  rfl

theorem plan_oneOwned {c : Command} {step : Nat}
    (hmulti : c.keyLayout = .multi step) (harity : c.checkArity = .ok ())
    (hkeys : c.keys = [[97], [98], [97]]) :
    plan (Session.oneOwned [97]).pool.table.table
      (Session.oneOwned [97]).fallback c =
      .ok (.split [⟨.node "n1", [0, 2]⟩, ⟨.address "d" 2, [1]⟩]) := by
  refine plan_eq_split_iff.mpr ⟨step, hmulti, harity, Nat.le_refl 2, ?_⟩
  rw [hkeys]
  exact groupKeys_oneOwned.symm

/-- An assignment to `a`, `b` and `a` again is split, and both parts keep the
keys with their values. -/
theorem split_exact_assigned :
    exists c : Command, c = ⟨"MSET", [[97], [1], [98], [2], [97], [3]]⟩ ∧
      plan (Session.oneOwned [97]).pool.table.table (.atAddress "d" 2) c =
        .ok (.split [⟨.node "n1", [0, 2]⟩, ⟨.address "d" 2, [1]⟩]) ∧
      Sorted (Session.oneOwned [97]).targetOf c.keys
        [⟨.node "n1", [0, 2]⟩, ⟨.address "d" 2, [1]⟩] ∧
      PartOf c 2 [0, 2] ⟨"MSET", [[97], [1], [97], [3]]⟩ ∧
        PartOf c 2 [1] ⟨"MSET", [[98], [2]]⟩ ∧
      ([[97], [1], [97], [3]] ++ [[98], [2]] : List Bytes).Perm c.args := by
  have hlayout : Command.keyLayout ⟨"MSET", [[97], [1], [98], [2], [97], [3]]⟩ =
      .multi 2 := by
    decide
  have hplan := plan_oneOwned hlayout (by decide) (by
    rw [keys_of_multi hlayout]
    simp [Command.itemsOf_cons, Command.itemsOf_nil])
  rcases split_exact hplan with ⟨step, hmulti, _, hsorted, hparts, _, hargs⟩
  cases hlayout.symm.trans hmulti
  rcases List.forall₂_cons.mp hparts with ⟨⟨_, hfirst⟩, hrest⟩
  rcases List.forall₂_cons.mp hrest with ⟨⟨_, hsecond⟩, _⟩
  exact ⟨_, rfl, hplan, hsorted, hfirst, hsecond, hargs⟩

end Routing
end SlotCluster
