import Mathlib.Data.List.Basic
import SlotCluster.Proofs.Routing.Grouping

/-!
# Parts of a command

The arguments of a command fall into items, each a key with what belongs to it.
Selecting key positions selects whole items, so the part of a command for one
target has the items of the keys of that target.
-/

namespace SlotCluster

abbrev Item := Bytes × List Bytes

namespace Command

/-- The items of a list of arguments every `step` of which belong together. -/
def itemsOf (step : Nat) (args : List Bytes) : List Item :=
  match args with
  | [] => []
  | key :: rest =>
      (key, rest.take (step - 1)) :: itemsOf step (rest.drop (step - 1))
termination_by args.length
decreasing_by
  simp only [List.length_drop, List.length_cons]
  omega

def argsOf (item : Item) : List Bytes :=
  item.1 :: item.2

theorem itemsOf_nil (step : Nat) : itemsOf step [] = [] := by
  rw [itemsOf]

theorem itemsOf_cons (step : Nat) (key : Bytes) (rest : List Bytes) :
    itemsOf step (key :: rest) = (key, rest.take (step - 1)) ::
      itemsOf step (rest.drop (step - 1)) := by
  rw [itemsOf]

theorem everyNth_eq_keys (step : Nat) (args : List Bytes) :
    everyNth step args = (itemsOf step args).map Prod.fst := by
  induction args using itemsOf.induct step with
  | case1 => rw [everyNth, itemsOf_nil, List.map_nil]
  | case2 key rest ih => rw [everyNth, itemsOf_cons, List.map_cons, ih]

theorem itemsOf_append {step : Nat} {item : Item} (h : item.2.length = step - 1)
    (more : List Bytes) :
    itemsOf step (argsOf item ++ more) = item :: itemsOf step more := by
  change itemsOf step (item.1 :: (item.2 ++ more)) = _
  rw [itemsOf_cons, ← h, List.take_left, List.drop_left]

variable {step : Nat} {args : List Bytes}

theorem length_drop_mod (hstep : 0 < step) {key : Bytes} {rest : List Bytes}
    (h : (key :: rest).length % step = 0) :
    step - 1 ≤ rest.length ∧ (rest.drop (step - 1)).length % step = 0 := by
  rcases Nat.dvd_of_mod_eq_zero h with ⟨count, hcount⟩
  rw [List.length_cons] at hcount
  cases count with
  | zero => omega
  | succ count =>
      rw [Nat.mul_succ] at hcount
      constructor
      · omega
      · rw [List.length_drop,
          show rest.length - (step - 1) = step * count by omega]
        exact Nat.mul_mod_right step count

theorem length_item (hstep : 0 < step) (h : args.length % step = 0)
    {item : Item} (hitem : item ∈ itemsOf step args) :
    item.2.length = step - 1 := by
  induction args using itemsOf.induct step with
  | case1 =>
      rw [itemsOf_nil] at hitem
      cases hitem
  | case2 key rest ih =>
      rcases length_drop_mod hstep h with ⟨hle, hmod⟩
      rw [itemsOf_cons, List.mem_cons] at hitem
      rcases hitem with hhead | htail
      · rw [hhead]
        exact List.length_take_of_le hle
      · exact ih hmod htail

theorem keyGroup_eq (hstep : 0 < step) (h : args.length % step = 0) (p : Nat) :
    keyGroup step args p = (((itemsOf step args)[p]?).map argsOf).getD [] := by
  induction args using itemsOf.induct step generalizing p with
  | case1 =>
      rw [itemsOf_nil]
      unfold keyGroup
      rw [if_neg (by simp; omega)]
      rfl
  | case2 key rest ih =>
      rcases length_drop_mod hstep h with ⟨hle, hmod⟩
      rw [itemsOf_cons]
      cases p with
      | zero =>
          unfold keyGroup
          rw [if_pos (by rw [List.length_cons]; omega), Nat.zero_mul,
            List.drop_zero]
          cases step with
          | zero => cases hstep
          | succ step => rfl
      | succ p =>
          rw [List.getElem?_cons_succ, ← ih hmod p]
          have hdrop : (key :: rest).drop ((p + 1) * step) =
              (rest.drop (step - 1)).drop (p * step) := by
            rw [List.drop_drop,
                show (p + 1) * step = (step - 1 + p * step) + 1 by
              rw [Nat.succ_mul]; omega]
            rfl
          have hlength : (p + 1) * step + step ≤ (key :: rest).length <->
              p * step + step ≤ (rest.drop (step - 1)).length := by
            rw [List.length_drop, List.length_cons, Nat.succ_mul]
            omega
          unfold keyGroup
          rw [hdrop]
          by_cases hroom : (p + 1) * step + step ≤ (key :: rest).length
          · rw [if_pos hroom, if_pos (hlength.mp hroom)]
          · rw [if_neg hroom, if_neg (fun hle => hroom (hlength.mpr hle))]

theorem itemsOf_select (hstep : 0 < step) (h : args.length % step = 0)
    (positions : List Nat) :
    itemsOf step (positions.flatMap (keyGroup step args)) =
      positions.filterMap (fun p => (itemsOf step args)[p]?) := by
  induction positions with
  | nil => exact itemsOf_nil step
  | cons p rest ih =>
      rw [List.flatMap_cons, keyGroup_eq hstep h]
      cases hitem : (itemsOf step args)[p]? with
      | none =>
          rw [List.filterMap_cons_none hitem]
          exact ih
      | some item =>
          rw [List.filterMap_cons_some hitem, ← ih]
          exact itemsOf_append
            (length_item hstep h (List.mem_of_getElem? hitem)) _

end Command

namespace Routing

theorem itemsOf_part {targetOf : Bytes -> Target} {step : Nat}
    {args : List Bytes} (hstep : 0 < step) (h : args.length % step = 0)
    {g : Group}
    (hg : g ∈ groupKeys targetOf ((Command.itemsOf step args).map Prod.fst)) :
    Command.itemsOf step (g.positions.flatMap (Command.keyGroup step args)) =
      (Command.itemsOf step args).filter
        (fun item => decide (targetOf item.1 = g.target)) := by
  rw [Command.itemsOf_select hstep h, positions_of_mem hg]
  have hlength : ((Command.itemsOf step args).map Prod.fst).length =
      (Command.itemsOf step args).length := List.length_map ..
  have hselected :=
    filterMap_positionsFrom
      (fun key => decide (targetOf key = g.target)) [] hlength
  refine hselected.trans ?_
  generalize Command.itemsOf step args = items
  induction items with
  | nil => rfl
  | cons item rest ih =>
      rw [List.map_cons, List.zip_cons_cons, List.filter_cons, List.filter_cons]
      by_cases htarget : targetOf item.1 = g.target
      · simp only [htarget, decide_true, if_true, List.map_cons, ih]
      · simp only [htarget, decide_false, Bool.false_eq_true, if_false, ih]

variable {c : Command} {step : Nat}

theorem keyLayout_of_multi (hmulti : c.keyLayout = .multi step)
    {args : List Bytes} (hargs : args ≠ []) :
    Command.keyLayout ⟨c.name, args⟩ = .multi step := by
  have hempty : args.isEmpty = false := List.isEmpty_eq_false_iff.mpr hargs
  unfold Command.keyLayout at hmulti ⊢
  rw [hempty]
  cases hfirst : c.args.isEmpty with
  | true =>
      rw [hfirst] at hmulti
      cases hmulti
  | false =>
      rw [hfirst] at hmulti
      exact hmulti

theorem step_pos_of_multi (hmulti : c.keyLayout = .multi step) : 0 < step := by
  unfold Command.keyLayout at hmulti
  split at hmulti
  · cases hmulti
  split at hmulti
  · cases hmulti
    decide
  split at hmulti
  · cases hmulti
    decide
  · cases hmulti

theorem keys_of_multi (hmulti : c.keyLayout = .multi step) :
    c.keys = (Command.itemsOf step c.args).map Prod.fst := by
  unfold Command.keys
  rw [hmulti]
  exact Command.everyNth_eq_keys step c.args

theorem keys_ne_nil_of_multi (hmulti : c.keyLayout = .multi step) :
    c.keys ≠ [] := by
  rw [keys_of_multi hmulti]
  cases hargs : c.args with
  | nil =>
      unfold Command.keyLayout at hmulti
      rw [hargs] at hmulti
      cases hmulti
  | cons first rest =>
      rw [Command.itemsOf_cons]
      exact List.cons_ne_nil _ _

theorem length_mod_of_multi (hmulti : c.keyLayout = .multi step)
    (harity : c.checkArity = .ok ()) : c.args.length % step = 0 := by
  unfold Command.checkArity at harity
  rw [hmulti] at harity
  by_contra hmod
  simp only [hmod, if_false] at harity
  cases harity

/-- The part of a command for a group has the keys of the target of the
group. -/
theorem keys_part {targetOf : Bytes -> Target}
    (hmulti : c.keyLayout = .multi step) (harity : c.checkArity = .ok ())
    {g : Group} (hg : g ∈ groupKeys targetOf c.keys) :
    (c.selectKeyGroups g.positions).keys =
      c.keys.filter (fun key => decide (targetOf key = g.target)) := by
  have hselected : c.selectKeyGroups g.positions =
      ⟨c.name, g.positions.flatMap (Command.keyGroup step c.args)⟩ := by
    unfold Command.selectKeyGroups
    rw [hmulti]
  have hitems :
    Command.itemsOf step (g.positions.flatMap (Command.keyGroup step c.args)) =
      (Command.itemsOf step c.args).filter
      (fun item => decide (targetOf item.1 = g.target)) :=
    itemsOf_part (step_pos_of_multi hmulti) (length_mod_of_multi hmulti harity)
      (keys_of_multi hmulti ▸ hg)
  have hkeys :
      (Command.itemsOf step
        (g.positions.flatMap (Command.keyGroup step c.args))).map Prod.fst =
          c.keys.filter (fun key => decide (targetOf key = g.target)) := by
    rw [hitems, keys_of_multi hmulti, List.filter_map]
    rfl
  -- A group has a key, so its part has arguments.
  have hargs : g.positions.flatMap (Command.keyGroup step c.args) ≠ [] := by
    intro hnone
    rcases mem_targets_groupKeys.mp (List.mem_map_of_mem hg) with
      ⟨key, hkey, htarget⟩
    rw [hnone, Command.itemsOf_nil, List.map_nil] at hkeys
    have hmem : key ∈
        c.keys.filter (fun key => decide (targetOf key = g.target)) :=
      List.mem_filter.mpr ⟨hkey, by simp [htarget]⟩
    rw [← hkeys] at hmem
    cases hmem
  rw [hselected, keys_of_multi (keyLayout_of_multi hmulti hargs)]
  exact hkeys

end Routing
end SlotCluster
