import Mathlib.Algebra.GroupWithZero.Nat
import Mathlib.Data.List.Basic
import SlotCluster.Proofs.Routing.Grouping
import SlotCluster.Routing.Merge

/-!
# Merged replies

What the merge rules make of replies of the right shape: arrays are put back in
the order of the whole command, and numbers of parts add up to the number of the
whole.
-/

namespace SlotCluster
namespace Routing

open Resp (Value)

theorem values_ok {α : Type} {reply : α -> Value}
    (h : forall part, (reply part).isError = false) (parts : List α) :
    values ((parts.map reply).map Except.ok) = .ok (parts.map reply) := by
  induction parts with
  | nil => rfl
  | cons part rest ih =>
      have hpart := h part
      rw [List.map_cons, List.map_cons]
      generalize reply part = v at hpart
      cases v with
      | error text => cases hpart
      | _ =>
          rw [values, ih]
          · rfl
          · intro text htext
            cases htext

/-! ## Arrays -/

@[simp]
theorem length_place (merged : List Value) (items : List (Value × Nat)) :
    (place merged items).length = merged.length := by
  induction items generalizing merged with
  | nil => rfl
  | cons item rest ih => rw [place, ih, List.length_set]

def pick (whole : List Value) (positions : List Nat) : List Value :=
  positions.filterMap (fun p => whole[p]?)

theorem pick_cons {whole : List Value} {p : Nat} {v : Value}
    (h : whole[p]? = some v) (rest : List Nat) :
    pick whole (p :: rest) = v :: pick whole rest :=
  List.filterMap_cons_some h

theorem length_pick {whole : List Value} {positions : List Nat}
    (h : forall p, p ∈ positions -> p < whole.length) :
    (pick whole positions).length = positions.length := by
  induction positions with
  | nil => rfl
  | cons p rest ih =>
      have hp := List.getElem?_eq_getElem (h p List.mem_cons_self)
      rw [pick_cons hp, List.length_cons, List.length_cons,
        ih (fun q hq => h q (List.mem_cons_of_mem _ hq))]

theorem getElem?_place {whole merged : List Value} {positions : List Nat}
    (hlength : merged.length = whole.length)
    (h : forall p, p ∈ positions -> p < whole.length) (q : Nat) :
    (place merged ((pick whole positions).zip positions))[q]? =
      if q ∈ positions then whole[q]? else merged[q]? := by
  induction positions generalizing merged with
  | nil => simp [pick, place]
  | cons p rest ih =>
      have hp := h p List.mem_cons_self
      rw [pick_cons (List.getElem?_eq_getElem hp), List.zip_cons_cons, place,
        ih (by rw [List.length_set]; exact hlength)
          (fun r hr => h r (List.mem_cons_of_mem _ hr))]
      by_cases hq : q ∈ rest
      · rw [if_pos hq, if_pos (List.mem_cons_of_mem _ hq)]
      · rw [if_neg hq]
        by_cases hqp : q = p
        · subst hqp
          rw [if_pos List.mem_cons_self,
            List.getElem?_set_self (by rw [hlength]; exact hp)]
          exact (List.getElem?_eq_getElem hp).symm
        · rw [List.getElem?_set_ne (Ne.symm hqp), if_neg]
          rw [List.mem_cons, not_or]
          exact ⟨hqp, hq⟩

/-- Arrays that hold the values of their positions are put together to the
whole. -/
theorem mergeItems_pick (name : String) {whole merged : List Value}
    {parts : List (List Nat)} (hlength : merged.length = whole.length)
    (hparts : forall positions, positions ∈ parts ->
      forall p, p ∈ positions -> p < whole.length)
    (hcover : forall q, q < whole.length ->
      (exists positions, positions ∈ parts ∧ q ∈ positions) ∨
        merged[q]? = whole[q]?) :
    mergeItems name merged
      (parts.map (fun positions =>
        (.array (pick whole positions), positions))) = .ok (.array whole) := by
  induction parts generalizing merged with
  | nil =>
      rw [List.map_nil, mergeItems]
      congr 2
      apply List.ext_getElem?
      intro q
      by_cases hq : q < whole.length
      · rcases hcover q hq with ⟨positions, hmem, _⟩ | hsame
        · cases hmem
        · exact hsame
      · rw [List.getElem?_eq_none (by omega), List.getElem?_eq_none (by omega)]
  | cons positions rest ih =>
      have hin := hparts positions List.mem_cons_self
      rw [List.map_cons, mergeItems, if_pos (length_pick hin)]
      apply ih
      · rw [length_place]
        exact hlength
      · exact fun other hother => hparts other (List.mem_cons_of_mem _ hother)
      · intro q hq
        rw [getElem?_place hlength hin]
        by_cases hmem : q ∈ positions
        · rw [if_pos hmem]
          exact Or.inr rfl
        · rw [if_neg hmem]
          rcases hcover q hq with ⟨other, hother, hqo⟩ | hsame
          · rcases List.mem_cons.mp hother with heq | hrest
            · exact absurd (heq ▸ hqo) hmem
            · exact Or.inl ⟨other, hrest, hqo⟩
          · exact Or.inr hsame

/-!
## Statuses and numbers

Sorting items by class loses none of them, and counting by classes counts every
item once.
-/

theorem mergeStatuses_ok (name : String) {α : Type} (parts : List α) :
    mergeStatuses name (parts.map (fun _ => .ok)) = .ok .ok := by
  induction parts with
  | nil => rfl
  | cons part rest ih =>
      rw [List.map_cons, mergeStatuses]
      exact ih

theorem integers_map (name : String) {α : Type} (number : α -> Int64)
    (parts : List α) :
    integers name (parts.map (fun part => .integer (number part))) =
      .ok (parts.map number) := by
  induction parts with
  | nil => rfl
  | cons part rest ih =>
      rw [List.map_cons, integers, ih]
      rfl

theorem foldl_ofNat {α : Type} (number : α -> Nat) (parts : List α)
    (sum : Nat) :
    (parts.map (fun part => Int64.ofNat (number part))).foldl (· + ·)
      (Int64.ofNat sum) = Int64.ofNat (sum + (parts.map number).sum) := by
  induction parts generalizing sum with
  | nil => rfl
  | cons part rest ih =>
      rw [List.map_cons, List.foldl_cons, ← Int64.ofNat_add, ih, List.map_cons,
        List.sum_cons, Nat.add_assoc]

theorem perm_flatMap_filter {α β : Type} [DecidableEq β] (classOf : α -> β)
    {classes : List β} (hnodup : classes.Nodup) {items : List α}
    (hcover : forall a, a ∈ items -> classOf a ∈ classes) :
    (classes.flatMap
      (fun b => items.filter (fun a => decide (classOf a = b)))).Perm
        items := by
  induction classes generalizing items with
  | nil =>
      rw [List.eq_nil_iff_forall_not_mem.mpr
        (fun a ha => List.not_mem_nil (hcover a ha))]
      exact List.Perm.refl _
  | cons b rest ih =>
      rw [List.nodup_cons] at hnodup
      -- The items of the first class are apart from those of the others.
      have hothers :
          rest.flatMap
            (fun other => items.filter (fun a => decide (classOf a = other))) =
            rest.flatMap
              (fun other =>
                (items.filter (fun a => !decide (classOf a = b))).filter
                  (fun a => decide (classOf a = other))) := by
        apply List.flatMap_congr
        intro other hother
        rw [List.filter_filter]
        apply List.filter_congr
        intro a _
        by_cases ha : classOf a = other
        · have hne : other ≠ b := fun h => hnodup.1 (h ▸ hother)
          simp [ha, hne]
        · simp [ha]
      have hrest := @ih hnodup.2
          (items.filter (fun a => !decide (classOf a = b))) (by
        intro a ha
        rcases List.mem_filter.mp ha with ⟨hmem, hne⟩
        exact (List.mem_cons.mp (hcover a hmem)).resolve_left
          (by simpa using hne))
      rw [List.flatMap_cons, hothers]
      exact (hrest.append_left _).trans (List.filter_append_perm _ items)

theorem sum_countP_classes {α : Type} (Q : α -> Bool) (classOf : α -> Target)
    {classes : List Target} (hnodup : classes.Nodup) (items : List α)
    (hcover : forall a, a ∈ items -> classOf a ∈ classes) :
    (classes.map
      (fun target =>
        (items.filter (fun a => decide (classOf a = target))).countP Q)).sum =
          items.countP Q := by
  rw [← (perm_flatMap_filter classOf hnodup hcover).countP_eq,
    List.countP_flatMap]
  rfl

/-! ## Rules of the commands -/

theorem merge_arrays (keyCount : Nat) {α : Type} (items : α -> List Value)
    (positionsOf : α -> List Nat) (parts : List α) :
    merge "MGET" keyCount (parts.map positionsOf)
        ((parts.map (fun part => Value.array (items part))).map Except.ok) =
      mergeItems "MGET" (List.replicate keyCount .null)
        (parts.map (fun part => (.array (items part), positionsOf part))) := by
  unfold merge
  rw [values_ok (fun _ => rfl)]
  change mergeItems _ _ (List.zip _ _) = _
  rw [List.zip_map']

theorem merge_statuses (keyCount : Nat) (positions : List (List Nat)) {α : Type}
    (parts : List α) :
    merge "MSET" keyCount positions
      ((parts.map (fun _ => Value.ok)).map Except.ok) = .ok .ok := by
  unfold merge
  rw [values_ok (fun _ => rfl)]
  exact mergeStatuses_ok "MSET" parts

theorem merge_numbers {name : String}
    (hname : name ≠ "MGET" ∧ name ≠ "MSET" ∧ name ≠ "MSETNX") (keyCount : Nat)
    (positions : List (List Nat)) {α : Type} (number : α -> Nat)
    (parts : List α) :
    merge name keyCount positions
        ((parts.map (fun part => Value.integer (Int64.ofNat (number part)))).map
          Except.ok) =
      .ok (.integer (Int64.ofNat (parts.map number).sum)) := by
  unfold merge
  rw [values_ok (fun _ => rfl)]
  dsimp only
  rw [if_neg hname.1, if_neg hname.2.1, if_neg hname.2.2,
    integers_map name (fun part => Int64.ofNat (number part))]
  have hsum := foldl_ofNat number parts 0
  rw [Nat.zero_add] at hsum
  exact congrArg (fun n => Except.ok (Value.integer n)) hsum

theorem merge_refusals (keyCount : Nat) (positions : List (List Nat)) {α : Type}
    (refuses : α -> Bool) (parts : List α) :
    merge "MSETNX" keyCount positions
        ((parts.map (fun part =>
          Value.integer (if refuses part then 0 else 1))).map Except.ok) =
      .ok (.integer (if parts.any refuses then 0 else 1)) := by
  have hone : forall b : Bool,
    ((if b then (0 : Int64) else 1) == 1) = !b := by decide
  have hall :
      (parts.map (fun part => if refuses part then (0 : Int64) else 1)).all
        (fun n => n == 1) = !parts.any refuses := by
    rw [List.all_map, List.not_any_eq_all_not]
    congr 1
    funext part
    exact hone (refuses part)
  unfold merge
  rw [values_ok (fun _ => rfl)]
  change (integers "MSETNX" _).map _ = _
  rw [integers_map]
  change Except.ok (Value.integer (if List.all _ _ = true then 1 else 0)) = _
  rw [hall]
  cases parts.any refuses <;> rfl

end Routing
end SlotCluster
