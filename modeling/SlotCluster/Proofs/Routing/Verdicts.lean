import Mathlib.Algebra.Ring.Int.Defs
import Mathlib.Data.FinEnum
import Mathlib.Data.List.Permutation
import SlotCluster.Proofs.Client.Dispatches
import SlotCluster.Proofs.Routing.Owners
import SlotCluster.Proofs.Routing.Splitting

/-!
# What the outcomes of parts come to

The reply to a split command is a function of the outcomes of its parts in the
order of the groups, whatever the order in which the parts have ended.  A part
that has failed counts before a reply of the wrong shape, and among several the
first counts.  If nothing is wrong, every item of every reply is in the merged
reply once.
-/

namespace SlotCluster
namespace Routing

open Resp (Value)

/-! ## The first item that has something to say -/

section First

variable {α β : Type} {f : α -> Option β} {items : List α} {b : β}

/-- The first item for which `f` has a value has the value `b`. -/
def First (f : α -> Option β) (items : List α) (b : β) : Prop :=
  exists before a after, items = before ++ a :: after ∧ f a = some b ∧
    forall x, x ∈ before -> f x = none

theorem first_iff : First f items b <-> items.findSome? f = some b :=
  List.findSome?_eq_some_iff.symm

theorem not_first_nil : ¬ First f [] b := by
  rw [first_iff]
  exact nofun

theorem first_cons {a : α} :
    First f (a :: items) b <-> f a = some b ∨ f a = none ∧ First f items b := by
  rw [first_iff, first_iff, List.findSome?_cons]
  cases f a <;> simp

theorem exists_first (h : exists a, a ∈ items ∧ (f a).isSome) :
    exists b, First f items b := by
  rcases h with ⟨a, ha, hsome⟩
  cases hfound : items.findSome? f with
  | some b => exact ⟨b, first_iff.mpr hfound⟩
  | none =>
      rw [List.findSome?_eq_none_iff.mp hfound a ha] at hsome
      cases hsome

end First

/-! ## Failures -/

/-- How the outcome of a part makes the whole command fail.  An error reply is a
failure, too. -/
def failure? : Except ClusterError Value -> Option ClusterError
  | .error e => some e
  | .ok (.error text) => some (.command text)
  | .ok _ => none

variable {outcome : Except ClusterError Value}
  {outcomes : List (Except ClusterError Value)} {e : ClusterError} {v : Value}
  {replies merged : List Value}

theorem values_cons_of_failure (h : failure? outcome = some e)
    (rest : List (Except ClusterError Value)) :
    values (outcome :: rest) = .error e := by
  rcases outcome with d | v
  · cases h
    rfl
  · cases v <;> cases h
    rfl

theorem values_cons_of_reply (h : failure? (.ok v) = none)
    (rest : List (Except ClusterError Value)) :
    values (.ok v :: rest) =
      (values rest).map (fun replies => v :: replies) := by
  cases v <;> first | rfl | cases h

theorem values_of_first (h : First failure? outcomes e) :
    values outcomes = .error e := by
  induction outcomes with
  | nil => exact absurd h not_first_nil
  | cons outcome rest ih =>
      rcases first_cons.mp h with hfailure | ⟨hreply, hrest⟩
      · exact values_cons_of_failure hfailure rest
      · rcases outcome with d | v
        · cases hreply
        · rw [values_cons_of_reply hreply, ih hrest]
          rfl

theorem values_of_replies
    (h : forall outcome, outcome ∈ outcomes -> failure? outcome = none) :
    exists replies, outcomes = replies.map Except.ok ∧
      values outcomes = .ok replies := by
  induction outcomes with
  | nil => exact ⟨[], rfl, rfl⟩
  | cons outcome rest ih =>
      have hfirst := h outcome List.mem_cons_self
      rcases ih (fun other hother =>
        h other (List.mem_cons_of_mem _ hother)) with
          ⟨replies, hreplies, hvalues⟩
      rcases outcome with d | v
      · cases hfirst
      · refine ⟨v :: replies, by rw [hreplies, List.map_cons], ?_⟩
        rw [values_cons_of_reply hfirst, hvalues]
        rfl

/-! ## Shapes -/

def fits (name : String) (keyCount : Nat) : Value -> Bool
  | .array items => decide (name = "MGET" ∧ items.length = keyCount)
  | .simple text => decide (name = "MSET" ∧ text = [0x4F, 0x4B])
  | .integer _ => decide (name ≠ "MGET" ∧ name ≠ "MSET")
  | _ => false

def complaint (name : String) (keyCount : Nat) : Value -> String
  | .array items =>
      if name = "MGET" then
        name ++ " returned " ++ toString items.length ++ " values for " ++
          toString keyCount ++ " keys"
      else
        name ++ ": " ++ (Value.array items).describe
  | v => name ++ ": " ++ v.describe

/-- What is wrong with a reply to the part for some key positions. -/
def misfit? (name : String) (x : Value × List Nat) : Option ClusterError :=
  if fits name x.2.length x.1 then
    none
  else
    some (.unexpectedReply (complaint name x.2.length x.1))

variable {name : String} {x : Value × List Nat}
  {pairs : List (Value × List Nat)}

theorem fits_of_misfit? (h : misfit? name x = none) :
    fits name x.2.length x.1 = true := by
  unfold misfit? at h
  split at h
  · assumption
  · cases h

theorem misfit?_eq_some (h : misfit? name x = some e) :
    fits name x.2.length x.1 = false ∧
      e = .unexpectedReply (complaint name x.2.length x.1) := by
  unfold misfit? at h
  split at h
  · cases h
  · rename_i hfits
    cases h
    exact ⟨Bool.eq_false_iff.mpr hfits, rfl⟩

theorem array_of_fits {count : Nat} (h : fits "MGET" count v = true) :
    exists items, v = .array items ∧ items.length = count := by
  cases v with
  | array items => exact ⟨items, rfl, by simpa [fits] using h⟩
  | _ => simp [fits] at h

theorem ok_of_fits {count : Nat}
    (h : fits "MSET" count v = true) : v = .ok := by
  cases v with
  | simple text => exact congrArg Value.simple (by simpa [fits] using h)
  | _ => simp [fits] at h

theorem integer_of_fits {count : Nat} (hname : name ≠ "MGET" ∧ name ≠ "MSET")
    (h : fits name count v = true) : exists n, v = .integer n := by
  cases v with
  | integer n => exact ⟨n, rfl⟩
  | _ => simp [fits, hname] at h

theorem complaint_of_ne (hname : name ≠ "MGET") (count : Nat) (v : Value) :
    complaint name count v = name ++ ": " ++ v.describe := by
  cases v with
  | array items => exact if_neg hname
  | _ => rfl

/-! ## Replies of the wrong shape -/

theorem mergeItems_of_first (h : First (misfit? "MGET") pairs e)
    (merged : List Value) : mergeItems "MGET" merged pairs = .error e := by
  induction pairs generalizing merged with
  | nil => exact absurd h not_first_nil
  | cons x rest ih =>
      rcases x with ⟨v, positions⟩
      rcases first_cons.mp h with hmisfit | ⟨hfit, hrest⟩
      · rcases misfit?_eq_some hmisfit with ⟨hfits, rfl⟩
        cases v with
        | array items =>
            have hlength : items.length ≠ positions.length := by
              simpa [fits] using hfits
            rw [mergeItems, if_neg hlength]
            rfl
        | _ => rfl
      · rcases array_of_fits (fits_of_misfit? hfit) with ⟨items, rfl, hlength⟩
        rw [mergeItems, if_pos hlength]
        exact ih hrest _

theorem mergeStatuses_of_first (h : First (misfit? "MSET") pairs e) :
    mergeStatuses "MSET" (pairs.map Prod.fst) = .error e := by
  induction pairs with
  | nil => exact absurd h not_first_nil
  | cons x rest ih =>
      rw [List.map_cons, mergeStatuses]
      rcases first_cons.mp h with hmisfit | ⟨hfit, hrest⟩
      · rcases misfit?_eq_some hmisfit with ⟨hfits, rfl⟩
        have hok : ¬ x.1.isOk = true := by
          cases hv : x.1 with
          | simple text =>
              rw [hv] at hfits
              simpa [fits, Value.isOk] using hfits
          | _ => simp [Value.isOk]
        rw [if_neg hok, complaint_of_ne (by decide)]
        rfl
      · rw [ok_of_fits (fits_of_misfit? hfit), if_pos (by rfl)]
        exact ih hrest

theorem integers_of_first (hname : name ≠ "MGET" ∧ name ≠ "MSET")
    (h : First (misfit? name) pairs e) :
    integers name (pairs.map Prod.fst) = .error e := by
  induction pairs with
  | nil => exact absurd h not_first_nil
  | cons x rest ih =>
      rw [List.map_cons]
      rcases first_cons.mp h with hmisfit | ⟨hfit, hrest⟩
      · rcases misfit?_eq_some hmisfit with ⟨hfits, rfl⟩
        rw [complaint_of_ne hname.1]
        cases hv : x.1 with
        | integer n =>
            rw [hv] at hfits
            simp [fits, hname] at hfits
        | _ =>
            rw [integers]
            · rfl
            · intro n hn
              cases hn
      · rcases integer_of_fits hname (fits_of_misfit? hfit) with ⟨n, hn⟩
        rw [hn, integers, ih hrest]
        rfl

/-! ## Items that are put at their positions -/

@[simp]
theorem place_append (merged : List Value) (first second : List (Value × Nat)) :
    place merged (first ++ second) = place (place merged first) second := by
  induction first generalizing merged with
  | nil => rfl
  | cons x rest ih => rw [List.cons_append, place, ih, place]

theorem getElem?_place_of_not_mem {placed : List (Value × Nat)} {p : Nat}
    (hp : p ∉ placed.map Prod.snd) (merged : List Value) :
    (place merged placed)[p]? = merged[p]? := by
  induction placed generalizing merged with
  | nil => rfl
  | cons x rest ih =>
      rw [List.map_cons, List.mem_cons, not_or] at hp
      rw [place, ih hp.2, List.getElem?_set_ne (Ne.symm hp.1)]

theorem getElem?_place_of_mem {placed : List (Value × Nat)}
    (hnodup : (placed.map Prod.snd).Nodup) {p : Nat} (hmem : (v, p) ∈ placed)
    {merged : List Value} (hp : p < merged.length) :
    (place merged placed)[p]? = some v := by
  induction placed generalizing merged with
  | nil => cases hmem
  | cons x rest ih =>
      rw [List.map_cons, List.nodup_cons] at hnodup
      rcases List.mem_cons.mp hmem with rfl | hrest
      · rw [place, getElem?_place_of_not_mem hnodup.1,
          List.getElem?_set_self hp]
      · exact ih hnodup.2 hrest (by rw [List.length_set]; exact hp)

theorem perm_place {placed : List (Value × Nat)}
    (hperm : (placed.map Prod.snd).Perm (List.range merged.length)) :
    (placed.map Prod.fst).Perm (place merged placed) := by
  have hnodup : (placed.map Prod.snd).Nodup :=
    hperm.nodup_iff.mpr List.nodup_range
  have hitems : placed.map Prod.fst =
      (placed.map Prod.snd).map
        (fun p => ((place merged placed)[p]?).getD .null) := by
    rw [List.map_map]
    apply List.map_congr_left
    rintro ⟨v, p⟩ hmem
    have hp : p < merged.length :=
      List.mem_range.mp
        (hperm.mem_iff.mp (List.mem_map_of_mem (f := Prod.snd) hmem))
    rw [Function.comp_apply, getElem?_place_of_mem hnodup hmem hp,
      Option.getD_some]
  have hwhole :
      (List.range merged.length).map
        (fun p => ((place merged placed)[p]?).getD .null) =
        place merged placed := by
    apply List.ext_getElem?
    intro p
    rw [List.getElem?_map]
    by_cases hp : p < merged.length
    · rw [List.getElem?_range hp, Option.map_some,
        List.getElem?_eq_getElem (by rw [length_place]; exact hp)]
      rfl
    · rw [List.getElem?_eq_none (by rw [List.length_range]; omega),
        List.getElem?_eq_none (by rw [length_place]; omega)]
      rfl
  rw [hitems]
  exact (hperm.map _).trans (List.Perm.of_eq hwhole)

theorem mergeItems_of_fits (h : forall x, x ∈ pairs -> misfit? "MGET" x = none)
    (merged : List Value) :
    exists parts : List (List Value × List Nat),
      pairs = parts.map (fun part => (.array part.1, part.2)) ∧
      (forall part, part ∈ parts -> part.1.length = part.2.length) ∧
      mergeItems "MGET" merged pairs =
        .ok
          (.array
            (place merged
              (parts.flatMap (fun part => part.1.zip part.2)))) := by
  induction pairs generalizing merged with
  | nil => exact ⟨[], rfl, nofun, rfl⟩
  | cons x rest ih =>
      rcases x with ⟨v, positions⟩
      rcases array_of_fits (fits_of_misfit? (h _ List.mem_cons_self)) with
        ⟨items, rfl, hlength⟩
      rcases ih (fun x hx => h x (List.mem_cons_of_mem _ hx))
          (place merged (items.zip positions)) with
        ⟨parts, rfl, hlengths, hmerged⟩
      refine ⟨(items, positions) :: parts, rfl,
        List.forall_mem_cons.mpr ⟨hlength, hlengths⟩, ?_⟩
      rw [mergeItems, if_pos hlength, hmerged, List.flatMap_cons, place_append]

/-! ## The merged reply -/

/-- A reply to which every part of a command contributes all that it has been
answered. -/
inductive Combined (groups : List Group) (keyCount : Nat)
    (replies : List Value) : String -> Value -> Prop where
  /-- Each value stands at the position of its key, and the values of all the
  arrays are there once. -/
  | arrays (parts : List (List Value)) (whole : List Value)
      (arrived : replies = parts.map Value.array)
      (length : whole.length = keyCount)
      (item : forall {i j p : Nat} {g : Group} {items : List Value},
        groups[i]? = some g -> parts[i]? = some items ->
        g.positions[j]? = some p ->
          exists v, items[j]? = some v ∧ whole[p]? = some v)
      (all : parts.flatten.Perm whole) :
      Combined groups keyCount replies "MGET" (.array whole)
  | statuses (all : forall v, v ∈ replies -> v = .ok) :
      Combined groups keyCount replies "MSET" .ok
  | refusals (numbers : List Int64)
      (arrived : replies = numbers.map Value.integer) :
      Combined groups keyCount replies "MSETNX"
        (.integer (if forall n, n ∈ numbers -> n = 1 then 1 else 0))
  /-- Numbers are added as integers of 64 bits. -/
  | counts (name : String) (numbers : List Int64) (total : Int64)
      (other : name ≠ "MGET" ∧ name ≠ "MSET" ∧ name ≠ "MSETNX")
      (arrived : replies = numbers.map Value.integer)
      (sum : total.toInt = (numbers.map Int64.toInt).sum.bmod (2 ^ 64)) :
      Combined groups keyCount replies name (.integer total)

structure Merged (name : String) (groups : List Group) (keyCount : Nat)
    (replies : List Value) (result : Except ClusterError Value) : Prop where
  /-- The first reply of the wrong shape counts. -/
  misshapen : (exists x, x ∈ replies.zip (groups.map Group.positions) ∧
    (misfit? name x).isSome) ->
      exists e, First (misfit? name) (replies.zip (groups.map Group.positions))
        e ∧ result = .error e
  combined : (forall x, x ∈ replies.zip (groups.map Group.positions) ->
    misfit? name x = none) ->
      exists whole,
        result = .ok whole ∧ Combined groups keyCount replies name whole

structure Verdict (name : String) (groups : List Group) (keyCount : Nat)
    (outcomes : List (Except ClusterError Value))
    (result : Except ClusterError Value) : Prop where
  /-- The first failure counts, whatever the other outcomes are. -/
  failed : (exists outcome, outcome ∈ outcomes ∧ (failure? outcome).isSome) ->
    exists e, First failure? outcomes e ∧ result = .error e
  answered : (forall outcome, outcome ∈ outcomes -> failure? outcome = none) ->
    exists replies, outcomes = replies.map Except.ok ∧
      Merged name groups keyCount replies result

variable {targetOf : Bytes -> Target} {keys : List Bytes} {groups : List Group}
  {positions : List (List Nat)}

theorem merge_of_values (hvalues : values outcomes = .ok replies)
    (name : String) (keyCount : Nat) (positions : List (List Nat)) :
    merge name keyCount positions outcomes =
      if name = "MGET" then mergeItems name (List.replicate keyCount .null)
        (replies.zip positions)
      else if name = "MSET" then mergeStatuses name replies
      else if name = "MSETNX" then
        (integers name replies).map
          (fun numbers => .integer (if numbers.all (· == 1) then 1 else 0))
      else (integers name replies).map
        (fun numbers => .integer (numbers.foldl (· + ·) 0)) := by
  unfold merge
  rw [hvalues]

theorem merge_of_misfit (hvalues : values outcomes = .ok replies)
    (hlength : replies.length = positions.length)
    (h : First (misfit? name) (replies.zip positions) e) (keyCount : Nat) :
    merge name keyCount positions outcomes = .error e := by
  have hreplies : replies = (replies.zip positions).map Prod.fst :=
    (List.map_fst_zip (Nat.le_of_eq hlength)).symm
  rw [merge_of_values hvalues]
  by_cases hget : name = "MGET"
  · subst hget
    rw [if_pos rfl]
    exact mergeItems_of_first h _
  · rw [if_neg hget]
    by_cases hset : name = "MSET"
    · subst hset
      rw [if_pos rfl, hreplies]
      exact mergeStatuses_of_first h
    · rw [if_neg hset, hreplies, integers_of_first ⟨hget, hset⟩ h]
      split <;> rfl

theorem combined_arrays (hsorted : Sorted targetOf keys groups)
    (hlength : replies.length = groups.length)
    (h : forall x, x ∈ replies.zip (groups.map Group.positions) ->
      misfit? "MGET" x = none) :
    exists whole,
      mergeItems "MGET" (List.replicate keys.length .null)
        (replies.zip (groups.map Group.positions)) =
        .ok whole ∧ Combined groups keys.length replies "MGET" whole := by
  rcases mergeItems_of_fits h (List.replicate keys.length .null) with
    ⟨parts, hpairs, hlengths, hmerged⟩
  have hzip : replies.length = (groups.map Group.positions).length := by
    rw [List.length_map, hlength]
  have hreplies : replies = (parts.map Prod.fst).map Value.array := by
    have hfst := List.map_fst_zip (Nat.le_of_eq hzip)
    rw [hpairs, List.map_map] at hfst
    rw [← hfst, List.map_map]
    rfl
  have hpositions : groups.map Group.positions = parts.map Prod.snd := by
    have hsnd := List.map_snd_zip (Nat.le_of_eq hzip.symm)
    rw [hpairs, List.map_map] at hsnd
    exact hsnd.symm
  have hplaced :
      ((parts.flatMap (fun part => part.1.zip part.2)).map Prod.snd).Perm
        (List.range keys.length) := by
    have hflat : (parts.flatMap (fun part => part.1.zip part.2)).map Prod.snd =
        parts.flatMap Prod.snd := by
      rw [List.map_flatMap]
      exact List.flatMap_congr
        (fun part hpart =>
          List.map_snd_zip (Nat.le_of_eq (hlengths part hpart).symm))
    rw [hflat, List.flatMap_def, ← hpositions, ← List.flatMap_def]
    exact hsorted.partition
  have hroom : (List.range (List.replicate keys.length Value.null).length) =
      List.range keys.length := by
    rw [List.length_replicate]
  refine ⟨_, hmerged, .arrays (parts.map Prod.fst) _ hreplies ?_ ?_ ?_⟩
  · rw [length_place, List.length_replicate]
  · intro i j p g items hg hitems hp
    have hpart : parts[i]? = some (items, g.positions) := by
      have hsecond : (parts.map Prod.snd)[i]? = some g.positions := by
        rw [← hpositions, List.getElem?_map, hg, Option.map_some]
      rw [List.getElem?_map, Option.map_eq_some_iff] at hitems hsecond
      rcases hitems with ⟨part, hpart, rfl⟩
      rcases hsecond with ⟨other, hother, hsnd⟩
      rw [hpart, Option.some.injEq] at hother
      rw [hpart, ← hsnd, hother]
    have hmem := List.mem_of_getElem? hpart
    have hj : j < items.length := by
      rw [hlengths _ hmem]
      exact (List.getElem?_eq_some_iff.mp hp).1
    have hitem :
        (items[j], p) ∈ parts.flatMap (fun part => part.1.zip part.2) := by
      refine List.mem_flatMap.mpr ⟨_, hmem, List.mem_of_getElem? (i := j) ?_⟩
      rw [List.getElem?_zip_eq_some]
      exact ⟨List.getElem?_eq_getElem hj, hp⟩
    refine ⟨items[j], List.getElem?_eq_getElem hj, ?_⟩
    apply getElem?_place_of_mem (hplaced.nodup_iff.mpr List.nodup_range) hitem
    rw [List.length_replicate]
    exact List.mem_range.mp (hplaced.mem_iff.mp (List.mem_map_of_mem hitem))
  · have hflat : (parts.map Prod.fst).flatten =
        (parts.flatMap (fun part => part.1.zip part.2)).map Prod.fst := by
      rw [List.map_flatMap, ← List.flatMap_def]
      exact List.flatMap_congr
        (fun part hpart =>
          (List.map_fst_zip (Nat.le_of_eq (hlengths part hpart))).symm)
    rw [hflat]
    exact perm_place (hplaced.trans (List.Perm.of_eq hroom.symm))

theorem exists_integers
    (h : forall v, v ∈ replies -> exists n, v = Value.integer n) :
    exists numbers : List Int64, replies = numbers.map Value.integer := by
  induction replies with
  | nil => exact ⟨[], rfl⟩
  | cons v rest ih =>
      rcases h v List.mem_cons_self with ⟨n, rfl⟩
      rcases ih (fun w hw => h w (List.mem_cons_of_mem _ hw)) with
        ⟨numbers, rfl⟩
      exact ⟨n :: numbers, rfl⟩

theorem toInt_foldl (numbers : List Int64) (n : Int64) :
    (numbers.foldl (· + ·) n).toInt =
      (n.toInt + (numbers.map Int64.toInt).sum).bmod (2 ^ 64) := by
  induction numbers generalizing n with
  | nil =>
      rw [List.foldl_nil, List.map_nil, List.sum_nil, Int.add_zero]
      exact (Int64.toInt_bmod n).symm
  | cons m rest ih =>
      rw [List.foldl_cons, ih, Int64.toInt_add, Int.bmod_add_bmod,
        List.map_cons, List.sum_cons, Int.add_assoc]

theorem combined_of_fits (hvalues : values outcomes = .ok replies)
    (hsorted : Sorted targetOf keys groups)
    (hlength : replies.length = groups.length)
    (h : forall x, x ∈ replies.zip (groups.map Group.positions) ->
      misfit? name x = none) :
    exists whole,
      merge name keys.length (groups.map Group.positions) outcomes = .ok whole ∧
      Combined groups keys.length replies name whole := by
  have hfits (v : Value) (hv : v ∈ replies) :
      exists count, fits name count v = true := by
    have hzip : replies.length = (groups.map Group.positions).length := by
      rw [List.length_map, hlength]
    rw [← List.map_fst_zip (Nat.le_of_eq hzip)] at hv
    rcases List.mem_map.mp hv with ⟨x, hx, rfl⟩
    exact ⟨_, fits_of_misfit? (h x hx)⟩
  rw [merge_of_values hvalues]
  by_cases hget : name = "MGET"
  · subst hget
    rw [if_pos rfl]
    exact combined_arrays hsorted hlength h
  rw [if_neg hget]
  by_cases hset : name = "MSET"
  · subst hset
    have hall (v : Value) (hv : v ∈ replies) : v = .ok :=
      ok_of_fits (hfits v hv).choose_spec
    have hreplies : replies = replies.map (fun _ => Value.ok) :=
      (List.map_id replies).symm.trans (List.map_congr_left hall)
    have hstatuses : mergeStatuses "MSET" replies = .ok .ok := by
      rw [hreplies]
      exact mergeStatuses_ok "MSET" replies
    rw [if_pos rfl, hstatuses]
    exact ⟨_, rfl, .statuses hall⟩
  rw [if_neg hset]
  rcases exists_integers
    (fun v hv => integer_of_fits ⟨hget, hset⟩ (hfits v hv).choose_spec) with
    ⟨numbers, rfl⟩
  have hnumbers : integers name (numbers.map Value.integer) = .ok numbers := by
    rw [integers_map name (fun n => n), List.map_id']
  rw [hnumbers]
  by_cases hnew : name = "MSETNX"
  · subst hnew
    rw [if_pos rfl]
    refine ⟨_, congrArg Except.ok (congrArg Value.integer ?_),
      .refusals numbers rfl⟩
    simp only [List.all_eq_true, beq_iff_eq]
  · rw [if_neg hnew]
    refine ⟨_, rfl, .counts name numbers _ ⟨hget, hset, hnew⟩ rfl ?_⟩
    rw [toInt_foldl, Int64.toInt_zero, Int.zero_add]

/-- How the outcomes of the parts of a command are merged. -/
theorem verdict_of_merge (hsorted : Sorted targetOf keys groups)
    (hlength : outcomes.length = groups.length) (name : String) :
    Verdict name groups keys.length outcomes
      (merge name keys.length (groups.map Group.positions) outcomes) where
  failed hfailed := by
    rcases exists_first hfailed with ⟨e, hfirst⟩
    refine ⟨e, hfirst, ?_⟩
    unfold merge
    rw [values_of_first hfirst]
  answered hanswered := by
    rcases values_of_replies hanswered with ⟨replies, rfl, hvalues⟩
    rw [List.length_map] at hlength
    refine ⟨replies, rfl, ?_, combined_of_fits hvalues hsorted hlength⟩
    intro hmisfit
    rcases exists_first hmisfit with ⟨e, hfirst⟩
    exact ⟨e, hfirst,
      merge_of_misfit hvalues (by rw [List.length_map, hlength]) hfirst
        keys.length⟩

end Routing

namespace Session

open Client (SessionEvent)

variable {s t u : Session} {c : Command} {r : Request}
  {events : List SessionEvent} {groups : List Routing.Group}

theorem results_of_unfinished {first count i : Nat} {d : Delivery}
    (hd : u.deliveries[first + i]? = some d) (hi : i < count)
    (h : d.result? = none) : u.results? first count = none := by
  have hmem : d ∈ (u.deliveries.drop first).take count := by
    refine List.mem_of_getElem? (i := i) ?_
    rw [List.getElem?_take_of_lt hi, List.getElem?_drop, hd]
  unfold results?
  generalize (u.deliveries.drop first).take count = waiting at hmem
  induction waiting with
  | nil => cases hmem
  | cons other rest ih =>
      rw [List.mapM_cons]
      rcases List.mem_cons.mp hmem with rfl | hrest
      · rw [h]
        rfl
      · rw [ih hrest]
        cases other.result? <;> rfl

/-- The reply to a command that has been split, after any events.  What comes in
for a part is its outcome.  There is no reply before all parts have ended.  When
they have, in whatever order, the reply is that of their outcomes in the order
of the groups. -/
theorem verdict_of_run (hroute : s.route c = .ok (t, r))
    (hsplit : r.plan = .split groups) (hrun : t.run events = some u) :
    2 ≤ groups.length ∧
      (forall i result, i < groups.length ->
        .receive (r.first + i) result ∈ events ->
        u.phase? (r.first + i) = some (.finished result)) ∧
      ((exists i, i < groups.length ∧
        forall outcome, u.phase? (r.first + i) ≠ some (.finished outcome)) ->
        u.reply? r = none) ∧
      forall outcomes, outcomes.length = groups.length ->
        (forall i outcome, outcomes[i]? = some outcome ->
          u.phase? (r.first + i) = some (.finished outcome)) ->
        exists result, u.reply? r = some result ∧
          Routing.Verdict c.name groups c.keys.length outcomes result := by
  rcases exists_plan_of_route hroute with ⟨plan, hplan, rfl, rfl⟩
  dsimp only at hsplit ⊢
  subst hsplit
  rcases Routing.plan_eq_split_iff.mp hplan with ⟨step, _, _, htwo, hgroups⟩
  have hpart (i : Nat) (hi : i < groups.length) : exists d,
      (s.deliver
        (deliveriesOf c (.split groups))).deliveries[s.deliveries.length + i]? =
          some d := by
    refine ⟨_, List.getElem?_eq_getElem ?_⟩
    show _ < (s.deliveries ++ deliveriesOf c (.split groups)).length
    rw [List.length_append]
    exact Nat.add_lt_add_left
      (by rw [deliveriesOf, List.length_map]; exact hi) _
  refine ⟨htwo, ?_, ?_, ?_⟩
  · intro i result hi hmem
    rcases hpart i hi with ⟨d, hd⟩
    exact finished_of_receive hd hrun hmem
  · rintro ⟨i, hi, hunfinished⟩
    rcases hpart i hi with ⟨d, hd⟩
    rcases delivery_of_run hd hrun with ⟨x, hx⟩
    have hresult : x.result? = none := by
      have hphase := phase?_of_delivery hx
      unfold Delivery.result?
      split
      · rename_i outcome houtcome
        rw [houtcome] at hphase
        exact absurd hphase (hunfinished outcome)
      · rfl
    show (u.results? s.deliveries.length groups.length).map _ = none
    rw [results_of_unfinished hx hi hresult]
    rfl
  · intro outcomes hlength houtcomes
    refine ⟨_, reply_of_outcomes c hlength houtcomes, ?_⟩
    subst hgroups
    exact Routing.verdict_of_merge (Routing.sorted_groupKeys _ c.keys)
      hlength c.name

/-- The second part is refused before the first is answered, with something that
is no array.  The refusal counts. -/
theorem verdict_of_run_refused :
    exists t r u,
      (oneOwned [97]).route ⟨"MGET", [[97], [98], [97]]⟩ = .ok (t, r) ∧
      t.run [.begin 0, .begin 1, .linked 0, .linked 1, .proceed 0, .proceed 1,
        .receive 1 (.ok (.error [120])),
        .receive 0 (.ok .null)] = some u ∧
      Routing.fits "MGET" 2 .null = false ∧
        u.reply? r = some (.error (.command [120])) := by
  have hlayout : Command.keyLayout ⟨"MGET", [[97], [98], [97]]⟩ = .multi 1 := by
    decide
  have hplan := Routing.plan_oneOwned hlayout (by decide) (by
    rw [Routing.keys_of_multi hlayout]
    simp [Command.itemsOf_cons, Command.itemsOf_nil])
  have hroute := route_of_plan (s := oneOwned [97]) rfl hplan
  have hall (owners : Table.Owners) :
    exists u, ((start ⟨0, ⟨[.makeMaster "n1" (.atAddress "h" 1) []], owners⟩⟩
      (.atAddress "d" 2) (.ofSeconds 1)).deliver
      (deliveriesOf ⟨"MGET", [[97], [98], [97]]⟩
        (.split [⟨.node "n1", [0, 2]⟩, ⟨.address "d" 2, [1]⟩]))).run
        [.begin 0, .begin 1, .linked 0, .linked 1,
          .proceed 0, .proceed 1, .receive 1 (.ok (.error [120])),
              .receive 0 (.ok .null)] = some u := by
    rw [show deliveriesOf ⟨"MGET", [[97], [98], [97]]⟩
      (.split [⟨.node "n1", [0, 2]⟩, ⟨.address "d" 2, [1]⟩]) =
      [{ target := .node "n1"
         command := ⟨"MGET", [[97], [97]]⟩
         guarded := false },
        { target := .address "d" 2
          command := ⟨"MGET", [[98]]⟩
          guarded := false }] from rfl]
    exact Option.isSome_iff_exists.mp (by cbv)
  rcases hall _ with ⟨u, hrun⟩
  rcases verdict_of_run hroute rfl hrun with ⟨_, hreceived, _, hreply⟩
  have hfirst : u.phase? 0 = some (.finished (.ok .null)) :=
    hreceived 0 (.ok .null) (by decide)
      (by change SessionEvent.receive 0 _ ∈ _; simp)
  have hsecond : u.phase? 1 = some (.finished (.ok (.error [120]))) :=
    hreceived 1 (.ok (.error [120])) (by decide)
      (by change SessionEvent.receive 1 _ ∈ _; simp)
  have houtcomes (i : Nat) (outcome : Except ClusterError Resp.Value)
      (h : [.ok .null, .ok (.error [120])][i]? = some outcome) :
      u.phase? (0 + i) = some (.finished outcome) := by
    rcases i with _ | _ | i
    · cases h
      exact hfirst
    · cases h
      exact hsecond
    · cases h
  rcases hreply [.ok .null, .ok (.error [120])] rfl houtcomes with
    ⟨result, hresult, hverdict⟩
  rcases hverdict.failed ⟨.ok (.error [120]), by simp, rfl⟩ with
    ⟨e, hrefused, rfl⟩
  cases Routing.first_iff.mp hrefused
  exact ⟨_, _, u, hroute, hrun, by decide, hresult⟩

end Session
end SlotCluster
