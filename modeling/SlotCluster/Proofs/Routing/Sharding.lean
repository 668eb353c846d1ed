import SlotCluster.Proofs.Routing.Merging
import SlotCluster.Proofs.Routing.Shards

/-!
# Sharded execution

A command that is split over many nodes has the effect and the reply that it has
on one store with all the keys.  Every node sees its own keys only, the nodes
may be served in any order, and two targets may well be the same node.
-/

namespace SlotCluster

open Resp (Value)

namespace Routing

variable {targetOf : Bytes -> Target} {c : Command} {verb : Verb} {σ : Store}

/-! ## Replies -/

def seenBy (targetOf : Bytes -> Target) (σ : Store)
    (effect : Item -> Option Bytes -> Option Bytes) (items : List Item)
    (target : Target) : List (Option Bytes) :=
  ((items.zip (σ.visit effect items).1).filter
    (fun x => decide (targetOf x.1.1 = target))).map Prod.snd

/-- A part of a command does not refuse, unless the whole does: its reply is
that of its keys. -/
theorem execute_part (hverb : Verb.ofName? c.name = some verb)
    {deliveries : List Delivery} (h : Shards targetOf c verb deliveries)
    {d : Delivery} (hd : d ∈ deliveries) (hnew : verb ≠ .assignNew)
    (σ : Store) :
    (σ.execute d.command).1 =
        verb.reply
          (seenBy targetOf σ verb.effect
            (Command.itemsOf verb.step c.args) d.target) ∧
      forall key, targetOf key = d.target ->
        (σ.execute d.command).2 key = (σ.execute c).2 key := by
  have hpart : Verb.ofName? d.command.name = some verb := by
    rw [h.name hd]
    exact hverb
  have hvisit :=
    @Store.visit_filter verb.effect σ σ (Command.itemsOf verb.step c.args)
      (fun key => decide (targetOf key = d.target)) (fun _ _ => rfl)
  rw [Store.execute_of_verb hpart, Store.execute_of_verb hverb, h.items hd]
  unfold Store.exec
  have hgo : forall b : Bool, ¬ (decide (verb = .assignNew) && b) = true := by
    intro b
    simp [hnew]
  rw [if_neg (hgo _), if_neg (hgo _)]
  refine ⟨congrArg verb.reply hvisit.1, ?_⟩
  intro key hkey
  exact hvisit.2 key (by rw [decide_eq_true_eq]; exact hkey)

theorem positionsFrom_map {α β : Type} (f : α -> β) (P : β -> Bool)
    (first : Nat) (items : List α) :
    positionsFrom first P (items.map f) =
      positionsFrom first (fun a => P (f a)) items := by
  induction items generalizing first with
  | nil => rfl
  | cons a rest ih => rw [List.map_cons, positionsFrom, positionsFrom, ih]

theorem pick_positions (effect : Item -> Option Bytes -> Option Bytes)
    (items : List Item) {g : Group}
    (hg : g ∈ groupKeys targetOf (items.map Prod.fst)) (σ : Store) :
    pick ((σ.visit effect items).1.map Verb.valueReply) g.positions =
      (seenBy targetOf σ effect items g.target).map Verb.valueReply := by
  have hlength :
      items.length = ((σ.visit effect items).1.map Verb.valueReply).length := by
    rw [List.length_map, Store.length_visit]
  have hpick :=
    filterMap_positionsFrom
      (fun item : Item => decide (targetOf item.1 = g.target)) [] hlength
  rw [List.length_nil, List.nil_append] at hpick
  unfold pick seenBy
  rw [positions_of_mem hg, positionsFrom_map, hpick, List.zip_map_right,
    List.filter_map, List.map_map, List.map_map]
  rfl

theorem positions_lt {keys : List Bytes} {g : Group}
    (hg : g ∈ groupKeys targetOf keys) {p : Nat} (hp : p ∈ g.positions) :
    p < keys.length := by
  rw [positions_of_mem hg, mem_positionsFrom] at hp
  rcases hp with ⟨_, key, hkey, _⟩
  exact (List.getElem?_eq_some_iff.mp hkey).1

theorem position_covered (targetOf : Bytes -> Target) {keys : List Bytes}
    {p : Nat} (hp : p < keys.length) :
    exists g, g ∈ groupKeys targetOf keys ∧ p ∈ g.positions := by
  have hkey := List.getElem?_eq_getElem hp
  rcases exists_group targetOf (List.getElem_mem hp) with ⟨g, hg, htarget⟩
  refine ⟨g, hg, ?_⟩
  rw [positions_of_mem hg, mem_positionsFrom]
  exact ⟨Nat.zero_le p, keys[p], hkey, by rw [htarget]; simp⟩

/-! ## Merging the replies of the parts -/

theorem mergeItems_parts (σ : Store)
    (effect : Item -> Option Bytes -> Option Bytes) (items : List Item)
    (name : String) :
    mergeItems name (List.replicate items.length .null)
        ((groupKeys targetOf (items.map Prod.fst)).map (fun g =>
          (Verb.reply .read (seenBy targetOf σ effect items g.target),
            g.positions))) =
      .ok (Verb.reply .read (σ.visit effect items).1) := by
  have hwhole :
      ((σ.visit effect items).1.map Verb.valueReply).length = items.length := by
    rw [List.length_map, Store.length_visit]
  have hparts :
      (groupKeys targetOf (items.map Prod.fst)).map (fun g =>
        (Verb.reply .read (seenBy targetOf σ effect items g.target),
          g.positions)) =
      ((groupKeys targetOf (items.map Prod.fst)).map Group.positions).map
        (fun positions =>
          (Value.array
            (pick ((σ.visit effect items).1.map Verb.valueReply) positions),
            positions)) := by
    rw [List.map_map]
    apply List.map_congr_left
    intro g hg
    rw [Function.comp, pick_positions effect items hg σ]
    rfl
  rw [hparts]
  apply mergeItems_pick
  · rw [List.length_replicate, hwhole]
  · intro positions hpositions p hp
    rcases List.mem_map.mp hpositions with ⟨g, hg, hsame⟩
    have hlt := positions_lt hg (hsame ▸ hp)
    rw [List.length_map] at hlt
    rw [hwhole]
    exact hlt
  · intro q hq
    have hlt : q < (items.map Prod.fst).length := by
      rw [List.length_map, ← hwhole]
      exact hq
    rcases position_covered targetOf hlt with ⟨g, hg, hmem⟩
    exact Or.inl ⟨g.positions, List.mem_map_of_mem hg, hmem⟩

theorem sum_parts (σ : Store) (effect : Item -> Option Bytes -> Option Bytes)
    (items : List Item) :
    ((groupKeys targetOf (items.map Prod.fst)).map (fun g =>
        (seenBy targetOf σ effect items g.target).countP Option.isSome)).sum =
      (σ.visit effect items).1.countP Option.isSome := by
  have hclasses := sum_countP_classes
      (fun x : Item × Option Bytes => x.2.isSome) (fun x => targetOf x.1.1)
      (groupKeys_spec targetOf (items.map Prod.fst)).1
      (items.zip (σ.visit effect items).1) (by
      intro x hx
      have hkey : x.1.1 ∈ items.map Prod.fst :=
        List.mem_map_of_mem (List.of_mem_zip hx).1
      rcases exists_group targetOf hkey with ⟨g, hg, htarget⟩
      rw [← htarget]
      exact List.mem_map_of_mem hg)
  have htotal : (σ.visit effect items).1.countP Option.isSome =
      (items.zip (σ.visit effect items).1).countP
        (Option.isSome ∘ Prod.snd) := by
    rw [← List.countP_map, Store.map_snd_zip_visit]
  rw [List.map_map] at hclasses
  unfold seenBy
  simp only [List.countP_map]
  rw [htotal]
  exact hclasses

theorem any_parts (targetOf : Bytes -> Target) (σ : Store) (items : List Item) :
    (groupKeys targetOf (items.map Prod.fst)).any (fun g =>
        (items.filter (fun item => decide (targetOf item.1 = g.target))).any
          (fun item => (σ item.1).isSome)) =
      items.any (fun item => (σ item.1).isSome) := by
  rw [Bool.eq_iff_iff, List.any_eq_true, List.any_eq_true]
  constructor
  · intro h
    rcases h with ⟨g, _, hany⟩
    rcases List.any_eq_true.mp hany with ⟨item, hitem, hsome⟩
    exact ⟨item, (List.mem_filter.mp hitem).1, hsome⟩
  · intro h
    rcases h with ⟨item, hitem, hsome⟩
    have hkey : item.1 ∈ items.map Prod.fst := List.mem_map_of_mem hitem
    rcases exists_group targetOf hkey with ⟨g, hg, htarget⟩
    refine ⟨g, hg, List.any_eq_true.mpr ⟨item, ?_, hsome⟩⟩
    exact List.mem_filter.mpr ⟨hitem, by simp [htarget]⟩

theorem exec_assignNew (σ : Store) (items : List Item) :
    (σ.exec .assignNew items).1 =
      .integer
        (if items.any (fun item => (σ item.1).isSome) then 0 else 1) := by
  unfold Store.exec
  cases items.any (fun item => (σ item.1).isSome) <;> rfl

theorem replies_of_parts {groups : List Group} {reply : Group -> Value}
    (h : forall g, g ∈ groups ->
      (σ.execute (c.selectKeyGroups g.positions)).1 = reply g) :
    (partsOf c groups).map (fun d => Except.ok (σ.execute d.command).1) =
      (groups.map reply).map (Except.ok (ε := ClusterError)) := by
  unfold partsOf Session.deliveriesOf
  rw [List.map_map, List.map_map]
  apply List.map_congr_left
  intro g hg
  exact congrArg Except.ok (h g hg)

theorem merge_counts (hverb : Verb.ofName? c.name = some verb)
    (hargs : c.args ≠ []) (harity : c.checkArity = .ok ())
    (targetOf : Bytes -> Target) (σ : Store) (hnew : verb ≠ .assignNew)
    (hcount : forall seen, verb.reply seen = Verb.countReply seen)
    (hname : c.name ≠ "MGET" ∧ c.name ≠ "MSET" ∧ c.name ≠ "MSETNX") :
    merge c.name c.keys.length ((groupKeys targetOf c.keys).map Group.positions)
        ((partsOf c (groupKeys targetOf c.keys)).map
          (fun d => .ok (σ.execute d.command).1)) =
      .ok (σ.execute c).1 := by
  have hshards := shards_of_groups targetOf hverb hargs harity
  have hreply : forall g, g ∈ groupKeys targetOf c.keys ->
      (σ.execute (c.selectKeyGroups g.positions)).1 =
        Verb.countReply
          (seenBy targetOf σ verb.effect (Command.itemsOf verb.step c.args)
            g.target) := by
    intro g hg
    rw [← hcount]
    exact (execute_part hverb hshards (List.mem_map_of_mem hg) hnew σ).1
  rw [replies_of_parts hreply, Store.reply_of_verb hverb hnew σ, hcount]
  unfold Verb.countReply
  rw [merge_numbers hname, keys_eq hverb hargs, sum_parts]

/-- The replies to the parts of a command make up the reply to the whole. -/
theorem merge_parts (hverb : Verb.ofName? c.name = some verb)
    (hargs : c.args ≠ []) (harity : c.checkArity = .ok ())
    (targetOf : Bytes -> Target) (σ : Store) :
    merge c.name c.keys.length ((groupKeys targetOf c.keys).map Group.positions)
        ((partsOf c (groupKeys targetOf c.keys)).map
          (fun d => .ok (σ.execute d.command).1)) =
      .ok (σ.execute c).1 := by
  have hshards := shards_of_groups targetOf hverb hargs harity
  have hname := Verb.name_of_verb hverb
  have hgo : verb ≠ .assignNew ->
      forall g, g ∈ groupKeys targetOf c.keys ->
      (σ.execute (c.selectKeyGroups g.positions)).1 =
        verb.reply (seenBy targetOf σ verb.effect
          (Command.itemsOf verb.step c.args) g.target) := by
    intro hnew g hg
    exact (execute_part hverb hshards (List.mem_map_of_mem hg) hnew σ).1
  cases verb with
  | read =>
      rw [replies_of_parts (hgo (by decide)),
        Store.reply_of_verb hverb (by decide) σ, hname]
      change merge _ _ _ ((List.map (fun g => Value.array _) _).map _) = _
      rw [merge_arrays, keys_eq hverb hargs, List.length_map]
      exact mergeItems_parts σ _ _ "MGET"
  | count =>
      apply merge_counts hverb hargs harity targetOf σ (by decide)
        (fun _ => rfl)
      rcases hname with hname | hname <;> rw [hname] <;> decide
  | remove =>
      apply merge_counts hverb hargs harity targetOf σ (by decide)
        (fun _ => rfl)
      rcases hname with hname | hname <;> rw [hname] <;> decide
  | assign =>
      rw [replies_of_parts (hgo (by decide)),
        Store.reply_of_verb hverb (by decide) σ, hname]
      exact merge_statuses _ _ _
  | assignNew =>
      have hreply : forall g, g ∈ groupKeys targetOf c.keys ->
          (σ.execute (c.selectKeyGroups g.positions)).1 =
            .integer (if ((Command.itemsOf Verb.assignNew.step c.args).filter
                (fun item => decide (targetOf item.1 = g.target))).any
              (fun item => (σ item.1).isSome) then 0 else 1) := by
        intro g hg
        have hmem : _ ∈ partsOf c (groupKeys targetOf c.keys) :=
          List.mem_map_of_mem hg
        have hpart : Verb.ofName? (c.selectKeyGroups g.positions).name =
            some .assignNew := by
          rw [hshards.name hmem]
          exact hverb
        rw [Store.execute_of_verb hpart, exec_assignNew, hshards.items hmem]
      rw [replies_of_parts hreply, Store.execute_of_verb hverb, exec_assignNew,
        hname, merge_refusals, keys_eq hverb hargs, any_parts]

/-! ## Where a command goes -/

theorem plan_of_verb (hverb : Verb.ofName? c.name = some verb)
    (hargs : c.args ≠ []) (harity : c.checkArity = .ok ()) (table : Table)
    (fallback : Endpoint) :
    (exists g, groupKeys (Routing.targetOf table fallback) c.keys = [g] ∧
        plan table fallback c = .ok (.whole g.target)) ∨
      plan table fallback c =
        .ok (.split (groupKeys (Routing.targetOf table fallback) c.keys)) :=
  (plan_of_multi (Verb.keyLayout_of_verb hverb hargs) harity table
    fallback).imp_right And.right

theorem plan_of_nil (hargs : c.args = []) (table : Table)
    (fallback : Endpoint) : plan table fallback c = .error (.noKey c.name) := by
  have hlayout : c.keyLayout = .keyless := by
    unfold Command.keyLayout
    rw [hargs]
    rfl
  unfold plan Command.checkArity
  rw [hlayout]

/-!
## Execution

Every part is executed as the store with all the keys would execute it, and
after all parts the site of a key has the value that this store would have.
-/

section Execution

variable {ι : Type} [DecidableEq ι] {site : Target -> ι} {stores : ι -> Store}
  {parts : List Delivery} {order : List Nat}

theorem execute_at_site (hverb : Verb.ofName? c.name = some verb)
    (h : Shards targetOf c verb parts)
    (hplaced : Store.Placed site targetOf stores)
    (hunion : Store.IsUnion stores σ)
    (horder : order.Perm (List.range parts.length)) {i : Nat} {d : Delivery}
    (hd : parts[i]? = some d) :
    (i, (σ.execute d.command).1) ∈ (Store.serve site parts stores order).1 ∧
      forall key, targetOf key = d.target ->
        (Store.serve site parts stores order).2 (site d.target) key =
          (σ.execute d.command).2 key := by
  have hdivided := divided_of_shards hverb h
  have hmem : i ∈ order := by
    rw [horder.mem_iff, List.mem_range]
    exact (List.getElem?_eq_some_iff.mp hd).1
  have hnodup : order.Nodup := horder.nodup_iff.mpr List.nodup_range
  have hagree : forall key, targetOf key = d.target ->
      stores (site d.target) key = σ key := by
    intro key hkey
    rw [← hkey]
    exact hunion.eq_at_site hplaced key
  rcases (hdivided.concerns hd).agree σ _ hagree with ⟨hreply, hvalue⟩
  constructor
  · rw [← hreply]
    exact (Store.serve_of_mem hdivided hnodup hmem hd).1
  · intro key hkey
    rw [(Store.serve_of_mem hdivided hnodup hmem hd).2 key hkey]
    exact hvalue key hkey

theorem value_uncovered (hverb : Verb.ofName? c.name = some verb)
    (h : Shards targetOf c verb parts)
    (hplaced : Store.Placed site targetOf stores)
    (hunion : Store.IsUnion stores σ) {key : Bytes}
    (hkey : forall d, d ∈ parts -> d.target ≠ targetOf key) :
    (Store.serve site parts stores order).2 (site (targetOf key))
      key = σ key := by
  rw [Store.serve_other (divided_of_shards hverb h)]
  · exact hunion.eq_at_site hplaced key
  · intro i d _ hi hsame
    exact hkey d (List.mem_of_getElem? hi) hsame.symm

theorem value_at_site (hverb : Verb.ofName? c.name = some verb)
    (h : Shards targetOf c verb parts) (hnew : verb ≠ .assignNew)
    (hplaced : Store.Placed site targetOf stores)
    (hunion : Store.IsUnion stores σ)
    (horder : order.Perm (List.range parts.length)) (key : Bytes) :
    (Store.serve site parts stores order).2 (site (targetOf key)) key =
      (σ.execute c).2 key := by
  by_cases hcovered : exists d, d ∈ parts ∧ d.target = targetOf key
  · rcases hcovered with ⟨d, hmem, htarget⟩
    rcases List.getElem?_of_mem hmem with ⟨i, hi⟩
    rw [← htarget,
      (execute_at_site hverb h hplaced hunion horder hi).2 key htarget.symm]
    exact (execute_part hverb h hmem hnew σ).2 key htarget.symm
  · rw [not_exists] at hcovered
    rw [value_uncovered hverb h hplaced hunion
      (fun d hd htarget => hcovered d ⟨hd, htarget⟩),
      Store.execute_of_verb hverb, Store.exec_other]
    intro item hitem hsame
    rcases h.cover hitem with ⟨d, hd, htarget⟩
    rw [hsame] at htarget
    exact hcovered d ⟨hd, htarget⟩

def Taken (targetOf : Bytes -> Target) (σ : Store) (keys : List Bytes)
    (target : Target) : Prop :=
  exists key, key ∈ keys ∧ targetOf key = target ∧ (σ key).isSome = true

theorem value_assignNew (hverb : Verb.ofName? c.name = some .assignNew)
    (h : Shards targetOf c .assignNew parts)
    (hplaced : Store.Placed site targetOf stores)
    (hunion : Store.IsUnion stores σ)
    (horder : order.Perm (List.range parts.length)) {items : List Item}
    (key : Bytes)
    (hitems : Command.itemsOf Verb.assignNew.step c.args = items) :
    (Taken targetOf σ (items.map Prod.fst) (targetOf key) ->
        (Store.serve site parts stores order).2 (site (targetOf key))
          key = σ key) ∧
      (¬ Taken targetOf σ (items.map Prod.fst) (targetOf key) ->
        (Store.serve site parts stores order).2 (site (targetOf key)) key =
          (σ.visit Verb.assignNew.effect items).2 key) := by
  by_cases hcovered : exists d, d ∈ parts ∧ d.target = targetOf key
  · rcases hcovered with ⟨d, hmem, htarget⟩
    rcases List.getElem?_of_mem hmem with ⟨i, hi⟩
    have hpart : Verb.ofName? d.command.name = some .assignNew := by
      rw [h.name hmem]
      exact hverb
    have htaken : Taken targetOf σ (items.map Prod.fst) (targetOf key) <->
        (items.filter (fun item => decide (targetOf item.1 = targetOf key))).any
          (fun item => (σ item.1).isSome) = true := by
      rw [List.any_eq_true]
      constructor
      · intro hkey
        rcases hkey with ⟨other, hother, hsame, hvalue⟩
        rcases List.mem_map.mp hother with ⟨item, hitem, hfst⟩
        rw [← hfst] at hsame hvalue
        exact ⟨item, List.mem_filter.mpr ⟨hitem, by simp [hsame]⟩, hvalue⟩
      · intro hitem
        rcases hitem with ⟨item, hitem, hvalue⟩
        rw [List.mem_filter, decide_eq_true_eq] at hitem
        exact ⟨item.1, List.mem_map_of_mem hitem.1, hitem.2, hvalue⟩
    rw [← htarget,
      (execute_at_site hverb h hplaced hunion horder hi).2 key htarget.symm,
      Store.execute_of_verb hpart, h.items hmem, hitems, htarget, htaken]
    unfold Store.exec
    constructor
    · intro hany
      rw [if_pos (by rw [hany]; rfl)]
    · intro hany
      rw [if_neg (by rw [Bool.and_eq_true, not_and]; exact fun _ => hany)]
      have hvisit := @Store.visit_filter Verb.assignNew.effect σ σ items
        (fun other => decide (targetOf other = targetOf key)) (fun _ _ => rfl)
      exact hvisit.2 key (by simp)
  · rw [not_exists] at hcovered
    rw [value_uncovered hverb h hplaced hunion
      (fun d hd htarget => hcovered d ⟨hd, htarget⟩), Store.visit_other]
    · exact ⟨fun _ => rfl, fun _ => rfl⟩
    · intro item hitem hsame
      rw [← hitems] at hitem
      rcases h.cover hitem with ⟨d, hd, htarget⟩
      rw [hsame] at htarget
      exact hcovered d ⟨hd, htarget⟩

/-- New keys are assigned as on one store exactly if either no key has a value,
or every target has a key that has one. -/
theorem isUnion_assignNew (hverb : Verb.ofName? c.name = some .assignNew)
    (hargs : c.args ≠ []) (harity : c.checkArity = .ok ())
    (h : Shards targetOf c .assignNew parts)
    (hplaced : Store.Placed site targetOf stores)
    (hunion : Store.IsUnion stores σ)
    (horder : order.Perm (List.range parts.length)) :
    Store.IsUnion (Store.serve site parts stores order).2 (σ.execute c).2 <->
      forall key other, key ∈ c.keys -> (σ key).isSome = true ->
        other ∈ c.keys ->
        Taken targetOf σ c.keys (targetOf other) := by
  have hplaced' := hplaced.serve (divided_of_shards hverb h) order
  have hvalue :=
    fun key => value_assignNew hverb h hplaced hunion horder key rfl
  have hmod := length_mod_of_checkArity hverb hargs harity
  rw [keys_eq hverb hargs, Store.execute_of_verb hverb]
  generalize hitems :
    Command.itemsOf Verb.assignNew.step c.args = items at hvalue ⊢
  have hassigned : forall item value, item ∈ items ->
      (Verb.assignNew.effect item value).isSome = true := by
    intro item value hitem
    rw [← hitems] at hitem
    have hlength := Command.length_item (by decide) hmod hitem
    exact List.isSome_head?.mpr (List.ne_nil_of_length_eq_add_one hlength)
  unfold Store.exec
  constructor
  -- The one store refuses because of `key`; a target none of whose keys has a
  -- value does not.
  · intro hstate key other hkey hsome hother
    by_contra htaken
    rcases List.mem_map.mp hkey with ⟨item, hitem, hfst⟩
    have hany : items.any (fun item => (σ item.1).isSome) = true :=
      List.any_eq_true.mpr ⟨item, hitem, hfst ▸ hsome⟩
    rw [if_pos (by rw [hany]; rfl)] at hstate
    have hsame := hstate.eq_at_site hplaced' other
    rw [(hvalue other).2 htaken] at hsame
    have hset := Store.visit_isSome (σ := σ) hassigned (Or.inl hother)
    rw [hsame] at hset
    exact htaken ⟨other, hother, rfl, hset⟩
  · intro hall
    apply hplaced'.isUnion
    intro key
    by_cases hany : items.any (fun item => (σ item.1).isSome) = true
    · rw [if_pos (by rw [hany]; rfl)]
      rcases List.any_eq_true.mp hany with ⟨item, hitem, hsome⟩
      by_cases htaken : Taken targetOf σ (items.map Prod.fst) (targetOf key)
      · exact (hvalue key).1 htaken
      · rw [(hvalue key).2 htaken]
        apply Store.visit_other
        intro other hother hsame
        apply htaken
        rw [← hsame]
        exact hall item.1 other.1 (List.mem_map_of_mem hitem) hsome
          (List.mem_map_of_mem hother)
    · rw [if_neg (by rw [Bool.and_eq_true, not_and]; exact fun _ => hany)]
      apply (hvalue key).2
      intro htaken
      rcases htaken with ⟨other, hother, _, hsome⟩
      rcases List.mem_map.mp hother with ⟨item, hitem, hfst⟩
      exact hany (List.any_eq_true.mpr ⟨item, hitem, hfst ▸ hsome⟩)

/-- What the nodes hold together after all parts. -/
theorem isUnion_served (hverb : Verb.ofName? c.name = some verb)
    (hargs : c.args ≠ []) (harity : c.checkArity = .ok ())
    (h : Shards targetOf c verb parts)
    (hplaced : Store.Placed site targetOf stores)
    (hunion : Store.IsUnion stores σ)
    (horder : order.Perm (List.range parts.length)) :
    (c.name ≠ "MSETNX" ->
      Store.IsUnion (Store.serve site parts stores order).2 (σ.execute c).2) ∧
      (c.name = "MSETNX" ->
        (Store.IsUnion (Store.serve site parts stores order).2
          (σ.execute c).2 <->
          forall key other, key ∈ c.keys -> (σ key).isSome = true ->
            other ∈ c.keys ->
            Taken targetOf σ c.keys (targetOf other))) := by
  constructor
  · intro hother
    have hnew : verb ≠ .assignNew := by
      intro hsame
      subst hsame
      exact hother (Verb.name_of_verb hverb)
    apply (hplaced.serve (divided_of_shards hverb h) order).isUnion
    exact value_at_site hverb h hnew hplaced hunion horder
  · intro hname
    have hnew : verb = .assignNew := by
      rw [hname] at hverb
      exact (Option.some.inj hverb).symm
    subst hnew
    exact isUnion_assignNew hverb hargs harity h hplaced hunion horder

end Execution
end Routing

/-! ## Sessions -/

namespace Session

theorem results_of_finished {u : Session}
    (outcomes : List (Except ClusterError Value)) (first : Nat)
    (h : forall i outcome, outcomes[i]? = some outcome ->
      u.phase? (first + i) = some (.finished outcome)) :
    u.results? first outcomes.length = some outcomes := by
  unfold results?
  induction outcomes generalizing first with
  | nil => rfl
  | cons outcome rest ih =>
      have hfirst := h 0 outcome rfl
      rw [Nat.add_zero] at hfirst
      rcases Option.map_eq_some_iff.mp hfirst with ⟨d, hd, hphase⟩
      have hrest := ih (first + 1) (fun i other hother => by
        rw [Nat.add_assoc, Nat.add_comm 1 i]
        exact h (i + 1) other hother)
      have hresult : d.result? = some outcome := by
        unfold Delivery.result?
        rw [hphase]
      rcases List.getElem?_eq_some_iff.mp hd with ⟨hlt, hget⟩
      rw [List.drop_eq_getElem_cons hlt, List.length_cons, List.take_succ_cons,
        hget, List.mapM_cons, hresult, hrest]
      rfl

theorem reply_of_whole {u : Session} {c : Command} {target : Target}
    {first : Nat} {result : Except ClusterError Value}
    (h : u.phase? first = some (.finished result)) :
    u.reply? ⟨c, .whole target, first⟩ = some result := by
  rcases Option.map_eq_some_iff.mp h with ⟨d, hd, hphase⟩
  change (u.deliveries[first]?).bind Delivery.result? = _
  rw [hd, Option.bind_some]
  unfold Delivery.result?
  rw [hphase]

theorem reply_of_outcomes {u : Session} (c : Command)
    {groups : List Routing.Group} {first : Nat}
    {outcomes : List (Except ClusterError Value)}
    (hlength : outcomes.length = groups.length)
    (h : forall i outcome, outcomes[i]? = some outcome ->
      u.phase? (first + i) = some (.finished outcome)) :
    u.reply? ⟨c, .split groups, first⟩ =
      some (Routing.merge c.name c.keys.length
        (groups.map Routing.Group.positions) outcomes) := by
  have hresults := results_of_finished outcomes first h
  rw [hlength] at hresults
  change (u.results? first groups.length).map _ = _
  rw [hresults]
  rfl

theorem reply_of_split {u : Session} {c : Command} {groups : List Routing.Group}
    {first : Nat} (f : Delivery -> Except ClusterError Value)
    (h : forall i d, (Routing.partsOf c groups)[i]? = some d ->
      u.phase? (first + i) = some (.finished (f d))) :
    u.reply? ⟨c, .split groups, first⟩ =
      some (Routing.merge c.name c.keys.length
        (groups.map Routing.Group.positions)
        ((Routing.partsOf c groups).map f)) := by
  refine reply_of_outcomes c
    ((List.length_map ..).trans (List.length_map ..)) ?_
  intro i outcome houtcome
  rw [List.getElem?_map, Option.map_eq_some_iff] at houtcome
  rcases houtcome with ⟨d, hd, rfl⟩
  exact h i d hd

/-- Routing a command to many nodes and executing its parts there, in any order,
is executing it on one store with all the keys.  A command without keys goes
nowhere; and of a command that sets new keys only, nodes may refuse their parts
while others do theirs. -/
theorem route_execute {s : Session} {c : Command} {ι : Type} [DecidableEq ι]
    {site : Target -> ι} {stores : ι -> Store} {σ : Store}
    (hopen : s.isClosed = false)
    (hname : c.name ∈ Command.keyListNames ∨ c.name ∈ Command.keyValueNames)
    (harity : c.checkArity = .ok ())
    (hplaced : Store.Placed site s.targetOf stores)
    (hunion : Store.IsUnion stores σ) :
    (c.args = [] -> s.route c = .error (.noKey c.name)) ∧
      (c.args ≠ [] -> exists parts r, s.route c = .ok (s.deliver parts, r) ∧
        r.first = s.deliveries.length ∧
        forall order, order.Perm (List.range parts.length) ->
          (forall u : Session,
              (forall i reply,
                (i, reply) ∈ (Store.serve site parts stores order).1 ->
                u.phase? (r.first + i) = some (.finished (.ok reply))) ->
              u.reply? r = some (.ok (σ.execute c).1)) ∧
            (c.name ≠ "MSETNX" ->
              Store.IsUnion (Store.serve site parts stores order).2
                (σ.execute c).2) ∧
            (c.name = "MSETNX" ->
              (Store.IsUnion (Store.serve site parts stores order).2
                (σ.execute c).2 <->
                forall key other, key ∈ c.keys -> (σ key).isSome = true ->
                  other ∈ c.keys ->
                  Routing.Taken s.targetOf σ c.keys (s.targetOf other)))) := by
  constructor
  · intro hargs
    unfold route
    rw [hopen, Routing.plan_of_nil hargs]
    rfl
  · intro hargs
    rcases Verb.exists_of_name hname with ⟨verb, hverb⟩
    rcases Routing.plan_of_verb hverb hargs harity s.pool.table.table
        s.fallback with
      ⟨g, honly, hplan⟩ | hplan
    · have hshards :
          Routing.Shards s.targetOf c verb (deliveriesOf c (.whole g.target)) :=
        Routing.shards_of_only hverb hargs honly
      refine ⟨deliveriesOf c (.whole g.target),
        ⟨c, .whole g.target, s.deliveries.length⟩, ?_, rfl, ?_⟩
      · unfold route
        rw [hopen, hplan]
        rfl
      · intro order horder
        refine ⟨?_, Routing.isUnion_served hverb hargs harity hshards hplaced
          hunion horder⟩
        intro u hu
        have hdelivery : (deliveriesOf c (.whole g.target))[0]? =
            some ⟨g.target, c, false, .pending⟩ :=
          rfl
        have hreply :=
          (Routing.execute_at_site hverb hshards hplaced hunion horder
            hdelivery).1
        exact reply_of_whole (hu 0 _ hreply)
    · have hshards := Routing.shards_of_groups s.targetOf hverb hargs harity
      refine ⟨Routing.partsOf c (Routing.groupKeys s.targetOf c.keys),
        ⟨c, .split (Routing.groupKeys s.targetOf c.keys), s.deliveries.length⟩,
        ?_, rfl, ?_⟩
      · unfold route
        rw [hopen, hplan]
        rfl
      · intro order horder
        refine ⟨?_, Routing.isUnion_served hverb hargs harity hshards hplaced
          hunion horder⟩
        intro u hu
        rw [reply_of_split (fun d => .ok (σ.execute d.command).1)
          (fun i d hd =>
            hu i _ (Routing.execute_at_site hverb hshards hplaced hunion horder
              hd).1), Routing.merge_parts hverb hargs harity]

def oneOwned (key : Bytes) : Session :=
  .start ⟨0,
    ⟨[.makeMaster "n1" (.atAddress "h" 1) []],
      Table.unowned.setIfInBounds (Slot.ofKey key) (some 0)⟩⟩ (.atAddress "d" 2)
        (.ofSeconds 1)

theorem targetOf_oneOwned (key other : Bytes) :
    (oneOwned key).targetOf other =
      if Slot.ofKey key = Slot.ofKey other then .node "n1"
      else .address "d" 2 := by
  have hslot : Slot.ofKey key < slotCount := Nat.mod_lt _ (by decide)
  unfold targetOf Routing.targetOf Table.keyOwner? Table.slotOwner? oneOwned
    start Table.unowned
  by_cases hsame : Slot.ofKey key = Slot.ofKey other
  · rw [← hsame, Vector.getElem?_setIfInBounds_self_of_lt hslot, if_pos rfl]
    rfl
  · rw [Vector.getElem?_setIfInBounds_ne hsame, Vector.getElem?_replicate,
      if_neg hsame]
    by_cases hlt : Slot.ofKey other < slotCount
    · rw [if_pos hlt]
      rfl
    · rw [if_neg hlt]
      rfl

def onlyA : Store :=
  Function.update (fun _ => none) [97] (some [120])

/-- The keys `a` and `b` are read from two targets.  Assigned together, `b` gets
a value although `a` has one already. -/
theorem route_execute_one_owned :
    (exists parts r, (oneOwned [97]).route ⟨"MGET", [[97], [98], [97]]⟩ =
        .ok ((oneOwned [97]).deliver parts, r) ∧
      forall order, order.Perm (List.range parts.length) -> forall u : Session,
        (forall i reply,
          (i, reply) ∈
            (Store.serve id parts
              (Store.scatter id (oneOwned [97]).targetOf onlyA) order).1 ->
          u.phase? (r.first + i) = some (.finished (.ok reply))) ->
        u.reply? r =
          some (.ok (.array [.bulk (some [120]), .null, .bulk (some [120])]))) ∧
    exists parts r,
      (oneOwned [97]).route ⟨"MSETNX", [[97], [121], [98], [121]]⟩ =
        .ok ((oneOwned [97]).deliver parts, r) ∧
      forall order, order.Perm (List.range parts.length) ->
        ¬ Store.IsUnion
          (Store.serve id parts
            (Store.scatter id (oneOwned [97]).targetOf onlyA) order).2
          (onlyA.execute ⟨"MSETNX", [[97], [121], [98], [121]]⟩).2 := by
  have hplaced := Store.placed_scatter id (oneOwned [97]).targetOf onlyA
  have hunion := Store.isUnion_scatter id (oneOwned [97]).targetOf onlyA
  constructor
  · have hread :=
      (route_execute (c := ⟨"MGET", [[97], [98], [97]]⟩) rfl (by decide)
        rfl hplaced hunion).2 (by decide)
    rcases hread with ⟨parts, r, hroute, _, hall⟩
    have hitems : Command.itemsOf 1 [[97], [98], [97]] =
        [([97], []), ([98], []), ([97], [])] := by
      simp [Command.itemsOf_cons, Command.itemsOf_nil]
    have hreply : (onlyA.execute ⟨"MGET", [[97], [98], [97]]⟩).1 =
        .array [.bulk (some [120]), .null, .bulk (some [120])] := by
      change (onlyA.exec .read (Command.itemsOf 1 [[97], [98], [97]])).1 = _
      rw [hitems]
      rfl
    refine ⟨parts, r, hroute, ?_⟩
    intro order horder u hu
    rw [(hall order horder).1 u hu, hreply]
  · have hassign :=
      (route_execute (c := ⟨"MSETNX", [[97], [121], [98], [121]]⟩)
        rfl (by decide) rfl hplaced hunion).2 (by decide)
    rcases hassign with ⟨parts, r, hroute, _, hall⟩
    have hmulti : Command.keyLayout ⟨"MSETNX", [[97], [121], [98], [121]]⟩ =
        .multi 2 := by
      decide
    have hkeys :
        Command.keys ⟨"MSETNX", [[97], [121], [98], [121]]⟩ = [[97], [98]] := by
      rw [Routing.keys_of_multi hmulti]
      simp [Command.itemsOf_cons, Command.itemsOf_nil]
    refine ⟨parts, r, hroute, ?_⟩
    intro order horder hsame
    have htaken := ((hall order horder).2.2 rfl).mp hsame [97] [98]
      (by rw [hkeys]; decide) rfl (by rw [hkeys]; decide)
    rcases htaken with ⟨key, hkey, htarget, hvalue⟩
    rw [hkeys] at hkey
    simp only [List.mem_cons, List.not_mem_nil, or_false] at hkey
    rcases hkey with hkey | hkey
    · rw [hkey, targetOf_oneOwned, targetOf_oneOwned, if_pos (by decide),
        if_neg (by decide)] at htarget
      cases htarget
    · rw [hkey] at hvalue
      cases hvalue

/-- A command that passes the check of its arguments may have no keys, and is
not routed then. -/
theorem no_route_without_keys :
    ¬ forall (s : Session) (c : Command), s.isClosed = false ->
      (c.name ∈ Command.keyListNames ∨ c.name ∈ Command.keyValueNames) ->
        c.checkArity = .ok () ->
      exists s' r, s.route c = .ok (s', r) := by
  intro h
  rcases h (oneOwned [97]) ⟨"MGET", []⟩ rfl (by decide) rfl with ⟨s', r, hroute⟩
  cases hroute

end Session
end SlotCluster
