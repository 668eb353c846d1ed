import SlotCluster.Proofs.Routing.Stores

/-!
# Shards of a command

The deliveries that a command is divided into: every target of a key gets, once,
the items of its keys.  Such deliveries do not get into each other's way.
-/

namespace SlotCluster

open Resp (Value)

/-! ## Verbs of commands -/

namespace Verb

theorem step_pos (verb : Verb) : 0 < verb.step := by
  cases verb <;> decide

theorem exists_of_name {name : String}
    (h : name ∈ Command.keyListNames ∨ name ∈ Command.keyValueNames) :
    exists verb, ofName? name = some verb := by
  unfold Command.keyListNames Command.keyValueNames at h
  simp only [List.mem_cons, List.not_mem_nil, or_false] at h
  rcases h with (h | h | h | h | h) | (h | h) <;> exact ⟨_, by rw [h]; rfl⟩

theorem name_of_verb {name : String} {verb : Verb}
    (h : ofName? name = some verb) :
    match verb with
    | .read => name = "MGET"
    | .count => name = "EXISTS" ∨ name = "TOUCH"
    | .remove => name = "DEL" ∨ name = "UNLINK"
    | .assign => name = "MSET"
    | .assignNew => name = "MSETNX" := by
  unfold ofName? at h
  split at h
  · rename_i hname
    cases h
    exact hname
  split at h
  · rename_i hname
    cases h
    simpa using hname
  split at h
  · rename_i hname
    cases h
    simpa using hname
  split at h
  · rename_i hname
    cases h
    exact hname
  split at h
  · rename_i hname
    cases h
    exact hname
  · cases h

theorem keyLayout_of_verb {c : Command} {verb : Verb}
    (h : ofName? c.name = some verb) (hargs : c.args ≠ []) :
    c.keyLayout = .multi verb.step := by
  have hempty : c.args.isEmpty = false := by
    rw [List.isEmpty_eq_false_iff]
    exact hargs
  have hname := name_of_verb h
  unfold Command.keyLayout
  rw [hempty]
  cases verb with
  | read =>
      rw [hname]
      rfl
  | count => rcases hname with hname | hname <;> rw [hname] <;> rfl
  | remove => rcases hname with hname | hname <;> rw [hname] <;> rfl
  | assign =>
      rw [hname]
      rfl
  | assignNew =>
      rw [hname]
      rfl

end Verb

namespace Store

variable {targetOf : Bytes -> Target} {σ τ : Store} {items : List Item}

theorem execute_of_verb {c : Command} {verb : Verb}
    (h : Verb.ofName? c.name = some verb) (σ : Store) :
    σ.execute c = σ.exec verb (Command.itemsOf verb.step c.args) := by
  unfold execute
  rw [h]

theorem reply_of_verb {c : Command} {verb : Verb}
    (h : Verb.ofName? c.name = some verb) (hnew : verb ≠ .assignNew)
    (σ : Store) :
    (σ.execute c).1 =
      verb.reply
        (σ.visit verb.effect (Command.itemsOf verb.step c.args)).1 := by
  rw [execute_of_verb h]
  unfold exec
  rw [if_neg (by simp [hnew])]

theorem map_snd_zip_visit (effect : Item -> Option Bytes -> Option Bytes)
    (σ : Store) (items : List Item) :
    (items.zip (visit effect σ items).1).map Prod.snd =
      (visit effect σ items).1 :=
  List.map_snd_zip (Nat.le_of_eq (length_visit effect σ items))

theorem visit_agree (effect : Item -> Option Bytes -> Option Bytes)
    (P : Bytes -> Bool) (h : forall key, P key = true -> τ key = σ key)
    (hitems : forall item, item ∈ items -> P item.1 = true) :
    (visit effect τ items).1 = (visit effect σ items).1 ∧
      forall key, P key = true ->
      (visit effect τ items).2 key = (visit effect σ items).2 key := by
  have hall : items.filter (fun item => P item.1) = items :=
    List.filter_eq_self.mpr hitems
  have hzip : (items.zip (visit effect σ items).1).filter (fun x => P x.1.1) =
      items.zip (visit effect σ items).1 := by
    apply List.filter_eq_self.mpr
    intro x hx
    exact hitems x.1 (List.of_mem_zip hx).1
  have hvisit := @visit_filter effect σ τ items P h
  rw [hall, hzip, map_snd_zip_visit] at hvisit
  exact hvisit

theorem any_agree {P : Bytes -> Bool}
    (h : forall key, P key = true -> τ key = σ key)
    (hitems : forall item, item ∈ items -> P item.1 = true) :
    items.any (fun item => (τ item.1).isSome) =
      items.any (fun item => (σ item.1).isSome) := by
  induction items with
  | nil => rfl
  | cons item rest ih =>
      rw [List.any_cons, List.any_cons,
        h item.1 (hitems item List.mem_cons_self),
        ih (fun other hother => hitems other (List.mem_cons_of_mem _ hother))]

theorem concerns_of_items {c : Command} {verb : Verb} {target : Target}
    (hverb : Verb.ofName? c.name = some verb)
    (hitems : forall item, item ∈ Command.itemsOf verb.step c.args ->
      targetOf item.1 = target) : Concerns targetOf target c := by
  have hdecide : forall item, item ∈ Command.itemsOf verb.step c.args ->
      decide (targetOf item.1 = target) = true := by
    intro item hitem
    rw [decide_eq_true_eq]
    exact hitems item hitem
  constructor
  · intro σ key hkey
    rw [execute_of_verb hverb]
    apply exec_other
    intro item hitem hsame
    exact hkey (hsame ▸ hitems item hitem)
  · intro σ τ h
    have hagree : forall key, decide (targetOf key = target) = true ->
        τ key = σ key := by
      intro key hkey
      rw [decide_eq_true_eq] at hkey
      exact h key hkey
    rcases visit_agree verb.effect _ hagree hdecide with ⟨hseen, hleft⟩
    rw [execute_of_verb hverb, execute_of_verb hverb]
    unfold exec
    rw [any_agree hagree hdecide]
    by_cases hrefused :
      (verb = .assignNew && (Command.itemsOf verb.step c.args).any
        (fun item => (σ item.1).isSome)) = true
    · rw [if_pos hrefused, if_pos hrefused]
      exact ⟨rfl, h⟩
    · rw [if_neg hrefused, if_neg hrefused]
      refine ⟨congrArg verb.reply hseen, ?_⟩
      intro key hkey
      exact hleft key (by rw [decide_eq_true_eq]; exact hkey)

end Store

/-! ## Parts of a command -/

namespace Routing

/-- The deliveries of a command: every target of a key gets the items of its
keys. -/
structure Shards (targetOf : Bytes -> Target) (c : Command) (verb : Verb)
    (deliveries : List Delivery) : Prop where
  name : forall {d : Delivery}, d ∈ deliveries -> d.command.name = c.name
  items : forall {d : Delivery}, d ∈ deliveries ->
    Command.itemsOf verb.step d.command.args =
      (Command.itemsOf verb.step c.args).filter
        (fun item => decide (targetOf item.1 = d.target))
  nodup : (deliveries.map Delivery.target).Nodup
  cover : forall {item : Item}, item ∈ Command.itemsOf verb.step c.args ->
    exists d, d ∈ deliveries ∧ d.target = targetOf item.1

variable {targetOf : Bytes -> Target} {c : Command} {verb : Verb} {σ : Store}

theorem keys_eq (hverb : Verb.ofName? c.name = some verb)
    (hargs : c.args ≠ []) :
    c.keys = (Command.itemsOf verb.step c.args).map Prod.fst :=
  keys_of_multi (Verb.keyLayout_of_verb hverb hargs)

theorem length_mod_of_checkArity (hverb : Verb.ofName? c.name = some verb)
    (hargs : c.args ≠ []) (harity : c.checkArity = .ok ()) :
    c.args.length % verb.step = 0 :=
  length_mod_of_multi (Verb.keyLayout_of_verb hverb hargs) harity

def partsOf (c : Command) (groups : List Group) : List Delivery :=
  Session.deliveriesOf c (.split groups)

theorem shards_of_groups (targetOf : Bytes -> Target)
    (hverb : Verb.ofName? c.name = some verb) (hargs : c.args ≠ [])
    (harity : c.checkArity = .ok ()) :
    Shards targetOf c verb (partsOf c (groupKeys targetOf c.keys)) := by
  have hlayout := Verb.keyLayout_of_verb hverb hargs
  have hmod := length_mod_of_checkArity hverb hargs harity
  have hkeys := keys_eq hverb hargs
  constructor
  case name =>
    intro d hd
    rcases List.mem_map.mp hd with ⟨g, _, hpart⟩
    rw [← hpart]
    unfold Command.selectKeyGroups
    rw [hlayout]
  case items =>
    intro d hd
    rcases List.mem_map.mp hd with ⟨g, hg, hpart⟩
    rw [hkeys] at hg
    rw [← hpart]
    unfold Command.selectKeyGroups
    rw [hlayout]
    exact itemsOf_part verb.step_pos hmod hg
  case nodup =>
    have htargets :
        (partsOf c (groupKeys targetOf c.keys)).map Delivery.target =
          (groupKeys targetOf c.keys).map Group.target := by
      unfold partsOf Session.deliveriesOf
      rw [List.map_map]
      rfl
    rw [htargets]
    exact (groupKeys_spec targetOf c.keys).1
  case cover =>
    intro item hitem
    have hkey : item.1 ∈ c.keys := by
      rw [hkeys]
      exact List.mem_map_of_mem hitem
    rcases exists_group targetOf hkey with ⟨g, hg, htarget⟩
    exact ⟨_, List.mem_map_of_mem hg, htarget⟩

theorem shards_of_only (hverb : Verb.ofName? c.name = some verb)
    (hargs : c.args ≠ []) {g : Group}
    (honly : groupKeys targetOf c.keys = [g]) :
    Shards targetOf c verb (Session.deliveriesOf c (.whole g.target)) := by
  have htarget : forall item, item ∈ Command.itemsOf verb.step c.args ->
      targetOf item.1 = g.target := by
    intro item hitem
    apply target_of_only honly
    rw [keys_eq hverb hargs]
    exact List.mem_map_of_mem hitem
  constructor
  case name =>
    intro d hd
    rw [List.mem_singleton.mp hd]
  case items =>
    intro d hd
    rw [List.mem_singleton.mp hd]
    symm
    apply List.filter_eq_self.mpr
    intro item hitem
    rw [decide_eq_true_eq]
    exact htarget item hitem
  case nodup =>
    simp [Session.deliveriesOf]
  case cover =>
    intro item hitem
    exact ⟨_, List.mem_singleton_self _, (htarget item hitem).symm⟩

theorem divided_of_shards (hverb : Verb.ofName? c.name = some verb)
    {deliveries : List Delivery} (h : Shards targetOf c verb deliveries) :
    Store.Divided targetOf deliveries := by
  constructor
  · intro i d hd
    have hmem := List.mem_of_getElem? hd
    have hpart : Verb.ofName? d.command.name = some verb := by
      rw [h.name hmem]
      exact hverb
    apply Store.concerns_of_items hpart
    intro item hitem
    rw [h.items hmem, List.mem_filter, decide_eq_true_eq] at hitem
    exact hitem.2
  · intro i j d e hd he htarget
    have hi : (deliveries.map Delivery.target)[i]? = some d.target := by
      rw [List.getElem?_map, hd]
      rfl
    have hj : (deliveries.map Delivery.target)[j]? = some d.target := by
      rw [List.getElem?_map, he, htarget]
      rfl
    exact (List.getElem?_inj (List.getElem?_eq_some_iff.mp hi).1 h.nodup).mp
      (hi.trans hj.symm)

end Routing
end SlotCluster
