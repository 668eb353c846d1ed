import Mathlib.Logic.Function.Basic
import SlotCluster.Client.Session
import SlotCluster.Proofs.Routing.Parts

/-!
# Key/value stores

What a node does with the commands that are split: it goes through the keys one
by one, and each key sees the value that it has when its turn comes.  Which
other value it then gets depends on the command, and the reply depends on what
the keys have seen.

Only the values of its own keys matter to a command, so a store with some of the
keys does with its part of a command what a store with all the keys does with
the whole.
-/

namespace SlotCluster

open Resp (Value)

abbrev Store := Bytes -> Option Bytes

inductive Verb where
  /-- Returns the values. -/
  | read
  /-- Counts the keys that have values. -/
  | count
  /-- Removes the values and counts them. -/
  | remove
  /-- Gives every key the value that belongs to it. -/
  | assign
  /-- Does so if no key has a value. -/
  | assignNew
  deriving DecidableEq, Repr

namespace Verb

def ofName? (name : String) : Option Verb :=
  if name = "MGET" then some .read
  else if name = "EXISTS" || name = "TOUCH" then some .count
  else if name = "DEL" || name = "UNLINK" then some .remove
  else if name = "MSET" then some .assign
  else if name = "MSETNX" then some .assignNew
  else none

def step : Verb -> Nat
  | .assign => 2
  | .assignNew => 2
  | _ => 1

def effect : Verb -> Item -> Option Bytes -> Option Bytes
  | .read, _, value => value
  | .count, _, value => value
  | .remove, _, _ => none
  | .assign, item, _ => item.2.head?
  | .assignNew, item, _ => item.2.head?

def valueReply : Option Bytes -> Value
  | some content => .bulk (some content)
  | none => .null

def countReply (seen : List (Option Bytes)) : Value :=
  .integer (Int64.ofNat (seen.countP Option.isSome))

def reply : Verb -> List (Option Bytes) -> Value
  | .read, seen => .array (seen.map valueReply)
  | .count, seen => countReply seen
  | .remove, seen => countReply seen
  | .assign, _ => .ok
  | .assignNew, _ => .integer 1

end Verb

namespace Store

def visit (effect : Item -> Option Bytes -> Option Bytes) (σ : Store) :
    List Item -> List (Option Bytes) × Store
  | [] => ([], σ)
  | item :: rest =>
      let later :=
        visit effect (Function.update σ item.1 (effect item (σ item.1))) rest
      (σ item.1 :: later.1, later.2)

def exec (σ : Store) (verb : Verb) (items : List Item) : Value × Store :=
  let done := visit verb.effect σ items
  if verb = .assignNew && items.any (fun item => (σ item.1).isSome) then
    (.integer 0, σ)
  else
    (verb.reply done.1, done.2)

def execute (σ : Store) (c : Command) : Value × Store :=
  match Verb.ofName? c.name with
  | some verb => σ.exec verb (Command.itemsOf verb.step c.args)
  | none => (.errorText "ERR unknown command", σ)

variable {effect : Item -> Option Bytes -> Option Bytes} {σ τ : Store}
  {items : List Item}

theorem length_visit (effect : Item -> Option Bytes -> Option Bytes) (σ : Store)
    (items : List Item) : (visit effect σ items).1.length = items.length := by
  induction items generalizing σ with
  | nil => rfl
  | cons item rest ih => exact congrArg Nat.succ (ih _)

theorem visit_other {key : Bytes}
    (h : forall item, item ∈ items -> item.1 ≠ key) :
    (visit effect σ items).2 key = σ key := by
  induction items generalizing σ with
  | nil => rfl
  | cons item rest ih =>
      change (visit effect _ rest).2 key = σ key
      rw [ih (fun other hother => h other (List.mem_cons_of_mem _ hother))]
      exact Function.update_of_ne (Ne.symm (h item List.mem_cons_self)) _ _

theorem visit_filter (P : Bytes -> Bool)
    (h : forall key, P key = true -> τ key = σ key) :
    (visit effect τ (items.filter (fun item => P item.1))).1 =
        ((items.zip (visit effect σ items).1).filter (fun x => P x.1.1)).map
          Prod.snd ∧
      forall key, P key = true ->
        (visit effect τ (items.filter (fun item => P item.1))).2 key =
          (visit effect σ items).2 key := by
  induction items generalizing σ τ with
  | nil => exact ⟨rfl, h⟩
  | cons item rest ih =>
      by_cases hP : P item.1 = true
      · have hafter : forall key, P key = true ->
            Function.update τ item.1 (effect item (τ item.1)) key =
              Function.update σ item.1 (effect item (σ item.1)) key := by
          intro key hkey
          by_cases hsame : key = item.1
          · rw [hsame, Function.update_self, Function.update_self, h item.1 hP]
          · rw [Function.update_of_ne hsame,
              Function.update_of_ne hsame, h key hkey]
        rcases ih hafter with ⟨hseen, hleft⟩
        have hfilter : (item :: rest).filter (fun item => P item.1) = item ::
            rest.filter (fun item => P item.1) :=
          List.filter_cons_of_pos hP
        rw [hfilter]
        constructor
        · change τ item.1 :: (visit effect _ _).1 =
            (((item, σ item.1) :: rest.zip (visit effect _ rest).1).filter
              (fun x => P x.1.1)).map Prod.snd
          rw [hseen, List.filter_cons, if_pos hP, List.map_cons, h item.1 hP]
        · exact hleft
      · have hafter : forall key, P key = true ->
            τ key = Function.update σ item.1 (effect item (σ item.1)) key := by
          intro key hkey
          rw [Function.update_of_ne, h key hkey]
          intro hsame
          exact hP (hsame ▸ hkey)
        rcases ih hafter with ⟨hseen, hleft⟩
        have hfilter : (item :: rest).filter (fun item => P item.1) =
            rest.filter (fun item => P item.1) := List.filter_cons_of_neg hP
        rw [hfilter]
        constructor
        · change (visit effect τ _).1 =
            (((item, σ item.1) :: rest.zip (visit effect _ rest).1).filter
              (fun x => P x.1.1)).map Prod.snd
          rw [hseen, List.filter_cons, if_neg hP]
        · exact hleft

theorem visit_isSome
    (heffect : forall item value, item ∈ items ->
      (effect item value).isSome = true)
    {key : Bytes} (h : key ∈ items.map Prod.fst ∨ (σ key).isSome = true) :
    ((visit effect σ items).2 key).isSome = true := by
  induction items generalizing σ with
  | nil =>
      rcases h with h | h
      · cases h
      · exact h
  | cons item rest ih =>
      apply ih (fun other value hother =>
        heffect other value (List.mem_cons_of_mem _ hother))
      by_cases hsame : key = item.1
      · rw [hsame, Function.update_self]
        exact Or.inr (heffect item _ List.mem_cons_self)
      · rw [Function.update_of_ne hsame]
        rcases h with h | h
        · rw [List.map_cons, List.mem_cons] at h
          rcases h with h | h
          · exact absurd h hsame
          · exact Or.inl h
        · exact Or.inr h

theorem exec_other {verb : Verb} {key : Bytes}
    (h : forall item, item ∈ items -> item.1 ≠ key) :
    (σ.exec verb items).2 key = σ key := by
  unfold exec
  by_cases hrefused :
    (verb = .assignNew && items.any (fun item => (σ item.1).isSome)) = true
  · rw [if_pos hrefused]
  · rw [if_neg hrefused]
    exact visit_other h

/-! ## Unions -/

variable {ι : Type} {site : Target -> ι} {targetOf : Bytes -> Target}
  {stores : ι -> Store}

def Placed (site : Target -> ι) (targetOf : Bytes -> Target)
    (stores : ι -> Store) : Prop :=
  forall i key content, stores i key = some content -> i = site (targetOf key)

/-- A store has the values that some site has. -/
def IsUnion (stores : ι -> Store) (σ : Store) : Prop :=
  forall key content, σ key = some content <->
    exists i, stores i key = some content

theorem IsUnion.eq_at_site (hunion : IsUnion stores σ)
    (hplaced : Placed site targetOf stores) (key : Bytes) :
    stores (site (targetOf key)) key = σ key := by
  apply Option.ext
  intro content
  rw [hunion key content]
  constructor
  · intro h
    exact ⟨_, h⟩
  · intro h
    rcases h with ⟨i, hi⟩
    rw [← hplaced i key content hi]
    exact hi

theorem Placed.isUnion (hplaced : Placed site targetOf stores)
    (h : forall key, stores (site (targetOf key)) key = σ key) :
    IsUnion stores σ := by
  intro key content
  rw [← h key]
  constructor
  · intro hcontent
    exact ⟨_, hcontent⟩
  · intro hcontent
    rcases hcontent with ⟨i, hi⟩
    rw [← hplaced i key content hi]
    exact hi

def scatter [DecidableEq ι] (site : Target -> ι) (targetOf : Bytes -> Target)
    (σ : Store) : ι -> Store :=
  fun i key => if i = site (targetOf key) then σ key else none

theorem placed_scatter [DecidableEq ι] (site : Target -> ι)
    (targetOf : Bytes -> Target) (σ : Store) :
    Placed site targetOf (scatter site targetOf σ) := by
  intro i key content h
  by_contra hi
  unfold scatter at h
  rw [if_neg hi] at h
  cases h

theorem isUnion_scatter [DecidableEq ι] (site : Target -> ι)
    (targetOf : Bytes -> Target) (σ : Store) :
    IsUnion (scatter site targetOf σ) σ := by
  apply (placed_scatter site targetOf σ).isUnion
  intro key
  unfold scatter
  rw [if_pos rfl]

/-! ## Deliveries -/

variable [DecidableEq ι] {deliveries : List Delivery} {order : List Nat}

def after (site : Target -> ι) (stores : ι -> Store)
    (d : Delivery) : ι -> Store :=
  Function.update stores (site d.target)
    ((stores (site d.target)).execute d.command).2

/-- The stores of the sites after some deliveries have been executed in the
given order, and the reply to each. -/
def serve (site : Target -> ι) (deliveries : List Delivery)
    (stores : ι -> Store) : List Nat -> List (Nat × Value) × (ι -> Store)
  | [] => ([], stores)
  | i :: rest =>
      match deliveries[i]? with
      | none => serve site deliveries stores rest
      | some d =>
          let later := serve site deliveries (after site stores d) rest
          ((i, ((stores (site d.target)).execute d.command).1) ::
            later.1, later.2)

/-- A command concerns the keys of one target only: nothing else changes, and
nothing else counts. -/
structure Concerns (targetOf : Bytes -> Target) (target : Target)
    (c : Command) : Prop where
  other : forall (σ : Store) (key : Bytes), targetOf key ≠ target ->
    (σ.execute c).2 key = σ key
  agree : forall σ τ : Store,
    (forall key, targetOf key = target -> τ key = σ key) ->
    (τ.execute c).1 = (σ.execute c).1 ∧ forall key, targetOf key = target ->
    (τ.execute c).2 key = (σ.execute c).2 key

/-- Every delivery concerns the keys of its target, and no two deliveries have a
target in common. -/
structure Divided (targetOf : Bytes -> Target)
    (deliveries : List Delivery) : Prop where
  concerns : forall {i : Nat} {d : Delivery}, deliveries[i]? = some d ->
    Concerns targetOf d.target d.command
  distinct : forall {i j : Nat} {d e : Delivery}, deliveries[i]? = some d ->
    deliveries[j]? = some e -> d.target = e.target -> i = j

theorem after_other {d : Delivery} (hd : Concerns targetOf d.target d.command)
    {key : Bytes} (hkey : targetOf key ≠ d.target) (i : ι) :
    after site stores d i key = stores i key := by
  unfold after
  by_cases hi : i = site d.target
  · rw [hi, Function.update_self]
    exact hd.other _ key hkey
  · rw [Function.update_of_ne hi]

theorem serve_cons {i : Nat} {d : Delivery} (h : deliveries[i]? = some d)
    (rest : List Nat) :
    serve site deliveries stores (i :: rest) =
      ((i, ((stores (site d.target)).execute d.command).1) ::
          (serve site deliveries (after site stores d) rest).1,
        (serve site deliveries (after site stores d) rest).2) := by
  rw [serve]
  simp only [h]

theorem serve_cons_none {i : Nat} (h : deliveries[i]? = none)
    (rest : List Nat) :
    serve site deliveries stores (i :: rest) =
      serve site deliveries stores rest := by
  rw [serve]
  simp only [h]

theorem serve_other (hdivided : Divided targetOf deliveries) {key : Bytes}
    (hkey : forall i d, i ∈ order -> deliveries[i]? = some d ->
      targetOf key ≠ d.target)
    (i : ι) : (serve site deliveries stores order).2 i key = stores i key := by
  induction order generalizing stores with
  | nil => rfl
  | cons j rest ih =>
      have hrest : forall i d, i ∈ rest -> deliveries[i]? = some d ->
          targetOf key ≠ d.target :=
        fun i d hi => hkey i d (List.mem_cons_of_mem _ hi)
      cases hj : deliveries[j]? with
      | none =>
          rw [serve_cons_none hj]
          exact ih hrest
      | some d =>
          rw [serve_cons hj]
          change (serve site deliveries _ rest).2 i key = _
          rw [ih hrest]
          exact after_other (hdivided.concerns hj)
            (hkey j d List.mem_cons_self hj) i

theorem serve_elsewhere (hdivided : Divided targetOf deliveries) {key : Bytes}
    {i : ι} (hi : i ≠ site (targetOf key)) :
    (serve site deliveries stores order).2 i key = stores i key := by
  induction order generalizing stores with
  | nil => rfl
  | cons j rest ih =>
      cases hj : deliveries[j]? with
      | none =>
          rw [serve_cons_none hj]
          exact ih
      | some d =>
          rw [serve_cons hj]
          change (serve site deliveries _ rest).2 i key = _
          rw [ih]
          by_cases hkey : targetOf key = d.target
          · unfold after
            rw [Function.update_of_ne]
            rw [← hkey]
            exact hi
          · exact after_other (hdivided.concerns hj) hkey i

/-- Whatever the order, a delivery finds the values of its keys as they were at
the beginning, and leaves them as they are in the end. -/
theorem serve_of_mem (hdivided : Divided targetOf deliveries)
    (hnodup : order.Nodup) {j : Nat} {d : Delivery} (hj : j ∈ order)
    (hd : deliveries[j]? = some d) :
    (j, ((stores (site d.target)).execute d.command).1) ∈
      (serve site deliveries stores order).1 ∧
      forall key, targetOf key = d.target ->
        (serve site deliveries stores order).2 (site d.target) key =
          ((stores (site d.target)).execute d.command).2 key := by
  -- What is executed before `j` concerns other targets and is not seen by it;
  -- what is executed after it does not touch its keys again.
  induction order generalizing stores with
  | nil => cases hj
  | cons i rest ih =>
      rw [List.nodup_cons] at hnodup
      by_cases hij : i = j
      · subst hij
        rw [serve_cons hd]
        refine ⟨List.mem_cons_self, ?_⟩
        intro key hkey
        change (serve site deliveries _ rest).2 (site d.target) key = _
        rw [serve_other hdivided]
        · unfold after
          rw [Function.update_self]
        · intro k e hk he hsame
          rw [hkey] at hsame
          exact hnodup.1 (hdivided.distinct hd he hsame ▸ hk)
      · have hmem : j ∈ rest := by
          rcases List.mem_cons.mp hj with h | h
          · exact absurd h.symm hij
          · exact h
        cases hi : deliveries[i]? with
        | none =>
            rw [serve_cons_none hi]
            exact ih hnodup.2 hmem
        | some e =>
            have hsame : forall key, targetOf key = d.target ->
                after site stores e (site d.target) key =
                  stores (site d.target) key := by
              intro key hkey
              apply after_other (hdivided.concerns hi)
              intro h
              exact hij (hdivided.distinct hi hd (h.symm.trans hkey))
            rcases (hdivided.concerns hd).agree _ _ hsame with ⟨hreply, hvalue⟩
            rcases ih hnodup.2 hmem with ⟨hlog, hleft⟩
            rw [serve_cons hi]
            constructor
            · rw [← hreply]
              exact List.mem_cons_of_mem _ hlog
            · intro key hkey
              change (serve site deliveries _ rest).2 (site d.target) key = _
              rw [hleft key hkey]
              exact hvalue key hkey

theorem Placed.serve (hplaced : Placed site targetOf stores)
    (hdivided : Divided targetOf deliveries) (order : List Nat) :
    Placed site targetOf (serve site deliveries stores order).2 := by
  intro i key content h
  by_contra hi
  rw [serve_elsewhere hdivided hi] at h
  exact hi (hplaced i key content h)

end Store
end SlotCluster
