import Mathlib.Data.List.Basic

/-!
# Tracks

Things of the same sort get numbers in the order in which they come.  When two
lists of things are compared of which the first one has more than the second,
the same thing has different numbers in them.  A *track* lists, thing by thing
as the second list counts them, which numbers they have in the first one.

Here are the changes of lists that keep things matched which correspond to each
other: those that are made on both sides, and those that are made on the first
side and concern none of the things on the track.
-/

namespace SlotCluster
namespace Pool

/-- The numbers that things have on a first side, in the order in which a second
side counts them.  A thing that is of no interest has none. -/
abbrev Track := List (Option Nat)

namespace Track

variable {T : Track} {i j k m n : Nat}

def Pairs (T : Track) (i j : Nat) : Prop :=
  T[j]? = some (some i)

def Has (T : Track) (i : Nat) : Prop :=
  some i ∈ T

def push (T : Track) (i : Nat) : Track :=
  T ++ [some i]

/-- The track after the first side has got new things, all of which the second
has got as well: there were `m` before, and now there are `n`. -/
def extend (T : Track) (m n : Nat) : Track :=
  T ++ (List.range' m (n - m)).map some

def number? (T : Track) (i : Nat) : Option Nat :=
  T.idxOf? (some i)

def pick (n : Nat) (f : Nat -> Bool) : Track :=
  (List.range n).map (fun i => if f i then some i else none)

theorem has_iff : Has T i <-> exists j, Pairs T i j :=
  List.mem_iff_getElem?

theorem Pairs.has (h : Pairs T i j) : Has T i :=
  has_iff.mpr ⟨j, h⟩

theorem Pairs.unique (hi : Pairs T i j) (hk : Pairs T k j) : i = k :=
  Option.some.inj (Option.some.inj (hi.symm.trans hk))

theorem Pairs.append (h : Pairs T i j) (U : Track) : Pairs (T ++ U) i j := by
  unfold Pairs
  rw [List.getElem?_append_left (List.getElem?_eq_some_iff.mp h).1]
  exact h

theorem pairs_last (T : Track) (i : Nat) : Pairs (push T i) i T.length :=
  List.getElem?_concat_length

theorem pairs_push :
    Pairs (push T m) i j <-> Pairs T i j ∨ i = m ∧ j = T.length := by
  constructor
  · intro h
    by_cases hlt : j < T.length
    · unfold Pairs push at h
      rw [List.getElem?_append_left hlt] at h
      exact Or.inl h
    · have hlast : j = T.length := by
        have hbound := (List.getElem?_eq_some_iff.mp h).1
        unfold push at hbound
        rw [List.length_append, List.length_singleton] at hbound
        omega
      rw [hlast] at h
      exact Or.inr ⟨h.unique (pairs_last T m), hlast⟩
  · rintro (h | ⟨rfl, rfl⟩)
    · exact h.append _
    · exact pairs_last T i

theorem has_push : Has (push T m) i <-> Has T i ∨ i = m := by
  unfold Has push
  rw [List.mem_append, List.mem_singleton, Option.some.injEq]

theorem number?_eq_none : T.number? i = none <-> ¬ Has T i :=
  List.idxOf?_eq_none_iff

theorem not_has_of_map {α : Type} {f : Nat -> α}
    (h : (T.number? i).map f = none) : ¬ Has T i :=
  number?_eq_none.mp (Option.map_eq_none_iff.mp h)

theorem pairs_of_number? (h : T.number? i = some j) : Pairs T i j := by
  rcases List.idxOf?_eq_some_iff.mp h with ⟨hlt, hat, _⟩
  exact List.getElem?_eq_some_iff.mpr ⟨hlt, hat⟩

theorem pairs_pick {f : Nat -> Bool} :
    Pairs (pick n f) i j <-> i = j ∧ i < n ∧ f i = true := by
  unfold Pairs pick
  rw [List.getElem?_map, Option.map_eq_some_iff]
  constructor
  · rintro ⟨k, hk, hpicked⟩
    rcases List.getElem?_eq_some_iff.mp hk with ⟨hlt, hat⟩
    rw [List.length_range] at hlt
    rw [List.getElem_range] at hat
    subst hat
    by_cases hf : f j = true
    · rw [if_pos hf] at hpicked
      cases hpicked
      exact ⟨rfl, hlt, hf⟩
    · rw [if_neg hf] at hpicked
      cases hpicked
  · rintro ⟨rfl, hlt, hf⟩
    exact ⟨i, List.getElem?_range hlt, if_pos hf⟩

theorem has_pick {f : Nat -> Bool} :
    Has (pick n f) i <-> i < n ∧ f i = true := by
  rw [has_iff]
  constructor
  · rintro ⟨j, hj⟩
    exact (pairs_pick.mp hj).2
  · intro h
    exact ⟨i, pairs_pick.mpr ⟨rfl, h⟩⟩

@[simp] theorem extend_self (T : Track) (m : Nat) : extend T m m = T := by
  simp [extend]

theorem extend_succ (T : Track) (m : Nat) : extend T m (m + 1) = push T m := by
  simp [extend, push]

theorem extend_extend (T : Track) (hmk : m ≤ k) (hkn : k ≤ n) :
    extend (extend T m k) k n = extend T m n := by
  have hsplit : n - m = (k - m) + (n - k) := by omega
  have hnext : m + (k - m) = k := by omega
  unfold extend
  rw [List.append_assoc, ← List.map_append, hsplit,
    ← List.range'_append_1, hnext]

/-- Things that correspond to each other along a track are related by `R`.  The
other things of the first side have the property `P`. -/
structure Matched {α : Type} (T : Track) (R : α -> α -> Prop) (P : α -> Prop)
    (xs ys : List α) : Prop where
  length : T.length = ys.length
  inj : forall {i j k : Nat}, Pairs T i j -> Pairs T i k -> j = k
  on : forall {i j : Nat}, Pairs T i j ->
    exists x y, xs[i]? = some x ∧ ys[j]? = some y ∧ R x y
  off : forall {i : Nat} {x : α}, xs[i]? = some x -> ¬ Has T i -> P x

namespace Matched

variable {α : Type} {R R' : α -> α -> Prop} {P P' : α -> Prop} {xs ys : List α}
  {x y : α} {f g : α -> α}

theorem lt (h : Matched T R P xs ys) (hi : Has T i) : i < xs.length := by
  rcases has_iff.mp hi with ⟨j, hj⟩
  rcases h.on hj with ⟨x, _, hx, _⟩
  exact (List.getElem?_eq_some_iff.mp hx).1

theorem not_has (h : Matched T R P xs ys) : ¬ Has T xs.length :=
  fun hi => Nat.lt_irrefl _ (h.lt hi)

theorem eq_iff (h : Matched T R P xs ys) {i' j' : Nat} (hi : Pairs T i j)
    (hi' : Pairs T i' j') : i = i' <-> j = j' := by
  constructor
  · rintro rfl
    exact h.inj hi hi'
  · rintro rfl
    exact hi.unique hi'

theorem imp (h : Matched T R P xs ys) (hR : forall {x y : α}, R x y -> R' x y)
    (hP : forall {i : Nat} {x : α}, xs[i]? = some x -> P x -> P' x) :
    Matched T R' P' xs ys where
  length := h.length
  inj := h.inj
  on hpair := by
    rcases h.on hpair with ⟨x, y, hx, hy, hxy⟩
    exact ⟨x, y, hx, hy, hR hxy⟩
  off hx hnot := hP hx (h.off hx hnot)

theorem getElem?_modify_same {i : Nat} (hx : xs[i]? = some x) (f : α -> α) :
    (xs.modify i f)[i]? = some (f x) := by
  rw [List.getElem?_modify, hx, Option.map_eq_map, Option.map_some, if_pos rfl]

theorem getElem?_modify_ne {i j : Nat} (xs : List α) (hne : i ≠ j)
    (f : α -> α) : (xs.modify i f)[j]? = xs[j]? := by
  rw [List.getElem?_modify, Option.map_eq_map]
  simp only [if_neg hne, Option.map_id_fun', id_eq]

theorem of_pick {f : Nat -> Bool}
    (hR : forall {i : Nat} {x : α}, xs[i]? = some x ->
      Has (pick xs.length f) i -> R x x)
    (hP : forall {i : Nat} {x : α}, xs[i]? = some x ->
      ¬ Has (pick xs.length f) i -> P x) :
    Matched (pick xs.length f) R P xs xs where
  length := by
    unfold pick
    rw [List.length_map, List.length_range]
  inj hj hk := (pairs_pick.mp hj).1.symm.trans (pairs_pick.mp hk).1
  on := by
    intro i j hpair
    rcases pairs_pick.mp hpair with ⟨rfl, hlt, hf⟩
    have hx := List.getElem?_eq_getElem hlt
    exact ⟨xs[i], xs[i], hx, hx, hR hx hpair.has⟩
  off := hP

/-! ## Changes on both sides -/

theorem modify (h : Matched T R P xs ys) (hpair : Pairs T i j)
    (hR : forall {x y : α}, R x y -> R (f x) (g y)) :
    Matched T R P (xs.modify i f) (ys.modify j g) where
  length := by
    rw [List.length_modify]
    exact h.length
  inj := h.inj
  on := by
    intro k l hkl
    rcases h.on hkl with ⟨x, y, hx, hy, hxy⟩
    by_cases hik : i = k
    · have hjl : j = l := (h.eq_iff hpair hkl).mp hik
      subst hik hjl
      exact ⟨f x, g y, getElem?_modify_same hx f,
        getElem?_modify_same hy g, hR hxy⟩
    · have hjl : j ≠ l := fun hjl => hik ((h.eq_iff hpair hkl).mpr hjl)
      exact ⟨x, y, (getElem?_modify_ne xs hik f).trans hx,
        (getElem?_modify_ne ys hjl g).trans hy, hxy⟩
  off := by
    intro k x hx hnot
    have hik : i ≠ k := by
      rintro rfl
      exact hnot hpair.has
    rw [getElem?_modify_ne xs hik f] at hx
    exact h.off hx hnot

theorem push (h : Matched T R P xs ys) (hnew : R x y) :
    Matched (Track.push T xs.length) R P (xs ++ [x]) (ys ++ [y]) where
  length := by
    unfold Track.push
    rw [List.length_append, List.length_append, h.length]
    rfl
  inj := by
    intro i j k hj hk
    rcases pairs_push.mp hj with hj | ⟨hi, hj⟩
    · rcases pairs_push.mp hk with hk | ⟨hi, _⟩
      · exact h.inj hj hk
      · exact absurd (hi ▸ hj.has) h.not_has
    · rcases pairs_push.mp hk with hk | ⟨_, hk⟩
      · exact absurd (hi ▸ hk.has) h.not_has
      · exact hj.trans hk.symm
  on := by
    intro i j hpair
    rcases pairs_push.mp hpair with hpair | ⟨rfl, rfl⟩
    · rcases h.on hpair with ⟨a, b, ha, hb, hab⟩
      refine ⟨a, b, ?_, ?_, hab⟩
      · rw [List.getElem?_append_left (List.getElem?_eq_some_iff.mp ha).1]
        exact ha
      · rw [List.getElem?_append_left (List.getElem?_eq_some_iff.mp hb).1]
        exact hb
    · refine ⟨x, y, List.getElem?_concat_length, ?_, hnew⟩
      rw [h.length]
      exact List.getElem?_concat_length
  off := by
    intro i a ha hnot
    rw [has_push, not_or] at hnot
    apply h.off _ hnot.1
    rw [List.getElem?_append] at ha
    split at ha
    · exact ha
    · rename_i hge
      have hbound := (List.getElem?_eq_some_iff.mp ha).1
      rw [List.length_singleton] at hbound
      exact absurd (by omega) hnot.2

theorem mapIdx (h : Matched T R P xs ys) {f g : Nat -> α -> α}
    (hR : forall {i j : Nat} {x y : α}, R x y -> R (f i x) (g j y))
    (hP : forall {i : Nat} {x : α}, P x -> P (f i x)) :
    Matched T R P (xs.mapIdx f) (ys.mapIdx g) where
  length := by
    rw [List.length_mapIdx]
    exact h.length
  inj := h.inj
  on := by
    intro i j hpair
    rcases h.on hpair with ⟨x, y, hx, hy, hxy⟩
    refine ⟨f i x, g j y, ?_, ?_, hR hxy⟩
    · rw [List.getElem?_mapIdx, hx, Option.map_some]
    · rw [List.getElem?_mapIdx, hy, Option.map_some]
  off := by
    intro i x hx hnot
    rw [List.getElem?_mapIdx, Option.map_eq_some_iff] at hx
    rcases hx with ⟨old, hold, rfl⟩
    exact hP (h.off hold hnot)

/-! ## Changes on the first side only -/

theorem modify_off (h : Matched T R P xs ys) (hnot : ¬ Has T i)
    (hP : forall {x : α}, P x -> P (f x)) :
    Matched T R P (xs.modify i f) ys where
  length := h.length
  inj := h.inj
  on := by
    intro k l hkl
    rcases h.on hkl with ⟨x, y, hx, hy, hxy⟩
    have hik : i ≠ k := by
      rintro rfl
      exact hnot hkl.has
    exact ⟨x, y, (getElem?_modify_ne xs hik f).trans hx, hy, hxy⟩
  off := by
    intro k x hx hk
    by_cases hik : i = k
    · subst hik
      rw [List.getElem?_modify, Option.map_eq_map, Option.map_eq_some_iff] at hx
      rcases hx with ⟨old, hold, rfl⟩
      rw [if_pos rfl]
      exact hP (h.off hold hk)
    · rw [getElem?_modify_ne xs hik f] at hx
      exact h.off hx hk

theorem push_off (h : Matched T R P xs ys) (hnew : P x) :
    Matched T R P (xs ++ [x]) ys where
  length := h.length
  inj := h.inj
  on := by
    intro i j hpair
    rcases h.on hpair with ⟨a, b, ha, hb, hab⟩
    refine ⟨a, b, ?_, hb, hab⟩
    rw [List.getElem?_append_left (List.getElem?_eq_some_iff.mp ha).1]
    exact ha
  off := by
    intro i a ha hnot
    rw [List.getElem?_append] at ha
    split at ha
    · exact h.off ha hnot
    · rw [List.mem_singleton.mp (List.mem_of_getElem? ha)]
      exact hnew

end Matched
end Track

end Pool
end SlotCluster
