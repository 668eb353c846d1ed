import SlotCluster.Proofs.Routing.Owners
import SlotCluster.Proofs.Routing.Splitting
import SlotCluster.Proofs.Slot.Division

/-!
# Keys with a tag

The tag of a key is what stands between its first opening brace and the next
closing brace, when anything does.  The slot of a key is the check of its tag,
or of the whole key when it has no tag.  Keys with one tag have one slot and so
one target, and a command all of whose keys have the same tag is never split.
-/

namespace SlotCluster
namespace Slot

variable {tag key before after : Bytes}

def Tagged (tag key : Bytes) : Prop :=
  exists before after,
    key = before ++ openBrace :: (tag ++ closeBrace :: after) ∧
    openBrace ∉ before ∧ tag ≠ [] ∧ closeBrace ∉ tag

/-- The ways in which a key can be without a tag. -/
inductive Bare : Bytes -> Prop where
  | unopened (key : Bytes) (h : openBrace ∉ key) : Bare key
  | unclosed (before after : Bytes) (h : openBrace ∉ before)
      (hafter : closeBrace ∉ after) : Bare (before ++ openBrace :: after)
  | empty (before after : Bytes) (h : openBrace ∉ before) :
      Bare (before ++ openBrace :: closeBrace :: after)

/-! ## Finding the tag -/

theorem untilClose_of_not_mem (h : closeBrace ∉ tag) :
    untilClose tag = none := by
  induction tag with
  | nil => rfl
  | cons b rest ih =>
      rw [List.mem_cons, not_or] at h
      rw [untilClose, if_neg (Ne.symm h.1), ih h.2]
      rfl

theorem untilClose_append (h : closeBrace ∉ tag) (after : Bytes) :
    untilClose (tag ++ closeBrace :: after) = some tag := by
  induction tag with
  | nil => exact if_pos rfl
  | cons b rest ih =>
      rw [List.mem_cons, not_or] at h
      rw [List.cons_append, untilClose, if_neg (Ne.symm h.1), ih h.2]
      rfl

theorem tag?_of_not_mem (h : openBrace ∉ key) : tag? key = none := by
  induction key with
  | nil => rfl
  | cons b rest ih =>
      rw [List.mem_cons, not_or] at h
      rw [tag?, if_neg (Ne.symm h.1), ih h.2]

theorem tag?_append (h : openBrace ∉ before) (after : Bytes) :
    tag? (before ++ openBrace :: after) = untilClose after := by
  induction before with
  | nil => exact if_pos rfl
  | cons b rest ih =>
      rw [List.mem_cons, not_or] at h
      rw [List.cons_append, tag?, if_neg (Ne.symm h.1), ih h.2]

theorem effective_of_tagged (h : Tagged tag key) : effective key = tag := by
  rcases h with ⟨before, after, rfl, hbefore, hne, htag⟩
  unfold effective
  rw [tag?_append hbefore, untilClose_append htag]
  cases tag with
  | nil => exact absurd rfl hne
  | cons b rest => rfl

theorem effective_of_bare (h : Bare key) : effective key = key := by
  unfold effective
  cases h with
  | unopened _ hkey => rw [tag?_of_not_mem hkey]
  | unclosed _ _ hbefore hafter =>
      rw [tag?_append hbefore, untilClose_of_not_mem hafter]
  | empty _ _ hbefore => rw [tag?_append hbefore, untilClose, if_pos rfl]

/-! ## Which keys have a tag -/

theorem bare_of_not_mem (h : closeBrace ∉ key) : Bare key := by
  by_cases hopen : openBrace ∈ key
  · rcases List.eq_append_cons_of_mem hopen with ⟨before, after, rfl, hbefore⟩
    exact .unclosed before after hbefore
      (fun hafter =>
        h (List.mem_append_right _ (List.mem_cons_of_mem _ hafter)))
  · exact .unopened key hopen

theorem tagged_or_bare (key : Bytes) :
    (exists tag, Tagged tag key) ∨ Bare key := by
  by_cases hopen : openBrace ∈ key
  · rcases List.eq_append_cons_of_mem hopen with ⟨before, after, rfl, hbefore⟩
    by_cases hclose : closeBrace ∈ after
    · rcases List.eq_append_cons_of_mem hclose with ⟨tag, rest, rfl, htag⟩
      cases tag with
      | nil => exact Or.inr (.empty before rest hbefore)
      | cons b tag =>
          exact Or.inl
            ⟨b :: tag, before, rest, rfl, hbefore, List.cons_ne_nil b tag, htag⟩
    · exact Or.inr (.unclosed before after hbefore hclose)
  · exact Or.inr (.unopened key hopen)

theorem not_tagged_of_bare (h : Bare key) (tag : Bytes) : ¬ Tagged tag key := by
  intro htagged
  have hsame : tag = key :=
    (effective_of_tagged htagged).symm.trans (effective_of_bare h)
  rcases htagged with ⟨before, after, hkey, _, _, hclose⟩
  rw [hsame, hkey] at hclose
  exact hclose (by simp)

theorem ofKey_eq (key : Bytes) :
    ofKey key = checksum (effective key) % slotCount := by
  rw [ofKey, crc_eq_checksum]

theorem ofKey_of_tagged (h : Tagged tag key) : ofKey key = ofKey tag := by
  have hclose : closeBrace ∉ tag := by
    rcases h with ⟨_, _, _, _, _, hclose⟩
    exact hclose
  rw [ofKey_eq, ofKey_eq, effective_of_tagged h,
    effective_of_bare (bare_of_not_mem hclose)]

end Slot

namespace Routing

theorem targetOf_of_tagged {tag key : Bytes} (h : Slot.Tagged tag key)
    (table : Table) (fallback : Endpoint) :
    targetOf table fallback key = targetOf table fallback tag := by
  unfold targetOf Table.keyOwner?
  rw [Slot.ofKey_of_tagged h]

theorem groupKeys_of_one {targetOf : Bytes -> Target} {keys : List Bytes}
    {target : Target} (hkeys : keys ≠ [])
    (hone : forall key, key ∈ keys -> targetOf key = target) :
    groupKeys targetOf keys = [⟨target, List.range keys.length⟩] := by
  rcases exists_only hkeys
      (fun key other hkey hother =>
        (hone key hkey).trans (hone other hother).symm) with
    ⟨⟨own, positions⟩, honly⟩
  have hown : own = target := by
    rcases List.exists_mem_of_ne_nil keys hkeys with ⟨key, hkey⟩
    exact (target_of_only honly hkey).symm.trans (hone key hkey)
  have hall : keys.zipIdx.filter (fun x => decide (targetOf x.1 = own)) =
      keys.zipIdx := by
    apply List.filter_eq_self.mpr
    intro x hx
    rw [decide_eq_true_eq, hown]
    exact hone x.1 (List.fst_mem_of_mem_zipIdx hx)
  have hpositions : positions = List.range keys.length := by
    have hmem : (⟨own, positions⟩ : Group) ∈ groupKeys targetOf keys := by
      rw [honly]
      exact List.mem_singleton_self _
    rw [show positions = _ from positions_of_mem hmem, positionsFrom_eq, hall,
      List.zipIdx_map_snd, List.range_eq_range']
  rw [honly, hown, hpositions]

end Routing

namespace Session

open Slot (Tagged Bare ofKey checksum)

/-- The slot of a key is the remainder of its tag, or of the whole key if it has
no tag: no opening brace, no closing brace after the first opening one, or
nothing between the two.  A command with complete keys that all have the same
tag goes as it is to the target of the tag, whatever the table. -/
theorem routed_by_tag :
    (forall tag key, Tagged tag key ->
      ofKey key = checksum tag % slotCount ∧ ofKey key = ofKey tag) ∧
      (forall key, (forall tag, ¬ Tagged tag key) ->
        ofKey key = checksum key % slotCount) ∧
      (forall key, (forall tag, ¬ Tagged tag key) <-> Bare key) ∧
      forall (c : Command) (step : Nat) (tag : Bytes),
        c.keyLayout = .multi step ->
        (forall key, key ∈ c.keys -> Tagged tag key) ->
        (forall table fallback,
          Routing.groupKeys (Routing.targetOf table fallback) c.keys =
          [⟨Routing.targetOf table fallback tag, List.range c.keys.length⟩]) ∧
        forall s : Session, s.isClosed = false ->
          (c.checkArity = .ok () ->
            s.route c = .ok
              (s.deliver
                [{ target := s.targetOf tag, command := c, guarded := false }],
              ⟨c, .whole (s.targetOf tag), s.deliveries.length⟩)) ∧
          forall e, c.checkArity = .error e ->
            s.route c = .error (.invalidCommand e) := by
  have hbare (key : Bytes) : (forall tag, ¬ Tagged tag key) <-> Bare key := by
    constructor
    · intro hnone
      exact (Slot.tagged_or_bare key).resolve_left (not_exists.mpr hnone)
    · exact Slot.not_tagged_of_bare
  refine ⟨?_, ?_, hbare, ?_⟩
  · intro tag key htagged
    refine ⟨?_, Slot.ofKey_of_tagged htagged⟩
    rw [Slot.ofKey_eq, Slot.effective_of_tagged htagged]
  · intro key hnone
    rw [Slot.ofKey_eq, Slot.effective_of_bare ((hbare key).mp hnone)]
  · intro c step tag hmulti htagged
    have hgroups (table : Table) (fallback : Endpoint) :
        Routing.groupKeys (Routing.targetOf table fallback) c.keys =
          [⟨Routing.targetOf table fallback tag, List.range c.keys.length⟩] :=
      Routing.groupKeys_of_one (Routing.keys_ne_nil_of_multi hmulti)
        (fun key hkey =>
          Routing.targetOf_of_tagged (htagged key hkey) table fallback)
    refine ⟨hgroups,
      fun s hopen => ⟨?_, fun e harity => route_of_arity hopen harity⟩⟩
    intro harity
    have hplan : Routing.plan s.pool.table.table s.fallback c =
        .ok (.whole (s.targetOf tag)) := by
      unfold Routing.plan
      rw [harity, hmulti]
      dsimp only
      rw [hgroups]
      rfl
    exact route_of_plan hopen hplan

/-- The keys `{t}a` and `{t}b` have the slot of `t` and are assigned in one
command, while `{}t` is a key like any other. -/
theorem routed_by_tag_pair :
    Tagged [116] [123, 116, 125, 97] ∧ ofKey [123, 116, 125, 97] = ofKey [116] ∧
      ofKey [123, 125, 116] = checksum [123, 125, 116] % slotCount ∧
      (oneOwned [116]).route
        ⟨"MSET", [[123, 116, 125, 97], [49], [123, 116, 125, 98], [50]]⟩ =
        .ok ((oneOwned [116]).deliver
            [{ target := .node "n1",
               command :=
                 ⟨"MSET",
                     [[123, 116, 125, 97], [49], [123, 116, 125, 98], [50]]⟩,
                       guarded :=
                   false }],
          ⟨⟨"MSET", [[123, 116, 125, 97], [49], [123, 116, 125, 98], [50]]⟩,
            .whole (.node "n1"), 0⟩) := by
  rcases routed_by_tag with ⟨hslots, hwhole, hbare, hroutes⟩
  have hfirst : Tagged [116] [123, 116, 125, 97] :=
    ⟨[], [97], rfl, by decide, by decide, by decide⟩
  have hsecond : Tagged [116] [123, 116, 125, 98] :=
    ⟨[], [98], rfl, by decide, by decide, by decide⟩
  have htarget : (oneOwned [116]).targetOf [116] = .node "n1" := by
    rw [targetOf_oneOwned, if_pos rfl]
  have hmulti :
      Command.keyLayout
        ⟨"MSET", [[123, 116, 125, 97], [49], [123, 116, 125, 98], [50]]⟩ =
        .multi 2 := by
    decide
  have hkeys :
      Command.keys
        ⟨"MSET", [[123, 116, 125, 97], [49], [123, 116, 125, 98], [50]]⟩ =
        [[123, 116, 125, 97], [123, 116, 125, 98]] := by
    rw [Routing.keys_of_multi hmulti]
    simp [Command.itemsOf_cons, Command.itemsOf_nil]
  have htagged : forall key,
      key ∈ Command.keys
        ⟨"MSET", [[123, 116, 125, 97], [49], [123, 116, 125, 98], [50]]⟩ ->
      Tagged [116] key := by
    rw [hkeys]
    exact List.forall_mem_cons.mpr
      ⟨hfirst, List.forall_mem_singleton.mpr hsecond⟩
  have hroute :=
    ((hroutes _ 2 [116] hmulti htagged).2 (oneOwned [116]) rfl).1 (by decide)
  rw [htarget] at hroute
  exact ⟨hfirst, (hslots _ _ hfirst).2,
    hwhole _ ((hbare _).mpr (.empty [] [116] (by decide))), hroute⟩

/-- A command with an incomplete key is refused, also when all its keys have one
tag. -/
theorem no_route_with_incomplete_key :
    ¬ forall (s : Session) (c : Command) (step : Nat) (tag : Bytes),
      s.isClosed = false ->
      c.keyLayout = .multi step ->
        (forall key, key ∈ c.keys -> Tagged tag key) ->
      exists target r,
        s.route c = .ok
          (s.deliver [{ target, command := c, guarded := false }], r) := by
  intro h
  have hmulti :
      Command.keyLayout
        ⟨"MSET", [[123, 116, 125, 97], [49], [123, 116, 125, 98]]⟩ =
        .multi 2 := by
    decide
  have hkeys :
      Command.keys ⟨"MSET", [[123, 116, 125, 97], [49], [123, 116, 125, 98]]⟩ =
        [[123, 116, 125, 97], [123, 116, 125, 98]] := by
    rw [Routing.keys_of_multi hmulti]
    simp [Command.itemsOf_cons, Command.itemsOf_nil]
  rcases h (oneOwned [116])
      ⟨"MSET", [[123, 116, 125, 97], [49], [123, 116, 125, 98]]⟩ 2
      [116] rfl hmulti (by
      rw [hkeys]
      exact List.forall_mem_cons.mpr
          ⟨⟨[], [97], rfl, by decide, by decide, by decide⟩,
            List.forall_mem_singleton.mpr
              ⟨[], [98], rfl, by decide, by decide, by decide⟩⟩) with
    ⟨target, r, hroute⟩
  have hrefused :
      (oneOwned [116]).route
        ⟨"MSET", [[123, 116, 125, 97], [49], [123, 116, 125, 98]]⟩ =
        .error (.invalidCommand (.wrongArity "MSET")) :=
    route_of_arity rfl (by decide)
  cases hrefused.symm.trans hroute

end Session
end SlotCluster
