import Mathlib.Algebra.GroupWithZero.Nat
import Mathlib.Data.List.Nodup
import Mathlib.Data.List.Permutation
import SlotCluster.Proofs.Routing.Owners
import SlotCluster.Proofs.Routing.Parts

/-!
# Parts that meet on one connection

A command with many keys is split by target, while connections are kept by the
keys that targets resolve to.  The id of a node and its address are two targets
and one connection.  A command has keys of both kinds when a node owns the slot
of one key, nobody owns the slot of another, and the fallback has the address of
that node.  Its parts for the two meet on the connection of the node.  No other
parts ever meet.
-/

namespace SlotCluster
namespace Session

open Client (SessionEvent stepSession)

variable {s t u : Session} {c : Command} {events : List SessionEvent}
  {key other : Bytes} {target : Target} {parts : List Delivery}

/-! ## Keys of the pool -/

/-- The key under which the pool keeps the connection to a target, if it knows
the target. -/
def poolKey? (s : Session) (target : Target) : Option Target :=
  match target.resolve s.pool.table.table s.pool.fallback with
  | .ok (entry, _) => some entry
  | .error _ => none

def fallbackTarget (s : Session) : Target :=
  .address s.fallback.host s.fallback.port

/-- A node owns the slot of one key, nobody owns that of another, and the
fallback is the address of that node. -/
def Straddles (s : Session) (c : Command) : Prop :=
  exists owned unowned n m, owned ∈ c.keys ∧ unowned ∈ c.keys ∧
    s.pool.table.table.keyOwner? owned = some n ∧
    s.pool.table.table.keyOwner? unowned = none ∧
    s.pool.table.table.nodeAt? s.fallback.host s.fallback.port = some m ∧
    m.id = n.id

theorem resolve_of_poolKey? {entry : Target}
    (h : s.poolKey? target = some entry) :
    exists endpoint,
      target.resolve s.pool.table.table s.pool.fallback =
        .ok (entry, endpoint) := by
  unfold poolKey? at h
  split at h
  · rename_i endpoint hresolve
    cases h
    exact ⟨endpoint, hresolve⟩
  · cases h

theorem targetOf_of_owner {n : Node}
    (howner : s.pool.table.table.keyOwner? key = some n) :
    s.targetOf key = .node n.id := by
  unfold targetOf Routing.targetOf
  rw [howner]

theorem targetOf_of_unowned (hnone : s.pool.table.table.keyOwner? key = none) :
    s.targetOf key = s.fallbackTarget := by
  unfold targetOf Routing.targetOf
  rw [hnone]
  rfl

theorem poolKey?_of_owner {n : Node}
    (howner : s.pool.table.table.keyOwner? key = some n) :
    s.poolKey? (.node n.id) = some (.node n.id) := by
  have hmem : n ∈ s.pool.table.table.nodes := by
    unfold Table.keyOwner? Table.slotOwner? at howner
    split at howner
    · exact List.mem_of_getElem? howner
    · cases howner
  cases hfound : s.pool.table.table.node? n.id with
  | some m => simp only [poolKey?, Target.resolve, hfound]
  | none => exact absurd (List.find?_eq_none.mp hfound n hmem) (by simp)

theorem poolKey?_fallbackTarget (s : Session) :
    s.poolKey? s.fallbackTarget =
      match s.pool.table.table.nodeAt? s.fallback.host s.fallback.port with
      | some m => some (.node m.id)
      | none => some s.fallbackTarget := by
  cases hat : s.pool.table.table.nodeAt? s.fallback.host s.fallback.port with
  | some m => simp only [poolKey?, fallbackTarget, Target.resolve, hat]
  | none => simp only [poolKey?, fallbackTarget, Target.resolve, hat]

theorem exists_poolKey? (s : Session) (key : Bytes) :
    exists entry, s.poolKey? (s.targetOf key) = some entry := by
  cases howner : s.pool.table.table.keyOwner? key with
  | some n =>
      rw [targetOf_of_owner howner]
      exact ⟨_, poolKey?_of_owner howner⟩
  | none =>
      rw [targetOf_of_unowned howner, poolKey?_fallbackTarget]
      split <;> exact ⟨_, rfl⟩

theorem meet_iff {n : Node} (howner : s.pool.table.table.keyOwner? key = some n)
    (hnone : s.pool.table.table.keyOwner? other = none) :
    s.poolKey? (s.targetOf key) = s.poolKey? (s.targetOf other) <->
      exists m, s.pool.table.table.nodeAt? s.fallback.host s.fallback.port =
        some m ∧ m.id = n.id := by
  rw [targetOf_of_owner howner, targetOf_of_unowned hnone,
    poolKey?_of_owner howner, poolKey?_fallbackTarget]
  cases s.pool.table.table.nodeAt? s.fallback.host s.fallback.port with
  | some m => simp [eq_comm]
  | none => simp [fallbackTarget]

/-- Two keys with different targets and one connection are the one of a node and
the other of nobody. -/
theorem eq_or_straddles (hkey : key ∈ c.keys) (hother : other ∈ c.keys)
    (hmeet : s.poolKey? (s.targetOf key) = s.poolKey? (s.targetOf other)) :
    s.targetOf key = s.targetOf other ∨ s.Straddles c ∧
      (s.targetOf key = s.fallbackTarget ∨
        s.targetOf other = s.fallbackTarget) := by
  cases howner : s.pool.table.table.keyOwner? key with
  | some n =>
      cases hsecond : s.pool.table.table.keyOwner? other with
      | some m =>
          rw [targetOf_of_owner howner, targetOf_of_owner hsecond,
            poolKey?_of_owner howner, poolKey?_of_owner hsecond] at hmeet
          rw [targetOf_of_owner howner, targetOf_of_owner hsecond]
          exact Or.inl (Option.some.inj hmeet)
      | none =>
          rcases (meet_iff howner hsecond).mp hmeet with ⟨m, hat, hid⟩
          exact Or.inr
            ⟨⟨key, other, n, m, hkey, hother, howner, hsecond, hat, hid⟩,
              Or.inr (targetOf_of_unowned hsecond)⟩
  | none =>
      cases hsecond : s.pool.table.table.keyOwner? other with
      | some n =>
          rcases (meet_iff hsecond howner).mp hmeet.symm with ⟨m, hat, hid⟩
          exact Or.inr
            ⟨⟨other, key, n, m, hother, hkey, hsecond, howner, hat, hid⟩,
              Or.inl (targetOf_of_unowned howner)⟩
      | none =>
          rw [targetOf_of_unowned howner, targetOf_of_unowned hsecond]
          exact Or.inl rfl

/-!
## Parts

No more than two parts meet, that for the fallback and that for the node there.
-/

structure Parts (s : Session) (c : Command) (parts : List Delivery) : Prop where
  nodup : (parts.map Delivery.target).Nodup
  mem_targets : forall {target : Target}, target ∈ parts.map Delivery.target <->
    exists key, key ∈ c.keys ∧ s.targetOf key = target
  /-- A part has all the keys of its target, in their order, and no other
  keys. -/
  keys : forall {x : Delivery}, x ∈ parts ->
    x.command.keys =
      c.keys.filter (fun key => decide (s.targetOf key = x.target))
  pending : forall {x : Delivery}, x ∈ parts -> x.phase = .pending
  /-- If all keys have one target, there is one part, and it is the command as
  it is. -/
  whole : (forall key other, key ∈ c.keys -> other ∈ c.keys ->
    s.targetOf key = s.targetOf other) ->
      exists target, parts = [{ target, command := c, guarded := false }]

theorem parts_whole {g : Routing.Group}
    (honly : Routing.groupKeys s.targetOf c.keys = [g]) :
    s.Parts c (deliveriesOf c (.whole g.target)) := by
  have htargets : (deliveriesOf c (.whole g.target)).map Delivery.target =
      (Routing.groupKeys s.targetOf c.keys).map Routing.Group.target := by
    rw [honly]
    rfl
  constructor
  case nodup =>
    rw [htargets]
    exact (Routing.groupKeys_spec s.targetOf c.keys).1
  case mem_targets =>
    intro target
    rw [htargets]
    exact Routing.mem_targets_groupKeys
  case keys =>
    intro x hx
    rw [List.mem_singleton.mp hx]
    symm
    apply List.filter_eq_self.mpr
    intro key hkey
    rw [decide_eq_true_eq]
    exact Routing.target_of_only honly hkey
  case pending =>
    intro x hx
    rw [List.mem_singleton.mp hx]
  case whole =>
    intro _
    exact ⟨g.target, rfl⟩

theorem parts_split {step : Nat} (hmulti : c.keyLayout = .multi step)
    (harity : c.checkArity = .ok ())
    (hmany : forall g, Routing.groupKeys s.targetOf c.keys ≠ [g]) :
    s.Parts c
      (deliveriesOf c (.split (Routing.groupKeys s.targetOf c.keys))) := by
  have htargets :
      (deliveriesOf c (.split (Routing.groupKeys s.targetOf c.keys))).map
        Delivery.target =
        (Routing.groupKeys s.targetOf c.keys).map Routing.Group.target := by
    unfold deliveriesOf
    rw [List.map_map]
    rfl
  constructor
  case nodup =>
    rw [htargets]
    exact (Routing.groupKeys_spec s.targetOf c.keys).1
  case mem_targets =>
    intro target
    rw [htargets]
    exact Routing.mem_targets_groupKeys
  case keys =>
    intro x hx
    rcases List.mem_map.mp hx with ⟨g, hg, hpart⟩
    rw [← hpart]
    exact Routing.keys_part hmulti harity hg
  case pending =>
    intro x hx
    rcases List.mem_map.mp hx with ⟨g, _, hpart⟩
    rw [← hpart]
  case whole =>
    intro hone
    rcases Routing.exists_only (Routing.keys_ne_nil_of_multi hmulti) hone with
      ⟨g, hg⟩
    exact absurd hg (hmany g)

theorem route_of_multi (hopen : s.isClosed = false) {step : Nat}
    (hmulti : c.keyLayout = .multi step) (harity : c.checkArity = .ok ()) :
    exists parts r, s.route c = .ok (s.deliver parts, r) ∧
      r.first = s.deliveries.length ∧ s.Parts c parts := by
  rcases Routing.plan_of_multi hmulti harity s.pool.table.table s.fallback with
    ⟨g, honly, hplan⟩ | ⟨hmany, hplan⟩
  · exact ⟨_, _, route_of_plan hopen hplan, rfl, parts_whole honly⟩
  · exact ⟨_, _, route_of_plan hopen hplan, rfl,
      parts_split hmulti harity hmany⟩

namespace Parts

theorem target_of_mem (h : s.Parts c parts) {x : Delivery} (hx : x ∈ parts) :
    exists key, key ∈ c.keys ∧ s.targetOf key = x.target :=
  h.mem_targets.mp (List.mem_map_of_mem hx)

/-- The parts all go to different connections, unless some key is of a node and
another of its address. -/
theorem nodup_iff (h : s.Parts c parts) :
    ((parts.map Delivery.target).map s.poolKey?).Nodup <-> ¬ s.Straddles c := by
  constructor
  · intro hnodup hstraddles
    rcases hstraddles with
      ⟨owned, unowned, n, m, howned, hunowned, howner, hnone, hat, hid⟩
    have hmeet := (meet_iff howner hnone).mpr ⟨m, hat, hid⟩
    have hsame :=
      List.inj_on_of_nodup_map hnodup (h.mem_targets.mpr ⟨owned, howned, rfl⟩)
        (h.mem_targets.mpr ⟨unowned, hunowned, rfl⟩) hmeet
    rw [targetOf_of_owner howner, targetOf_of_unowned hnone] at hsame
    cases hsame
  · intro hapart
    refine h.nodup.map_on ?_
    intro target htarget target' htarget' hmeet
    rcases h.mem_targets.mp htarget with ⟨key, hkey, rfl⟩
    rcases h.mem_targets.mp htarget' with ⟨other, hother, rfl⟩
    rcases eq_or_straddles hkey hother hmeet with hsame | ⟨hstraddles, _⟩
    · exact hsame
    · exact absurd hstraddles hapart

theorem count_le_two (h : s.Parts c parts) (entry : Option Target) :
    ((parts.map Delivery.target).map s.poolKey?).count entry ≤ 2 := by
  have hfallback :
      ((parts.map Delivery.target).filter
        (fun target => decide (target = s.fallbackTarget))).countP
          (fun target => s.poolKey? target == entry) ≤ 1 := by
    refine Nat.le_trans List.countP_le_length ?_
    rw [← List.countP_eq_length_filter]
    exact List.nodup_iff_count_le_one.mp h.nodup s.fallbackTarget
  have howners :
      (((parts.map Delivery.target).filter
        (fun target => !decide (target = s.fallbackTarget))).map
          s.poolKey?).Nodup := by
    refine (h.nodup.filter _).map_on ?_
    intro target htarget target' htarget' hmeet
    rw [List.mem_filter] at htarget htarget'
    rcases h.mem_targets.mp htarget.1 with ⟨key, hkey, rfl⟩
    rcases h.mem_targets.mp htarget'.1 with ⟨other, hother, rfl⟩
    rcases eq_or_straddles hkey hother hmeet with hsame | ⟨_, hfirst | hsecond⟩
    · exact hsame
    · rw [hfirst] at htarget
      simp at htarget
    · rw [hsecond] at htarget'
      simp at htarget'
  have hrest := List.nodup_iff_count_le_one.mp howners entry
  rw [List.count, List.countP_map] at hrest
  rw [List.count, List.countP_map,
    List.countP_eq_countP_filter_add
      _ _ (fun target => decide (target = s.fallbackTarget))]
  exact Nat.add_le_add hfallback hrest

end Parts

/-! ## What goes over one link -/

def isAmong (first count : Nat) (event : SessionEvent) : Bool :=
  event.delivery?.any (fun d => decide (first ≤ d ∧ d < first + count))

/-- How often deliveries in a row send over a link in a run. -/
def sendsOver (id first count l : Nat) (s : Session)
    (events : List SessionEvent) : Nat :=
  (s.trafficAt id (isAmong first count) events).countP
    (fun entry => entry.1 = .link id l)

theorem isAmong_succ (first count : Nat) (event : SessionEvent) :
    isAmong first (count + 1) event =
      (isAmong first count event || isAbout (first + count) event) := by
  unfold isAmong isAbout
  cases event.delivery? with
  | none => rfl
  | some d =>
      rw [Bool.eq_iff_iff]
      simp only [Option.any_some, decide_eq_true_eq, Bool.or_eq_true,
        beq_iff_eq, Option.some.injEq]
      omega

theorem countP_trafficAt_or {f g : SessionEvent -> Bool}
    (hapart : forall event, f event = true -> g event = false) (id : Nat)
    (P : Network.Wire × Network.Message -> Bool) (s : Session)
    (events : List SessionEvent) :
    (s.trafficAt id (fun event => f event || g event) events).countP P =
      (s.trafficAt id f events).countP P +
        (s.trafficAt id g events).countP P := by
  induction events generalizing s with
  | nil => rfl
  | cons event rest ih =>
      simp only [trafficAt]
      cases stepSession s event with
      | none => rfl
      | some t =>
          simp only [List.countP_append, ih t]
          by_cases hf : f event = true
          · simp only [hf, hapart event hf, Bool.or_false, if_true,
              Bool.false_eq_true, if_false, List.countP_nil]
            omega
          · simp only [hf, Bool.false_or, Bool.false_eq_true, if_false,
              List.countP_nil]
            omega

theorem trafficAt_of_none {counts : SessionEvent -> Bool}
    (hnone : forall event, counts event = false) (id : Nat) (s : Session)
    (events : List SessionEvent) : s.trafficAt id counts events = [] := by
  induction events generalizing s with
  | nil => rfl
  | cons event rest ih =>
      simp only [trafficAt, hnone, Bool.false_eq_true, if_false, ih,
        List.append_nil]
      split <;> rfl

theorem sendsOver_eq_sum (id first count l : Nat) (s : Session)
    (events : List SessionEvent) :
    sendsOver id first count l s events =
      ((List.range count).map (fun i =>
        (s.sentBy id (first + i) events).countP
          (fun entry => entry.1 = .link id l))).sum := by
  induction count with
  | zero =>
      unfold sendsOver
      rw [trafficAt_of_none]
      · rfl
      · intro event
        unfold isAmong
        cases event.delivery? with
        | none => rfl
        | some d =>
            simp only [Option.any_some, decide_eq_false_iff_not]
            omega
  | succ count ih =>
      have hsplit : isAmong first (count + 1) = fun event =>
          isAmong first count event || isAbout (first + count) event :=
        funext (isAmong_succ first count)
      have hapart : forall event, isAmong first count event = true ->
          isAbout (first + count) event = false := by
        intro event hamong
        unfold isAmong at hamong
        unfold isAbout
        cases hdelivery : event.delivery? with
        | none => rfl
        | some d =>
            rw [hdelivery, Option.any_some, decide_eq_true_eq] at hamong
            rw [beq_eq_false_iff_ne, Ne, Option.some.injEq]
            omega
      unfold sendsOver at ih ⊢
      rw [hsplit, countP_trafficAt_or hapart, ih, List.range_succ,
        List.map_append, List.sum_append]
      rfl

theorem sum_le_countP {α : Type} (sends : Nat -> Nat) (P : α -> Bool)
    (parts : List α)
    (h : forall i x, parts[i]? = some x -> sends i ≤ if P x then 1 else 0) :
    ((List.range parts.length).map sends).sum ≤ parts.countP P := by
  induction parts generalizing sends with
  | nil => exact Nat.le_refl 0
  | cons x rest ih =>
      have hfirst := h 0 x rfl
      have hrest := ih (fun i => sends (i + 1)) (fun i => h (i + 1))
      rw [List.length_cons, List.range_succ_eq_map, List.map_cons, List.map_map,
        List.sum_cons, List.countP_cons]
      rw [Nat.add_comm]
      exact Nat.add_le_add hrest hfirst

theorem dispatched_of_part (id : Nat) (hrooted : (s.deliver parts).Rooted)
    (hparts : s.Parts c parts) (hrun : (s.deliver parts).run events = some u)
    {i : Nat} {x : Delivery} (hx : parts[i]? = some x)
    (hprompt : (s.deliver parts).Prompt (s.deliveries.length + i) events) :
    exists entry endpoint,
      x.target.resolve s.pool.table.table s.pool.fallback =
        .ok (entry, endpoint) ∧
      s.poolKey? x.target = some entry ∧
      Dispatched id (s.deliver parts) (s.deliveries.length + i) x.command entry
        endpoint events u := by
  have hmem : x ∈ parts := List.mem_of_getElem? hx
  have hnew : (s.deliver parts).deliveries[s.deliveries.length + i]? =
      some x := by
    change (s.deliveries ++ parts)[s.deliveries.length + i]? = some x
    rw [List.getElem?_append_right (Nat.le_add_right _ _),
      Nat.add_sub_cancel_left]
    exact hx
  rcases hparts.target_of_mem hmem with ⟨key, _, htarget⟩
  rcases exists_poolKey? s key with ⟨entry, hentry⟩
  rw [htarget] at hentry
  rcases resolve_of_poolKey? hentry with ⟨endpoint, hresolve⟩
  exact ⟨entry, endpoint, hresolve, hentry,
    dispatched_of_run id hrooted hnew (hparts.pending hmem) hresolve
      hrun hprompt⟩

/-- The parts send over a link at most as often as there are parts for the key
of its connection. -/
theorem sendsOver_le_count (id : Nat) (hrooted : (s.deliver parts).Rooted)
    (hparts : s.Parts c parts) (hrun : (s.deliver parts).run events = some u)
    (hprompt : forall i,
      (s.deliver parts).Prompt (s.deliveries.length + i) events)
    (l : Nat) :
    exists entry,
      sendsOver id s.deliveries.length parts.length l (s.deliver parts) events ≤
      ((parts.map Delivery.target).map s.poolKey?).count entry := by
  -- A link belongs to one connection at most, and a connection to one key.
  have howner : exists entry, forall {h : Nat} {key : Target},
      u.pool.wire? h = some (key, l) -> some key = entry := by
    rcases (hrooted.of_run hrun).sound with ⟨_, _, hwired⟩
    by_cases hexists : exists g key, u.pool.wire? g = some (key, l)
    · rcases hexists with ⟨g, key, hg⟩
      refine ⟨some key, ?_⟩
      intro h other hh
      rw [hwired.wire_inj hh hg, hg] at hh
      cases hh
      rfl
    · exact ⟨none, fun hh => absurd ⟨_, _, hh⟩ hexists⟩
  rcases howner with ⟨entry, hentry⟩
  refine ⟨entry, ?_⟩
  rw [sendsOver_eq_sum, List.count, List.countP_map, List.countP_map]
  apply sum_le_countP
  intro i x hx
  rcases dispatched_of_part id hrooted hparts hrun hx (hprompt i) with
    ⟨own, endpoint, _, hown, hdispatched⟩
  rcases hdispatched.once with hsilent | ⟨h, k, hsent, _, hwire⟩
  · rw [hsilent]
    exact Nat.zero_le _
  · rw [hsent]
    by_cases hlink : k = l
    · subst hlink
      have hmeet : s.poolKey? x.target = entry := hown.trans (hentry hwire)
      simp [hmeet]
    · simp [hlink]

/-- What routing does with a command of many keys.  If they all have one target
the command goes there as it is, and otherwise each target gets one part of it.
The parts lead to different connections if and only if the command does not
straddle, and just then a command whose keys all lead to one connection goes
there as it is.  In a run in which every part begins before the session gets a
new table, at most one part goes over each link if the command does not
straddle, and at most two if it does. -/
theorem one_part_per_link (hs : s.Rooted) (hopen : s.isClosed = false)
    {step : Nat} (hmulti : c.keyLayout = .multi step)
    (harity : c.checkArity = .ok ()) (id : Nat) :
    exists parts r, s.route c = .ok (s.deliver parts, r) ∧
      r.first = s.deliveries.length ∧ s.Parts c parts ∧
      (((parts.map Delivery.target).map s.poolKey?).Nodup <-> ¬ s.Straddles c) ∧
      ((forall key other, key ∈ c.keys -> other ∈ c.keys ->
          s.poolKey? (s.targetOf key) = s.poolKey? (s.targetOf other)) ->
        ((exists target,
          parts = [{ target, command := c, guarded := false }]) <->
            ¬ s.Straddles c)) ∧
      forall events u, (s.deliver parts).run events = some u ->
        (forall i, (s.deliver parts).Prompt (r.first + i) events) ->
        (forall i x, parts[i]? = some x -> exists entry endpoint,
          x.target.resolve s.pool.table.table s.pool.fallback =
            .ok (entry, endpoint) ∧
          Dispatched id (s.deliver parts) (r.first + i) x.command entry
            endpoint events u) ∧
        forall l, sendsOver id r.first parts.length l (s.deliver parts)
          events ≤ 2 ∧
          (¬ s.Straddles c ->
            sendsOver id r.first parts.length l (s.deliver parts)
              events ≤ 1) := by
  rcases route_of_multi hopen hmulti harity with
    ⟨parts, r, hroute, hfirst, hparts⟩
  refine ⟨parts, r, hroute, hfirst, hparts, hparts.nodup_iff, ?_, ?_⟩
  · intro hone
    constructor
    · intro hsingle
      rcases hsingle with ⟨target, hsingle⟩
      rw [← hparts.nodup_iff, hsingle]
      exact List.nodup_singleton _
    · intro hapart
      apply hparts.whole
      intro key other hkey hother
      rcases eq_or_straddles hkey hother (hone key other hkey hother) with
        hsame | ⟨hstraddles, _⟩
      · exact hsame
      · exact absurd hstraddles hapart
  · intro events u hrun hprompt
    rw [hfirst] at hprompt ⊢
    have hrooted : (s.deliver parts).Rooted :=
      hs.grown (Client.grown_of_stepSession hs (step_of_route hroute))
    constructor
    · intro i x hx
      rcases dispatched_of_part id hrooted hparts hrun hx (hprompt i) with
        ⟨entry, endpoint, hresolve, _, hdispatched⟩
      exact ⟨entry, endpoint, hresolve, hdispatched⟩
    · intro l
      rcases sendsOver_le_count id hrooted hparts hrun hprompt l with
        ⟨entry, hle⟩
      refine ⟨Nat.le_trans hle (hparts.count_le_two entry), ?_⟩
      intro hapart
      exact Nat.le_trans hle
        (List.nodup_iff_count_le_one.mp (hparts.nodup_iff.mpr hapart) entry)

def halfOwned (owners : Table.Owners) (fallback : Endpoint) : Session :=
  start ⟨0, ⟨halfOwner, owners⟩⟩ fallback (.ofSeconds 1)

theorem keyOwner?_halfOwned {owners : Table.Owners}
    (hbuilt : Table.build halfOwner = .ok ⟨halfOwner, owners⟩) :
    Table.keyOwner? ⟨halfOwner, owners⟩ [98] =
      some (.makeMaster "n1" (.atAddress "h" 1) [⟨0, 8192⟩]) ∧
      Table.keyOwner? ⟨halfOwner, owners⟩ [97] = none := by
  constructor
  · exact Table.keyOwner?_of_claims hbuilt (List.mem_singleton_self _)
      claims_halfOwner
  · apply Table.keyOwner?_of_unclaimed hbuilt
    intro n hn
    rw [List.mem_singleton.mp hn]
    decide

/-- Two keys of the master go there in one command, also where the fallback is
its address. -/
theorem one_part_per_link_of_owner :
    exists owners parts r, Table.build halfOwner = .ok ⟨halfOwner, owners⟩ ∧
      (halfOwned owners (.atAddress "h" 1)).route ⟨"MGET", [[98], [98]]⟩ =
        .ok ((halfOwned owners (.atAddress "h" 1)).deliver parts, r) ∧
      parts =
        [{ target := .node "n1"
           command := ⟨"MGET", [[98], [98]]⟩
           guarded := false }] ∧
      forall result u,
        ((halfOwned owners (.atAddress "h" 1)).deliver parts).run
          (exchange result) = some u ->
        forall l, sendsOver 1 r.first parts.length l
          ((halfOwned owners (.atAddress "h" 1)).deliver parts)
          (exchange result) ≤ 1 := by
  rcases Table.build_eq_ok_iff.mpr consistent_halfOwner with
    ⟨⟨nodes, owners⟩, hbuilt⟩
  have hnodes : nodes = halfOwner := (Table.scanned_of_build hbuilt).1
  subst hnodes
  have hrooted : (halfOwned owners (.atAddress "h" 1)).Rooted :=
    Rooted.start _ _ _
  have hmulti : Command.keyLayout ⟨"MGET", [[98], [98]]⟩ = .multi 1 := by
    decide
  have hkeys {key : Bytes} (hkey : key ∈ Command.keys ⟨"MGET", [[98], [98]]⟩) :
      key = [98] := by
    rw [Routing.keys_of_multi hmulti] at hkey
    simpa [Command.itemsOf_cons, Command.itemsOf_nil] using hkey
  rcases one_part_per_link hrooted rfl hmulti (by decide) 1 with
    ⟨parts, r, hroute, _, hparts, _, hwhole, hruns⟩
  have hapart :
      ¬ (halfOwned owners (.atAddress "h" 1)).Straddles
        ⟨"MGET", [[98], [98]]⟩ := by
    intro hstraddles
    rcases hstraddles with ⟨_, unowned, _, _, _, hunowned, _, hnone, _, _⟩
    rw [hkeys hunowned] at hnone
    exact absurd ((keyOwner?_halfOwned hbuilt).1.symm.trans hnone) nofun
  have hone :=
    (hwhole (fun key other hkey hother => by rw [hkeys hkey, hkeys hother])).mpr
      hapart
  rcases hone with ⟨target, rfl⟩
  rcases hparts.mem_targets.mp (List.mem_singleton_self target) with
    ⟨key, hkey, htarget⟩
  rw [hkeys hkey, targetOf_of_owner (keyOwner?_halfOwned hbuilt).1] at htarget
  subst htarget
  refine ⟨owners, _, r, hbuilt, hroute, rfl, ?_⟩
  intro result u hrun l
  have hstart :=
    hrooted.grown (Client.grown_of_stepSession hrooted (step_of_route hroute))
  have hprompt := fun i => prompt_of_tables (d := r.first + i) hstart
    (fun event hmem => (solitary_exchange result hmem).1)
  exact ((hruns _ u hrun hprompt).2 l).2 hapart

/-- Both parts of a command that straddles go over the one link to the
master. -/
theorem two_parts_over_one_link :
    exists owners t r, Table.build halfOwner = .ok ⟨halfOwner, owners⟩ ∧
      (forall key, key ∈ Command.keys ⟨"MSETNX", [[98], [49], [97], [50]]⟩ ->
        (halfOwned owners (.atAddress "h" 1)).poolKey?
          ((halfOwned owners (.atAddress "h" 1)).targetOf key) =
          some (.node "n1")) ∧
      (halfOwned owners (.atAddress "h" 1)).route
        ⟨"MSETNX", [[98], [49], [97], [50]]⟩ = .ok (t, r) ∧
      (exists u, t.run
        [.begin 0, .begin 1, .linked 0, .resume 1, .proceed 0, .proceed 1] =
        some u) ∧
      t.trafficAt 1 (fun _ => true)
        [.begin 0, .begin 1, .linked 0, .resume 1, .proceed 0, .proceed 1] =
        [(.link 1 0, .command ⟨"MSETNX", [[98], [49]]⟩),
          (.link 1 0, .command ⟨"MSETNX", [[97], [50]]⟩)] := by
  rcases Table.build_eq_ok_iff.mpr consistent_halfOwner with
    ⟨⟨nodes, owners⟩, hbuilt⟩
  have hnodes : nodes = halfOwner := (Table.scanned_of_build hbuilt).1
  subst hnodes
  rcases keyOwner?_halfOwned hbuilt with ⟨howner, hnone⟩
  have hmulti :
      Command.keyLayout ⟨"MSETNX", [[98], [49], [97], [50]]⟩ = .multi 2 := by
    decide
  have hkeys :
      Command.keys ⟨"MSETNX", [[98], [49], [97], [50]]⟩ = [[98], [97]] := by
    rw [Routing.keys_of_multi hmulti]
    simp [Command.itemsOf_cons, Command.itemsOf_nil]
  have hb : (halfOwned owners (.atAddress "h" 1)).targetOf [98] = .node "n1" :=
    targetOf_of_owner (s := halfOwned owners (.atAddress "h" 1)) howner
  have ha : (halfOwned owners (.atAddress "h" 1)).targetOf [97] =
      .address "h" 1 :=
    targetOf_of_unowned hnone
  have hplan : Routing.plan ⟨halfOwner, owners⟩ (.atAddress "h" 1)
      ⟨"MSETNX", [[98], [49], [97], [50]]⟩ =
      .ok (.split [⟨.node "n1", [0]⟩, ⟨.address "h" 1, [1]⟩]) := by
    have hgroups :
        Routing.groupKeys
          (Routing.targetOf ⟨halfOwner, owners⟩ (.atAddress "h" 1))
          [[98], [97]] = [⟨.node "n1", [0]⟩, ⟨.address "h" 1, [1]⟩] := by
      change Routing.groupKeys (halfOwned owners (.atAddress "h" 1)).targetOf
        [[98], [97]] = _
      simp only [Routing.groupKeys, Routing.groupFrom, hb, ha]
      rfl
    rcases Routing.plan_of_multi hmulti (by decide) ⟨halfOwner, owners⟩
        (.atAddress "h" 1) with
      ⟨g, honly, _⟩ | ⟨_, hplan⟩
    · rw [hkeys, hgroups] at honly
      cases honly
    · rw [hplan, hkeys, hgroups]
  have hroute :
    (halfOwned owners (.atAddress "h" 1)).route
      ⟨"MSETNX", [[98], [49], [97], [50]]⟩ =
      .ok ((halfOwned owners (.atAddress "h" 1)).deliver
          [{ target := .node "n1"
             command := ⟨"MSETNX", [[98], [49]]⟩
             guarded := false },
            { target := .address "h" 1
              command := ⟨"MSETNX", [[97], [50]]⟩
              guarded := false }],
        ⟨⟨"MSETNX", [[98], [49], [97], [50]]⟩,
            .split [⟨.node "n1", [0]⟩, ⟨.address "h" 1, [1]⟩], 0⟩) := by
    rw [route_of_plan rfl hplan]
    rfl
  refine ⟨owners, _, _, hbuilt, ?_, hroute,
    Option.isSome_iff_exists.mp (by cbv), by cbv⟩
  intro key hkey
  rw [hkeys] at hkey
  simp only [List.mem_cons, List.not_mem_nil, or_false] at hkey
  rcases hkey with rfl | rfl
  · rw [hb]
    rfl
  · rw [ha]
    rfl

end Session
end SlotCluster
