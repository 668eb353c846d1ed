import SlotCluster.Proofs.Client.SoleDeliveries
import SlotCluster.Proofs.Topology.Ownership

/-!
# Commands go to the owners of their keys

On its way from a key to a connection a node goes by several names: its position
in the view, its id, the address of the fallback, and the key of its entry in
the pool.  When the view has a table and its ids are distinct, they all name the
same node, the master that claims the slot of the key.

A command that is refused is refused before anything happens.  A command with
one key is sent at most once, as it is and to that node only, and the reply is
handed back as it comes in.
-/

namespace SlotCluster
namespace Table

variable {nodes : List Node} {t : Table} {fallback settings endpoint : Endpoint}
  {key : Bytes} {target : Target}

/-- The key of the pool and the endpoint that a key of a command leads to. -/
inductive Leads (nodes : List Node) (fallback settings : Endpoint)
    (key : Bytes) : Target -> Endpoint -> Prop where
  /-- A master claims the slot. -/
  | owned {n : Node} (mem : n ∈ nodes)
      (claims : n.claims (Slot.ofKey key) = true) :
      Leads nodes fallback settings key (.node n.id) n.endpoint
  /-- Nobody claims the slot, and the fallback has the address of a node. -/
  | known {n : Node}
      (unclaimed : forall m, m ∈ nodes -> m.claims (Slot.ofKey key) = false)
      (found : nodes.find?
        (fun m => m.endpoint.Matches fallback.host fallback.port) = some n) :
      Leads nodes fallback settings key (.node n.id) n.endpoint
  /-- Nobody claims the slot, and the fallback is the address of nobody. -/
  | unknown (unclaimed : forall m, m ∈ nodes ->
      m.claims (Slot.ofKey key) = false)
      (nobody : nodes.find?
        (fun m => m.endpoint.Matches fallback.host fallback.port) = none) :
      Leads nodes fallback settings key (.address fallback.host fallback.port)
        { host := fallback.host
          port := fallback.port
          password := settings.password
          timeout := settings.timeout }

theorem keyOwner?_of_claims (hbuilt : build nodes = .ok t) {n : Node}
    (hmem : n ∈ nodes) (hclaims : n.claims (Slot.ofKey key) = true) :
    t.keyOwner? key = some n := by
  rcases List.getElem?_of_mem hmem with ⟨position, hposition⟩
  unfold keyOwner?
  rw [slotOwner?_of_claims hbuilt ⟨n, hposition, hclaims⟩]
  exact hposition

theorem keyOwner?_of_unclaimed (hbuilt : build nodes = .ok t)
    (hunclaimed : forall n, n ∈ nodes -> n.claims (Slot.ofKey key) = false) :
    t.keyOwner? key = none := by
  unfold keyOwner?
  apply slotOwner?_eq_none hbuilt
  intro position hclaims
  rcases hclaims with ⟨n, hn, hslot⟩
  rw [hunclaimed n (List.mem_of_getElem? hn)] at hslot
  cases hslot

/-- Looking up the owner and then its id, or the address of the fallback, leads
to one node. -/
theorem resolve_targetOf (hbuilt : build nodes = .ok t)
    (hids : (nodes.map Node.id).Nodup)
    (hleads : Leads nodes fallback settings key target endpoint) :
    (Routing.targetOf t fallback key).resolve t settings =
      .ok (target, endpoint) := by
  have hnodes : t.nodes = nodes := (scanned_of_build hbuilt).1
  unfold Routing.targetOf
  cases hleads with
  | owned mem claims =>
      rw [keyOwner?_of_claims hbuilt mem claims]
      dsimp only
      rw [Target.resolve,
        node?_of_mem (by rw [hnodes]; exact hids) (by rw [hnodes]; exact mem)]
  | known unclaimed found =>
      rw [keyOwner?_of_unclaimed hbuilt unclaimed]
      dsimp only
      rw [Target.resolve, nodeAt?, hnodes, found]
  | unknown unclaimed nobody =>
      rw [keyOwner?_of_unclaimed hbuilt unclaimed]
      dsimp only
      rw [Target.resolve, nodeAt?, hnodes, nobody]

theorem exists_leads (nodes : List Node) (fallback settings : Endpoint)
    (key : Bytes) :
    exists target endpoint,
      Leads nodes fallback settings key target endpoint := by
  by_cases hclaimed : exists n, n ∈ nodes ∧ n.claims (Slot.ofKey key) = true
  · rcases hclaimed with ⟨n, hmem, hclaims⟩
    exact ⟨_, _, Leads.owned hmem hclaims⟩
  · have hunclaimed : forall n, n ∈ nodes ->
        n.claims (Slot.ofKey key) = false := by
      intro n hmem
      rw [Bool.eq_false_iff]
      exact fun hclaims => hclaimed ⟨n, hmem, hclaims⟩
    cases hfound :
        nodes.find? (fun m =>
          m.endpoint.Matches fallback.host fallback.port) with
    | some n => exact ⟨_, _, Leads.known hunclaimed hfound⟩
    | none => exact ⟨_, _, Leads.unknown hunclaimed hfound⟩

end Table

namespace Session

open Client (SessionEvent stepSession)

variable {s : Session} {c : Command}

theorem route_of_plan (hopen : s.isClosed = false) {plan : Routing.Plan}
    (hplan : Routing.plan s.pool.table.table s.fallback c = .ok plan) :
    s.route c = .ok
      (s.deliver (deliveriesOf c plan), ⟨c, plan, s.deliveries.length⟩) := by
  unfold route
  rw [hopen, hplan]
  rfl

/-! ## Refusals -/

theorem route_of_closed (hclosed : s.isClosed = true) (c : Command) :
    s.route c = .error .shutdown := by
  unfold route
  rw [if_pos hclosed]

theorem route_of_arity (hopen : s.isClosed = false) {e : CommandError}
    (harity : c.checkArity = .error e) :
    s.route c = .error (.invalidCommand e) := by
  unfold route Routing.plan
  rw [hopen, harity]
  rfl

theorem route_of_keyless (hopen : s.isClosed = false)
    (hkeyless : c.keyLayout = .keyless) :
    s.route c = .error (.noKey c.name) := by
  have harity : c.checkArity = .ok () := by
    unfold Command.checkArity
    rw [hkeyless]
  unfold route Routing.plan
  rw [hopen, harity, hkeyless]
  rfl

theorem step_of_refused {e : ClusterError} (h : s.route c = .error e)
    (id : Nat) :
    stepSession s (.route c) = some s ∧
      Network.sessionTraffic id s s (.route c) = [] := by
  refine ⟨?_, rfl⟩
  simp only [stepSession, h]

theorem step_of_route {t : Session} {r : Request} (h : s.route c = .ok (t, r)) :
    stepSession s (.route c) = some t := by
  simp only [stepSession, h]

/-! ## Commands with one key -/

theorem exists_key_of_single (hsingle : c.keyLayout = .single) :
    exists key, c.args.head? = some key := by
  cases hargs : c.args with
  | nil =>
      unfold Command.keyLayout at hsingle
      rw [hargs] at hsingle
      cases hsingle
  | cons key rest => exact ⟨key, rfl⟩

theorem route_of_single (hopen : s.isClosed = false)
    (hsingle : c.keyLayout = .single) {key : Bytes}
    (hkey : c.args.head? = some key) :
    s.route c = .ok
      (s.deliver [{ target := s.targetOf key, command := c, guarded := false }],
        ⟨c, .whole (s.targetOf key), s.deliveries.length⟩) := by
  have harity : c.checkArity = .ok () := by
    unfold Command.checkArity
    rw [hsingle]
  have hfirst : c.firstKey? = some key := by
    unfold Command.firstKey?
    rw [hsingle]
    exact hkey
  have hplan : Routing.plan s.pool.table.table s.fallback c =
      .ok (.whole (s.targetOf key)) := by
    unfold Routing.plan
    rw [harity, hsingle]
    dsimp only
    rw [hfirst]
    rfl
  exact route_of_plan hopen hplan

theorem reply?_whole {target : Target} {first : Nat} {u : Session}
    {result : Except ClusterError Resp.Value} :
    u.reply? ⟨c, .whole target, first⟩ = some result <->
      u.phase? first = some (.finished result) := by
  show (u.deliveries[first]?).bind Delivery.result? = some result <-> _
  unfold phase? Delivery.result?
  cases u.deliveries[first]? with
  | none => simp
  | some x =>
      cases hphase : x.phase with
      | finished other => simp [hphase]
      | pending => simp [hphase]
      | opening call => simp [hphase]
      | sending h => simp [hphase]

/-- What routing does with a command, under a view with distinct ids.  A refused
command has no effect.  A command with one key becomes one delivery, to the node
that claims the slot of the key or to whom the fallback leads when nobody claims
it.  Whatever else goes on then in the session, except that it gets a new table
before the delivery begins, the command goes out at most once, as it is and on a
connection to that node, and the reply is the one that comes in.  When nothing
else goes on, no link is opened but one to the endpoint of the node, and no
other command goes out. -/
theorem routed_to_owner {nodes : List Node} (hs : s.Rooted)
    (hbuilt : Table.build nodes = .ok s.pool.table.table)
    (hids : (nodes.map Node.id).Nodup) (id : Nat) (c : Command) :
    (forall e, s.route c = .error e ->
      stepSession s (.route c) = some s ∧
        Network.sessionTraffic id s s (.route c) = []) ∧
    (s.isClosed = true -> s.route c = .error .shutdown) ∧
    (s.isClosed = false ->
      (forall e, c.checkArity = .error e ->
        s.route c = .error (.invalidCommand e)) ∧
      (c.keyLayout = .keyless -> s.route c = .error (.noKey c.name)) ∧
      (c.keyLayout = .single ->
        exists key target endpoint t r, c.args.head? = some key ∧
        Table.Leads nodes s.fallback s.pool.fallback key target endpoint ∧
        s.route c = .ok (t, r) ∧ stepSession s (.route c) = some t ∧
          t.pool = s.pool ∧
        forall events u, t.run events = some u ->
          t.Prompt s.deliveries.length events ->
          Dispatched id t s.deliveries.length c target endpoint events u ∧
          (forall result, u.reply? r = some result <->
            u.phase? s.deliveries.length = some (.finished result)) ∧
          (s.pool.Quiet ->
            (forall event, event ∈ events ->
              Solitary s.deliveries.length event) ->
            Alone id t s.deliveries.length endpoint events u))) := by
  refine ⟨fun e h => step_of_refused h id,
    fun hclosed => route_of_closed hclosed c, ?_⟩
  intro hopen
  refine ⟨fun e => route_of_arity hopen, route_of_keyless hopen, ?_⟩
  intro hsingle
  rcases exists_key_of_single hsingle with ⟨key, hkey⟩
  rcases Table.exists_leads nodes s.fallback s.pool.fallback key with
    ⟨target, endpoint, hleads⟩
  have hroute := route_of_single hopen hsingle hkey
  have hstep := step_of_route hroute
  have hresolve := Table.resolve_targetOf hbuilt hids hleads
  have hrooted := hs.grown (Client.grown_of_stepSession hs hstep)
  refine ⟨key, target, endpoint, _, _, hkey, hleads, hroute, hstep, rfl, ?_⟩
  intro events u hrun hprompt
  have hnew :
      (s.deliver [⟨s.targetOf key, c, false, .pending⟩]).deliveries[
          s.deliveries.length]? =
        some ⟨s.targetOf key, c, false, .pending⟩ :=
    List.getElem?_concat_length
  refine ⟨dispatched_of_run id hrooted hnew rfl hresolve hrun hprompt,
    fun result => reply?_whole, ?_⟩
  intro hquiet halone
  exact alone_of_run id hrooted hquiet hnew rfl hresolve hrun hprompt halone

def halfOwner : List Node :=
  [.makeMaster "n1" (.atAddress "h" 1) [⟨0, 8192⟩]]

theorem consistent_halfOwner : Table.Consistent halfOwner where
  valid := by
    intro n r hn _ hr
    rw [List.mem_singleton.mp hn] at hr
    rw [List.mem_singleton.mp hr]
    decide
  disjoint := by
    have hfirst {position slot : Nat}
        (h : Table.Claims halfOwner position slot) : position = 0 := by
      rcases h with ⟨n, hn, _⟩
      exact Nat.lt_one_iff.mp (List.getElem?_eq_some_iff.mp hn).1
    intro first second slot hone hother
    rw [hfirst hone, hfirst hother]

theorem claims_halfOwner :
    (Node.makeMaster "n1" (.atAddress "h" 1) [⟨0, 8192⟩]).claims
      (Slot.ofKey [98]) = true := by
  decide

def exchange (result : Except ClusterError Resp.Value) : List SessionEvent :=
  [.begin 0, .linked 0, .proceed 0, .receive 0 result]

theorem solitary_exchange (result : Except ClusterError Resp.Value)
    {event : SessionEvent} (h : event ∈ exchange result) :
    event.table? = none ∧ Solitary 0 event := by
  simp only [exchange, List.mem_cons, List.not_mem_nil, or_false] at h
  rcases h with rfl | rfl | rfl | rfl
  · exact ⟨rfl, Or.inl rfl⟩
  · exact ⟨rfl, Or.inr rfl⟩
  · exact ⟨rfl, Or.inl rfl⟩
  · exact ⟨rfl, Or.inl rfl⟩

/-- The key `b` is read from its owner.  The owner refuses, and that is what the
caller hears. -/
theorem routed_to_owner_refused_there :
    exists (table : Table) (t : Session) (r : Request) (u : Session) (l : Nat),
      Table.build halfOwner = .ok table ∧
      (start ⟨0, table⟩ (.atAddress "d" 2) (.ofSeconds 1)).route
        ⟨"GET", [[98]]⟩ = .ok (t, r) ∧
      t.run (exchange (.ok (.error [69]))) = some u ∧
      t.sentBy 1 0 (exchange (.ok (.error [69]))) =
        [(.link 1 l, .command ⟨"GET", [[98]]⟩)] ∧
      u.pool.dialed = [.atAddress "h" 1] ∧
        u.reply? r = some (.ok (.error [69])) := by
  rcases Table.build_eq_ok_iff.mpr consistent_halfOwner with
    ⟨⟨nodes, owners⟩, hbuilt⟩
  have hnodes : nodes = halfOwner := (Table.scanned_of_build hbuilt).1
  subst hnodes
  have hmem : Node.makeMaster "n1" (.atAddress "h" 1) [⟨0, 8192⟩] ∈ halfOwner :=
    List.mem_singleton_self _
  have htarget :
      (start ⟨0, ⟨halfOwner, owners⟩⟩ (.atAddress "d" 2)
        (.ofSeconds 1)).targetOf [98] = .node "n1" := by
    change Routing.targetOf ⟨halfOwner, owners⟩ _ [98] = _
    unfold Routing.targetOf
    rw [Table.keyOwner?_of_claims hbuilt hmem claims_halfOwner]
    rfl
  have hroute :=
    route_of_single
      (s := start ⟨0, ⟨halfOwner, owners⟩⟩ (.atAddress "d" 2) (.ofSeconds 1))
      (c := ⟨"GET", [[98]]⟩) rfl (by decide) rfl
  rw [htarget] at hroute
  rcases
      ((routed_to_owner
        (Rooted.start ⟨0, ⟨halfOwner, owners⟩⟩ (.atAddress "d" 2)
          (.ofSeconds 1)) hbuilt (by simp [halfOwner]) 1 ⟨"GET", [[98]]⟩).2.2
            rfl).2.2 (by decide) with
    ⟨key, target, endpoint, t, r, hkey, hleads, hsame, hstep, hpool, hruns⟩
  rw [hroute, Except.ok.injEq, Prod.mk.injEq] at hsame
  rcases hsame with ⟨rfl, rfl⟩
  cases hkey
  have hendpoint : endpoint = .atAddress "h" 1 := by
    have hclaims := claims_halfOwner
    cases hleads with
    | owned mem _ =>
        rw [List.mem_singleton.mp mem]
        rfl
    | known unclaimed _ =>
        rw [unclaimed _ hmem] at hclaims
        cases hclaims
    | unknown unclaimed _ =>
        rw [unclaimed _ hmem] at hclaims
        cases hclaims
  subst hendpoint
  have hrooted :=
    (Rooted.start _ _ _).grown
      (Client.grown_of_stepSession (Rooted.start _ _ _) hstep)
  rcases hruns (exchange (.ok (.error [69])))
      _ rfl (prompt_of_tables hrooted
        (fun event hmem => (solitary_exchange _ hmem).1)) with
    ⟨hdispatched, hreply, halone⟩
  have hopened :=
    (halone ⟨nofun, nofun⟩
      (fun event hmem => (solitary_exchange _ hmem).2)).opened
  have hreceived :
      .receive 0 (.ok (.error [69])) ∈ exchange (.ok (.error [69])) := by
    simp [exchange]
  rcases hdispatched.once with hsilent | ⟨h, l, hsent, _, _⟩
  · cases hsilent
  · refine ⟨_, _, _, _, l, hbuilt, hroute, rfl, hsent, ?_, ?_⟩
    · rcases hopened with hnone | hone
      · cases hnone
      · exact hone
    · exact (hreply _).mpr (hdispatched.verbatim hreceived)

end Session
end SlotCluster
