import SlotCluster.Proofs.Client.Credentials

/-!
# A client and what goes over its connections

A task that wants views asks for them in a round of its own, and the client
hears of no other views.  Here the two are put together, and a run tells besides
what has gone over which connection, in the order in which it went.

The main result follows one password through such runs.  Views bring endpoints
without passwords or with any, tables become the candidates of later rounds, and
sessions connect to nodes and to mere addresses.  Still no other password ever
goes out, and on no connection a command goes out before the node has accepted
the password there.
-/

namespace SlotCluster

def Client.asked? (c : Client) (task : Nat) : Option (List Endpoint) :=
  match c.phase? task with
  | some (.loading _) => some c.seeds
  | some (.refreshing candidates _) => some candidates
  | _ => none

structure Network where
  client : Client
  /-- How endpoints are asked for their views. -/
  source : Discovery.Source
  round? : Nat -> Option Discovery.Round := fun _ => none

namespace Network

/-!
## Runs

A run yields the network at its end and what has gone over the connections on
the way, replies to commands aside.
-/

def withClient (n : Network) (client : Client) : Network :=
  { n with client }

def setRound (n : Network) (task : Nat) (round : Discovery.Round) : Network :=
  { n with
    round? := fun other => if other = task then some round else n.round? other }

inductive Event where
  /-- Something happens to the client, but no views come. -/
  | client (event : Client.Event)
  /-- A task that wants views begins its round. -/
  | ask (task : Nat)
  /-- Something happens to a query in the round of a task. -/
  | query (task position : Nat) (event : Discovery.Query.Event)
  /-- The round of a task has ended, and the task gets the views. -/
  | answered (task : Nat)

def Event.handed? : Event -> Option Table
  | .client event => event.handed?
  | _ => none

/-- The network after an event.  A round goes on as long as its task waits for
it. -/
def step (n : Network) : Event -> Option Network
  | .client event =>
      if event.views?.isSome then
        none
      else
        (n.client.step event).map n.withClient
  | .ask task =>
      match n.client.asked? task, n.round? task with
      | some endpoints, none =>
          some (n.setRound task (.start n.source endpoints))
      | _, _ => none
  | .query task position event =>
      match n.client.asked? task, n.round? task with
      | some _, some round => (round.step position event).map (n.setRound task)
      | _, _ => none
  | .answered task =>
      match n.round? task with
      | some round =>
          if round.isFinished then
            (n.client.step (.viewed task round.views)).map n.withClient
          else
            none
      | none => none

inductive Wire where
  /-- A link of a session. -/
  | link (session number : Nat)
  /-- The link of a query in the round of a task. -/
  | query (task position : Nat)
  deriving DecidableEq, Repr

/-- What goes over a connection, replies to commands aside. -/
inductive Message where
  | credential (password : String)
  /-- The node has accepted the credential. -/
  | accepted
  | command (command : Command)
  deriving DecidableEq, Repr

abbrev Traffic := List (Wire × Message)

def credentialOn (wire : Wire) (endpoint : Endpoint) : Traffic :=
  endpoint.credential.toList.map (fun password => (wire, .credential password))

def commandOn (id : Nat) (s : Session) (handle : Nat)
    (command : Command) : Traffic :=
  (s.pool.handles[handle]?).toList.map
    (fun h => (.link id h.link, .command command))

/-- What goes over the links of a session at an event that leads from `s` to
`t`. -/
def sessionTraffic (id : Nat) (s t : Session) : Client.SessionEvent -> Traffic
  | .linked call =>
      match t.pool.phase? call with
      | some (.authenticating ticket link) =>
          credentialOn (.link id link) ticket.endpoint
      | _ => []
  | .accepted call =>
      match s.pool.phase? call with
      | some (.authenticating _ link) => [(.link id link, .accepted)]
      | _ => []
  | .proceed delivery =>
      match t.deliveries[delivery]? with
      | some ⟨_, command, _, .sending handle⟩ => commandOn id t handle command
      | _ => []
  | .sendOn handle command => commandOn id t handle command
  | _ => []

def sentBy (wire : Wire) (q : Discovery.Query) : Traffic :=
  match q.phase with
  | .authenticating => credentialOn wire q.endpoint
  | .listing => [(wire, .command Discovery.listingCommand)]
  | _ => []

def queryTraffic (wire : Wire) (q : Discovery.Query) :
    Discovery.Query.Event -> Traffic
  | .linked => sentBy wire q
  | .accepted => (wire, .accepted) :: sentBy wire q
  | _ => []

def query? (n : Network) (task position : Nat) : Option Discovery.Query :=
  (n.round? task).bind (fun round => round.queries[position]?)

def traffic (n m : Network) : Event -> Traffic
  | .client (.session id event) =>
      match n.client.session? id, m.client.session? id with
      | some s, some t => sessionTraffic id s t event
      | _, _ => []
  | .query task position event =>
      match m.query? task position with
      | some q => queryTraffic (.query task position) q event
      | none => []
  | _ => []

def run (n : Network) : List Event -> Option (Network × Traffic)
  | [] => some (n, [])
  | event :: rest =>
      (n.step event).bind
        (fun m =>
          (run m rest).map
            (fun (last, later) => (last, n.traffic m event ++ later)))

theorem run_cons {n last : Network} {event : Event} {events : List Event}
    {log : Traffic} :
    n.run (event :: events) = some (last, log) <->
      exists m later,
        n.step event = some m ∧ m.run events = some (last, later) ∧
        log = n.traffic m event ++ later := by
  rw [run, Option.bind_eq_some_iff]
  constructor
  · intro h
    rcases h with ⟨m, hm, hrest⟩
    rcases Option.map_eq_some_iff.mp hrest with ⟨⟨_, later⟩, hlater, heq⟩
    cases heq
    exact ⟨m, later, hm, hlater, rfl⟩
  · intro h
    rcases h with ⟨m, later, hm, hlater, rfl⟩
    refine ⟨m, hm, ?_⟩
    rw [hlater]
    rfl

/-! ## Traffic in order -/

variable {password : String} {log : Traffic}

inductive Allowed (password : String) (before : Traffic) :
    Wire × Message -> Prop where
  | credential (wire : Wire) :
      Allowed password before (wire, .credential password)
  | accepted {wire : Wire} (sent : (wire, .credential password) ∈ before) :
      Allowed password before (wire, .accepted)
  | command {wire : Wire} (command : Command)
      (accepted : (wire, .accepted) ∈ before) :
      Allowed password before (wire, .command command)

theorem Allowed.mono {before more : Traffic} {entry : Wire × Message}
    (h : Allowed password before entry) (hmore : before ⊆ more) :
    Allowed password more entry := by
  cases h with
  | credential wire => exact Allowed.credential wire
  | accepted sent => exact Allowed.accepted (hmore sent)
  | command command accepted => exact Allowed.command command (hmore accepted)

def Orderly (password : String) (log : Traffic) : Prop :=
  forall (before after : Traffic) (entry : Wire × Message),
    log = before ++ entry :: after -> Allowed password before entry

namespace Orderly

theorem nil : Orderly password [] := by
  intro before after entry h
  exact absurd h.symm
    (List.append_ne_nil_of_right_ne_nil before (List.cons_ne_nil entry after))

theorem concat (hlog : Orderly password log) {entry : Wire × Message}
    (hentry : Allowed password log entry) :
    Orderly password (log ++ [entry]) := by
  intro before after other h
  rcases List.eq_nil_or_concat after with rfl | ⟨init, final, rfl⟩
  · rcases List.append_inj' h rfl with ⟨rfl, hlast⟩
    cases hlast
    exact hentry
  · have hsplit : log ++ [entry] = (before ++ other :: init) ++ [final] := by
      simpa using h
    exact hlog before init other (List.append_inj' hsplit rfl).1

theorem append (hlog : Orderly password log) {new : Traffic}
    (hnew : forall entry, entry ∈ new -> Allowed password log entry) :
    Orderly password (log ++ new) := by
  induction new generalizing log with
  | nil =>
      rw [List.append_nil]
      exact hlog
  | cons entry rest ih =>
      rw [List.append_cons]
      apply ih (hlog.concat (hnew entry List.mem_cons_self))
      intro other hother
      exact (hnew other (List.mem_cons_of_mem _ hother)).mono
        (List.subset_append_left _ _)

end Orderly

/-!
## What goes over the connections

A session sends the password first, and commands over links on which the
password has been accepted.  A query does likewise.
-/

theorem allowed_of_credentialOn {wire : Wire} {endpoint : Endpoint}
    {entry : Wire × Message} (hendpoint : endpoint.credential = some password)
    (hentry : entry ∈ credentialOn wire endpoint) :
    Allowed password log entry := by
  unfold credentialOn at hentry
  rw [hendpoint] at hentry
  rw [List.mem_singleton.mp hentry]
  exact Allowed.credential wire

def Sent (password : String) (log : Traffic) (id link : Nat) : Prop :=
  (.link id link, .credential password) ∈ log

def Accepted (log : Traffic) (id link : Nat) : Prop :=
  (.link id link, .accepted) ∈ log

theorem allowed_of_commandOn {id handle : Nat} {s : Session} {command : Command}
    {entry : Wire × Message}
    (hs : s.pool.Entrusted password (Sent password log id) (Accepted log id))
    (hentry : entry ∈ commandOn id s handle command) :
    Allowed password log entry := by
  rcases List.mem_map.mp hentry with ⟨h, hh, rfl⟩
  have hmem : h ∈ s.pool.handles :=
    List.mem_of_getElem? (Option.mem_toList.mp hh)
  exact Allowed.command command (hs.links hmem)

theorem pool_of_proceed {s t : Session} {delivery : Nat}
    (h : s.proceed delivery = some t) : t.pool = s.pool := by
  unfold Session.proceed at h
  split at h
  · split at h
    · cases h
      rfl
    · cases h
      rfl
    · cases h
  · cases h

theorem credential_of_linked {s t : Session} {call link : Nat}
    {ticket : Pool.Ticket} {sent accepted : Nat -> Prop}
    (hs : s.pool.Entrusted password sent accepted)
    (h : Client.stepSession s (.linked call) = some t)
    (hphase : t.pool.phase? call = some (.authenticating ticket link)) :
    ticket.endpoint.credential = some password := by
  rcases Option.map_eq_some_iff.mp h with ⟨p, hp, rfl⟩
  -- Where the ticket comes from does not depend on what has gone over the
  -- links.
  have hanywhere : s.pool.Entrusted password (fun _ => True) (fun _ => True) :=
    hs.mono (fun _ => trivial) (fun _ => trivial)
  have hstepped : p.Entrusted password (fun _ => True) (fun _ => True) :=
    hanywhere.step hp nofun (fun _ _ => trivial) (fun _ _ => trivial)
  exact hstepped.ticket hphase rfl

theorem allowed_of_sessionTraffic {id : Nat} {s t : Session}
    {event : Client.SessionEvent} {entry : Wire × Message}
    (hs : s.pool.Entrusted password (Sent password log id) (Accepted log id))
    (h : Client.stepSession s event = some t)
    (hentry : entry ∈ sessionTraffic id s t event) :
    Allowed password log entry := by
  cases event with
  | linked call =>
      simp only [sessionTraffic] at hentry
      split at hentry
      · rename_i hphase
        exact allowed_of_credentialOn (credential_of_linked hs h hphase) hentry
      · cases hentry
  | accepted call =>
      simp only [sessionTraffic] at hentry
      split at hentry
      · rename_i hphase
        rw [List.mem_singleton.mp hentry]
        exact Allowed.accepted ((hs.phases hphase).handshake rfl)
      · cases hentry
  | proceed delivery =>
      have hpool : t.pool = s.pool := pool_of_proceed h
      rw [← hpool] at hs
      simp only [sessionTraffic] at hentry
      split at hentry
      · exact allowed_of_commandOn hs hentry
      · cases hentry
  | sendOn handle command =>
      cases h
      exact allowed_of_commandOn (s := s.sendOn handle command) hs hentry
  | _ => cases hentry

theorem orderly_queryTraffic {wire : Wire} {q r : Discovery.Query}
    {event : Discovery.Query.Event} (hlog : Orderly password log)
    (hq : q.endpoint.credential = some password)
    (hsent : q.phase = .authenticating -> (wire, .credential password) ∈ log)
    (h : q.step event = some r) :
    Orderly password (log ++ queryTraffic wire r event) := by
  cases event with
  | linked =>
      have hphase : r.phase = .authenticating :=
        Discovery.Query.phase_of_linked hq h
      have hr : r.endpoint.credential = some password := by
        rw [Discovery.Query.endpoint_of_step h]
        exact hq
      apply hlog.append
      intro entry hentry
      simp only [queryTraffic, sentBy, hphase] at hentry
      exact allowed_of_credentialOn hr hentry
  | accepted =>
      rcases Discovery.Query.phase_of_accepted h with ⟨hbefore, hafter⟩
      have haccepted : Orderly password (log ++ [(wire, .accepted)]) :=
        hlog.concat (Allowed.accepted (hsent hbefore))
      have hthere : (wire, .accepted) ∈ log ++ [(wire, .accepted)] :=
        List.mem_append_right log (List.mem_singleton_self _)
      have hasked :=
        haccepted.concat (Allowed.command Discovery.listingCommand hthere)
      simp only [queryTraffic, sentBy, hafter]
      rw [List.append_assoc] at hasked
      exact hasked
  | _ =>
      show Orderly password (log ++ [])
      rw [List.append_nil]
      exact hlog

/-! ## One password -/

/-- Client and rounds know of no other password, and the traffic so far tells on
which connections it has gone out and has been accepted. -/
structure Entrusted (password : String) (log : Traffic)
    (n : Network) : Prop where
  client : n.client.Entrusted password (Sent password log) (Accepted log)
  round : forall {task : Nat} {round : Discovery.Round},
    n.round? task = some round ->
    round.Entrusted password
      (fun position => (.query task position, .credential password) ∈ log)
  orderly : Orderly password log

namespace Entrusted

variable {n m : Network} {event : Event}

theorem start {c : Client} {source : Discovery.Source}
    (hc : c.Entrusted password (Sent password []) (Accepted [])) :
    Entrusted password [] { client := c, source } where
  client := hc
  round := nofun
  orderly := Orderly.nil

theorem asked (hn : Entrusted password log n) {task : Nat}
    {endpoints : List Endpoint} (h : n.client.asked? task = some endpoints)
    {e : Endpoint} (he : e ∈ endpoints) : e.credential = some password := by
  unfold Client.asked? at h
  split at h
  · cases h
    exact hn.client.seeds e he
  · rename_i hphase
    cases h
    exact hn.client.phases hphase e he
  · cases h

theorem more (hn : Entrusted password log n) {new : Traffic}
    (horderly : Orderly password (log ++ new)) :
    Entrusted password (log ++ new) n where
  client :=
    hn.client.mono (fun h => List.mem_append_left new h)
      (fun h => List.mem_append_left new h)
  round hround := (hn.round hround).mono (fun h => List.mem_append_left new h)
  orderly := horderly

theorem setRound (hn : Entrusted password log n) (task : Nat)
    {round : Discovery.Round}
    (hround : round.Entrusted password
      (fun position => (.query task position, .credential password) ∈ log)) :
    Entrusted password log (n.setRound task round) where
  client := hn.client
  round := by
    intro other found hfound
    change (if other = task then some round else n.round? other) =
      some found at hfound
    split at hfound
    · rename_i hsame
      cases hfound
      rw [hsame]
      exact hround
    · exact hn.round hfound
  orderly := hn.orderly

theorem stepSession (hn : Entrusted password log n) {id : Nat}
    {event : Client.SessionEvent} {c : Client}
    (h : n.client.step (.session id event) = some c)
    (hhanded : forall {table : Table},
      (event.table?.map Shared.table) = some table -> table.Carries password) :
    Entrusted password
      (log ++ n.traffic (n.withClient c) (.client (.session id event)))
      (n.withClient c) := by
  rcases Client.session_of_step h with ⟨s, t, hs, hstepped, ht⟩
  have htraffic : n.traffic (n.withClient c) (.client (.session id event)) =
      sessionTraffic id s t event := by
    simp only [traffic, withClient, hs, ht]
  have hpool := hn.client.pools hs
  have horderly : Orderly password (log ++ sessionTraffic id s t event) :=
    hn.orderly.append
      (fun _ hentry => allowed_of_sessionTraffic hpool hstepped hentry)
  have hmore := hn.more horderly
  rw [htraffic]
  refine ⟨?_, hmore.round, horderly⟩
  -- What the new state says about its links is what this event has just added
  -- to the traffic.
  apply hmore.client.step h nofun hhanded
  · intro id i l t' ticket hevent ht' hphase
    cases hevent
    have hsame : t' = t := Option.some.inj (ht'.symm.trans ht)
    subst hsame
    apply List.mem_append_right
    simp only [sessionTraffic, hphase, credentialOn,
      credential_of_linked hpool hstepped hphase]
    exact List.mem_singleton_self _
  · intro id i l s' ticket hevent hs' hphase
    cases hevent
    have hsame : s' = s := Option.some.inj (hs'.symm.trans hs)
    subst hsame
    apply List.mem_append_right
    simp only [sessionTraffic, hphase]
    exact List.mem_singleton_self _

theorem stepClient (hn : Entrusted password log n) {event : Client.Event}
    {c : Client} (h : n.client.step event = some c)
    (hviews : forall {views : Discovery.Views} {table : Table},
      event.views? = some views -> views.canonical? = some table ->
      table.Carries password)
    (hhanded : forall {table : Table}, event.handed? = some table ->
      table.Carries password)
    (hother : forall id inner, event ≠ .session id inner) :
    Entrusted password log (n.withClient c) where
  client := by
    apply hn.client.step h hviews hhanded
    · intro id i l t ticket hevent
      exact absurd hevent (hother id _)
    · intro id i l s ticket hevent
      exact absurd hevent (hother id _)
  round := hn.round
  orderly := hn.orderly

theorem stepQuery (hn : Entrusted password log n) {task position : Nat}
    {event : Discovery.Query.Event} {old new : Discovery.Round}
    (hold : n.round? task = some old) (h : old.step position event = some new) :
    Entrusted password
      (log ++ n.traffic (n.setRound task new) (.query task position event))
      (n.setRound task new) := by
  have hround := hn.round hold
  rcases Discovery.Round.query_of_step h with ⟨q, r, hq, hstepped, hr, _⟩
  have htraffic : n.traffic (n.setRound task new) (.query task position event) =
      queryTraffic (.query task position) r event := by
    have hquery : (n.setRound task new).query? task position = some r := by
      simp only [query?, Network.setRound, if_true, Option.bind_some]
      exact hr
    simp only [traffic, hquery]
  have horderly :
      Orderly password (log ++ queryTraffic (.query task position) r event) :=
    orderly_queryTraffic hn.orderly (hround.endpoint (List.mem_of_getElem? hq))
      (hround.handshake hq) hstepped
  have hmore := hn.more horderly
  rw [htraffic]
  apply hmore.setRound
  apply (hmore.round hold).step h
  intro found hevent hfound hphase
  rw [hr] at hfound
  cases hfound
  subst hevent
  have hcredential : r.endpoint.credential = some password := by
    rw [Discovery.Query.endpoint_of_step hstepped]
    exact hround.endpoint (List.mem_of_getElem? hq)
  apply List.mem_append_right
  simp only [queryTraffic, sentBy, hphase, credentialOn, hcredential]
  exact List.mem_singleton_self _

theorem step (hn : Entrusted password log n) (h : n.step event = some m)
    (hhanded : forall {table : Table}, event.handed? = some table ->
      table.Carries password) :
    Entrusted password (log ++ n.traffic m event) m := by
  have hquiet (hm : Entrusted password log m)
      (htraffic : n.traffic m event = []) :
      Entrusted password (log ++ n.traffic m event) m := by
    rw [htraffic, List.append_nil]
    exact hm
  cases event with
  | client event =>
      simp only [Network.step] at h
      split at h
      · cases h
      · rename_i hnone
        rcases Option.map_eq_some_iff.mp h with ⟨c, hc, rfl⟩
        have hviews {views : Discovery.Views} {table : Table}
            (hbrings : event.views? = some views) :
            views.canonical? = some table -> table.Carries password := by
          rw [hbrings] at hnone
          exact absurd rfl hnone
        cases event with
        | session id inner => exact hn.stepSession hc hhanded
        | _ =>
            exact hquiet
              (hn.stepClient hc hviews hhanded (fun _ _ => nofun)) rfl
  | ask task =>
      simp only [Network.step] at h
      split at h
      · rename_i endpoints hasked _
        cases h
        exact hquiet
          (hn.setRound task
            (Discovery.Round.Entrusted.start n.source
              (fun _ he => hn.asked hasked he))) rfl
      · cases h
  | query task position event =>
      simp only [Network.step] at h
      split at h
      · rename_i hold
        rcases Option.map_eq_some_iff.mp h with ⟨new, hnew, rfl⟩
        exact hn.stepQuery hold hnew
      · cases h
  | answered task =>
      simp only [Network.step] at h
      split at h
      · rename_i round hround
        split at h
        · rcases Option.map_eq_some_iff.mp h with ⟨c, hc, rfl⟩
          refine hquiet (hn.stepClient hc ?_ nofun (fun _ _ => nofun)) rfl
          intro views table hviews hfirst
          cases hviews
          exact Discovery.Views.carries_of_canonical?
            (fun _ hv => (hn.round hround).views hv) hfirst
        · cases h
      · cases h

theorem run {events : List Event} {later : Traffic}
    (hn : Entrusted password log n) (h : n.run events = some (m, later))
    (hhanded : forall event, event ∈ events ->
      forall table, event.handed? = some table -> table.Carries password) :
    Entrusted password (log ++ later) m := by
  induction events generalizing n log later with
  | nil =>
      cases h
      rw [List.append_nil]
      exact hn
  | cons event rest ih =>
      rcases run_cons.mp h with ⟨r, final, hr, hrest, rfl⟩
      have hstepped :=
        hn.step hr (fun htable => hhanded event List.mem_cons_self _ htable)
      rw [← List.append_assoc]
      exact ih hstepped hrest
        (fun other hother => hhanded other (List.mem_cons_of_mem _ hother))

end Entrusted

/-- The tables that a client, its sessions and their connections have, and those
that its tasks have brought. -/
inductive Holds (c : Client) : Table -> Prop where
  | own {u : Shared} (own : c.table = some u) : Holds c u.table
  | session {id : Nat} {s : Session} (found : c.session? id = some s) :
      Holds c s.pool.table.table
  | connection {id : Nat} {s : Session} {h : Handle}
      (found : c.session? id = some s) (opened : h ∈ s.pool.handles) :
      Holds c h.table.table
  | outcome {task : Nat} {u : Shared}
      (brought : c.phase? task = some (.finished (.table u))) : Holds c u.table

theorem carries_of_holds {c : Client} {sent accepted : Nat -> Nat -> Prop}
    {table : Table} (hc : c.Entrusted password sent accepted)
    (h : Holds c table) : table.Carries password := by
  cases h with
  | own own => exact hc.table own
  | session found => exact (hc.pools found).table
  | connection found opened => exact (hc.pools found).tables opened
  | outcome brought => exact hc.phases brought

theorem entrusted_of_start {settings : Settings} {c : Client}
    (hstart : Client.start settings = .ok c) (hpassword : password ≠ "")
    (hseeds : forall e, e ∈ c.seeds -> e.password = some password) :
    c.Entrusted password (Sent password []) (Accepted []) := by
  have hfresh := Client.fresh_of_start hstart
  have hcredential (e : Endpoint) (he : e ∈ c.seeds) :
      e.credential = some password :=
    Endpoint.credential_eq_some.mpr ⟨hseeds e he, hpassword⟩
  unfold Client.start at hstart
  split at hstart
  · cases hstart
  · rename_i hvalid
    cases hstart
    apply Client.Entrusted.fresh hfresh rfl
    · intro hnone
      have hempty : settings.seeds = [] := List.map_eq_nil_iff.mp hnone
      unfold Settings.validate at hvalid
      rw [hempty] at hvalid
      cases hvalid
    · exact hcredential

/-- All seeds of a client have the same password.  Whatever happens to the
client and its rounds then, every endpoint in a table that it or one of its
connections has gets that password, no other password is ever sent, and on every
connection the password goes out and is accepted before the first command.
Tables that the client has not loaded itself may come in only if they carry the
password, too. -/
theorem credential_of_run {settings : Settings} {c : Client}
    {source : Discovery.Source} {events : List Event} {n : Network}
    {log : Traffic} (hstart : Client.start settings = .ok c)
    (hpassword : password ≠ "")
    (hseeds : forall e, e ∈ c.seeds -> e.password = some password)
    (hhanded : forall event, event ∈ events ->
      forall table, event.handed? = some table -> table.Carries password)
    (hrun : run { client := c, source } events = some (n, log)) :
    (forall table, Holds n.client table -> forall node, node ∈ table.nodes ->
      node.endpoint.credential = some password) ∧
    (forall wire other, (wire, .credential other) ∈ log -> other = password) ∧
    forall before after wire command,
      log = before ++ (wire, .command command) :: after ->
      (wire, .accepted) ∈ before ∧
        forall early late, before = early ++ (wire, .accepted) :: late ->
          (wire, .credential password) ∈ early := by
  have hentrusted : Entrusted password log n :=
    (Entrusted.start (entrusted_of_start hstart hpassword hseeds)).run
      hrun hhanded
  refine ⟨?_, ?_, ?_⟩
  · intro table htable
    exact carries_of_holds hentrusted.client htable
  · intro wire other hother
    rcases List.append_of_mem hother with ⟨before, after, hsplit⟩
    cases hentrusted.orderly before after _ hsplit with
    | credential => rfl
  · intro before after wire command hsplit
    constructor
    · cases hentrusted.orderly before after _ hsplit with
      | command _ haccepted => exact haccepted
    -- The acceptance stands in the whole traffic, so what has to come before it
    -- does so here, too.
    · intro early late hearly
      have hacceptance : log = early ++ (wire, .accepted) ::
          (late ++ (wire, .command command) :: after) := by
        rw [hsplit, hearly, List.append_assoc]
        rfl
      cases hentrusted.orderly early _ _ hacceptance with
      | accepted hsent => exact hsent

def locked : Settings :=
  .ofSeeds [{ host := "s", port := 1, password := some "k" }]

def lockedClient : Client :=
  { settings := locked
    seeds :=
      [{ host := "s"
         port := 1
         password := some "k"
         timeout := .ofMillis 10000 }]
    timeout := .ofMillis 10000
    scheduler := { period := .ofSeconds 60 } }

def relay : List Event :=
  [.client (.fetch .session), .ask 0, .query 0 0 .linked, .query 0 0 .accepted,
    .query 0 0
      (.answered
        (.ok (.bulk (some (Utf8.encode "a n:2@3 master - 0 0 1 connected"))))),
    .query 0 0 .closed, .answered 0,
    .client (.session 1 (.sendTo "a" (.make "PING" []))),
    .client (.session 1 (.begin 0)), .client (.session 1 (.linked 0)),
    .client (.session 1 (.accepted 0)), .client (.session 1 (.proceed 0)),
    .client .refresh, .ask 1, .query 1 0 .linked]

/-- The listing has no password for its node, and the password of the seed goes
there twice. -/
theorem credential_of_run_relay :
    Client.start locked = .ok lockedClient ∧ exists n u log,
      run { client := lockedClient, source := .listing } relay = some (n, log) ∧
      n.client.table = some u ∧ u.table.nodes.map Node.id = ["a"] ∧
      (forall node, node ∈ u.table.nodes ->
        node.endpoint.credential = some "k") ∧
      log =
        [(.query 0 0, .credential "k"), (.query 0 0, .accepted),
          (.query 0 0, .command Discovery.listingCommand),
          (.link 1 0, .credential "k"), (.link 1 0, .accepted),
            (.link 1 0, .command (.make "PING" [])),
          (.query 1 0, .credential "k")] ∧
      forall wire other, (wire, .credential other) ∈ log -> other = "k" := by
  have hstart : Client.start locked = .ok lockedClient := rfl
  have hcomputed :
      (run { client := lockedClient, source := .listing } relay).map (fun r =>
        (r.1.client.table.map (fun u => u.table.nodes.map Node.id), r.2)) =
        some (some ["a"],
          [(.query 0 0, .credential "k"), (.query 0 0, .accepted),
            (.query 0 0, .command Discovery.listingCommand),
            (.link 1 0, .credential "k"), (.link 1 0, .accepted),
            (.link 1 0, .command (.make "PING" [])),
            (.query 1 0, .credential "k")]) := by
    decide +kernel
  have hseeds : forall e, e ∈ lockedClient.seeds -> e.password = some "k" := by
    intro e he
    rw [List.mem_singleton.mp he]
  have hnone : relay.all (fun event => event.handed?.isNone) = true := rfl
  have hhanded : forall event, event ∈ relay ->
      forall table, event.handed? = some table -> table.Carries "k" := by
    intro event hevent table htable
    have hisNone := List.all_eq_true.mp hnone event hevent
    rw [htable] at hisNone
    cases hisNone
  rcases Option.map_eq_some_iff.mp hcomputed with ⟨⟨n, log⟩, hrun, hresult⟩
  rcases Prod.mk.inj hresult with ⟨htable, hlog⟩
  rcases Option.map_eq_some_iff.mp htable with ⟨u, hu, hids⟩
  have hcredential := credential_of_run hstart (by decide) hseeds hhanded hrun
  exact ⟨hstart, n, u, log, hrun, hu, hids,
    hcredential.1 u.table (Holds.own hu), hlog, hcredential.2.1⟩

end Network
end SlotCluster
