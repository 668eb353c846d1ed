import SlotCluster.Proofs.Pool.Endings
import SlotCluster.Proofs.Pool.SingleFlight

/-!
# Nodes under two keys

The key of an address is the node that the table finds there, or the address
itself while the table finds none.  A table that comes later may find a node at
the address of an entry.  No sweep takes such an entry away, since its address
is known now, and no call comes back to it, since the key of the address is the
node from now on.  So the node gets a second connection with the next call.  As
long as no table adopts an entry in this way, every node is connected once at
most.
-/

namespace SlotCluster
namespace Pool

variable {p q : Pool} {id host : String} {port : UInt16} {event : Event}
  {events : List Event}

def LeadsTo (p : Pool) (id : String) (key : Target) : Prop :=
  exists endpoint,
    key.resolve p.table.table p.fallback = .ok (.node id, endpoint)

/-- No entry is kept under an address that the table knows. -/
def Unaliased (p : Pool) : Prop :=
  forall e host port, e ∈ p.entries -> e.1 = .address host port ->
    p.table.table.nodeAt? host port = none

/-- The event brings a table that finds a node at the address of an entry. -/
def Adopts (p : Pool) (event : Event) : Prop :=
  exists u e host port, event = .apply u ∧ e ∈ p.entries ∧
    e.1 = .address host port ∧ u.table.nodeAt? host port ≠ none

def ConnectedTwice (p : Pool) (id : String) : Prop :=
  exists g h k l key other, g ≠ h ∧ p.wire? g = some (key, k) ∧
    p.wire? h = some (other, l) ∧ p.isLinkOpen k = true ∧
    p.isLinkOpen l = true ∧ p.LeadsTo id key ∧ p.LeadsTo id other

/-! ## Keys -/

theorem resolve_address_of_none {table : Table} (fallback : Endpoint)
    (hnone : table.nodeAt? host port = none) :
    exists endpoint,
      (Target.address host port).resolve table fallback =
        .ok (.address host port, endpoint) := by
  rw [Target.resolve]
  simp only [hnone]
  exact ⟨_, rfl⟩

theorem nodeAt?_of_resolve {target : Target} {table : Table}
    {fallback endpoint : Endpoint}
    (h : target.resolve table fallback = .ok (.address host port, endpoint)) :
    table.nodeAt? host port = none := by
  cases target with
  | node other =>
      rw [Target.resolve] at h
      split at h <;> cases h
  | address other number =>
      rw [Target.resolve] at h
      split at h
      · cases h
      · rename_i hnone
        cases h
        exact hnone

theorem node_of_leadsTo {other : String}
    (h : p.LeadsTo id (.node other)) : other = id := by
  rcases h with ⟨endpoint, hresolve⟩
  rw [Target.resolve] at hresolve
  split at hresolve
  · cases hresolve
    rfl
  · cases hresolve

theorem nodeAt?_of_leadsTo (h : p.LeadsTo id (.address host port)) :
    p.table.table.nodeAt? host port ≠ none := by
  intro hnone
  rcases h with ⟨endpoint, hresolve⟩
  rcases resolve_address_of_none p.fallback hnone with ⟨_, hkey⟩
  rw [hkey] at hresolve
  cases hresolve

theorem leadsTo_node {key : Target} (h : p.LeadsTo id key) :
    p.LeadsTo id (.node id) := by
  rcases h with ⟨endpoint, hresolve⟩
  have hknown : p.table.table.contains id = true :=
    knows_of_resolve hresolve id rfl
  rcases Option.isSome_iff_exists.mp hknown with ⟨n, hn⟩
  refine ⟨n.endpoint, ?_⟩
  rw [Target.resolve, hn]

theorem key_of_unaliased (hp : p.Unaliased) {e : Target × Nat}
    (he : e ∈ p.entries) (hleads : p.LeadsTo id e.1) : e.1 = .node id := by
  cases hkey : e.1 with
  | node other =>
      rw [hkey] at hleads
      rw [node_of_leadsTo hleads]
  | address host port =>
      rw [hkey] at hleads
      exact absurd (hp e host port he hkey) (nodeAt?_of_leadsTo hleads)

/-! ## Runs without adoption -/

theorem Unaliased.start (table : Shared) (fallback : Endpoint) :
    Unaliased { table, fallback } := by
  intro e host port he
  cases he

theorem unaliased_step_iff (hp : p.Unaliased) (h : p.step event = some q) :
    q.Unaliased <-> ¬ p.Adopts event := by
  have htable := table_of_step h
  constructor
  · rintro hq ⟨u, e, host, port, rfl, he, hkey, hfound⟩
    cases h
    exact hfound (hq e host port he hkey)
  · intro hfree e host port he hkey
    rcases entries_of_step h he with hold | hbrings
    · cases hu : event.table? with
      | none =>
          rw [hu] at htable
          rw [htable]
          exact hp e host port hold hkey
      | some u =>
          rw [hu] at htable
          rw [htable]
          by_contra hfound
          cases event with
          | apply table =>
              cases hu
              exact hfree ⟨u, e, host, port, rfl, hold, hkey, hfound⟩
          | _ => cases hu
    · cases hbrings with
      | request _ resolved =>
          rw [htable]
          rw [hkey] at resolved
          exact nodeAt?_of_resolve resolved

theorem Unaliased.run (hp : p.Unaliased) (h : p.run events = some q)
    (hfree : forall before event after b, events = before ++ event :: after ->
      p.run before = some b -> ¬ b.Adopts event) : q.Unaliased := by
  induction events generalizing p with
  | nil =>
      cases h
      exact hp
  | cons event rest ih =>
      rcases run_cons.mp h with ⟨r, hr, hrest⟩
      refine ih ((unaliased_step_iff hp hr).mpr (hfree [] event rest p rfl rfl))
        hrest ?_
      rintro before next after b rfl hb
      exact hfree (event :: before) next after b rfl (run_cons.mpr ⟨r, hr, hb⟩)

theorem entry_of_unaliased (hs : Sound p) (hp : p.Unaliased)
    {e f : Target × Nat} (he : e ∈ p.entries) (hf : f ∈ p.entries)
    (hleads : p.LeadsTo id e.1) (hleads' : p.LeadsTo id f.1) : e = f := by
  rcases hs with ⟨keyAt, hseated, _⟩
  have hkey : e.1 = f.1 :=
    (key_of_unaliased hp he hleads).trans (key_of_unaliased hp hf hleads').symm
  have hfound := (entry?_eq_some hseated.keys_nodup).mpr he
  rw [hkey, (entry?_eq_some hseated.keys_nodup).mpr hf] at hfound
  exact Prod.ext hkey (Option.some.inj hfound).symm

theorem not_connectedTwice {table : Shared} {fallback : Endpoint}
    (hrun : run { table, fallback } events = some p) (hp : p.Unaliased)
    (hquiet : p.Quiet) (id : String) : ¬ p.ConnectedTwice id := by
  rintro ⟨g, h, k, l, key, other, hne, hg, hh, hk, hl, hleads, hleads'⟩
  rcases entry_of_open hrun hquiet hg hk with ⟨e, he, rfl, hcell⟩
  rcases entry_of_open hrun hquiet hh hl with ⟨f, hf, rfl, hcell'⟩
  rw [entry_of_unaliased ((Sound.start table fallback).run hrun) hp he hf hleads
    hleads', hcell'] at hcell
  exact hne (Option.some.inj hcell).symm

/-!
## Calls for a node with an alias

A call for the node that begins with a new cell can get a connection of its
own, and with a credential the node has to accept it before.
-/

theorem conclude_of_entry {i h : Nat} {t : Ticket} (hopen : p.isClosed = false)
    (hentry : p.entry? t.key = some t.cell) (hknows : p.Knows t.key) :
    p.conclude i t h = p.setPhase i (.finished (.ok h)) := by
  have hhere : (p.entry? t.key ≠ some t.cell || p.isClosed) = false := by
    rw [hentry, hopen]
    simp
  rw [conclude, if_neg (Bool.eq_false_iff.mp hhere)]
  cases hkey : t.key with
  | address host port => rfl
  | node id =>
      have hfresh : Target.isStale p.table.table (.node id) = false := by
        rw [Target.isStale, hknows id hkey]
        rfl
      exact if_neg (Bool.eq_false_iff.mp hfresh)

structure Connected (p : Pool) (key : Target) (q : Pool) : Prop where
  phases : forall i phase, q.phase? i = some phase ->
    p.phase? i = some phase ∨ exists h, phase = .finished (.ok h)
  cleanups : q.cleanups = p.cleanups
  table : q.table = p.table
  fallback : q.fallback = p.fallback
  kept : forall l, p.isLinkOpen l = true -> q.isLinkOpen l = true
  wires : forall h wire, p.wire? h = some wire -> q.wire? h = some wire
  new : exists h l, p.wire? h = none ∧ q.wire? h = some (key, l) ∧
    q.isLinkOpen l = true

theorem connected_of_establish {r : Pool} {t : Ticket} {l : Nat} {phase : Phase}
    (hphases : forall i,
      r.phase? i = if i = p.calls.length then some phase else p.phase? i)
    (hopen : r.isClosed = false) (hentry : r.entry? t.key = some t.cell)
    (hknows : r.Knows t.key) (hcleanups : r.cleanups = p.cleanups)
    (htable : r.table = p.table) (hfallback : r.fallback = p.fallback)
    (hhandles : r.handles = p.handles)
    (hkept : forall m, p.isLinkOpen m = true -> r.isLinkOpen m = true)
    (hlink : r.isLinkOpen l = true) :
    Connected p t.key (r.establish p.calls.length t l) := by
  let filled : Pool :=
    { r with
      handles := r.handles ++ [⟨t.key, t.endpoint, l, r.table⟩]
      cells :=
        r.cells.modify t.cell (fun _ => { handle := some r.handles.length }) }
  have heq : r.establish p.calls.length t l =
      filled.setPhase p.calls.length (.finished (.ok r.handles.length)) :=
    conclude_of_entry (p := filled) hopen hentry hknows
  have hwires (h : Nat) : (r.establish p.calls.length t l).wire? h =
      if h = p.handles.length then some (t.key, l) else p.wire? h := by
    have hfilled := wire?_fillCell r p.calls.length t l h
    have hsame : r.wire? h = p.wire? h := by
      unfold wire?
      rw [hhandles]
    rw [hhandles, hsame] at hfilled
    rw [heq, ← hfilled]
    rfl
  have hnone : p.wire? p.handles.length = none := by
    unfold wire?
    rw [List.getElem?_eq_none (Nat.le_refl _)]
    rfl
  constructor
  case phases =>
    intro i new hnew
    rw [heq, phase?_setPhase] at hnew
    have hold : filled.phase? i =
        if i = p.calls.length then some phase else p.phase? i :=
      hphases i
    rw [hold] at hnew
    by_cases hi : p.calls.length = i
    · rw [if_pos hi, if_pos hi.symm] at hnew
      exact Or.inr ⟨_, (Option.some.inj hnew).symm⟩
    · rw [if_neg hi, if_neg (Ne.symm hi)] at hnew
      exact Or.inl hnew
  case cleanups =>
    rw [heq]
    exact hcleanups
  case table =>
    rw [heq]
    exact htable
  case fallback =>
    rw [heq]
    exact hfallback
  case kept =>
    intro m hm
    rw [heq]
    exact hkept m hm
  case wires =>
    intro h wire hwire
    rw [hwires, if_neg]
    · exact hwire
    · intro hh
      rw [hh, hnone] at hwire
      cases hwire
  case new =>
    refine ⟨p.handles.length, l, hnone, ?_, ?_⟩
    · rw [hwires, if_pos rfl]
    · rw [heq]
      exact hlink

/-- A call for the node begins, or gets on with its connection. -/
inductive Event.Connects (id : String) : Event -> Prop where
  | request : Connects id (.request (.node id))
  | linked (call : Nat) : Connects id (.linked call)
  | accepted (call : Nat) : Connects id (.accepted call)

section NewCell

variable {t : Ticket} (target : Target)

theorem phase?_openCell_self (p : Pool) (t : Ticket) :
    (p.openCell target t).phase? p.calls.length = some (.connecting t) :=
  (phase?_openCell p target t _).trans (if_pos rfl)

theorem entry?_openCell_self (hfree : p.entry? t.key = none) :
    Pool.entry? (p.openCell target t) t.key = some t.cell := by
  rw [entry?_openCell target hfree, if_pos rfl]

theorem isLinkOpen_dialed (p : Pool) (t : Ticket) {l : Nat}
    (hl : l = p.links.length ∨ p.isLinkOpen l = true) :
    ((p.openCell target t).dialLink p.calls.length t).isLinkOpen l = true := by
  have hdialed :
      ((p.openCell target t).dialLink p.calls.length t).isLinkOpen l =
        (p.isLinkOpen l || decide (l = p.links.length)) :=
    isLinkOpen_dialLink (p.openCell target t) p.calls.length l t
  rcases hl with hnew | hold
  · rw [hdialed, decide_eq_true hnew, Bool.or_true]
  · rw [hdialed, hold, Bool.true_or]

@[simp]
theorem isLinkOpen_authenticated (p : Pool) (l m : Nat) :
    isLinkOpen { p with
      links := p.links.modify l (fun k => { k with isAuthenticated := true }) }
          m = p.isLinkOpen m := by
  unfold isLinkOpen
  rw [List.getElem?_modify]
  cases p.links[m]? with
  | none => rfl
  | some link => by_cases hm : l = m <;> simp [hm]

variable (hopen : p.isClosed = false) (hfree : p.entry? t.key = none)
  (hknows : p.Knows t.key)

include hopen hfree hknows

theorem connected_of_linked (hcredential : t.endpoint.credential = none) :
    exists q, (p.openCell target t).run [.linked p.calls.length] = some q ∧
      Connected p t.key q := by
  refine ⟨(p.openCell target t).linked p.calls.length t, ?_, ?_⟩
  · apply run_cons_of_some
    rw [step, phase?_openCell_self]
  · rw [linked, hcredential]
    exact connected_of_establish (phase?_openCell p target t) hopen
      (entry?_openCell_self target hfree) hknows
      rfl rfl rfl rfl (fun _ hm => isLinkOpen_dialed target p t (Or.inr hm))
      (isLinkOpen_dialed target p t (Or.inl rfl))

theorem connected_of_accepted {password : String}
    (hcredential : t.endpoint.credential = some password) :
    exists q, (p.openCell target t).run
      [.linked p.calls.length, .accepted p.calls.length] = some q ∧
      Connected p t.key q := by
  let s := (p.openCell target t).dialLink p.calls.length t
  have hlinked : (p.openCell target t).linked p.calls.length t = s := by
    rw [linked, hcredential]
    rfl
  have hphases (i : Nat) : s.phase? i =
      if i = p.calls.length then some (.authenticating t p.links.length)
      else p.phase? i := by
    rw [phase?_dialLink (phase?_openCell_self target p t), phase?_openCell]
    by_cases hi : p.calls.length = i
    · rw [if_pos hi, if_pos hi.symm]
      rfl
    · rw [if_neg hi, if_neg (Ne.symm hi), if_neg (Ne.symm hi)]
  refine ⟨s.accepted p.calls.length t p.links.length, ?_, ?_⟩
  · have hfirst :
        (p.openCell target t).step (.linked p.calls.length) = some s := by
      rw [step, phase?_openCell_self]
      exact congrArg some hlinked
    have hsecond : s.step (.accepted p.calls.length) =
        some (s.accepted p.calls.length t p.links.length) := by
      rw [step, hphases, if_pos rfl]
    exact run_cons.mpr ⟨s, hfirst, run_cons.mpr ⟨_, hsecond, rfl⟩⟩
  · refine connected_of_establish hphases hopen
      (entry?_openCell_self target hfree) hknows rfl rfl rfl rfl ?_ ?_
    · intro m hm
      rw [isLinkOpen_authenticated]
      exact isLinkOpen_dialed target p t (Or.inr hm)
    · rw [isLinkOpen_authenticated]
      exact isLinkOpen_dialed target p t (Or.inl rfl)

theorem connected_of_openCell :
    exists more q, (forall event, event ∈ more -> event.Connects id) ∧
      (p.openCell target t).run more = some q ∧ Connected p t.key q := by
  cases hcredential : t.endpoint.credential with
  | none =>
      rcases connected_of_linked target hopen hfree hknows hcredential with
        ⟨q, hq, hconnected⟩
      refine ⟨[.linked p.calls.length], q, ?_, hq, hconnected⟩
      intro event hevent
      cases List.mem_singleton.mp hevent
      exact Event.Connects.linked _
  | some password =>
      rcases connected_of_accepted target hopen hfree hknows hcredential with
        ⟨q, hq, hconnected⟩
      refine ⟨[.linked p.calls.length, .accepted p.calls.length], q, ?_,
        hq, hconnected⟩
      intro event hevent
      rcases List.mem_pair.mp hevent with rfl | rfl
      · exact Event.Connects.linked _
      · exact Event.Connects.accepted _

end NewCell

theorem connectedTwice_of_connected {h l : Nat} (hquiet : p.Quiet)
    (hwire : p.wire? h = some (.address host port, l))
    (hlive : p.isLinkOpen l = true) (hleads : p.LeadsTo id (.address host port))
    (hq : Connected p (.node id) q) : q.Quiet ∧ q.ConnectedTwice id := by
  constructor
  · constructor
    · intro i phase hphase
      rcases hq.phases i phase hphase with hold | ⟨handle, rfl⟩
      · exact hquiet.calls hold
      · exact ⟨_, rfl⟩
    · intro c hc
      rw [hq.cleanups] at hc
      exact hquiet.cleanups hc
  · rcases hq.new with ⟨g, k, hnone, hnew, hopen⟩
    have hne : h ≠ g := by
      intro heq
      rw [heq, hnone] at hwire
      cases hwire
    have hsame {key : Target} (hkey : p.LeadsTo id key) : q.LeadsTo id key := by
      rcases hkey with ⟨endpoint, hresolve⟩
      rw [← hq.table, ← hq.fallback] at hresolve
      exact ⟨endpoint, hresolve⟩
    exact ⟨h, g, l, k, _, _, hne, hq.wires h _ hwire, hnew, hq.kept l hlive,
      hopen, hsame hleads, hsame (leadsTo_node hleads)⟩

theorem connected_of_request {r : Pool} {t : Ticket}
    (hrequest : p.request (.node id) = r.openCell (.node id) t)
    (hkey : t.key = .node id) (hopen : r.isClosed = false)
    (hfree : r.entry? t.key = none) (hknows : r.Knows t.key) :
    exists more q, (forall event, event ∈ more -> event.Connects id) ∧
      p.run more = some q ∧ Connected r (.node id) q := by
  rcases connected_of_openCell (.node id) hopen hfree hknows with
    ⟨more, q, hmore, hrun, hq⟩
  rw [hkey] at hq
  refine ⟨.request (.node id) :: more, q, ?_,
    run_cons.mpr ⟨_, congrArg some hrequest, hrun⟩, hq⟩
  intro event hevent
  rcases List.mem_cons.mp hevent with rfl | hevent
  · exact Event.Connects.request
  · exact hmore event hevent

/-- Calls alone connect a node twice that is connected under its address. -/
theorem connectedTwice_of_alias {table : Shared} {fallback : Endpoint}
    (hrun : run { table, fallback } events = some p) (hquiet : p.Quiet)
    (hopen : p.isClosed = false) {h l : Nat}
    (hwire : p.wire? h = some (.address host port, l))
    (hlive : p.isLinkOpen l = true)
    (hleads : p.LeadsTo id (.address host port)) :
    exists more q, (forall event, event ∈ more -> event.Connects id) ∧
      p.run more = some q ∧ q.Quiet ∧ q.ConnectedTwice id := by
  rcases (Sound.start table fallback).run hrun with ⟨keyAt, hs, hw⟩
  rcases leadsTo_node hleads with ⟨endpoint, hresolve⟩
  have hknows : p.Knows (.node id) := knows_of_resolve hresolve
  cases hentry : p.entry? (.node id) with
  | none =>
      rcases connected_of_request (request_of_free hopen hresolve hentry)
          rfl hopen hentry hknows with
        ⟨more, q, hmore, hq, hconnected⟩
      exact ⟨more, q, hmore, hq,
        connectedTwice_of_connected hquiet hwire hlive hleads hconnected⟩
  | some c =>
      -- If the connection under the id is open, there are two already; if it is
      -- dead, a call replaces it.
      have hmem := (entry?_eq_some hs.keys_nodup).mp hentry
      rcases Option.isSome_iff_exists.mp (filled_of_quiet hs hquiet hmem) with
        ⟨g, hfilled⟩
      cases hopened : p.isOpen g with
      | true =>
          rcases isOpen_iff_wire.mp hopened with ⟨key, k, hkey, hk⟩
          rcases hw.cell_wire hfilled with ⟨m, hm⟩
          rw [hs.entry_key hentry] at hm
          rw [hm] at hkey
          cases hkey
          have hne : h ≠ g := by
            intro heq
            rw [heq, hm] at hwire
            cases hwire
          refine ⟨[], p, fun _ hevent => (List.not_mem_nil hevent).elim,
            rfl, hquiet, ?_⟩
          exact ⟨h, g, l, k, _, _, hne, hwire, hm, hlive, hk, hleads,
            endpoint, hresolve⟩
      | false =>
          have hfree :
              Pool.entry? (p.removeEntry (.node id)) (.node id) = none := by
            simp
          rcases connected_of_request
            (request_of_dead hopen hresolve hentry hfilled hopened) rfl hopen
            hfree hknows with ⟨more, q, hmore, hq, hconnected⟩
          have hquiet' : (p.removeEntry (.node id)).Quiet :=
            ⟨hquiet.calls, hquiet.cleanups⟩
          exact ⟨more, q, hmore, hq,
            connectedTwice_of_connected (p := p.removeEntry (.node id)) hquiet'
              hwire hlive hleads hconnected⟩

theorem entry?_sweep_of_alias (hs : Sound p)
    (hleads : p.LeadsTo id (.address host port)) {c : Nat}
    (hentry : p.entry? (.address host port) = some c) :
    Pool.entry? (p.sweep p.table.table) (.address host port) = some c := by
  rcases hs with ⟨keyAt, hseated, _⟩
  have hfresh : Target.isStale p.table.table (.address host port) = false := by
    rw [Target.isStale, Option.isNone_eq_false_iff, Option.isSome_iff_ne_none]
    exact nodeAt?_of_leadsTo hleads
  rcases tidied_sweep p p.table.table with
    ⟨chores, rest, r, htidied, hkeys, hsweep⟩
  have hkept :=
    entry_of_tidied htidied (hkeys _)
      ((entry?_swept hseated p.table.table).mpr ⟨hentry, hfresh⟩)
  rw [hsweep]
  exact hkept

/-! ## When nodes are connected once -/

/-- When a node is connected once.  As long as no table finds a node at the
address of an entry, there are no aliases, and a step brings one about only in
this way.  Without aliases every node has one entry at most, and it is never
connected twice once nobody is in the middle of anything.  An alias, though,
stays through sweeps with the table of the pool, and calls for its node alone
lead to a second connection. -/
theorem connected_once_of_run {table : Shared} {fallback : Endpoint}
    (hrun : run { table, fallback } events = some p) :
    ((forall before event after b, events = before ++ event :: after ->
        run { table, fallback } before = some b -> ¬ b.Adopts event) ->
          p.Unaliased) ∧
    (forall event q, p.Unaliased -> p.step event = some q ->
      (q.Unaliased <-> ¬ p.Adopts event)) ∧
    (p.Unaliased -> forall id,
      (forall e f, e ∈ p.entries -> f ∈ p.entries -> p.LeadsTo id e.1 ->
        p.LeadsTo id f.1 -> e = f) ∧
        (p.Quiet -> ¬ p.ConnectedTwice id)) ∧
    forall id host port, p.LeadsTo id (.address host port) ->
      (forall c, p.entry? (.address host port) = some c ->
        Pool.entry? (p.sweep p.table.table) (.address host port) = some c) ∧
      (p.Quiet -> p.isClosed = false ->
        forall h l, p.wire? h = some (.address host port, l) ->
        p.isLinkOpen l = true ->
          exists more q, (forall event, event ∈ more -> event.Connects id) ∧
          p.run more = some q ∧ q.Quiet ∧ q.ConnectedTwice id) := by
  have hsound : Sound p := (Sound.start table fallback).run hrun
  refine ⟨(Unaliased.start table fallback).run hrun, fun event q hp =>
    unaliased_step_iff hp, ?_, ?_⟩
  · intro hp id
    exact ⟨fun e f => entry_of_unaliased hsound hp,
      fun hquiet => not_connectedTwice hrun hp hquiet id⟩
  · intro id host port hleads
    refine ⟨fun c hentry => entry?_sweep_of_alias hsound hleads hentry,
      fun hquiet hopen h l hwire hlive => ?_⟩
    exact connectedTwice_of_alias hrun hquiet hopen hwire hlive hleads

def joinedTable : Shared :=
  ⟨1, ⟨[.makeMaster "n2" (.atAddress "d" 2) []], Table.unowned⟩⟩

/-- A node that is connected under its address joins the cluster.  Calls lead to
a second connection. -/
theorem connected_once_of_run_joined :
    exists p, run { table := default, fallback := .atAddress "h" 1 }
        [.request (.address "d" 2), .linked 0, .apply joinedTable] = some p ∧
      p.Quiet ∧ p.entries.length = 1 ∧
      exists more q, (forall event, event ∈ more -> event.Connects "n2") ∧
        p.run more = some q ∧ q.Quiet ∧
        q.ConnectedTwice "n2" := by
  obtain ⟨p, hrun, hentries, hcalls, hcleanups, hclosed, hwire, hlive, hleads⟩ :
    exists p,
      run { table := default, fallback := .atAddress "h" 1 }
          [.request (.address "d" 2), .linked 0, .apply joinedTable] = some p ∧
        p.entries.length = 1 ∧ p.calls = [⟨.address "d" 2, .finished (.ok 0)⟩] ∧
          p.cleanups = [] ∧
        p.isClosed = false ∧ p.wire? 0 = some (.address "d" 2, 0) ∧
          p.isLinkOpen 0 = true ∧
        p.LeadsTo "n2" (.address "d" 2) :=
    ⟨_, rfl, rfl, rfl, rfl, rfl, rfl, rfl, _, rfl⟩
  have hquiet : p.Quiet := by
    apply quiet_of_mem <;> simp [hcalls, hcleanups]
  exact ⟨p, hrun, hquiet, hentries,
    ((connected_once_of_run hrun).2.2.2 "n2" "d" 2 hleads).2 hquiet hclosed 0 0
      hwire hlive⟩

/-- A caller connects to an address, a node with this address joins the cluster,
the pool is swept, and a caller asks for the node: it is connected twice. -/
theorem connected_twice_after_join :
    exists p, run { table := default, fallback := .atAddress "h" 1 }
        [.request (.address "d" 2), .linked 0, .apply joinedTable,
          .sweep joinedTable.table,
          .request (.node "n2"), .linked 1] = some p ∧
      p.Quiet ∧ p.table = joinedTable ∧ p.table.table.contains "n2" = true ∧
        p.entries.length = 2 ∧
      p.ConnectedTwice "n2" := by
  obtain ⟨p, hrun, htable, hentries, hcalls, hcleanups, htwice⟩ : exists p,
      run { table := default, fallback := .atAddress "h" 1 }
          [.request (.address "d" 2), .linked 0, .apply joinedTable,
          .sweep joinedTable.table,
            .request (.node "n2"), .linked 1] = some p ∧
        p.table = joinedTable ∧ p.entries.length = 2 ∧
        p.calls = [⟨.address "d" 2, .finished (.ok 0)⟩,
          ⟨.node "n2", .finished (.ok 1)⟩] ∧
        p.cleanups = [⟨[], none, 0⟩] ∧ p.ConnectedTwice "n2" :=
    ⟨_, rfl, rfl, rfl, rfl, rfl, 0, 1, 0, 1, _, _, nofun, rfl, rfl, rfl, rfl,
      ⟨_, rfl⟩, _, rfl⟩
  have hquiet : p.Quiet := by
    apply quiet_of_mem <;> simp [hcalls, hcleanups]
  refine ⟨p, hrun, hquiet, htable, ?_, hentries, htwice⟩
  rw [htable]
  decide

end Pool
end SlotCluster
