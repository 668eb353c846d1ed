import SlotCluster.Proofs.Pool.Tables

/-!
# The credential of a pool's connections

A call takes the endpoint for its connection from the table, or it adds the
settings of the fallback to an address that the table does not know.  When both
carry one password, every call sends that password first, and no link becomes a
connection before its node has accepted it.
-/

namespace SlotCluster

def Table.Carries (t : Table) (password : String) : Prop :=
  forall n, n ∈ t.nodes -> n.endpoint.credential = some password

theorem Target.credential_of_resolve {target key : Target} {table : Table}
    {fallback endpoint : Endpoint} {password : String}
    (htable : table.Carries password)
    (hfallback : fallback.credential = some password)
    (h : target.resolve table fallback = .ok (key, endpoint)) :
    endpoint.credential = some password := by
  cases target with
  | node id =>
      simp only [Target.resolve] at h
      split at h
      · rename_i n hnode
        cases h
        exact htable n (List.mem_of_find?_eq_some hnode)
      · cases h
  | address host port =>
      simp only [Target.resolve] at h
      split at h
      · rename_i n hnode
        cases h
        exact htable n (List.mem_of_find?_eq_some hnode)
      · cases h
        exact hfallback

namespace Pool

variable {p q : Pool} {event : Event} {password : String}
  {sent accepted : Nat -> Prop}

/-- A call in this phase opens its connection with the password, and if it waits
for the answer to a credential, that has been sent on its link. -/
structure Phase.Trusted (password : String) (sent : Nat -> Prop)
    (phase : Phase) : Prop where
  ticket : forall {t : Ticket}, phase.ticket? = some t ->
    t.endpoint.credential = some password
  handshake : forall {l : Nat}, phase.handshake? = some l -> sent l

theorem Phase.Trusted.of_none {phase : Phase} (h : phase.ticket? = none) :
    phase.Trusted password sent := by
  cases phase with
  | discarding n error => exact ⟨nofun, nofun⟩
  | finished result => exact ⟨nofun, nofun⟩
  | _ => cases h

theorem Phase.Trusted.of_calm {phase : Phase} {t : Ticket}
    (ht : t.endpoint.credential = some password)
    (hticket : phase.ticket? = some t) (hcalm : phase.handshake? = none) :
    phase.Trusted password sent := by
  constructor
  · intro u hu
    rw [hticket] at hu
    cases hu
    exact ht
  · intro l hl
    rw [hcalm] at hl
    cases hl

/-- Whatever the pool connects to is reached with the password.  On the links in
`sent` it has gone out, and on those in `accepted` the node has accepted it. -/
structure Entrusted (password : String) (sent accepted : Nat -> Prop)
    (p : Pool) : Prop where
  table : p.table.table.Carries password
  fallback : p.fallback.credential = some password
  phases : forall {i : Nat} {phase : Phase}, p.phase? i = some phase ->
    phase.Trusted password sent
  tables : forall {h : Handle}, h ∈ p.handles -> h.table.table.Carries password
  links : forall {h : Handle}, h ∈ p.handles -> accepted h.link

namespace Entrusted

theorem start {table : Shared} {fallback : Endpoint}
    (htable : table.table.Carries password)
    (hfallback : fallback.credential = some password) :
    Entrusted password sent accepted { table, fallback } where
  table := htable
  fallback := hfallback
  phases := nofun
  tables := nofun
  links := nofun

theorem mono {sent' accepted' : Nat -> Prop}
    (hp : Entrusted password sent accepted p)
    (hsent : forall {l : Nat}, sent l -> sent' l)
    (haccepted : forall {l : Nat}, accepted l -> accepted' l) :
    Entrusted password sent' accepted' p where
  table := hp.table
  fallback := hp.fallback
  phases hi :=
    ⟨(hp.phases hi).ticket, fun hl => hsent ((hp.phases hi).handshake hl)⟩
  tables := hp.tables
  links hh := haccepted (hp.links hh)

theorem keep (hp : Entrusted password sent accepted p)
    (htable : q.table = p.table) (hfallback : q.fallback = p.fallback)
    (hcalls : q.calls = p.calls) (hhandles : q.handles = p.handles) :
    Entrusted password sent accepted q where
  table := htable ▸ hp.table
  fallback := hfallback ▸ hp.fallback
  phases := by
    intro i phase hi
    unfold phase? at hi
    rw [hcalls] at hi
    exact hp.phases hi
  tables hh := hp.tables (hhandles ▸ hh)
  links hh := hp.links (hhandles ▸ hh)

theorem ticket (hp : Entrusted password sent accepted p) {i : Nat}
    {phase : Phase} {t : Ticket} (hi : p.phase? i = some phase)
    (ht : phase.ticket? = some t) : t.endpoint.credential = some password :=
  (hp.phases hi).ticket ht

theorem setPhase (hp : Entrusted password sent accepted p) (i : Nat)
    {phase : Phase} (hphase : phase.Trusted password sent) :
    Entrusted password sent accepted (p.setPhase i phase) where
  table := hp.table
  fallback := hp.fallback
  phases := by
    intro j new hj
    rw [phase?_setPhase] at hj
    split at hj
    · rcases Option.map_eq_some_iff.mp hj with ⟨_, _, rfl⟩
      exact hphase
    · exact hp.phases hj
  tables := hp.tables
  links := hp.links

theorem addCall (hp : Entrusted password sent accepted p) (target : Target)
    {phase : Phase} (hphase : phase.Trusted password sent) :
    Entrusted password sent accepted (p.addCall target phase) where
  table := hp.table
  fallback := hp.fallback
  phases := by
    intro j new hj
    rw [phase?_addCall] at hj
    split at hj
    · cases hj
      exact hphase
    · exact hp.phases hj
  tables := hp.tables
  links := hp.links

theorem closeHandle (hp : Entrusted password sent accepted p) (n : Nat) :
    Entrusted password sent accepted (p.closeHandle n) := by
  rcases closeHandle_eq p n with ⟨links, heq, _⟩
  rw [heq]
  exact hp.keep rfl rfl rfl rfl

/-!
## Calls

With a password to send, an open link is no connection yet, and a link that
becomes a connection has been accepted.
-/

theorem conclude (hp : Entrusted password sent accepted p) (i : Nat)
    (t : Ticket) (h : Nat) :
    Entrusted password sent accepted (p.conclude i t h) := by
  have hdiscard {r : Pool} (hr : Entrusted password sent accepted r)
      (error : ClusterError) :
      Entrusted password sent accepted (r.discard i h error) :=
    (hr.closeHandle h).setPhase i (Phase.Trusted.of_none rfl)
  have hremoved (key : Target) :
      Entrusted password sent accepted (p.removeEntry key) :=
    hp.keep rfl rfl rfl rfl
  unfold Pool.conclude
  split
  · exact hdiscard hp _
  · split
    · split
      · exact hdiscard (hremoved _) _
      · exact hp.setPhase i (Phase.Trusted.of_none rfl)
    · exact hp.setPhase i (Phase.Trusted.of_none rfl)

theorem enter (hp : Entrusted password sent accepted p) (i : Nat) {t : Ticket}
    (ht : t.endpoint.credential = some password) :
    Entrusted password sent accepted (p.enter i t) := by
  have hmodified (f : Cell -> Cell) :
      Entrusted password sent accepted (p.modifyCell t.cell f) :=
    hp.keep rfl rfl rfl rfl
  unfold Pool.enter
  split
  · exact hp.conclude i t _
  · exact (hmodified _).setPhase i (Phase.Trusted.of_calm ht rfl rfl)
  · exact hmodified _

theorem claimCell (hp : Entrusted password sent accepted p) (key : Target) :
    Entrusted password sent accepted (p.claimCell key).1 := by
  unfold Pool.claimCell
  split
  · exact hp.keep rfl rfl rfl rfl
  · split
    · split
      · exact hp
      · exact hp.keep rfl rfl rfl rfl
    · exact hp

theorem request (hp : Entrusted password sent accepted p) (target : Target) :
    Entrusted password sent accepted (p.request target) := by
  unfold Pool.request
  split
  · exact hp.addCall target (Phase.Trusted.of_none rfl)
  · split
    · exact hp.addCall target (Phase.Trusted.of_none rfl)
    · rename_i key endpoint hresolve
      have hendpoint :=
        Target.credential_of_resolve hp.table hp.fallback hresolve
      have hqueued :
          Phase.Trusted password sent
            (.queued ⟨key, endpoint, (p.claimCell key).2⟩) :=
        Phase.Trusted.of_calm hendpoint rfl rfl
      exact ((hp.claimCell key).addCall target hqueued).enter _ hendpoint

theorem resume (hp : Entrusted password sent accepted p) {i : Nat} {t : Ticket}
    (ht : t.endpoint.credential = some password) (h : p.resume i t = some q) :
    Entrusted password sent accepted q := by
  unfold Pool.resume at h
  split at h
  · cases h
    exact hp.conclude i t _
  · split at h
    · cases h
      exact hp.setPhase i (Phase.Trusted.of_calm ht rfl rfl)
    · cases h
  · cases h

theorem fail (hp : Entrusted password sent accepted p) (i : Nat) (t : Ticket)
    (error : ClusterError) :
    Entrusted password sent accepted (p.fail i t error) := by
  unfold Pool.fail
  dsimp only
  split
  · refine setPhase (hp.keep ?_ ?_ ?_ ?_) i (Phase.Trusted.of_none rfl) <;> rfl
  · refine setPhase (hp.keep ?_ ?_ ?_ ?_) i (Phase.Trusted.of_none rfl) <;> rfl

theorem establish (hp : Entrusted password sent accepted p) (i : Nat)
    (t : Ticket) {l : Nat} (hl : accepted l) :
    Entrusted password sent accepted (p.establish i t l) := by
  apply conclude
  constructor
  · exact hp.table
  · exact hp.fallback
  · exact hp.phases
  · intro h hh
    rcases List.mem_append.mp hh with hold | hnew
    · exact hp.tables hold
    · rw [List.mem_singleton.mp hnew]
      exact hp.table
  · intro h hh
    rcases List.mem_append.mp hh with hold | hnew
    · exact hp.links hold
    · rw [List.mem_singleton.mp hnew]
      exact hl

theorem linked_eq {t : Ticket} (p : Pool) (i : Nat)
    (ht : t.endpoint.credential = some password) :
    p.linked i t =
      Pool.setPhase { p with links := p.links ++ [{ endpoint := t.endpoint }] }
        i (.authenticating t p.links.length) := by
  unfold Pool.linked
  rw [ht]

theorem linked (hp : Entrusted password sent accepted p) {i : Nat} {t : Ticket}
    (hi : p.phase? i = some (.connecting t))
    (hsent : forall {l : Nat},
      (p.linked i t).phase? i = some (.authenticating t l) -> sent l) :
    Entrusted password sent accepted (p.linked i t) := by
  have ht : t.endpoint.credential = some password := hp.ticket hi rfl
  rw [linked_eq p i ht] at hsent ⊢
  have hdialed :
      Entrusted password sent accepted
        { p with links := p.links ++ [{ endpoint := t.endpoint }] } :=
    hp.keep rfl rfl rfl rfl
  apply hdialed.setPhase i
  constructor
  · intro u hu
    cases hu
    exact ht
  · intro l hl
    cases hl
    exact hsent (phase?_setPhase_self _ hi)

/-! ## Tables and cleanups -/

theorem apply (hp : Entrusted password sent accepted p) {table : Shared}
    (htable : table.table.Carries password) :
    Entrusted password sent accepted (p.apply table) where
  table := htable
  fallback := hp.fallback
  phases := hp.phases
  tables := by
    intro h hh
    rcases List.mem_mapIdx.mp hh with ⟨n, hn, rfl⟩
    dsimp only
    split
    · exact htable
    · exact hp.tables (List.getElem_mem hn)
  links := by
    intro h hh
    rcases List.mem_mapIdx.mp hh with ⟨n, hn, rfl⟩
    have hold : accepted p.handles[n].link := hp.links (List.getElem_mem hn)
    dsimp only
    split
    · exact hold
    · exact hold

theorem runChores (hp : Entrusted password sent accepted p)
    (chores : List Chore) :
    Entrusted password sent accepted (p.runChores chores).1 := by
  have htidied := (tidied_runChores p chores).1
  rw [htidied.frame]
  exact hp.keep rfl rfl rfl rfl

theorem sweep (hp : Entrusted password sent accepted p) (table : Table) :
    Entrusted password sent accepted (p.sweep table) := by
  have hswept :
      Entrusted password sent accepted
        { p with entries := p.entries.filter (fun e => !e.1.isStale table) } :=
    hp.keep rfl rfl rfl rfl
  exact (hswept.runChores _).keep rfl rfl rfl rfl

theorem drain (hp : Entrusted password sent accepted p) :
    Entrusted password sent accepted p.drain := by
  have hclosed : Entrusted password sent accepted { p with isClosed := true } :=
    hp.keep rfl rfl rfl rfl
  exact (hclosed.runChores _).keep rfl rfl rfl rfl

/-- A step keeps the invariant, if a table that it brings carries the password,
and what it adds to the traffic of the links is noted. -/
theorem step (hp : Entrusted password sent accepted p)
    (h : p.step event = some q)
    (htable : forall {u : Shared}, event.table? = some u ->
      u.table.Carries password)
    (hsent : forall {i l : Nat} {t : Ticket}, event = .linked i ->
      q.phase? i = some (.authenticating t l) -> sent l)
    (haccepted : forall {i l : Nat} {t : Ticket}, event = .accepted i ->
      p.phase? i = some (.authenticating t l) -> accepted l) :
    Entrusted password sent accepted q := by
  cases taken_of_step h with
  | request target => exact hp.request target
  | resume phase resumed => exact hp.resume (hp.ticket phase rfl) resumed
  | linked phase => exact hp.linked phase (hsent rfl)
  | notLinked phase => exact hp.fail _ _ _
  | @accepted i l t phase =>
      have hlinks :
          Entrusted password sent accepted
            { p with
              links :=
                p.links.modify l
                  (fun link => { link with isAuthenticated := true }) } :=
        hp.keep rfl rfl rfl rfl
      exact hlinks.establish i t (haccepted rfl phase)
  | @refused i l t error phase =>
      have hclosed : Entrusted password sent accepted (p.closeLink l) :=
        hp.keep rfl rfl rfl rfl
      exact hclosed.setPhase i
        (Phase.Trusted.of_calm (hp.ticket phase rfl) rfl rfl)
  | rejected phase => exact hp.fail _ _ _
  | discarded phase => exact hp.setPhase _ (Phase.Trusted.of_none rfl)
  | apply table => exact hp.apply (htable rfl)
  | sweep table => exact hp.sweep table
  | drain => exact hp.drain
  | cleaned found => exact (hp.runChores _).keep rfl rfl rfl rfl
  | broke l => exact hp.keep rfl rfl rfl rfl
  | closeHandle n => exact hp.closeHandle n
  | reordered perm leads => exact hp.keep rfl rfl rfl rfl

end Entrusted
end Pool
end SlotCluster
