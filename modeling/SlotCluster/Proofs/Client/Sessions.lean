import SlotCluster.Proofs.Client.Handover
import SlotCluster.Proofs.Client.Runs
import SlotCluster.Proofs.Pool.Endings

/-!
# Sessions of a client and their pools

Whatever a client does to a session, the pool of the session goes through events
of a pool.  It hears of no table that the client has not handed to the session,
and once the session is closed, its pool has come to its end.  So what is known
about runs of pools holds for the pools of all sessions.
-/

namespace SlotCluster

namespace Pool

variable {p q : Pool} {events : List Event} {u : Shared}

theorem table_of_run (h : p.run events = some q)
    (honly : forall {v : Shared}, .apply v ∈ events -> v = u)
    (htold : .apply u ∈ events ∨ p.table = u) : q.table = u := by
  induction events generalizing p with
  | nil =>
      cases h
      rcases htold with hmem | htable
      · cases hmem
      · exact htable
  | cons event rest ih =>
      rcases run_cons.mp h with ⟨r, hr, hrest⟩
      apply ih hrest (fun hv => honly (List.mem_cons_of_mem _ hv))
      have htable := table_of_step hr
      cases event with
      | apply v =>
          cases honly List.mem_cons_self
          exact Or.inr htable
      | _ =>
          rcases htold with hmem | hu
          · rcases List.mem_cons.mp hmem with hhead | htail
            · cases hhead
            · exact Or.inl htail
          · exact Or.inr (htable.trans hu)

theorem closed_of_drain {table : Shared} {fallback : Endpoint}
    (h : run { table, fallback } events = some p) (hdrain : .drain ∈ events) :
    p.isClosed = true := by
  rcases List.append_of_mem hdrain with ⟨before, after, rfl⟩
  rcases run_split.mp h with ⟨m, drained, hm, hstep, hrest⟩
  cases hstep
  have hsound : Sound m := (Sound.start table fallback).run hm
  have hdrained : m.drain.isClosed = true := (Draining.start hsound).closed
  exact closed_of_run (hsound.kind Kind.drain) hdrained hrest

end Pool

/-!
## One session

A session is rooted if it has grown from a new one.  The pool of a closed
session would refuse just as the session does.
-/

namespace Session

variable {s t r : Session} {heard : Shared -> Prop}

/-- The pool of a session has gone through events, in which it has heard of
certain tables only.  If the session has been closed, the end of the pool is
among them. -/
structure Grown (heard : Shared -> Prop) (s t : Session) : Prop where
  pool : exists events, s.pool.run events = some t.pool ∧
    (forall {u : Shared}, .apply u ∈ events -> heard u) ∧
    (s.isClosed = false -> t.isClosed = true -> .drain ∈ events)
  closed : s.isClosed = true -> t.isClosed = true

namespace Grown

theorem of_same (hpool : t.pool = s.pool) (hclosed : t.isClosed = s.isClosed) :
    Grown heard s t where
  pool := by
    refine ⟨[], by rw [hpool]; rfl, nofun, fun hopen hshut => ?_⟩
    rw [hclosed, hopen] at hshut
    cases hshut
  closed h := hclosed.trans h

theorem refl (s : Session) : Grown heard s s :=
  of_same rfl rfl

theorem trans (hst : Grown heard s t) (htr : Grown heard t r) :
    Grown heard s r where
  pool := by
    rcases hst.pool with ⟨first, hfirst, hheard, hdrain⟩
    rcases htr.pool with ⟨second, hsecond, hheard', hdrain'⟩
    refine ⟨first ++ second, ?_, ?_, ?_⟩
    · exact run_append_iff.mpr ⟨t.pool, hfirst, hsecond⟩
    · intro u hu
      rcases List.mem_append.mp hu with hu | hu
      · exact hheard hu
      · exact hheard' hu
    -- The session has been closed in the first part or in the second.
    · intro hopen hshut
      cases ht : t.isClosed with
      | true => exact List.mem_append_left _ (hdrain hopen ht)
      | false => exact List.mem_append_right _ (hdrain' ht hshut)
  closed h := htr.closed (hst.closed h)

theorem mono {more : Shared -> Prop} (h : Grown heard s t)
    (hmore : forall {u}, heard u -> more u) : Grown more s t where
  pool := by
    rcases h.pool with ⟨events, hrun, hheard, hdrain⟩
    exact ⟨events, hrun, fun hu => hmore (hheard hu), hdrain⟩
  closed := h.closed

theorem of_event (event : Pool.Event) (hstep : s.pool.step event = some t.pool)
    (hclosed : t.isClosed = s.isClosed)
    (hheard : forall {u : Shared}, event.table? = some u -> heard u) :
    Grown heard s t where
  pool := by
    refine ⟨[event], run_cons.mpr ⟨t.pool, hstep, rfl⟩, ?_, ?_⟩
    · intro u hu
      rw [List.mem_singleton] at hu
      subst hu
      exact hheard rfl
    · intro hopen hshut
      rw [hclosed, hopen] at hshut
      cases hshut
  closed h := hclosed.trans h

theorem close (s : Session) : Grown heard s s.close := by
  unfold Session.close
  split
  · exact refl s
  · refine ⟨⟨[.drain], rfl, ?_, fun _ _ => List.mem_singleton_self _⟩,
      fun _ => rfl⟩
    intro u hu
    cases List.mem_singleton.mp hu

end Grown

def Rooted (s : Session) : Prop :=
  exists table fallback timeout,
    Grown (fun _ => True) (Session.start table fallback timeout) s

namespace Rooted

theorem start (table : Shared) (fallback : Endpoint) (timeout : Duration) :
    Rooted (Session.start table fallback timeout) :=
  ⟨table, fallback, timeout, Grown.refl _⟩

theorem grown (hs : Rooted s) (h : Grown heard s t) : Rooted t := by
  rcases hs with ⟨table, fallback, timeout, hgrown⟩
  exact ⟨table, fallback, timeout, hgrown.trans (h.mono (fun _ => trivial))⟩

theorem run (hs : Rooted s) :
    exists table fallback events,
      Pool.run { table, fallback } events = some s.pool ∧
      (s.isClosed = true -> .drain ∈ events) := by
  rcases hs with ⟨table, fallback, timeout, hgrown⟩
  rcases hgrown.pool with ⟨events, hrun, _, hdrain⟩
  exact ⟨table, fallback, events, hrun, hdrain rfl⟩

theorem sealed (hs : Rooted s) (hclosed : s.isClosed = true) :
    s.pool.isClosed = true := by
  rcases hs.run with ⟨table, fallback, events, hrun, hdrain⟩
  exact Pool.closed_of_drain hrun (hdrain hclosed)

theorem ended (hs : Rooted s) (hclosed : s.isClosed = true)
    (hquiet : s.pool.Quiet) : s.pool.Ended := by
  rcases hs.run with ⟨table, fallback, events, hrun, hdrain⟩
  exact Pool.ended_of_run hrun (hdrain hclosed) hquiet

theorem addCall_eq (hs : Rooted s) (hclosed : s.isClosed = true)
    (target : Target) :
    s.pool.addCall target (.finished (.error .shutdown)) =
      s.pool.request target := by
  rw [Pool.request, if_pos (hs.sealed hclosed)]

end Rooted

end Session

namespace Client

/-- What happens to a session is nothing to its pool, or one event of the pool
that brings it the same table and is no news for a cleanup. -/
theorem pool_of_stepSession {s t : Session} {event : SessionEvent}
    (hs : s.Rooted) (h : stepSession s event = some t) :
    t.isClosed = s.isClosed ∧
      (t.pool = s.pool ∨
        exists e, s.pool.step e = some t.pool ∧ e.table? = event.table? ∧
          e.cleanup? = none) := by
  rcases poolEffect_of_stepSession h with ⟨hclosed, heffect⟩
  refine ⟨hclosed, ?_⟩
  rw [event.table?_eq]
  generalize t.pool = pool at heffect
  cases heffect with
  | kept _ => exact Or.inl rfl
  | refused own target shut =>
      rw [own, hs.addCall_eq shut target]
      exact Or.inr ⟨.request target, rfl, rfl, rfl⟩
  | requested own target =>
      rw [own]
      exact Or.inr ⟨.request target, rfl, rfl, rfl⟩
  | @passed e pool same stepped =>
      have hcleanup : e.cleanup? = none := by
        cases event <;> cases same <;> rfl
      rw [same]
      exact Or.inr ⟨e, stepped, rfl, hcleanup⟩

theorem grown_of_stepSession {s t : Session} {event : SessionEvent}
    (hs : s.Rooted) (h : stepSession s event = some t) :
    s.Grown (fun u => event.table? = some u) t := by
  rcases pool_of_stepSession hs h with ⟨hclosed, hsame | ⟨e, hstep, htable, _⟩⟩
  · exact Session.Grown.of_same hsame hclosed
  · exact Session.Grown.of_event e hstep hclosed (fun hu => htable ▸ hu)

/-! ## All sessions of a client -/

variable {c q r : Client} {heard : Nat -> Shared -> Prop} {id : Nat}

structure Carried (heard : Nat -> Shared -> Prop) (c q : Client) : Prop where
  length : q.sessions.length = c.sessions.length
  grown : forall {id : Nat} {s : Session}, c.session? id = some s ->
    exists t, q.session? id = some t ∧ s.Grown (heard id) t

theorem mem_of_session? {s : Session} (hs : c.session? id = some s) :
    s ∈ c.sessions := by
  cases id with
  | zero => cases hs
  | succ n => exact List.mem_of_getElem? hs

theorem session?_isSome_iff :
    (c.session? id).isSome <-> 0 < id ∧ id ≤ c.sessions.length := by
  cases id with
  | zero => simp [session?]
  | succ n =>
      show (c.sessions[n]?).isSome <-> _
      rw [isSome_getElem?]
      omega

namespace Carried

theorem of_sessions (h : q.sessions = c.sessions) : Carried heard c q where
  length := congrArg List.length h
  grown := by
    intro id s hs
    refine ⟨s, ?_, Session.Grown.refl s⟩
    cases id with
    | zero => cases hs
    | succ n =>
        show q.sessions[n]? = some s
        rw [h]
        exact hs

theorem trans (hq : Carried heard c q) (hr : Carried heard q r) :
    Carried heard c r where
  length := hr.length.trans hq.length
  grown := by
    intro id s hs
    rcases hq.grown hs with ⟨t, ht, hst⟩
    rcases hr.grown ht with ⟨u, hu, htu⟩
    exact ⟨u, hu, hst.trans htu⟩

theorem back (h : Carried heard c q) {t : Session}
    (ht : q.session? id = some t) :
    exists s, c.session? id = some s ∧ s.Grown (heard id) t := by
  have hthere : (c.session? id).isSome := by
    rw [session?_isSome_iff, ← h.length, ← session?_isSome_iff, ht]
    rfl
  rcases Option.isSome_iff_exists.mp hthere with ⟨s, hs⟩
  rcases h.grown hs with ⟨t', ht', hst⟩
  rw [ht] at ht'
  cases ht'
  exact ⟨s, hs, hst⟩

theorem modify {f : Session -> Session}
    (hf : forall s, c.session? id = some s -> s.Grown (heard id) (f s)) :
    Carried heard c (c.modifySession id f) where
  length := by
    cases id with
    | zero => rfl
    | succ n => exact List.length_modify ..
  grown := by
    intro other s hs
    rw [session?_modifySession, hs]
    by_cases h : id = other
    · subst h
      exact ⟨f s, if_pos rfl, hf s hs⟩
    · exact ⟨s, if_neg h, Session.Grown.refl s⟩

theorem foldl {f : Session -> Session} {ids : List Nat}
    (hf : forall {id : Nat}, id ∈ ids ->
      forall s : Session, s.Grown (heard id) (f s)) :
    Carried heard c (ids.foldl (fun c id => c.modifySession id f) c) := by
  induction ids generalizing c with
  | nil => exact of_sessions rfl
  | cons id rest ih =>
      rw [List.foldl_cons]
      have hone : Carried heard c (c.modifySession id f) :=
        modify (fun s _ => hf List.mem_cons_self s)
      exact hone.trans (ih (fun hid => hf (List.mem_cons_of_mem _ hid)))

end Carried
end Client
end SlotCluster
