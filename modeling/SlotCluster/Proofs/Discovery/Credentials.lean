import SlotCluster.Proofs.Discovery.Inversion
import SlotCluster.Proofs.Pool.Credentials

/-!
# The credential in discovery

Candidates are endpoints that a round was given, and the canonical view takes
over the credential of the endpoint that has reported it.  So endpoints with one
password lead to a table in which all nodes have that password, whatever the
nodes have said about themselves.
-/

namespace SlotCluster

variable {password : String}

theorem Endpoint.credential_eq_some {e : Endpoint} :
    e.credential = some password <->
      e.password = some password ∧ password ≠ "" := by
  unfold credential
  rw [Option.filter_eq_some_iff, decide_eq_true_eq]

namespace Table

theorem Carries.withCredential (t : Table) (hpassword : password ≠ "") :
    (t.withCredential password).Carries password := by
  intro n hn
  rcases List.mem_map.mp hn with ⟨old, _, rfl⟩
  exact Endpoint.credential_eq_some.mpr ⟨rfl, hpassword⟩

theorem Carries.orderedEndpoints {t : Table} (ht : t.Carries password)
    {e : Endpoint} (he : e ∈ t.orderedEndpoints) :
    e.credential = some password := by
  rcases List.mem_map.mp (List.mem_mergeSort.mp he) with ⟨n, hn, rfl⟩
  exact ht n hn

end Table

namespace Discovery

/-! ## Candidates and views -/

theorem dropRepeated_sublist (l : List Endpoint) :
    (dropRepeated l).Sublist l := by
  induction l using dropRepeated.induct with
  | case1 a b rest hsame ih =>
      rw [dropRepeated, if_pos hsame]
      exact ih.trans (List.Sublist.cons_cons a (List.sublist_cons_self b rest))
  | case2 a b rest hother ih =>
      rw [dropRepeated, if_neg hother]
      exact List.Sublist.cons_cons a ih
  | case3 short hshort =>
      rw [dropRepeated]
      exact hshort

theorem mem_of_mem_candidates {endpoints : List Endpoint} {e : Endpoint}
    (he : e ∈ candidates endpoints) : e ∈ endpoints :=
  List.mem_mergeSort.mp ((dropRepeated_sublist _).subset he)

/-- Whatever passwords the nodes of the first view have, they give way to that
of its reporter. -/
theorem Views.carries_of_canonical? {views : Views} {table : Table}
    (hviews : forall v, v ∈ views -> v.1.credential = some password)
    (h : views.canonical? = some table) : table.Carries password := by
  cases views with
  | nil => cases h
  | cons first rest =>
      have hfirst : first.1.credential = some password :=
        hviews first List.mem_cons_self
      simp only [canonical?, hfirst, Option.some.injEq] at h
      rw [← h]
      exact Table.Carries.withCredential
        _ (Endpoint.credential_eq_some.mp hfirst).2

/-! ## Queries -/

namespace Query

variable {q r : Query} {event : Event}

theorem endpoint_of_step (h : q.step event = some r) :
    r.endpoint = q.endpoint := by
  cases taken_of_step h <;> rfl

theorem phase_of_linked (hq : q.endpoint.credential = some password)
    (h : q.step .linked = some r) : r.phase = .authenticating := by
  cases taken_of_step h with
  | greeted _ _ => rfl
  | asked _ credential =>
      rw [hq] at credential
      cases credential

theorem phase_of_accepted (h : q.step .accepted = some r) :
    q.phase = .authenticating ∧ r.phase = .listing := by
  cases taken_of_step h with
  | accepted phase => exact ⟨phase, rfl⟩

theorem linked_of_authenticating (h : q.step event = some r)
    (hr : r.phase = .authenticating) : event = .linked := by
  cases taken_of_step h with
  | greeted _ _ => rfl
  | broke phase =>
      rw [phase] at hr
      cases hr
  | _ => cases hr

theorem endpoint_of_view? {v : Endpoint × Table} (h : q.view? = some v) :
    v.1 = q.endpoint := by
  unfold view? at h
  split at h
  · split at h
    · cases h
      rfl
    · cases h
  · cases h

end Query

/-! ## Rounds -/

namespace Round

variable {r s : Round} {sent : Nat -> Prop}

theorem query_of_step {position : Nat} {event : Query.Event}
    (h : r.step position event = some s) :
    exists q new, r.queries[position]? = some q ∧ q.step event = some new ∧
      s.queries[position]? = some new ∧
      forall {other : Nat}, position ≠ other ->
        s.queries[other]? = r.queries[other]? := by
  unfold step at h
  split at h
  · rename_i q hq
    rcases Option.map_eq_some_iff.mp h with ⟨new, hnew, rfl⟩
    refine ⟨q, new, hq, hnew, ?_, ?_⟩
    · exact List.getElem?_set_self (List.getElem?_eq_some_iff.mp hq).1
    · intro other hother
      exact List.getElem?_set_ne hother
  · cases h

/-- Every query of the round asks an endpoint that has the password, and those
that wait for the answer to their credential have sent it. -/
structure Entrusted (password : String) (sent : Nat -> Prop)
    (r : Round) : Prop where
  endpoint : forall {q : Query}, q ∈ r.queries ->
    q.endpoint.credential = some password
  handshake : forall {position : Nat} {q : Query},
    r.queries[position]? = some q -> q.phase = .authenticating -> sent position

namespace Entrusted

theorem start (source : Source) {endpoints : List Endpoint}
    (hendpoints : forall e, e ∈ endpoints -> e.credential = some password) :
    Entrusted password sent (.start source endpoints) where
  endpoint := by
    intro q hq
    rcases List.mem_map.mp hq with ⟨e, he, rfl⟩
    have hcandidate := hendpoints e (mem_of_mem_candidates he)
    cases source with
    | direct => exact hcandidate
    | listing => exact hcandidate
  handshake := by
    intro position q hq hphase
    rcases List.mem_map.mp (List.mem_of_getElem? hq) with ⟨e, _, rfl⟩
    cases source with
    | direct => cases hphase
    | listing => cases hphase

theorem mono {sent' : Nat -> Prop} (hr : Entrusted password sent r)
    (hsent : forall {position : Nat}, sent position -> sent' position) :
    Entrusted password sent' r where
  endpoint := hr.endpoint
  handshake hq hphase := hsent (hr.handshake hq hphase)

theorem step (hr : Entrusted password sent r) {position : Nat}
    {event : Query.Event} (h : r.step position event = some s)
    (hsent : forall {q : Query}, event = .linked ->
      s.queries[position]? = some q -> q.phase = .authenticating ->
      sent position) : Entrusted password sent s := by
  rcases query_of_step h with ⟨old, new, hold, hnew, hat, hothers⟩
  have hquery {other : Nat} {q : Query} (hq : s.queries[other]? = some q) :
      other = position ∧ q = new ∨ r.queries[other]? = some q := by
    by_cases hother : position = other
    · subst hother
      rw [hat] at hq
      cases hq
      exact Or.inl ⟨rfl, rfl⟩
    · rw [hothers hother] at hq
      exact Or.inr hq
  constructor
  · intro q hq
    rcases List.mem_iff_getElem?.mp hq with ⟨other, hother⟩
    rcases hquery hother with ⟨_, rfl⟩ | hsame
    · rw [Query.endpoint_of_step hnew]
      exact hr.endpoint (List.mem_of_getElem? hold)
    · exact hr.endpoint (List.mem_of_getElem? hsame)
  · intro other q hq hphase
    rcases hquery hq with ⟨rfl, rfl⟩ | hsame
    · exact hsent (Query.linked_of_authenticating hnew hphase) hat hphase
    · exact hr.handshake hsame hphase

theorem views (hr : Entrusted password sent r) {v : Endpoint × Table}
    (hv : v ∈ r.views) : v.1.credential = some password := by
  rcases List.mem_filterMap.mp hv with ⟨q, hq, hview⟩
  rw [Query.endpoint_of_view? hview]
  exact hr.endpoint hq

end Entrusted
end Round
end Discovery
end SlotCluster
