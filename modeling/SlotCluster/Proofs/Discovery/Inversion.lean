import SlotCluster.Discovery.Round

/-!
# Events that a query takes

An event that a query does not refuse has found it in the right phase.  `Taken`
names that phase and the query after the event.  Nobody refuses the time limit
but a query that has ended.
-/

namespace SlotCluster
namespace Discovery
namespace Query

inductive Taken (q : Query) : Event -> Query -> Prop where
  | viewed (result : Except ClusterError (List Node))
      (phase : q.phase = .viewing) :
      Taken q (.viewed result) { q with phase := .finished result }
  | greeted {password : String} (phase : q.phase = .connecting)
      (credential : q.endpoint.credential = some password) :
      Taken q .linked
        { q with
          phase := .authenticating
          link := some { endpoint := q.endpoint } }
  | asked (phase : q.phase = .connecting)
      (credential : q.endpoint.credential = none) :
      Taken q .linked
        { q with phase := .listing, link := some { endpoint := q.endpoint } }
  | notLinked (error : ClusterError) (phase : q.phase = .connecting) :
      Taken q (.notLinked error) { q with phase := .finished (.error error) }
  | accepted (phase : q.phase = .authenticating) :
      Taken q .accepted
        { q with
          phase := .listing
          link := q.link.map (fun l => { l with isAuthenticated := true }) }
  | refused (error : ClusterError) (phase : q.phase = .authenticating) :
      Taken q (.refused error) (q.close (.error error))
  | answered (answer : Except ClusterError Resp.Value)
      (phase : q.phase = .listing) : Taken q (.answered answer) (q.close answer)
  | broke (phase : q.phase = .listing) :
      Taken q .broke
        { q with link := q.link.map (fun l => { l with isOpen := false }) }
  | closed {answer : Except ClusterError Resp.Value}
      (phase : q.phase = .closing answer) :
      Taken q .closed { q with phase := .finished (nodesOf q.endpoint answer) }
  | timedOut (going : forall result, q.phase ≠ .finished result) :
      Taken q .timedOut { q with phase := .finished (.error .timeout) }

theorem taken_of_linked {q r : Query} (h : q.step .linked = some r) :
    Taken q .linked r := by
  simp only [step] at h
  split at h
  · rename_i hphase
    cases hcredential : q.endpoint.credential with
    | some password =>
        simp only [hcredential, Option.some.injEq] at h
        subst h
        exact Taken.greeted hphase hcredential
    | none =>
        simp only [hcredential, Option.some.injEq] at h
        subst h
        exact Taken.asked hphase hcredential
  · cases h

theorem taken_of_step {q r : Query} {event : Event}
    (h : q.step event = some r) : Taken q event r := by
  cases event with
  | viewed result =>
      simp only [step] at h
      split at h
      · rename_i hphase
        cases h
        exact Taken.viewed result hphase
      · cases h
  | linked => exact taken_of_linked h
  | notLinked error =>
      simp only [step] at h
      split at h
      · rename_i hphase
        cases h
        exact Taken.notLinked error hphase
      · cases h
  | accepted =>
      simp only [step] at h
      split at h
      · rename_i hphase
        cases h
        exact Taken.accepted hphase
      · cases h
  | refused error =>
      simp only [step] at h
      split at h
      · rename_i hphase
        cases h
        exact Taken.refused error hphase
      · cases h
  | answered answer =>
      simp only [step] at h
      split at h
      · rename_i hphase
        cases h
        exact Taken.answered answer hphase
      · cases h
  | broke =>
      simp only [step] at h
      split at h
      · rename_i hphase
        cases h
        exact Taken.broke hphase
      · cases h
  | closed =>
      simp only [step] at h
      split at h
      · rename_i answer hphase
        cases h
        exact Taken.closed hphase
      · cases h
  | timedOut =>
      simp only [step] at h
      split at h
      · cases h
      · rename_i hgoing
        cases h
        exact Taken.timedOut hgoing

end Query
end Discovery
end SlotCluster
