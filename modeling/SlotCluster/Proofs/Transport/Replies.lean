import SlotCluster.Proofs.Transport.Pairing

/-!
# Replies belong to requests

Replies carry no mark of the request that they belong to, so a reply is the
reply to a request by its place: the first one to the first request that has
gone out completely, and so on.  Everybody who gets a reply gets the one to the
own request, because an exchange that does not bring its reply is the last one
on its connection.
-/

namespace SlotCluster
namespace Transport
namespace Wire

/-- The other side answers each complete request with one reply, in the order of
the requests: a reply comes in after the request that it answers, and answers it
as it likes, by all that it has been asked so far. -/
def Answered (answer : List Bytes -> Resp.Value) (w : Wire)
    (events : List Event) : Prop :=
  forall i value q, events[i]? = some (.arrived (.ok value)) ->
    w.run (events.take i) = some q ->
    (replies (events.take i)).length < q.requests.length ∧
      value = answer (q.requests.take ((replies (events.take i)).length + 1))

/-- Each reply has come in by an event, after those before it. -/
theorem exists_arrived {events : List Event} {k : Nat} {value : Resp.Value}
    (h : (replies events)[k]? = some value) :
    exists i : Nat, events[i]? = some (.arrived (.ok value)) ∧
      (replies (events.take i)).length = k := by
  induction events generalizing k with
  | nil => cases h
  | cons event rest ih =>
      rw [replies, List.flatMap_cons, List.getElem?_append] at h
      by_cases hlt : k < (arrivals event).length
      · rw [if_pos hlt] at h
        cases event with
        | arrived reply =>
            cases reply with
            | ok first =>
                have hzero : k = 0 := Nat.lt_one_iff.mp hlt
                subst hzero
                cases h
                exact ⟨0, rfl, rfl⟩
            | error e => cases hlt
        | _ => cases hlt
      · rw [if_neg hlt] at h
        rcases ih h with ⟨i, hi, hlength⟩
        refine ⟨i + 1, hi, ?_⟩
        have hreplies : replies ((event :: rest).take (i + 1)) =
            arrivals event ++ replies (rest.take i) :=
          rfl
        rw [hreplies, List.length_append, hlength]
        omega

theorem reply_answers {answer : List Bytes -> Resp.Value} {w q : Wire}
    {events : List Event} {asked : List (Option Command)}
    {earlier : List Resp.Value} {k : Nat} {value : Resp.Value}
    (hpaired : Paired asked earlier w) (horderly : Orderly w)
    (hrun : w.run events = some q) (hpeer : Answered answer w events)
    (hk : (replies events)[k]? = some value) :
    value = answer (q.requests.take (k + 1)) := by
  rcases exists_arrived hk with ⟨i, hi, hcount⟩
  have hsplit : w.run (events.take i ++ events.drop i) = some q := by
    rw [List.take_append_drop]
    exact hrun
  rcases run_append_iff.mp hsplit with ⟨r, hr, hrest⟩
  rcases hpeer i value r hi hr with ⟨hlt, hvalue⟩
  rw [hcount] at hlt hvalue
  have hpaired' := (hpaired.run horderly hr).1
  rcases (hpaired'.run (horderly.run hr) hrest).2 with ⟨more, hmore⟩
  rw [hvalue, ← hmore, List.take_append_of_le_length hlt]

/-! ## Connections as their users see them -/

/-- Whoever got a reply got the one to the own request, out of a stream of whole
requests. -/
structure Delivered (answer : List Bytes -> Resp.Value) (events : List Event)
    (w : Wire) : Prop where
  /-- Nobody sends twice. -/
  requested : w.requested.Nodup
  /-- A request is the encoding of the command that its user has come with. -/
  requests : forall {k u : Nat}, w.requested[k]? = some u ->
    exists command, (asked events)[u]? = some (some command) ∧
      w.requests[k]? = some command.toValue.encode
  /-- Complete requests go out one after the other, and then at most a part of
  one more. -/
  stream : exists part, w.stream = w.requests.flatten ++ part ∧
    Torn (asked events) w part
  own : forall {u : Nat} {value : Resp.Value}, w.result? u = some (.ok value) ->
    exists k : Nat,
      w.requested[k]? = some u ∧ (replies events)[k]? = some value ∧
      value = answer (w.requests.take (k + 1))
  failed : forall {u : Nat} {e : ClusterError}, w.result? u = some (.error e) ->
    exists reason, e = .connection w.address reason
  /-- A credential is accepted by the reply to it. -/
  accepted : forall {u : Nat} {result : Except ClusterError Resp.Value},
    w.result? u = some result -> handshakeResult w.address result = .ok () ->
    exists k : Nat,
      w.requested[k]? = some u ∧
      forall text, answer (w.requests.take (k + 1)) ≠ .error text

/-- From the first connection to the second nothing has gone out and nothing
will, and whoever has not had a result before is refused. -/
structure Mute (w q : Wire) : Prop where
  shut : q.isOpen = false
  outbound : q.outbound = w.outbound
  requested : q.requested = w.requested
  idle : forall {u : Nat} {phase : Phase}, q.phase? u = some phase ->
    phase.isExchange = false
  refused : forall {u : Nat} {result : Except ClusterError Resp.Value},
    w.result? u = none -> q.result? u = some result ->
    result = .error w.closedError
  /-- Those who wait are refused when the turn has gone round, for which nothing
  has to come from outside. -/
  drained : exists turns r, turns.all passesTurn = true ∧ q.run turns = some r ∧
    r.holder = none ∧ forall u request, q.phase? u = some (.queued request) ->
    r.result? u = some (.error w.closedError)

theorem mute_of_run {w q : Wire} {events : List Event} (horderly : Orderly w)
    (hsilent : Silent w) (hrun : w.run events = some q) : Mute w q := by
  have hhushed := Hushed.run hsilent hrun
  have hclosed : q.closedError = w.closedError := by
    rw [closedError, hhushed.address]
    rfl
  constructor
  case shut => exact hhushed.silent.shut
  case outbound => exact hhushed.outbound
  case requested => exact hhushed.requested
  case idle => exact hhushed.silent.idle
  case refused =>
    intro u result hbefore hafter
    rcases hhushed.results hafter with hold | hnew
    · rw [hbefore] at hold
      cases hold
    · exact hnew
  case drained =>
    rw [← hclosed]
    exact drain (horderly.run hrun) hhushed.silent

/-- On every connection and for every sequence of events on it, if the other
side answers each complete request with one reply, then everybody who gets a
reply gets the reply to the own request.  Once an exchange has been abandoned
midway or has failed, the connection is closed for good, no further byte goes
out, and everybody who still wants to send a request is refused. -/
theorem paired_of_run {address : String} {answer : List Bytes -> Resp.Value}
    {events : List Event} {w : Wire} (hrun : run { address } events = some w)
    (hpeer : Answered answer { address } events) :
    Delivered answer events w ∧ forall event q, w.step event = some q ->
      Breaks w q -> forall more r, q.run more = some r -> Mute q r := by
  have horderly := Orderly.start address
  have hstart := Paired.start address
  have hpaired : Paired (asked events) (replies events) w :=
    (hstart.run horderly hrun).1
  have hown : forall {u : Nat} {value : Resp.Value},
      w.result? u = some (.ok value) ->
      exists k : Nat,
        w.requested[k]? = some u ∧ (replies events)[k]? = some value ∧
        value = answer (w.requests.take (k + 1)) := by
    intro u value hresult
    rcases hpaired.told (result?_eq_some.mp hresult) with ⟨k, hk, hvalue⟩
    exact ⟨k, hk, hvalue, reply_answers hstart horderly hrun hpeer hvalue⟩
  have hdelivered : Delivered answer events w := by
    constructor
    case requested => exact hpaired.nodup
    case requests =>
      intro k u hk
      rcases hpaired.complete (List.mem_of_getElem? hk) with
        ⟨command, hcommand, hsent⟩
      refine ⟨command, hcommand, ?_⟩
      rw [Wire.requests, List.getElem?_map, hk, Option.map_some, hsent]
    case stream =>
      rcases hpaired.stage with ⟨read, part, _, hstream, hstage⟩
      exact ⟨part, hstream, hpaired.torn hstage⟩
    case own => exact hown
    case failed =>
      intro u e hresult
      exact hpaired.told (result?_eq_some.mp hresult)
    case accepted =>
      intro u result hresult haccepted
      cases result with
      | error e => cases haccepted
      | ok value =>
          rcases hown hresult with ⟨k, hk, _, hvalue⟩
          refine ⟨k, hk, ?_⟩
          intro text hrefused
          rw [← hvalue] at hrefused
          subst hrefused
          cases haccepted
  refine ⟨hdelivered, ?_⟩
  intro event q hstep hbreaks more r hmore
  have horderly' := horderly.run hrun
  exact mute_of_run (horderly'.step hstep)
    (silent_of_breaks horderly' hstep hbreaks) hmore

def pingAndPart : List Event :=
  [.dispatch ⟨"PING", []⟩, .wrote 0 99, .dispatch ⟨"GET", [[0x6B]]⟩,
    .arrived (.ok (.integer 1)), .read 0, .granted 1, .wrote 1 3]

/-- The further command is abandoned midway, and whoever comes later is
refused. -/
theorem paired_of_run_abandoned :
    exists w q r : Wire,
      run { address := "d:2" } pingAndPart = some w ∧
      Answered (fun requests => .integer (Int64.ofNat requests.length))
        { address := "d:2" } pingAndPart ∧
      w.step (.abandon 1) = some q ∧ Breaks w q ∧
        q.run [.dispatch ⟨"PING", []⟩] = some r ∧
      w.result? 0 = some (.ok (.integer 1)) ∧
        r.result? 2 = some (.error r.closedError) ∧
      Delivered (fun requests => .integer (Int64.ofNat requests.length))
        pingAndPart w ∧ Mute q r := by
  have hpeer : Answered (fun requests => .integer (Int64.ofNat requests.length))
      { address := "d:2" } pingAndPart := by
    intro i value q hi hq
    match i with
    | 3 =>
        cases hi
        cases hq
        exact ⟨Nat.one_pos, rfl⟩
    | 0 | 1 | 2 | 4 | 5 | 6 => cases hi
    | _ + 7 => cases hi
  have hrun : run { address := "d:2" } pingAndPart = some _ := rfl
  rcases paired_of_run hrun hpeer with ⟨hdelivered, hmute⟩
  refine ⟨_, _, _, rfl, hpeer, rfl, ⟨1, _, rfl, rfl, Or.inl rfl⟩, rfl, rfl, rfl,
    hdelivered, ?_⟩
  exact hmute (.abandon 1) _ rfl ⟨1, _, rfl, rfl, Or.inl rfl⟩
    [.dispatch ⟨"PING", []⟩] _ rfl

end Wire
end Transport
end SlotCluster
