import SlotCluster.Rehearsal.Stage

/-!
# Rehearsing discovery

Queries of a round take turns in the order of their candidates, and each goes on
until it has to wait.
-/

namespace SlotCluster
namespace Rehearsal

open Discovery

/-- A round on the stage. -/
structure Asking where
  /-- The number that tells the round from others. -/
  number : Nat
  round : Round
  /-- When its queries time out. -/
  deadline : Option Nat

namespace Stage

def noteClose (s : Stage) (before after : Query) : Stage :=
  match before.link, after.link with
  | some a, some b =>
      if a.isOpen && !b.isOpen && a.closings < b.closings then
        s.note (.close a.endpoint.addr)
      else
        s
  | _, _ => s

def queryEvent (s : Stage) (waiter : Waiter) (q : Query) :
    Stage × Option Query.Event :=
  let address := q.endpoint.addr
  let whenDue (s : Stage) (event : Stage -> Wait -> Query.Event) :
      Stage × Option Query.Event :=
      match s.wait? waiter with
    | some wait =>
        if s.hasCome wait.due then
          (s.forget waiter, some (event s wait))
        else
          (s, none)
    | none => (s, none)
  match q.phase with
  | .viewing =>
      let s := if (s.wait? waiter).isSome then s else s.askView waiter address
      whenDue s (fun s _ => .viewed (s.viewOf address))
  | .connecting =>
      let s :=
        if (s.wait? waiter).isSome then
          s
        else
          s.askConnection waiter address none
      whenDue s (fun s _ =>
        match s.accepts address with
        | .ok () => .linked
        | .error e => .notLinked e)
  | .authenticating =>
      match q.link with
      | none => (s, none)
      | some link =>
          match s.handshake link with
          | (s, .ok ()) => (s, some .accepted)
          | (s, .error e) => (s, some (.refused e))
  | .listing =>
      match q.link with
      | none => (s, none)
      | some link =>
          match s.wait? waiter with
          | none =>
              let (s, breaks) := s.send waiter link listingCommand none
              if breaks then (s, some .broke)
              else whenDue s (fun _ wait =>
                match wait.work with
                | .reply result => .answered result
                | _ => .timedOut)
          | some _ =>
              whenDue s (fun _ wait =>
                match wait.work with
                | .reply result => .answered result
                | _ => .timedOut)
  | .closing _ => (s, some .closed)
  | .finished _ => (s, none)

def runQuery (waiter : Waiter) (deadline : Option Nat) :
    Nat -> Stage -> Query -> Stage × Query
  | 0, s, q => (s, q)
  | fuel + 1, s, q =>
      let (s, event) := s.queryEvent waiter q
      let event :=
        match event with
        | some event => some event
        | none =>
            if s.hasCome deadline && q.result?.isNone then
              some .timedOut
            else
              none
      match event.bind q.step with
      | some next =>
          let s := if next.result?.isSome then s.forget waiter else s
          runQuery waiter deadline fuel (s.move.noteClose q next) next
      | none => (s, q)

def querySteps : Nat := 8

def runQueries (s : Stage) (number : Nat) (deadline : Option Nat)
    (position : Nat) : List Query -> Stage × List Query
  | [] => (s, [])
  | q :: rest =>
      let (s, q) := s.runQuery (.query number position) deadline querySteps q
      let (s, rest) := runQueries s number deadline (position + 1) rest
      (s, q :: rest)

def ask (s : Stage) (number : Nat) (source : Source) (endpoints : List Endpoint)
    (limit : Option Duration) : Asking :=
  ⟨number, Round.start source endpoints, limit.map (fun d => s.now + d.ticks)⟩

def runRound (s : Stage) (a : Asking) : Stage × Asking :=
  let (s, queries) := s.runQueries a.number a.deadline 0 a.round.queries
  (s, { a with round := ⟨queries⟩ })

/-- Move the clock to the next moment at which something may happen. -/
def advance (s : Stage) (others : List Nat) : Option Stage :=
  ((s.moments ++ others.filter (fun t => s.now < t)).min?).map
    (fun now => { s.move with now })

def patience : Nat := 1000000

def playRound : Nat -> Stage -> Asking -> Stage × Asking
  | 0, s, a => (s, a)
  | fuel + 1, s, a =>
      let (s, a) := s.runRound a
      if a.round.isFinished then (s, a)
      else
        match s.advance a.deadline.toList with
        | some s => playRound fuel s a
        | none => (s, a)

end Stage
end Rehearsal
end SlotCluster
