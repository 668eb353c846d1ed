import Mathlib.Data.List.Basic
import SlotCluster.Transport.Exchange

/-!
# Changes of a connection

Every event on a connection is made of one or two small changes.  They are
listed here once, each with what has to hold for it, and every invariant of a
connection is proved for each kind of change.
-/

namespace SlotCluster
namespace Transport

namespace Phase

def isWaiting : Phase -> Bool
  | .queued _ => true
  | .leaving => true
  | _ => false

def isExchange : Phase -> Bool
  | .writing _ => true
  | .reading => true
  | _ => false

def isEnded : Phase -> Bool
  | .finished _ => true
  | .abandoned => true
  | .closed => true
  | _ => false

def entering : Option Command -> Phase
  | some command => .queued command.toValue.encode
  | none => .leaving

theorem isWaiting_entering (entrant : Option Command) :
    (entering entrant).isWaiting = true := by
  cases entrant <;> rfl

theorem isEnded_of_isWaiting {phase : Phase} (h : phase.isWaiting = true) :
    phase.isEnded = false := by
  cases phase with
  | queued _ => rfl
  | leaving => rfl
  | _ => cases h

end Phase

namespace Wire

/-! ## Phases of users -/

@[simp]
theorem phase?_setPhase (w : Wire) (u v : Nat) (phase : Phase) :
    (w.setPhase u phase).phase? v =
      if u = v then (w.phase? v).map (fun _ => phase) else w.phase? v := by
  unfold setPhase phase?
  rw [List.getElem?_set]
  by_cases h : u = v
  · subst h
    rw [if_pos rfl, if_pos rfl]
    by_cases hlt : u < w.users.length
    · simp [hlt]
    · simp [hlt]
  · rw [if_neg h, if_neg h]

theorem phase?_setPhase_self {w : Wire} {u : Nat} {old : Phase} (phase : Phase)
    (h : w.phase? u = some old) :
    (w.setPhase u phase).phase? u = some phase := by
  simp [h]

theorem phase?_setPhase_of_ne (w : Wire) {u v : Nat} (phase : Phase)
    (h : u ≠ v) : (w.setPhase u phase).phase? v = w.phase? v := by
  simp [h]

theorem phase?_lt {w : Wire} {u : Nat} {phase : Phase}
    (h : w.phase? u = some phase) : u < w.users.length :=
  (List.getElem?_eq_some_iff.mp h).1

theorem phase?_concat (w : Wire) (phase : Phase) (v : Nat) :
    phase? { w with users := w.users ++ [phase] } v =
      if v = w.users.length then some phase else w.phase? v := by
  unfold phase?
  by_cases h : v = w.users.length
  · subst h
    simp
  · rw [if_neg h, List.getElem?_append]
    by_cases hlt : v < w.users.length
    · rw [if_pos hlt]
    · rw [if_neg hlt, List.getElem?_eq_none, List.getElem?_eq_none]
      · omega
      · rw [List.length_singleton]
        omega

theorem result?_eq_some {w : Wire} {u : Nat}
    {result : Except ClusterError Resp.Value} :
    w.result? u = some result <-> w.phase? u = some (.finished result) := by
  unfold result?
  cases w.phase? u with
  | none => simp
  | some phase => cases phase <;> simp

/-! ## Changes -/

/-- What happens on a connection within an event, who comes by it, and which
reply does. -/
inductive Move :
    List (Option Command) -> List Resp.Value -> Wire -> Wire -> Prop where
  /-- A user comes and has to wait. -/
  | wait {w : Wire} {owner : Nat} (entrant : Option Command)
      (held : w.holder = some owner) : Move [entrant] [] w { w with
          isOpen := w.isOpen && entrant.isSome
          users := w.users ++ [.entering entrant]
          queue := w.queue ++ [w.users.length] }
  /-- A user comes and has the turn. -/
  | come {w : Wire} (entrant : Option Command) (free : w.holder = none) :
      Move [entrant] [] w
        { w with
          isOpen := w.isOpen && entrant.isSome
          users := w.users ++ [.entering entrant]
          holder := some w.users.length }
  /-- A user begins to send a request. -/
  | begin {w : Wire} {u : Nat} {request : Bytes} (turn : w.holder = some u)
      (phase : w.phase? u = some (.queued request)) (usable : w.isOpen = true)
      (streams : w.hasStreams = true) :
      Move [] [] w (w.setPhase u (.writing request))
  /-- The connection of a user who wants to send a request is closed. -/
  | refuse {w : Wire} {u : Nat} {request : Bytes} (turn : w.holder = some u)
      (phase : w.phase? u = some (.queued request)) :
      Move [] [] w
        ({ w with hasStreams := w.hasStreams && w.isOpen }.release.setPhase u
          (.finished (.error w.closedError)))
  /-- A user begins to close the connection. -/
  | beginClose {w : Wire} {u : Nat} (turn : w.holder = some u)
      (phase : w.phase? u = some .leaving) :
      Move [] [] w ({ w with hasStreams := false }.setPhase u .closing)
  /-- A user who wants to close the connection finds it closed. -/
  | skipClose {w : Wire} {u : Nat} (turn : w.holder = some u)
      (phase : w.phase? u = some .leaving) :
      Move [] [] w (w.release.setPhase u .closed)
  /-- A user has closed the connection. -/
  | endClose {w : Wire} {u : Nat} (phase : w.phase? u = some .closing) :
      Move [] [] w (w.release.setPhase u .closed)
  /-- Some bytes of a request go out, and more are left. -/
  | send {w : Wire} {u : Nat} {sent left : Bytes}
      (phase : w.phase? u = some (.writing (sent ++ left))) (more : left ≠ []) :
      Move [] [] w
        ({ w with outbound := w.outbound ++ [(u, sent)] }.setPhase u
          (.writing left))
  /-- The last bytes of a request go out. -/
  | sendLast {w : Wire} {u : Nat} {sent : Bytes}
      (phase : w.phase? u = some (.writing sent)) : Move [] [] w ({ w with
          outbound := w.outbound ++ [(u, sent)]
          requested := w.requested ++ [u] }.setPhase u .reading)
  /-- An exchange ends without its reply. -/
  | breakOff {w : Wire} {u : Nat} {old new : Phase}
      {inbound : List (Except Resp.ReadError Resp.Value)}
      (keepsStreams : Bool) (phase : w.phase? u = some old)
      (exchange : old.isExchange = true)
      (kind : new = .abandoned ∨
        exists reason, new = .finished (.error (.connection w.address reason)))
      (read : inbound = w.inbound ∨ exists e, w.inbound = .error e :: inbound) :
      Move [] [] w ({ w with inbound }.breakOff u new keepsStreams)
  /-- A reply comes in. -/
  | arrive {w : Wire} (value : Resp.Value) :
      Move [] [value] w { w with inbound := w.inbound ++ [.ok value] }
  /-- Something that is no reply comes in. -/
  | fault {w : Wire} (e : Resp.ReadError) :
      Move [] [] w { w with inbound := w.inbound ++ [.error e] }
  /-- An exchange ends with its reply. -/
  | answer {w : Wire} {u : Nat} {value : Resp.Value}
      {inbound : List (Except Resp.ReadError Resp.Value)}
      (phase : w.phase? u = some .reading)
      (read : w.inbound = .ok value :: inbound) :
      Move [] [] w
        ({ w with inbound }.release.setPhase u (.finished (.ok value)))
  /-- A user who waits in the queue goes away. -/
  | quit {w : Wire} {u : Nat} {request : Bytes}
      (phase : w.phase? u = some (.queued request))
      (other : w.holder ≠ some u) :
      Move [] [] w
        ({ w with queue := w.queue.filter (fun v => v ≠ u) }.setPhase
          u .abandoned)
  /-- A user who is about to begin goes away. -/
  | pass {w : Wire} {u : Nat} {request : Bytes}
      (phase : w.phase? u = some (.queued request)) (turn : w.holder = some u) :
      Move [] [] w
        ({ w with queue := w.queue.filter (fun v => v ≠ u) }.release.setPhase
          u .abandoned)

def entrants : Event -> List (Option Command)
  | .dispatch command => [some command]
  | .close => [none]
  | _ => []

def arrivals : Event -> List Resp.Value
  | .arrived (.ok value) => [value]
  | _ => []

/-! ## Events -/

theorem move_beginExchange {w : Wire} {u : Nat} {request : Bytes}
    (turn : w.holder = some u) (phase : w.phase? u = some (.queued request)) :
    Move [] [] w (w.beginExchange u request) := by
  unfold beginExchange
  by_cases h : (w.isOpen && w.hasStreams) = true
  · rw [if_pos h]
    rw [Bool.and_eq_true] at h
    exact Move.begin turn phase h.1 h.2
  · rw [if_neg h]
    exact Move.refuse turn phase

theorem move_beginClose {w : Wire} {u : Nat} (turn : w.holder = some u)
    (phase : w.phase? u = some .leaving) : Move [] [] w (w.beginClose u) := by
  unfold beginClose
  by_cases h : w.hasStreams = true
  · rw [if_pos h]
    exact Move.beginClose turn phase
  · rw [if_neg h]
    exact Move.skipClose turn phase

inductive Moves (entrants : List (Option Command)) (arrivals : List Resp.Value)
    (w : Wire) : Wire -> Prop where
  | one {q : Wire} (move : Move entrants arrivals w q) :
      Moves entrants arrivals w q
  | two {r q : Wire} (first : Move entrants arrivals w r)
      (second : Move [] [] r q) : Moves entrants arrivals w q

theorem enter_of_held {w : Wire} {owner : Nat} (held : w.holder = some owner)
    (phase : Phase) (go : Wire -> Nat -> Wire) :
    w.enter phase go =
      { w with
        users := w.users ++ [phase], queue := w.queue ++
        [w.users.length] } := by
  unfold enter
  simp only [held]

theorem enter_of_free {w : Wire} (free : w.holder = none) (phase : Phase)
    (go : Wire -> Nat -> Wire) :
    w.enter phase go =
      go { w with users := w.users ++ [phase], holder := some w.users.length }
        w.users.length := by
  unfold enter
  simp only [free]

theorem moves_enter {w : Wire} (entrant : Option Command)
    (go : Wire -> Nat -> Wire)
    (hgo : forall {q : Wire} {u : Nat}, q.holder = some u ->
      q.phase? u = some (.entering entrant) -> Move [] [] q (go q u)) :
    Moves [entrant] [] w
      ({ w with isOpen := w.isOpen && entrant.isSome }.enter
        (.entering entrant) go) := by
  rcases Option.eq_none_or_eq_some w.holder with hfree | ⟨owner, hheld⟩
  · rw [enter_of_free
      (w := { w with isOpen := w.isOpen && entrant.isSome }) hfree]
    refine Moves.two (Move.come entrant hfree) (hgo rfl ?_)
    exact (phase?_concat w (.entering entrant) w.users.length).trans
      (if_pos rfl)
  · rw [enter_of_held
      (w := { w with isOpen := w.isOpen && entrant.isSome }) hheld]
    exact Moves.one (Move.wait entrant hheld)

theorem moves_abandon {w q : Wire} {u : Nat} (h : w.abandon u = some q) :
    Move [] [] w q := by
  unfold abandon at h
  cases hphase : w.phase? u with
  | none => simp [hphase] at h
  | some phase =>
      cases phase with
      | queued request =>
          simp only [hphase, Option.some.injEq] at h
          subst h
          by_cases hturn : w.holder = some u
          · rw [if_pos hturn]
            exact Move.pass hphase hturn
          · rw [if_neg hturn]
            exact Move.quit hphase hturn
      | writing rest =>
          simp only [hphase, Option.some.injEq] at h
          subst h
          exact Move.breakOff true hphase rfl (Or.inl rfl) (Or.inl rfl)
      | reading =>
          simp only [hphase, Option.some.injEq] at h
          subst h
          exact Move.breakOff true hphase rfl (Or.inl rfl) (Or.inl rfl)
      | _ => simp [hphase] at h

theorem moves_read {w q : Wire} {u : Nat} (hphase : w.phase? u = some .reading)
    (h : w.read u = some q) : Move [] [] w q := by
  unfold read at h
  cases hinbound : w.inbound with
  | nil => simp [hinbound] at h
  | cons reply rest =>
      cases reply with
      | ok value =>
          simp only [hinbound, Option.some.injEq] at h
          subst h
          exact Move.answer hphase hinbound
      | error e =>
          simp only [hinbound, Option.some.injEq] at h
          subst h
          exact Move.breakOff false hphase rfl (Or.inr ⟨_, rfl⟩)
            (Or.inr ⟨e, hinbound⟩)

theorem move_write {w : Wire} {u : Nat} {rest : Bytes} (count : Nat)
    (hphase : w.phase? u = some (.writing rest)) :
    Move [] [] w (w.write u count rest) := by
  unfold write
  by_cases hlast : rest.length ≤ count
  · rw [if_pos hlast, List.take_of_length_le hlast]
    exact Move.sendLast hphase
  · rw [if_neg hlast]
    apply Move.send
    · rw [List.take_append_drop]
      exact hphase
    · rw [ne_eq, List.drop_eq_nil_iff]
      exact hlast

theorem moves_of_step {w q : Wire} {event : Event} (h : w.step event = some q) :
    Moves (entrants event) (arrivals event) w q := by
  cases event with
  | dispatch command =>
      cases h
      have hmoves :=
        moves_enter (w := w) (some command)
          (fun w user => w.beginExchange user command.toValue.encode)
          move_beginExchange
      rw [Option.isSome_some, Bool.and_true] at hmoves
      exact hmoves
  | close =>
      cases h
      have hmoves := moves_enter (w := w) none beginClose move_beginClose
      rw [Option.isSome_none, Bool.and_false] at hmoves
      exact hmoves
  | granted u =>
      simp only [step] at h
      split at h
      · rename_i hturn
        split at h
        · rename_i request hphase
          cases h
          exact Moves.one (move_beginExchange hturn hphase)
        · rename_i hphase
          cases h
          exact Moves.one (move_beginClose hturn hphase)
        · cases h
      · cases h
  | wrote u count =>
      simp only [step] at h
      split at h
      · rename_i rest hphase
        cases h
        exact Moves.one (move_write count hphase)
      · cases h
  | writeFailed u reason =>
      simp only [step] at h
      split at h
      · rename_i rest hphase
        cases h
        exact Moves.one
          (Move.breakOff false hphase rfl (Or.inr ⟨_, rfl⟩) (Or.inl rfl))
      · cases h
  | arrived reply =>
      cases h
      cases reply with
      | ok value => exact Moves.one (Move.arrive value)
      | error e => exact Moves.one (Move.fault e)
  | read u =>
      simp only [step] at h
      split at h
      · rename_i hphase
        exact Moves.one (moves_read hphase h)
      · cases h
  | abandon u => exact Moves.one (moves_abandon h)
  | closed u =>
      simp only [step] at h
      split at h
      · rename_i hphase
        cases h
        exact Moves.one (Move.endClose hphase)
      · cases h

end Wire
end Transport
end SlotCluster
