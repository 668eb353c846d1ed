import SlotCluster.Discovery.Round
import SlotCluster.Rehearsal.Script

/-!
# The stage of a rehearsal

The stage holds the scripted nodes, a clock, and everything that the nodes have
been asked and have not answered.  Time stands still while anything can go on;
then the clock moves to the next moment at which something happens.

An answer that comes at the moment at which somebody stops waiting for it is
still in time.
-/

namespace SlotCluster
namespace Rehearsal

/-- What a node is working on. -/
inductive Work where
  /-- The node will report its view or fail, as its script says at that time. -/
  | view (address : String)
  /-- The node will accept a connection or refuse it, as its script says at that
  time. -/
  | connect (address : String)
  | reply (result : Except ClusterError Resp.Value)

/-- Something that has been asked and not been answered. -/
structure Wait where
  work : Work
  /-- When the answer comes; some never do. -/
  due : Option Nat
  /-- When the asker stops waiting. -/
  deadline : Option Nat := none

/-- Who waits. -/
inductive Waiter where
  | call (session call : Nat)
  | delivery (session delivery : Nat)
  | query (round position : Nat)
  deriving DecidableEq

/-- The scripted nodes and the clock. -/
structure Stage where
  scripts : List (String × Script) := []
  /-- What happens at addresses without a script. -/
  elsewhere : Script := {}
  now : Nat := 0
  waits : List (Waiter × Wait) := []
  /-- What the nodes have noticed, the latest first. -/
  notices : List Notice := []
  /-- How many things have happened. -/
  moves : Nat := 0

namespace Stage

def script (s : Stage) (address : String) : Script :=
  ((s.scripts.find? (fun x => x.1 = address)).map Prod.snd).getD s.elsewhere

def setScript (s : Stage) (address : String) (script : Script) : Stage :=
  { s with
    scripts := (address, script) :: s.scripts.filter (fun x => x.1 ≠ address) }

def move (s : Stage) : Stage :=
  { s with moves := s.moves + 1 }

def note (s : Stage) (notice : Notice) : Stage :=
  { s.move with notices := notice :: s.notices }

def wait? (s : Stage) (waiter : Waiter) : Option Wait :=
  (s.waits.find? (fun w => w.1 = waiter)).map Prod.snd

def await (s : Stage) (waiter : Waiter) (wait : Wait) : Stage :=
  { s.move with waits := s.waits ++ [(waiter, wait)] }

def forget (s : Stage) (waiter : Waiter) : Stage :=
  { s.move with waits := s.waits.filter (fun w => w.1 ≠ waiter) }

def hasCome (s : Stage) (moment : Option Nat) : Bool :=
  moment.any (fun t => t ≤ s.now)

/-- The moment some milliseconds from now, unless it never comes. -/
def after (s : Stage) (millis : Nat) (never : Bool) : Option Nat :=
  if never then none else some (s.now + millis)

def moments (s : Stage) : List Nat :=
  (s.waits.flatMap (fun w => w.2.due.toList ++ w.2.deadline.toList)).filter
    (fun t => s.now < t)

/-! ## Asking nodes -/

def askView (s : Stage) (waiter : Waiter) (address : String) : Stage :=
  let script := s.script address
  (s.note (.view address)).await waiter
    ⟨.view address, s.after script.viewDelay script.viewHangs, none⟩

def askConnection (s : Stage) (waiter : Waiter) (address : String)
    (deadline : Option Nat) : Stage :=
  let script := s.script address
  (s.note (.connect address)).await waiter
    ⟨.connect address,
      s.after script.connectDelay script.connectHangs, deadline⟩

def viewOf (s : Stage) (address : String) : Except ClusterError (List Node) :=
  let script := s.script address
  if script.isUnreachable then .error (.connection address script.obstacle)
  else
    match script.view with
    | some nodes => .ok nodes
    | none =>
        .error (.command (Utf8.encode (address ++ " has no cluster view")))

def accepts (s : Stage) (address : String) : Except ClusterError Unit :=
  let script := s.script address
  if script.isUnreachable then
    .error (.connection address script.obstacle)
  else
    .ok ()

def handshake (s : Stage) (link : Link) : Stage × Except ClusterError Unit :=
  let address := link.endpoint.addr
  let password := link.endpoint.credential.getD ""
  let script := s.script address
  let answer :=
    match script.handshakeFailure with
    | some reason => .error (.connection address reason)
    | none =>
        if script.password.any (fun p => p ≠ password) then
          .error (.auth address "WRONGPASS invalid username-password pair")
        else
          .ok ()
  (s.note (.auth address password), answer)

/-- Send a command.  Tells whether the connection is gone afterwards. -/
def send (s : Stage) (waiter : Waiter) (link : Link) (c : Command)
    (deadline : Option Nat) : Stage × Bool :=
  let address := link.endpoint.addr
  let failure (reason : String) : Except ClusterError Resp.Value :=
    .error (.connection address reason)
  let reply (s : Stage) (result : Except ClusterError Resp.Value)
      (due : Option Nat) : Stage :=
    s.await waiter ⟨.reply result, due, deadline⟩
  if !link.isOpen then
    (reply s (failure "closed") (some s.now), false)
  else
    let s := s.note (.command address c.name c.args)
    let script := s.script address
    if script.password.isSome && !link.isAuthenticated then
      (reply s (.ok (.errorText "NOAUTH Authentication required."))
        (some s.now), false)
    else
      let (reaction, script) := script.takeReaction c.name
      let s := s.setScript address script
      let usual := Script.usualReply address c
      match reaction with
      | none => (reply s (.ok usual) (some s.now), false)
      | some (.reply value) => (reply s (.ok value) (some s.now), false)
      | some .hang => (reply s (.ok usual) none, false)
      | some (.fail reason) => (reply s (failure reason) (some s.now), false)
      | some (.drop reason) => (reply s (failure reason) (some s.now), true)
      | some (.delay millis value) =>
          (reply s (.ok (value.getD usual)) (some (s.now + millis)), false)

end Stage
end Rehearsal
end SlotCluster
