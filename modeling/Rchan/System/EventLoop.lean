import Rchan.System.FileDescriptor

namespace Rchan

/-!
# The event loop

An `EventLoop` holds rules, each with a test of interest and a callback, some of
them about a file descriptor.  A rule refers to the rest of the program through the
variables its functions have captured; here they are functions of a `World`, the
descriptor of a rule included, and a callback may also call the system and fail.

`wait_next_event` serves at most one rule.  Its three parts are the rules without
descriptor, the preparation of the descriptors to be polled, and the sweep over the
events that `poll` has returned.
-/

/-- `EventLoop::BasicRule`. -/
structure BasicRule (World : Type) where
  categoryId : Nat
  interest : World → Bool
  callback : Kernel → World → Except Failure World
  cancelRequested : Bool := false

/-- `EventLoop::FDRule`. -/
structure FDRule (World : Type) extends BasicRule World where
  fd : World → FDWrapper
  direction : Direction
  cancel : World → World
  error : World → World

namespace FDRule

variable {World : Type}

/-- `EventLoop::FDRule::service_count`. -/
def serviceCount (rule : FDRule World) (world : World) : UInt32 :=
  match rule.direction with
  | .incoming => (rule.fd world).readCount
  | .outgoing => (rule.fd world).writeCount

/-- The tests of the preparation that end a rule: its descriptor is at the end of the
file it reads, or closed. -/
def exhausted (rule : FDRule World) (world : World) : Bool :=
  rule.direction == .incoming && (rule.fd world).eof || (rule.fd world).closed

end FDRule

namespace PollFd

/-- The event asked for is among those returned. -/
def ready (pollfd : PollFd) (revents : Revents) : Bool :=
  match pollfd.events with
  | none => false
  | some .incoming => revents.pollin
  | some .outgoing => revents.pollout

/-- The hang-up test of the sweep. -/
def hungUp (pollfd : PollFd) (revents : Revents) (direction : Direction) : Bool :=
  revents.pollhup &&
    (pollfd.events.isSome && !pollfd.ready revents || direction == .outgoing)

end PollFd

/-- `EventLoop::Result`. -/
inductive EventLoop.Result where
  | success
  | timeout
  | exit
  deriving DecidableEq, Repr

structure EventLoop (World : Type) where
  ruleCategories : List String := []
  fdRules : List (FDRule World) := []
  nonFdRules : List (BasicRule World) := []

namespace EventLoop

variable {World : Type}

/-- The categories for which the constructor reserves space. -/
def maxCategories : Nat := 64

/-- `EventLoop::add_category`. -/
def addCategory (loop : EventLoop World) (name : String) :
    Except Failure (EventLoop World × Nat) :=
  if maxCategories ≤ loop.ruleCategories.length then
    .error (.runtimeError "maximum categories reached")
  else .ok ({ loop with ruleCategories := loop.ruleCategories ++ [name] }, loop.ruleCategories.length)

/-- `EventLoop::add_rule` of a rule with a descriptor. -/
def addFdRule (loop : EventLoop World) (rule : FDRule World) : Except Failure (EventLoop World) :=
  if loop.ruleCategories.length ≤ rule.categoryId then .error (.outOfRange "bad category_id")
  else .ok { loop with fdRules := loop.fdRules ++ [rule] }

/-- `EventLoop::add_rule` of a rule without descriptor. -/
def addNonFdRule (loop : EventLoop World) (rule : BasicRule World) :
    Except Failure (EventLoop World) :=
  if loop.ruleCategories.length ≤ rule.categoryId then .error (.outOfRange "bad category_id")
  else .ok { loop with nonFdRules := loop.nonFdRules ++ [rule] }

/-- The convenience function that adds a category and a rule of it. -/
def addRule (loop : EventLoop World) (name : String) (rule : FDRule World) :
    Except Failure (EventLoop World) := do
  let (loop, category) ← loop.addCategory name
  loop.addFdRule { rule with categoryId := category }

/-- The name of the category of a rule. -/
def ruleName (loop : EventLoop World) (rule : BasicRule World) : String :=
  loop.ruleCategories.getD rule.categoryId ""

/-- The loop over a rule without descriptor, which throws at the iteration after the last
one allowed. -/
def serveWhileInterested (loop : EventLoop World) (kernel : Kernel) (rule : BasicRule World) :
    Nat → World → Except Failure World
  | 0, world =>
      if rule.interest world then
        .error (.runtimeError ("EventLoop: busy wait detected: rule \"" ++ loop.ruleName rule ++
          "\" is still interested after 129 iterations"))
      else .ok world
  | iterations + 1, world =>
      if rule.interest world then do
        let world ← rule.callback kernel world
        loop.serveWhileInterested kernel rule iterations world
      else .ok world

/-- The first part of `wait_next_event`: the remaining rules, and whether one was served. -/
def serveNonFdRules (loop : EventLoop World) (kernel : Kernel) :
    List (BasicRule World) → World → Except Failure (List (BasicRule World) × World × Bool)
  | [], world => .ok ([], world, false)
  | rule :: rest, world =>
      if rule.cancelRequested then loop.serveNonFdRules kernel rest world
      else if rule.interest world then do
        let world ← loop.serveWhileInterested kernel rule 128 world
        return (rule :: rest, world, true)
      else do
        let (rules, world, fired) ← loop.serveNonFdRules kernel rest world
        return (rule :: rules, world, fired)

/-- The second part: the rules that are to be polled, each with its `pollfd`. -/
def prepare : List (FDRule World) → World → List (FDRule World × PollFd) × World
  | [], world => ([], world)
  | rule :: rest, world =>
      if rule.cancelRequested then prepare rest world
      else if rule.exhausted world then prepare rest (rule.cancel world)
      else
        let pollfd : PollFd :=
          { fd := (rule.fd world).fd
            events := if rule.interest world then some rule.direction else none }
        let (polled, world) := prepare rest world
        ((rule, pollfd) :: polled, world)

/-- What `wait_next_event` does about a pending error of a descriptor that is no socket,
or of a socket, before it cancels the rule. -/
def checkSocketError (kernel : Kernel) (fd : Nat) : Except Failure Unit :=
  match kernel.getsockopt fd with
  | .failed errno => if errno = .enotsock then .ok () else .error (.unixError "getsockopt" errno)
  | .wrongLength optlen =>
      .error (.runtimeError ("unexpected length from getsockopt: " ++ toString optlen))
  | .found _ => .ok ()

/-- Call the callback of a rule, which has to read or write its descriptor. -/
def serve (loop : EventLoop World) (kernel : Kernel) (rule : FDRule World) (world : World) :
    Except Failure World := do
  let countBefore := rule.serviceCount world
  let served ← rule.callback kernel world
  if countBefore = rule.serviceCount served && !(rule.fd served).closed && rule.interest served then
    throw (.runtimeError ("EventLoop: busy wait detected: rule \"" ++
      loop.ruleName rule.toBasicRule ++ "\" did not read/write fd and is still interested"))
  else
    return served

/-- The third part: go through the events until a rule has been served. -/
def sweep (loop : EventLoop World) (kernel : Kernel) (revents : Nat → Revents) :
    Nat → List (FDRule World × PollFd) → World → Except Failure (List (FDRule World) × World)
  | _, [], world => .ok ([], world)
  | index, (rule, pollfd) :: rest, world =>
      let events := revents index
      if events.pollerr || events.pollnval then do
        checkSocketError kernel (rule.fd world).fd
        loop.sweep kernel revents (index + 1) rest (rule.cancel (rule.error world))
      else if pollfd.hungUp events rule.direction then
        loop.sweep kernel revents (index + 1) rest (rule.cancel world)
      else if pollfd.ready events then do
        let world ← loop.serve kernel rule world
        return (rule :: rest.map Prod.fst, world)
      else do
        let (rules, world) ← loop.sweep kernel revents (index + 1) rest world
        return (rule :: rules, world)

/-- `CheckSystemCall` of the call of `poll`. -/
def checkPoll (returned : Except Errno PollAnswer) : Except Failure PollAnswer :=
  match returned with
  | .ok answer => .ok answer
  | .error errno => .error (.unixError "poll" errno)

/-- `EventLoop::wait_next_event`. -/
def waitNextEvent (loop : EventLoop World) (kernel : Kernel) (world : World) :
    Except Failure (Result × EventLoop World × World) := do
  let (nonFdRules, world, fired) ← loop.serveNonFdRules kernel loop.nonFdRules world
  let loop := { loop with nonFdRules }
  if fired then return (.success, loop, world)
  let (polled, world) := prepare loop.fdRules world
  let loop := { loop with fdRules := polled.map Prod.fst }
  if !polled.any (fun entry => entry.2.events.isSome) then return (.exit, loop, world)
  let answer ← checkPoll (kernel.poll (polled.map Prod.snd))
  if answer.count = 0 then return (.timeout, loop, world)
  let (fdRules, world) ← loop.sweep kernel answer.revents 0 polled world
  return (.success, { loop with fdRules }, world)

end EventLoop
end Rchan
