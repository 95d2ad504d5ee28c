import Rchan.Program.Host

namespace Rchan

/-!
# From standard input to standard output

Two hosts run `tcp_ipv4` over a network that may lose, delay, repeat, reorder and damage
datagrams.  Whatever the schedule, each standard output is the first part of the other
standard input, and no byte between them is lost: it waits in one of the streams, pairs and
queues on the way.  On systems on which nothing fails the whole way is a conduit, so that a
standard output is closed only behind all of the other standard input.
-/

open StreamCopy (Kept)

namespace Flow

theorem Sound.conduit {flow : Flow} (sound : flow.Sound) :
    Conduit flow.taken (flow.stream.closed = true) flow.given (flow.shutdown = true) where
  inOrder := ⟨_, sound.conserved⟩
  complete := fun shut => ⟨(sound.finished shut).1, sound.given_eq shut⟩

end Flow

namespace Host

open MinnowSocket (Answers)

variable {Address First Second : Type} [SocketAddress Address] [OverTun Address First]
  [OverTun Address Second] {host : Host First} {other : Host Second} {kernel : Kernel}

/-- A step that the systems answer in keeping with the pair and the network. -/
def Answered (host : Host First) (other : Host Second) : HostOp → Prop
  | .main kernel => host.Opened ∧ host.MainAnswers kernel
  | .thread kernel _ =>
      Answers host.thread.socket other.thread.socket kernel ∧ host.ThreadAnswers kernel

/-- What every host keeps. -/
structure Working (host : Host First) : Prop where
  inStep : host.thread.InStep
  copying : ∃ socket, host.copy.Between (Kept socket)
  paired : host.Paired

theorem mainStep_thread (host : Host First) (kernel : Kernel) :
    (host.mainStep kernel).thread = host.thread := by
  unfold mainStep
  split <;> rfl

/-- A step of the main thread is one of the copy, or it leaves the copy alone. -/
theorem mainStep_copy (host : Host First) (kernel : Kernel) :
    (host.mainStep kernel).copy = host.copy.step kernel ∨ (host.mainStep kernel).copy = host.copy := by
  unfold mainStep
  split
  · exact Or.inl rfl
  · exact Or.inr rfl
  · exact Or.inr rfl

theorem Working.step (working : host.Working) (otherInStep : other.thread.InStep) {op : HostOp}
    (answered : host.Answered other op) : (host.step op).Working := by
  cases op with
  | main kernel =>
      rcases working.copying with ⟨socket, between⟩
      have answers : host.MainAnswers kernel := answered.2
      refine {
        inStep := ?_
        copying := ⟨socket, ?_⟩
        paired := working.paired.mainStep between answers }
      · change (host.mainStep kernel).thread.InStep
        rw [host.mainStep_thread kernel]
        exact working.inStep
      · change (host.mainStep kernel).copy.Between (Kept socket)
        rcases host.mainStep_copy kernel with stepped | same
        · rw [stepped]
          exact between.step (Kept.discipline socket kernel)
        · rw [same]
          exact between
  | thread kernel now =>
      have answers : Answers host.thread.socket other.thread.socket kernel := answered.1
      exact {
        inStep := (working.inStep.round otherInStep answers now).1
        copying := working.copying
        paired := working.paired.round working.inStep answers.whole answered.2 now }

/-- The pair holds what has been written to it and not been read. -/
theorem Paired.pair (paired : host.Paired) :
    host.copy.copy.outbound.given = host.thread.socket.fromOwner ++ host.toThread ∧
      host.thread.socket.toOwner = host.copy.copy.inbound.taken ++ host.toCopy :=
  ⟨(List.prefix_iff_eq_append.mp paired.outbound.inOrder).symm,
    (List.prefix_iff_eq_append.mp paired.inbound.inOrder).symm⟩

theorem Working.flows (working : host.Working) :
    host.copy.copy.outbound.Sound ∧ host.copy.copy.inbound.Sound := by
  rcases working.copying with ⟨socket, between⟩
  exact ⟨between.kept.outbound, between.kept.inbound⟩

/-- What the thread has taken of the standard input. -/
theorem Working.fromOwner_length_le (working : host.Working) :
    host.thread.socket.fromOwner.length ≤ host.stdin.length :=
  Nat.le_trans working.paired.outbound.inOrder.length_le
    working.flows.1.conduit.inOrder.length_le

/-- What has become of the standard input of one host at the other one.  What is not
written yet is, from the end of the way to its beginning, in the inbound stream of the copy,
in the pair there, in the inbound stream of the peer, on its way over the network, in the
pair here, or in the outbound stream of the copy. -/
structure Conveys (source : Host First) (target : Host Second) : Prop where
  inOrder : target.stdout <+: source.stdin
  nothingLost : ∃ travelling, source.stdin =
      target.stdout ++ (target.copy.copy.inbound.stream.peek ++ (target.toCopy ++
        (target.thread.socket.inbound.peek ++ (travelling ++ (source.toThread ++
          source.copy.copy.outbound.stream.peek))))) ∧
    travelling <:+ source.thread.socket.tcp.peer.sender.outstandingMsg.flatMap
      TCPSenderMessage.payload ++ source.thread.socket.outbound.peek

theorem Working.conveys (working : host.Working) (otherWorking : other.Working)
    (relays : MinnowSocket.Relays host.thread.socket other.thread.socket) : Conveys host other := by
  rcases relays.waiting with ⟨travelling, all, inside⟩
  have here : host.copy.copy.outbound.given ++ host.copy.copy.outbound.stream.peek = host.stdin :=
    working.flows.1.conserved
  have there : other.stdout ++ other.copy.copy.inbound.stream.peek =
      other.copy.copy.inbound.taken := otherWorking.flows.2.conserved
  have whole : host.stdin = other.stdout ++ (other.copy.copy.inbound.stream.peek ++ (other.toCopy ++
      (other.thread.socket.inbound.peek ++ (travelling ++ (host.toThread ++
        host.copy.copy.outbound.stream.peek))))) := by
    rw [← here, working.paired.pair.1, all, otherWorking.paired.pair.2, ← there]
    simp only [List.append_assoc]
  exact ⟨⟨_, whole.symm⟩, travelling, whole, inside⟩

end Host

/-! ## Runs of two hosts -/

structure HostPair (First Second : Type) where
  left : Host First
  right : Host Second

/-- One of the two hosts takes a step. -/
inductive HostPairOp where
  | left (op : HostOp)
  | right (op : HostOp)

namespace HostPair

open Host (Conveys Working)
open MinnowRun (Opens)
open MinnowSocket (Answers)

variable {Address First Second : Type} [SocketAddress Address] [OverTun Address First]
  [OverTun Address Second]

def step (pair : HostPair First Second) : HostPairOp → HostPair First Second
  | .left op => { pair with left := pair.left.step op }
  | .right op => { pair with right := pair.right.step op }

def Allowed (system : Host First → HostOp → Prop) (host : Host First) (other : Host Second)
    (op : HostOp) : Prop :=
  host.Unfailed ∧ other.Unfailed ∧ host.Answered other op ∧ system host op

/-- The steps of the two hosts in any order, on systems that meet conditions. -/
def machine (leftSystem : Host First → HostOp → Prop) (rightSystem : Host Second → HostOp → Prop) :
    Machine (HostPair First Second) HostPairOp where
  allowed pair
    | .left op => Allowed leftSystem pair.left pair.right op
    | .right op => Allowed rightSystem pair.right pair.left op
  step := step

/-- Two hosts whose sockets have not taken a round. -/
def create (sockets : SocketPair First Second) : HostPair First Second where
  left := .create sockets.left
  right := .create sockets.right

def sockets (pair : HostPair First Second) : SocketPair First Second where
  left := pair.left.thread
  right := pair.right.thread

def swap (pair : HostPair First Second) : HostPair Second First where
  left := pair.right
  right := pair.left

variable {leftSystem : Host First → HostOp → Prop} {rightSystem : Host Second → HostOp → Prop}
  {leftThread : MinnowRun First → Kernel → Prop} {rightThread : MinnowRun Second → Kernel → Prop}
  {leftCfg rightCfg : TCPConfig} {start : SocketPair First Second}
  {first pair : HostPair First Second}

/-- The two hosts may change places. -/
theorem swap_reachable (reached : (machine leftSystem rightSystem).Reachable first pair) :
    (machine rightSystem leftSystem).Reachable first.swap pair.swap := by
  refine reached.project swap fun pair op permitted => ?_
  cases op with
  | left op =>
      have permitted : Allowed leftSystem pair.left pair.right op := permitted
      exact .step (HostPairOp.right op) .start permitted
  | right op =>
      have permitted : Allowed rightSystem pair.right pair.left op := permitted
      exact .step (HostPairOp.left op) .start permitted

/-- The sockets run as two sockets do. -/
theorem sockets_reachable
    (left : ∀ host kernel now, leftSystem host (.thread kernel now) → leftThread host.thread kernel)
    (right : ∀ host kernel now, rightSystem host (.thread kernel now) →
      rightThread host.thread kernel)
    (reached : (machine leftSystem rightSystem).Reachable first pair) :
    (SocketPair.machine leftThread rightThread).Reachable first.sockets pair.sockets := by
  refine reached.project sockets fun pair op permitted => ?_
  have unmoved : ∀ {sockets : SocketPair First Second}, sockets = pair.sockets →
      (SocketPair.machine leftThread rightThread).Reachable pair.sockets sockets := by
    rintro _ rfl
    exact .start
  cases op with
  | left op =>
      have permitted : Allowed leftSystem pair.left pair.right op := permitted
      cases op with
      | main kernel =>
          refine unmoved ?_
          change SocketPair.mk (pair.left.mainStep kernel).thread pair.right.thread = _
          rw [pair.left.mainStep_thread kernel]
          rfl
      | thread kernel now =>
          rcases permitted with ⟨unfailed, otherUnfailed, answered, system⟩
          exact .step (PairOp.left (.round kernel now)) .start
            ⟨unfailed.thread, otherUnfailed.thread, answered.1, left _ _ _ system⟩
  | right op =>
      have permitted : Allowed rightSystem pair.right pair.left op := permitted
      cases op with
      | main kernel =>
          refine unmoved ?_
          change SocketPair.mk pair.left.thread (pair.right.mainStep kernel).thread = _
          rw [pair.right.mainStep_thread kernel]
          rfl
      | thread kernel now =>
          rcases permitted with ⟨unfailed, otherUnfailed, answered, system⟩
          exact .step (PairOp.right (.round kernel now)) .start
            ⟨unfailed.thread, otherUnfailed.thread, answered.1, right _ _ _ system⟩

/-- Two sockets that have been opened over fresh pairs. -/
structure Begins (leftCfg rightCfg : TCPConfig) (start : SocketPair First Second) : Prop where
  smallLeft : Connection.CapacitiesSmall leftCfg
  smallRight : Connection.CapacitiesSmall rightCfg
  opensLeft : Opens leftCfg start.left
  opensRight : Opens rightCfg start.right
  freshLeft : Host.Fresh start.left
  freshRight : Host.Fresh start.right

theorem working_create {Adapt : Type} [OverTun Address Adapt] {cfg : TCPConfig}
    {run : MinnowRun Adapt} (opens : Opens cfg run) (fresh : Host.Fresh run) :
    (Host.create run).Working where
  inStep := ⟨_, _, opens.begun.between⟩
  copying := ⟨_, .start fresh.ownerOpen⟩
  paired := Host.paired_create fresh opens.begun.written

theorem working_of_reachable (begins : Begins leftCfg rightCfg start)
    (reached : (machine leftSystem rightSystem).Reachable (create start) pair) :
    pair.left.Working ∧ pair.right.Working := by
  refine reached.invariant (fun pair => pair.left.Working ∧ pair.right.Working)
    ⟨working_create begins.opensLeft begins.freshLeft,
      working_create begins.opensRight begins.freshRight⟩ ?_
  rintro pair op ⟨left, right⟩ permitted
  cases op with
  | left op =>
      have permitted : Allowed leftSystem pair.left pair.right op := permitted
      exact ⟨left.step right.inStep permitted.2.2.1, right⟩
  | right op =>
      have permitted : Allowed rightSystem pair.right pair.left op := permitted
      exact ⟨left, right.step left.inStep permitted.2.2.1⟩

/-- Whatever the systems and the network do, both standard outputs are the first parts of
the standard inputs at the other ends, and what is missing of them is still on its way. -/
theorem conveys_stdin (begins : Begins leftCfg rightCfg start)
    (reached : (machine leftSystem rightSystem).Reachable (create start) pair)
    (fewLeft : pair.left.stdin.length < 2 ^ 31) (fewRight : pair.right.stdin.length < 2 ^ 31) :
    Conveys pair.left pair.right ∧ Conveys pair.right pair.left := by
  have working := working_of_reachable begins reached
  have sockets : (SocketPair.machine (fun _ _ => True) (fun _ _ => True)).Reachable start
      pair.sockets :=
    sockets_reachable (fun _ _ _ _ => trivial) (fun _ _ _ _ => trivial) reached
  have few : pair.sockets.writtenLength < 2 ^ 31 :=
    max_lt (Nat.lt_of_le_of_lt working.1.fromOwner_length_le fewLeft)
      (Nat.lt_of_le_of_lt working.2.fromOwner_length_le fewRight)
  have joined := SocketPair.joined_of_reachable begins.smallLeft begins.smallRight begins.opensLeft
    begins.opensRight sockets few
  exact ⟨working.1.conveys working.2 joined.relays, working.2.conveys working.1 joined.symm.relays⟩

/-! ## An example -/

open SocketPair (Device)

/-- `wait_until_closed` or the copy has shut the owner's end down. -/
def mainClosed (host : Host Device) : Bool :=
  host.copy.copy.outbound.shutdown ||
    match host.closing with
    | some (.ok ()) => true
    | _ => false

def threadClosed (host : Host Device) : Bool :=
  host.thread.socket.inboundShutdown ||
    match host.thread.phase with
    | .finished (.ok ()) => true
    | _ => false

theorem mainShut_of_closed {host : Host Device} (closed : mainClosed host = true) :
    host.MainShut := by
  rcases Bool.or_eq_true_iff.mp closed with shut | closing
  · exact Or.inl shut
  · split at closing
    · exact Or.inr ‹_›
    · cases closing

theorem threadShut_of_closed {host : Host Device} (closed : threadClosed host = true) :
    host.ThreadShut := by
  rcases Bool.or_eq_true_iff.mp closed with shut | finished
  · exact Or.inl shut
  · split at finished
    · exact Or.inr ‹_›
    · cases finished

/-- A system with standard input 0, the device 7, the owner's end 8 and the thread's end 9.
The device hands out the last of some datagrams, and standard input some bytes or its end. -/
def answering (host : Host Device) (datagrams : List (List Byte)) (input : Option (List Byte)) :
    Kernel :=
  { Kernel.eager [] with
    poll := fun fds => .ok
      { count := 1
        revents := fun index =>
          { pollin :=
              match fds[index]?.map PollFd.fd with
              | some 0 => input.isSome
              | some 7 => !datagrams.isEmpty
              | some 8 => !host.toCopy.isEmpty || threadClosed host
              | _ => !host.toThread.isEmpty || mainClosed host
            pollout := true } }
    read := fun fd size =>
      match fd with
      | 0 => .ok ((input.getD []).take size)
      | 7 =>
          match datagrams.getLast? with
          | some datagram => .ok datagram
          | none => .error .eagain
      | 8 => readEnd host.toCopy (threadClosed host) size
      | _ => readEnd host.toThread (mainClosed host) size
    write := fun fd buffer =>
      if fd = 8 ∧ host.copy.copy.outbound.shutdown = true ∨
          fd = 9 ∧ host.thread.socket.inboundShutdown = true then .error (.other 32)
      else .ok buffer.length }

/-- A step of one of the two hosts. -/
structure Turn where
  left : Bool
  main : Bool
  /-- The network hands the thread the last datagram of the other one. -/
  hands : Bool := false
  input : Option (List Byte) := none
  now : Nat := 0

namespace Turn

variable (turn : Turn) (pair : HostPair Device Device)

def kernel (host other : Host Device) : Kernel :=
  answering host (if turn.hands then other.thread.socket.device.datagrams else []) turn.input

def hostOp (host other : Host Device) : HostOp :=
  if turn.main then .main (turn.kernel host other) else .thread (turn.kernel host other) turn.now

def op : HostPairOp :=
  if turn.left then .left (turn.hostOp pair.left pair.right)
  else .right (turn.hostOp pair.right pair.left)

/-- The main thread copies once the socket has been opened. -/
def opened (host : Host Device) : Bool :=
  !turn.main ||
    match host.thread.phase with
    | .connecting => false
    | .accepting => false
    | _ => true

/-- Nothing has thrown, the descriptors have the numbers that `answering` knows, and what
has been read of the pair is what it has been given. -/
def ready (host : Host Device) : Bool :=
  host.thread.socket.device.tun.fd == 7 && host.copy.copy.socket.fd == 8 &&
    host.thread.socket.threadData.fd == 9 &&
    host.copy.copy.inbound.taken.isPrefixOf host.thread.socket.toOwner &&
    host.thread.socket.fromOwner.isPrefixOf host.copy.copy.outbound.given &&
    (match host.thread.phase with
      | .finished (.error _) => false
      | _ => true) &&
    (match host.copy.outcome with
      | some (.error _) => false
      | _ => true) &&
    match host.closing with
    | some (.error _) => false
    | _ => true

def possible : Bool :=
  ready pair.left && ready pair.right && turn.opened (if turn.left then pair.left else pair.right)

end Turn

/-- The steps of some turns, and whether all are possible. -/
def play (pair : HostPair Device Device) : List Turn → List HostPairOp × Bool
  | [] => ([], true)
  | turn :: later =>
      let rest := play (pair.step (turn.op pair)) later
      (turn.op pair :: rest.1, turn.possible pair && rest.2)

/-- What `ready` has found. -/
structure Ready (host : Host Device) : Prop where
  device : host.thread.socket.device.tun.fd = 7
  owner : host.copy.copy.socket.fd = 8
  thread : host.thread.socket.threadData.fd = 9
  inbound : host.copy.copy.inbound.taken <+: host.thread.socket.toOwner
  outbound : host.thread.socket.fromOwner <+: host.copy.copy.outbound.given
  unfailed : host.Unfailed

theorem ready_of {host : Host Device} (ready : Turn.ready host = true) : Ready host := by
  simp only [Turn.ready, Bool.and_eq_true, beq_iff_eq, List.isPrefixOf_iff_prefix] at ready
  rcases ready with ⟨⟨⟨⟨⟨⟨⟨device, owner⟩, thread⟩, inbound⟩, outbound⟩, phase⟩, outcome⟩, closing⟩
  refine ⟨device, owner, thread, inbound, outbound, ?_, ?_, ?_⟩
  · intro failure failed
    rw [failed] at phase
    cases phase
  · intro failure failed
    rw [failed] at outcome
    cases outcome
  · intro failure failed
    rw [failed] at closing
    cases closing

namespace Ready

variable {host other : Host Device}

theorem mainAnswers (ready : Ready host) (datagrams : List (List Byte)) (input : Option (List Byte)) :
    host.MainAnswers (answering host datagrams input) := by
  refine Kernel.streamEnd_of_readEnd ready.inbound ?_ threadShut_of_closed ?_
  · intro size
    rw [ready.owner]
    rfl
  · intro shut buffer written answered
    simp only [answering, ready.owner, shut, true_and, true_or, if_true] at answered
    cases answered

theorem threadAnswers (ready : Ready host) (datagrams : List (List Byte))
    (input : Option (List Byte)) : host.ThreadAnswers (answering host datagrams input) := by
  refine Kernel.streamEnd_of_readEnd ready.outbound ?_ mainShut_of_closed ?_
  · intro size
    rw [ready.thread]
    rfl
  · intro shut buffer written answered
    simp only [answering, ready.thread, shut, true_and, or_true, if_true] at answered
    cases answered

theorem answers (ready : Ready host) {datagrams : List (List Byte)} (input : Option (List Byte))
    (given : ∀ datagram ∈ datagrams, datagram ∈ other.thread.socket.device.datagrams) :
    Answers host.thread.socket other.thread.socket (answering host datagrams input) where
  whole := by
    intro buffer written answered
    rw [ready.device] at answered
    exact (Except.ok.inj answered).symm
  reads := by
    intro bytes answered
    rw [ready.device] at answered
    simp only [answering] at answered
    split at answered
    · rename_i datagram last
      rw [← Except.ok.inj answered]
      exact Or.inl ⟨datagram, given datagram (List.mem_of_getLast? last), Or.inl rfl⟩
    · cases answered

end Ready

theorem Turn.allowed {system : Host Device → HostOp → Prop} (turn : Turn)
    {host other : Host Device} (ready : Turn.ready host = true) (otherReady : Turn.ready other = true)
    (opened : turn.opened host = true)
    (systems : ∀ host datagrams input now,
      system host (.main (answering host datagrams input)) ∧
        system host (.thread (answering host datagrams input) now)) :
    Allowed system host other (turn.hostOp host other) := by
  have here := ready_of ready
  have there := ready_of otherReady
  have given : ∀ datagram ∈ (if turn.hands then other.thread.socket.device.datagrams else []),
      datagram ∈ other.thread.socket.device.datagrams := by
    intro datagram member
    split at member
    · exact member
    · cases member
  refine ⟨here.unfailed, there.unfailed, ?_⟩
  unfold Turn.hostOp
  cases main : turn.main with
  | true =>
      refine ⟨⟨?_, here.mainAnswers _ _⟩, (systems _ _ _ 0).1⟩
      rw [Turn.opened, main, Bool.not_true, Bool.false_or] at opened
      constructor <;> intro phase <;> rw [phase] at opened <;> cases opened
  | false =>
      exact ⟨⟨here.answers _ given, here.threadAnswers _ _⟩, (systems _ _ _ _).2⟩

theorem admissible_play {system otherSystem : Host Device → HostOp → Prop}
    {pair : HostPair Device Device} {script : List Turn}
    (systems : ∀ host datagrams input now,
      (system host (.main (answering host datagrams input)) ∧
        system host (.thread (answering host datagrams input) now)) ∧
      (otherSystem host (.main (answering host datagrams input)) ∧
        otherSystem host (.thread (answering host datagrams input) now)))
    (possible : (play pair script).2 = true) :
    (machine system otherSystem).Admissible pair (play pair script).1 := by
  induction script generalizing pair with
  | nil => trivial
  | cons turn later ih =>
      have parts := Bool.and_eq_true_iff.mp possible
      have now := Bool.and_eq_true_iff.mp parts.1
      have ready := Bool.and_eq_true_iff.mp now.1
      refine ⟨?_, ih parts.2⟩
      have opened := now.2
      unfold Turn.op
      cases left : turn.left with
      | true =>
          rw [left, if_pos rfl] at opened
          exact turn.allowed ready.1 ready.2 opened fun host datagrams input now =>
            (systems host datagrams input now).1
      | false =>
          rw [left, if_neg Bool.false_ne_true] at opened
          exact turn.allowed ready.2 ready.1 opened fun host datagrams input now =>
            (systems host datagrams input now).2

/-- A client and a server before the first rounds of their sockets. -/
theorem begins_opening :
    Begins (Connection.shortConfig ⟨100⟩) (Connection.shortConfig ⟨4294967295⟩)
      SocketPair.opening where
  smallLeft := ⟨by decide, by decide⟩
  smallRight := ⟨by decide, by decide⟩
  opensLeft := SocketPair.opens_connecting
  opensRight := SocketPair.opens_listening
  freshLeft := ⟨by decide +kernel, by decide +kernel, by decide +kernel⟩
  freshRight := ⟨by decide +kernel, by decide +kernel, by decide +kernel⟩

/-- The connection is opened, and two bytes go from one standard input to the other
standard output; two more wait in the pair at the first host. -/
def greeting : List Turn :=
  [{ left := false, main := false, hands := true, now := 10 },
    { left := true, main := false, hands := true, now := 10 },
    { left := true, main := false, now := 20 },
    { left := true, main := true, input := some [104, 105] }, { left := true, main := true },
    { left := true, main := false, now := 20 }, { left := false, main := false, now := 20 },
    { left := false, main := false, hands := true, now := 30 },
    { left := false, main := false, now := 40 }, { left := false, main := true },
    { left := false, main := true }, { left := true, main := true, input := some [33, 10] },
    { left := true, main := true }]

theorem conveys_stdin_greeting :
    let pair := (machine (fun _ _ => True) (fun _ _ => True)).run (create SocketPair.opening)
      (play (create SocketPair.opening) greeting).1
    (pair.right.stdout = [104, 105] ∧ pair.left.toThread = [33, 10]) ∧
      Conveys pair.left pair.right ∧ Conveys pair.right pair.left :=
  ⟨by decide +kernel, conveys_stdin begins_opening
    (Machine.Admissible.reachable (admissible_play
      (fun _ _ _ _ => ⟨⟨trivial, trivial⟩, ⟨trivial, trivial⟩⟩) (by decide +kernel)))
    (by decide +kernel) (by decide +kernel)⟩

end HostPair
end Rchan
