import Rchan.Socket.Opening

namespace Rchan

/-!
# Two sockets and an IP network

The network may lose datagrams, hand them out late, again and in any order, flip a bit of
one, and mix in datagrams from elsewhere.  What a device reads is then a datagram that the
other device has been given, such a datagram with a bit flipped, or bytes from which the
filter takes no message.

The threads of the two sockets take their rounds in any order, each with any answers of its
system, as long as neither has thrown: what a thread has given to its device in a callback
that throws is not recorded.
-/

/-- What a network hands out that has been given some datagrams: one of them, or one with a
bit flipped. -/
def InTransit (datagrams : List (List Byte)) (bytes : List Byte) : Prop :=
  ∃ datagram ∈ datagrams, bytes = datagram ∨ ∃ position bit, position < datagram.length ∧ bit < 8 ∧
    bytes = flipBit datagram position bit

namespace MinnowSocket

variable {Address First Second : Type} [SocketAddress Address] [OverTun Address First]
  [OverTun Address Second]

/-- The answers to a device, in a network between it and another one. -/
structure Answers (socket : MinnowSocket First) (other : MinnowSocket Second) (kernel : Kernel) :
    Prop where
  whole : kernel.TakesWhole socket.device.tun.fd
  reads : ∀ bytes, kernel.read socket.device.tun.fd TCPOverIPv4OverTunFdAdapter.readSize = .ok bytes →
    InTransit other.device.datagrams bytes ∨
      ∀ after message, socket.device.toTCPOverIPv4Adapter.read bytes = .ok (after, message) →
        message = none

/-- What arrives over the network is what a message of the other peer has been carried as. -/
theorem Answers.carries {socket : MinnowSocket First} {other : MinnowSocket Second} {kernel : Kernel}
    (answers : Answers socket other kernel) (sound : other.Sound) {msg : TCPMessage}
    (arrives : socket.device.Arrives kernel msg) : other.tcp.Carries msg := by
  rcases arrives with ⟨bytes, filter, answered, filtered⟩
  rcases answers.reads bytes answered with ⟨datagram, given, transit⟩ | foreign
  · rcases sound.datagrams datagram given with ⟨message, sent, sender, rfl⟩
    have bound := sound.bounded.sent message sent
    have payload : TCPConfig.maxPayloadSize = 1000 := rfl
    have buffer : TCPOverIPv4Adapter.kReadBufferSize = 16384 := rfl
    have size : message.sender.payload.length + 20 ≤ TCPOverIPv4Adapter.kReadBufferSize := by omega
    rcases transit with rfl | ⟨position, bit, inside, range, rfl⟩
    · exact ⟨message, sent, sender.read_datagramOf _ size filtered⟩
    · rw [sender.read_flipBit _ size inside range] at filtered
      split at filtered
      · exact ⟨message, sent, sender.read_datagramOf _ size filtered⟩
      · cases filtered
  · cases foreign filter (some msg) filtered

/-- An inbound stream is finished when all that the other owner has written has been delivered. -/
theorem whole_of_finished {isn : Wrap32} {source : MinnowSocket First} {target : MinnowSocket Second}
    (link : Link isn source.tcp target.tcp) (sourceSound : source.Sound) (targetSound : target.Sound)
    (isFinished : target.inbound.isFinished = true) :
    source.outboundShutdown = true ∧ target.toOwner = source.fromOwner := by
  have ended := (ByteStream.WellFormed.isFinished_iff link.received.wellFormed).mp isFinished
  have empty : target.tcp.peer.receiver.reassembler.output.peek = [] := ended.2
  rcases link.delivers.complete ended.1 with ⟨closed, all⟩
  rw [empty, List.append_nil] at all
  exact ⟨sourceSound.closed.symm.trans closed,
    targetSound.delivered.symm.trans (all.trans sourceSound.written)⟩

/-- An inbound stream that has been shut down without error has delivered all that the other
owner has written, and that owner has finished writing. -/
def Ended (source : MinnowSocket First) (target : MinnowSocket Second) : Prop :=
  target.inboundShutdown = true → target.inbound.hasError = true ∨
    source.outboundShutdown = true ∧ target.toOwner = source.fromOwner

/-- What two owners can rely on in one direction.  The bytes that one of them has received are
the first ones that the other has written; they end where these end, unless there is an error;
and what is missing of them waits in one of the two sockets. -/
structure Relays (source : MinnowSocket First) (target : MinnowSocket Second) : Prop where
  inOrder : target.toOwner <+: source.fromOwner
  ended : Ended source target
  waiting : ∃ waiting, source.fromOwner = target.toOwner ++ target.inbound.peek ++ waiting ∧
    waiting <:+ source.tcp.peer.sender.outstandingMsg.flatMap TCPSenderMessage.payload ++
      source.outbound.peek

end MinnowSocket

namespace MinnowRun

open MinnowSocket (Answers Ended Kept Relays Served)

variable {Address First Second : Type} [SocketAddress Address] [OverTun Address First]
  [OverTun Address Second] {isn otherIsn : Wrap32} {run : MinnowRun First} {other : MinnowRun Second}
  {kernel : Kernel}

/-- The socket is in step with its owner. -/
def InStep (run : MinnowRun First) : Prop := ∃ tun thread, run.Between (Kept tun thread)

theorem InStep.sound (inStep : run.InStep) : run.socket.Sound := by
  rcases inStep with ⟨tun, thread, between⟩
  exact between.kept.sound

theorem InStep.abort (inStep : run.InStep) : InStep { run with abort := true } := by
  rcases inStep with ⟨tun, thread, between⟩
  exact ⟨tun, thread, between.abort⟩

/-- What a round of a socket does, told in terms of the other peer. -/
theorem InStep.round_serves (inStep : run.InStep) (sound : other.socket.Sound)
    (answers : Answers run.socket other.socket kernel) (now : Nat) :
    ∃ tun thread, (run.round kernel now).Between
      (Served tun thread other.socket.tcp.Carries (∃ fd, kernel.Fails fd) run.socket) := by
  rcases inStep with ⟨tun, thread, between⟩
  have served := MinnowRun.round_serves between
    (by rw [← between.kept.tunFd]; exact answers.whole) now
  exact ⟨tun, thread, served.mono fun kept => kept.mono fun msg => answers.carries sound⟩

/-- A round keeps a socket in step, and the owner's bytes are not taken back. -/
theorem InStep.round (inStep : run.InStep) (otherInStep : other.InStep)
    (answers : Answers run.socket other.socket kernel) (now : Nat) :
    (run.round kernel now).InStep ∧
      run.socket.fromOwner.length ≤ (run.round kernel now).socket.fromOwner.length := by
  rcases inStep.round_serves otherInStep.sound answers now with ⟨tun, thread, served⟩
  refine ⟨⟨tun, thread, served.mono fun kept => kept.toKept⟩, ?_⟩
  rw [← inStep.sound.written, ← served.kept.sound.written]
  exact PeerRun.written_length_le served.kept.driving

/-- Both sockets are in step with their owners, and both directions are links. -/
structure Joined (isn otherIsn : Wrap32) (run : MinnowRun First) (other : MinnowRun Second) :
    Prop where
  near : run.InStep
  far : other.InStep
  forth : Link isn run.socket.tcp other.socket.tcp
  back : Link otherIsn other.socket.tcp run.socket.tcp
  nearEnd : Ended other.socket run.socket
  farEnd : Ended run.socket other.socket

theorem Joined.symm (joined : Joined isn otherIsn run other) : Joined otherIsn isn other run where
  near := joined.far
  far := joined.near
  forth := joined.back
  back := joined.forth
  nearEnd := joined.farEnd
  farEnd := joined.nearEnd

/-- One socket takes a round. -/
theorem Joined.round (joined : Joined isn otherIsn run other)
    (answers : Answers run.socket other.socket kernel) (now : Nat)
    (few : (run.round kernel now).socket.fromOwner.length < 2 ^ 31)
    (fewOther : other.socket.fromOwner.length < 2 ^ 31) :
    Joined isn otherIsn (run.round kernel now) other := by
  rcases joined.near.round_serves joined.far.sound answers now with ⟨tun, thread, served⟩
  have driving := served.kept.driving
  have sound : (run.round kernel now).socket.Sound := served.kept.sound
  rw [← sound.written] at few
  rw [← joined.far.sound.written] at fewOther
  have forth := joined.forth.source_driven driving few
  have back := joined.back.target_driven driving fewOther
  refine {
    near := ⟨tun, thread, served.mono fun kept => kept.toKept⟩
    far := joined.far
    forth := forth
    back := back
    nearEnd := ?_
    farEnd := ?_ }
  · intro shut
    rcases served.kept.shut shut with before | ended
    · rcases joined.nearEnd before with failed | ⟨closed, all⟩
      · exact Or.inl (PeerRun.inbound_error driving failed)
      · refine Or.inr ⟨closed, ?_⟩
        have grown := PeerRun.delivered_prefix driving
        rw [joined.near.sound.delivered, all, sound.delivered] at grown
        have most := (List.prefix_append _ _).trans back.delivers.isPrefix
        rw [sound.delivered, joined.far.sound.written] at most
        exact most.eq_of_length_le grown.length_le
    · rcases Bool.or_eq_true_iff.mp ended with isFinished | failed
      · exact Or.inr (MinnowSocket.whole_of_finished back joined.far.sound sound isFinished)
      · exact Or.inl failed
  · intro shut
    rcases joined.farEnd shut with failed | ⟨closed, all⟩
    · exact Or.inl failed
    · have still := PeerRun.written_eq_of_closed driving (joined.near.sound.closed.trans closed)
      refine Or.inr ⟨sound.closed.symm.trans still.2, all.trans ?_⟩
      rw [← joined.near.sound.written, ← sound.written, still.1]

theorem Joined.relays (joined : Joined isn otherIsn run other) : Relays run.socket other.socket := by
  rcases joined.forth.exists_forgetsNothing with ⟨removed, forgets⟩
  have isPrefix := joined.forth.delivers.isPrefix
  have received := forgets.received
  have written := forgets.written
  rw [joined.far.sound.delivered] at isPrefix received
  rw [joined.near.sound.written] at isPrefix written
  refine {
    inOrder := (List.prefix_append _ _).trans isPrefix
    ended := joined.farEnd
    waiting := ?_ }
  rcases isPrefix with ⟨waiting, all⟩
  refine ⟨waiting, all.symm, ?_⟩
  rcases received with ⟨behind, reached⟩
  have both : removed.flatMap TCPSenderMessage.payload ++ (behind ++ waiting) =
      removed.flatMap TCPSenderMessage.payload ++
        (run.socket.tcp.peer.sender.outstandingMsg.flatMap TCPSenderMessage.payload ++
          run.socket.tcp.peer.sender.input.peek) := by
    rw [← List.append_assoc, reached, ← List.append_assoc]
    exact all.trans written.symm
  exact ⟨behind, List.append_cancel_left both⟩

end MinnowRun

/-! ## Runs of two sockets -/

structure SocketPair (First Second : Type) where
  left : MinnowRun First
  right : MinnowRun Second

/-- One of the two threads takes a round, or its owner stops it. -/
inductive PairOp where
  | left (op : MinnowOp)
  | right (op : MinnowOp)

namespace SocketPair

open MinnowRun (Joined Opens Unfailed)
open MinnowSocket (Answers Kept Relays)

variable {Address First Second : Type} [SocketAddress Address] [OverTun Address First]
  [OverTun Address Second]

def step (pair : SocketPair First Second) : PairOp → SocketPair First Second
  | .left op => { pair with left := pair.left.step op }
  | .right op => { pair with right := pair.right.step op }

/-- A round of `run` in a network that `other` shares with it. -/
def Allowed (system : MinnowRun First → Kernel → Prop) (run : MinnowRun First)
    (other : MinnowRun Second) : MinnowOp → Prop
  | .round kernel _ => run.Unfailed ∧ other.Unfailed ∧ Answers run.socket other.socket kernel ∧
      system run kernel
  | .abort => True

/-- The rounds of the two threads in any order, on systems whose answers meet conditions. -/
def machine (leftSystem : MinnowRun First → Kernel → Prop)
    (rightSystem : MinnowRun Second → Kernel → Prop) : Machine (SocketPair First Second) PairOp where
  allowed pair
    | .left op => Allowed leftSystem pair.left pair.right op
    | .right op => Allowed rightSystem pair.right pair.left op
  step := step

variable {leftSystem : MinnowRun First → Kernel → Prop}
  {rightSystem : MinnowRun Second → Kernel → Prop} {leftCfg rightCfg : TCPConfig}
  {start pair : SocketPair First Second}

/-- The larger of the two numbers of bytes that have been read from the owners. -/
def writtenLength (pair : SocketPair First Second) : Nat :=
  max pair.left.socket.fromOwner.length pair.right.socket.fromOwner.length

/-- Both sockets stay in step with their owners. -/
theorem inStep_of_reachable (opensLeft : Opens leftCfg start.left)
    (opensRight : Opens rightCfg start.right)
    (reached : (machine leftSystem rightSystem).Reachable start pair) :
    pair.left.InStep ∧ pair.right.InStep := by
  refine reached.invariant (fun pair => pair.left.InStep ∧ pair.right.InStep)
    ⟨⟨_, _, opensLeft.begun.between⟩, ⟨_, _, opensRight.begun.between⟩⟩ ?_
  rintro pair op ⟨left, right⟩ allowed
  cases op with
  | left op =>
      cases op with
      | abort => exact ⟨left.abort, right⟩
      | round kernel now =>
          have answers : Answers pair.left.socket pair.right.socket kernel := allowed.2.2.1
          exact ⟨(left.round right answers now).1, right⟩
  | right op =>
      cases op with
      | abort => exact ⟨left, right.abort⟩
      | round kernel now =>
          have answers : Answers pair.right.socket pair.left.socket kernel := allowed.2.2.1
          exact ⟨left, (right.round left answers now).1⟩

/-- Two sockets before their first rounds. -/
theorem joined_start (smallLeft : Connection.CapacitiesSmall leftCfg)
    (smallRight : Connection.CapacitiesSmall rightCfg) (opensLeft : Opens leftCfg start.left)
    (opensRight : Opens rightCfg start.right) :
    Joined leftCfg.isn rightCfg.isn start.left start.right := by
  have left := opensLeft.begun
  have right := opensRight.begun
  have few : ∀ {cfg : TCPConfig} {Adapt : Type} [OverTun Address Adapt] {run : MinnowRun Adapt},
      run.Begun cfg → run.socket.tcp.written.length < 2 ^ 31 := by
    intro cfg Adapt overTun run begun
    rw [begun.between.kept.sound.written, begun.written]
    decide
  have forth := ((Link.start smallLeft.send smallRight.recv).source_driven
    (PeerRun.driven_mono (fun _ never => never.elim) left.driving) (few left)).target_driven
    (PeerRun.driven_mono (fun _ never => never.elim) right.driving) (few left)
  have back := ((Link.start smallRight.send smallLeft.recv).source_driven
    (PeerRun.driven_mono (fun _ never => never.elim) right.driving) (few right)).target_driven
    (PeerRun.driven_mono (fun _ never => never.elim) left.driving) (few right)
  exact {
    near := ⟨_, _, left.between⟩
    far := ⟨_, _, right.between⟩
    forth := forth
    back := back
    nearEnd := fun shut => by
      rw [left.inboundOpen] at shut
      cases shut
    farEnd := fun shut => by
      rw [right.inboundOpen] at shut
      cases shut }

theorem joined_of_reachable (smallLeft : Connection.CapacitiesSmall leftCfg)
    (smallRight : Connection.CapacitiesSmall rightCfg) (opensLeft : Opens leftCfg start.left)
    (opensRight : Opens rightCfg start.right)
    (reached : (machine leftSystem rightSystem).Reachable start pair)
    (few : pair.writtenLength < 2 ^ 31) :
    Joined leftCfg.isn rightCfg.isn pair.left pair.right := by
  refine reached.invariant_below
    (fun pair => Joined leftCfg.isn rightCfg.isn pair.left pair.right) writtenLength (2 ^ 31) ?_
    (joined_start smallLeft smallRight opensLeft opensRight) ?_ few
  · intro pair op origin allowed
    have inStep := inStep_of_reachable opensLeft opensRight origin
    cases op with
    | left op =>
        cases op with
        | abort => exact Nat.le_refl _
        | round kernel now =>
            have answers : Answers pair.left.socket pair.right.socket kernel := allowed.2.2.1
            exact max_le_max (inStep.1.round inStep.2 answers now).2 (Nat.le_refl _)
    | right op =>
        cases op with
        | abort => exact Nat.le_refl _
        | round kernel now =>
            have answers : Answers pair.right.socket pair.left.socket kernel := allowed.2.2.1
            exact max_le_max (Nat.le_refl _) (inStep.2.round inStep.1 answers now).2
  · intro pair op _ joined allowed below
    have bounds := max_lt_iff.mp below
    cases op with
    | left op =>
        cases op with
        | abort => exact { joined with near := joined.near.abort }
        | round kernel now =>
            have answers : Answers pair.left.socket pair.right.socket kernel := allowed.2.2.1
            exact joined.round answers now bounds.1 bounds.2
    | right op =>
        cases op with
        | abort => exact { joined with far := joined.far.abort }
        | round kernel now =>
            have answers : Answers pair.right.socket pair.left.socket kernel := allowed.2.2.1
            exact (joined.symm.round answers now bounds.2 bounds.1).symm

/-- Over any network two sockets relay the bytes of their owners in order, without loss or
repetition, and an owner sees a clean end only behind all that the other one has written. -/
theorem relays_between_owners (smallLeft : Connection.CapacitiesSmall leftCfg)
    (smallRight : Connection.CapacitiesSmall rightCfg) (opensLeft : Opens leftCfg start.left)
    (opensRight : Opens rightCfg start.right)
    (reached : (machine leftSystem rightSystem).Reachable start pair)
    (fewLeft : pair.left.socket.fromOwner.length < 2 ^ 31)
    (fewRight : pair.right.socket.fromOwner.length < 2 ^ 31) :
    Relays pair.left.socket pair.right.socket ∧ Relays pair.right.socket pair.left.socket := by
  have joined := joined_of_reachable smallLeft smallRight opensLeft opensRight reached
    (max_lt fewLeft fewRight)
  exact ⟨joined.relays, joined.symm.relays⟩

/-! ## An example -/

/-- A system whose device hands out the last of some datagrams, and whose owner has written
some bytes, or closed, and takes what it is given. -/
def handing (datagrams : List (List Byte)) (owner : Option (List Byte)) : Kernel :=
  { Kernel.eager (owner.getD []) with
    poll := fun fds => .ok
      { count := 1
        revents := fun index =>
          let device := fds[index]?.map PollFd.fd == some 7
          { pollin := if device then !datagrams.isEmpty else owner.isSome, pollout := true } }
    read := fun fd size =>
      if fd = 7 then
        match datagrams.getLast? with
        | some datagram => .ok datagram
        | none => .error .eagain
      else .ok ((owner.getD []).take size) }

theorem answers_handing {socket : MinnowSocket First} {other : MinnowSocket Second}
    {datagrams : List (List Byte)} (owner : Option (List Byte)) (number : socket.device.tun.fd = 7)
    (given : ∀ datagram ∈ datagrams, datagram ∈ other.device.datagrams) :
    Answers socket other (handing datagrams owner) where
  whole := fun _ _ answered => (Except.ok.inj answered).symm
  reads := by
    intro bytes answered
    rw [number] at answered
    simp only [handing, if_true] at answered
    split at answered
    · rename_i datagram last
      rw [← Except.ok.inj answered]
      exact Or.inl ⟨datagram, given datagram (List.mem_of_getLast? last), Or.inl rfl⟩
    · cases answered

abbrev Device := TCPOverIPv4OverTunFdAdapter SockaddrIn

/-- A round of one of the two sockets. -/
structure Turn where
  left : Bool
  /-- The network hands it the last datagram of the other one. -/
  hands : Bool
  owner : Option (List Byte) := none
  now : Nat

namespace Turn

variable (turn : Turn) (pair : SocketPair Device Device)

def op : PairOp :=
  let other := if turn.left then pair.right else pair.left
  let datagrams := if turn.hands then other.socket.device.datagrams else []
  let op : MinnowOp := .round (handing datagrams turn.owner) turn.now
  if turn.left then .left op else .right op

/-- Neither thread has thrown, and both devices have the number that `handing` knows. -/
def possible (pair : SocketPair Device Device) : Bool :=
  let possible (run : MinnowRun Device) : Bool :=
    run.socket.device.tun.fd == 7 &&
      match run.phase with
      | .finished (.error _) => false
      | _ => true
  possible pair.left && possible pair.right

end Turn

/-- The rounds of some turns, and whether all are possible. -/
def play (pair : SocketPair Device Device) : List Turn → List PairOp × Bool
  | [] => ([], true)
  | turn :: later =>
      let rest := play (pair.step (turn.op pair)) later
      (turn.op pair :: rest.1, Turn.possible pair && rest.2)

theorem Turn.allowed {system otherSystem : MinnowRun Device → Kernel → Prop} (turn : Turn)
    {pair : SocketPair Device Device} (possible : Turn.possible pair = true)
    (systems : ∀ run datagrams owner, system run (handing datagrams owner) ∧
      otherSystem run (handing datagrams owner)) :
    (machine system otherSystem).allowed pair (turn.op pair) := by
  have parts := Bool.and_eq_true_iff.mp possible
  have unfailed : ∀ run : MinnowRun Device, (match run.phase with
      | .finished (.error _) => false
      | _ => true) = true → run.Unfailed := by
    intro run still failure failed
    rw [failed] at still
    cases still
  have left := Bool.and_eq_true_iff.mp parts.1
  have right := Bool.and_eq_true_iff.mp parts.2
  have given : ∀ other : List (List Byte), ∀ datagram ∈ (if turn.hands then other else []),
      datagram ∈ other := by
    intro other datagram member
    split at member
    · exact member
    · cases member
  unfold Turn.op
  cases turn.left with
  | true => exact ⟨unfailed _ left.2, unfailed _ right.2,
      answers_handing _ (beq_iff_eq.mp left.1) (given _), (systems _ _ _).1⟩
  | false => exact ⟨unfailed _ right.2, unfailed _ left.2,
      answers_handing _ (beq_iff_eq.mp right.1) (given _), (systems _ _ _).2⟩

theorem admissible_play {system otherSystem : MinnowRun Device → Kernel → Prop}
    {pair : SocketPair Device Device} {script : List Turn}
    (systems : ∀ run datagrams owner, system run (handing datagrams owner) ∧
      otherSystem run (handing datagrams owner))
    (possible : (play pair script).2 = true) :
    (machine system otherSystem).Admissible pair (play pair script).1 := by
  induction script generalizing pair with
  | nil => trivial
  | cons turn later ih =>
      have parts := Bool.and_eq_true_iff.mp possible
      exact ⟨turn.allowed parts.1 systems, ih parts.2⟩

/-- What `connect` returns for a client of the example. -/
def connecting : Except Failure (MinnowRun Device) :=
  MinnowRun.connect { fd := 8 } { fd := 9 } (MinnowRun.deviceOf TCPOverIPv4Adapter.client)
    (Connection.shortConfig ⟨100⟩) TCPOverIPv4Adapter.client.config (.eager []) 0

/-- What `listen_and_accept` returns for a server of the example. -/
def listening : Except Failure (MinnowRun Device) :=
  MinnowRun.listenAndAccept { fd := 8 } { fd := 9 } (MinnowRun.deviceOf TCPOverIPv4Adapter.server)
    (Connection.shortConfig ⟨4294967295⟩) TCPOverIPv4Adapter.server.config 0

theorem eq_ok_get {Value : Type} {call : Except Failure Value} (returns : call.toOption.isSome = true) :
    call = .ok (call.toOption.get returns) := by
  cases call with
  | error failure => cases returns
  | ok value => rfl

theorem connecting_returns : connecting.toOption.isSome = true := by decide +kernel

theorem listening_returns : listening.toOption.isSome = true := by decide +kernel

/-- A client and a server before their first rounds. -/
def opening : SocketPair Device Device where
  left := connecting.toOption.get connecting_returns
  right := listening.toOption.get listening_returns

theorem opens_connecting : Opens (Connection.shortConfig ⟨100⟩) opening.left := by
  have returned := eq_ok_get connecting_returns
  unfold connecting at returned
  exact .connect rfl rfl (MinnowRun.eager_serves [] 7 8).whole returned

theorem opens_listening : Opens (Connection.shortConfig ⟨4294967295⟩) opening.right := by
  have returned := eq_ok_get listening_returns
  unfold listening at returned
  exact .listen rfl rfl returned

/-- The client connects, its owner writes three bytes, and the server's owner gets them. -/
def transfer : List Turn :=
  [{ left := false, hands := true, now := 10 }, { left := true, hands := true, now := 10 },
    { left := true, hands := false, now := 20 },
    { left := true, hands := false, owner := some [1, 2, 3], now := 20 },
    { left := false, hands := false, now := 20 }, { left := false, hands := true, now := 30 },
    { left := false, hands := false, now := 40 }]

/-- The rule over the transfer, at whose end the server's owner has three bytes. -/
theorem relays_between_owners_transfer :
    let pair := (machine (fun _ _ => True) (fun _ _ => True)).run opening (play opening transfer).1
    pair.right.socket.toOwner = [1, 2, 3] ∧ Relays pair.left.socket pair.right.socket ∧
      Relays pair.right.socket pair.left.socket :=
  ⟨by decide +kernel, relays_between_owners ⟨by decide, by decide⟩ ⟨by decide, by decide⟩
    opens_connecting opens_listening
    (Machine.Admissible.reachable (admissible_play (fun _ _ _ => ⟨trivial, trivial⟩)
      (by decide +kernel)))
    (by decide +kernel) (by decide +kernel)⟩

end SocketPair
end Rchan
