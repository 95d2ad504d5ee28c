import Rchan.Socket.Rounds

namespace Rchan

/-!
# Rounds that do not fail

On a system that keeps its promises, over a device that takes every datagram of a
connection, each rule that is served reads or writes its descriptor.  So the loop never
waits busily, and no round throws.  The filter of the adapter has its share in this:
whatever bytes the device hands out, it returns.
-/

/-! ## The filter returns -/

theorem IPv4Header.parse_returns (header : IPv4Header) (parser : Parser) :
    ∃ result, header.parse parser = .ok result := by
  unfold IPv4Header.parse
  generalize header.readFields parser = fields
  rcases fields with ⟨fields, next⟩
  dsimp only
  by_cases four : fields.ver = 4
  · rw [computeChecksum_eq four, if_neg (not_not_intro four)]
    generalize (if fields.hlen < 5 then next.setError else next) = checked
    split <;> exact ⟨_, rfl⟩
  · have failed : (if fields.hlen < 5 then next.setError.setError else next.setError).hasError =
        true := by
      split <;> rfl
    rw [if_pos four, if_pos failed]
    exact ⟨_, rfl⟩

theorem TCPOverIPv4Adapter.read_returns {Address : Type} [SocketAddress Address]
    (adapter : TCPOverIPv4Adapter Address) (bytes : List Byte) :
    ∃ result, adapter.read bytes = .ok result := by
  unfold TCPOverIPv4Adapter.read
  generalize scatter _ bytes = strs
  have parsed : ∃ dgram, IPv4Datagram.ofBuffers strs = .ok dgram := by
    rcases IPv4Header.parse_returns {} (Parser.ofBuffers strs) with ⟨result, returned⟩
    unfold IPv4Datagram.ofBuffers IPv4Datagram.parse
    rw [returned]
    exact ⟨_, rfl⟩
  rcases parsed with ⟨dgram, parsed⟩
  cases dgram with
  | none => exact ⟨_, adapter.readBuffers_of_none parsed⟩
  | some dgram => exact ⟨_, adapter.readBuffers_of_some parsed⟩

/-! ## The device takes the datagrams of a connection -/

/-- The size of the largest datagram of an Ethernet. -/
def mtu : Nat := 1500

/-- The system keeps its promises, to the device and to the owner as well. -/
structure Kernel.Serves (kernel : Kernel) (tun owner : Nat) : Prop extends kernel.Truthful where
  whole : kernel.TakesWhole tun
  takes : ∀ buffer, buffer.length ≤ mtu → kernel.write tun buffer = .ok buffer.length
  leaves : ∃ value, kernel.shutdown owner .rdwr = .ok value

namespace MinnowSocket

variable {Address Adapt : Type} [SocketAddress Address] [OverTun Address Adapt]
  {socket after before : MinnowSocket Adapt} {kernel : Kernel} {tun : FDWrapper}
  {thread owner : Nat}
  {arrives : TCPMessage → Prop} {fails : Prop}
  {remaining : List (FDRule (MinnowSocket Adapt))} {rule : FDRule (MinnowSocket Adapt)}

theorem transmit_returns {adapter : Adapt} {messages : List TCPMessage}
    (takes : ∀ buffer, buffer.length ≤ mtu →
      kernel.write (OverTun.device adapter).tun.fd buffer = .ok buffer.length)
    (bounded : ∀ message ∈ messages, message.sender.payload.length ≤ TCPConfig.maxPayloadSize) :
    ∃ result, transmit adapter messages kernel = .ok result := by
  suffices loop : ∃ result, transmit adapter messages kernel = .ok result ∧
      (OverTun.device result).tun.fd = (OverTun.device adapter).tun.fd from
    loop.imp fun _ => And.left
  · refine Fallible.foldlM_returns
      (fun state => (OverTun.device state).tun.fd = (OverTun.device adapter).tun.fd) ?_ rfl
    intro state message member same
    have size := bounded message member
    have limit : TCPConfig.maxPayloadSize = 1000 := rfl
    have long := (OverTun.device state).datagramOf_length message
    have answered := takes ((OverTun.device state).datagramOf message) (by
      rw [long, mtu]
      omega)
    rw [← same] at answered
    rcases OverTun.write_of_ok (TCPOverIPv4OverTunFdAdapter.write_of_ok answered rfl) with
      ⟨next, written⟩
    refine ⟨next, written, ?_⟩
    rcases OverTun.write_cases written with unchanged | device
    · rw [unchanged]
      exact same
    · rcases TCPOverIPv4OverTunFdAdapter.write_cases device with ⟨count, -, unchanged⟩
      rw [unchanged]
      exact same

theorem call_returns {op : PeerOp} (bounded : socket.tcp.Bounded)
    (takes : ∀ buffer, buffer.length ≤ mtu →
      kernel.write socket.device.tun.fd buffer = .ok buffer.length) :
    ∃ datagramAdapter, socket.call op kernel =
      .ok { socket with datagramAdapter, tcp := socket.tcp.step op } := by
  have sent : ∀ message ∈ (PeerRun.operate socket.tcp.peer op).2,
      message.sender.payload.length ≤ TCPConfig.maxPayloadSize :=
    fun message member => (bounded.step op).sent message (List.mem_append_right socket.tcp.sent member)
  rcases transmit_returns takes sent with ⟨adapter, transmitted⟩
  exact ⟨adapter, Fallible.bind_of_ok transmitted⟩

/-- After rule 1 one more read of the device has been counted. -/
theorem receiveSegment_reads (takes : kernel.TakesWhole socket.device.tun.fd)
    (called : receiveSegment.callback kernel socket = .ok after) :
    after.device.tun.readCount = socket.device.tun.readCount + 1 := by
  rcases Fallible.bind_eq_ok called with ⟨⟨adapter, seg⟩, reading, called⟩
  rcases Fallible.bind_eq_ok called with ⟨delivered, delivering, called⟩
  rcases OverTun.read_cases reading with ⟨found, device, -⟩
  have read := (TCPOverIPv4OverTunFdAdapter.read_cases device).tun
  have heard : (OverTun.device adapter).tun.readCount = socket.device.tun.readCount + 1 := by
    rw [read]
    rfl
  have given : delivered.device.tun.readCount = socket.device.tun.readCount + 1 := by
    unfold deliver at delivering
    split at delivering
    · have whole : kernel.TakesWhole (OverTun.device adapter).tun.fd := by
        rw [read]
        exact takes
      rcases (call_cases whole delivering).transmits.tun with ⟨writeCount, same⟩
      rw [same]
      exact heard
    · rw [← Fallible.pure_eq_ok delivering]
      exact heard
  rw [← Fallible.pure_eq_ok called, noteAcked]
  split <;> exact given

theorem receiveSegment_returns (serves : kernel.Serves tun.fd owner)
    (kept : Kept tun thread remaining socket) (offered : kernel.Offers tun.fd .incoming) :
    ∃ after, receiveSegment.callback kernel socket = .ok after := by
  rcases serves.reads tun.fd offered TCPOverIPv4OverTunFdAdapter.readSize (by decide) with
    ⟨bytes, answered, fits⟩
  rw [← kept.tunFd] at answered
  rcases socket.device.toTCPOverIPv4Adapter.read_returns bytes with ⟨⟨filter, found⟩, filtered⟩
  have device := TCPOverIPv4OverTunFdAdapter.read_of_ok answered fits filtered
  rcases OverTun.read_of_ok device with ⟨⟨adapter, seg⟩, reading⟩
  rcases OverTun.read_cases reading with ⟨found, same, -⟩
  have received := TCPOverIPv4OverTunFdAdapter.read_cases same
  have takes : ∀ buffer, buffer.length ≤ mtu →
      kernel.write (OverTun.device adapter).tun.fd buffer = .ok buffer.length := by
    have fd : (OverTun.device adapter).tun.fd = tun.fd := by
      rw [received.tun]
      exact kept.tunFd
    rw [fd]
    exact serves.takes
  have delivering : ∃ delivered, deliver { socket with datagramAdapter := adapter } seg kernel =
      .ok delivered := by
    cases seg with
    | none => exact ⟨_, rfl⟩
    | some msg =>
        have heard : PeerRun.Bounded ({ socket with datagramAdapter := adapter } :
          MinnowSocket Adapt).tcp := kept.sound.bounded
        rcases call_returns heard takes with ⟨datagramAdapter, called⟩
        exact ⟨_, called⟩
  rcases delivering with ⟨delivered, delivering⟩
  refine ⟨delivered.noteAcked, ?_⟩
  exact (Fallible.bind_of_ok reading).trans (Fallible.bind_of_ok delivering)

/-- Rule 2 returns, and one more read from the owner has been counted. -/
theorem pushBytes_returns (serves : kernel.Serves tun.fd owner)
    (kept : Kept tun thread remaining socket) (pushable : socket.Pushable)
    (offered : kernel.Offers thread .incoming) :
    ∃ after, pushBytes.callback kernel socket = .ok after ∧
      after.threadData.readCount = socket.threadData.readCount + 1 := by
  rcases serves.reads thread offered _ pushable.room with ⟨data, answered, fits⟩
  rw [← kept.threadFd] at answered
  have reading := FDWrapper.read_of_ok pushable.room answered fits
  generalize read : socket.threadData.afterRead data = threadData at reading
  have counted : threadData.readCount = socket.threadData.readCount + 1 := by
    rw [← read]
    rfl
  have taken : Sound (takeFromOwner { socket with threadData } data) :=
    (kept.sound.withThread threadData).takeFromOwner fits
  have pushed : ∀ filled : MinnowSocket Adapt, filled.Sound → filled.device.tun.fd = tun.fd →
      filled.threadData = threadData → ∃ after, filled.call .push kernel = .ok after ∧
        after.threadData.readCount = socket.threadData.readCount + 1 := by
    intro filled sound fd same
    have takes := serves.takes
    rw [← fd] at takes
    rcases call_returns sound.bounded takes with ⟨datagramAdapter, returned⟩
    exact ⟨_, returned, (congrArg FDWrapper.readCount same).trans counted⟩
  have callback : pushBytes.callback kernel socket =
      (if threadData.eof then (takeFromOwner { socket with threadData } data).closeOutbound
        else takeFromOwner { socket with threadData } data).call .push kernel :=
    Fallible.bind_of_ok reading
  rw [callback]
  split
  · exact pushed _ taken.closeOutbound kept.tunFd rfl
  · exact pushed _ taken kept.tunFd rfl

/-- Rule 3 returns, and one more write to the owner has been counted, or two. -/
theorem readInbound_returns (serves : kernel.Serves tun.fd owner)
    (kept : Kept tun thread remaining socket) (wellFormed : socket.inbound.WellFormed)
    (interested : readInbound.interest socket = true) (offered : kernel.Offers thread .outgoing) :
    ∃ after, readInbound.callback kernel socket = .ok after ∧
      after.threadData.writeCount ≠ socket.threadData.writeCount := by
  have draining : ∃ drained, socket.drainInbound kernel = .ok drained ∧
      (drained = socket ∧ socket.inbound.bytesBuffered = 0 ∨
        drained.threadData = socket.threadData.registerWrite) := by
    unfold drainInbound
    split
    · rename_i some
      have nonempty : socket.inbound.peek ≠ [] := by
        intro empty
        rw [ByteStream.bytesBuffered, wellFormed.currlen_eq] at some
        exact some (List.length_eq_zero_iff.mpr empty)
      rcases serves.writes thread offered _ nonempty with ⟨written, answered, positive, fits⟩
      rw [← kept.threadFd] at answered
      rw [Fallible.bind_of_ok (FDWrapper.write_of_ok answered positive fits)]
      exact ⟨_, rfl, Or.inr rfl⟩
    · rename_i none
      exact ⟨_, rfl, Or.inl ⟨rfl, not_not.mp none⟩⟩
  rcases draining with ⟨drained, draining, moved⟩
  have callback : readInbound.callback kernel socket = _ := Fallible.bind_of_ok draining
  rw [callback]
  split
  · rcases serves.shutdowns drained.threadData.fd with ⟨value, answered⟩
    rw [Fallible.bind_of_ok (FDWrapper.shutdown_of_ok answered)]
    refine ⟨_, rfl, ?_⟩
    rcases moved with ⟨rfl, -⟩ | moved
    · simp [FDWrapper.registerWrite]
    · simp [moved, FDWrapper.registerWrite, UInt32.add_assoc]
  · rename_i unfinished
    refine ⟨_, rfl, ?_⟩
    rcases moved with ⟨rfl, none⟩ | moved
    · simp only [readInbound, none, Bool.not_eq_true] at interested unfinished
      rw [unfinished] at interested
      cases interested
    · simp [moved, FDWrapper.registerWrite]

/-- Every rule that is ready and offered its event moves its descriptor on. -/
theorem serviceable (serves : kernel.Serves tun.fd owner) (wellFormed : before.inbound.WellFormed) :
    Serviceable kernel (number tun.fd thread) (Underway tun thread arrives fails before) Ready where
  polls := serves.polls
  checks := serves.sockets
  serves := by
    intro rules rule socket underway member isReady offered
    rcases mem_rules (underway.known rule member) with rfl | rfl | rfl
    · rcases receiveSegment_returns serves underway.toKept offered with ⟨after, called⟩
      have counted := receiveSegment_reads (underway.whole serves.whole) called
      refine ⟨after, called, Or.inl ?_⟩
      have same : ∀ socket : MinnowSocket Adapt,
          TCPDatagramAdapter.fd socket.datagramAdapter = socket.device.tun :=
        fun socket => OverTun.fd_eq socket.datagramAdapter
      simp only [FDRule.serviceCount, receiveSegment, same, counted]
      simp
    · rcases pushBytes_returns serves underway.toKept isReady offered with ⟨after, called, counted⟩
      refine ⟨after, called, Or.inl ?_⟩
      simp only [FDRule.serviceCount, pushBytes, counted]
      simp
    · have still := PeerRun.inbound_wellFormed underway.driving wellFormed
      rcases readInbound_returns serves underway.toKept still isReady offered with
        ⟨after, called, counted⟩
      exact ⟨after, called, Or.inl (Ne.symm counted)⟩

end MinnowSocket

/-! ## Runs of a socket -/

namespace MinnowRun

open MinnowSocket (Kept Served)

variable {Address Adapt : Type} [SocketAddress Address] [OverTun Address Adapt]
  {run : MinnowRun Adapt} {kernel : Kernel} {tun : FDWrapper} {thread : Nat}

/-- A socket under a system whose answers meet a condition. -/
def machine (answers : MinnowRun Adapt → Kernel → Prop) : Machine (MinnowRun Adapt) MinnowOp where
  allowed run
    | .round kernel _ => answers run kernel
    | .abort => True
  step := step

/-- The thread has not thrown anything. -/
def Unfailed (run : MinnowRun Adapt) : Prop :=
  ∀ failure, run.phase ≠ .finished (.error failure)

theorem Unfailed.leave (unfailed : run.Unfailed)
    (leaves : ∃ value, kernel.shutdown run.owner.fd .rdwr = .ok value) (now : Nat) :
    (run.leave kernel now).Unfailed := by
  intro failure
  unfold MinnowRun.leave
  split
  · rcases leaves with ⟨value, answered⟩
    rw [FDWrapper.shutdown, Fallible.bind_of_ok (FDWrapper.checkSystemCall_of_ok answered)]
    exact fun impossible => by cases impossible
  · exact unfailed failure
  · exact fun impossible => by cases impossible

/-- On a system that serves it, a round does not fail. -/
theorem round_unfailed (between : run.Between (Kept tun thread))
    (wellFormed : run.socket.inbound.WellFormed) (serves : kernel.Serves tun.fd run.owner.fd)
    (unfailed : run.Unfailed) (now : Nat) : (run.round kernel now).Unfailed := by
  have underway : MinnowSocket.Underway tun thread (run.socket.device.Arrives kernel)
      (∃ fd, kernel.Fails fd) run.socket run.loop.fdRules run.socket :=
    { between.kept with
      adapter := rfl
      driving := .start
      shut := rfl }
  unfold MinnowRun.round
  split
  · have discipline : Discipline kernel (MinnowSocket.number tun.fd thread)
        (MinnowSocket.Underway tun thread (run.socket.device.Arrives kernel)
          (∃ fd, kernel.Fails fd) run.socket)
        (Served tun thread (run.socket.device.Arrives kernel) (∃ fd, kernel.Fails fd) run.socket)
        MinnowSocket.Ready MinnowSocket.Idle := MinnowSocket.discipline serves.whole
    rcases EventLoop.waitNextEvent_returns discipline
      (MinnowSocket.serviceable serves wellFormed) between.others underway with
      ⟨⟨result, loop, socket⟩, returned⟩
    have kept := (EventLoop.waitNextEvent_keeps discipline
      (fun rule member => by rw [between.others] at member; cases member) underway returned).2.2.1
    rw [returned]
    dsimp only
    unfold MinnowRun.proceed
    split
    · have still : Unfailed { run with loop, socket } := unfailed
      exact still.leave serves.leaves now
    · unfold MinnowRun.elapse
      split
      · have takes := serves.takes
        rw [← kept.tunFd] at takes
        have ticks : ∃ datagramAdapter,
            socket.call (.tick (Word.sub 64 now run.baseTime)) kernel = .ok { socket with
              datagramAdapter
              tcp := socket.tcp.step (.tick (Word.sub 64 now run.baseTime)) } :=
          MinnowSocket.call_returns kept.sound.bounded takes
        rcases ticks with ⟨datagramAdapter, ticked⟩
        dsimp only
        rw [ticked]
        exact unfailed
      · exact unfailed
  · exact Unfailed.leave unfailed serves.leaves now

end MinnowRun
end Rchan
