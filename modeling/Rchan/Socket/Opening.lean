import Rchan.Socket.Service

namespace Rchan

/-!
# The beginning of a connection

`connect` pushes before its loop and expects that one number is then in flight, the one
of SYN; `listen_and_accept` only sets the adapter listening.  Either way the socket
begins in step with its owner, over a device that holds no datagram but that of the SYN.
-/

namespace PeerRun

/-- The first push of a peer whose owner has not written anything sends SYN and no more. -/
theorem outstanding_connect (cfg : TCPConfig) :
    ((start cfg).step .push).peer.sender.outstandingMsg = [{ seqno := cfg.isn, syn := true }] := by
  have message : (start cfg).peer.sender.nextMessage = { seqno := cfg.isn, syn := true } := by
    simp [start, TCPPeer.create, TCPSender.create, TCPSender.nextMessage, TCPSender.nextDraft, draft,
      ByteStream.create, ByteStream.peek, ByteStream.pop, ByteStream.isFinished, ByteStream.hasError]
  have sender : ((start cfg).step .push).peer.sender = (start cfg).peer.sender.push.1 :=
    (start cfg).peer.push_sender
  have nothing : (start cfg).peer.sender.nextDraft.input.bytes = [] :=
    List.length_eq_zero_iff.mp (Nat.le_zero.mp (TCPSender.draft_length_le _ _ _ _ _))
  have last : ∀ sender : TCPSender, sender.input.bytes = [] → ¬ sender.pushAgain = true := by
    intro sender empty
    simp [TCPSender.pushAgain, roomAndData, ByteStream.peek, empty]
  rw [sender, TCPSender.push_unfold]
  rcases (start cfg).peer.sender.pushOnce_cases with ⟨-, step⟩ | ⟨unsent, -⟩
  · rw [step, message]
    split
    · rename_i again
      exact absurd again (last _ nothing)
    · rfl
  · rw [message] at unsent
    cases unsent

theorem inFlight_connect (cfg : TCPConfig) :
    ((start cfg).step .push).peer.sender.sequenceNumbersInFlight = 1 := by
  have isn : ((start cfg).step .push).peer.sender.isn = cfg.isn := by
    have sender : ((start cfg).step .push).peer.sender = (start cfg).peer.sender.push.1 :=
      (start cfg).peer.push_sender
    rw [sender, TCPSender.push_isn]
    rfl
  have first : cfg.isn.unwrap cfg.isn 0 = 0 := by
    have unwrapped := cfg.isn.unwrap_add 0
    rwa [Wrap32.add_zero] at unwrapped
  have next : (cfg.isn + 1).unwrap cfg.isn 0 = 1 := cfg.isn.unwrap_add_of_lt (by decide)
  rw [TCPSender.sequenceNumbersInFlight, outstanding_connect, isn]
  change Word.sub 64 ((cfg.isn + 1).unwrap cfg.isn 0) (cfg.isn.unwrap cfg.isn 0) = 1
  rw [first, next]
  rfl

end PeerRun

namespace MinnowRun

open MinnowSocket (Kept)

variable {Address Adapt : Type} [SocketAddress Address] [OverTun Address Adapt]
  {cfg : TCPConfig} {run : MinnowRun Adapt} {kernel : Kernel}

/-- A socket before its first round, over a device that has not been written to. -/
inductive Opens (cfg : TCPConfig) : MinnowRun Adapt → Prop where
  | connect {owner threadData : FDWrapper} {adapter : Adapt} {cAd : FdAdapterConfig Address}
      {kernel : Kernel} {now : Nat} {run : MinnowRun Adapt}
      (fresh : (OverTun.device adapter).datagrams = []) (isOpen : threadData.closed = false)
      (whole : kernel.TakesWhole (OverTun.device adapter).tun.fd)
      (returned : MinnowRun.connect owner threadData adapter cfg cAd kernel now = .ok run) :
      Opens cfg run
  | listen {owner threadData : FDWrapper} {adapter : Adapt} {cAd : FdAdapterConfig Address}
      {now : Nat} {run : MinnowRun Adapt}
      (fresh : (OverTun.device adapter).datagrams = []) (isOpen : threadData.closed = false)
      (returned : listenAndAccept owner threadData adapter cfg cAd now = .ok run) : Opens cfg run

/-- What a socket begins with. -/
structure Begun (cfg : TCPConfig) (run : MinnowRun Adapt) : Prop where
  loop : run.loop = MinnowSocket.loop
  between : run.Between (Kept run.socket.device.tun run.socket.threadData.fd)
  driving : (PeerRun.driven (fun _ => False) False).Reachable (.start cfg) run.socket.tcp
  written : run.socket.fromOwner = []
  inboundOpen : run.socket.inboundShutdown = false
  unfailed : run.Unfailed

/-- The variables of a socket whose peer has only pushed or not even that. -/
theorem Begun.of_kept {run : MinnowRun Adapt} (loop : run.loop = MinnowSocket.loop)
    (sound : run.socket.Sound) (isOpen : run.socket.threadData.closed = false)
    (phase : ∀ outcome, run.phase ≠ .finished outcome)
    (driving : (PeerRun.driven (fun _ => False) False).Reachable (.start cfg) run.socket.tcp)
    (written : run.socket.fromOwner = []) (inboundOpen : run.socket.inboundShutdown = false) :
    run.Begun cfg where
  loop := loop
  between :=
    { others := by rw [loop]; rfl
      kept := by
        rw [loop]
        exact {
          known := fun _ => id
          ordered := by
            simp [MinnowSocket.loop, MinnowSocket.rules, MinnowSocket.receiveSegment,
              MinnowSocket.pushBytes, MinnowSocket.readInbound]
          sound
          tunSame := ⟨_, _, rfl⟩
          threadFd := rfl
          threadOpen := isOpen
          pushing := fun absent => absurd rfl (absent MinnowSocket.pushBytes (by
            simp [MinnowSocket.loop, MinnowSocket.rules])) }
      idle := fun finished => absurd finished (phase _) }
  driving := driving
  written := written
  inboundOpen := inboundOpen
  unfailed := fun failure => phase _

theorem sound_create (threadData : FDWrapper) {adapter : Adapt} (cTcp : TCPConfig)
    (cAd : FdAdapterConfig Address) (fresh : (OverTun.device adapter).datagrams = []) :
    (MinnowSocket.create threadData adapter cTcp cAd).Sound where
  written := rfl
  delivered := rfl
  closed := rfl
  bounded := PeerRun.bounded_start cTcp
  datagrams := by
    intro datagram member
    change datagram ∈ (OverTun.device (TCPDatagramAdapter.setConfig adapter cAd)).datagrams at member
    rw [OverTun.setConfig_eq, fresh] at member
    cases member

theorem Opens.begun (opens : Opens cfg run) : run.Begun cfg := by
  cases opens with
  | @connect owner threadData adapter cAd kernel now _ fresh isOpen whole returned =>
      rw [MinnowRun.connect, MinnowSocket.setUp_eq] at returned
      rcases Fallible.bind_eq_ok returned with ⟨loop, same, returned⟩
      rcases Fallible.bind_eq_ok returned with ⟨socket, pushing, returned⟩
      have start := sound_create threadData cfg cAd fresh
      have takes : kernel.TakesWhole
          (MinnowSocket.create threadData adapter cfg cAd).device.tun.fd := by
        change kernel.TakesWhole (OverTun.device (TCPDatagramAdapter.setConfig adapter cAd)).tun.fd
        rw [OverTun.setConfig_eq]
        exact whole
      have called := MinnowSocket.call_cases takes pushing
      have sound := start.call (show PeerOp.push.Transmitting from trivial) called
      rcases called.rest with ⟨datagramAdapter, rfl⟩
      split at returned
      · cases returned
      · rw [← Fallible.pure_eq_ok returned, ← Except.ok.inj same]
        have driving : (PeerRun.driven (fun _ => False) False).Reachable (.start cfg)
            ((PeerRun.start cfg).step .push) :=
          PeerRun.driven_step .start (show PeerRun.WritesBeforeClose _ .push from trivial)
            (fun msg impossible => by cases impossible)
        exact .of_kept rfl sound isOpen (fun _ impossible => by cases impossible) driving rfl rfl
  | @listen owner threadData adapter cAd now _ fresh isOpen returned =>
      rw [listenAndAccept, MinnowSocket.setUp_eq] at returned
      rcases Fallible.bind_eq_ok returned with ⟨loop, same, returned⟩
      have start := sound_create threadData cfg cAd fresh
      rw [← Fallible.pure_eq_ok returned, ← Except.ok.inj same]
      refine .of_kept rfl ?_ isOpen (fun _ impossible => by cases impossible) .start rfl rfl
      refine { start with datagrams := ?_ }
      intro datagram member
      change datagram ∈ (OverTun.device (TCPDatagramAdapter.setListening
        (MinnowSocket.create threadData adapter cfg cAd).datagramAdapter true)).datagrams at member
      rw [OverTun.setListening_eq] at member
      exact start.datagrams datagram member

/-- `connect` gets to its loop whatever the configuration: its check of the number in flight
never throws. -/
theorem connect_returns (owner threadData : FDWrapper) {adapter : Adapt} (cTcp : TCPConfig)
    (cAd : FdAdapterConfig Address) (now : Nat)
    (takes : ∀ buffer, buffer.length ≤ mtu →
      kernel.write (OverTun.device adapter).tun.fd buffer = .ok buffer.length) :
    ∃ run, MinnowRun.connect owner threadData adapter cTcp cAd kernel now = .ok run := by
  have device : (MinnowSocket.create threadData adapter cTcp cAd).device =
      { OverTun.device adapter with config := cAd } := OverTun.setConfig_eq adapter cAd
  have bounded : (MinnowSocket.create threadData adapter cTcp cAd).tcp.Bounded :=
    PeerRun.bounded_start cTcp
  rcases MinnowSocket.call_returns bounded (by rw [device]; exact takes) with
    ⟨datagramAdapter, pushing⟩
  rw [MinnowRun.connect, MinnowSocket.setUp_eq, Fallible.bind_of_ok rfl,
    Fallible.bind_of_ok pushing]
  split
  · rename_i unexpected
    exact absurd (PeerRun.inFlight_connect cTcp) unexpected
  · exact ⟨_, rfl⟩

/-! ## Runs that do not fail -/

/-- On a system that serves it, a socket never throws, and in particular never waits busily. -/
theorem never_fails (small : cfg.recvCapacity < 2 ^ 64) {start : MinnowRun Adapt}
    (opens : Opens cfg start)
    (reached : (machine fun run kernel => kernel.Serves run.socket.device.tun.fd run.owner.fd).Reachable
      start run) : run.Unfailed := by
  have begun := opens.begun
  have created : (PeerRun.start cfg).peer.receiver.reassembler.output.WellFormed :=
    ByteStream.wellFormed_create small
  suffices all : run.Between (Kept start.socket.device.tun start.socket.threadData.fd) ∧
      run.socket.inbound.WellFormed ∧ run.Unfailed from all.2.2
  refine reached.invariant
    (fun run => run.Between (Kept start.socket.device.tun start.socket.threadData.fd) ∧
      run.socket.inbound.WellFormed ∧ run.Unfailed)
    ⟨begun.between, PeerRun.inbound_wellFormed begun.driving created, begun.unfailed⟩ ?_
  rintro run op ⟨between, wellFormed, unfailed⟩ allowed
  cases op with
  | abort => exact ⟨between.abort, wellFormed, unfailed⟩
  | round kernel now =>
      have serves : kernel.Serves run.socket.device.tun.fd run.owner.fd := allowed
      rw [between.kept.tunFd] at serves
      have served := round_serves between serves.whole now
      exact ⟨served.mono fun kept => kept.toKept,
        PeerRun.inbound_wellFormed served.kept.driving wellFormed,
        round_unfailed between wellFormed serves unfailed now⟩

theorem eager_serves (data : List Byte) (tun owner : Nat) : (Kernel.eager data).Serves tun owner :=
  { Kernel.eager_truthful data with
    whole := fun _ _ answered => (Except.ok.inj answered).symm
    takes := fun _ _ => rfl
    leaves := ⟨_, rfl⟩ }

/-- A TUN device that no datagram has been written to. -/
def deviceOf (filter : TCPOverIPv4Adapter SockaddrIn) : TCPOverIPv4OverTunFdAdapter SockaddrIn :=
  { toTCPOverIPv4Adapter := filter, tun := { fd := 7 } }

/-- A server that is handed stray bytes, bytes of its owner, and stopped. -/
theorem never_fails_stray :
    ∃ start, listenAndAccept { fd := 8 } { fd := 9 } (deviceOf TCPOverIPv4Adapter.server)
        (Connection.shortConfig ⟨100⟩) TCPOverIPv4Adapter.server.config 0 = .ok start ∧
      ((machine fun run kernel => kernel.Serves run.socket.device.tun.fd run.owner.fd).run start
        [.round (.eager [1, 2, 3]) 10, .round (.eager []) 20, .abort, .round (.eager [4]) 30]).Unfailed :=
  ⟨_, rfl, never_fails (by decide) (.listen rfl rfl rfl)
    (Machine.Admissible.reachable ⟨eager_serves _ _ _, eager_serves _ _ _, trivial,
      eager_serves _ _ _, trivial⟩)⟩

end MinnowRun
end Rchan
