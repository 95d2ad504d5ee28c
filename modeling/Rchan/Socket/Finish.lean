import Rchan.Socket.Network

namespace Rchan

/-!
# The end of a connection

A thread leaves its loop when there is nothing left to poll.  As long as nothing fails, the
device stays up, and the owner does not hang up before it has seen the end of the inbound
stream, the first rule is never erased, and the third one is not erased too early.  Then
nothing is left to poll only when the peer is no longer active and the owner has been given
everything.  No peer resets the connection on such systems, so the end is a clean one.
-/

/-- With nothing in flight nothing is kept for a retransmission. -/
theorem Outbound.outstanding_nil {isn : Wrap32} {source : PeerRun} (outbound : Outbound isn source)
    (quiet : source.peer.sender.sequenceNumbersInFlight = 0) :
    source.peer.sender.outstandingMsg = [] := by
  rcases outbound.simulated with ⟨reference, simulates, -⟩
  have sender : source.peer.sender = reference.sender.encode isn := simulates.sender
  rw [sender, ReferenceSender.encode_inFlight isn simulates.segmented simulates.small] at quiet
  have empty : reference.sender.outstanding = [] := by
    by_contra nonempty
    rcases List.exists_mem_of_ne_nil _ nonempty with ⟨segment, member⟩
    rcases simulates.segmented.queue with ⟨removed, split, -, -⟩
    have positive := simulates.segmented.positive segment
      (split ▸ List.mem_append_right removed member)
    have none := List.sum_eq_zero_iff_forall_eq_nat.mp quiet _
      (List.mem_map_of_mem (f := Segment.length) member)
    omega
  rw [sender]
  exact congrArg (List.map (Segment.wire isn)) empty

namespace MinnowSocket

open FDRule (Absent)

variable {Address Adapt : Type} [SocketAddress Address] [OverTun Address Adapt]
  {socket after before : MinnowSocket Adapt} {kernel : Kernel} {tun : FDWrapper} {thread : Nat}
  {arrives : TCPMessage → Prop} {fails : Prop}
  {remaining front later : List (FDRule (MinnowSocket Adapt))} {rule : FDRule (MinnowSocket Adapt)}

/-- A system on which nothing fails, whose device stays up, and whose owner does not hang up
before it has seen the end of the inbound stream. -/
structure Calm (socket : MinnowSocket Adapt) (kernel : Kernel) : Prop where
  sound : ¬ ∃ fd, kernel.Fails fd
  device : ¬ kernel.HangsUp socket.device.tun.fd
  owner : kernel.HangsUp socket.threadData.fd → socket.inboundShutdown = true

/-- The device can still be read. -/
def Readable (socket : MinnowSocket Adapt) : Prop :=
  socket.device.tun.eof = false ∧ socket.device.tun.closed = false

/-- Segments are received, and bytes are given to the owner until it has seen the end. -/
structure Unbroken (rules : List (FDRule (MinnowSocket Adapt))) (socket : MinnowSocket Adapt) :
    Prop where
  readable : socket.Readable
  receives : ¬ Absent 0 rules
  gives : Absent 2 rules → socket.inboundShutdown = true

namespace Unbroken

/-- A device on which calls are counted stays readable. -/
theorem step (unbroken : Unbroken remaining socket) (kept : Kept tun thread remaining socket)
    (keptAfter : Kept tun thread remaining after)
    (stays : socket.inboundShutdown = true → after.inboundShutdown = true) :
    Unbroken remaining after where
  readable := by
    rcases kept.tunSame with ⟨readCount, writeCount, same⟩
    rcases keptAfter.tunSame with ⟨readCount', writeCount', same'⟩
    have readable := unbroken.readable
    rw [Readable, same] at readable
    rw [Readable, same']
    exact readable
  receives := unbroken.receives
  gives := fun absent => stays (unbroken.gives absent)

/-- A rule other than the first is erased. -/
theorem erase (unbroken : Unbroken (front ++ rule :: later) socket) (other : rule.categoryId ≠ 0)
    (readable : after.Readable) (stays : socket.inboundShutdown = true → after.inboundShutdown = true)
    (behind : rule.categoryId = 2 → after.inboundShutdown = true) :
    Unbroken (front ++ later) after where
  readable := readable
  receives := fun absent => unbroken.receives ((absent.of_erase rule).resolve_left other)
  gives := fun absent => (absent.of_erase rule).elim behind fun gone => stays (unbroken.gives gone)

end Unbroken

/-- On a calm system no call of the event loop breaks a socket. -/
theorem unbroken_discipline (takes : kernel.TakesWhole tun.fd) (calm : before.Calm kernel)
    (begins : Kept tun thread remaining before) :
    Discipline kernel (number tun.fd thread)
      (fun rules socket => Underway tun thread (before.device.Arrives kernel)
        (∃ fd, kernel.Fails fd) before rules socket ∧ Unbroken rules socket)
      (fun rules socket => Served tun thread (before.device.Arrives kernel)
        (∃ fd, kernel.Fails fd) before rules socket ∧ Unbroken rules socket)
      Ready Idle := by
  have kinds : ∀ {rules : List (FDRule (MinnowSocket Adapt))} {socket : MinnowSocket Adapt}
      {front rule later}, rules = front ++ rule :: later →
      Underway tun thread (before.device.Arrives kernel) (∃ fd, kernel.Fails fd) before rules socket →
      rule = receiveSegment ∨ rule = pushBytes ∨ rule = readInbound := by
    rintro _ socket front rule later rfl underway
    exact mem_rules (underway.known rule (List.mem_append_right _ List.mem_cons_self))
  refine (discipline takes).strengthen Unbroken Unbroken ?_ ?_ ?_ ?_ ?_ fun _ unbroken => unbroken
  · intro front rule later socket underway _ requested
    rcases kinds rfl underway with rfl | rfl | rfl <;> cases requested
  · intro front rule later socket underway unbroken exhausted
    rcases kinds rfl underway with rfl | rfl | rfl
    · have device : TCPDatagramAdapter.fd socket.datagramAdapter = socket.device.tun :=
        OverTun.fd_eq socket.datagramAdapter
      have readable := unbroken.readable
      simp only [FDRule.exhausted, receiveSegment, device, readable.1, readable.2] at exhausted
      cases exhausted
    · exact unbroken.erase (show 1 ≠ 0 by decide) unbroken.readable id
        fun impossible => by cases impossible
    · simp only [FDRule.exhausted, readInbound, underway.threadOpen] at exhausted
      cases exhausted
  · intro front rule later socket underway unbroken hangsUp
    rcases kinds rfl underway with rfl | rfl | rfl
    · refine absurd ?_ calm.device
      rw [begins.tunFd]
      exact hangsUp.hangsUp
    · exact unbroken.erase (show 1 ≠ 0 by decide) unbroken.readable id
        fun impossible => by cases impossible
    · refine unbroken.erase (show 2 ≠ 0 by decide) unbroken.readable id fun _ => ?_
      refine underway.shut.trans (calm.owner ?_)
      rw [begins.threadFd]
      exact hangsUp.hangsUp
  · intro front rule later socket _ _ fails
    exact absurd ⟨_, fails⟩ calm.sound
  · intro rules rule socket after underway unbroken member isReady offered called
    have served := (discipline takes).served underway member isReady offered called
    exact unbroken.step underway.toKept served.toKept
      fun shut => served.stays (underway.shut.symm.trans shut)

/-- What a socket has come to when its rules are idle. -/
theorem finished_of_idle (kept : Kept tun thread remaining socket) (unbroken : Unbroken remaining socket)
    (clean : socket.tcp.Clean) (wellFormed : socket.inbound.WellFormed)
    (idle : ∀ rule ∈ remaining, Idle rule socket) :
    socket.tcp.peer.sender.sequenceNumbersInFlight = 0 ∧ socket.outbound.isFinished = true ∧
      socket.inboundShutdown = true := by
  have receives : receiveSegment ∈ remaining := by
    by_contra missing
    refine unbroken.receives fun rule member => ?_
    rcases mem_rules (kept.known rule member) with rfl | rfl | rfl
    · exact absurd member missing
    · exact (show 1 ≠ 0 by decide)
    · exact (show 2 ≠ 0 by decide)
  have quiet := socket.tcp.peer.finished_of_quiet clean.errors (idle _ receives)
  refine ⟨quiet.1, quiet.2.1, ?_⟩
  by_cases gives : readInbound ∈ remaining
  · have still : readInbound.interest socket = false := idle _ gives
    simp only [readInbound, Bool.or_eq_false_iff, bne_eq_false_iff_eq] at still
    have isFinished : socket.inbound.isFinished = true := by
      refine (ByteStream.WellFormed.isFinished_iff wellFormed).mpr ⟨quiet.2.2, ?_⟩
      exact List.length_eq_zero_iff.mp (wellFormed.currlen_eq.symm.trans still.1)
    have ended : socket.inboundOver = true := by
      rw [inboundOver, isFinished]
      rfl
    simpa [ended] using still.2
  · refine unbroken.gives fun rule member => ?_
    rcases mem_rules (kept.known rule member) with rfl | rfl | rfl
    · exact (show 0 ≠ 2 by decide)
    · exact (show 1 ≠ 2 by decide)
    · exact absurd member gives

end MinnowSocket

namespace MinnowRun

open MinnowSocket (Answers Calm Kept Served Unbroken)

variable {Address First Second : Type} [SocketAddress Address] [OverTun Address First]
  [OverTun Address Second] {run : MinnowRun First} {other : MinnowRun Second} {kernel : Kernel}

/-- The socket is in step with its owner, and unbroken. -/
def InOrder (run : MinnowRun First) : Prop :=
  ∃ tun thread, run.Between fun rules socket => Kept tun thread rules socket ∧ Unbroken rules socket

theorem InOrder.inStep (inOrder : run.InOrder) : run.InStep := by
  rcases inOrder with ⟨tun, thread, between⟩
  exact ⟨tun, thread, between.mono And.left⟩

/-- A round on a calm system. -/
theorem InOrder.round (inOrder : run.InOrder)
    (answers : Answers run.socket other.socket kernel) (calm : run.socket.Calm kernel) (now : Nat) :
    (run.round kernel now).InOrder := by
  rcases inOrder with ⟨tun, thread, between⟩
  have takes : kernel.TakesWhole tun.fd := by
    rw [← between.kept.1.tunFd]
    exact answers.whole
  have start : run.Between fun rules socket =>
      MinnowSocket.Underway tun thread (run.socket.device.Arrives kernel) (∃ fd, kernel.Fails fd)
        run.socket rules socket ∧ Unbroken rules socket :=
    { between with
      kept :=
        ⟨{ between.kept.1 with
            adapter := rfl
            driving := .start
            shut := rfl }, between.kept.2⟩ }
  refine ⟨tun, thread, (start.round (MinnowSocket.unbroken_discipline takes calm between.kept.1)
    ?_ now).mono fun kept => ⟨kept.1.toKept, kept.2⟩⟩
  rintro rules socket after t ⟨served, unbroken⟩ ticked
  have next := served.tick takes ticked
  rcases (MinnowSocket.call_cases (served.whole takes) ticked).rest with ⟨datagramAdapter, rfl⟩
  exact ⟨next, unbroken.step served.toKept next.toKept id⟩

/-- On systems on which nothing fails the peers stay clean. -/
theorem InStep.round_clean (inStep : run.InStep) (otherInStep : other.InStep)
    (answers : Answers run.socket other.socket kernel) (sound : ¬ ∃ fd, kernel.Fails fd)
    (clean : run.socket.tcp.Clean) (otherClean : other.socket.tcp.Clean) (now : Nat) :
    (run.round kernel now).socket.tcp.Clean := by
  rcases inStep.round_serves otherInStep.sound answers now with ⟨tun, thread, served⟩
  exact clean.driven served.kept.driving sound fun msg => otherClean.carries

/-- A socket before its first round, over a device that can be read. -/
theorem Begun.inOrder {cfg : TCPConfig} (begun : run.Begun cfg) (readable : run.socket.Readable) :
    run.InOrder := by
  have rules : run.loop.fdRules = MinnowSocket.rules := congrArg EventLoop.fdRules begun.loop
  refine ⟨_, _, begun.between.mono fun kept => ⟨kept, ?_⟩⟩
  rw [rules]
  exact {
    readable := readable
    receives := fun absent => absent MinnowSocket.receiveSegment (by simp [MinnowSocket.rules]) rfl
    gives := fun absent =>
      absurd rfl (absent MinnowSocket.readInbound (by simp [MinnowSocket.rules])) }

theorem Begun.clean {cfg : TCPConfig} (begun : run.Begun cfg) : run.socket.tcp.Clean :=
  (PeerRun.clean_start cfg).driven begun.driving id fun _ never => never.elim

end MinnowRun

namespace SocketPair

open MinnowRun (InOrder InStep Joined Opens)
open MinnowSocket (Answers Calm)

variable {Address First Second : Type} [SocketAddress Address] [OverTun Address First]
  [OverTun Address Second] {leftCfg rightCfg : TCPConfig} {start pair : SocketPair First Second}

/-- The left system is calm, and on the right one nothing fails. -/
def calmMachine : Machine (SocketPair First Second) PairOp :=
  machine (fun run kernel => run.socket.Calm kernel) (fun _ kernel => ¬ ∃ fd, kernel.Fails fd)

/-- The left socket is unbroken, and neither peer has an error. -/
structure Peaceful (pair : SocketPair First Second) : Prop where
  near : pair.left.InOrder
  far : pair.right.InStep
  nearClean : pair.left.socket.tcp.Clean
  farClean : pair.right.socket.tcp.Clean

theorem peaceful_of_reachable (opensLeft : Opens leftCfg start.left)
    (opensRight : Opens rightCfg start.right) (readable : start.left.socket.Readable)
    (reached : calmMachine.Reachable start pair) : pair.Peaceful := by
  have left := opensLeft.begun
  have right := opensRight.begun
  refine reached.invariant Peaceful
    ⟨left.inOrder readable, ⟨_, _, right.between⟩, left.clean, right.clean⟩ ?_
  rintro pair op peaceful allowed
  have near := peaceful.near.inStep
  have far := peaceful.far
  cases op with
  | left op =>
      cases op with
      | abort =>
          rcases peaceful.near with ⟨tun, thread, between⟩
          exact { peaceful with near := ⟨tun, thread, between.abort⟩ }
      | round kernel now =>
          have answers : Answers pair.left.socket pair.right.socket kernel := allowed.2.2.1
          have calm : pair.left.socket.Calm kernel := allowed.2.2.2
          exact { peaceful with
            near := peaceful.near.round answers calm now
            nearClean := near.round_clean far answers calm.sound peaceful.nearClean
              peaceful.farClean now }
  | right op =>
      cases op with
      | abort => exact { peaceful with far := far.abort }
      | round kernel now =>
          have answers : Answers pair.right.socket pair.left.socket kernel := allowed.2.2.1
          have sound : ¬ ∃ fd, kernel.Fails fd := allowed.2.2.2
          exact { peaceful with
            far := (far.round near answers now).1
            farClean := far.round_clean near answers sound peaceful.farClean
              peaceful.nearClean now }

/-- One socket has come to a clean end: its owner has been given all that the other one has
written, and the other peer has received all that has been written here. -/
structure CleanEnd (socket : MinnowSocket First) (other : MinnowSocket Second) : Prop where
  given : socket.toOwner = other.fromOwner
  closedThere : other.outboundShutdown = true
  received : other.toOwner ++ other.inbound.peek = socket.fromOwner
  closedHere : socket.outboundShutdown = true

/-- What the left socket has come to when its thread has ended by itself. -/
theorem Peaceful.finished (peaceful : pair.Peaceful)
    (wellFormed : pair.left.socket.inbound.WellFormed)
    (exited : pair.left.phase = .finished (.ok ())) (patient : pair.left.abort = false) :
    pair.left.socket.tcp.peer.sender.sequenceNumbersInFlight = 0 ∧
      pair.left.socket.outbound.isFinished = true ∧ pair.left.socket.inboundShutdown = true := by
  rcases peaceful.near with ⟨tun, thread, between⟩
  exact MinnowSocket.finished_of_idle between.kept.1 between.kept.2 peaceful.nearClean wellFormed
    (between.idle exited patient)

theorem Peaceful.cleanEnd (peaceful : pair.Peaceful)
    (joined : Joined leftCfg.isn rightCfg.isn pair.left pair.right)
    (exited : pair.left.phase = .finished (.ok ())) (patient : pair.left.abort = false) :
    CleanEnd pair.left.socket pair.right.socket := by
  rcases peaceful.finished joined.back.received.wellFormed exited patient with
    ⟨none, isFinished, shut⟩
  have outbound : pair.left.socket.outbound.closed = true ∧ pair.left.socket.outbound.peek = [] := by
    rcases joined.forth.outbound.simulated with ⟨reference, simulates, -⟩
    have sender : pair.left.socket.tcp.peer.sender = reference.sender.encode leftCfg.isn :=
      simulates.sender
    have wellFormed : pair.left.socket.outbound.WellFormed := by
      rw [MinnowSocket.outbound, sender]
      exact simulates.segmented.wellFormed
    exact (ByteStream.WellFormed.isFinished_iff wellFormed).mp isFinished
  have given : pair.right.socket.outboundShutdown = true ∧
      pair.left.socket.toOwner = pair.right.socket.fromOwner := by
    refine (joined.nearEnd shut).resolve_left fun failed => ?_
    have errors := peaceful.nearClean.errors
    rw [TCPPeer.hasErrors, Bool.or_eq_false_iff] at errors
    exact absurd (errors.1.symm.trans failed) Bool.false_ne_true
  refine {
    given := given.2
    closedThere := given.1
    received := ?_
    closedHere := joined.near.sound.closed.symm.trans outbound.1 }
  rcases joined.relays.waiting with ⟨waiting, all, inside⟩
  have empty : pair.left.socket.tcp.peer.sender.outstandingMsg = [] :=
    joined.forth.outbound.outstanding_nil none
  rw [empty, outbound.2] at inside
  rw [all, List.suffix_nil.mp inside, List.append_nil]

/-- On a calm system a thread that ends by itself ends the connection cleanly: no byte of
either owner is left behind in the network or in a buffer of this socket. -/
theorem clean_end_on_exit (smallLeft : Connection.CapacitiesSmall leftCfg)
    (smallRight : Connection.CapacitiesSmall rightCfg) (opensLeft : Opens leftCfg start.left)
    (opensRight : Opens rightCfg start.right) (readable : start.left.socket.Readable)
    (reached : calmMachine.Reachable start pair)
    (fewLeft : pair.left.socket.fromOwner.length < 2 ^ 31)
    (fewRight : pair.right.socket.fromOwner.length < 2 ^ 31)
    (exited : pair.left.phase = .finished (.ok ())) (patient : pair.left.abort = false) :
    CleanEnd pair.left.socket pair.right.socket :=
  (peaceful_of_reachable opensLeft opensRight readable reached).cleanEnd
    (joined_of_reachable smallLeft smallRight opensLeft opensRight reached (max_lt fewLeft fewRight))
    exited patient

theorem not_fails_handing (datagrams : List (List Byte)) (owner : Option (List Byte)) :
    ¬ ∃ fd, (handing datagrams owner).Fails fd := by
  rintro ⟨fd, pollfd, events, ⟨fds, answer, index, answered, -, rfl⟩, -, trouble⟩
  rw [← Except.ok.inj answered] at trouble
  cases trouble

theorem calm_handing (socket : MinnowSocket First) (datagrams : List (List Byte))
    (owner : Option (List Byte)) : socket.Calm (handing datagrams owner) := by
  have up : ∀ fd, ¬ (handing datagrams owner).HangsUp fd := by
    rintro fd ⟨pollfd, events, ⟨fds, answer, index, answered, -, rfl⟩, -, hangUp⟩
    rw [← Except.ok.inj answered] at hangUp
    cases hangUp
  exact ⟨not_fails_handing datagrams owner, up _, fun hangsUp => absurd hangsUp (up _)⟩

/-- After the transfer the client's owner closes, the server's owner answers with two bytes
and closes, and the client lingers until its thread ends. -/
def conversation : List Turn :=
  transfer ++
    [{ left := true, hands := false, owner := some [], now := 40 },
      { left := false, hands := true, now := 50 }, { left := false, hands := false, now := 60 },
      { left := true, hands := true, now := 60 },
      { left := false, hands := false, owner := some [4, 5], now := 70 },
      { left := true, hands := true, now := 70 }, { left := true, hands := false, now := 80 },
      { left := false, hands := true, now := 80 },
      { left := false, hands := false, owner := some [], now := 90 },
      { left := true, hands := true, now := 90 }, { left := true, hands := false, now := 20000 },
      { left := true, hands := false, now := 20010 }]

theorem eq_of_exited {phase : MinnowPhase}
    (exited : (match phase with | .finished (.ok ()) => true | _ => false) = true) :
    phase = .finished (.ok ()) := by
  split at exited
  · rfl
  · cases exited

theorem clean_end_on_exit_conversation :
    let pair := calmMachine.run opening (play opening conversation).1
    pair.left.socket.toOwner = [4, 5] ∧ CleanEnd pair.left.socket pair.right.socket :=
  ⟨by decide +kernel, clean_end_on_exit ⟨by decide, by decide⟩ ⟨by decide, by decide⟩
    opens_connecting opens_listening ⟨by decide +kernel, by decide +kernel⟩
    (Machine.Admissible.reachable (admissible_play
      (fun run datagrams owner => ⟨calm_handing run.socket datagrams owner,
        not_fails_handing datagrams owner⟩) (by decide +kernel)))
    (by decide +kernel) (by decide +kernel) (eq_of_exited (by decide +kernel)) (by decide +kernel)⟩

end SocketPair
end Rchan
