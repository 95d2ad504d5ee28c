import Rchan.Socket.Sound
import Rchan.System.Serving

namespace Rchan

/-!
# What a round does to the peer

Whatever rule is served in a round, the socket stays sound and drives its peer with
messages that have arrived.  A message arrives when the filter of the adapter, as it is
at the beginning of the round, takes it from the datagram that is read: the rules that
are cancelled before one is served leave the adapter alone.
-/

/-- The filter takes a message from what the device answers. -/
def TCPOverIPv4OverTunFdAdapter.Arrives {Address : Type} [SocketAddress Address]
    (adapter : TCPOverIPv4OverTunFdAdapter Address) (kernel : Kernel) (msg : TCPMessage) : Prop :=
  ∃ bytes filter, kernel.read adapter.tun.fd readSize = .ok bytes ∧
    adapter.toTCPOverIPv4Adapter.read bytes = .ok (filter, some msg)

/-- The same descriptor, on which calls have been counted. -/
def FDWrapper.Counted (before after : FDWrapper) : Prop :=
  ∃ readCount writeCount, after = { before with readCount, writeCount }

namespace MinnowSocket

open FDRule (Absent)

variable {Address Adapt : Type} [SocketAddress Address] [OverTun Address Adapt]
  {socket after before : MinnowSocket Adapt} {kernel : Kernel}

/-! ## The rules -/

theorem mem_rules {rule : FDRule (MinnowSocket Adapt)} (known : rule ∈ rules) :
    rule = receiveSegment ∨ rule = pushBytes ∨ rule = readInbound := by
  simpa [rules] using known

/-- The number of the descriptor of a rule. -/
def number (tun thread : Nat) (rule : FDRule (MinnowSocket Adapt)) : Nat :=
  match rule.categoryId with
  | 0 => tun
  | _ => thread

/-- There is room in the outbound stream, and it is open. -/
structure Pushable (socket : MinnowSocket Adapt) : Prop where
  room : 0 < socket.outbound.availableCapacity
  isOpen : socket.outboundShutdown = false

/-- What the callback of a rule relies on. -/
def Ready (rule : FDRule (MinnowSocket Adapt)) (socket : MinnowSocket Adapt) : Prop :=
  match rule.categoryId with
  | 0 => True
  | 1 => socket.Pushable
  | _ => rule.interest socket = true

/-- What is known of a rule that is not interested. -/
def Idle (rule : FDRule (MinnowSocket Adapt)) (socket : MinnowSocket Adapt) : Prop :=
  rule.interest socket = false

/-- The invariant of the loop: the socket is in step with its owner, and bytes are read
from the owner until the outbound stream has been closed. -/
structure Kept (tun : FDWrapper) (thread : Nat) (rules : List (FDRule (MinnowSocket Adapt)))
    (socket : MinnowSocket Adapt) : Prop where
  known : ∀ rule ∈ rules, rule ∈ MinnowSocket.rules
  ordered : rules.Pairwise (fun first second => first.categoryId < second.categoryId)
  sound : socket.Sound
  tunSame : tun.Counted socket.device.tun
  threadFd : socket.threadData.fd = thread
  threadOpen : socket.threadData.closed = false
  pushing : Absent 1 rules → socket.outboundShutdown = true

/-- No rule has been served since the beginning of the round. -/
structure Underway (tun : FDWrapper) (thread : Nat) (arrives : TCPMessage → Prop) (fails : Prop)
    (before : MinnowSocket Adapt)
    (rules : List (FDRule (MinnowSocket Adapt))) (socket : MinnowSocket Adapt) : Prop
    extends Kept tun thread rules socket where
  adapter : socket.datagramAdapter = before.datagramAdapter
  driving : (PeerRun.driven arrives fails).Reachable before.tcp socket.tcp
  shut : socket.inboundShutdown = before.inboundShutdown

/-- At most one rule has been served since the beginning of the round.  The owner's end is
shut down behind the inbound stream only. -/
structure Served (tun : FDWrapper) (thread : Nat) (arrives : TCPMessage → Prop) (fails : Prop)
    (before : MinnowSocket Adapt)
    (rules : List (FDRule (MinnowSocket Adapt))) (socket : MinnowSocket Adapt) : Prop
    extends Kept tun thread rules socket where
  driving : (PeerRun.driven arrives fails).Reachable before.tcp socket.tcp
  shut : socket.inboundShutdown = true → before.inboundShutdown = true ∨ socket.inboundOver = true
  stays : before.inboundShutdown = true → socket.inboundShutdown = true

variable {tun : FDWrapper} {thread : Nat} {arrives : TCPMessage → Prop} {fails : Prop}
  {remaining front later : List (FDRule (MinnowSocket Adapt))} {rule : FDRule (MinnowSocket Adapt)}

namespace Kept

theorem tunFd (kept : Kept tun thread remaining socket) : socket.device.tun.fd = tun.fd := by
  rcases kept.tunSame with ⟨readCount, writeCount, same⟩
  rw [same]

theorem number_eq (kept : Kept tun thread remaining socket) (member : rule ∈ remaining) :
    (rule.fd socket).fd = number tun.fd thread rule := by
  rcases mem_rules (kept.known rule member) with rfl | rfl | rfl
  · exact (congrArg FDWrapper.fd (OverTun.fd_eq socket.datagramAdapter)).trans kept.tunFd
  · exact kept.threadFd
  · exact kept.threadFd

theorem ready_of_interest (kept : Kept tun thread remaining socket) (member : rule ∈ remaining)
    (interested : rule.interest socket = true) : Ready rule socket := by
  rcases mem_rules (kept.known rule member) with rfl | rfl | rfl
  · trivial
  · simp only [pushBytes, Bool.and_eq_true, Bool.not_eq_true', decide_eq_true_eq] at interested
    exact ⟨interested.2, interested.1.2⟩
  · exact interested

/-- A rule is erased; bytes are no longer read from the owner once the stream is closed. -/
theorem erase (kept : Kept tun thread (front ++ rule :: later) socket) :
    Kept tun thread (front ++ later) (rule.cancel socket) := by
  have sublist : (front ++ later).Sublist (front ++ rule :: later) :=
    (List.Sublist.refl front).append (List.sublist_cons_self rule later)
  have fewer : ∀ other ∈ front ++ later, other ∈ MinnowSocket.rules :=
    fun other inside => kept.known other (sublist.subset inside)
  have pushing : rule.categoryId ≠ 1 → Absent 1 (front ++ later) →
      socket.outboundShutdown = true := by
    intro other absent
    exact kept.pushing ((absent.of_erase rule).resolve_left other)
  rcases mem_rules (kept.known rule (List.mem_append_right _ List.mem_cons_self)) with rfl | rfl | rfl
  · exact { kept with
      known := fewer
      ordered := kept.ordered.sublist sublist
      pushing := pushing (show 0 ≠ 1 by decide) }
  · exact {
      known := fewer
      ordered := kept.ordered.sublist sublist
      sound := kept.sound.closeOutbound
      tunSame := kept.tunSame
      threadFd := kept.threadFd
      threadOpen := kept.threadOpen
      pushing := fun _ => rfl }
  · exact { kept with
      known := fewer
      ordered := kept.ordered.sublist sublist
      pushing := pushing (show 2 ≠ 1 by decide) }

theorem error (kept : Kept tun thread remaining socket) (member : rule ∈ remaining) :
    Kept tun thread remaining (rule.error socket) := by
  rcases mem_rules (kept.known rule member) with rfl | rfl | rfl
  · exact kept
  · exact ⟨kept.known, kept.ordered, kept.sound.failOutbound, kept.tunSame, kept.threadFd,
      kept.threadOpen, kept.pushing⟩
  · exact ⟨kept.known, kept.ordered, kept.sound.failInbound, kept.tunSame, kept.threadFd,
      kept.threadOpen, kept.pushing⟩

/-- A rule before another one receives segments, or it pushes bytes and is the last but one. -/
theorem later_cases (kept : Kept tun thread (front ++ rule :: later) socket)
    {other : FDRule (MinnowSocket Adapt)} (member : other ∈ later) :
    rule = receiveSegment ∨ rule = pushBytes ∧ other = readInbound := by
  have categories := (List.pairwise_cons.mp (List.pairwise_append.mp kept.ordered).2.1).1 other member
  have also := kept.known other (List.mem_append_right _ (List.mem_cons_of_mem _ member))
  rcases mem_rules (kept.known rule (List.mem_append_right _ List.mem_cons_self)) with rfl | rfl | rfl
  · exact Or.inl rfl
  · rcases mem_rules also with rfl | rfl | rfl
    · exact absurd categories (show ¬ 1 < 0 by decide)
    · exact absurd categories (lt_irrefl _)
    · exact Or.inr ⟨rfl, rfl⟩
  · rcases mem_rules also with rfl | rfl | rfl
    · exact absurd categories (show ¬ 2 < 0 by decide)
    · exact absurd categories (show ¬ 2 < 1 by decide)
    · exact absurd categories (lt_irrefl _)

theorem call {op : PeerOp} (kept : Kept tun thread remaining socket) (transmitting : op.Transmitting)
    (called : Called socket op after) : Kept tun thread remaining after := by
  have sound := kept.sound.call transmitting called
  rcases called.transmits.tun with ⟨writeCount, same⟩
  have tunSame : tun.Counted after.device.tun := by
    rcases kept.tunSame with ⟨readCount, _, counted⟩
    exact ⟨readCount, writeCount, by rw [same, counted]⟩
  rcases called.rest with ⟨datagramAdapter, rfl⟩
  exact ⟨kept.known, kept.ordered, sound, tunSame, kept.threadFd, kept.threadOpen, kept.pushing⟩

theorem whole (kept : Kept tun thread remaining socket) (takes : kernel.TakesWhole tun.fd) :
    kernel.TakesWhole socket.device.tun.fd := by
  rw [kept.tunFd]
  exact takes

end Kept

namespace Served

/-- The messages may come from anywhere that more of them come from. -/
theorem mono {more : TCPMessage → Prop}
    (served : Served tun thread arrives fails before remaining socket)
    (fewer : ∀ msg, arrives msg → more msg) : Served tun thread more fails before remaining socket :=
  { served with driving := PeerRun.driven_mono fewer served.driving }

/-- The peer transmits without receiving anything. -/
theorem call {op : PeerOp} (served : Served tun thread arrives fails before remaining socket)
    (takes : kernel.TakesWhole tun.fd) (transmitting : op.Transmitting) (deaf : ∀ msg, op ≠ .receive msg)
    (returned : socket.call op kernel = .ok after) :
    Served tun thread arrives fails before remaining after := by
  have called := call_cases (served.whole takes) returned
  have kept := served.toKept.call transmitting called
  have receiving := congrArg ReceiverRun.receiver (socket.tcp.receiving_step op)
  have receiver : (socket.tcp.step op).peer.receiver = socket.tcp.peer.receiver := by
    refine receiving.trans ?_
    cases op with
    | receive msg => exact absurd rfl (deaf msg)
    | read len => cases transmitting
    | _ => rfl
  have orderly : socket.tcp.WritesBeforeClose op := by
    cases op with
    | write data => cases transmitting
    | _ => trivial
  have driving := PeerRun.driven_step served.driving orderly
    (fun msg same => absurd same (deaf msg))
  rcases called.rest with ⟨datagramAdapter, rfl⟩
  refine ⟨kept, driving, fun shut => ?_, served.stays⟩
  unfold inboundOver inbound
  dsimp only
  rw [receiver]
  exact served.shut shut

theorem push (served : Served tun thread arrives fails before remaining socket)
    (takes : kernel.TakesWhole tun.fd) (returned : socket.call .push kernel = .ok after) :
    Served tun thread arrives fails before remaining after :=
  served.call takes (show PeerOp.push.Transmitting from trivial)
    (fun msg impossible => by cases impossible) returned

theorem tick {t : Nat} (served : Served tun thread arrives fails before remaining socket)
    (takes : kernel.TakesWhole tun.fd) (returned : socket.call (.tick t) kernel = .ok after) :
    Served tun thread arrives fails before remaining after :=
  served.call takes (show (PeerOp.tick t).Transmitting from trivial)
    (fun msg impossible => by cases impossible) returned

theorem closeOutbound (served : Served tun thread arrives fails before remaining socket) :
    Served tun thread arrives fails before remaining socket.closeOutbound where
  known := served.known
  ordered := served.ordered
  sound := served.sound.closeOutbound
  tunSame := served.tunSame
  threadFd := served.threadFd
  threadOpen := served.threadOpen
  pushing := fun _ => rfl
  driving := PeerRun.driven_step served.driving
    (show PeerRun.WritesBeforeClose _ .close from trivial)
    (fun msg impossible => by cases impossible)
  shut := served.shut
  stays := served.stays

end Served

namespace Underway

theorem served (underway : Underway tun thread arrives fails before remaining socket) :
    Served tun thread arrives fails before remaining socket :=
  { underway with
    shut := fun shut => Or.inl (underway.shut ▸ shut)
    stays := fun shut => underway.shut.trans shut }

theorem erase (underway : Underway tun thread arrives fails before (front ++ rule :: later) socket) :
    Underway tun thread arrives fails before (front ++ later) (rule.cancel socket) := by
  have kept := underway.toKept.erase
  have known := underway.known rule (List.mem_append_right _ List.mem_cons_self)
  rcases mem_rules known with rfl | rfl | rfl
  · exact ⟨kept, underway.adapter, underway.driving, underway.shut⟩
  · have driving : (PeerRun.driven arrives fails).Reachable before.tcp socket.closeOutbound.tcp :=
      PeerRun.driven_step underway.driving trivial (fun msg impossible => by cases impossible)
    exact ⟨kept, underway.adapter, driving, underway.shut⟩
  · exact ⟨kept, underway.adapter, underway.driving, underway.shut⟩

theorem error (underway : Underway tun thread arrives fails before remaining socket)
    (member : rule ∈ remaining) (failed : fails) :
    Underway tun thread arrives fails before remaining (rule.error socket) := by
  have kept := underway.toKept.error member
  rcases mem_rules (underway.known rule member) with rfl | rfl | rfl
  · exact underway
  · exact ⟨kept, underway.adapter, PeerRun.driven_failOutbound underway.driving failed, underway.shut⟩
  · exact ⟨kept, underway.adapter, PeerRun.driven_failInbound underway.driving failed, underway.shut⟩

/-- A message that the adapter returns has arrived. -/
theorem arrived {adapter : Adapt} {seg : Option TCPMessage} {msg : TCPMessage}
    (underway : Underway tun thread arrives fails before remaining socket)
    (reading : TCPDatagramAdapter.read socket.datagramAdapter kernel = .ok (adapter, seg))
    (some : seg = some msg) : before.device.Arrives kernel msg := by
  rcases OverTun.read_cases reading with ⟨found, device, kept⟩
  rcases (TCPOverIPv4OverTunFdAdapter.read_cases device).filtered with ⟨bytes, answered, filtered⟩
  have same : seg = found := by
    rcases kept with none | same
    · rw [none] at some
      cases some
    · exact same
  rw [← same, some, underway.adapter] at filtered
  rw [underway.adapter] at answered
  exact ⟨bytes, _, answered, filtered⟩

/-- Rule 1 gives the peer a message that has arrived. -/
theorem receiveSegment (takes : kernel.TakesWhole tun.fd)
    (underway : Underway tun thread (before.device.Arrives kernel) fails before remaining socket)
    (called : receiveSegment.callback kernel socket = .ok after) :
    Served tun thread (before.device.Arrives kernel) fails before remaining after := by
  rcases Fallible.bind_eq_ok called with ⟨⟨adapter, seg⟩, reading, called⟩
  rcases Fallible.bind_eq_ok called with ⟨delivered, delivering, called⟩
  rcases OverTun.read_cases reading with ⟨found, device, -⟩
  have received := TCPOverIPv4OverTunFdAdapter.read_cases device
  have heard : Served tun thread (before.device.Arrives kernel) fails before remaining
      { socket with datagramAdapter := adapter } := by
    have sound : Sound { socket with datagramAdapter := adapter } :=
      { underway.sound with
        datagrams := fun datagram member =>
          underway.sound.datagrams datagram (received.datagrams ▸ member) }
    have tunSame : tun.Counted (OverTun.device adapter).tun := by
      rcases underway.tunSame with ⟨readCount, writeCount, counted⟩
      refine ⟨readCount + 1, writeCount, ?_⟩
      rw [received.tun, FDWrapper.registerRead, ← MinnowSocket.device, counted]
    exact { underway.served with sound, tunSame }
  have given : Served tun thread (before.device.Arrives kernel) fails before remaining delivered := by
    unfold deliver at delivering
    split at delivering
    · rename_i msg
      have transmitted := call_cases (heard.whole takes) delivering
      have kept := heard.toKept.call (show (PeerOp.receive msg).Transmitting from trivial)
        transmitted
      have arrival := underway.arrived reading rfl
      rcases transmitted.rest with ⟨datagramAdapter, rfl⟩
      have driving := PeerRun.driven_step heard.driving
        (show PeerRun.WritesBeforeClose _ (.receive msg) from trivial)
        (fun other same => PeerOp.receive.inj same ▸ arrival)
      exact ⟨kept, driving, fun shut => Or.inl (underway.shut ▸ shut), underway.shut.trans⟩
    · rw [← Fallible.pure_eq_ok delivering]
      exact heard
  rw [← Fallible.pure_eq_ok called]
  have sound := given.sound.noteAcked
  unfold noteAcked at sound ⊢
  split
  · rename_i condition
    rw [if_pos condition] at sound
    exact { given with sound }
  · exact given

/-- Rule 2 writes what it has read from the owner to the outbound stream. -/
theorem pushBytes (takes : kernel.TakesWhole tun.fd)
    (underway : Underway tun thread arrives fails before remaining socket) (pushable : socket.Pushable)
    (called : pushBytes.callback kernel socket = .ok after) :
    Served tun thread arrives fails before remaining after := by
  rcases Fallible.bind_eq_ok called with ⟨⟨threadData, data⟩, reading, pushing⟩
  have same := FDWrapper.SameFile.read pushable.room reading
  have fits : data.length ≤ socket.outbound.availableCapacity := by
    rcases FDWrapper.read_cases pushable.room reading with ⟨-, none⟩ | ⟨-, fits, -⟩
    · rw [none]
      exact Nat.zero_le _
    · exact fits
  have isOpen : socket.outbound.closed = false := underway.sound.closed.trans pushable.isOpen
  have taken : Served tun thread arrives fails before remaining
      (takeFromOwner { socket with threadData } data) :=
    { underway.served with
      sound := (underway.sound.withThread threadData).takeFromOwner fits
      threadFd := same.fd.trans underway.threadFd
      threadOpen := same.closed.trans underway.threadOpen
      driving := PeerRun.driven_step underway.driving
        (show PeerRun.WritesBeforeClose _ (.write data) from isOpen)
        (fun msg impossible => by cases impossible) }
  dsimp only at pushing
  split at pushing
  · exact taken.closeOutbound.push takes pushing
  · exact taken.push takes pushing

/-- Rule 3 gives the owner bytes of the inbound stream, and shuts it down at the end. -/
theorem readInbound (underway : Underway tun thread arrives fails before remaining socket)
    (called : readInbound.callback kernel socket = .ok after) :
    Served tun thread arrives fails before remaining after := by
  rcases Fallible.bind_eq_ok called with ⟨drained, draining, called⟩
  have given : Served tun thread arrives fails before remaining drained := by
    unfold drainInbound at draining
    split at draining
    · rcases Fallible.bind_eq_ok draining with ⟨⟨threadData, written⟩, writing, draining⟩
      have same := FDWrapper.SameFile.write writing
      rw [← Fallible.pure_eq_ok draining]
      exact {
        known := underway.known
        ordered := underway.ordered
        sound := (underway.sound.withThread threadData).giveToOwner written
        tunSame := underway.tunSame
        threadFd := same.fd.trans underway.threadFd
        threadOpen := same.closed.trans underway.threadOpen
        pushing := underway.pushing
        driving := PeerRun.driven_step underway.driving
          (show PeerRun.WritesBeforeClose _ (.read written) from trivial)
          (fun msg impossible => by cases impossible)
        shut := fun shut => Or.inl (underway.shut ▸ shut)
        stays := underway.shut.trans }
    · rw [← Fallible.pure_eq_ok draining]
      exact underway.served
  split at called
  · rename_i ended
    rcases Fallible.bind_eq_ok called with ⟨threadData, closing, called⟩
    have same := FDWrapper.SameFile.shutdown closing
    rw [← Fallible.pure_eq_ok called]
    have sound := given.sound.withThread threadData
    exact ⟨⟨given.known, given.ordered,
      ⟨sound.written, sound.delivered, sound.closed, sound.bounded, sound.datagrams⟩, given.tunSame,
      same.fd.trans given.threadFd, same.closed.trans given.threadOpen, given.pushing⟩,
      given.driving, fun _ => Or.inr ended, fun _ => rfl⟩
  · rw [← Fallible.pure_eq_ok called]
    exact given

end Underway

/-- Closing the outbound stream does not make a peer active. -/
theorem inactive_closeOutbound (quiet : socket.tcp.peer.active = false) :
    socket.closeOutbound.tcp.peer.active = false := by
  change TCPPeer.active
    { socket.tcp.peer with
      sender := { socket.tcp.peer.sender with input := socket.tcp.peer.sender.input.close } } = false
  unfold TCPPeer.active at quiet ⊢
  rw [Bool.and_eq_false_iff] at quiet ⊢
  rcases quiet with errors | quiet
  · exact Or.inl errors
  · refine Or.inr ?_
    simp only [TCPPeer.senderActive, ByteStream.isFinished, Bool.or_eq_false_iff,
      Bool.not_eq_false', Bool.and_eq_true] at quiet ⊢
    exact ⟨⟨⟨quiet.1.1.1, rfl, quiet.1.1.2.2⟩, quiet.1.2⟩, quiet.2⟩

/-- What a call of the event loop does to the socket. -/
theorem discipline (takes : kernel.TakesWhole tun.fd) :
    Discipline kernel (number tun.fd thread)
      (Underway tun thread (before.device.Arrives kernel) (∃ fd, kernel.Fails fd) before)
      (Served tun thread (before.device.Arrives kernel) (∃ fd, kernel.Fails fd) before)
      Ready Idle where
  number_eq := fun underway member => underway.number_eq member
  ready_of_interest := fun underway member => underway.ready_of_interest member
  idle_of_not := fun _ _ uninterested => uninterested
  requested := by
    intro front rule later socket underway requested
    have known := underway.known rule (List.mem_append_right _ List.mem_cons_self)
    rcases mem_rules known with rfl | rfl | rfl <;> cases requested
  exhausted := fun underway _ => underway.erase
  exhausted_keeps := by
    intro front rule later earlier socket underway exhausted member
    have categories := (List.pairwise_append.mp underway.ordered).2.2 earlier member rule
      List.mem_cons_self
    have known := underway.known rule (List.mem_append_right _ List.mem_cons_self)
    rcases mem_rules known with rfl | rfl | rfl
    · exact ⟨id, id⟩
    · rcases mem_rules (underway.known earlier (List.mem_append_left _ member)) with rfl | rfl | rfl
      · exact ⟨fun _ => trivial, inactive_closeOutbound⟩
      · exact absurd categories (lt_irrefl _)
      · exact absurd categories (show ¬ 2 < 1 by decide)
    · exact ⟨id, id⟩
  hungUp := fun underway _ => underway.erase
  hungUp_keeps := by
    intro front rule later other socket underway member isReady
    rcases underway.later_cases member with rfl | ⟨rfl, rfl⟩ <;> exact isReady
  failed := fun underway fails =>
    (underway.error (List.mem_append_right _ List.mem_cons_self) ⟨_, fails⟩).erase
  failed_keeps := by
    intro front rule later other socket underway member isReady
    rcases underway.later_cases member with rfl | ⟨rfl, rfl⟩ <;> exact isReady
  served := by
    intro rules rule socket after underway member isReady _ called
    rcases mem_rules (underway.known rule member) with rfl | rfl | rfl
    · exact underway.receiveSegment takes called
    · exact underway.pushBytes takes isReady called
    · exact underway.readInbound called
  unserved := Underway.served

end MinnowSocket

/-! ## Rounds -/

namespace MinnowRun

open MinnowSocket (Idle Ready Kept Served discipline number)
open TCPOverIPv4OverTunFdAdapter (Arrives)

variable {Address Adapt : Type} [SocketAddress Address] [OverTun Address Adapt]
  {run : MinnowRun Adapt} {kernel : Kernel} {tun : FDWrapper} {thread : Nat}
  {holds done : List (FDRule (MinnowSocket Adapt)) → MinnowSocket Adapt → Prop}

/-- What is known between two rounds.  When the thread has come to its end by itself, all
rules that are left are idle. -/
structure Between (holds : List (FDRule (MinnowSocket Adapt)) → MinnowSocket Adapt → Prop)
    (run : MinnowRun Adapt) : Prop where
  others : run.loop.nonFdRules = []
  kept : holds run.loop.fdRules run.socket
  idle : run.phase = .finished (.ok ()) → run.abort = false →
    ∀ rule ∈ run.loop.fdRules, Idle rule run.socket

theorem Between.mono {more : List (FDRule (MinnowSocket Adapt)) → MinnowSocket Adapt → Prop}
    (between : run.Between holds) (weaker : holds run.loop.fdRules run.socket →
      more run.loop.fdRules run.socket) : run.Between more :=
  ⟨between.others, weaker between.kept, between.idle⟩

theorem Between.leave (others : run.loop.nonFdRules = []) (kept : holds run.loop.fdRules run.socket)
    (idle : run.phase = .running ∨ run.phase = .finished (.ok ()) → run.abort = false →
      ∀ rule ∈ run.loop.fdRules, Idle rule run.socket) (now : Nat) :
    (run.leave kernel now).Between holds := by
  unfold MinnowRun.leave
  split
  · rename_i running
    split
    · exact ⟨others, kept, fun impossible => by cases impossible⟩
    · exact ⟨others, kept, fun _ => idle (.inl running)⟩
  · exact ⟨others, kept, fun finished => idle (.inr finished)⟩
  · exact ⟨others, kept, fun impossible => by cases impossible⟩

/-- A round keeps what a call of the event loop and a tick keep. -/
theorem Between.round {rank : FDRule (MinnowSocket Adapt) → Nat} (between : run.Between holds)
    (discipline : Discipline kernel rank holds done Ready Idle)
    (ticks : ∀ {rules socket after t}, done rules socket →
      socket.call (.tick t) kernel = .ok after → done rules after) (now : Nat) :
    (run.round kernel now).Between done := by
  unfold MinnowRun.round
  split
  · rename_i condition
    have going : run.phase ≠ .finished (.ok ()) := by
      intro finished
      rw [MinnowRun.condition, finished] at condition
      cases condition
    split
    · exact ⟨between.others, discipline.unserved between.kept, fun impossible => by cases impossible⟩
    · rename_i result loop socket returned
      rcases EventLoop.waitNextEvent_keeps discipline
        (fun rule member => by rw [between.others] at member; cases member) between.kept returned with
        ⟨fewer, -, kept, exit⟩
      have others : loop.nonFdRules = [] := by
        rw [between.others] at fewer
        exact List.sublist_nil.mp fewer
      unfold MinnowRun.proceed
      split
      · rename_i ended
        refine Between.leave others kept (fun _ patient => ?_) now
        rcases ended with exited | aborted
        · exact exit exited
        · have patient : run.abort = false := patient
          rw [aborted] at patient
          cases patient
      · unfold MinnowRun.elapse
        split
        · split
          · exact ⟨others, kept, fun impossible => by cases impossible⟩
          · rename_i ticked
            exact ⟨others, ticks kept ticked, fun finished => absurd finished going⟩
        · exact ⟨others, kept, fun finished => absurd finished going⟩
  · rename_i condition
    refine Between.leave between.others (discipline.unserved between.kept) ?_ now
    rintro (running | finished)
    · rw [MinnowRun.condition, running] at condition
      exact absurd rfl condition
    · exact between.idle finished

theorem Between.abort (between : run.Between holds) :
    Between holds { run with abort := true } :=
  ⟨between.others, between.kept, fun _ impossible => by cases impossible⟩

/-- In a round the socket is driven with messages that have arrived. -/
theorem round_serves (between : run.Between (Kept tun thread)) (takes : kernel.TakesWhole tun.fd)
    (now : Nat) :
    (run.round kernel now).Between
      (Served tun thread (run.socket.device.Arrives kernel) (∃ fd, kernel.Fails fd) run.socket) := by
  have start : run.Between
      (MinnowSocket.Underway tun thread (run.socket.device.Arrives kernel)
        (∃ fd, kernel.Fails fd) run.socket) :=
    { between with
      kept :=
        { between.kept with
          adapter := rfl
          driving := .start
          shut := rfl } }
  exact start.round (discipline takes) (fun served ticked => served.tick takes ticked) now

end MinnowRun
end Rchan
