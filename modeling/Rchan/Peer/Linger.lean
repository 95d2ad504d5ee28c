import Rchan.Peer.Ledger
import Rchan.Receiver.Closing

namespace Rchan

/-!
# Lingering

The peer that closes second need not linger.  `receive` decides this by looking at
the two streams before it hands on the message, so the decision is made by the first
message after the one that closed the inbound stream.  If the outbound stream has
been finished by then, the peer lingers although it was the passive one.

A run records when the last message was received, whether the inbound stream was
closed while the outbound stream was unfinished, and whether a message has come
between the two events.  The flag of the source is the negation of the latter.
Whether everything sent has been acknowledged is read off the ledger of the run.
`active` asks for the numbers in flight instead, and the two agree while fewer than
`2 ^ 32` sequence numbers have been sent.
-/

namespace TCPPeer

/-- `receiver_.writer().is_closed()`. -/
def inboundClosed (peer : TCPPeer) : Bool := peer.receiver.reassembler.output.isClosed

/-- `sender_.reader().is_finished()`. -/
def outboundFinished (peer : TCPPeer) : Bool := peer.sender.input.isFinished

/-- Without errors, a peer whose streams are finished and whose queue is empty is active
exactly if it lingers. -/
theorem active_of_done {peer : TCPPeer} (inbound : peer.inboundClosed = true)
    (outbound : peer.outboundFinished = true) (idle : peer.sender.outstandingMsg = [])
    (clean : peer.hasErrors = false) : peer.active = peer.lingering := by
  have receiving : peer.receiverActive = false := by
    unfold receiverActive
    rw [show peer.receiver.reassembler.output.isClosed = true from inbound]
    rfl
  have sending : peer.senderActive = false := by
    unfold senderActive
    rw [TCPSender.inFlight_of_empty idle,
      show peer.sender.input.isFinished = true from outbound]
    rfl
  unfold active
  rw [clean, receiving, sending]
  simp

variable {peer : TCPPeer}

/-- What an active peer notes about a message. -/
theorem receive_notes (active : peer.active = true) (msg : TCPMessage) :
    (peer.receive msg).1.cfg = peer.cfg ∧
      (peer.receive msg).1.lingerAfterStreamsFinish =
        (if peer.inboundClosed && !peer.outboundFinished then false
          else peer.lingerAfterStreamsFinish) ∧
      (peer.receive msg).1.cumulativeTime = peer.cumulativeTime ∧
      (peer.receive msg).1.timeOfLastReceipt = peer.cumulativeTime := by
  unfold receive
  rw [if_pos active]
  simp only
  split <;> exact ⟨rfl, rfl, rfl, rfl⟩

/-- A message does not change whether the outbound stream is finished. -/
theorem receive_outboundFinished (active : peer.active = true) (msg : TCPMessage) :
    (peer.receive msg).1.outboundFinished = peer.outboundFinished := by
  unfold outboundFinished
  rw [receive_sender msg active]
  rcases peer.sender.receive_frame msg.receiver with ⟨consecutiveRet, rto, timer, same⟩
  rw [same]
  cases msg.receiver.rst <;> rfl

theorem receive_inboundClosed (active : peer.active = true) (msg : TCPMessage)
    (closed : peer.inboundClosed = true) : (peer.receive msg).1.inboundClosed = true := by
  unfold inboundClosed
  rw [receive_receiver msg active]
  exact TCPReceiver.receive_closed closed msg.sender

end TCPPeer

/-- A peer with a clock.  `passive` says that the inbound stream was closed while the
outbound stream was unfinished, and `noticed` that a message has been received since,
with the outbound stream still unfinished. -/
structure LingerRun extends PeerLedger where
  now : Nat := 0
  lastReceipt : Nat := 0
  passive : Bool := false
  noticed : Bool := false

namespace LingerRun

def start (cfg : TCPConfig) : LingerRun := { toPeerLedger := .start cfg }

def step (run : LingerRun) (op : PeerOp) : LingerRun :=
  let peer := (PeerRun.operate run.peer op).1
  { toPeerLedger := run.toPeerLedger.step op
    now :=
      match op with
      | .tick t => run.now + t
      | _ => run.now
    lastReceipt :=
      match op with
      | .receive _ => if run.peer.active then run.now else run.lastReceipt
      | _ => run.lastReceipt
    passive := run.passive ||
      (!run.peer.inboundClosed && peer.inboundClosed && !peer.outboundFinished)
    noticed :=
      match op with
      | .receive _ => run.noticed ||
          (run.peer.active && run.peer.inboundClosed && !run.peer.outboundFinished)
      | _ => run.noticed }

/-- The outbound stream stays finished, and after the inbound stream has been closed it
is not finished before another message has been received. -/
def FinishesNoticed (run : LingerRun) (op : PeerOp) : Prop :=
  (run.peer.outboundFinished = true →
      (PeerRun.operate run.peer op).1.outboundFinished = true) ∧
    (run.peer.inboundClosed = true → run.peer.outboundFinished = false →
      (PeerRun.operate run.peer op).1.outboundFinished = true → run.noticed = true)

/-- The runs that use fewer than `2 ^ 32` sequence numbers and in which the peer notices that
it is the passive one. -/
def machine : Machine LingerRun PeerOp where
  allowed run op := run.FinishesNoticed op ∧ (run.step op).ledger.next < 2 ^ 32
  step := step

/-- Both directions are done: the inbound stream is closed, and everything outbound including
FIN has been sent and acknowledged. -/
structure Done (run : LingerRun) : Prop where
  inbound : run.peer.inboundClosed = true
  outbound : run.peer.outboundFinished = true
  finSent : ∃ message ∈ run.sent, message.sender.fin = true
  acknowledged : ∀ segment ∈ run.ledger.places, segment.stop ≤ run.acknowledged

/-- The flag and the two times of the peer follow what has happened. -/
structure Follows (run : LingerRun) : Prop where
  linger : run.peer.lingerAfterStreamsFinish = !run.noticed
  clock : run.peer.cumulativeTime = run.now % 2 ^ 64
  receipt : run.peer.timeOfLastReceipt = run.lastReceipt % 2 ^ 64
  receipt_le : run.lastReceipt ≤ run.now
  passiveClosed : run.passive = true → run.peer.inboundClosed = true
  noticedPassive : run.noticed = true → run.passive = true
  activeFinished : run.peer.inboundClosed = true → run.passive = false →
    run.peer.outboundFinished = true
  passiveNoticed : run.peer.outboundFinished = true → run.passive = true → run.noticed = true

variable {run : LingerRun}

namespace Follows

theorem start (cfg : TCPConfig) : (start cfg).Follows where
  linger := rfl
  clock := rfl
  receipt := rfl
  receipt_le := Nat.le_refl 0
  passiveClosed := fun impossible => by cases impossible
  noticedPassive := fun impossible => by cases impossible
  activeFinished := fun impossible => by cases impossible
  passiveNoticed := fun _ impossible => by cases impossible

/-- An operation that is no message changes neither the flags nor the inbound stream. -/
theorem quiet (follows : run.Follows) {op : PeerOp} (allowed : run.FinishesNoticed op)
    (linger : (run.step op).peer.lingerAfterStreamsFinish = run.peer.lingerAfterStreamsFinish)
    (inbound : (run.step op).peer.inboundClosed = run.peer.inboundClosed)
    (noticed : (run.step op).noticed = run.noticed)
    (clock : (run.step op).peer.cumulativeTime = (run.step op).now % 2 ^ 64)
    (receipt : (run.step op).peer.timeOfLastReceipt = run.peer.timeOfLastReceipt)
    (lastReceipt : (run.step op).lastReceipt = run.lastReceipt)
    (later : run.now ≤ (run.step op).now) : (run.step op).Follows := by
  have passive : (run.step op).passive = run.passive := by
    change (run.passive || (!run.peer.inboundClosed && (run.step op).peer.inboundClosed &&
      !(run.step op).peer.outboundFinished)) = run.passive
    rw [inbound, Bool.not_and_self, Bool.false_and, Bool.or_false]
  refine {
    linger := by rw [linger, noticed, follows.linger]
    clock := clock
    receipt := by rw [receipt, lastReceipt, follows.receipt]
    receipt_le := lastReceipt ▸ Nat.le_trans follows.receipt_le later
    passiveClosed := fun isPassive => inbound.trans (follows.passiveClosed (passive ▸ isPassive))
    noticedPassive := fun isNoticed => passive.trans (follows.noticedPassive (noticed ▸ isNoticed))
    activeFinished := fun closed isActive =>
      allowed.1 (follows.activeFinished (inbound ▸ closed) (passive ▸ isActive))
    passiveNoticed := fun finished isPassive => ?_ }
  rw [noticed]
  rw [passive] at isPassive
  cases before : run.peer.outboundFinished with
  | true => exact follows.passiveNoticed before isPassive
  | false => exact allowed.2 (follows.passiveClosed isPassive) before finished

/-- A message that finds the peer inactive is dropped. -/
theorem dropped (follows : run.Follows) (msg : TCPMessage) (inactive : run.peer.active = false) :
    (run.step (.receive msg)).Follows := by
  have peer : (run.step (.receive msg)).peer = run.peer :=
    congrArg Prod.fst (TCPPeer.receive_inactive msg inactive)
  have passive : (run.step (.receive msg)).passive = run.passive := by
    change (run.passive || (!run.peer.inboundClosed && (run.step (.receive msg)).peer.inboundClosed &&
      !(run.step (.receive msg)).peer.outboundFinished)) = run.passive
    rw [peer, Bool.not_and_self, Bool.false_and, Bool.or_false]
  have noticed : (run.step (.receive msg)).noticed = run.noticed := by
    change (run.noticed || (run.peer.active && _ && _)) = run.noticed
    rw [inactive, Bool.false_and, Bool.false_and, Bool.or_false]
  have lastReceipt : (run.step (.receive msg)).lastReceipt = run.lastReceipt := by
    change (if run.peer.active then run.now else run.lastReceipt) = run.lastReceipt
    rw [inactive]
    rfl
  have now : (run.step (.receive msg)).now = run.now := rfl
  exact {
    linger := by rw [peer, noticed, follows.linger]
    clock := by rw [peer, now, follows.clock]
    receipt := by rw [peer, lastReceipt, follows.receipt]
    receipt_le := by rw [lastReceipt, now]; exact follows.receipt_le
    passiveClosed := by rw [passive, peer]; exact follows.passiveClosed
    noticedPassive := by rw [passive, noticed]; exact follows.noticedPassive
    activeFinished := by rw [passive, peer]; exact follows.activeFinished
    passiveNoticed := by rw [passive, peer, noticed]; exact follows.passiveNoticed }

/-- A message that an active peer receives. -/
theorem received (follows : run.Follows) (msg : TCPMessage) (active : run.peer.active = true) :
    (run.step (.receive msg)).Follows := by
  rcases TCPPeer.receive_notes active msg with ⟨_, linger, clock, receipt⟩
  have finished : (run.step (.receive msg)).peer.outboundFinished = run.peer.outboundFinished :=
    TCPPeer.receive_outboundFinished active msg
  have stays : run.peer.inboundClosed = true →
      (run.step (.receive msg)).peer.inboundClosed = true :=
    TCPPeer.receive_inboundClosed active msg
  have passive : (run.step (.receive msg)).passive = (run.passive ||
      (!run.peer.inboundClosed && (run.step (.receive msg)).peer.inboundClosed &&
        !run.peer.outboundFinished)) := by
    rw [← finished]
    rfl
  have noticed : (run.step (.receive msg)).noticed =
      (run.noticed || (run.peer.inboundClosed && !run.peer.outboundFinished)) := by
    change (run.noticed || (run.peer.active && _ && _)) = _
    rw [active, Bool.true_and]
  have lastReceipt : (run.step (.receive msg)).lastReceipt = run.now := if_pos active
  have now : (run.step (.receive msg)).now = run.now := rfl
  refine {
    linger := ?_
    clock := clock.trans follows.clock
    receipt := ?_
    receipt_le := (lastReceipt.trans now.symm).le
    passiveClosed := ?_
    noticedPassive := ?_
    activeFinished := ?_
    passiveNoticed := ?_ }
  · rw [noticed]
    refine linger.trans ?_
    rw [follows.linger]
    cases run.noticed <;> cases run.peer.inboundClosed && !run.peer.outboundFinished <;> rfl
  · rw [lastReceipt, ← follows.clock]
    exact receipt
  · rw [passive, Bool.or_eq_true, Bool.and_eq_true, Bool.and_eq_true]
    rintro (before | ⟨⟨_, closes⟩, _⟩)
    · exact stays (follows.passiveClosed before)
    · exact closes
  · rw [noticed, passive, Bool.or_eq_true, Bool.or_eq_true, Bool.and_eq_true, Bool.not_eq_true']
    rintro (before | ⟨closed, unfinished⟩)
    · exact Or.inl (follows.noticedPassive before)
    · left
      by_contra isActive
      rw [Bool.not_eq_true] at isActive
      rw [follows.activeFinished closed isActive] at unfinished
      cases unfinished
  · rw [passive, finished, Bool.or_eq_false_iff]
    rintro closes ⟨isActive, unclosed⟩
    cases before : run.peer.inboundClosed with
    | true => exact follows.activeFinished before isActive
    | false =>
        rw [before, closes] at unclosed
        simpa using unclosed
  · rw [noticed, passive, finished]
    intro done isPassive
    rw [done, Bool.not_true, Bool.and_false, Bool.or_false] at isPassive
    rw [follows.passiveNoticed done isPassive, Bool.true_or]

theorem step (follows : run.Follows) {op : PeerOp} (allowed : run.FinishesNoticed op) :
    (run.step op).Follows := by
  cases op with
  | receive msg =>
      cases active : run.peer.active with
      | true => exact follows.received msg active
      | false => exact follows.dropped msg active
  | tick t =>
      apply follows.quiet allowed rfl rfl rfl _ rfl rfl (Nat.le_add_right _ t)
      change (run.peer.cumulativeTime + t) % 2 ^ 64 = (run.now + t) % 2 ^ 64
      rw [follows.clock]
      omega
  | read len =>
      apply follows.quiet allowed rfl _ rfl follows.clock rfl rfl (Nat.le_refl _)
      exact ByteStream.pop_closed len
  | write data => exact follows.quiet allowed rfl rfl rfl follows.clock rfl rfl (Nat.le_refl _)
  | close => exact follows.quiet allowed rfl rfl rfl follows.clock rfl rfl (Nat.le_refl _)
  | push => exact follows.quiet allowed rfl rfl rfl follows.clock rfl rfl (Nat.le_refl _)

end Follows

/-- Without errors a peer that is done is active exactly if it lingers. -/
theorem Done.active_eq (done : run.Done) (cleared : run.ledger.Cleared)
    (clean : run.peer.hasErrors = false) : run.peer.active = run.peer.lingering :=
  TCPPeer.active_of_done done.inbound done.outbound (cleared.queue_eq_nil done.acknowledged) clean

namespace Follows

/-- A passive peer that is done has noticed it, and is not active. -/
theorem passive_inactive (follows : run.Follows) (cleared : run.ledger.Cleared)
    (clean : run.peer.hasErrors = false) (done : run.Done) (passive : run.passive = true) :
    run.peer.active = false := by
  rw [done.active_eq cleared clean]
  unfold TCPPeer.lingering
  rw [follows.linger, follows.passiveNoticed done.outbound passive]
  rfl

/-- An active peer that is done lingers until the time is over. -/
theorem active_iff_lingers (follows : run.Follows) (cleared : run.ledger.Cleared)
    (clean : run.peer.hasErrors = false) (done : run.Done) (isActive : run.passive = false)
    (inTime : run.now + 10 * run.peer.cfg.rtTimeout.toNat < 2 ^ 64) :
    run.peer.active = true ↔ run.now < run.lastReceipt + 10 * run.peer.cfg.rtTimeout.toNat := by
  have receipt_le := follows.receipt_le
  have product : Word.mul 64 10 run.peer.cfg.rtTimeout.toNat =
      10 * run.peer.cfg.rtTimeout.toNat := Nat.mod_eq_of_lt (by omega)
  have unnoticed : run.noticed = false := by
    rw [← Bool.not_eq_true]
    intro noticed
    rw [follows.noticedPassive noticed] at isActive
    cases isActive
  rw [done.active_eq cleared clean]
  unfold TCPPeer.lingering
  rw [follows.linger, follows.clock, follows.receipt, product, Nat.mod_eq_of_lt (by omega),
    Nat.mod_eq_of_lt (by omega), Word.add_of_lt (by omega), unnoticed, Bool.not_false,
    Bool.true_and, decide_eq_true_eq]

end Follows

/-- What the runs keep: the notes, the ledger and the bound on the numbers. -/
structure Kept (run : LingerRun) : Prop where
  follows : run.Follows
  sound : run.toPeerLedger.Sound
  small : run.ledger.next < 2 ^ 32

theorem kept_of_admissible {cfg : TCPConfig} (inRange : cfg.sendCapacity < 2 ^ 64)
    {ops : List PeerOp} (admissible : machine.Admissible (.start cfg) ops) :
    (machine.run (.start cfg) ops).Kept := by
  refine admissible.invariant Kept
    ⟨.start cfg, .start inRange, show 0 < 2 ^ 32 by decide⟩ ?_
  rintro run op kept ⟨noticed, small⟩
  exact ⟨kept.follows.step noticed, kept.sound.step op, small⟩

/-- In every run without errors that uses fewer than `2 ^ 32` sequence numbers, and in which
the outbound stream stays finished and does not finish between the closing of the inbound
stream and the next message, a passive peer that is done is not active, and an active one
stays so for exactly ten timeouts after the last message, as long as the clock does not
wrap. -/
theorem lingers_unless_passive {cfg : TCPConfig} (inRange : cfg.sendCapacity < 2 ^ 64)
    {ops : List PeerOp} (admissible : machine.Admissible (.start cfg) ops)
    (clean : (machine.run (.start cfg) ops).peer.hasErrors = false)
    (done : (machine.run (.start cfg) ops).Done) :
    let run := machine.run (.start cfg) ops
    (run.passive = true → run.peer.active = false) ∧
      (run.passive = false → run.now + 10 * run.peer.cfg.rtTimeout.toNat < 2 ^ 64 →
        (run.peer.active = true ↔
          run.now < run.lastReceipt + 10 * run.peer.cfg.rtTimeout.toNat)) := by
  intro run
  have kept := kept_of_admissible inRange admissible
  have cleared := kept.sound.cleared kept.small
  exact ⟨kept.follows.passive_inactive cleared clean done,
    kept.follows.active_iff_lingers cleared clean done⟩

/-- The end of the inbound stream, a message that repeats the acknowledgement, and then
the end of the outbound stream. -/
theorem lingers_unless_passive_noticed :
    let run := machine.run (.start {})
      [.push,
        .receive {
          sender := { seqno := ⟨500⟩, syn := true, fin := true }
          receiver := { ackno := some ⟨138⟩, windowSize := 1000 } },
        .receive { receiver := { ackno := some ⟨138⟩, windowSize := 1000 } },
        .close, .push,
        .receive { receiver := { ackno := some ⟨139⟩, windowSize := 1000 } }]
    (run.passive = true → run.peer.active = false) ∧
      (run.passive = false → run.now + 10 * run.peer.cfg.rtTimeout.toNat < 2 ^ 64 →
        (run.peer.active = true ↔
          run.now < run.lastReceipt + 10 * run.peer.cfg.rtTimeout.toNat)) :=
  lingers_unless_passive (by decide)
    ⟨⟨⟨by decide, by decide⟩, by decide⟩, ⟨⟨by decide, by decide⟩, by decide⟩,
      ⟨⟨by decide, by decide⟩, by decide⟩, ⟨⟨by decide, by decide⟩, by decide⟩,
      ⟨⟨by decide, by decide⟩, by decide⟩, ⟨⟨by decide, by decide⟩, by decide⟩, trivial⟩
    (by decide) ⟨by decide, by decide, by decide, by decide⟩

/-- The application closes right after the end of the inbound stream, and the passive
peer lingers after its FIN has been acknowledged. -/
theorem passive_peer_lingers :
    let run := machine.run (.start {})
      [.push,
        .receive {
          sender := { seqno := ⟨500⟩, syn := true, fin := true }
          receiver := { ackno := some ⟨138⟩, windowSize := 1000 } },
        .close, .push,
        .receive { receiver := { ackno := some ⟨139⟩, windowSize := 1000 } }]
    run.peer.hasErrors = false ∧ run.passive = true ∧ run.Done ∧ run.peer.active = true :=
  ⟨by decide, by decide, ⟨by decide, by decide, by decide, by decide⟩, by decide⟩

end LingerRun
end Rchan
