import Rchan.Receiver.TCPReceiver
import Rchan.Sender.TCPSender

namespace Rchan

/-!
# The peer

`TCPPeer` joins a sender and a receiver.  Whatever the sender transmits goes out
together with the current message of the receiver, and an incoming message is
given to both.  The peer replies to messages that occupy sequence numbers, and it
stays active until both streams are finished and the lingering time is over.
-/

structure TCPPeer where
  cfg : TCPConfig
  sender : TCPSender
  receiver : TCPReceiver
  needSend : Bool := false
  lingerAfterStreamsFinish : Bool := true
  cumulativeTime : Nat := 0
  timeOfLastReceipt : Nat := 0

namespace TCPPeer

/-- `TCPPeer::TCPPeer`. -/
def create (cfg : TCPConfig) : TCPPeer where
  cfg := cfg
  sender := .create (.create cfg.sendCapacity) cfg.isn cfg.rtTimeout.toNat
  receiver := .create cfg.recvCapacity

/-- `TCPPeer::send` for every message that the sender transmits. -/
def send (peer : TCPPeer) (messages : List TCPSenderMessage) : TCPPeer × List TCPMessage :=
  ({ peer with needSend := peer.needSend && messages.isEmpty },
    messages.map (fun message => { sender := message, receiver := peer.receiver.send }))

/-- `TCPPeer::push`. -/
def push (peer : TCPPeer) : TCPPeer × List TCPMessage :=
  send { peer with sender := peer.sender.push.1 } peer.sender.push.2

/-- `TCPPeer::tick`. -/
def tick (peer : TCPPeer) (t : Nat) : TCPPeer × List TCPMessage :=
  send { peer with
    cumulativeTime := Word.add 64 peer.cumulativeTime t
    sender := (peer.sender.tick t).1 } (peer.sender.tick t).2

def hasErrors (peer : TCPPeer) : Bool :=
  peer.receiver.reassembler.output.hasError || peer.sender.input.hasError

def senderActive (peer : TCPPeer) : Bool :=
  peer.sender.sequenceNumbersInFlight != 0 || !peer.sender.input.isFinished

def receiverActive (peer : TCPPeer) : Bool := !peer.receiver.reassembler.output.isClosed

def lingering (peer : TCPPeer) : Bool :=
  peer.lingerAfterStreamsFinish &&
    decide (peer.cumulativeTime <
      Word.add 64 peer.timeOfLastReceipt (Word.mul 64 10 peer.cfg.rtTimeout.toNat))

/-- `TCPPeer::active`. -/
def active (peer : TCPPeer) : Bool :=
  !peer.hasErrors && (peer.senderActive || peer.receiverActive || peer.lingering)

/-- What `receive` notes about a message before it hands it on. -/
def notice (peer : TCPPeer) (msg : TCPMessage) : TCPPeer :=
  let occupies := decide (0 < msg.sender.sequenceLength)
  let keepAlive := decide (peer.receiver.send.ackno = some (msg.sender.seqno + 1))
  { peer with
    timeOfLastReceipt := peer.cumulativeTime
    needSend := peer.needSend || occupies || keepAlive
    lingerAfterStreamsFinish :=
      if peer.receiver.reassembler.output.isClosed && !peer.sender.input.isFinished then false
      else peer.lingerAfterStreamsFinish }

/-- `TCPPeer::receive`. -/
def receive (peer : TCPPeer) (msg : TCPMessage) : TCPPeer × List TCPMessage :=
  if peer.active then
    let noticed := peer.notice msg
    let handed :=
      { noticed with
        receiver := noticed.receiver.receive msg.sender
        sender := noticed.sender.receive msg.receiver }
    if handed.needSend then handed.send [handed.sender.makeEmptyMessage]
    else (handed, [])
  else (peer, [])

/-! ## The parts of a peer after an operation -/

variable (peer : TCPPeer)

@[simp] theorem send_sender (messages : List TCPSenderMessage) :
    (peer.send messages).1.sender = peer.sender := rfl

@[simp] theorem send_receiver (messages : List TCPSenderMessage) :
    (peer.send messages).1.receiver = peer.receiver := rfl

theorem push_sender : peer.push.1.sender = peer.sender.push.1 := by
  rw [push, send_sender]

theorem push_receiver : peer.push.1.receiver = peer.receiver := by
  rw [push, send_receiver]

theorem tick_sender (t : Nat) : (peer.tick t).1.sender = (peer.sender.tick t).1 := by
  rw [tick, send_sender]

theorem tick_receiver (t : Nat) : (peer.tick t).1.receiver = peer.receiver := by
  rw [tick, send_receiver]

/-- Every transmitted message carries the message of the receiver. -/
theorem mem_send {messages : List TCPSenderMessage} {message : TCPMessage}
    (member : message ∈ (peer.send messages).2) :
    message.sender ∈ messages ∧ message.receiver = peer.receiver.send := by
  rcases List.mem_map.mp member with ⟨payload, original, rfl⟩
  exact ⟨original, rfl⟩

variable {peer}

theorem receive_inactive (msg : TCPMessage) (quiet : peer.active = false) :
    peer.receive msg = (peer, []) := by
  rw [receive, quiet]
  rfl

theorem receive_sender (msg : TCPMessage) (active : peer.active = true) :
    (peer.receive msg).1.sender = peer.sender.receive msg.receiver := by
  rw [receive, if_pos active]
  simp only
  split <;> rfl

theorem receive_receiver (msg : TCPMessage) (active : peer.active = true) :
    (peer.receive msg).1.receiver = peer.receiver.receive msg.sender := by
  rw [receive, if_pos active]
  simp only
  split <;> rfl

/-- A reply is an empty message that carries the new message of the receiver. -/
theorem mem_receive {msg message : TCPMessage} (member : message ∈ (peer.receive msg).2) :
    peer.active = true ∧ message.sender = (peer.receive msg).1.sender.makeEmptyMessage ∧
      message.receiver = (peer.receive msg).1.receiver.send := by
  rw [receive] at member ⊢
  by_cases active : peer.active = true
  · rw [if_pos active] at member ⊢
    simp only at member ⊢
    split at member
    · rename_i replies
      have parts := mem_send _ member
      rw [if_pos replies]
      exact ⟨active, List.mem_singleton.mp parts.1, parts.2⟩
    · cases member
  · rw [if_neg active] at member
    cases member

/-- A peer without errors that is not active has finished both streams. -/
theorem finished_of_quiet (clean : peer.hasErrors = false) (quiet : peer.active = false) :
    peer.sender.sequenceNumbersInFlight = 0 ∧ peer.sender.input.isFinished = true ∧
      peer.receiver.reassembler.output.isClosed = true := by
  have parts : peer.sender.sequenceNumbersInFlight = 0 ∧ peer.sender.input.isFinished = true ∧
      peer.receiver.reassembler.output.isClosed = true ∧ peer.lingering = false := by
    simpa [active, clean, senderActive, receiverActive, and_assoc] using quiet
  exact ⟨parts.1, parts.2.1, parts.2.2.1⟩

end TCPPeer
end Rchan
