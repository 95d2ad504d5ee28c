import Rchan.Peer.TCPPeer
import Rchan.Receiver.Delivery
import Rchan.Sender.History

namespace Rchan

/-!
# Runs of a peer and their history

A run of a peer records what went in and out of it: the bytes its outbound stream
accepted, the segments it sent for the first time, the bytes read from its inbound
stream, and every message it transmitted.  The outbound half of a run is a run of
its sender and the inbound half a run of its receiver.
-/

/-- The operations on a peer and on its two streams. -/
inductive PeerOp where
  | write (data : List Byte)
  | close
  | push
  | receive (msg : TCPMessage)
  | tick (t : Nat)
  | read (len : Nat)

structure PeerRun where
  peer : TCPPeer
  written : List Byte := []
  segments : List TCPSenderMessage := []
  transmitted : List TCPSenderMessage := []
  acked : Nat := 0
  delivered : List Byte := []
  sent : List TCPMessage := []

namespace PeerRun

def start (cfg : TCPConfig) : PeerRun := { peer := .create cfg }

/-- The outbound half of a run. -/
def sending (run : PeerRun) : SenderRun where
  sender := run.peer.sender
  written := run.written
  segments := run.segments
  transmitted := run.transmitted
  acked := run.acked

/-- The inbound half of a run. -/
def receiving (run : PeerRun) : ReceiverRun where
  receiver := run.peer.receiver
  delivered := run.delivered

/-- The operation on the sender that an operation on the peer contains. -/
def senderOp (run : PeerRun) : PeerOp → Option SenderOp
  | .write data => some (.write data)
  | .close => some .close
  | .push => some .push
  | .receive msg => if run.peer.active then some (.receive msg.receiver) else none
  | .tick t => some (.tick t)
  | .read _ => none

/-- The peer after an operation, and the messages it transmits. -/
def operate (peer : TCPPeer) : PeerOp → TCPPeer × List TCPMessage
  | .write data =>
      ({ peer with sender := { peer.sender with input := peer.sender.input.push data } }, [])
  | .close => ({ peer with sender := { peer.sender with input := peer.sender.input.close } }, [])
  | .push => peer.push
  | .receive msg => peer.receive msg
  | .tick t => peer.tick t
  | .read len => ({ peer with receiver := peer.receiver.read len }, [])

/-- The bytes that an operation reads from the inbound stream. -/
def bytesRead (run : PeerRun) : PeerOp → List Byte
  | .read len => run.peer.receiver.reassembler.output.peek.take len
  | _ => []

def step (run : PeerRun) (op : PeerOp) : PeerRun :=
  let history := (run.senderOp op).elim run.sending run.sending.step
  { peer := (operate run.peer op).1
    written := history.written
    segments := history.segments
    transmitted := history.transmitted
    acked := history.acked
    delivered := run.delivered ++ run.bytesRead op
    sent := run.sent ++ (operate run.peer op).2 }

variable (run : PeerRun)

/-- The outbound half of a run is a run of the sender. -/
theorem sending_step (op : PeerOp) :
    (run.step op).sending = (run.senderOp op).elim run.sending run.sending.step := by
  have sender : (operate run.peer op).1.sender =
      ((run.senderOp op).elim run.sending run.sending.step).sender := by
    cases op with
    | push => exact run.peer.push_sender
    | tick t => exact run.peer.tick_sender t
    | receive msg =>
        by_cases active : run.peer.active = true
        · rw [senderOp, if_pos active]
          exact TCPPeer.receive_sender msg active
        · rw [senderOp, if_neg active, operate,
            TCPPeer.receive_inactive msg (by simpa using active)]
          rfl
    | _ => rfl
  rw [sending, step, sender]

/-- The inbound half of a run is a run of the receiver. -/
theorem receiving_step (op : PeerOp) :
    (run.step op).receiving =
      match op with
      | .receive msg => if run.peer.active then run.receiving.receive msg.sender else run.receiving
      | .read len => run.receiving.read len
      | _ => run.receiving := by
  cases op with
  | push => simp [receiving, step, operate, bytesRead, run.peer.push_receiver]
  | tick t => simp [receiving, step, operate, bytesRead, run.peer.tick_receiver]
  | receive msg =>
      by_cases active : run.peer.active = true
      · simp [receiving, step, operate, bytesRead, active, TCPPeer.receive_receiver msg active,
          ReceiverRun.receive]
      · simp [receiving, step, operate, bytesRead, active,
          TCPPeer.receive_inactive msg (by simpa using active)]
  | _ => simp [receiving, step, operate, bytesRead, ReceiverRun.read]

/-- A transmitted message carries what the receiver says after the operation. -/
theorem mem_operate {peer : TCPPeer} {op : PeerOp} {message : TCPMessage}
    (member : message ∈ (operate peer op).2) :
    message.receiver = (operate peer op).1.receiver.send := by
  cases op with
  | push =>
      rw [operate, peer.push_receiver]
      exact (TCPPeer.mem_send _ member).2
  | tick t =>
      rw [operate, peer.tick_receiver]
      exact (TCPPeer.mem_send _ member).2
  | receive msg => exact (TCPPeer.mem_receive member).2.2
  | _ => cases member

end PeerRun
end Rchan
