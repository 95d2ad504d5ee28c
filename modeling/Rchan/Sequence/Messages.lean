import Rchan.Sequence.Wrap32

namespace Rchan

/-!
# The messages exchanged by two TCP endpoints

Strings of the source are lists of bytes.  A `TCPMessage` carries one message
from the sender of an endpoint and one from its receiver.
-/

/-- A `char` of a payload or of a stream. -/
abbrev Byte := UInt8

/-- The constants and the configuration of `tcp_config.hh` that the sender, the
receiver and the peer read. -/
structure TCPConfig where
  rtTimeout : UInt16 := 1000
  recvCapacity : Nat := 64000
  sendCapacity : Nat := 64000
  isn : Wrap32 := ⟨137⟩
  deriving Repr

namespace TCPConfig

def maxPayloadSize : Nat := 1000

end TCPConfig

structure TCPSenderMessage where
  seqno : Wrap32 := ⟨0⟩
  syn : Bool := false
  payload : List Byte := []
  fin : Bool := false
  rst : Bool := false
  deriving DecidableEq, Repr

namespace TCPSenderMessage

/-- `TCPSenderMessage::sequence_length`: SYN, payload and FIN take sequence numbers. -/
def sequenceLength (message : TCPSenderMessage) : Nat :=
  message.syn.toNat + message.payload.length + message.fin.toNat

end TCPSenderMessage

structure TCPReceiverMessage where
  ackno : Option Wrap32 := none
  windowSize : UInt16 := 0
  rst : Bool := false
  deriving DecidableEq, Repr

structure TCPMessage where
  sender : TCPSenderMessage := {}
  receiver : TCPReceiverMessage := {}
  deriving DecidableEq, Repr

/-! ## Absolute positions -/

/-- A segment at an absolute position of the sequence space. -/
structure Segment where
  start : Nat
  syn : Bool := false
  payload : List Byte := []
  fin : Bool := false
  rst : Bool := false
  deriving DecidableEq, Repr

namespace Segment

def length (segment : Segment) : Nat :=
  segment.syn.toNat + segment.payload.length + segment.fin.toNat

/-- The first sequence number after the segment. -/
def stop (segment : Segment) : Nat := segment.start + segment.length

/-- The message that carries the segment. -/
def wire (isn : Wrap32) (segment : Segment) : TCPSenderMessage :=
  { seqno := isn + segment.start
    syn := segment.syn
    payload := segment.payload
    fin := segment.fin
    rst := segment.rst }

@[simp] theorem wire_sequenceLength (isn : Wrap32) (segment : Segment) :
    (segment.wire isn).sequenceLength = segment.length := rfl

/-- The index in the stream of the first byte of the segment; SYN has index zero. -/
def index (segment : Segment) : Nat := segment.start - 1

end Segment

end Rchan
