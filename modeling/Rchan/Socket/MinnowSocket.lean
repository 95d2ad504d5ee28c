import Rchan.Network.Driving
import Rchan.Socket.Adapters
import Rchan.System.EventLoop

namespace Rchan

/-!
# The TCP socket

A `TCPMinnowSocket` runs a peer in a thread of its own, between a datagram adapter and
one end of a pair of connected stream sockets, whose other end is the socket of the
owner.  An event loop of three rules joins them: datagrams go to the peer, bytes from
the owner into the outbound stream, and bytes from the inbound stream to the owner.
`connect` and `listen_and_accept` run the loop until the connection is open, then the
thread runs it until nothing is left to poll.

The socket records the bytes that it has read from the owner and written to it, and its
peer is one with a history.
-/

/-- The variables of a `TCPMinnowSocket` that its event loop works on. -/
structure MinnowSocket (Adapt : Type) where
  datagramAdapter : Adapt
  threadData : FDWrapper
  tcp : PeerRun
  inboundShutdown : Bool := false
  outboundShutdown : Bool := false
  fullyAcked : Bool := false
  fromOwner : List Byte := []
  toOwner : List Byte := []

namespace MinnowSocket

variable {Address Adapt : Type} [TCPDatagramAdapter Address Adapt]

/-- `_tcp->outbound_writer()`. -/
def outbound (socket : MinnowSocket Adapt) : ByteStream := socket.tcp.peer.sender.input

/-- `_tcp->inbound_reader()`. -/
def inbound (socket : MinnowSocket Adapt) : ByteStream :=
  socket.tcp.peer.receiver.reassembler.output

/-- The function that the peer transmits with, for all messages of an operation. -/
def transmit (adapter : Adapt) (messages : List TCPMessage) (kernel : Kernel) :
    Except Failure Adapt :=
  messages.foldlM (fun adapter seg => TCPDatagramAdapter.write adapter seg kernel) adapter

/-- An operation of the peer, with the messages that it transmits. -/
def call (socket : MinnowSocket Adapt) (op : PeerOp) (kernel : Kernel) :
    Except Failure (MinnowSocket Adapt) := do
  let datagramAdapter ←
    transmit socket.datagramAdapter (PeerRun.operate socket.tcp.peer op).2 kernel
  return { socket with datagramAdapter, tcp := socket.tcp.step op }

/-- Give a message to the peer, if one has been read. -/
def deliver (socket : MinnowSocket Adapt) (seg : Option TCPMessage) (kernel : Kernel) :
    Except Failure (MinnowSocket Adapt) :=
  match seg with
  | some msg => socket.call (.receive msg) kernel
  | none => return socket

/-- Note that the outbound stream has been acknowledged. -/
def noteAcked (socket : MinnowSocket Adapt) : MinnowSocket Adapt :=
  if socket.threadData.eof && socket.tcp.peer.sender.sequenceNumbersInFlight == 0 &&
      !socket.fullyAcked then
    { socket with fullyAcked := true }
  else socket

/-- Push bytes of the owner into the outbound stream. -/
def takeFromOwner (socket : MinnowSocket Adapt) (data : List Byte) : MinnowSocket Adapt :=
  { socket with tcp := socket.tcp.step (.write data), fromOwner := socket.fromOwner ++ data }

/-- Close the outbound stream. -/
def closeOutbound (socket : MinnowSocket Adapt) : MinnowSocket Adapt :=
  { socket with tcp := socket.tcp.step .close, outboundShutdown := true }

/-- Pop the bytes from the inbound stream that the owner has taken. -/
def giveToOwner (socket : MinnowSocket Adapt) (written : Nat) : MinnowSocket Adapt :=
  { socket with
    tcp := socket.tcp.step (.read written)
    toOwner := socket.toOwner ++ socket.inbound.peek.take written }

/-- Write from the inbound stream to the owner, as much as it takes. -/
def drainInbound (socket : MinnowSocket Adapt) (kernel : Kernel) :
    Except Failure (MinnowSocket Adapt) :=
  if socket.inbound.bytesBuffered ≠ 0 then do
    let (threadData, written) ← socket.threadData.write socket.inbound.peek kernel
    return giveToOwner { socket with threadData } written
  else return socket

/-- The test for the end of the inbound stream. -/
def inboundOver (socket : MinnowSocket Adapt) : Bool :=
  socket.inbound.isFinished || socket.inbound.hasError

/-- Rule 1: read from filtered packet stream and dump into the peer. -/
def receiveSegment : FDRule (MinnowSocket Adapt) where
  categoryId := 0
  fd socket := TCPDatagramAdapter.fd socket.datagramAdapter
  direction := .incoming
  callback kernel socket := do
    let (datagramAdapter, seg) ← TCPDatagramAdapter.read socket.datagramAdapter kernel
    let socket ← deliver { socket with datagramAdapter } seg kernel
    return socket.noteAcked
  interest socket := socket.tcp.peer.active
  cancel := id
  error := id

/-- Rule 2: read from pipe into outbound buffer. -/
def pushBytes : FDRule (MinnowSocket Adapt) where
  categoryId := 1
  fd := threadData
  direction := .incoming
  callback kernel socket := do
    let (threadData, data) ← socket.threadData.read socket.outbound.availableCapacity kernel
    let socket := takeFromOwner { socket with threadData } data
    let socket := if threadData.eof then socket.closeOutbound else socket
    socket.call .push kernel
  interest socket :=
    socket.tcp.peer.active && !socket.outboundShutdown &&
      decide (0 < socket.outbound.availableCapacity)
  cancel := closeOutbound
  error socket := { socket with tcp := socket.tcp.failOutbound }

/-- Rule 3: read from inbound buffer into pipe. -/
def readInbound : FDRule (MinnowSocket Adapt) where
  categoryId := 2
  fd := threadData
  direction := .outgoing
  callback kernel socket := do
    let socket ← socket.drainInbound kernel
    if socket.inboundOver then
      let threadData ← socket.threadData.shutdown .wr kernel
      return { socket with threadData, inboundShutdown := true }
    else return socket
  interest socket :=
    socket.inbound.bytesBuffered != 0 || socket.inboundOver && !socket.inboundShutdown
  cancel := id
  error socket := { socket with tcp := socket.tcp.failInbound }

def rules : List (FDRule (MinnowSocket Adapt)) := [receiveSegment, pushBytes, readInbound]

/-- The event loop that `_initialize_TCP` sets up. -/
def setUp : Except Failure (EventLoop (MinnowSocket Adapt)) := do
  let loop ← ({} : EventLoop (MinnowSocket Adapt)).addRule
    "receive TCP segment from the network" receiveSegment
  let loop ← loop.addRule "push bytes to TCPPeer" pushBytes
  loop.addRule "read bytes from inbound stream" readInbound

def loop : EventLoop (MinnowSocket Adapt) where
  ruleCategories :=
    ["receive TCP segment from the network", "push bytes to TCPPeer",
      "read bytes from inbound stream"]
  fdRules := rules

theorem setUp_eq : setUp = .ok (loop : EventLoop (MinnowSocket Adapt)) := rfl

/-- The variables after `_initialize_TCP` and the configuration of the adapter. -/
def create (threadData : FDWrapper) (adapter : Adapt) (cTcp : TCPConfig)
    (cAd : FdAdapterConfig Address) : MinnowSocket Adapt where
  datagramAdapter := TCPDatagramAdapter.setConfig adapter cAd
  threadData := threadData.setBlocking false
  tcp := .start cTcp

end MinnowSocket

/-! ## The loop -/

/-- Which `_tcp_loop` is running: that of `connect`, that of `listen_and_accept` or that of
the thread; or the way in which the socket has come to its end. -/
inductive MinnowPhase where
  | connecting
  | accepting
  | running
  | finished (outcome : Except Failure Unit)

/-- A socket between two calls of its event loop. -/
structure MinnowRun (Adapt : Type) where
  owner : FDWrapper
  loop : EventLoop (MinnowSocket Adapt)
  socket : MinnowSocket Adapt
  phase : MinnowPhase
  baseTime : Nat
  abort : Bool := false

/-- The loop makes one round, at a time and with the answers of the system, or the owner
asks it to stop. -/
inductive MinnowOp where
  | round (kernel : Kernel) (now : Nat)
  | abort

namespace MinnowRun

variable {Address Adapt : Type} [TCPDatagramAdapter Address Adapt]

/-- `TCPMinnowSocket::connect` up to its loop. -/
def connect (owner threadData : FDWrapper) (adapter : Adapt) (cTcp : TCPConfig)
    (cAd : FdAdapterConfig Address) (kernel : Kernel) (now : Nat) :
    Except Failure (MinnowRun Adapt) := do
  let loop ← MinnowSocket.setUp
  let socket ← (MinnowSocket.create threadData adapter cTcp cAd).call .push kernel
  if socket.tcp.peer.sender.sequenceNumbersInFlight ≠ 1 then
    throw (.runtimeError
      "After TCPConnection::connect(), expected sequence_numbers_in_flight() == 1")
  else
    return {
      owner := owner.setBlocking false
      loop
      socket
      phase := .connecting
      baseTime := now }

/-- `TCPMinnowSocket::listen_and_accept` up to its loop. -/
def listenAndAccept (owner threadData : FDWrapper) (adapter : Adapt) (cTcp : TCPConfig)
    (cAd : FdAdapterConfig Address) (now : Nat) : Except Failure (MinnowRun Adapt) := do
  let loop ← MinnowSocket.setUp
  let socket := MinnowSocket.create threadData adapter cTcp cAd
  return {
    owner := owner.setBlocking false
    loop
    socket := { socket with
      datagramAdapter := TCPDatagramAdapter.setListening socket.datagramAdapter true }
    phase := .accepting
    baseTime := now }

/-- The condition of the current `_tcp_loop`. -/
def condition (run : MinnowRun Adapt) : Bool :=
  match run.phase with
  | .connecting => run.socket.tcp.peer.sender.sequenceNumbersInFlight == 1
  | .accepting =>
      run.socket.tcp.peer.receiver.send.ackno.isNone ||
        run.socket.tcp.peer.sender.sequenceNumbersInFlight != 0
  | .running => true
  | .finished _ => false

/-- What follows the current loop: the thread with its own, or the end of the thread. -/
def leave (run : MinnowRun Adapt) (kernel : Kernel) (now : Nat) : MinnowRun Adapt :=
  match run.phase with
  | .running =>
      match run.owner.shutdown .rdwr kernel with
      | .error failure => { run with phase := .finished (.error failure) }
      | .ok owner => { run with owner, phase := .finished (.ok ()) }
  | .finished _ => run
  | _ => { run with phase := .running, baseTime := now }

/-- The rest of a round of `_tcp_loop`, once the event loop has returned. -/
def elapse (run : MinnowRun Adapt) (kernel : Kernel) (now : Nat) : MinnowRun Adapt :=
  if run.socket.tcp.peer.active then
    match run.socket.call (.tick (Word.sub 64 now run.baseTime)) kernel with
    | .error failure => { run with phase := .finished (.error failure) }
    | .ok socket => { run with socket, baseTime := now }
  else run

/-- The event loop has returned: leave the current loop, or go on. -/
def proceed (run : MinnowRun Adapt) (result : EventLoop.Result) (kernel : Kernel) (now : Nat) :
    MinnowRun Adapt :=
  if result = .exit ∨ run.abort = true then run.leave kernel now else run.elapse kernel now

/-- A round of the current `_tcp_loop`. -/
def round (run : MinnowRun Adapt) (kernel : Kernel) (now : Nat) : MinnowRun Adapt :=
  if run.condition then
    match run.loop.waitNextEvent kernel run.socket with
    | .error failure => { run with phase := .finished (.error failure) }
    | .ok (result, loop, socket) => proceed { run with loop, socket } result kernel now
  else run.leave kernel now

def step (run : MinnowRun Adapt) : MinnowOp → MinnowRun Adapt
  | .round kernel now => run.round kernel now
  | .abort => { run with abort := true }

end MinnowRun
end Rchan
