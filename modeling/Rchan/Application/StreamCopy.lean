import Rchan.Foundation.Runs
import Rchan.Stream.ByteStream
import Rchan.System.EventLoop

namespace Rchan

/-!
# The bidirectional copy

`bidirectional_stream_copy` joins standard input and output to a socket, with one
byte stream in each direction and an event loop of four rules: two that fill a stream
and two that drain it.  It calls the event loop until nothing is left to poll.

Each direction also records what the system has delivered to its reads and what it
has accepted from its writes.
-/

/-- One direction of the copy, with its history. -/
structure Flow where
  stream : ByteStream
  shutdown : Bool := false
  taken : List Byte := []
  given : List Byte := []
  deriving DecidableEq, Repr

namespace Flow

/-- The callback of the rules that fill a stream. -/
def fill (flow : Flow) (source : FDWrapper) (kernel : Kernel) : Except Failure (Flow × FDWrapper) := do
  let (source, data) ← source.read flow.stream.availableCapacity kernel
  let stream := flow.stream.push data
  return ({ flow with
      stream := if source.eof then stream.close else stream
      taken := flow.taken ++ data }, source)

/-- The interest of the rules that fill a stream. -/
def wantsFill (flow other : Flow) : Bool :=
  !flow.stream.hasError && !other.stream.hasError &&
    decide (0 < flow.stream.availableCapacity) && !flow.stream.isClosed

/-- The first half of the callback of the rules that drain a stream. -/
def drain (flow : Flow) (sink : FDWrapper) (kernel : Kernel) :
    Except Failure (Flow × FDWrapper) :=
  if flow.stream.bytesBuffered ≠ 0 then do
    let (sink, written) ← sink.write flow.stream.peek kernel
    return ({ flow with
        stream := flow.stream.pop written
        given := flow.given ++ flow.stream.peek.take written }, sink)
  else return (flow, sink)

/-- The interest of the rules that drain a stream. -/
def wantsDrain (flow : Flow) : Bool :=
  flow.stream.bytesBuffered != 0 || flow.stream.isFinished && !flow.shutdown

def close (flow : Flow) : Flow := { flow with stream := flow.stream.close }

def setError (flow : Flow) : Flow := { flow with stream := flow.stream.setError }

end Flow

/-- The variables of `bidirectional_stream_copy`. -/
structure StreamCopy where
  input : FDWrapper
  output : FDWrapper
  socket : FDWrapper
  outbound : Flow
  inbound : Flow
  deriving DecidableEq, Repr

namespace StreamCopy

def bufferSize : Nat := 1048576

/-- The variables before the loop; standard input and output are descriptors 0 and 1. -/
def create (socket : FDWrapper) : StreamCopy where
  input := ({ fd := 0 } : FDWrapper).setBlocking false
  output := ({ fd := 1 } : FDWrapper).setBlocking false
  socket := socket.setBlocking false
  outbound := { stream := .create bufferSize }
  inbound := { stream := .create bufferSize }

/-- What all the rules do about an error of their descriptor. -/
def setError (copy : StreamCopy) : StreamCopy :=
  { copy with outbound := copy.outbound.setError, inbound := copy.inbound.setError }

def closeOutbound (copy : StreamCopy) : StreamCopy :=
  { copy with outbound := copy.outbound.close }

def closeInbound (copy : StreamCopy) : StreamCopy :=
  { copy with inbound := copy.inbound.close }

/-- Rule 1: read from stdin into the outbound byte stream. -/
def readInput : FDRule StreamCopy where
  categoryId := 0
  fd := input
  direction := .incoming
  callback kernel copy := do
    let (outbound, input) ← copy.outbound.fill copy.input kernel
    return { copy with outbound, input }
  interest copy := copy.outbound.wantsFill copy.inbound
  cancel := closeOutbound
  error := setError

/-- Rule 2: read from the outbound byte stream into the socket. -/
def writeSocket : FDRule StreamCopy where
  categoryId := 1
  fd := socket
  direction := .outgoing
  callback kernel copy := do
    let (outbound, socket) ← copy.outbound.drain copy.socket kernel
    if outbound.stream.isFinished then
      let socket ← socket.shutdown .wr kernel
      return { copy with outbound := { outbound with shutdown := true }, socket }
    else return { copy with outbound, socket }
  interest copy := copy.outbound.wantsDrain
  cancel := closeOutbound
  error := setError

/-- Rule 3: read from the socket into the inbound byte stream. -/
def readSocket : FDRule StreamCopy where
  categoryId := 2
  fd := socket
  direction := .incoming
  callback kernel copy := do
    let (inbound, socket) ← copy.inbound.fill copy.socket kernel
    return { copy with inbound, socket }
  interest copy := copy.inbound.wantsFill copy.outbound
  cancel := closeInbound
  error := setError

/-- Rule 4: read from the inbound byte stream into stdout. -/
def writeOutput : FDRule StreamCopy where
  categoryId := 3
  fd := output
  direction := .outgoing
  callback kernel copy := do
    let (inbound, output) ← copy.inbound.drain copy.output kernel
    if inbound.stream.isFinished then
      let output ← output.close kernel
      return { copy with inbound := { inbound with shutdown := true }, output }
    else return { copy with inbound, output }
  interest copy := copy.inbound.wantsDrain
  cancel := closeInbound
  error := setError

def rules : List (FDRule StreamCopy) := [readInput, writeSocket, readSocket, writeOutput]

/-- The event loop with its four rules, added one after the other. -/
def setUp : Except Failure (EventLoop StreamCopy) := do
  let loop ← ({} : EventLoop StreamCopy).addRule "read from stdin into outbound byte stream" readInput
  let loop ← loop.addRule "read from outbound byte stream into socket" writeSocket
  let loop ← loop.addRule "read from socket into inbound byte stream" readSocket
  loop.addRule "read from inbound byte stream into stdout" writeOutput

def loop : EventLoop StreamCopy where
  ruleCategories :=
    ["read from stdin into outbound byte stream", "read from outbound byte stream into socket",
      "read from socket into inbound byte stream", "read from inbound byte stream into stdout"]
  fdRules := rules

theorem setUp_eq : setUp = .ok loop := rfl

end StreamCopy

/-- A state of `bidirectional_stream_copy` between two calls of the event loop.  The
outcome is that of the whole function, once it has returned or thrown. -/
structure CopyRun where
  loop : EventLoop StreamCopy
  copy : StreamCopy
  outcome : Option (Except Failure Unit) := none

namespace CopyRun

def start (socket : FDWrapper) : CopyRun := { loop := StreamCopy.loop, copy := .create socket }

/-- The body of the loop of `bidirectional_stream_copy`. -/
def step (run : CopyRun) (kernel : Kernel) : CopyRun :=
  match run.outcome with
  | some _ => run
  | none =>
      match run.loop.waitNextEvent kernel run.copy with
      | .error failure => { run with outcome := some (.error failure) }
      | .ok (result, loop, copy) =>
          { loop, copy, outcome := if result = .exit then some (.ok ()) else none }

/-- The copy under a system whose answers meet a condition. -/
def machine (answers : StreamCopy → Kernel → Prop) : Machine CopyRun Kernel where
  allowed run kernel := answers run.copy kernel
  step := step

end CopyRun
end Rchan
