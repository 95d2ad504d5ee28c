import Rchan.Application.CopyEnds
import Rchan.Socket.Ends

namespace Rchan

/-!
# A host that runs `tcp_ipv4`

Behind its arguments `main` opens a socket with `connect` or `listen_and_accept`, runs
`bidirectional_stream_copy` on it, and waits with `wait_until_closed` for the thread of the
socket.  The copy and the thread take their steps in any order.  Between them is the pair of
stream sockets of which the owner's end is the copy's socket.
-/

open StreamCopy (Kept)

/-- The thread of the socket, the copy, and the outcome of the `shutdown` with which
`wait_until_closed` begins. -/
structure Host (Adapt : Type) where
  thread : MinnowRun Adapt
  copy : CopyRun
  closing : Option (Except Failure Unit) := none

/-- A step of the main thread, or a round of the socket's thread. -/
inductive HostOp where
  | main (kernel : Kernel)
  | thread (kernel : Kernel) (now : Nat)

namespace Host

variable {Adapt : Type}

/-- The copy begins with the socket of the owner, once that has been opened. -/
def create (thread : MinnowRun Adapt) : Host Adapt where
  thread
  copy := .start thread.owner

/-- The next step of `main`: a call of the event loop of the copy, or, when the copy has
returned, the `shutdown` of `wait_until_closed`.  Only the counts of the wrapper change
then, and nothing reads them any more. -/
def mainStep (host : Host Adapt) (kernel : Kernel) : Host Adapt :=
  match host.closing, host.copy.outcome with
  | none, none => { host with copy := host.copy.step kernel }
  | none, some (.ok ()) =>
      { host with closing := some ((host.copy.copy.socket.shutdown .rdwr kernel).map fun _ => ()) }
  | _, _ => host

/-- Standard input, as far as it has been read. -/
def stdin (host : Host Adapt) : List Byte := host.copy.copy.outbound.taken

/-- What has been written to standard output. -/
def stdout (host : Host Adapt) : List Byte := host.copy.copy.inbound.given

/-- The bytes in the pair that the thread has not read yet. -/
def toThread (host : Host Adapt) : List Byte :=
  host.copy.copy.outbound.given.drop host.thread.socket.fromOwner.length

/-- The bytes in the pair that the copy has not read yet. -/
def toCopy (host : Host Adapt) : List Byte :=
  host.thread.socket.toOwner.drop host.copy.copy.inbound.taken.length

/-- The main thread has shut the owner's end down for writing. -/
def MainShut (host : Host Adapt) : Prop :=
  host.copy.copy.outbound.shutdown = true ∨ host.closing = some (.ok ())

/-- The thread has shut its end down for writing, or it has come to its end, where it shuts
the owner's end down. -/
def ThreadShut (host : Host Adapt) : Prop :=
  host.thread.socket.inboundShutdown = true ∨ host.thread.phase = .finished (.ok ())

/-- `connect` or `listen_and_accept` has returned. -/
def Opened (host : Host Adapt) : Prop :=
  host.thread.phase ≠ .connecting ∧ host.thread.phase ≠ .accepting

/-- Neither thread has thrown. -/
structure Unfailed (host : Host Adapt) : Prop where
  thread : host.thread.Unfailed
  copy : ∀ failure, host.copy.outcome ≠ some (.error failure)
  closing : ∀ failure, host.closing ≠ some (.error failure)

/-- `main` has returned from `wait_until_closed`. -/
structure Exited (host : Host Adapt) : Prop where
  closing : host.closing = some (.ok ())
  thread : host.thread.phase = .finished (.ok ())

/-- The answers to the copy about its end of the pair. -/
def MainAnswers (host : Host Adapt) (kernel : Kernel) : Prop :=
  kernel.StreamEnd host.copy.copy.socket.fd host.copy.copy.inbound.taken
    host.thread.socket.toOwner host.ThreadShut (host.copy.copy.outbound.shutdown = true)

/-- The answers to the thread about its end of the pair. -/
def ThreadAnswers (host : Host Adapt) (kernel : Kernel) : Prop :=
  kernel.StreamEnd host.thread.socket.threadData.fd host.thread.socket.fromOwner
    host.copy.copy.outbound.given host.MainShut (host.thread.socket.inboundShutdown = true)

/-- Both directions of the pair are conduits. -/
structure Paired (host : Host Adapt) : Prop where
  outbound : Conduit host.copy.copy.outbound.given host.MainShut host.thread.socket.fromOwner
    (host.thread.socket.threadData.eof = true)
  inbound : Conduit host.thread.socket.toOwner host.ThreadShut host.copy.copy.inbound.taken
    (host.copy.copy.socket.eof = true)

variable {Address : Type} [SocketAddress Address] [OverTun Address Adapt] {host : Host Adapt}
  {kernel : Kernel} {socket : Nat}

def step (host : Host Adapt) : HostOp → Host Adapt
  | .main kernel => host.mainStep kernel
  | .thread kernel now => { host with thread := host.thread.round kernel now }

/-- A pair on which nothing has been read and nothing closed. -/
structure Fresh (run : MinnowRun Adapt) : Prop where
  ownerOpen : run.owner.closed = false
  ownerUnended : run.owner.eof = false
  threadUnended : run.socket.threadData.eof = false

theorem paired_create {run : MinnowRun Adapt} (fresh : Fresh run)
    (unread : run.socket.fromOwner = []) : (create run).Paired where
  outbound := by
    change Conduit [] _ run.socket.fromOwner (run.socket.threadData.eof = true)
    rw [unread]
    exact .empty [] (by simp [fresh.threadUnended])
  inbound := .empty run.socket.toOwner (by
    change ¬ run.owner.eof = true
    simp [fresh.ownerUnended])

/-- The main thread takes a step. -/
theorem Paired.mainStep (paired : host.Paired) (between : host.copy.Between (Kept socket))
    (answers : host.MainAnswers kernel) : (host.mainStep kernel).Paired := by
  unfold Host.mainStep
  split
  · rename_i waiting running
    have after : (host.copy.step kernel).Between _ := between.exchanges
    have exchanged : StreamCopy.Exchanged kernel host.copy.copy (host.copy.step kernel).copy :=
      after.kept.2
    refine ⟨paired.outbound.send exchanged.gave ?_, exchanged.took.conduit answers paired.inbound⟩
    rintro (shut | closing)
    · have final := exchanged.final shut
      exact ⟨Or.inl final.1, final.2⟩
    · rw [waiting] at closing
      cases closing
  · rename_i waiting returned
    refine ⟨paired.outbound.mono ?_ id, paired.inbound⟩
    rintro (shut | closing)
    · exact Or.inl shut
    · rw [waiting] at closing
      cases closing
  · exact paired

/-- The thread takes a round. -/
theorem Paired.round (paired : host.Paired) (inStep : host.thread.InStep)
    (takes : kernel.TakesWhole host.thread.socket.device.tun.fd)
    (answers : host.ThreadAnswers kernel) (now : Nat) :
    Paired { host with thread := host.thread.round kernel now } := by
  have exchanged := inStep.exchanges takes now
  refine ⟨exchanged.took.conduit answers paired.outbound,
    paired.inbound.send exchanged.gave ?_⟩
  rintro (shut | finished)
  · have final := exchanged.final shut (answers.writes shut)
    exact ⟨Or.inl final.1, final.2⟩
  · rw [MinnowRun.round_of_finished finished]
    exact ⟨Or.inr finished, rfl⟩

end Host
end Rchan
