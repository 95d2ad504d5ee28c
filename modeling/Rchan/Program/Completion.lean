import Rchan.Program.EndToEnd

namespace Rchan

/-!
# The end of the two programs

On systems on which nothing fails and nobody is cut off, every part of the way passes on the
end of what it carries only behind the whole of it.  The parts are conduits in line, so a
standard output is closed only when the standard input at the other end has ended and all of
it has been written.
-/

open StreamCopy (Kept)

namespace Host

open CopyRun (Unbroken)

variable {Address Adapt : Type} [SocketAddress Address] [OverTun Address Adapt]
  {host : Host Adapt}

/-- A system on which nothing fails, the device stays up, no one hangs up before the end,
and both ends of the pair stay readable up to theirs. -/
def Calm (host : Host Adapt) : HostOp → Prop
  | .main kernel => StreamCopy.Gentle host.copy.copy kernel
  | .thread kernel _ =>
      host.thread.socket.Calm kernel ∧ host.thread.socket.Gentle kernel

/-- The end of standard input has been read, or its writer has hung up. -/
def StdinEnded (host : Host Adapt) : Prop := host.copy.copy.outbound.stream.closed = true

/-- Standard output has been closed. -/
def StdoutClosed (host : Host Adapt) : Prop := host.copy.copy.inbound.shutdown = true

/-- What a host keeps on calm systems. -/
structure Settled (host : Host Adapt) : Prop where
  paired : host.Paired
  copying : ∃ socket, host.copy.Between
    (fun rules copy => Kept socket rules copy ∧ Unbroken copy rules copy)
  byPeer : host.copy.copy.EndedByPeer
  byOwner : host.thread.socket.EndedByOwner
  returned : host.closing = some (.ok ()) → host.copy.outcome = some (.ok ())
  finished : host.thread.phase = .finished (.ok ()) → host.thread.socket.inboundShutdown = true

/-- The owner's bytes end before the outbound stream, `wait_until_closed` follows the copy,
and no one has asked the thread to stop. -/
structure Orderly (host : Host Adapt) : Prop where
  byOwner : host.thread.socket.EndedByOwner
  returned : host.closing = some (.ok ()) → host.copy.outcome = some (.ok ())
  patient : host.thread.abort = false

theorem Orderly.step {Other : Type} [OverTun Address Other] {other : Host Other} {op : HostOp}
    (orderly : host.Orderly) (working : host.Working) (answered : host.Answered other op)
    (calm : host.Calm op) : (host.step op).Orderly := by
  cases op with
  | main kernel =>
      have thread := host.mainStep_thread kernel
      refine {
        byOwner := ?_
        returned := ?_
        patient := ?_ }
      · change (host.mainStep kernel).thread.socket.EndedByOwner
        rw [thread]
        exact orderly.byOwner
      · change (host.mainStep kernel).closing = _ → (host.mainStep kernel).copy.outcome = _
        unfold mainStep
        split
        · rename_i waiting running
          exact fun closing => absurd (waiting.symm.trans closing) (by simp)
        · rename_i waiting returned
          exact fun _ => returned
        · exact orderly.returned
      · change (host.mainStep kernel).thread.abort = false
        rw [thread]
        exact orderly.patient
  | thread kernel now =>
      have exchanged := working.inStep.exchanges answered.1.whole now
      exact {
        byOwner := exchanged.ended orderly.byOwner calm.2
        returned := orderly.returned
        patient := (host.thread.round_abort kernel now).trans orderly.patient }

namespace Settled

theorem complete (settled : host.Settled) (returned : host.copy.outcome = some (.ok ())) :
    host.copy.copy.outbound.Complete ∧ host.copy.copy.inbound.Complete := by
  rcases settled.copying with ⟨socket, between⟩
  exact between.complete returned

/-- The way from standard input to the peer: the outbound stream of the copy and the pair. -/
theorem outbound (settled : host.Settled) :
    Conduit host.stdin host.StdinEnded host.thread.socket.fromOwner
      (host.thread.socket.outboundShutdown = true) := by
  rcases settled.copying with ⟨socket, between⟩
  refine between.kept.1.outbound.conduit.trans (settled.paired.outbound.mono ?_ settled.byOwner)
  rintro (shut | closing)
  · exact shut
  · exact (settled.complete (settled.returned closing)).1.shutdown

/-- The way from the peer to standard output: the pair and the inbound stream of the copy. -/
theorem inbound (settled : host.Settled) :
    Conduit host.thread.socket.toOwner (host.thread.socket.inboundShutdown = true) host.stdout
      host.StdoutClosed := by
  rcases settled.copying with ⟨socket, between⟩
  refine (settled.paired.inbound.mono ?_ settled.byPeer).trans between.kept.1.inbound.conduit
  rintro (shut | finished)
  · exact shut
  · exact settled.finished finished

end Settled
end Host

namespace HostPair

open CopyRun (Unbroken)
open Host (Settled)
open MinnowRun (Joined Opens)

variable {Address First Second : Type} [SocketAddress Address] [OverTun Address First]
  [OverTun Address Second] {leftCfg rightCfg : TCPConfig} {start : SocketPair First Second}
  {first pair : HostPair First Second}

/-- Two hosts on calm systems. -/
def calmMachine : Machine (HostPair First Second) HostPairOp := machine Host.Calm Host.Calm

theorem Begins.swap (begins : Begins leftCfg rightCfg start) :
    Begins rightCfg leftCfg ⟨start.right, start.left⟩ :=
  ⟨begins.smallRight, begins.smallLeft, begins.opensRight, begins.opensLeft, begins.freshRight,
    begins.freshLeft⟩

/-- The copy of the first host runs as a copy on a gentle system. -/
theorem copy_reachable (reached : calmMachine.Reachable first pair) :
    (CopyRun.machine StreamCopy.Gentle).Reachable first.left.copy pair.left.copy := by
  refine reached.project (fun pair => pair.left.copy) fun pair op permitted => ?_
  cases op with
  | right op => exact .start
  | left op =>
      cases op with
      | thread kernel now => exact .start
      | main kernel =>
          have permitted : Allowed Host.Calm pair.left pair.right (.main kernel) := permitted
          change (CopyRun.machine StreamCopy.Gentle).Reachable pair.left.copy
            (pair.left.mainStep kernel).copy
          rcases pair.left.mainStep_copy kernel with stepped | same
          · rw [stepped]
            exact .step kernel .start permitted.2.2.2
          · rw [same]
            exact .start

theorem orderly_of_reachable (begins : Begins leftCfg rightCfg start)
    (reached : calmMachine.Reachable (create start) pair) : pair.left.Orderly := by
  suffices all : (pair.left.Working ∧ pair.right.Working) ∧ pair.left.Orderly from all.2
  refine reached.invariant
    (fun pair => (pair.left.Working ∧ pair.right.Working) ∧ pair.left.Orderly) ⟨?_, ?_⟩ ?_
  · exact ⟨working_create begins.opensLeft begins.freshLeft,
      working_create begins.opensRight begins.freshRight⟩
  · exact {
      byOwner := fun closed => absurd (begins.opensLeft.unclosed.1.symm.trans closed)
        Bool.false_ne_true
      returned := fun impossible => by cases impossible
      patient := begins.opensLeft.unclosed.2 }
  · rintro pair op ⟨⟨left, right⟩, orderly⟩ permitted
    cases op with
    | left op =>
        have permitted : Allowed Host.Calm pair.left pair.right op := permitted
        have answered := permitted.2.2.1
        exact ⟨⟨left.step right.inStep answered, right⟩,
          orderly.step left answered permitted.2.2.2⟩
    | right op =>
        have permitted : Allowed Host.Calm pair.right pair.left op := permitted
        exact ⟨⟨left, right.step left.inStep permitted.2.2.1⟩, orderly⟩

/-- The sockets of two hosts on calm systems. -/
theorem calm_sockets (reached : calmMachine.Reachable first pair) :
    SocketPair.calmMachine.Reachable first.sockets pair.sockets :=
  sockets_reachable (fun _ _ _ calm => calm.1) (fun _ _ _ calm => calm.2.noError) reached

theorem joined_of_reachable (begins : Begins leftCfg rightCfg start)
    (reached : calmMachine.Reachable (create start) pair)
    (fewLeft : pair.left.stdin.length < 2 ^ 31) (fewRight : pair.right.stdin.length < 2 ^ 31) :
    Joined leftCfg.isn rightCfg.isn pair.left.thread pair.right.thread := by
  have working := working_of_reachable begins reached
  have few : pair.sockets.writtenLength < 2 ^ 31 :=
    max_lt (Nat.lt_of_le_of_lt working.1.fromOwner_length_le fewLeft)
      (Nat.lt_of_le_of_lt working.2.fromOwner_length_le fewRight)
  exact SocketPair.joined_of_reachable begins.smallLeft begins.smallRight begins.opensLeft
    begins.opensRight (calm_sockets reached) few

theorem settled_of_reachable (begins : Begins leftCfg rightCfg start)
    (readable : start.left.socket.Readable) (reached : calmMachine.Reachable (create start) pair)
    (fewLeft : pair.left.stdin.length < 2 ^ 31) (fewRight : pair.right.stdin.length < 2 ^ 31) :
    pair.left.Settled := by
  have working := working_of_reachable begins reached
  have orderly := orderly_of_reachable begins reached
  have gentle := CopyRun.gentle_of_reachable begins.freshLeft.ownerOpen (copy_reachable reached)
  have joined := joined_of_reachable begins reached fewLeft fewRight
  have peaceful := SocketPair.peaceful_of_reachable begins.opensLeft begins.opensRight readable
    (calm_sockets reached)
  exact {
    paired := working.1.paired
    copying := ⟨_, CopyRun.unbroken_of_reachable begins.freshLeft.ownerOpen gentle.1⟩
    byPeer := gentle.2
    byOwner := orderly.byOwner
    returned := orderly.returned
    finished := fun exited =>
      (peaceful.finished joined.back.received.wellFormed exited orderly.patient).2.2 }

/-- One direction of the connection, between peers without errors. -/
theorem conduit_of_joined {isn otherIsn : Wrap32} {run : MinnowRun First} {other : MinnowRun Second}
    (joined : Joined isn otherIsn run other) (clean : other.socket.tcp.Clean) :
    Conduit run.socket.fromOwner (run.socket.outboundShutdown = true) other.socket.toOwner
      (other.socket.inboundShutdown = true) where
  inOrder := joined.relays.inOrder
  complete := fun shut => (joined.farEnd shut).resolve_left fun failed => by
    have errors := clean.errors
    rw [TCPPeer.hasErrors, Bool.or_eq_false_iff] at errors
    exact absurd (errors.1.symm.trans failed) Bool.false_ne_true

/-- Two hosts, told from the first one. -/
structure Linked (leftCfg rightCfg : TCPConfig) (pair : HostPair First Second) : Prop where
  left : pair.left.Settled
  right : pair.right.Settled
  joined : Joined leftCfg.isn rightCfg.isn pair.left.thread pair.right.thread
  peaceful : pair.sockets.Peaceful

theorem linked_of_reachable (begins : Begins leftCfg rightCfg start)
    (readableLeft : start.left.socket.Readable) (readableRight : start.right.socket.Readable)
    (reached : calmMachine.Reachable (create start) pair)
    (fewLeft : pair.left.stdin.length < 2 ^ 31) (fewRight : pair.right.stdin.length < 2 ^ 31) :
    Linked leftCfg rightCfg pair := by
  have swapped : calmMachine.Reachable (create ⟨start.right, start.left⟩) pair.swap :=
    swap_reachable reached
  exact {
    left := settled_of_reachable begins readableLeft reached fewLeft fewRight
    right := settled_of_reachable begins.swap readableRight swapped fewRight fewLeft
    joined := joined_of_reachable begins reached fewLeft fewRight
    peaceful := SocketPair.peaceful_of_reachable begins.opensLeft begins.opensRight readableLeft
      (calm_sockets reached) }

theorem Linked.forth (linked : Linked leftCfg rightCfg pair) :
    Conduit pair.left.stdin pair.left.StdinEnded pair.right.stdout pair.right.StdoutClosed :=
  (linked.left.outbound.trans (conduit_of_joined linked.joined linked.peaceful.farClean)).trans
    linked.right.inbound

theorem Linked.back (linked : Linked leftCfg rightCfg pair) :
    Conduit pair.right.stdin pair.right.StdinEnded pair.left.stdout pair.left.StdoutClosed :=
  (linked.right.outbound.trans
    (conduit_of_joined linked.joined.symm linked.peaceful.nearClean)).trans linked.left.inbound

/-- On calm systems the whole way from one standard input to the other standard output is a
conduit, in both directions: a standard output is closed only when the standard input has
ended and all of it has been written. -/
theorem carries_stdin_to_stdout (begins : Begins leftCfg rightCfg start)
    (readableLeft : start.left.socket.Readable) (readableRight : start.right.socket.Readable)
    (reached : calmMachine.Reachable (create start) pair)
    (fewLeft : pair.left.stdin.length < 2 ^ 31) (fewRight : pair.right.stdin.length < 2 ^ 31) :
    Conduit pair.left.stdin pair.left.StdinEnded pair.right.stdout pair.right.StdoutClosed ∧
      Conduit pair.right.stdin pair.right.StdinEnded pair.left.stdout pair.left.StdoutClosed := by
  have linked := linked_of_reachable begins readableLeft readableRight reached fewLeft fewRight
  exact ⟨linked.forth, linked.back⟩

theorem calm_answering (host : Host SocketPair.Device) (datagrams : List (List Byte))
    (input : Option (List Byte)) (now : Nat) :
    host.Calm (.main (answering host datagrams input)) ∧
      host.Calm (.thread (answering host datagrams input) now) := by
  have noError : ∀ fd, ¬ (answering host datagrams input).Fails fd := by
    rintro fd ⟨pollfd, events, ⟨fds, answer, index, answered, -, rfl⟩, -, trouble⟩
    rw [← Except.ok.inj answered] at trouble
    cases trouble
  have up : ∀ fd, ¬ (answering host datagrams input).HangsUp fd := by
    rintro fd ⟨pollfd, events, ⟨fds, answer, index, answered, -, rfl⟩, -, hangUp⟩
    rw [← Except.ok.inj answered] at hangUp
    cases hangUp
  constructor
  · exact {
      noError := noError
      socketUp := fun hangsUp => absurd hangsUp (up _)
      outputUp := fun hangsUp => absurd hangsUp (up _)
      readable := fun severs => up _ severs.hangsUp }
  · exact ⟨⟨not_exists.mpr noError, up _, fun hangsUp => absurd hangsUp (up _)⟩,
      ⟨not_exists.mpr noError, fun severs => up _ severs.hangsUp⟩⟩

/-- The client's standard input ends behind two bytes, the server answers with two bytes and
ends, and the client exits after its peer has lingered. -/
def session : List Turn :=
  [{ left := false, main := false, hands := true, now := 10 },
    { left := true, main := false, hands := true, now := 10 },
    { left := true, main := false, now := 20 },
    { left := true, main := true, input := some [104, 105] }, { left := true, main := true },
    { left := true, main := false, now := 20 }, { left := false, main := false, now := 20 },
    { left := false, main := false, hands := true, now := 30 },
    { left := false, main := false, now := 40 }, { left := false, main := true },
    { left := false, main := true }, { left := true, main := true, input := some [] },
    { left := true, main := true }, { left := true, main := false, hands := true, now := 40 },
    { left := true, main := false, now := 40 },
    { left := false, main := false, hands := true, now := 50 },
    { left := false, main := false, now := 50 }, { left := false, main := true },
    { left := false, main := true }, { left := false, main := true, input := some [111, 107] },
    { left := false, main := true }, { left := false, main := false, now := 60 },
    { left := true, main := false, hands := true, now := 60 },
    { left := true, main := false, now := 60 }, { left := true, main := true },
    { left := true, main := true }, { left := false, main := false, hands := true, now := 70 },
    { left := false, main := true, input := some [] }, { left := false, main := true },
    { left := false, main := false, now := 70 },
    { left := true, main := false, hands := true, now := 70 },
    { left := true, main := false, now := 70 }, { left := true, main := true },
    { left := true, main := true }, { left := true, main := true }, { left := true, main := true },
    { left := true, main := false, now := 20000 }, { left := true, main := false, now := 20010 }]

theorem session_reachable :
    calmMachine.Reachable (create SocketPair.opening)
      (calmMachine.run (create SocketPair.opening) (play (create SocketPair.opening) session).1) :=
  Machine.Admissible.reachable (admissible_play
    (fun host datagrams input now =>
      ⟨calm_answering host datagrams input now, calm_answering host datagrams input now⟩)
    (by decide +kernel))

theorem carries_stdin_to_stdout_session :
    let pair := calmMachine.run (create SocketPair.opening)
      (play (create SocketPair.opening) session).1
    Conduit pair.left.stdin pair.left.StdinEnded pair.right.stdout pair.right.StdoutClosed ∧
      Conduit pair.right.stdin pair.right.StdinEnded pair.left.stdout pair.left.StdoutClosed :=
  carries_stdin_to_stdout begins_opening ⟨by decide +kernel, by decide +kernel⟩
    ⟨by decide +kernel, by decide +kernel⟩ session_reachable (by decide +kernel) (by decide +kernel)

/-- What a program that has exited leaves behind. -/
structure Finished (host : Host First) (other : Host Second) : Prop where
  inputEnded : other.StdinEnded
  printed : host.stdout = other.stdin
  ended : host.StdinEnded
  arrived : other.thread.socket.toOwner ++ other.thread.socket.inbound.peek = host.stdin

/-- When a program exits on calm systems, it has written all of the standard input at the
other end, which has ended, and the socket at the other end has received all of its own. -/
theorem finished_on_exit (begins : Begins leftCfg rightCfg start)
    (readableLeft : start.left.socket.Readable) (readableRight : start.right.socket.Readable)
    (reached : calmMachine.Reachable (create start) pair)
    (fewLeft : pair.left.stdin.length < 2 ^ 31) (fewRight : pair.right.stdin.length < 2 ^ 31)
    (exited : pair.left.Exited) : Finished pair.left pair.right := by
  have linked := linked_of_reachable begins readableLeft readableRight reached fewLeft fewRight
  have patient := (orderly_of_reachable begins reached).patient
  have returned := linked.left.returned exited.closing
  have printed := linked.back.complete (linked.left.complete returned).2.shutdown
  have cleanEnd := linked.peaceful.cleanEnd linked.joined exited.thread patient
  have whole := linked.left.outbound.complete cleanEnd.closedHere
  exact {
    inputEnded := printed.1
    printed := printed.2
    ended := whole.1
    arrived := cleanEnd.received.trans whole.2 }

theorem finished_on_exit_session :
    let pair := calmMachine.run (create SocketPair.opening)
      (play (create SocketPair.opening) session).1
    pair.left.stdout = [111, 107] ∧ Finished pair.left pair.right :=
  ⟨by decide +kernel, finished_on_exit begins_opening ⟨by decide +kernel, by decide +kernel⟩
    ⟨by decide +kernel, by decide +kernel⟩ session_reachable (by decide +kernel)
    (by decide +kernel)
    ⟨by decide +kernel, SocketPair.eq_of_exited (by decide +kernel)⟩⟩

end HostPair
end Rchan
