import Rchan.Socket.Finish
import Rchan.System.StreamPair

namespace Rchan

/-!
# The socket at its owner's end

A round reads from the owner at most once, and it writes to the owner nothing that is not
recorded.  On a system that does not cut the thread off from its owner, the outbound
stream is closed only when the end of the owner's bytes has been read.
-/

namespace MinnowSocket

variable {Address Adapt : Type} [SocketAddress Address] [OverTun Address Adapt]
  {socket before after : MinnowSocket Adapt} {kernel : Kernel} {tun : FDWrapper} {thread : Nat}
  {remaining front later : List (FDRule (MinnowSocket Adapt))} {rule : FDRule (MinnowSocket Adapt)}

/-- The outbound stream is closed only behind the end that has been read from the owner. -/
def EndedByOwner (socket : MinnowSocket Adapt) : Prop :=
  socket.outboundShutdown = true → socket.threadData.eof = true

/-- A system on which nothing fails and the owner's bytes stay readable up to their end. -/
structure Gentle (socket : MinnowSocket Adapt) (kernel : Kernel) : Prop where
  noError : ¬ ∃ fd, kernel.Fails fd
  readable : ¬ kernel.Severs socket.threadData.fd .incoming

/-- Nothing has been done at the owner's end. -/
structure SameSide (before after : MinnowSocket Adapt) : Prop where
  threadData : after.threadData = before.threadData
  taken : after.fromOwner = before.fromOwner
  given : after.toOwner = before.toOwner
  inboundShut : after.inboundShutdown = before.inboundShutdown
  outboundShut : after.outboundShutdown = before.outboundShutdown

theorem SameSide.trans {middle : MinnowSocket Adapt} (first : SameSide before middle)
    (second : SameSide middle after) : SameSide before after where
  threadData := second.threadData.trans first.threadData
  taken := second.taken.trans first.taken
  given := second.given.trans first.given
  inboundShut := second.inboundShut.trans first.inboundShut
  outboundShut := second.outboundShut.trans first.outboundShut

theorem SameSide.call {op : PeerOp} (returned : socket.call op kernel = .ok after) :
    SameSide socket after := by
  rcases Fallible.bind_eq_ok returned with ⟨datagramAdapter, -, returned⟩
  rw [← Fallible.pure_eq_ok returned]
  exact ⟨rfl, rfl, rfl, rfl, rfl⟩

theorem SameSide.noteAcked (socket : MinnowSocket Adapt) : SameSide socket socket.noteAcked := by
  unfold MinnowSocket.noteAcked
  split <;> exact ⟨rfl, rfl, rfl, rfl, rfl⟩

/-- What the round has left alone before a rule is served. -/
structure Untouched (kernel : Kernel) (before socket : MinnowSocket Adapt) : Prop where
  taken : socket.fromOwner = before.fromOwner
  given : socket.toOwner = before.toOwner
  eof : socket.threadData.eof = before.threadData.eof
  inboundShut : socket.inboundShutdown = before.inboundShutdown
  ended : before.EndedByOwner → Gentle before kernel → socket.EndedByOwner

/-- What a round has done at the owner's end.  An end that has been shut down takes nothing
more. -/
structure Exchanged (kernel : Kernel) (before after : MinnowSocket Adapt) : Prop where
  took : Took kernel before.threadData.fd before.fromOwner (before.threadData.eof = true)
    after.fromOwner (after.threadData.eof = true)
  gave : before.toOwner <+: after.toOwner
  final : before.inboundShutdown = true →
    (∀ buffer written, kernel.write before.threadData.fd buffer ≠ .ok written) →
    after.inboundShutdown = true ∧ after.toOwner = before.toOwner
  ended : before.EndedByOwner → Gentle before kernel → after.EndedByOwner

theorem Exchanged.sameSide {next : MinnowSocket Adapt} (exchanged : Exchanged kernel before after)
    (same : SameSide after next) : Exchanged kernel before next where
  took := by
    rw [same.taken, same.threadData]
    exact exchanged.took
  gave := by
    rw [same.given]
    exact exchanged.gave
  final := by
    rw [same.given, same.inboundShut]
    exact exchanged.final
  ended := by
    rw [EndedByOwner, EndedByOwner, same.outboundShut, same.threadData]
    exact exchanged.ended

namespace Untouched

theorem refl (kernel : Kernel) (socket : MinnowSocket Adapt) : Untouched kernel socket socket :=
  ⟨rfl, rfl, rfl, rfl, fun ended _ => ended⟩

theorem exchanged (untouched : Untouched kernel before socket) : Exchanged kernel before socket where
  took := by
    rw [untouched.taken, untouched.eof]
    exact .nothing
  gave := untouched.given ▸ List.prefix_rfl
  final := fun shut _ => ⟨untouched.inboundShut.trans shut, untouched.given⟩
  ended := untouched.ended

/-- A rule is cancelled; the one that reads from the owner only behind the end. -/
theorem cancel (untouched : Untouched kernel before socket) (known : rule ∈ rules)
    (behind : Gentle before kernel → rule.categoryId = 1 → socket.threadData.eof = true) :
    Untouched kernel before (rule.cancel socket) := by
  rcases mem_rules known with rfl | rfl | rfl
  · exact untouched
  · exact { untouched with ended := fun _ gentle _ => behind gentle rfl }
  · exact untouched

theorem error (untouched : Untouched kernel before socket) (known : rule ∈ rules) :
    Untouched kernel before (rule.error socket) := by
  rcases mem_rules known with rfl | rfl | rfl
  · exact untouched
  · exact { untouched with }
  · exact { untouched with }

theorem receiveSegment (untouched : Untouched kernel before socket)
    (called : receiveSegment.callback kernel socket = .ok after) : Exchanged kernel before after := by
  rcases Fallible.bind_eq_ok called with ⟨⟨datagramAdapter, seg⟩, -, called⟩
  rcases Fallible.bind_eq_ok called with ⟨delivered, delivering, called⟩
  have heard : SameSide socket { socket with datagramAdapter } := ⟨rfl, rfl, rfl, rfl, rfl⟩
  have given : SameSide { socket with datagramAdapter } delivered := by
    unfold deliver at delivering
    split at delivering
    · exact .call delivering
    · rw [← Fallible.pure_eq_ok delivering]
      exact ⟨rfl, rfl, rfl, rfl, rfl⟩
  rw [← Fallible.pure_eq_ok called]
  exact untouched.exchanged.sameSide ((heard.trans given).trans (.noteAcked delivered))

theorem pushBytes (untouched : Untouched kernel before socket) (pushable : socket.Pushable)
    (same : socket.threadData.fd = before.threadData.fd)
    (called : pushBytes.callback kernel socket = .ok after) : Exchanged kernel before after := by
  rcases Fallible.bind_eq_ok called with ⟨⟨threadData, data⟩, reading, pushing⟩
  have took : Took kernel socket.threadData.fd socket.fromOwner _ _ _ :=
    FDWrapper.took_of_read pushable.room reading
  rw [untouched.taken, untouched.eof, same] at took
  have taken : Exchanged kernel before (takeFromOwner { socket with threadData } data) :=
    { untouched.exchanged with
      took := by
        change Took kernel before.threadData.fd before.fromOwner (before.threadData.eof = true)
          (socket.fromOwner ++ data) (threadData.eof = true)
        rw [untouched.taken]
        exact took
      ended := fun _ _ closed => by
        have isOpen : socket.outboundShutdown = true := closed
        rw [pushable.isOpen] at isOpen
        cases isOpen }
  dsimp only at pushing
  split at pushing
  · rename_i ended
    have closed : Exchanged kernel before (takeFromOwner { socket with threadData } data).closeOutbound :=
      { taken with ended := fun _ _ _ => ended }
    exact closed.sameSide (.call pushing)
  · exact taken.sameSide (.call pushing)

/-- The owner has been written to. -/
theorem giveToOwner (untouched : Untouched kernel before socket)
    (same : socket.threadData.fd = before.threadData.fd) {threadData : FDWrapper} {written : Nat}
    (writing : socket.threadData.write socket.inbound.peek kernel = .ok (threadData, written)) :
    Exchanged kernel before (giveToOwner { socket with threadData } written) where
  took := by
    change Took kernel before.threadData.fd before.fromOwner (before.threadData.eof = true)
      socket.fromOwner (threadData.eof = true)
    rw [FDWrapper.eof_write writing, untouched.taken, untouched.eof]
    exact .nothing
  gave := by
    change before.toOwner <+: socket.toOwner ++ socket.inbound.peek.take written
    rw [untouched.given]
    exact List.prefix_append _ _
  final := by
    intro shut refused
    refine ⟨untouched.inboundShut.trans shut, ?_⟩
    change socket.toOwner ++ socket.inbound.peek.take written = before.toOwner
    by_cases nothing : socket.inbound.peek = []
    · rw [nothing, List.take_nil, List.append_nil]
      exact untouched.given
    · refine absurd ?_ (refused socket.inbound.peek written)
      rw [← same]
      exact FDWrapper.write_answered nothing writing
  ended := fun ended gentle closed =>
    (FDWrapper.eof_write writing).trans (untouched.ended ended gentle closed)

theorem readInbound (untouched : Untouched kernel before socket)
    (same : socket.threadData.fd = before.threadData.fd)
    (called : readInbound.callback kernel socket = .ok after) : Exchanged kernel before after := by
  rcases Fallible.bind_eq_ok called with ⟨drained, draining, called⟩
  have given : Exchanged kernel before drained := by
    unfold drainInbound at draining
    split at draining
    · rcases Fallible.bind_eq_ok draining with ⟨⟨threadData, written⟩, writing, draining⟩
      rw [← Fallible.pure_eq_ok draining]
      exact untouched.giveToOwner same writing
    · rw [← Fallible.pure_eq_ok draining]
      exact untouched.exchanged
  split at called
  · rcases Fallible.bind_eq_ok called with ⟨threadData, closing, called⟩
    rw [← Fallible.pure_eq_ok called]
    have eof := FDWrapper.eof_shutdown closing
    exact {
      took := by
        change Took kernel before.threadData.fd before.fromOwner (before.threadData.eof = true)
          drained.fromOwner (threadData.eof = true)
        rw [eof]
        exact given.took
      gave := given.gave
      final := fun shut refused => ⟨rfl, (given.final shut refused).2⟩
      ended := fun ended gentle closed => eof.trans (given.ended ended gentle closed) }
  · rw [← Fallible.pure_eq_ok called]
    exact given

end Untouched

/-- A call of the event loop, told from the owner's end. -/
theorem exchanged_discipline (takes : kernel.TakesWhole tun.fd) (threadFd : before.threadData.fd = thread) :
    Discipline kernel (number tun.fd thread)
      (fun rules socket => Underway tun thread (before.device.Arrives kernel)
        (∃ fd, kernel.Fails fd) before rules socket ∧ Untouched kernel before socket)
      (fun rules socket => Served tun thread (before.device.Arrives kernel)
        (∃ fd, kernel.Fails fd) before rules socket ∧ Exchanged kernel before socket)
      Ready Idle := by
  have known : ∀ {front rule later} {socket : MinnowSocket Adapt},
      Underway tun thread (before.device.Arrives kernel) (∃ fd, kernel.Fails fd) before
        (front ++ rule :: later) socket → rule ∈ rules :=
    fun underway => underway.known _ (List.mem_append_right _ List.mem_cons_self)
  refine (discipline takes).strengthen (fun _ => Untouched kernel before)
    (fun _ => Exchanged kernel before) ?_ ?_ ?_ ?_ ?_ fun _ => Untouched.exchanged
  · intro front rule later socket underway _ requested
    rcases mem_rules (known underway) with rfl | rfl | rfl <;> cases requested
  · intro front rule later socket underway untouched exhausted
    refine untouched.cancel (known underway) fun _ category => ?_
    rcases mem_rules (known underway) with rfl | rfl | rfl
    · cases category
    · simpa [FDRule.exhausted, pushBytes, underway.threadOpen] using exhausted
    · cases category
  · intro front rule later socket underway untouched severs
    refine untouched.cancel (known underway) fun gentle category => ?_
    rcases mem_rules (known underway) with rfl | rfl | rfl
    · cases category
    · exact absurd (threadFd ▸ severs) gentle.readable
    · cases category
  · intro front rule later socket underway untouched fails
    exact (untouched.error (known underway)).cancel (known underway) fun gentle =>
      absurd ⟨_, fails⟩ gentle.noError
  · intro rules rule socket after underway untouched member isReady _ called
    have same : socket.threadData.fd = before.threadData.fd := underway.threadFd.trans threadFd.symm
    rcases mem_rules (underway.known rule member) with rfl | rfl | rfl
    · exact untouched.receiveSegment called
    · exact untouched.pushBytes isReady same called
    · exact untouched.readInbound same called

end MinnowSocket

namespace MinnowRun

open MinnowSocket (Answers Exchanged Served)

variable {Address First Second : Type} [SocketAddress Address] [OverTun Address First]
  [OverTun Address Second] {run : MinnowRun First} {other : MinnowRun Second} {kernel : Kernel}

/-- A thread that has come to its end stays there. -/
theorem round_of_finished {outcome : Except Failure Unit} {now : Nat}
    (finished : run.phase = .finished outcome) : run.round kernel now = run := by
  rw [MinnowRun.round, MinnowRun.condition, finished, if_neg Bool.false_ne_true, MinnowRun.leave,
    finished]

/-- Only the owner asks the thread to stop. -/
theorem round_abort (run : MinnowRun First) (kernel : Kernel) (now : Nat) :
    (run.round kernel now).abort = run.abort := by
  have leave : ∀ run : MinnowRun First, (run.leave kernel now).abort = run.abort := by
    intro run
    unfold MinnowRun.leave
    split
    · split <;> rfl
    · rfl
    · rfl
  unfold MinnowRun.round MinnowRun.proceed MinnowRun.elapse
  split
  · split
    · rfl
    · split
      · exact leave _
      · split
        · split <;> rfl
        · rfl
  · exact leave run

/-- A socket begins without having closed its outbound stream. -/
theorem Opens.unclosed {cfg : TCPConfig} (opens : Opens cfg run) :
    run.socket.outboundShutdown = false ∧ run.abort = false := by
  cases opens with
  | connect _ _ _ returned =>
      rw [MinnowRun.connect, MinnowSocket.setUp_eq] at returned
      rcases Fallible.bind_eq_ok returned with ⟨loop, -, returned⟩
      rcases Fallible.bind_eq_ok returned with ⟨socket, pushing, returned⟩
      have same := MinnowSocket.SameSide.call pushing
      split at returned
      · cases returned
      · rw [← Fallible.pure_eq_ok returned]
        exact ⟨same.outboundShut, rfl⟩
  | listen _ _ returned =>
      rw [listenAndAccept, MinnowSocket.setUp_eq] at returned
      rcases Fallible.bind_eq_ok returned with ⟨loop, -, returned⟩
      rw [← Fallible.pure_eq_ok returned]
      exact ⟨rfl, rfl⟩

/-- A round of a thread, told from its owner's end. -/
theorem InStep.exchanges (inStep : run.InStep) (takes : kernel.TakesWhole run.socket.device.tun.fd)
    (now : Nat) : Exchanged kernel run.socket (run.round kernel now).socket := by
  rcases inStep with ⟨tun, thread, between⟩
  rw [between.kept.tunFd] at takes
  have start : run.Between fun rules socket =>
      MinnowSocket.Underway tun thread (run.socket.device.Arrives kernel) (∃ fd, kernel.Fails fd)
        run.socket rules socket ∧ MinnowSocket.Untouched kernel run.socket socket :=
    { between with
      kept :=
        ⟨{ between.kept with
            adapter := rfl
            driving := .start
            shut := rfl }, .refl kernel run.socket⟩ }
  refine (start.round (MinnowSocket.exchanged_discipline takes between.kept.threadFd) ?_ now).kept.2
  rintro rules socket after t ⟨served, exchanged⟩ ticked
  exact ⟨served.tick takes ticked, exchanged.sameSide (.call ticked)⟩

end MinnowRun
end Rchan
