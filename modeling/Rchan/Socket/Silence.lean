import Rchan.Socket.Finish

namespace Rchan

/-!
# A socket whose owner is silent

The loop pushes only in the rule that reads from the owner.  An acknowledgement makes room
in the window, and a tick repeats what is outstanding, but neither sends what is left in the
outbound stream.  So these bytes wait until the owner writes again or closes, even when
everything before them has been acknowledged and the window is open.
-/

namespace MinnowSocket

open PeerRun (Unsent)

variable {Address Adapt : Type} [SocketAddress Address] [OverTun Address Adapt]
  {socket after before : MinnowSocket Adapt} {kernel : Kernel} {tun : FDWrapper} {thread : Nat}
  {rule : FDRule (MinnowSocket Adapt)}

/-- A system on which the owner has neither written nor closed. -/
structure Silent (socket : MinnowSocket Adapt) (kernel : Kernel) : Prop where
  whole : kernel.TakesWhole socket.device.tun.fd
  quiet : ¬ kernel.Offers socket.threadData.fd .incoming

theorem unsent_call {op : PeerOp} (other : op ≠ .push) (unwritten : ∀ data, op ≠ .write data)
    (returned : socket.call op kernel = .ok after) : Unsent socket.tcp after.tcp := by
  rcases Fallible.bind_eq_ok returned with ⟨datagramAdapter, -, returned⟩
  rw [← Fallible.pure_eq_ok returned]
  exact socket.tcp.unsent_step other unwritten

theorem unsent_cancel (known : rule ∈ rules) (socket : MinnowSocket Adapt) :
    Unsent socket.tcp (rule.cancel socket).tcp := by
  rcases mem_rules known with rfl | rfl | rfl
  · exact .refl _
  · exact socket.tcp.unsent_step (fun impossible => by cases impossible)
      (fun data impossible => by cases impossible)
  · exact .refl _

theorem unsent_error (known : rule ∈ rules) (socket : MinnowSocket Adapt) :
    Unsent socket.tcp (rule.error socket).tcp := by
  rcases mem_rules known with rfl | rfl | rfl <;> exact ⟨rfl, rfl, rfl⟩

/-- Rule 1 gives the peer a message, if there is one. -/
theorem unsent_receiveSegment (called : receiveSegment.callback kernel socket = .ok after) :
    Unsent socket.tcp after.tcp := by
  rcases Fallible.bind_eq_ok called with ⟨⟨adapter, seg⟩, -, called⟩
  rcases Fallible.bind_eq_ok called with ⟨delivered, delivering, called⟩
  have given : Unsent socket.tcp delivered.tcp := by
    unfold deliver at delivering
    split at delivering
    · have heard := unsent_call (fun impossible => by cases impossible)
        (fun data impossible => by cases impossible) delivering
      exact heard
    · rw [← Fallible.pure_eq_ok delivering]
      exact .refl _
  rw [← Fallible.pure_eq_ok called, noteAcked]
  split <;> exact given

/-- Rule 3 reads from the other stream. -/
theorem unsent_readInbound (called : readInbound.callback kernel socket = .ok after) :
    Unsent socket.tcp after.tcp := by
  rcases Fallible.bind_eq_ok called with ⟨drained, draining, called⟩
  have given : Unsent socket.tcp drained.tcp := by
    unfold drainInbound at draining
    split at draining
    · rcases Fallible.bind_eq_ok draining with ⟨⟨threadData, written⟩, -, draining⟩
      rw [← Fallible.pure_eq_ok draining]
      exact socket.tcp.unsent_step (fun impossible => by cases impossible)
        (fun data impossible => by cases impossible)
    · rw [← Fallible.pure_eq_ok draining]
      exact .refl _
  split at called
  · rcases Fallible.bind_eq_ok called with ⟨threadData, -, called⟩
    rw [← Fallible.pure_eq_ok called]
    exact given
  · rw [← Fallible.pure_eq_ok called]
    exact given

/-- While the owner is silent the second rule is not served. -/
theorem silent_discipline (takes : kernel.TakesWhole tun.fd)
    (quiet : ¬ kernel.Offers thread .incoming) :
    Discipline kernel (number tun.fd thread)
      (fun rules socket => Underway tun thread (before.device.Arrives kernel)
        (∃ fd, kernel.Fails fd) before rules socket ∧ Unsent before.tcp socket.tcp)
      (fun rules socket => Served tun thread (before.device.Arrives kernel)
        (∃ fd, kernel.Fails fd) before rules socket ∧ Unsent before.tcp socket.tcp)
      Ready Idle := by
  refine (discipline takes).strengthen (fun _ socket => Unsent before.tcp socket.tcp)
    (fun _ socket => Unsent before.tcp socket.tcp) ?_ ?_ ?_ ?_ ?_ fun _ unsent => unsent
  · exact fun _ unsent _ => unsent
  · intro front rule later socket underway unsent _
    exact unsent.trans (unsent_cancel
      (underway.known rule (List.mem_append_right _ List.mem_cons_self)) socket)
  · intro front rule later socket underway unsent _
    exact unsent.trans (unsent_cancel
      (underway.known rule (List.mem_append_right _ List.mem_cons_self)) socket)
  · intro front rule later socket underway unsent _
    have known := underway.known rule (List.mem_append_right _ List.mem_cons_self)
    exact (unsent.trans (unsent_error known socket)).trans (unsent_cancel known _)
  · intro rules rule socket after underway unsent member _ offered called
    rcases mem_rules (underway.known rule member) with rfl | rfl | rfl
    · exact unsent.trans (unsent_receiveSegment called)
    · exact absurd offered quiet
    · exact unsent.trans (unsent_readInbound called)

end MinnowSocket

namespace MinnowRun

open MinnowSocket (Kept Silent)
open PeerRun (Unsent)

variable {Address Adapt : Type} [SocketAddress Address] [OverTun Address Adapt]
  {cfg : TCPConfig} {start run after : MinnowRun Adapt} {kernel : Kernel}

/-- A round with a silent owner. -/
theorem InStep.silent_round (inStep : run.InStep) (silent : run.socket.Silent kernel) (now : Nat) :
    (run.round kernel now).InStep ∧ Unsent run.socket.tcp (run.round kernel now).socket.tcp := by
  rcases inStep with ⟨tun, thread, between⟩
  have takes : kernel.TakesWhole tun.fd := by
    rw [← between.kept.tunFd]
    exact silent.whole
  have quiet : ¬ kernel.Offers thread .incoming := by
    rw [← between.kept.threadFd]
    exact silent.quiet
  have begin_ : run.Between fun rules socket =>
      MinnowSocket.Underway tun thread (run.socket.device.Arrives kernel) (∃ fd, kernel.Fails fd)
        run.socket rules socket ∧ Unsent run.socket.tcp socket.tcp :=
    { between with
      kept :=
        ⟨{ between.kept with
            adapter := rfl
            driving := .start
            shut := rfl }, .refl _⟩ }
  have served := begin_.round (MinnowSocket.silent_discipline takes quiet)
    (fun kept ticked => ⟨kept.1.tick takes ticked, kept.2.trans
      (MinnowSocket.unsent_call (fun impossible => by cases impossible)
        (fun data impossible => by cases impossible) ticked)⟩) now
  exact ⟨⟨tun, thread, served.mono fun kept => kept.1.toKept⟩, served.kept.2⟩

/-- However often a socket is acknowledged and ticked, what its peer has not sent stays
unsent as long as the owner neither writes nor closes. -/
theorem unsent_until_owner_writes (opens : Opens cfg start)
    (reached : (machine fun run kernel => kernel.TakesWhole run.socket.device.tun.fd).Reachable
      start run)
    (silent : (machine fun run kernel => run.socket.Silent kernel).Reachable run after) :
    Unsent run.socket.tcp after.socket.tcp := by
  have inStep : run.InStep := by
    refine reached.invariant InStep ⟨_, _, opens.begun.between⟩ ?_
    intro run op inStep allowed
    cases op with
    | abort => exact inStep.abort
    | round kernel now =>
        rcases inStep with ⟨tun, thread, between⟩
        have whole : kernel.TakesWhole run.socket.device.tun.fd := allowed
        have served := round_serves between (by rw [← between.kept.tunFd]; exact whole) now
        exact ⟨tun, thread, served.mono fun kept => kept.toKept⟩
  have both : after.InStep ∧ Unsent run.socket.tcp after.socket.tcp := by
    refine silent.invariant (fun state => state.InStep ∧ Unsent run.socket.tcp state.socket.tcp)
      ⟨inStep, .refl _⟩ ?_
    rintro state op ⟨inStep, unsent⟩ allowed
    cases op with
    | abort => exact ⟨inStep.abort, unsent⟩
    | round kernel now =>
        have next := inStep.silent_round allowed now
        exact ⟨next.1, unsent.trans next.2⟩
  exact both.2

end MinnowRun

namespace SocketPair

open MinnowSocket (Silent)
open PeerRun (Unsent)

/-- The client's owner writes two bytes more than the window takes, and the server
acknowledges what it has got. -/
def overfull : List Turn :=
  [{ left := false, hands := true, now := 10 }, { left := true, hands := true, now := 10 },
    { left := true, hands := false, now := 20 },
    { left := true, hands := false, owner := some [1, 2, 3, 4, 5, 6, 7, 8, 9, 10], now := 20 },
    { left := true, hands := false, owner := some [11, 12], now := 20 },
    { left := false, hands := false, now := 20 }, { left := false, hands := true, now := 30 },
    { left := false, hands := false, now := 40 }, { left := false, hands := true, now := 50 }]

/-- What the server has sent by then. -/
def replies : List (List Byte) :=
  (calmMachine.run opening (play opening overfull).1).right.socket.device.datagrams

/-- The rounds of the client alone, up to the acknowledgement of the ten bytes. -/
def clientRounds : List MinnowOp :=
  [.round (handing (replies.take 1) none) 10, .round (handing [] none) 20,
    .round (handing [] (some [1, 2, 3, 4, 5, 6, 7, 8, 9, 10])) 20,
    .round (handing [] (some [11, 12])) 20, .round (handing replies none) 60]

theorem silent_handing {socket : MinnowSocket Device} (datagrams : List (List Byte))
    (owner : socket.threadData.fd ≠ 7) : socket.Silent (handing datagrams none) where
  whole := fun _ _ answered => (Except.ok.inj answered).symm
  quiet := by
    rintro ⟨pollfd, events, ⟨fds, answer, index, answered, place, rfl⟩, number, asked, offered⟩
    rw [← Except.ok.inj answered] at offered
    have device : (fds[index]?.map PollFd.fd == some 7) = false := by
      rw [place, Option.map_some, number]
      simpa using owner
    simp only [PollFd.ready, asked, device] at offered
    cases offered

/-- Two bytes are left behind although everything is acknowledged and the window is open. -/
theorem unsent_until_owner_writes_overfull :
    let run := (MinnowRun.machine fun run kernel => kernel.TakesWhole run.socket.device.tun.fd).run
      opening.left clientRounds
    let after := (MinnowRun.machine fun run kernel => run.socket.Silent kernel).run run
      [.round (handing [] none) 5000, .round (handing replies none) 6000]
    (run.socket.tcp.peer.sender.sequenceNumbersInFlight = 0 ∧
        0 < run.socket.tcp.peer.sender.windowSize ∧ run.socket.outbound.peek = [11, 12]) ∧
      Unsent run.socket.tcp after.socket.tcp := by
  have whole : ∀ datagrams owner fd, (handing datagrams owner).TakesWhole fd :=
    fun _ _ _ _ _ answered => (Except.ok.inj answered).symm
  refine ⟨by decide +kernel, MinnowRun.unsent_until_owner_writes opens_connecting
    (Machine.Admissible.reachable ⟨whole _ _ _, whole _ _ _, whole _ _ _, whole _ _ _, whole _ _ _,
      trivial⟩) (Machine.Admissible.reachable ⟨silent_handing _ ?_, silent_handing _ ?_, trivial⟩)⟩
  · decide +kernel
  · decide +kernel

end SocketPair
end Rchan
