import Rchan.Application.CopyRuns
import Rchan.System.StreamPair

namespace Rchan

/-!
# The copy at its end of the socket

A call of the event loop reads from the socket at most once, and it writes to the socket
nothing that is not recorded.  On a system that does not cut the copy off, the inbound
stream is closed only when the end of the socket has been read.
-/

/-- A direction that has something to write, or its sink to shut down, has not done so yet. -/
theorem Flow.Sound.unshut_of_wantsDrain {flow : Flow} (sound : flow.Sound)
    (wants : flow.wantsDrain = true) : flow.shutdown = false := by
  by_contra shut
  rw [Bool.not_eq_false] at shut
  have empty := (sound.finished shut).2
  simp [Flow.wantsDrain, ByteStream.bytesBuffered, sound.wellFormed.currlen_eq, empty, shut] at wants

namespace StreamCopy

/-- The inbound stream is closed only behind the end that has been read from the socket. -/
def EndedByPeer (copy : StreamCopy) : Prop :=
  copy.inbound.stream.closed = true → copy.socket.eof = true

/-- A calm system on which the socket stays readable up to its end. -/
structure Gentle (copy : StreamCopy) (kernel : Kernel) : Prop extends
    CopyRun.Calm copy kernel where
  readable : ¬ kernel.Severs copy.socket.fd .incoming

/-- What the call has left alone before a rule is served. -/
structure Untouched (kernel : Kernel) (before copy : StreamCopy) : Prop where
  given : copy.outbound.given = before.outbound.given
  taken : copy.inbound.taken = before.inbound.taken
  eof : copy.socket.eof = before.socket.eof
  outboundShut : copy.outbound.shutdown = before.outbound.shutdown
  inboundShut : copy.inbound.shutdown = before.inbound.shutdown
  ended : before.EndedByPeer → Gentle before kernel → copy.EndedByPeer

/-- What a call has done at the socket. -/
structure Exchanged (kernel : Kernel) (before after : StreamCopy) : Prop where
  took : Took kernel before.socket.fd before.inbound.taken (before.socket.eof = true)
    after.inbound.taken (after.socket.eof = true)
  gave : before.outbound.given <+: after.outbound.given
  final : before.outbound.shutdown = true →
    after.outbound.shutdown = true ∧ after.outbound.given = before.outbound.given
  ended : before.EndedByPeer → Gentle before kernel → after.EndedByPeer

variable {before copy after : StreamCopy} {kernel : Kernel} {socket : Nat}
  {rules : List (FDRule StreamCopy)} {rule : FDRule StreamCopy}

namespace Untouched

theorem refl (kernel : Kernel) (copy : StreamCopy) : Untouched kernel copy copy :=
  ⟨rfl, rfl, rfl, rfl, rfl, fun ended _ => ended⟩

theorem exchanged (untouched : Untouched kernel before copy) : Exchanged kernel before copy where
  took := by
    rw [untouched.taken, untouched.eof]
    exact .nothing
  gave := untouched.given ▸ List.prefix_rfl
  final := fun shut => ⟨untouched.outboundShut.trans shut, untouched.given⟩
  ended := untouched.ended

/-- A rule is cancelled; one of the inbound stream only behind its end. -/
theorem cancel (untouched : Untouched kernel before copy) (known : rule ∈ StreamCopy.rules)
    (behind : Gentle before kernel → rule.categoryId = 2 ∨ rule.categoryId = 3 →
      copy.inbound.stream.closed = true ∨ copy.socket.eof = true) :
    Untouched kernel before (rule.cancel copy) := by
  have inbound : rule.categoryId = 2 ∨ rule.categoryId = 3 →
      Untouched kernel before copy.closeInbound := fun category =>
    { untouched with
      ended := fun ended gentle _ =>
        (behind gentle category).elim (untouched.ended ended gentle) id }
  rcases mem_rules known with rfl | rfl | rfl | rfl
  · exact { untouched with }
  · exact { untouched with }
  · exact inbound (.inl rfl)
  · exact inbound (.inr rfl)

/-- What a callback does at the socket. -/
theorem served (untouched : Untouched kernel before copy) (kept : Kept socket rules copy)
    (same : before.socket.fd = socket) (member : rule ∈ rules) (ready : Ready rule copy)
    (returned : rule.callback kernel copy = .ok after) : Exchanged kernel before after := by
  rcases mem_rules (kept.known rule member) with rfl | rfl | rfl | rfl
  · have fillable : copy.outbound.Fillable := ready
    rcases Fallible.bind_eq_ok returned with ⟨⟨outbound, input⟩, filling, returned⟩
    rw [← Fallible.pure_eq_ok returned]
    rcases Flow.fill_cases kept.outbound.wellFormed fillable.room filling with ⟨data, -, filled⟩
    exact { untouched.exchanged with
      gave := by
        rw [filled.given, untouched.given]
      final := fun shut =>
        ⟨filled.shutdown.trans (untouched.outboundShut.trans shut),
          filled.given.trans untouched.given⟩ }
  · rcases Fallible.bind_eq_ok returned with ⟨⟨outbound, wrapper⟩, draining, returned⟩
    rcases Flow.drain_cases kept.outbound.wellFormed draining with ⟨written, drained⟩
    have running : before.outbound.shutdown = false :=
      untouched.outboundShut.symm.trans (kept.outbound.unshut_of_wantsDrain ready)
    have eof : wrapper.eof = copy.socket.eof := by
      rw [drained.wrapper_eq]
      split <;> rfl
    have exchanged : ∀ (outbound' : Flow) (wrapper' : FDWrapper), outbound'.given = outbound.given →
        wrapper'.eof = wrapper.eof →
        Exchanged kernel before { copy with outbound := outbound', socket := wrapper' } := by
      intro outbound' wrapper' given' eof'
      exact {
        took := by
          change Took kernel before.socket.fd before.inbound.taken (before.socket.eof = true)
            copy.inbound.taken (wrapper'.eof = true)
          rw [untouched.taken, eof', eof, untouched.eof]
          exact .nothing
        gave := by
          change _ <+: outbound'.given
          rw [given', drained.given, untouched.given]
          exact List.prefix_append _ _
        final := fun shut => by
          rw [running] at shut
          cases shut
        ended := fun ended gentle closed =>
          (eof'.trans eof).trans (untouched.ended ended gentle closed) }
    dsimp only at returned
    split at returned
    · rcases Fallible.bind_eq_ok returned with ⟨shut, shutting, returned⟩
      rw [← Fallible.pure_eq_ok returned]
      exact exchanged _ _ rfl (FDWrapper.eof_shutdown shutting)
    · rw [← Fallible.pure_eq_ok returned]
      exact exchanged _ _ rfl rfl
  · have fillable : copy.inbound.Fillable := ready
    rcases Fallible.bind_eq_ok returned with ⟨⟨inbound, wrapper⟩, filling, returned⟩
    rw [← Fallible.pure_eq_ok returned]
    rcases Flow.fill_cases kept.inbound.wellFormed fillable.room filling with
      ⟨data, reading, filled⟩
    have took : Took kernel copy.socket.fd copy.inbound.taken _ _ _ :=
      FDWrapper.took_of_read fillable.room reading
    rw [← filled.taken, untouched.taken, untouched.eof, kept.socketFd, ← same] at took
    exact { untouched.exchanged with
      took := took
      ended := fun _ _ closed => by
        have wrapped : (wrapper.eof || copy.inbound.stream.closed) = true :=
          filled.closed.symm.trans closed
        rw [fillable.isOpen, Bool.or_false] at wrapped
        exact wrapped }
  · rcases Fallible.bind_eq_ok returned with ⟨⟨inbound, output⟩, draining, returned⟩
    rcases Flow.drain_cases kept.inbound.wellFormed draining with ⟨written, drained⟩
    have exchanged : ∀ (inbound' : Flow) (output' : FDWrapper), inbound'.taken = inbound.taken →
        inbound'.stream = inbound.stream →
        Exchanged kernel before { copy with inbound := inbound', output := output' } := by
      intro inbound' output' taken' stream'
      exact { untouched.exchanged with
        took := by
          change Took kernel before.socket.fd before.inbound.taken (before.socket.eof = true)
            inbound'.taken (copy.socket.eof = true)
          rw [taken', drained.taken, untouched.taken, untouched.eof]
          exact .nothing
        ended := fun ended gentle closed => by
          refine untouched.ended ended gentle ?_
          rw [← drained.closed, ← stream']
          exact closed }
    dsimp only at returned
    split at returned
    · rcases Fallible.bind_eq_ok returned with ⟨shut, closing, returned⟩
      rw [← Fallible.pure_eq_ok returned]
      exact exchanged _ _ rfl rfl
    · rw [← Fallible.pure_eq_ok returned]
      exact exchanged _ _ rfl rfl

end Untouched

/-- A call of the event loop, told from the socket. -/
theorem exchanged_discipline (socketFd : before.socket.fd = socket) (outputFd : before.output.fd = 1) :
    Discipline kernel (number socket)
      (fun rules copy => Kept socket rules copy ∧ Untouched kernel before copy)
      (fun rules copy => Kept socket rules copy ∧ Exchanged kernel before copy) Ready Idle := by
  have known : ∀ {front rule rest copy}, Kept socket (front ++ rule :: rest) copy →
      rule ∈ StreamCopy.rules :=
    fun kept => kept.known _ (List.mem_append_right _ List.mem_cons_self)
  refine (Kept.discipline socket kernel).strengthen (fun _ => Untouched kernel before)
    (fun _ => Exchanged kernel before) ?_ ?_ ?_ ?_ ?_ fun _ => Untouched.exchanged
  · intro front rule rest copy kept _ requested
    rcases mem_rules (known kept) with rfl | rfl | rfl | rfl <;> cases requested
  · intro front rule rest copy kept untouched exhausted
    refine untouched.cancel (known kept) fun _ category => ?_
    rcases mem_rules (known kept) with rfl | rfl | rfl | rfl
    · exact absurd category (by decide)
    · exact absurd category (by decide)
    · have ended : copy.socket.eof = true := by
        simpa [FDRule.exhausted, readSocket, kept.socketOpen] using exhausted
      exact Or.inr ended
    · have closed : copy.output.closed = true := by
        simpa [FDRule.exhausted, writeOutput] using exhausted
      exact Or.inl (kept.inbound.finished (kept.outputClosed closed)).1
  · intro front rule rest copy kept untouched severs
    refine untouched.cancel (known kept) fun gentle category => ?_
    rcases mem_rules (known kept) with rfl | rfl | rfl | rfl
    · exact absurd category (by decide)
    · exact absurd category (by decide)
    · exact absurd (socketFd ▸ severs) gentle.readable
    · have shut := untouched.inboundShut.trans (gentle.outputUp (outputFd ▸ severs.hangsUp))
      exact Or.inl (kept.inbound.finished shut).1
  · intro front rule rest copy kept untouched fails
    have failing : Untouched kernel before (rule.error copy) := by
      rw [Kept.error_eq (known kept)]
      exact { untouched with }
    exact failing.cancel (known kept) fun gentle => absurd fails (gentle.noError _)
  · exact fun kept untouched member ready _ returned =>
      untouched.served kept socketFd member ready returned

end StreamCopy

namespace CopyRun

open StreamCopy (Exchanged Gentle Kept)

variable {socket : Nat} {run : CopyRun} {kernel : Kernel}

/-- A step of the copy, told from the socket. -/
theorem Between.exchanges (between : run.Between (Kept socket)) :
    (run.step kernel).Between
      (fun rules copy => Kept socket rules copy ∧ Exchanged kernel run.copy copy) := by
  have start : run.Between (fun rules copy => Kept socket rules copy ∧
      StreamCopy.Untouched kernel run.copy copy) :=
    { between with kept := ⟨between.kept, .refl kernel run.copy⟩ }
  exact start.step (StreamCopy.exchanged_discipline between.kept.socketFd between.kept.outputFd)

/-- On a gentle system the copy stays calm, and it closes its inbound stream only behind the
end of the socket. -/
theorem gentle_of_reachable {socket : FDWrapper} (isOpen : socket.closed = false)
    (reached : (machine Gentle).Reachable (.start socket) run) :
    (machine Calm).Reachable (.start socket) run ∧ run.copy.EndedByPeer := by
  have calm : (machine Calm).Reachable (id (start socket)) (id run) := by
    refine reached.project id fun run kernel gentle => ?_
    have gentle : Gentle run.copy kernel := gentle
    exact .step kernel .start gentle.toCalm
  suffices both : run.Between (Kept socket.fd) ∧ run.copy.EndedByPeer from ⟨calm, both.2⟩
  refine reached.invariant (fun run => run.Between (Kept socket.fd) ∧ run.copy.EndedByPeer)
    ⟨.start isOpen, fun impossible => by cases impossible⟩ ?_
  rintro run kernel ⟨between, ended⟩ gentle
  have after : (run.step kernel).Between _ := between.exchanges
  exact ⟨{ after with kept := after.kept.1 }, after.kept.2.ended ended gentle⟩

end CopyRun
end Rchan
