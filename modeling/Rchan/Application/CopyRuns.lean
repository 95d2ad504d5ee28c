import Rchan.Application.Copying

namespace Rchan

/-!
# Runs of the copy

Whatever the system answers, the copy delivers in order and shuts a sink down only
behind the last byte.  If no poll reports an error, and a hang-up of a sink only after
its direction has been shut down, then the copy returns only when both directions are
complete.  If the calls that poll has announced succeed, it never throws: no rule is
ever offered its event without reading or writing.
-/

namespace Flow

/-- The sink gets a prefix of what the source has delivered, and all of it before it is
shut down. -/
structure InOrder (flow : Flow) : Prop where
  delivered : flow.given ++ flow.stream.peek = flow.taken
  ended : flow.shutdown = true → flow.stream.isClosed = true ∧ flow.given = flow.taken

/-- The source has ended, and the sink has got everything and been shut down. -/
structure Complete (flow : Flow) : Prop where
  shutdown : flow.shutdown = true
  isClosed : flow.stream.isClosed = true
  emptied : flow.stream.peek = []
  delivered : flow.given = flow.taken

variable {flow : Flow}

theorem Sound.given_eq (sound : flow.Sound) (shut : flow.shutdown = true) :
    flow.given = flow.taken := by
  rw [← sound.conserved, (sound.finished shut).2, List.append_nil]

theorem Sound.inOrder (sound : flow.Sound) : flow.InOrder where
  delivered := sound.conserved
  ended := fun shut => ⟨(sound.finished shut).1, sound.given_eq shut⟩

theorem Sound.complete (sound : flow.Sound) (shut : flow.shutdown = true) : flow.Complete where
  shutdown := shut
  isClosed := (sound.finished shut).1
  emptied := (sound.finished shut).2
  delivered := sound.given_eq shut

end Flow

namespace CopyRun

open StreamCopy (Kept Ready Idle number)
open FDRule (Absent)

variable {socket : Nat} {run : CopyRun} {kernel : Kernel}
  {holds done : List (FDRule StreamCopy) → StreamCopy → Prop}

/-- What holds between two calls of the event loop, and that nothing was left to poll if
the copy has returned. -/
structure Between (holds : List (FDRule StreamCopy) → StreamCopy → Prop) (run : CopyRun) : Prop where
  others : run.loop.nonFdRules = []
  kept : holds run.loop.fdRules run.copy
  idle : run.outcome = some (.ok ()) → ∀ rule ∈ run.loop.fdRules, Idle rule run.copy

theorem Between.step (discipline : Discipline kernel (number socket) holds done Ready Idle)
    (between : run.Between holds) : (run.step kernel).Between done := by
  rw [CopyRun.step]
  split
  · exact { between with kept := discipline.unserved between.kept }
  · split
    · exact {
        others := between.others
        kept := discipline.unserved between.kept
        idle := fun impossible => by cases impossible }
    · rename_i result loop copy returned
      have kept := EventLoop.waitNextEvent_keeps discipline (by simp [between.others])
        between.kept returned
      refine { others := ?_, kept := kept.2.2.1, idle := ?_ }
      · exact List.sublist_nil.mp (between.others ▸ kept.1)
      · intro exited
        refine kept.2.2.2 ?_
        by_contra running
        rw [if_neg running] at exited
        cases exited

theorem Between.start {socket : FDWrapper} (isOpen : socket.closed = false) :
    (start socket).Between (Kept socket.fd) where
  others := rfl
  kept := .start socket isOpen
  idle := fun impossible => by cases impossible

/-- However the system answers, each direction is delivered in order, and its sink is shut
down only behind the whole of it. -/
theorem copies_in_order {socket : FDWrapper} (isOpen : socket.closed = false)
    (kernels : List Kernel) :
    let run := (machine fun _ _ => True).run (.start socket) kernels
    run.copy.outbound.InOrder ∧ run.copy.inbound.InOrder := by
  intro run
  have between : run.Between (Kept socket.fd) :=
    Machine.run_invariant _ (Between (Kept socket.fd)) (.start isOpen)
      (fun _ kernel between => between.step (Kept.discipline socket.fd kernel)) kernels
  exact ⟨between.kept.outbound.inOrder, between.kept.inbound.inOrder⟩

/-- Two bytes in each direction, and the ends of both inputs. -/
def exchange : List Kernel :=
  [.eager [104, 105], .eager [], .eager [], .eager [111, 107], .eager [], .eager [], .eager []]

theorem copies_in_order_exchange :
    let run := (machine fun _ _ => True).run (.start { fd := 5 }) exchange
    run.copy.outbound.InOrder ∧ run.copy.inbound.InOrder :=
  copies_in_order rfl exchange

/-! ## What has been done when the copy returns -/

/-- No poll reports an error, and a hang-up of a sink only when it has been shut down. -/
structure Calm (copy : StreamCopy) (kernel : Kernel) : Prop where
  noError : ∀ fd, ¬ kernel.Fails fd
  socketUp : kernel.HangsUp copy.socket.fd → copy.outbound.shutdown = true
  outputUp : kernel.HangsUp copy.output.fd → copy.inbound.shutdown = true

/-- No error has been marked, and no sink is lost before it has been shut down.  The two
last fields carry over what has been shut down when the call began. -/
structure Unbroken (before : StreamCopy) (rules : List (FDRule StreamCopy)) (copy : StreamCopy) :
    Prop where
  outboundClean : copy.outbound.stream.error = false
  inboundClean : copy.inbound.stream.error = false
  outboundSink : Absent 1 rules → copy.outbound.shutdown = true
  inboundSink : Absent 3 rules → copy.inbound.shutdown = true
  outboundShut : before.outbound.shutdown = true → copy.outbound.shutdown = true
  inboundShut : before.inbound.shutdown = true → copy.inbound.shutdown = true

namespace Unbroken

variable {before copy after : StreamCopy} {rules front rest : List (FDRule StreamCopy)}
  {rule : FDRule StreamCopy}

/-- A rule may be erased if its sink has been shut down, should it have one. -/
theorem erase (unbroken : Unbroken before (front ++ rule :: rest) copy)
    (known : rule ∈ StreamCopy.rules)
    (outboundDone : rule.categoryId = 1 → copy.outbound.shutdown = true)
    (inboundDone : rule.categoryId = 3 → copy.inbound.shutdown = true) :
    Unbroken before (front ++ rest) (rule.cancel copy) := by
  have outboundSink : Absent 1 (front ++ rest) → copy.outbound.shutdown = true :=
    fun gone => (gone.of_erase rule).elim outboundDone unbroken.outboundSink
  have inboundSink : Absent 3 (front ++ rest) → copy.inbound.shutdown = true :=
    fun gone => (gone.of_erase rule).elim inboundDone unbroken.inboundSink
  rcases StreamCopy.mem_rules known with rfl | rfl | rfl | rfl <;>
    exact { unbroken with outboundSink := outboundSink, inboundSink := inboundSink }

theorem served (kept : Kept socket rules copy) (unbroken : Unbroken before rules copy)
    (member : rule ∈ rules) (ready : Ready rule copy)
    (returned : rule.callback kernel copy = .ok after) : Unbroken before rules after := by
  rcases StreamCopy.mem_rules (kept.known rule member) with rfl | rfl | rfl | rfl
  · have fillable : copy.outbound.Fillable := ready
    rcases Fallible.bind_eq_ok returned with ⟨⟨outbound, input⟩, filling, returned⟩
    rw [← Fallible.pure_eq_ok returned]
    rcases Flow.fill_cases kept.outbound.wellFormed fillable.room filling with ⟨data, -, filled⟩
    exact { unbroken with
      outboundClean := filled.error.trans unbroken.outboundClean
      outboundSink := fun gone => filled.shutdown.trans (unbroken.outboundSink gone)
      outboundShut := fun shut => filled.shutdown.trans (unbroken.outboundShut shut) }
  · rcases Fallible.bind_eq_ok returned with ⟨⟨outbound, wrapper⟩, draining, returned⟩
    rcases Flow.drain_cases kept.outbound.wellFormed draining with ⟨written, drained⟩
    dsimp only at returned
    split at returned
    · rcases Fallible.bind_eq_ok returned with ⟨shut, shutting, returned⟩
      rw [← Fallible.pure_eq_ok returned]
      exact { unbroken with
        outboundClean := drained.error.trans unbroken.outboundClean
        outboundSink := fun _ => rfl
        outboundShut := fun _ => rfl }
    · rw [← Fallible.pure_eq_ok returned]
      exact { unbroken with
        outboundClean := drained.error.trans unbroken.outboundClean
        outboundSink := fun gone => drained.shutdown.trans (unbroken.outboundSink gone)
        outboundShut := fun shut => drained.shutdown.trans (unbroken.outboundShut shut) }
  · have fillable : copy.inbound.Fillable := ready
    rcases Fallible.bind_eq_ok returned with ⟨⟨inbound, wrapper⟩, filling, returned⟩
    rw [← Fallible.pure_eq_ok returned]
    rcases Flow.fill_cases kept.inbound.wellFormed fillable.room filling with ⟨data, -, filled⟩
    exact { unbroken with
      inboundClean := filled.error.trans unbroken.inboundClean
      inboundSink := fun gone => filled.shutdown.trans (unbroken.inboundSink gone)
      inboundShut := fun shut => filled.shutdown.trans (unbroken.inboundShut shut) }
  · rcases Fallible.bind_eq_ok returned with ⟨⟨inbound, output⟩, draining, returned⟩
    rcases Flow.drain_cases kept.inbound.wellFormed draining with ⟨written, drained⟩
    dsimp only at returned
    split at returned
    · rcases Fallible.bind_eq_ok returned with ⟨shut, closing, returned⟩
      rw [← Fallible.pure_eq_ok returned]
      exact { unbroken with
        inboundClean := drained.error.trans unbroken.inboundClean
        inboundSink := fun _ => rfl
        inboundShut := fun _ => rfl }
    · rw [← Fallible.pure_eq_ok returned]
      exact { unbroken with
        inboundClean := drained.error.trans unbroken.inboundClean
        inboundSink := fun gone => drained.shutdown.trans (unbroken.inboundSink gone)
        inboundShut := fun shut => drained.shutdown.trans (unbroken.inboundShut shut) }

/-- A calm system keeps the copy unbroken during a call. -/
theorem discipline (calm : Calm before kernel) (socketFd : before.socket.fd = socket)
    (outputFd : before.output.fd = 1) :
    Discipline kernel (number socket)
      (fun rules copy => Kept socket rules copy ∧ Unbroken before rules copy)
      (fun rules copy => Kept socket rules copy ∧ Unbroken before rules copy) Ready Idle := by
  have known : ∀ {front rule rest copy}, Kept socket (front ++ rule :: rest) copy →
      rule ∈ StreamCopy.rules :=
    fun kept => kept.known _ (List.mem_append_right _ List.mem_cons_self)
  refine (Kept.discipline socket kernel).strengthen (Unbroken before) (Unbroken before)
    ?_ ?_ ?_ ?_ ?_ ?_
  · intro front rule rest copy kept unbroken requested
    rcases StreamCopy.mem_rules (known kept) with rfl | rfl | rfl | rfl <;> cases requested
  · intro front rule rest copy kept unbroken exhausted
    refine unbroken.erase (known kept) ?_ ?_
    · intro category
      rcases StreamCopy.mem_rules (known kept) with rfl | rfl | rfl | rfl
      · cases category
      · have closed : copy.socket.closed = true := by
          simpa [FDRule.exhausted, StreamCopy.writeSocket] using exhausted
        rw [kept.socketOpen] at closed
        cases closed
      · cases category
      · cases category
    · intro category
      rcases StreamCopy.mem_rules (known kept) with rfl | rfl | rfl | rfl
      · cases category
      · cases category
      · cases category
      · apply kept.outputClosed
        simpa [FDRule.exhausted, StreamCopy.writeOutput] using exhausted
  · intro front rule rest copy kept unbroken hangsUp
    refine unbroken.erase (known kept) ?_ ?_
    · intro category
      simp only [number, category] at hangsUp
      exact unbroken.outboundShut (calm.socketUp (socketFd ▸ hangsUp.hangsUp))
    · intro category
      simp only [number, category] at hangsUp
      exact unbroken.inboundShut (calm.outputUp (outputFd ▸ hangsUp.hangsUp))
  · intro front rule rest copy _ _ fails
    exact absurd fails (calm.noError _)
  · exact fun kept unbroken member ready _ returned => served kept unbroken member ready returned
  · exact fun _ unbroken => unbroken

theorem start (socket : FDWrapper) : Unbroken (.create socket) StreamCopy.rules (.create socket) where
  outboundClean := rfl
  inboundClean := rfl
  outboundSink := fun absent => absurd rfl (absent StreamCopy.writeSocket (by simp [StreamCopy.rules]))
  inboundSink := fun absent => absurd rfl (absent StreamCopy.writeOutput (by simp [StreamCopy.rules]))
  outboundShut := id
  inboundShut := id

/-- The next call begins where this one has ended. -/
theorem again (unbroken : Unbroken before rules copy) : Unbroken copy rules copy :=
  { unbroken with
    outboundShut := id
    inboundShut := id }

end Unbroken

/-- A rule of a category that is not absent. -/
theorem exists_of_not_absent {rules : List (FDRule StreamCopy)} {copy : StreamCopy}
    (kept : Kept socket rules copy) (rule : FDRule StreamCopy) (own : rule ∈ StreamCopy.rules)
    (present : ¬ Absent rule.categoryId rules) : rule ∈ rules := by
  simp only [Absent, ne_eq, not_forall, not_not] at present
  rcases present with ⟨other, member, same⟩
  have known := kept.known other member
  have identical : other = rule := by
    rcases StreamCopy.mem_rules known with rfl | rfl | rfl | rfl <;>
      rcases StreamCopy.mem_rules own with rfl | rfl | rfl | rfl <;> first | rfl | cases same
  rwa [← identical]

/-- A direction whose idle rules are all that is left of it is complete. -/
theorem complete_of_idle {flow other : Flow} (sound : flow.Sound)
    (clean : flow.stream.error = false) (otherClean : other.stream.error = false)
    (source : flow.stream.closed = true ∨ flow.wantsFill other = false)
    (sink : flow.shutdown = true ∨ flow.wantsDrain = false) : flow.Complete := by
  rcases sink with shut | unwanted
  · exact sound.complete shut
  · have drained := sound.drained unwanted
    refine sound.complete (drained.2 ?_)
    rcases source with closed | unfilled
    · exact closed
    · have positive := sound.capacity_pos
      rcases sound.full_or_closed unfilled with failed | otherFailed | full | closed
      · rw [clean] at failed
        cases failed
      · rw [otherClean] at otherFailed
        cases otherFailed
      · rw [drained.1, List.length_nil] at full
        omega
      · exact closed

/-- A calm system keeps the copy unbroken in all calls. -/
theorem unbroken_of_reachable {socket : FDWrapper} (isOpen : socket.closed = false)
    (reached : (machine Calm).Reachable (.start socket) run) :
    run.Between (fun rules copy => Kept socket.fd rules copy ∧ Unbroken copy rules copy) := by
  refine reached.invariant (Between _) ?_ ?_
  · exact {
      others := rfl
      kept := ⟨.start socket isOpen, .start socket⟩
      idle := fun impossible => by cases impossible }
  · intro run kernel between calm
    have kept : Kept socket.fd run.loop.fdRules run.copy := between.kept.1
    have now : run.Between
        (fun rules copy => Kept socket.fd rules copy ∧ Unbroken run.copy rules copy) :=
      { between with kept := between.kept }
    have after := now.step (Unbroken.discipline calm kept.socketFd kept.outputFd)
    exact { after with kept := ⟨after.kept.1, after.kept.2.again⟩ }

/-- Nothing is left to poll only when both directions are complete. -/
theorem Between.complete
    (between : run.Between (fun rules copy => Kept socket rules copy ∧ Unbroken copy rules copy))
    (returned : run.outcome = some (.ok ())) :
    run.copy.outbound.Complete ∧ run.copy.inbound.Complete := by
  have kept := between.kept.1
  have unbroken := between.kept.2
  have idle := between.idle returned
  constructor
  · refine complete_of_idle kept.outbound unbroken.outboundClean unbroken.inboundClean ?_ ?_
    · by_cases absent : Absent 0 run.loop.fdRules
      · exact Or.inl (kept.outboundClosed (.inl absent))
      · exact Or.inr (idle _ (exists_of_not_absent kept StreamCopy.readInput
          (by simp [StreamCopy.rules]) absent))
    · by_cases absent : Absent 1 run.loop.fdRules
      · exact Or.inl (unbroken.outboundSink absent)
      · exact Or.inr (idle _ (exists_of_not_absent kept StreamCopy.writeSocket
          (by simp [StreamCopy.rules]) absent))
  · refine complete_of_idle kept.inbound unbroken.inboundClean unbroken.outboundClean ?_ ?_
    · by_cases absent : Absent 2 run.loop.fdRules
      · exact Or.inl (kept.inboundClosed (.inl absent))
      · exact Or.inr (idle _ (exists_of_not_absent kept StreamCopy.readSocket
          (by simp [StreamCopy.rules]) absent))
    · by_cases absent : Absent 3 run.loop.fdRules
      · exact Or.inl (unbroken.inboundSink absent)
      · exact Or.inr (idle _ (exists_of_not_absent kept StreamCopy.writeOutput
          (by simp [StreamCopy.rules]) absent))

/-- When the copy returns on a calm system, both directions are complete. -/
theorem complete_on_return {socket : FDWrapper} (isOpen : socket.closed = false)
    (reached : (machine Calm).Reachable (.start socket) run)
    (returned : run.outcome = some (.ok ())) :
    run.copy.outbound.Complete ∧ run.copy.inbound.Complete :=
  (unbroken_of_reachable isOpen reached).complete returned

theorem eager_calm (copy : StreamCopy) (data : List Byte) : Calm copy (Kernel.eager data) where
  noError := Kernel.not_fails_eager data
  socketUp := fun hangsUp => absurd hangsUp (Kernel.not_hangsUp_eager data _)
  outputUp := fun hangsUp => absurd hangsUp (Kernel.not_hangsUp_eager data _)

theorem exchange_admissible_calm : (machine Calm).Admissible (.start { fd := 5 }) exchange :=
  ⟨eager_calm _ _, eager_calm _ _, eager_calm _ _, eager_calm _ _, eager_calm _ _,
    eager_calm _ _, eager_calm _ _, trivial⟩

theorem complete_on_return_exchange :
    let run := (machine Calm).run (.start { fd := 5 }) exchange
    run.copy.outbound.Complete ∧ run.copy.inbound.Complete :=
  complete_on_return rfl exchange_admissible_calm.reachable rfl

/-! ## A system that keeps its promises -/

/-- A draining rule that leaves its stream unfinished has written something. -/
theorem moved_of_unfinished {flow after : Flow} {sink wrapper : FDWrapper} {written : Nat}
    (wellFormed : flow.stream.WellFormed) (wants : flow.wantsDrain = true)
    (drained : flow.Drained sink written after wrapper)
    (unfinished : ¬ after.stream.isFinished = true) : wrapper = sink.registerWrite := by
  rw [drained.wrapper_eq, if_neg]
  intro empty
  simp only [Flow.wantsDrain, ByteStream.bytesBuffered, wellFormed.currlen_eq, empty,
    List.length_nil, bne_self_eq_false, Bool.false_or, Bool.and_eq_true] at wants
  apply unfinished
  rw [drained.wellFormed.isFinished_iff, drained.closed, drained.bytes, empty]
  exact ⟨(wellFormed.isFinished_iff.mp wants.1).1, List.drop_nil⟩

theorem fill_returns {flow : Flow} {source : FDWrapper} (truthful : kernel.Truthful)
    (fillable : flow.Fillable) (offered : kernel.Offers source.fd .incoming) :
    ∃ data after, flow.fill source kernel = .ok (after, source.afterRead data) := by
  rcases truthful.reads _ offered _ fillable.room with ⟨data, answered, fits⟩
  refine ⟨data, ?_⟩
  rw [Flow.fill, Fallible.bind_of_ok (FDWrapper.read_of_ok fillable.room answered fits)]
  exact ⟨_, rfl⟩

theorem drain_returns {flow : Flow} {sink : FDWrapper} (wellFormed : flow.stream.WellFormed)
    (truthful : kernel.Truthful) (offered : kernel.Offers sink.fd .outgoing) :
    ∃ result, flow.drain sink kernel = .ok result := by
  rw [Flow.drain]
  split
  · rename_i some
    have nonempty : flow.stream.peek ≠ [] := by
      intro empty
      rw [ByteStream.bytesBuffered, wellFormed.currlen_eq] at some
      exact some (List.length_eq_zero_iff.mpr empty)
    rcases truthful.writes _ offered _ nonempty with ⟨written, answered, positive, fits⟩
    rw [Fallible.bind_of_ok (FDWrapper.write_of_ok answered positive fits)]
    exact ⟨_, rfl⟩
  · exact ⟨_, rfl⟩

/-- Every rule that is offered its event moves its descriptor on. -/
theorem serviceable (truthful : kernel.Truthful) (socket : Nat) :
    Serviceable kernel (number socket) (Kept socket) Ready where
  polls := truthful.polls
  checks := truthful.sockets
  serves := by
    intro rules rule copy kept member ready offered
    rw [← kept.number_eq member] at offered
    rcases StreamCopy.mem_rules (kept.known rule member) with rfl | rfl | rfl | rfl
    · rcases fill_returns truthful ready offered with ⟨data, outbound, filling⟩
      refine ⟨{ copy with outbound, input := copy.input.afterRead data }, ?_, Or.inl ?_⟩
      · exact Fallible.bind_of_ok filling
      · simp [FDRule.serviceCount, StreamCopy.readInput, FDWrapper.afterRead,
          FDWrapper.registerRead]
    · rcases drain_returns kept.outbound.wellFormed truthful offered with
        ⟨⟨outbound, wrapper⟩, draining⟩
      rcases Flow.drain_cases kept.outbound.wellFormed draining with ⟨written, drained⟩
      have called : StreamCopy.writeSocket.callback kernel copy = _ := Fallible.bind_of_ok draining
      rw [called]
      dsimp only
      by_cases isFinished : outbound.stream.isFinished = true
      · rcases truthful.shutdowns wrapper.fd with ⟨value, answered⟩
        rw [if_pos isFinished, Fallible.bind_of_ok (FDWrapper.shutdown_of_ok answered)]
        refine ⟨_, rfl, Or.inl ?_⟩
        simp only [FDRule.serviceCount, StreamCopy.writeSocket, drained.wrapper_eq]
        split <;> simp [FDWrapper.registerWrite, UInt32.add_assoc]
      · rw [if_neg isFinished]
        refine ⟨_, rfl, Or.inl ?_⟩
        have moved := moved_of_unfinished kept.outbound.wellFormed ready drained isFinished
        simp [FDRule.serviceCount, StreamCopy.writeSocket, moved, FDWrapper.registerWrite]
    · rcases fill_returns truthful ready offered with ⟨data, inbound, filling⟩
      refine ⟨{ copy with inbound, socket := copy.socket.afterRead data }, ?_, Or.inl ?_⟩
      · exact Fallible.bind_of_ok filling
      · simp [FDRule.serviceCount, StreamCopy.readSocket, FDWrapper.afterRead,
          FDWrapper.registerRead]
    · rcases drain_returns kept.inbound.wellFormed truthful offered with
        ⟨⟨inbound, wrapper⟩, draining⟩
      rcases Flow.drain_cases kept.inbound.wellFormed draining with ⟨written, drained⟩
      have called : StreamCopy.writeOutput.callback kernel copy = _ := Fallible.bind_of_ok draining
      rw [called]
      dsimp only
      by_cases isFinished : inbound.stream.isFinished = true
      · rcases truthful.closes wrapper.fd with ⟨value, answered⟩
        rw [if_pos isFinished, Fallible.bind_of_ok (FDWrapper.close_of_ok answered)]
        exact ⟨_, rfl, Or.inr (Or.inl rfl)⟩
      · rw [if_neg isFinished]
        refine ⟨_, rfl, Or.inl ?_⟩
        have moved := moved_of_unfinished kept.inbound.wellFormed ready drained isFinished
        simp [FDRule.serviceCount, StreamCopy.writeOutput, moved, FDWrapper.registerWrite]

/-- On a truthful system the copy never throws, and in particular never waits busily. -/
theorem never_throws {socket : FDWrapper} (isOpen : socket.closed = false)
    (reached : (machine fun _ kernel => kernel.Truthful).Reachable (.start socket) run)
    (failure : Failure) : run.outcome ≠ some (.error failure) := by
  suffices both : run.Between (Kept socket.fd) ∧ run.outcome ≠ some (.error failure) from both.2
  refine reached.invariant
    (fun run => run.Between (Kept socket.fd) ∧ run.outcome ≠ some (.error failure))
    ⟨.start isOpen, fun impossible => by cases impossible⟩ ?_
  rintro run kernel ⟨between, going⟩ truthful
  refine ⟨between.step (Kept.discipline socket.fd kernel), ?_⟩
  rcases EventLoop.waitNextEvent_returns (Kept.discipline socket.fd kernel)
    (serviceable truthful socket.fd) between.others between.kept with ⟨result, returned⟩
  change (run.step kernel).outcome ≠ _
  rw [CopyRun.step]
  split
  · exact going
  · rw [returned]
    dsimp only
    split <;> exact fun impossible => by cases impossible

theorem exchange_admissible_truthful :
    (machine fun _ kernel => kernel.Truthful).Admissible (.start { fd := 5 }) exchange :=
  ⟨Kernel.eager_truthful _, Kernel.eager_truthful _, Kernel.eager_truthful _,
    Kernel.eager_truthful _, Kernel.eager_truthful _, Kernel.eager_truthful _,
    Kernel.eager_truthful _, trivial⟩

theorem never_throws_exchange :
    ((machine fun _ kernel => kernel.Truthful).run (.start { fd := 5 }) exchange).outcome ≠
      some (.error (.unixError "read" .eagain)) :=
  never_throws rfl exchange_admissible_truthful.reachable _

end CopyRun
end Rchan
