import Rchan.Application.StreamCopy
import Rchan.System.Serving

namespace Rchan

/-!
# What the copy keeps

A direction of the copy loses nothing: what has been written to its sink, followed by
what its stream holds, is what has been read from its source.  This needs the room that
the interest of the filling rule has tested, since a push beyond the capacity would
drop bytes, and a stream that is still open.  Both were tested before the descriptors
were polled and have to survive the cancellations in between.
-/

namespace Flow

/-- Nothing is lost, and a sink is shut down only behind the whole stream. -/
structure Sound (flow : Flow) : Prop where
  wellFormed : flow.stream.WellFormed
  conserved : flow.given ++ flow.stream.bytes = flow.taken
  finished : flow.shutdown = true → flow.stream.closed = true ∧ flow.stream.bytes = []
  capacity_pos : 0 < flow.stream.capacity

variable {flow after : Flow} {source sink wrapper : FDWrapper} {kernel : Kernel}

theorem sound_create {capacity : Nat} (positive : 0 < capacity) (inRange : capacity < 2 ^ 64) :
    Sound { stream := .create capacity } where
  capacity_pos := positive
  wellFormed := ByteStream.wellFormed_create inRange
  conserved := rfl
  finished := fun impossible => by cases impossible

/-- What filling does: the stream has taken everything that was read for it. -/
structure Filled (flow : Flow) (source : FDWrapper) (data : List Byte) (after : Flow)
    (wrapper : FDWrapper) : Prop where
  wellFormed : after.stream.WellFormed
  bytes : after.stream.bytes = flow.stream.bytes ++ data
  closed : after.stream.closed = (wrapper.eof || flow.stream.closed)
  error : after.stream.error = flow.stream.error
  capacity : after.stream.capacity = flow.stream.capacity
  taken : after.taken = flow.taken ++ data
  given : after.given = flow.given
  shutdown : after.shutdown = flow.shutdown
  same : source.SameFile wrapper

/-- What draining does: a prefix of the stream has been moved to the sink. -/
structure Drained (flow : Flow) (sink : FDWrapper) (written : Nat) (after : Flow)
    (wrapper : FDWrapper) : Prop where
  wellFormed : after.stream.WellFormed
  bytes : after.stream.bytes = flow.stream.bytes.drop written
  closed : after.stream.closed = flow.stream.closed
  error : after.stream.error = flow.stream.error
  capacity : after.stream.capacity = flow.stream.capacity
  taken : after.taken = flow.taken
  given : after.given = flow.given ++ flow.stream.bytes.take written
  shutdown : after.shutdown = flow.shutdown
  wrapper_eq : wrapper = (if flow.stream.bytes = [] then sink else sink.registerWrite)

theorem Drained.same {written : Nat} (drained : Drained flow sink written after wrapper) :
    sink.SameFile wrapper := by
  rw [drained.wrapper_eq]
  split <;> exact ⟨rfl, rfl⟩

/-- Filling reads as many bytes as there is room for. -/
theorem fill_cases (wellFormed : flow.stream.WellFormed) (room : 0 < flow.stream.availableCapacity)
    (returned : flow.fill source kernel = .ok (after, wrapper)) :
    ∃ data, source.read flow.stream.availableCapacity kernel = .ok (wrapper, data) ∧
      Filled flow source data after wrapper := by
  rcases Fallible.bind_eq_ok returned with ⟨⟨read, data⟩, reading, returned⟩
  have parts := Prod.mk.inj (Fallible.pure_eq_ok returned)
  rw [parts.2] at reading parts
  have fits : data.length ≤ flow.stream.capacity - flow.stream.bytes.length := by
    rw [← wellFormed.availableCapacity_eq]
    rcases FDWrapper.read_cases room reading with ⟨_, none⟩ | ⟨_, fits, _⟩
    · rw [none]
      exact Nat.zero_le _
    · exact fits
  have pushed : (flow.stream.push data).bytes = flow.stream.bytes ++ data := by
    rw [wellFormed.push_eq]
    simp only [List.take_of_length_le fits]
  have same := FDWrapper.SameFile.read room reading
  refine ⟨data, reading, ?_⟩
  rw [← parts.1]
  cases eof : wrapper.eof with
  | true => exact {
      wellFormed := (wellFormed.push data).close
      bytes := pushed
      closed := by simp [ByteStream.close, eof]
      error := rfl, capacity := rfl, taken := rfl, given := rfl, shutdown := rfl
      same := same }
  | false => exact {
      wellFormed := wellFormed.push data
      bytes := pushed
      closed := by simp [ByteStream.push, eof]
      error := rfl, capacity := rfl, taken := rfl, given := rfl, shutdown := rfl
      same := same }

theorem Sound.fill (sound : flow.Sound) (room : 0 < flow.stream.availableCapacity)
    (isOpen : flow.stream.closed = false)
    (returned : flow.fill source kernel = .ok (after, wrapper)) : after.Sound := by
  rcases fill_cases sound.wellFormed room returned with ⟨data, -, filled⟩
  refine {
    wellFormed := filled.wellFormed
    conserved := ?_
    finished := ?_
    capacity_pos := sound.capacity_pos.trans_eq filled.capacity.symm }
  · rw [filled.given, filled.bytes, filled.taken, ← sound.conserved, List.append_assoc]
  · intro shut
    rw [filled.shutdown] at shut
    have closed := (sound.finished shut).1
    rw [isOpen] at closed
    cases closed

theorem drain_cases (wellFormed : flow.stream.WellFormed)
    (returned : flow.drain sink kernel = .ok (after, wrapper)) :
    ∃ written, Drained flow sink written after wrapper := by
  have buffered : flow.stream.bytesBuffered = flow.stream.bytes.length := wellFormed.currlen_eq
  rw [drain] at returned
  split at returned
  · rename_i some
    rcases Fallible.bind_eq_ok returned with ⟨⟨wrote, written⟩, writing, returned⟩
    have parts := Prod.mk.inj (Fallible.pure_eq_ok returned)
    have wrapped := (FDWrapper.write_cases writing).1
    have nonempty : flow.stream.bytes ≠ [] := by
      intro empty
      rw [buffered, empty] at some
      exact some rfl
    refine ⟨written, ?_⟩
    rw [← parts.1, ← parts.2, wrapped]
    exact {
      wellFormed := wellFormed.pop written
      bytes := by rw [wellFormed.pop_eq]
      closed := ByteStream.pop_closed written
      error := by rw [wellFormed.pop_eq]
      capacity := ByteStream.pop_capacity written
      taken := rfl, given := rfl, shutdown := rfl
      wrapper_eq := by rw [if_neg nonempty] }
  · rename_i none
    have empty : flow.stream.bytes = [] := by
      rw [buffered, not_not] at none
      exact List.length_eq_zero_iff.mp none
    have parts := Prod.mk.inj (Fallible.pure_eq_ok returned)
    rw [← parts.1, ← parts.2]
    refine ⟨0, {
      wellFormed := wellFormed
      bytes := rfl, closed := rfl, error := rfl, capacity := rfl, taken := rfl
      given := ?_
      shutdown := rfl
      wrapper_eq := by rw [if_pos empty] }⟩
    rw [List.take_zero, List.append_nil]

theorem Sound.drain (sound : flow.Sound) (returned : flow.drain sink kernel = .ok (after, wrapper)) :
    after.Sound := by
  rcases drain_cases sound.wellFormed returned with ⟨written, drained⟩
  refine {
    wellFormed := drained.wellFormed
    conserved := ?_
    finished := ?_
    capacity_pos := sound.capacity_pos.trans_eq drained.capacity.symm }
  · rw [drained.given, drained.bytes, drained.taken, List.append_assoc, List.take_append_drop,
      sound.conserved]
  · intro shut
    rw [drained.shutdown] at shut
    rw [drained.closed, drained.bytes, (sound.finished shut).2]
    exact ⟨(sound.finished shut).1, List.drop_nil⟩

theorem Sound.close (sound : flow.Sound) : flow.close.Sound where
  wellFormed := sound.wellFormed.close
  conserved := sound.conserved
  finished := fun shut => ⟨rfl, (sound.finished shut).2⟩
  capacity_pos := sound.capacity_pos

theorem Sound.setError (sound : flow.Sound) : flow.setError.Sound where
  wellFormed := sound.wellFormed.setError
  conserved := sound.conserved
  finished := sound.finished
  capacity_pos := sound.capacity_pos

/-- The sink is shut down when the stream is finished. -/
theorem Sound.shut (sound : flow.Sound) (isFinished : flow.stream.isFinished = true) :
    Sound { flow with shutdown := true } where
  wellFormed := sound.wellFormed
  conserved := sound.conserved
  finished := fun _ => sound.wellFormed.isFinished_iff.mp isFinished
  capacity_pos := sound.capacity_pos

/-- The interest of a filling rule, apart from the errors. -/
structure Fillable (flow : Flow) : Prop where
  room : 0 < flow.stream.availableCapacity
  isOpen : flow.stream.closed = false

theorem fillable_of_wantsFill {other : Flow} (wants : flow.wantsFill other = true) :
    flow.Fillable := by
  simp only [wantsFill, Bool.and_eq_true, decide_eq_true_eq, Bool.not_eq_true'] at wants
  exact ⟨wants.1.2, wants.2⟩

/-- A stream that is not to be filled is full or closed, unless there has been an error. -/
theorem Sound.full_or_closed (sound : flow.Sound) {other : Flow}
    (unwanted : flow.wantsFill other = false) :
    flow.stream.error = true ∨ other.stream.error = true ∨
      flow.stream.bytes.length = flow.stream.capacity ∨ flow.stream.closed = true := by
  have fits := sound.wellFormed.fits
  simp only [wantsFill, ByteStream.hasError, ByteStream.isClosed,
    sound.wellFormed.availableCapacity_eq, Bool.and_eq_false_iff, Bool.not_eq_false',
    decide_eq_false_iff_not] at unwanted
  rcases unwanted with ((failed | otherFailed) | full) | closed
  · exact Or.inl failed
  · exact Or.inr (Or.inl otherFailed)
  · exact Or.inr (Or.inr (Or.inl (by omega)))
  · exact Or.inr (Or.inr (Or.inr closed))

/-- A stream that is not to be drained is empty, and its sink is shut down if it is closed. -/
theorem Sound.drained (sound : flow.Sound) (unwanted : flow.wantsDrain = false) :
    flow.stream.bytes = [] ∧ (flow.stream.closed = true → flow.shutdown = true) := by
  simp only [wantsDrain, ByteStream.bytesBuffered, sound.wellFormed.currlen_eq,
    Bool.or_eq_false_iff, bne_eq_false_iff_eq, List.length_eq_zero_iff, Bool.and_eq_false_iff,
    Bool.not_eq_false'] at unwanted
  refine ⟨unwanted.1, fun closed => ?_⟩
  rcases unwanted.2 with unfinished | shut
  · rw [(sound.wellFormed.isFinished_iff).mpr ⟨closed, unwanted.1⟩] at unfinished
    cases unfinished
  · exact shut

/-- Closing a stream leaves it to be drained. -/
theorem wantsDrain_close (wants : flow.wantsDrain = true) : flow.close.wantsDrain = true := by
  simp only [wantsDrain, ByteStream.bytesBuffered, ByteStream.isFinished, Bool.or_eq_true,
    Bool.and_eq_true, bne_iff_ne, ne_eq] at wants ⊢
  rcases wants with some | ⟨⟨_, empty⟩, unshut⟩
  · exact Or.inl some
  · exact Or.inr ⟨⟨rfl, empty⟩, unshut⟩

end Flow

namespace StreamCopy

open FDRule (Absent)

variable {copy after : StreamCopy} {kernel : Kernel}

/-- The invariant of the copy: both directions are sound, a rule is only gone from the
loop when its stream has been closed, and a descriptor is only closed by the rule that
writes to it. -/
structure Kept (socket : Nat) (rules : List (FDRule StreamCopy)) (copy : StreamCopy) : Prop where
  known : ∀ rule ∈ rules, rule ∈ StreamCopy.rules
  ordered : rules.Pairwise (fun first second => first.categoryId < second.categoryId)
  outbound : copy.outbound.Sound
  inbound : copy.inbound.Sound
  outboundClosed : Absent 0 rules ∨ Absent 1 rules → copy.outbound.stream.closed = true
  inboundClosed : Absent 2 rules ∨ Absent 3 rules → copy.inbound.stream.closed = true
  inputOpen : copy.input.closed = false
  socketOpen : copy.socket.closed = false
  outputClosed : copy.output.closed = true → copy.inbound.shutdown = true
  inputFd : copy.input.fd = 0
  outputFd : copy.output.fd = 1
  socketFd : copy.socket.fd = socket

/-- The number of the descriptor of a rule. -/
def number (socket : Nat) (rule : FDRule StreamCopy) : Nat :=
  match rule.categoryId with
  | 0 => 0
  | 1 => socket
  | 2 => socket
  | _ => 1

/-- What the callback of a rule relies on. -/
def Ready (rule : FDRule StreamCopy) (copy : StreamCopy) : Prop :=
  match rule.categoryId with
  | 0 => copy.outbound.Fillable
  | 1 => copy.outbound.wantsDrain = true
  | 2 => copy.inbound.Fillable
  | _ => copy.inbound.wantsDrain = true

/-- What is known of a rule that is not interested. -/
def Idle (rule : FDRule StreamCopy) (copy : StreamCopy) : Prop :=
  match rule.categoryId with
  | 0 => copy.outbound.wantsFill copy.inbound = false
  | 1 => copy.outbound.wantsDrain = false
  | 2 => copy.inbound.wantsFill copy.outbound = false
  | _ => copy.inbound.wantsDrain = false

theorem mem_rules {rule : FDRule StreamCopy} (known : rule ∈ rules) :
    rule = readInput ∨ rule = writeSocket ∨ rule = readSocket ∨ rule = writeOutput := by
  simpa [rules] using known

namespace Kept

variable {socket : Nat} {rules before later : List (FDRule StreamCopy)} {rule : FDRule StreamCopy}

theorem number_eq (kept : Kept socket rules copy) (member : rule ∈ rules) :
    (rule.fd copy).fd = number socket rule := by
  rcases mem_rules (kept.known rule member) with rfl | rfl | rfl | rfl
  · exact kept.inputFd
  · exact kept.socketFd
  · exact kept.socketFd
  · exact kept.outputFd

theorem ready_of_interest (kept : Kept socket rules copy) (member : rule ∈ rules)
    (interested : rule.interest copy = true) : Ready rule copy := by
  rcases mem_rules (kept.known rule member) with rfl | rfl | rfl | rfl
  · exact Flow.fillable_of_wantsFill interested
  · exact interested
  · exact Flow.fillable_of_wantsFill interested
  · exact interested

theorem idle_of_not (kept : Kept socket rules copy) (member : rule ∈ rules)
    (uninterested : rule.interest copy = false) : Idle rule copy := by
  rcases mem_rules (kept.known rule member) with rfl | rfl | rfl | rfl <;> exact uninterested

/-- A rule is erased after its stream has been closed. -/
theorem erase (kept : Kept socket (before ++ rule :: later) copy) :
    Kept socket (before ++ later) (rule.cancel copy) := by
  have sublist : (before ++ later).Sublist (before ++ rule :: later) :=
    (List.Sublist.refl before).append (List.sublist_cons_self rule later)
  have member : rule ∈ before ++ rule :: later := List.mem_append_right _ List.mem_cons_self
  have outboundClosed : Absent 0 (before ++ later) ∨ Absent 1 (before ++ later) →
      (rule.categoryId = 0 ∨ rule.categoryId = 1) ∨ copy.outbound.stream.closed = true := by
    rintro (absent | absent)
    · exact (absent.of_erase rule).imp Or.inl fun gone => kept.outboundClosed (.inl gone)
    · exact (absent.of_erase rule).imp Or.inr fun gone => kept.outboundClosed (.inr gone)
  have inboundClosed : Absent 2 (before ++ later) ∨ Absent 3 (before ++ later) →
      (rule.categoryId = 2 ∨ rule.categoryId = 3) ∨ copy.inbound.stream.closed = true := by
    rintro (absent | absent)
    · exact (absent.of_erase rule).imp Or.inl fun gone => kept.inboundClosed (.inl gone)
    · exact (absent.of_erase rule).imp Or.inr fun gone => kept.inboundClosed (.inr gone)
  have closesOutbound : rule.cancel = closeOutbound → rule.categoryId ≠ 2 → rule.categoryId ≠ 3 →
      Kept socket (before ++ later) (rule.cancel copy) := by
    intro cancel notSecond notThird
    rw [cancel]
    exact { kept with
      known := fun other inside => kept.known other (sublist.subset inside)
      ordered := kept.ordered.sublist sublist
      outbound := kept.outbound.close
      outboundClosed := fun _ => rfl
      inboundClosed := fun gone => (inboundClosed gone).resolve_left fun other =>
        other.elim notSecond notThird }
  have closesInbound : rule.cancel = closeInbound → rule.categoryId ≠ 0 → rule.categoryId ≠ 1 →
      Kept socket (before ++ later) (rule.cancel copy) := by
    intro cancel notFirst notSecond
    rw [cancel]
    exact { kept with
      known := fun other inside => kept.known other (sublist.subset inside)
      ordered := kept.ordered.sublist sublist
      inbound := kept.inbound.close
      inboundClosed := fun _ => rfl
      outboundClosed := fun gone => (outboundClosed gone).resolve_left fun other =>
        other.elim notFirst notSecond }
  rcases mem_rules (kept.known rule member) with rfl | rfl | rfl | rfl
  · exact closesOutbound rfl (by decide) (by decide)
  · exact closesOutbound rfl (by decide) (by decide)
  · exact closesInbound rfl (by decide) (by decide)
  · exact closesInbound rfl (by decide) (by decide)

theorem setError (kept : Kept socket rules copy) : Kept socket rules copy.setError :=
  { kept with
    outbound := kept.outbound.setError
    inbound := kept.inbound.setError }

/-- The rules stand in the order in which they have been added. -/
theorem earlier_lt (kept : Kept socket (before ++ rule :: later) copy) {earlier : FDRule StreamCopy}
    (member : earlier ∈ before) : earlier.categoryId < rule.categoryId :=
  (List.pairwise_append.mp kept.ordered).2.2 earlier member rule List.mem_cons_self

theorem lt_later (kept : Kept socket (before ++ rule :: later) copy) {other : FDRule StreamCopy}
    (member : other ∈ later) : rule.categoryId < other.categoryId :=
  (List.pairwise_cons.mp (List.pairwise_append.mp kept.ordered).2.1).1 other member

/-- A rule that has become exhausted since the others were found ready or idle takes
nothing away from them.  Of the two rules on the socket only the reading one can be
exhausted, and the one on the output only when the inbound stream is finished. -/
theorem exhausted_keeps (kept : Kept socket (before ++ rule :: later) copy)
    (exhausted : rule.exhausted copy = true) {earlier : FDRule StreamCopy}
    (member : earlier ∈ before) :
    (Ready earlier copy → Ready earlier (rule.cancel copy)) ∧
      (Idle earlier copy → Idle earlier (rule.cancel copy)) := by
  have order := kept.earlier_lt member
  have known := mem_rules (kept.known earlier (List.mem_append_left _ member))
  rcases mem_rules (kept.known rule (List.mem_append_right _ List.mem_cons_self)) with
    rfl | rfl | rfl | rfl
  · exact absurd order (Nat.not_lt_zero _)
  · have closed : copy.socket.closed = true := by simpa [FDRule.exhausted, writeSocket] using exhausted
    rw [kept.socketOpen] at closed
    cases closed
  · rcases known with rfl | rfl | rfl | rfl
    · exact ⟨id, id⟩
    · exact ⟨id, id⟩
    · exact absurd order (by decide)
    · exact absurd order (by decide)
  · have closed : copy.output.closed = true := by simpa [FDRule.exhausted, writeOutput] using exhausted
    have finished := kept.inbound.finished (kept.outputClosed closed)
    have same : writeOutput.cancel copy = copy := by
      have stream : copy.inbound.stream.close = copy.inbound.stream := by
        rw [ByteStream.close, ← finished.1]
      change { copy with inbound := { copy.inbound with stream := copy.inbound.stream.close } } = copy
      rw [stream]
    rw [same]
    exact ⟨id, id⟩

/-- A rule that is cancelled during the sweep leaves the later ones ready. -/
theorem hungUp_keeps (kept : Kept socket (before ++ rule :: later) copy) {other : FDRule StreamCopy}
    (member : other ∈ later) (ready : Ready other copy) : Ready other (rule.cancel copy) := by
  have order := kept.lt_later member
  have known := mem_rules (kept.known other (List.mem_append_right _ (List.mem_cons_of_mem _ member)))
  rcases mem_rules (kept.known rule (List.mem_append_right _ List.mem_cons_self)) with
    rfl | rfl | rfl | rfl
  · rcases known with rfl | rfl | rfl | rfl
    · exact absurd order (by decide)
    · exact Flow.wantsDrain_close ready
    · exact ready
    · exact ready
  · rcases known with rfl | rfl | rfl | rfl
    · exact absurd order (by decide)
    · exact absurd order (by decide)
    · exact ready
    · exact ready
  · rcases known with rfl | rfl | rfl | rfl
    · exact absurd order (by decide)
    · exact absurd order (by decide)
    · exact absurd order (by decide)
    · exact Flow.wantsDrain_close ready
  · rcases known with rfl | rfl | rfl | rfl <;> exact absurd order (by decide)

theorem ready_setError {rule : FDRule StreamCopy} (known : rule ∈ StreamCopy.rules)
    (ready : Ready rule copy) : Ready rule copy.setError := by
  rcases mem_rules known with rfl | rfl | rfl | rfl
  · have fillable : copy.outbound.Fillable := ready
    exact (⟨fillable.room, fillable.isOpen⟩ : copy.outbound.setError.Fillable)
  · exact ready
  · have fillable : copy.inbound.Fillable := ready
    exact (⟨fillable.room, fillable.isOpen⟩ : copy.inbound.setError.Fillable)
  · exact ready

theorem error_eq {rule : FDRule StreamCopy} (known : rule ∈ StreamCopy.rules) :
    rule.error copy = copy.setError := by
  rcases mem_rules known with rfl | rfl | rfl | rfl <;> rfl

/-- A callback keeps the invariant.  A filling rule relies on the room and on the open
stream, a draining rule on nothing. -/
theorem served (kept : Kept socket rules copy) (member : rule ∈ rules) (ready : Ready rule copy)
    (returned : rule.callback kernel copy = .ok after) : Kept socket rules after := by
  rcases mem_rules (kept.known rule member) with rfl | rfl | rfl | rfl
  · have fillable : copy.outbound.Fillable := ready
    rcases Fallible.bind_eq_ok returned with ⟨⟨outbound, input⟩, filling, returned⟩
    rw [← Fallible.pure_eq_ok returned]
    rcases Flow.fill_cases kept.outbound.wellFormed fillable.room filling with ⟨data, -, filled⟩
    exact { kept with
      outbound := kept.outbound.fill fillable.room fillable.isOpen filling
      outboundClosed := fun gone => by rw [filled.closed, kept.outboundClosed gone, Bool.or_true]
      inputOpen := filled.same.closed.trans kept.inputOpen
      inputFd := filled.same.fd.trans kept.inputFd }
  · rcases Fallible.bind_eq_ok returned with ⟨⟨outbound, wrapper⟩, draining, returned⟩
    rcases Flow.drain_cases kept.outbound.wellFormed draining with ⟨written, drained⟩
    have sound := kept.outbound.drain draining
    dsimp only at returned
    split at returned
    · rename_i isFinished
      rcases Fallible.bind_eq_ok returned with ⟨shut, shutting, returned⟩
      rw [← Fallible.pure_eq_ok returned]
      have same := drained.same.trans (.shutdown shutting)
      exact { kept with
        outbound := sound.shut isFinished
        outboundClosed := fun _ => (sound.wellFormed.isFinished_iff.mp isFinished).1
        socketOpen := same.closed.trans kept.socketOpen
        socketFd := same.fd.trans kept.socketFd }
    · rw [← Fallible.pure_eq_ok returned]
      exact { kept with
        outbound := sound
        outboundClosed := fun gone => drained.closed.trans (kept.outboundClosed gone)
        socketOpen := drained.same.closed.trans kept.socketOpen
        socketFd := drained.same.fd.trans kept.socketFd }
  · have fillable : copy.inbound.Fillable := ready
    rcases Fallible.bind_eq_ok returned with ⟨⟨inbound, wrapper⟩, filling, returned⟩
    rw [← Fallible.pure_eq_ok returned]
    rcases Flow.fill_cases kept.inbound.wellFormed fillable.room filling with ⟨data, -, filled⟩
    exact { kept with
      inbound := kept.inbound.fill fillable.room fillable.isOpen filling
      inboundClosed := fun gone => by rw [filled.closed, kept.inboundClosed gone, Bool.or_true]
      socketOpen := filled.same.closed.trans kept.socketOpen
      outputClosed := fun outputClosed => filled.shutdown.trans (kept.outputClosed outputClosed)
      socketFd := filled.same.fd.trans kept.socketFd }
  · rcases Fallible.bind_eq_ok returned with ⟨⟨inbound, output⟩, draining, returned⟩
    rcases Flow.drain_cases kept.inbound.wellFormed draining with ⟨written, drained⟩
    have sound := kept.inbound.drain draining
    dsimp only at returned
    split at returned
    · rename_i isFinished
      rcases Fallible.bind_eq_ok returned with ⟨shut, closing, returned⟩
      rw [← Fallible.pure_eq_ok returned]
      have outputFd : shut.fd = output.fd := by rw [FDWrapper.close_cases closing]
      exact { kept with
        inbound := sound.shut isFinished
        inboundClosed := fun _ => (sound.wellFormed.isFinished_iff.mp isFinished).1
        outputClosed := fun _ => rfl
        outputFd := (outputFd.trans drained.same.fd).trans kept.outputFd }
    · rw [← Fallible.pure_eq_ok returned]
      exact { kept with
        inbound := sound
        inboundClosed := fun gone => drained.closed.trans (kept.inboundClosed gone)
        outputClosed := fun outputClosed =>
          drained.shutdown.trans (kept.outputClosed (drained.same.closed.symm.trans outputClosed))
        outputFd := drained.same.fd.trans kept.outputFd }

theorem discipline (socket : Nat) (kernel : Kernel) :
    Discipline kernel (number socket) (Kept socket) (Kept socket) Ready Idle where
  number_eq := number_eq
  ready_of_interest := ready_of_interest
  idle_of_not := idle_of_not
  requested := by
    intro before rule after copy kept requested
    rcases mem_rules (kept.known rule (List.mem_append_right _ List.mem_cons_self)) with
      rfl | rfl | rfl | rfl <;> cases requested
  exhausted := fun kept _ => kept.erase
  exhausted_keeps := fun kept ended member => kept.exhausted_keeps ended member
  hungUp := fun kept _ => kept.erase
  hungUp_keeps := fun kept member ready => kept.hungUp_keeps member ready
  failed := by
    intro before rule after copy kept _
    rw [error_eq (kept.known rule (List.mem_append_right _ List.mem_cons_self))]
    exact kept.setError.erase
  failed_keeps := by
    intro before rule after later copy kept member ready
    rw [error_eq (kept.known rule (List.mem_append_right _ List.mem_cons_self))]
    have known := kept.known later (List.mem_append_right _ (List.mem_cons_of_mem _ member))
    exact kept.setError.hungUp_keeps member (ready_setError known ready)
  served := fun kept member isReady _ called => served kept member isReady called
  unserved := id

theorem start (socket : FDWrapper) (isOpen : socket.closed = false) :
    Kept socket.fd StreamCopy.rules (.create socket) where
  known := fun _ member => member
  ordered := by decide
  outbound := Flow.sound_create (by decide) (by decide)
  inbound := Flow.sound_create (by decide) (by decide)
  outboundClosed := by
    rintro (absent | absent)
    · exact absurd rfl (absent readInput (by simp [StreamCopy.rules]))
    · exact absurd rfl (absent writeSocket (by simp [StreamCopy.rules]))
  inboundClosed := by
    rintro (absent | absent)
    · exact absurd rfl (absent readSocket (by simp [StreamCopy.rules]))
    · exact absurd rfl (absent writeOutput (by simp [StreamCopy.rules]))
  inputOpen := rfl
  socketOpen := isOpen
  outputClosed := fun impossible => by cases impossible
  inputFd := rfl
  outputFd := rfl
  socketFd := rfl

end Kept

end StreamCopy
end Rchan
