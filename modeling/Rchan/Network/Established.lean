import Rchan.Network.Connection
import Rchan.Peer.Opening
import Rchan.Receiver.Ackno

namespace Rchan

/-!
# An established direction

`Link` compares the target with all that has been written.  Whether an acknowledgement is
heeded depends on what has been sent, and whether it reaches the end of a segment depends
on its number being exact.

The target knows only bytes that have been sent.  Its number is exact as long as no SYN
arrives behind a byte of the stream: a repeated SYN sets the number back, and the bytes
pushed before it are never counted again.  A source that has its SYN acknowledged before
bytes are written never repeats it behind them.
-/

namespace ReferenceRun

variable {run : ReferenceRun}

/-- Every segment carries the part of the sent bytes that stands at its index. -/
theorem FinLast.carriesSent (finLast : run.FinLast) (segmented : run.Segmented)
    {segment : Segment} (member : segment ∈ run.segments) :
    CarriesPart (run.segments.flatMap Segment.payload) run.sender.finSent segment := by
  rcases List.append_of_mem member with ⟨before, after, split⟩
  have index := finLast.index_eq segmented split
  have whole : run.segments.flatMap Segment.payload =
      before.flatMap Segment.payload ++ (segment.payload ++ after.flatMap Segment.payload) := by
    rw [split, List.flatMap_append, List.flatMap_cons]
  refine {
    opens := segmented.synFirst segment member
    agrees := ?_
    inside := ?_
    ends := ?_ }
  · intro offset byte found
    rw [whole, index, List.getElem?_append_right (Nat.le_add_right _ _),
      Nat.add_sub_cancel_left, List.getElem?_append_left (List.getElem?_eq_some_iff.mp found).1]
    exact found
  · rw [whole, index]
    simp only [List.length_append]
    omega
  · intro fin
    rcases finLast.fin_final segmented split fin with ⟨rfl, finSent⟩
    refine ⟨finSent, ?_⟩
    rw [whole, index]
    simp

end ReferenceRun

namespace PeerRun

/-- The bytes that have been sent. -/
def sentBytes (run : PeerRun) : List Byte := run.segments.flatMap TCPSenderMessage.payload

/-- Only a received message changes the largest acknowledgement. -/
theorem acked_step (run : PeerRun) (op : PeerOp) :
    (run.step op).acked =
      match op with
      | .receive msg =>
          if run.peer.active then
            SenderRun.ackedAfter run.peer.sender run.acked msg.receiver
          else run.acked
      | _ => run.acked := by
  cases op with
  | receive msg =>
      by_cases active : run.peer.active = true
      · simp only [step, senderOp, if_pos active]
        rfl
      · simp only [step, senderOp, if_neg active]
        rfl
  | _ => rfl

theorem acked_le_step (run : PeerRun) (op : PeerOp) : run.acked ≤ (run.step op).acked := by
  rw [run.acked_step op]
  cases op with
  | receive msg =>
      simp only [SenderRun.ackedAfter]
      split
      · split
        · exact Nat.le_refl _
        · split
          · exact Nat.le_refl _
          · exact Nat.le_max_left _ _
      · exact Nat.le_refl _
  | _ => exact Nat.le_refl _

end PeerRun

/-! ## What has been sent -/

namespace Outbound

variable {isn : Wrap32} {source : PeerRun}

theorem segmented (outbound : Outbound isn source) : source.sending.Segmentation isn := by
  rcases outbound.simulated with ⟨reference, simulates, finLast⟩
  exact simulates.toSegmentation finLast

/-- The sent bytes are the written ones that are no longer buffered. -/
theorem sentBytes_append (outbound : Outbound isn source) :
    source.sentBytes ++ source.peer.sender.input.peek = source.written :=
  outbound.segmented.payloads

theorem sentBytes_length_le (outbound : Outbound isn source) :
    source.sentBytes.length ≤ source.written.length := by
  rw [← outbound.sentBytes_append, List.length_append]
  exact Nat.le_add_right _ _

/-- Something has been sent before anything is acknowledged. -/
theorem segments_ne_nil (outbound : Outbound isn source) (acked : 0 < source.acked) :
    source.segments ≠ [] := by
  rcases outbound.simulated with ⟨reference, simulates, -⟩
  have segments : source.segments = reference.segments.map (Segment.wire isn) := simulates.segments
  have same : source.acked = reference.acked := simulates.acked
  have bound := simulates.segmented.acked_le
  have total := simulates.segmented.tiles.sum_length
  intro nothing
  rw [segments, List.map_eq_nil_iff] at nothing
  rw [nothing] at total
  simp only [List.map_nil, List.sum_nil] at total
  omega

/-- FIN is marked as sent exactly if one of the segments has it. -/
theorem finSent_iff (outbound : Outbound isn source) :
    source.peer.sender.finSent = true ↔ ∃ message ∈ source.segments, message.fin = true := by
  rcases outbound.simulated with ⟨reference, simulates, -⟩
  have flag : source.peer.sender.finSent = reference.sender.finSent :=
    congrArg TCPSender.finSent simulates.sender
  have segments : source.segments = reference.segments.map (Segment.wire isn) := simulates.segments
  have count := simulates.segmented.finCount
  rw [flag, segments]
  constructor
  · intro finSent
    rw [finSent, Bool.toNat_true] at count
    rcases List.countP_pos_iff.mp (by rw [count]; exact Nat.one_pos) with ⟨segment, member, fin⟩
    exact ⟨segment.wire isn, List.mem_map_of_mem member, fin⟩
  · rintro ⟨message, member, fin⟩
    rcases List.mem_map.mp member with ⟨segment, original, rfl⟩
    have positive : 0 < reference.segments.countP Segment.fin :=
      List.countP_pos_iff.mpr ⟨segment, original, fin⟩
    by_contra unsent
    rw [Bool.not_eq_true] at unsent
    rw [count, unsent] at positive
    exact Nat.lt_irrefl 0 positive

/-- A segment stands in the stream behind the bytes of those sent before it, and ends in the
sequence space behind SYN and these bytes. -/
theorem placed (outbound : Outbound isn source) {before after : List TCPSenderMessage}
    {message : TCPSenderMessage} (split : source.segments = before ++ message :: after) :
    TCPReceiver.streamIndex message isn =
        (before.flatMap TCPSenderMessage.payload).length ∧
      (message.seqno + message.sequenceLength).unwrap isn 0 =
        1 + (before.flatMap TCPSenderMessage.payload).length + message.payload.length +
          message.fin.toNat := by
  rcases outbound.simulated with ⟨reference, simulates, finLast⟩
  have segments : source.segments = reference.segments.map (Segment.wire isn) := simulates.segments
  rw [segments] at split
  rcases List.map_eq_append_iff.mp split with ⟨front, tail, parts, rfl, tailEq⟩
  rcases List.map_eq_cons_iff.mp tailEq with ⟨segment, rest, rfl, rfl, rfl⟩
  have member : segment ∈ reference.segments := by
    rw [parts]
    exact List.mem_append_right _ List.mem_cons_self
  have opens := simulates.segmented.synFirst segment member
  have bound := simulates.segmented.tiles.stop_le_high member
  have small := simulates.small
  have index := finLast.index_eq simulates.segmented parts
  have bytes : (front.map (Segment.wire isn)).flatMap TCPSenderMessage.payload =
      front.flatMap Segment.payload := by
    rw [List.flatMap_map]
    rfl
  rw [bytes, ← index]
  refine ⟨TCPReceiver.streamIndex_wire isn opens (by omega), ?_⟩
  have stop : (segment.wire isn).seqno + (segment.wire isn).sequenceLength =
      isn + (segment.start + segment.length) := by
    rw [Segment.wire_sequenceLength, ← Wrap32.add_add]
    rfl
  rw [stop, isn.unwrap_add_of_lt (by omega), Segment.length, Segment.index]
  change segment.start + (segment.syn.toNat + segment.payload.length + segment.fin.toNat) =
    1 + (segment.start - 1) + segment.payload.length + segment.fin.toNat
  cases syn : segment.syn with
  | true =>
      rw [opens.mp syn, Bool.toNat_true]
      omega
  | false =>
      have later : segment.start ≠ 0 := fun first => by
        rw [opens.mpr first] at syn
        cases syn
      rw [Bool.toNat_false]
      omega

/-- The next sequence number stands behind SYN and the sent bytes. -/
theorem sent_lt_next (outbound : Outbound isn source) (sent : source.segments ≠ []) :
    source.sentBytes.length < source.peer.sender.seqno.unwrap source.peer.sender.isn 0 := by
  rcases outbound.simulated with ⟨reference, simulates, -⟩
  have segments : source.segments = reference.segments.map (Segment.wire isn) := simulates.segments
  have bytes : source.sentBytes = reference.segments.flatMap Segment.payload := by
    rw [PeerRun.sentBytes, segments, List.flatMap_map]
    rfl
  have nonempty : reference.segments ≠ [] := by
    intro nothing
    rw [segments, nothing] at sent
    exact sent rfl
  have zero : source.peer.sender.isn = isn := simulates.isn_eq
  have next : source.peer.sender.seqno.unwrap isn 0 = reference.sender.next := simulates.next_eq
  have positive := simulates.segmented.next_pos nonempty
  have total := simulates.segmented.next_eq
  rw [if_neg (by omega)] at total
  rw [zero, next, bytes]
  omega

/-- Every message of the source belongs to the bytes that have been sent. -/
theorem belongsSent (outbound : Outbound isn source) {message : TCPMessage}
    (sent : message ∈ source.sent) :
    Belongs isn source.sentBytes source.peer.sender.finSent message.sender := by
  rcases outbound.sent message sent with segment | blank
  · rcases outbound.simulated with ⟨reference, simulates, finLast⟩
    have segments : source.segments = reference.segments.map (Segment.wire isn) := simulates.segments
    have flag : source.peer.sender.finSent = reference.sender.finSent :=
      congrArg TCPSender.finSent simulates.sender
    have bytes : source.sentBytes = reference.segments.flatMap Segment.payload := by
      rw [PeerRun.sentBytes, segments, List.flatMap_map]
      rfl
    rw [segments] at segment
    rcases List.mem_map.mp segment with ⟨original, member, wire⟩
    have carries := finLast.carriesSent simulates.segmented member
    have bound := simulates.segmented.tiles.stop_le_high member
    have small := simulates.small
    rw [← wire, bytes, flag]
    exact carries.belongs isn (by omega)
  · exact blank.belongs isn _ _

/-- What a step sends for the first time stands behind the sent bytes, and behind FIN
nothing is sent. -/
theorem sentBytes_step (outbound : Outbound isn source) {op : PeerOp}
    (orderly : source.WritesBeforeClose op) (few : (source.step op).written.length < 2 ^ 31) :
    ∃ more, (source.step op).sentBytes = source.sentBytes ++ more ∧
      (source.peer.sender.finSent = true →
        more = [] ∧ (source.step op).peer.sender.finSent = true) := by
  have after := outbound.step orderly few
  rcases source.segments_prefix_step op with ⟨fresh, split⟩
  refine ⟨fresh.flatMap TCPSenderMessage.payload, ?_, fun finSent => ?_⟩
  · rw [PeerRun.sentBytes, ← split, List.flatMap_append, PeerRun.sentBytes]
  · rcases outbound.finSent_iff.mp finSent with ⟨final, member, fin⟩
    refine ⟨?_, after.finSent_iff.mpr ⟨final, split ▸ List.mem_append_left _ member, fin⟩⟩
    rcases List.append_of_mem member with ⟨before, rest, segments⟩
    have whole : (source.step op).sending.segments = before ++ final :: (rest ++ fresh) := by
      change (source.step op).segments = _
      rw [← split, segments, List.append_assoc, List.cons_append]
    have last := (after.segmented.finLast _ _ _ whole fin).1
    rw [(List.append_eq_nil_iff.mp last).2]
    rfl

end Outbound

namespace Received

variable {isn : Wrap32} {written : List Byte} {closed : Bool} {target : PeerRun} {run : ReceiverRun}
  {message : TCPSenderMessage}

/-- A step of the target keeps what has been received. -/
theorem step (received : Received isn written closed target.receiving) {op : PeerOp}
    (belongs : ∀ msg, op = .receive msg → Belongs isn written closed msg.sender)
    (few : written.length < 2 ^ 31) :
    Received isn written closed (target.step op).receiving := by
  rw [target.receiving_step op]
  cases op with
  | receive msg =>
      simp only
      split
      · exact received.receive (belongs msg rfl) few
      · exact received
  | read len => exact received.read len
  | _ => exact received

/-- The pushed bytes are a prefix of those of the stream. -/
theorem pushed_prefix (received : Received isn written closed run) :
    run.pushedBytes <+: written := by
  rcases received.known with ⟨model, represents, -⟩
  exact prefix_of_agrees represents.pushed

theorem bytesPushed_length (received : Received isn written closed run) :
    run.receiver.reassembler.output.bytesPushed = run.pushedBytes.length := by
  rcases received.known with ⟨model, represents, -⟩
  exact bytesPushed_eq represents

end Received

/-- One direction of a connection, whose target knows only bytes that have been sent. -/
structure Carried (isn : Wrap32) (source target : PeerRun) : Prop extends
    Link isn source target where
  known : Received isn source.sentBytes source.peer.sender.finSent target.receiving

namespace Carried

variable {isn : Wrap32} {source target : PeerRun}

theorem start {sourceCfg targetCfg : TCPConfig} (sourceRange : sourceCfg.sendCapacity < 2 ^ 62)
    (targetRange : targetCfg.recvCapacity < 2 ^ 62) :
    Carried sourceCfg.isn (.start sourceCfg) (.start targetCfg) where
  toLink := .start sourceRange targetRange
  known := .start targetRange sourceCfg.isn

theorem source_step (carried : Carried isn source target) {op : PeerOp}
    (orderly : source.WritesBeforeClose op)
    (fromTarget : ∀ msg, op = .receive msg → msg ∈ target.sent)
    (few : (source.step op).written.length < 2 ^ 31) : Carried isn (source.step op) target where
  toLink := carried.toLink.source_step orderly fromTarget few
  known := by
    rcases carried.outbound.sentBytes_step orderly few with ⟨more, bytes, done⟩
    have known := carried.known
    rw [bytes]
    cases finSent : source.peer.sender.finSent with
    | true =>
        rw [(done finSent).1, (done finSent).2, List.append_nil, ← finSent]
        exact known
    | false =>
        rw [finSent] at known
        cases after : (source.step op).peer.sender.finSent with
        | true => exact (known.write more).close
        | false => exact known.write more

theorem target_step (carried : Carried isn source target) {op : PeerOp}
    (fromSource : ∀ msg, op = .receive msg → msg ∈ source.sent)
    (few : source.written.length < 2 ^ 31) : Carried isn source (target.step op) where
  toLink := carried.toLink.target_step fromSource few
  known := carried.known.step
    (fun msg same => carried.outbound.belongsSent (fromSource msg same))
    (Nat.lt_of_le_of_lt carried.outbound.sentBytes_length_le few)

/-- What has been pushed has been sent. -/
theorem pushed_le_sent (carried : Carried isn source target) :
    target.receiving.pushedBytes.length ≤ source.sentBytes.length :=
  carried.known.pushed_prefix.length_le

end Carried

/-! ## The number of the target -/

namespace ReceiverRun

/-- The number of an opened receiver that acknowledges all that has been pushed. -/
def Exact (isn : Wrap32) (run : ReceiverRun) : Prop :=
  run.receiver.reassembler.output.closed = true ∨
    run.receiver.ackno = some (isn + (1 + run.pushedBytes.length))

end ReceiverRun

namespace Received

variable {isn : Wrap32} {written : List Byte} {closed : Bool} {run : ReceiverRun}
  {message : TCPSenderMessage}

/-- An accepted message keeps the number exact. -/
theorem exact_receive (received : Received isn written closed run)
    (belongs : Belongs isn written closed message) (few : written.length < 2 ^ 31)
    (opened : (run.receiver.observeFlags message).zeroPoint = some isn)
    (number : run.receiver.reassembler.output.closed = true ∨
      (run.receiver.observeFlags message).ackno = some (isn + (1 + run.pushedBytes.length))) :
    (run.receive message).Exact isn := by
  rcases number with finished | number
  · exact Or.inl (run.receive_closed finished message)
  · have before : (run.receiver.observeFlags message).reassembler.output.bytesPushed =
        run.pushedBytes.length := by
      rw [TCPReceiver.observeFlags_reassembler]
      exact received.bytesPushed_length
    have after := (received.receive belongs few).bytesPushed_length
    have receiver : (run.receive message).receiver =
        (run.receiver.observeFlags message).accept message isn :=
      run.receiver.receive_of_some message opened
    rw [← before] at number
    have accepted : ((run.receiver.observeFlags message).accept message isn).ackno = _ :=
      TCPReceiver.accept_ackno number
    rw [← receiver, after] at accepted
    cases finished : (run.receive message).receiver.reassembler.output.closed with
    | true => exact Or.inl finished
    | false =>
        refine Or.inr (accepted.trans ?_)
        rw [ByteStream.isClosed, finished]
        rfl

theorem exact_read (received : Received isn written closed run) (number : run.Exact isn)
    (len : Nat) : (run.read len).Exact isn := by
  refine number.imp (fun finished => (ByteStream.pop_closed len).trans finished) fun same => ?_
  rw [ReceiverRun.pushedBytes_read received.wellFormed]
  exact same

end Received

/-- A direction that has been opened before bytes were written to it, and whose target has
not been opened again behind a byte. -/
structure Established (isn : Wrap32) (source target : PeerRun) : Prop extends
    Carried isn source target where
  unopened : target.peer.receiver.zeroPoint = none →
    source.acked = 0 ∧ target.peer.receiver.ackno = none ∧
      ∀ message ∈ target.sent, message.receiver.ackno = none
  number : target.peer.receiver.zeroPoint ≠ none → target.receiving.Exact isn
  waits : source.acked = 0 → source.written = []
  bare : source.written ≠ [] →
    ∀ message ∈ source.segments, message.syn = true → message.sequenceLength = 1

namespace Established

variable {isn : Wrap32} {source target : PeerRun}

theorem start {sourceCfg targetCfg : TCPConfig} (sourceRange : sourceCfg.sendCapacity < 2 ^ 62)
    (targetRange : targetCfg.recvCapacity < 2 ^ 62) :
    Established sourceCfg.isn (.start sourceCfg) (.start targetCfg) where
  toCarried := .start sourceRange targetRange
  unopened := fun _ => ⟨rfl, rfl, by simp [PeerRun.start]⟩
  number := fun opened => absurd rfl opened
  waits := fun _ => rfl
  bare := fun nonempty => absurd rfl nonempty

/-- Bytes are there only behind an acknowledged SYN. -/
theorem acked_pos (established : Established isn source target) (nonempty : source.written ≠ []) :
    0 < source.acked := by
  by_contra none
  exact nonempty (established.waits (by omega))

/-- Only SYN can have been sent before the first write. -/
theorem bare_of_empty (outbound : Outbound isn source) (empty : source.written = [])
    (stillOpen : source.peer.sender.input.isClosed = false) :
    ∀ message ∈ source.segments, message.syn = true → message.sequenceLength = 1 := by
  intro message member syn
  have bytes := outbound.sentBytes_append
  rw [empty] at bytes
  have nothing : message.payload = [] :=
    List.flatMap_eq_nil_iff.mp (List.append_eq_nil_iff.mp bytes).1 message member
  have unended : message.fin = false := by
    by_contra fin
    rw [Bool.not_eq_false] at fin
    rcases List.append_of_mem member with ⟨before, after, split⟩
    have closed := (outbound.segmented.finLast before message after split fin).2.1
    rw [show source.sending.sender.input.isClosed = false from stillOpen] at closed
    cases closed
  rw [TCPSenderMessage.sequenceLength, syn, nothing, unended]
  rfl

/-- The source takes a step; its owner waits for the acknowledgement of SYN. -/
theorem source_step (established : Established isn source target) {op : PeerOp}
    (orderly : source.WritesBeforeClose op)
    (fromTarget : ∀ msg, op = .receive msg → msg ∈ target.sent)
    (patient : ∀ data, op = .write data → 0 < source.acked)
    (few : (source.step op).written.length < 2 ^ 31) : Established isn (source.step op) target where
  toCarried := established.toCarried.source_step orderly fromTarget few
  unopened := fun unknown => by
    rcases established.unopened unknown with ⟨unacked, unnumbered, silent⟩
    refine ⟨?_, unnumbered, silent⟩
    rw [source.acked_step op]
    cases op with
    | receive msg =>
        simp only [SenderRun.ackedAfter, silent msg (fromTarget msg rfl)]
        split <;> exact unacked
    | _ => exact unacked
  number := established.number
  waits := fun unacked => by
    have before : source.acked = 0 := by
      have grows := source.acked_le_step op
      omega
    rcases source.written_step op with same | ⟨data, more, rfl, -⟩
    · rw [same]
      exact established.waits before
    · have acked := patient data rfl
      omega
  bare := fun nonempty => by
    by_cases empty : source.written = []
    · rcases source.written_step op with same | ⟨data, more, rfl, -⟩
      · exact absurd (same.trans empty) nonempty
      · have before := bare_of_empty established.outbound empty orderly
        exact before
    · have after := (established.outbound.step orderly few).segmented
      rcases source.segments_prefix_step op with ⟨fresh, split⟩
      have sent := established.outbound.segments_ne_nil (established.acked_pos empty)
      intro message member syn
      rcases List.mem_iff_getElem?.mp member with ⟨index, located⟩
      have first := (after.synFirst index message located).mp syn
      rw [first, ← split, List.getElem?_append_left (List.length_pos_iff.mpr sent)] at located
      exact established.bare empty message (List.mem_of_getElem? located) syn

/-- The target takes a step; no SYN arrives behind a byte of the stream. -/
theorem target_step (established : Established isn source target) {op : PeerOp}
    (fromSource : ∀ msg, op = .receive msg → msg ∈ source.sent)
    (timely : ∀ msg, op = .receive msg → msg.sender.syn = true →
      target.receiving.pushedBytes = [])
    (few : source.written.length < 2 ^ 31) : Established isn source (target.step op) := by
  have receiver : (target.step op).peer.receiver = (target.step op).receiving.receiver := rfl
  refine {
    toCarried := established.toCarried.target_step fromSource few
    unopened := fun unknown => ?_
    number := fun opened => ?_
    waits := established.waits
    bare := established.bare }
  · suffices unnumbered : target.peer.receiver.zeroPoint = none ∧
        (target.step op).peer.receiver.ackno = none by
      rcases established.unopened unnumbered.1 with ⟨unacked, -, silent⟩
      refine ⟨unacked, unnumbered.2, fun message member => ?_⟩
      rcases List.mem_append.mp member with old | new
      · exact silent message old
      · rw [PeerRun.mem_operate new]
        exact unnumbered.2
    rw [receiver, target.receiving_step op] at unknown ⊢
    cases op with
    | receive msg =>
        simp only at unknown ⊢
        split at unknown
        · rename_i active
          rw [if_pos active]
          have observed := (target.peer.receiver.receive_zeroPoint msg.sender).symm.trans unknown
          rw [TCPReceiver.observeFlags_zeroPoint] at observed
          cases syn : msg.sender.syn with
          | true =>
              rw [syn] at observed
              cases observed
          | false =>
              rw [syn] at observed
              exact ⟨observed,
                PeerRun.receive_ackno_of_none (established.unopened observed).2.1 syn⟩
        · rename_i quiet
          rw [if_neg quiet]
          exact ⟨unknown, (established.unopened unknown).2.1⟩
    | _ => exact ⟨unknown, (established.unopened unknown).2.1⟩
  · rw [receiver, target.receiving_step op] at opened
    rw [target.receiving_step op]
    cases op with
    | receive msg =>
        simp only at opened ⊢
        split
        · rename_i active
          rw [if_pos active] at opened
          have belongs := established.outbound.belongs (fromSource msg rfl)
          have zeroPoint := target.peer.receiver.receive_zeroPoint msg.sender
          rcases established.received.observed belongs with ⟨unknown, -⟩ | known
          · exact absurd (zeroPoint.trans unknown) opened
          · refine established.received.exact_receive belongs few known ?_
            rw [TCPReceiver.observeFlags_ackno]
            cases syn : msg.sender.syn with
            | true =>
                rw [if_pos rfl, belongs.opens syn, timely msg rfl syn]
                exact Or.inr rfl
            | false =>
                rw [if_neg Bool.false_ne_true]
                rw [TCPReceiver.observeFlags_zeroPoint, syn] at known
                exact established.number (by
                  rw [show target.peer.receiver.zeroPoint = some isn from known]
                  exact Option.some_ne_none isn)
        · rename_i quiet
          rw [if_neg quiet] at opened
          exact established.number opened
    | read len => exact established.received.exact_read (established.number opened) len
    | _ => exact established.number opened

end Established
end Rchan
