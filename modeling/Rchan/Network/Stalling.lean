import Rchan.Network.Recovery

namespace Rchan

/-!
# A connection that has stalled

Only the front of the queue is ever sent again, and only an acknowledgement that reaches its
end removes it.  When a SYN that carries bytes, or one with bytes sent behind it, arrives a
second time, the number of the target is set back and stays behind the end of the front,
although all of the front has been received.  If a later segment has been lost, its bytes are
then never sent again, whatever the two peers and their owners do.
-/

/-- None of the bytes of a message stands at the index. -/
def Avoids (isn : Wrap32) (index : Nat) (message : TCPSenderMessage) : Prop :=
  TCPReceiver.streamIndex message isn ≤ index →
    TCPReceiver.streamIndex message isn + message.payload.length ≤ index

/-- An acknowledgement, if there is one, ends before the position. -/
def Below (isn : Wrap32) (position : Nat) (ackno : Option Wrap32) : Prop :=
  ∀ number, ackno = some number → number.unwrap isn 0 < position

theorem Avoids.of_nil {isn : Wrap32} {message : TCPSenderMessage} (empty : message.payload = [])
    (index : Nat) : Avoids isn index message := by
  intro starts
  rw [empty]
  exact starts

namespace Received

variable {isn : Wrap32} {written : List Byte} {closed : Bool} {run : ReceiverRun}
  {message : TCPSenderMessage}

/-- A message without the byte that is waited for pushes nothing, and its number is the one
that its flags leave. -/
theorem waits (received : Received isn written closed run)
    (belongs : Belongs isn written closed message) (few : written.length < 2 ^ 31)
    (opened : (run.receiver.observeFlags message).zeroPoint = some isn)
    (missing : run.pushedBytes.length < written.length)
    (avoids : Avoids isn run.pushedBytes.length message) :
    (run.receive message).pushedBytes.length = run.pushedBytes.length ∧
      (run.receive message).receiver.ackno = (run.receiver.observeFlags message).ackno := by
  rcases received.known with ⟨model, represents, -⟩
  have short : message.payload.length < 2 ^ 63 := by
    by_cases empty : message.payload = []
    · rw [empty]
      decide
    · have bound := belongs.inside empty
      omega
  have below := pushed_insert_le represents belongs
  have accepted := represents.accept opened belongs.agrees short
    (fun nonempty => by exact_mod_cast belongs.inside nonempty)
    (fun fin => by exact_mod_cast (belongs.ends fin).2) (by omega)
  have before : run.pushedBytes.length = model.pushed :=
    represents.pushedBytes_length.trans represents.currIndex_eq
  have after : (run.receive message).pushedBytes.length =
      (model.insert (TCPReceiver.streamIndex message isn) message.payload.length
        message.fin).pushed :=
    accepted.pushedBytes_length.trans accepted.currIndex_eq
  have monotone := ReceiverRun.pushedBytes_length_le_receive received.wellFormed message
  have same : (run.receive message).pushedBytes.length = run.pushedBytes.length := by
    refine Nat.le_antisymm ?_ monotone
    rw [after, before]
    refine frontier_le ?_
    rw [KnownBytes.insert, Finset.mem_union, not_or, Finset.mem_Ico]
    refine ⟨frontier_not_mem model.known, ?_⟩
    rintro ⟨starts, ends⟩
    change frontier model.known < _ at ends
    have passed := avoids (before ▸ starts)
    rw [before] at passed
    change _ ≤ frontier model.known at passed
    omega
  have stillOpen : (run.receive message).receiver.reassembler.output.closed = false := by
    refine accepted.open_of_missing ?_
    rw [← after, same]
    exact missing
  have receiver : (run.receive message).receiver =
      (run.receiver.observeFlags message).accept message isn :=
    run.receiver.receive_of_some message opened
  have oldCount : (run.receiver.observeFlags message).reassembler.output.bytesPushed =
      run.pushedBytes.length := by
    rw [TCPReceiver.observeFlags_reassembler]
    exact received.bytesPushed_length
  have newCount := bytesPushed_eq accepted
  rw [receiver] at stillOpen newCount
  have advanced := TCPReceiver.accept_ackno_of_open _ _ stillOpen
  refine ⟨same, ?_⟩
  rw [receiver, advanced, newCount, oldCount]
  rw [same, Word.sub_of_le (Nat.le_refl _) (Nat.mod_lt _ (Nat.two_pow_pos 32)), Nat.sub_self]
  simp

end Received

/-! ## The invariant of a stalled direction -/

/-- The front of the queue ends at `stop`, nothing acknowledges as much, and no message in
the network has the byte `gap` that the target waits for. -/
structure Stalled (isn : Wrap32) (stop gap : Nat) (source target : PeerRun) : Prop extends
    Carried isn source target where
  front : ∃ front rest, source.peer.sender.outstandingMsg = front :: rest ∧
    (front.seqno + front.sequenceLength).unwrap isn 0 = stop ∧ Avoids isn gap front
  beyondSyn : 1 < stop
  ahead : gap < source.sentBytes.length
  avoids : ∀ message ∈ source.sent, Avoids isn gap message.sender
  opened : target.peer.receiver.zeroPoint = some isn
  waiting : target.receiving.pushedBytes.length = gap
  number : Below isn stop target.peer.receiver.ackno
  replies : ∀ message ∈ target.sent, Below isn stop message.receiver.ackno

namespace Stalled

variable {isn : Wrap32} {stop gap : Nat} {source target : PeerRun}

/-- An acknowledgement that ends before the front removes nothing. -/
theorem uncovered_eq {sender : TCPSender} {front : TCPSenderMessage}
    {rest : List TCPSenderMessage} (queue : sender.outstandingMsg = front :: rest)
    {msg : TCPReceiverMessage}
    (below : Below sender.isn ((front.seqno + front.sequenceLength).unwrap sender.isn 0) msg.ackno) :
    sender.uncovered msg = sender.outstandingMsg := by
  rw [TCPSender.uncovered]
  cases advertised : msg.ackno with
  | none => rfl
  | some number =>
      have short := below number advertised
      have kept : ¬ sender.covered (number.unwrap sender.isn 0) front = true := by
        rw [TCPSender.covered, decide_eq_true_eq]
        omega
      simp only
      split
      · rfl
      · rw [queue, List.dropWhile_cons_of_neg kept]

/-- Whatever the source does, the front stays at the head of its queue. -/
theorem front_step (stalled : Stalled isn stop gap source target) {op : PeerOp}
    (fromTarget : ∀ msg, op = .receive msg → msg ∈ target.sent) :
    ∃ front rest, (source.step op).peer.sender.outstandingMsg = front :: rest ∧
      (front.seqno + front.sequenceLength).unwrap isn 0 = stop ∧ Avoids isn gap front := by
  rcases stalled.front with ⟨front, rest, queue, ends, avoids⟩
  suffices grown : ∃ more, (source.step op).peer.sender.outstandingMsg = front :: more by
    rcases grown with ⟨more, grown⟩
    exact ⟨front, more, grown, ends, avoids⟩
  cases op with
  | push =>
      refine ⟨rest ++ source.peer.sender.push.2, ?_⟩
      change source.peer.push.1.sender.outstandingMsg = _
      rw [source.peer.push_sender, source.peer.sender.push_frame.2.2, queue, List.cons_append]
  | tick t =>
      refine ⟨rest, ?_⟩
      change (source.peer.tick t).1.sender.outstandingMsg = _
      rw [source.peer.tick_sender, (source.peer.sender.tick_cases t).1, queue]
  | receive msg =>
      refine ⟨rest, ?_⟩
      change (source.peer.receive msg).1.sender.outstandingMsg = _
      by_cases active : source.peer.active = true
      · have zero : source.peer.sender.isn = isn := by
          rcases stalled.outbound.simulated with ⟨reference, simulates, -⟩
          exact simulates.isn_eq
        rw [TCPPeer.receive_sender msg active, TCPSender.receive_outstandingMsg,
          uncovered_eq queue, queue]
        rw [zero, ends]
        exact stalled.replies msg (fromTarget msg rfl)
      · rw [TCPPeer.receive_inactive msg (by simpa using active), queue]
  | _ => exact ⟨rest, queue⟩

/-- Whatever the source sends, the missing byte is not in it. -/
theorem avoids_step (stalled : Stalled isn stop gap source target) {op : PeerOp}
    (orderly : source.WritesBeforeClose op) (few : (source.step op).written.length < 2 ^ 31) :
    ∀ message ∈ (source.step op).sent, Avoids isn gap message.sender := by
  rcases stalled.front with ⟨front, rest, queue, -, frontAvoids⟩
  intro message member
  rcases List.mem_append.mp member with old | new
  · exact stalled.avoids message old
  · cases op with
    | push =>
        -- a new segment stands behind everything sent so far
        have fresh := (TCPPeer.mem_send _ new).1
        rcases List.append_of_mem fresh with ⟨before, after, split⟩
        have segments : (source.step .push).segments =
            (source.segments ++ before) ++ message.sender :: after := by
          change source.segments ++ source.peer.sender.push.2 = _
          rw [split, List.append_assoc]
        have placed := ((stalled.outbound.step orderly few).placed segments).1
        have ahead := stalled.ahead
        rw [PeerRun.sentBytes] at ahead
        rw [List.flatMap_append, List.length_append] at placed
        intro starts
        omega
    | tick t =>
        have again := (TCPPeer.mem_send _ new).1
        rcases (source.peer.sender.tick_cases t).2 with ⟨nothing, -⟩ | ⟨first, head, sent, -⟩
        · rw [nothing] at again
          cases again
        · rw [queue] at head
          rw [sent, ← Option.some.inj head] at again
          rw [List.mem_singleton.mp again]
          exact frontAvoids
    | receive msg =>
        rw [(TCPPeer.mem_receive new).2.1]
        exact .of_nil rfl gap
    | _ => cases new

theorem source_step (stalled : Stalled isn stop gap source target) {op : PeerOp}
    (orderly : source.WritesBeforeClose op)
    (fromTarget : ∀ msg, op = .receive msg → msg ∈ target.sent)
    (few : (source.step op).written.length < 2 ^ 31) :
    Stalled isn stop gap (source.step op) target where
  toCarried := stalled.toCarried.source_step orderly fromTarget few
  front := stalled.front_step fromTarget
  beyondSyn := stalled.beyondSyn
  ahead := by
    rcases stalled.outbound.sentBytes_step orderly few with ⟨more, bytes, -⟩
    rw [bytes, List.length_append]
    exact Nat.lt_add_right _ stalled.ahead
  avoids := stalled.avoids_step orderly few
  opened := stalled.opened
  waiting := stalled.waiting
  number := stalled.number
  replies := stalled.replies

theorem target_step (stalled : Stalled isn stop gap source target) {op : PeerOp}
    (fromSource : ∀ msg, op = .receive msg → msg ∈ source.sent)
    (few : source.written.length < 2 ^ 31) :
    Stalled isn stop gap source (target.step op) := by
  suffices kept : (target.step op).peer.receiver.zeroPoint = some isn ∧
      (target.step op).receiving.pushedBytes.length = gap ∧
      Below isn stop (target.step op).peer.receiver.ackno by
    exact {
      toCarried := stalled.toCarried.target_step fromSource few
      front := stalled.front
      beyondSyn := stalled.beyondSyn
      ahead := stalled.ahead
      avoids := stalled.avoids
      opened := kept.1
      waiting := kept.2.1
      number := kept.2.2
      replies := fun message member => by
        rcases List.mem_append.mp member with old | new
        · exact stalled.replies message old
        · rw [PeerRun.mem_operate new]
          exact kept.2.2 }
  have receiver : (target.step op).peer.receiver = (target.step op).receiving.receiver := rfl
  rw [receiver, target.receiving_step op]
  have same := And.intro stalled.opened (And.intro stalled.waiting stalled.number)
  cases op with
  | read len =>
      refine ⟨stalled.opened, ?_, stalled.number⟩
      rw [ReceiverRun.pushedBytes_read stalled.received.wellFormed]
      exact stalled.waiting
  | receive msg =>
      simp only
      split
      · have sent := fromSource msg rfl
        have belongs := stalled.outbound.belongsSent sent
        have opened : (target.receiving.receiver.observeFlags msg.sender).zeroPoint = some isn := by
          rcases stalled.known.observed belongs with ⟨unknown, noSyn⟩ | known
          · rw [TCPReceiver.observeFlags_zeroPoint, noSyn, if_neg Bool.false_ne_true] at unknown
            exact absurd (stalled.opened.symm.trans unknown) (Option.some_ne_none isn)
          · exact known
        have fewSent := Nat.lt_of_le_of_lt stalled.outbound.sentBytes_length_le few
        have outcome := stalled.known.waits belongs fewSent opened
          (stalled.waiting.trans_lt stalled.ahead)
          (by rw [stalled.waiting]; exact stalled.avoids msg sent)
        refine ⟨(target.receiving.receiver.receive_zeroPoint msg.sender).trans opened,
          outcome.1.trans stalled.waiting, ?_⟩
        rw [outcome.2, TCPReceiver.observeFlags_ackno]
        cases syn : msg.sender.syn with
        | true =>
            intro number advertised
            rw [if_pos rfl, belongs.opens syn] at advertised
            rw [← Option.some.inj advertised, isn.unwrap_add_of_lt (by omega)]
            exact stalled.beyondSyn
        | false => exact stalled.number
      · exact same
  | _ => exact same

end Stalled

/-! ## Connections -/

namespace Connection

/-- The number of `b` does not reach the end of the front of the queue of `a`, the byte that
`b` waits for is not in the front, and it has been sent. -/
structure Stalls (connection : Connection) : Prop where
  lags : ∃ front rest, connection.a.peer.sender.outstandingMsg = front :: rest ∧
    1 < (front.seqno + front.sequenceLength).unwrap connection.a.peer.sender.isn 0 ∧
    Below connection.a.peer.sender.isn
      ((front.seqno + front.sequenceLength).unwrap connection.a.peer.sender.isn 0)
      connection.b.peer.receiver.ackno ∧
    Avoids connection.a.peer.sender.isn connection.b.receiving.pushedBytes.length front
  opened : connection.b.peer.receiver.zeroPoint = some connection.a.peer.sender.isn
  ahead : connection.b.receiving.pushedBytes.length < connection.a.sentBytes.length

/-- The second peer has got no more than `received`, bytes are missing, and both peers go on. -/
structure Hangs (received : List Byte) (connection : Connection) : Prop where
  got : connection.b.delivered ++ connection.b.peer.receiver.reassembler.output.peek = received
  missing : received.length < connection.a.written.length
  activeA : connection.a.peer.active = true
  activeB : connection.b.peer.active = true

/-- The first direction is stalled, and neither peer has an error. -/
structure StalledClean (isn : Wrap32) (stop gap : Nat) (connection : Connection) : Prop where
  stalled : Stalled isn stop gap connection.a connection.b
  cleanA : connection.a.Clean
  cleanB : connection.b.Clean

variable {isn : Wrap32} {stop gap : Nat} {connection : Connection}

theorem a_written_length_le_step (connection : Connection) (op : ConnectionOp) :
    connection.a.written.length ≤ (connection.step op).a.written.length := by
  cases op with
  | a op => exact connection.a.written_length_le_step op
  | b op => exact Nat.le_refl _

theorem StalledClean.step (stalled : connection.StalledClean isn stop gap) {op : ConnectionOp}
    (allowed : machine.allowed connection op)
    (few : (connection.step op).a.written.length < 2 ^ 31) :
    (connection.step op).StalledClean isn stop gap := by
  cases op with
  | a op =>
      have allowed : Allowed connection.a connection.b op := allowed
      exact {
        stalled := stalled.stalled.source_step allowed.orderly allowed.inNetwork few
        cleanA := stalled.cleanA.step fun msg same =>
          stalled.cleanB.reset (allowed.inNetwork msg same)
        cleanB := stalled.cleanB }
  | b op =>
      have allowed : Allowed connection.b connection.a op := allowed
      exact {
        stalled := stalled.stalled.target_step allowed.inNetwork few
        cleanA := stalled.cleanA
        cleanB := stalled.cleanB.step fun msg same =>
          stalled.cleanA.reset (allowed.inNetwork msg same) }

/-- The first direction of a connection without errors. -/
structure CarriedClean (isn : Wrap32) (connection : Connection) : Prop where
  carried : Carried isn connection.a connection.b
  cleanA : connection.a.Clean
  cleanB : connection.b.Clean

theorem carriedClean_of_reachable {cfgA cfgB : TCPConfig} (smallA : CapacitiesSmall cfgA)
    (smallB : CapacitiesSmall cfgB) (reached : machine.Reachable (.start cfgA cfgB) connection)
    (few : connection.a.written.length < 2 ^ 31) : connection.CarriedClean cfgA.isn := by
  refine reached.invariant_below (CarriedClean cfgA.isn) (fun state => state.a.written.length)
    (2 ^ 31) (fun state op _ _ => state.a_written_length_le_step op)
    ⟨.start smallA.send smallB.recv, PeerRun.clean_start cfgA, PeerRun.clean_start cfgB⟩ ?_ few
  intro state op _ clean allowed below
  cases op with
  | a op =>
      have allowed : Allowed state.a state.b op := allowed
      exact {
        carried := clean.carried.source_step allowed.orderly allowed.inNetwork below
        cleanA := clean.cleanA.step fun msg same => clean.cleanB.reset (allowed.inNetwork msg same)
        cleanB := clean.cleanB }
  | b op =>
      have allowed : Allowed state.b state.a op := allowed
      exact {
        carried := clean.carried.target_step allowed.inNetwork below
        cleanA := clean.cleanA
        cleanB := clean.cleanB.step fun msg same => clean.cleanA.reset (allowed.inNetwork msg same) }

/-- A connection that stalls is stalled once the network has lost what is under way. -/
theorem Stalls.lose (stalls : connection.Stalls) (clean : connection.CarriedClean isn) :
    ∃ stop, connection.lose.StalledClean isn stop connection.b.receiving.pushedBytes.length := by
  have zero : connection.a.peer.sender.isn = isn := by
    rcases clean.carried.outbound.simulated with ⟨reference, simulates, -⟩
    exact simulates.isn_eq
  rcases stalls.lags with ⟨front, rest, queue, beyondSyn, below, avoids⟩
  rw [zero] at beyondSyn below avoids
  exact ⟨_, {
    stalled :=
      { outbound := ⟨clean.carried.outbound.simulated, List.forall_mem_nil _⟩
        received := clean.carried.received
        sentAckno := List.forall_mem_nil _
        acked := clean.carried.acked
        known := clean.carried.known
        front := ⟨front, rest, queue, rfl, avoids⟩
        beyondSyn := beyondSyn
        ahead := stalls.ahead
        avoids := List.forall_mem_nil _
        opened := stalls.opened.trans (congrArg some zero)
        waiting := rfl
        number := below
        replies := List.forall_mem_nil _ }
    cleanA := clean.cleanA.lose
    cleanB := clean.cleanB.lose }⟩

/-- What a stalled connection shows. -/
theorem StalledClean.hangs (stalled : connection.StalledClean isn stop gap)
    {received : List Byte} (isPrefix : received <+: connection.a.written)
    (length : received.length = gap) : connection.Hangs received := by
  have within := stalled.stalled.outbound.sentBytes_length_le
  have ahead := stalled.stalled.ahead
  have waiting := stalled.stalled.waiting
  rcases stalled.stalled.front with ⟨front, rest, queue, -, -⟩
  refine {
    got := ?_
    missing := by omega
    activeA := PeerRun.active_of_queue stalled.stalled.outbound stalled.cleanA queue
    activeB := PeerRun.active_of_open stalled.cleanB ?_ }
  · have pushed := stalled.stalled.received.pushed_prefix
    exact (List.prefix_of_prefix_length_le pushed isPrefix (by omega)).eq_of_length
      (by rw [waiting, length])
  · by_contra closed
    rw [Bool.not_eq_false] at closed
    have complete := congrArg List.length (stalled.stalled.delivers.complete closed).2
    change connection.b.receiving.pushedBytes.length = _ at complete
    omega

/-- A connection that stalls hangs for ever if the network loses what is under way: in every
later run, whatever its owners write, close and read, however often its peers push and
tick, and whichever of their messages arrive, the second peer gets no further byte, although
the first one is not done with those that it has sent. -/
theorem stalls_forever {cfgA cfgB : TCPConfig} {after : Connection}
    (smallA : CapacitiesSmall cfgA) (smallB : CapacitiesSmall cfgB)
    (reached : machine.Reachable (.start cfgA cfgB) connection) (stalls : connection.Stalls)
    (later : machine.Reachable connection.lose after) (few : after.a.written.length < 2 ^ 31) :
    after.Hangs
      (connection.b.delivered ++ connection.b.peer.receiver.reassembler.output.peek) := by
  have grows : connection.a.written <+: after.a.written := by
    refine later.invariant (fun state => connection.a.written <+: state.a.written)
      List.prefix_rfl ?_
    intro state op isPrefix _
    cases op with
    | b op => exact isPrefix
    | a op =>
        rcases state.a.written_step op with same | ⟨data, more, -, same⟩
        · change _ <+: (state.a.step op).written
          rw [same]
          exact isPrefix
        · change _ <+: (state.a.step op).written
          rw [same]
          exact isPrefix.trans (List.prefix_append _ _)
  have clean := carriedClean_of_reachable smallA smallB reached
    (Nat.lt_of_le_of_lt grows.length_le few)
  rcases stalls.lose clean with ⟨stop, lost⟩
  have stalled : after.StalledClean cfgA.isn stop connection.b.receiving.pushedBytes.length :=
    later.invariant_below (StalledClean cfgA.isn stop connection.b.receiving.pushedBytes.length)
      (fun state => state.a.written.length) (2 ^ 31)
      (fun state op _ _ => state.a_written_length_le_step op) lost
      (fun _ _ _ held allowed below => held.step allowed below) few
  exact stalled.hangs (clean.carried.received.pushed_prefix.trans grows) rfl

/-- A SYN with a byte arrives, its acknowledgement and the segment behind it are lost, and
the SYN arrives again. -/
def synWithByte : List ConnectionOp :=
  let synA : TCPMessage :=
    { sender := { seqno := ⟨100⟩, syn := true, payload := [1] }, receiver := { windowSize := 10 } }
  [.a (.write [1, 2, 3]), .a .push, .b (.receive synA), .a (.tick 1000), .b (.receive synA)]

/-- The owner goes on, and the SYN and its answer are carried once more. -/
def synOnceMore : List ConnectionOp :=
  let synA : TCPMessage :=
    { sender := { seqno := ⟨100⟩, syn := true, payload := [1] }, receiver := { windowSize := 10 } }
  let ackB : TCPMessage :=
    { sender := { seqno := ⟨4294967295⟩ }, receiver := { ackno := some ⟨101⟩, windowSize := 9 } }
  [.a (.write [4]), .a .push, .a (.tick 2000), .b (.receive synA), .a (.receive ackB), .a .push]

theorem synWithByte_admissible :
    machine.Admissible (.start (shortConfig ⟨100⟩) (shortConfig ⟨4294967295⟩)) synWithByte :=
  ⟨.write rfl _ _, .push _ _, .receive (by decide),
    ⟨trivial, fun _ impossible => (by cases impossible)⟩, .receive (by decide), trivial⟩

theorem stalls_forever_synWithByte :
    let connection := machine.run (.start (shortConfig ⟨100⟩) (shortConfig ⟨4294967295⟩)) synWithByte
    (machine.run connection.lose synOnceMore).Hangs
      (connection.b.delivered ++ connection.b.peer.receiver.reassembler.output.peek) := by
  refine stalls_forever ⟨by decide, by decide⟩ ⟨by decide, by decide⟩
    synWithByte_admissible.reachable ⟨⟨_, _, rfl, by decide, ?_, ?_⟩, by decide, by decide⟩
    (Machine.Admissible.reachable
      ⟨.write rfl _ _, .push _ _, ⟨trivial, fun _ impossible => (by cases impossible)⟩,
        .receive (by decide), .receive (by decide), .push _ _, trivial⟩) (by decide)
  · intro number same
    rw [← Option.some.inj same]
    decide
  · intro starts
    decide

end Connection
end Rchan
