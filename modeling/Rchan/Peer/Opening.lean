import Rchan.Peer.History
import Rchan.Sender.Opening

namespace Rchan

/-!
# The first message of a peer

A peer transmits from three places.  `push` opens with SYN, and a tick has nothing to
retransmit before that.  A reply to an incoming message, however, is an empty message of
the sender, whatever the sender has sent before, and an empty message carries no SYN.  A
peer that listens therefore answers the remote SYN with a bare acknowledgement, and its
own SYN follows with the next call of `push`.

Before the first `push` there is no acknowledgement number yet, so nothing but a message
that occupies sequence numbers provokes a reply.
-/

namespace PeerRun

/-- The first message that has been transmitted, if any, carries SYN. -/
def OpensWithSyn (run : PeerRun) : Prop :=
  ∀ message ∈ run.sent.head?, message.sender.syn = true

/-- As long as nothing has been sent, an active peer receives no message that occupies
sequence numbers. -/
def QuietBeforeSyn (run : PeerRun) : PeerOp → Prop
  | .receive msg =>
      run.segments = [] → run.peer.active = true → msg.sender.sequenceLength = 0
  | _ => True

/-- The runs in which nothing has to be answered before SYN has been sent. -/
def quietMachine : Machine PeerRun PeerOp where
  allowed := QuietBeforeSyn
  step := step

/-- A run whose first transmitted message has the given SYN flag. -/
def FirstSyn (run : PeerRun) (syn : Bool) : Prop :=
  ∃ first rest, run.sent = first :: rest ∧ first.sender.syn = syn

/-- A peer that has neither sent nor answered anything. -/
structure Silent (run : PeerRun) : Prop where
  sender : run.peer.sender.Unopened
  segments : run.segments = []
  sent : run.sent = []
  ackno : run.peer.receiver.ackno = none
  needSend : run.peer.needSend = false

variable {run : PeerRun}

theorem silent_start {cfg : TCPConfig} (inRange : cfg.sendCapacity < 2 ^ 64) :
    (start cfg).Silent where
  sender := .create inRange cfg.isn cfg.rtTimeout.toNat
  segments := rfl
  sent := rfl
  ackno := rfl
  needSend := rfl

/-- What has been transmitted first stays first. -/
theorem FirstSyn.step {syn : Bool} (first : run.FirstSyn syn) (op : PeerOp) :
    (run.step op).FirstSyn syn := by
  rcases first with ⟨message, rest, sent, flag⟩
  refine ⟨message, rest ++ (operate run.peer op).2, ?_, flag⟩
  change run.sent ++ (operate run.peer op).2 = _
  rw [sent]
  rfl

theorem segments_step (nonempty : run.segments ≠ []) (op : PeerOp) :
    (run.step op).segments ≠ [] := by
  have grown : run.segments <+: (run.step op).segments := by
    cases op with
    | push => exact List.prefix_append _ _
    | receive msg =>
        by_cases active : run.peer.active = true
        · simp only [step, senderOp, if_pos active]
          exact List.prefix_rfl
        · simp only [step, senderOp, if_neg active]
          exact List.prefix_rfl
    | _ => exact List.prefix_rfl
  intro empty
  rw [empty, List.prefix_nil] at grown
  exact nonempty grown

/-! ## The steps of a silent peer -/

/-- A receiver without an acknowledgement number gets one from SYN only. -/
theorem receive_ackno_of_none {receiver : TCPReceiver} (unknown : receiver.ackno = none)
    {message : TCPSenderMessage} (noSyn : message.syn = false) :
    (receiver.receive message).ackno = none := by
  have observed : (receiver.observeFlags message).ackno = none := by
    rw [receiver.observeFlags_ackno, noSyn]
    exact unknown
  cases zeroPoint : (receiver.observeFlags message).zeroPoint with
  | none => rw [receiver.receive_of_none message zeroPoint, observed]
  | some known =>
      rw [receiver.receive_of_some message zeroPoint]
      simp only [TCPReceiver.accept, observed, Option.map_none]
      split <;> rfl

/-- A message without sequence numbers provokes no reply from a silent peer. -/
theorem Silent.receive (silent : run.Silent) {msg : TCPMessage}
    (quiet : run.peer.active = true → msg.sender.sequenceLength = 0) :
    (run.step (.receive msg)).Silent := by
  by_cases active : run.peer.active = true
  · have empty := quiet active
    have noSyn : msg.sender.syn = false := by
      unfold TCPSenderMessage.sequenceLength at empty
      rw [← Bool.toNat_eq_zero]
      omega
    have unprovoked : (run.peer.notice msg).needSend = false := by
      simp [TCPPeer.notice, TCPReceiver.send, silent.needSend, silent.ackno, empty]
    have received : run.peer.receive msg =
        ({ run.peer.notice msg with
            receiver := run.peer.receiver.receive msg.sender
            sender := run.peer.sender.receive msg.receiver }, []) := by
      rw [TCPPeer.receive, if_pos active]
      simp only [unprovoked, Bool.false_eq_true, if_false]
      rfl
    have segments : (run.step (.receive msg)).segments = run.segments := by
      simp only [step, senderOp, if_pos active]
      rfl
    have peer : (run.step (.receive msg)).peer = (run.peer.receive msg).1 := rfl
    have sent : (run.step (.receive msg)).sent = run.sent ++ (run.peer.receive msg).2 := rfl
    rw [received] at peer sent
    exact {
      sender := peer ▸ silent.sender.receive msg.receiver
      segments := segments.trans silent.segments
      sent := sent.trans (by rw [silent.sent]; rfl)
      ackno := peer ▸ receive_ackno_of_none silent.ackno noSyn
      needSend := peer ▸ unprovoked }
  · have same : run.step (.receive msg) = run := by
      have inactive := TCPPeer.receive_inactive msg (by simpa using active)
      simp [step, senderOp, operate, bytesRead, active, inactive, sending]
    rw [same]
    exact silent

/-- A message with sequence numbers is answered without SYN. -/
theorem Silent.receive_occupied (silent : run.Silent) {msg : TCPMessage}
    (active : run.peer.active = true) (occupied : msg.sender.sequenceLength ≠ 0) :
    (run.step (.receive msg)).FirstSyn false := by
  have provoked : (run.peer.notice msg).needSend = true := by
    simp [TCPPeer.notice, Nat.pos_of_ne_zero occupied]
  have reply : ∃ message, (run.peer.receive msg).2 = [message] ∧ message.sender.syn = false := by
    rw [TCPPeer.receive, if_pos active]
    simp only [provoked, if_true]
    exact ⟨_, rfl, rfl⟩
  rcases reply with ⟨message, transmitted, noSyn⟩
  refine ⟨message, [], ?_, noSyn⟩
  change run.sent ++ (run.peer.receive msg).2 = _
  rw [silent.sent, transmitted]
  rfl

theorem Silent.push (silent : run.Silent) :
    (run.step .push).FirstSyn true ∧ (run.step .push).segments ≠ [] := by
  rcases silent.sender.push_opening with ⟨rest, opening⟩
  constructor
  · refine ⟨{ sender := run.peer.sender.nextMessage, receiver := run.peer.receiver.send },
      rest.map fun message => { sender := message, receiver := run.peer.receiver.send }, ?_,
      silent.sender.nextMessage_syn⟩
    change run.sent ++ run.peer.sender.push.2.map _ = _
    rw [silent.sent, opening]
    rfl
  · change run.segments ++ run.peer.sender.push.2 ≠ []
    rw [silent.segments, opening]
    exact List.cons_ne_nil _ _

theorem Silent.tick (silent : run.Silent) (t : Nat) : (run.step (.tick t)).Silent := by
  have nothing : (run.peer.sender.tick t).2 = [] := by
    rw [TCPSender.tick, silent.sender.outstandingMsg]
  have sender : (run.step (.tick t)).peer.sender = (run.peer.sender.tick t).1 :=
    run.peer.tick_sender t
  have sent : (run.step (.tick t)).sent = run.sent ++ (run.peer.tick t).2 := rfl
  have needSend : (run.step (.tick t)).peer.needSend =
      (run.peer.needSend && (run.peer.sender.tick t).2.isEmpty) := rfl
  exact {
    sender := sender ▸ silent.sender.tick t
    segments := silent.segments
    sent := by
      rw [sent, silent.sent, TCPPeer.tick, nothing]
      rfl
    ackno := silent.ackno
    needSend := by rw [needSend, silent.needSend, Bool.false_and] }

/-! ## Whole runs -/

/-- Either nothing has been sent yet, or SYN has been sent first. -/
def Opening (run : PeerRun) : Prop :=
  run.Silent ∨ run.FirstSyn true ∧ run.segments ≠ []

theorem Opening.step (opening : run.Opening) {op : PeerOp} (quiet : run.QuietBeforeSyn op) :
    (run.step op).Opening := by
  rcases opening with silent | ⟨first, nonempty⟩
  · cases op with
    | write data =>
        exact Or.inl { silent with
          sender := silent.sender.withInput (silent.sender.wellFormed.push data)
          sent := (List.append_nil _).trans silent.sent }
    | close =>
        exact Or.inl { silent with
          sender := silent.sender.withInput silent.sender.wellFormed.close
          sent := (List.append_nil _).trans silent.sent }
    | push => exact Or.inr silent.push
    | receive msg => exact Or.inl (silent.receive (quiet silent.segments))
    | tick t => exact Or.inl (silent.tick t)
    | read len =>
        exact Or.inl { silent with
          sent := (List.append_nil _).trans silent.sent }
  · exact Or.inr ⟨first.step op, segments_step nonempty op⟩

/-- A step that is not allowed answers before SYN. -/
theorem Opening.step_unquiet (opening : run.Opening) {op : PeerOp}
    (unquiet : ¬ run.QuietBeforeSyn op) : (run.step op).FirstSyn false := by
  cases op with
  | receive msg =>
      simp only [QuietBeforeSyn, Classical.not_imp] at unquiet
      rcases unquiet with ⟨empty, active, occupied⟩
      rcases opening with silent | ⟨_, nonempty⟩
      · exact silent.receive_occupied active occupied
      · exact absurd empty nonempty
  | _ => exact absurd trivial unquiet

theorem opensWithSyn_of_opening (opening : run.Opening) : run.OpensWithSyn := by
  rcases opening with silent | ⟨⟨first, rest, sent, syn⟩, _⟩
  · rw [OpensWithSyn, silent.sent]
    simp
  · rw [OpensWithSyn, sent]
    intro message member
    cases member
    exact syn

theorem not_opensWithSyn_of_first (first : run.FirstSyn false) : ¬ run.OpensWithSyn := by
  rcases first with ⟨message, rest, sent, noSyn⟩
  intro opens
  have syn := opens message (by rw [sent]; rfl)
  rw [noSyn] at syn
  cases syn

/-- In every run the first transmitted message carries SYN if and only if no message
that occupies sequence numbers reaches the active peer before it has sent SYN. -/
theorem opensWithSyn_iff {cfg : TCPConfig} (inRange : cfg.sendCapacity < 2 ^ 64)
    (ops : List PeerOp) :
    (quietMachine.run (.start cfg) ops).OpensWithSyn ↔
      quietMachine.Admissible (.start cfg) ops := by
  have outcome : quietMachine.Admissible (.start cfg) ops ∧
        (quietMachine.run (.start cfg) ops).Opening ∨
      ¬ quietMachine.Admissible (.start cfg) ops ∧
        (quietMachine.run (.start cfg) ops).FirstSyn false := by
    induction ops using List.reverseRecOn with
    | nil => exact Or.inl ⟨trivial, Or.inl (silent_start inRange)⟩
    | append_singleton before op ih =>
        rw [Machine.run_concat, Machine.admissible_concat]
        rcases ih with ⟨admissible, opening⟩ | ⟨failed, first⟩
        · by_cases quiet : (quietMachine.run (.start cfg) before).QuietBeforeSyn op
          · exact Or.inl ⟨⟨admissible, quiet⟩, opening.step quiet⟩
          · exact Or.inr ⟨fun parts => quiet parts.2, opening.step_unquiet quiet⟩
        · exact Or.inr ⟨fun parts => failed parts.1, first.step op⟩
  rcases outcome with ⟨admissible, opening⟩ | ⟨failed, first⟩
  · exact iff_of_true (opensWithSyn_of_opening opening) admissible
  · exact iff_of_false (not_opensWithSyn_of_first first) failed

/-- An active open: the remote SYN arrives after `push`. -/
theorem opensWithSyn_iff_active_open :
    (quietMachine.run (.start {}) [.push,
        .receive { sender := { seqno := ⟨500⟩, syn := true } }]).OpensWithSyn ↔
      quietMachine.Admissible (.start {}) [.push,
        .receive { sender := { seqno := ⟨500⟩, syn := true } }] :=
  opensWithSyn_iff (by decide) [.push, .receive { sender := { seqno := ⟨500⟩, syn := true } }]

/-- A passive open: the remote SYN is answered with a bare acknowledgement, and SYN is
only sent when the application writes. -/
theorem passive_open_without_syn :
    let run := quietMachine.run (.start {})
      [.receive { sender := { seqno := ⟨500⟩, syn := true } }, .write [7], .push]
    run.sent.map (fun message => (message.sender.syn, message.receiver.ackno)) =
      [(false, some ⟨501⟩), (true, some ⟨501⟩)] ∧ ¬ run.OpensWithSyn := by
  intro run
  refine ⟨by decide, fun opens => ?_⟩
  have first : ∃ message ∈ run.sent.head?, message.sender.syn = false := by decide
  rcases first with ⟨message, member, noSyn⟩
  exact absurd (noSyn.symm.trans (opens message member)) Bool.false_ne_true

end PeerRun
end Rchan
