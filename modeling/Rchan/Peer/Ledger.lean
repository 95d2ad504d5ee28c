import Rchan.Peer.History
import Rchan.Sender.Ledger

namespace Rchan

/-!
# The ledger of a peer

The outbound half of a run of a peer is a run of its sender, and its ledger is the one of
the sender.  A message is entered when the peer hands it on, that is to say while it is
active.
-/

/-- A run of a peer, and the largest number that has been acknowledged. -/
structure PeerLedger extends PeerRun where
  acknowledged : Nat := 0

namespace PeerLedger

def start (cfg : TCPConfig) : PeerLedger := { toPeerRun := .start cfg }

/-- The outbound half of a run. -/
def ledger (run : PeerLedger) : SenderLedger where
  toSenderRun := run.sending
  acknowledged := run.acknowledged

def step (run : PeerLedger) (op : PeerOp) : PeerLedger where
  toPeerRun := run.toPeerRun.step op
  acknowledged := ((run.senderOp op).elim run.ledger run.ledger.step).acknowledged

/-- The outbound half of a run is a run of the sender. -/
theorem ledger_step (run : PeerLedger) (op : PeerOp) :
    (run.step op).ledger = (run.senderOp op).elim run.ledger run.ledger.step := by
  have sending : (run.step op).sending =
      ((run.senderOp op).elim run.ledger run.ledger.step).toSenderRun := by
    refine (run.toPeerRun.sending_step op).trans ?_
    cases run.senderOp op <;> rfl
  rw [ledger, sending]
  rfl

/-- Any operation may come at any time. -/
def machine : Machine PeerLedger PeerOp where
  allowed _ _ := True
  step := step

theorem next_le_step (run : PeerLedger) (op : PeerOp) :
    run.ledger.next ≤ (run.step op).ledger.next := by
  rw [ledger_step]
  cases run.senderOp op with
  | none => exact Nat.le_refl _
  | some senderOp => exact run.ledger.next_le_step senderOp

variable {run : PeerLedger}

theorem balanced_step (balanced : run.ledger.Balanced) {op : PeerOp}
    (few : ∀ msg, op = .receive msg → run.peer.sender.outstandingLength < 2 ^ 32) :
    (run.step op).ledger.Balanced := by
  rw [ledger_step]
  cases contains : run.senderOp op with
  | none => exact balanced
  | some senderOp =>
      refine balanced.step fun msg same => ?_
      cases op with
      | receive message => exact few message rfl
      | read len => cases contains
      | _ =>
          rw [← Option.some.inj contains] at same
          cases same

theorem cleared_step (cleared : run.ledger.Cleared) (queued : Queued run.peer.sender) {op : PeerOp}
    (small : (run.step op).ledger.next < 2 ^ 32) : (run.step op).ledger.Cleared := by
  rw [ledger_step] at small ⊢
  cases contains : run.senderOp op with
  | none => exact cleared
  | some senderOp =>
      rw [contains] at small
      exact cleared.step queued senderOp small

theorem accounted_step (accounted : run.sending.Accounted) (op : PeerOp) :
    (run.step op).sending.Accounted := by
  refine (run.toPeerRun.sending_step op).symm ▸ ?_
  cases run.senderOp op with
  | none => exact accounted
  | some senderOp => exact accounted.step senderOp

theorem accounted_start {cfg : TCPConfig} (inRange : cfg.sendCapacity < 2 ^ 64) :
    (start cfg).sending.Accounted :=
  SenderRun.accounted_start inRange cfg.isn cfg.rtTimeout.toNat

theorem cleared_start (cfg : TCPConfig) : (start cfg).ledger.Cleared :=
  SenderLedger.cleared_start cfg.sendCapacity cfg.isn cfg.rtTimeout.toNat

/-- What every run of a peer keeps.  The queue is the one of the ledger as long as the
sequence numbers have not come round. -/
structure Sound (run : PeerLedger) : Prop where
  accounted : run.sending.Accounted
  cleared : run.ledger.next < 2 ^ 32 → run.ledger.Cleared

theorem Sound.start {cfg : TCPConfig} (inRange : cfg.sendCapacity < 2 ^ 64) :
    (start cfg).Sound where
  accounted := accounted_start inRange
  cleared := fun _ => cleared_start cfg

theorem Sound.step (sound : run.Sound) (op : PeerOp) : (run.step op).Sound where
  accounted := accounted_step sound.accounted op
  cleared := fun small =>
    cleared_step (sound.cleared (Nat.lt_of_le_of_lt (run.next_le_step op) small))
      sound.accounted.queued small

end PeerLedger
end Rchan
