import Rchan.Foundation.Runs
import Rchan.Receiver.Delivery

namespace Rchan

/-!
# A receiver with unbounded sequence numbers

The reference receiver files the bytes of a segment under its absolute position,
and its output is the set of known indices of `KnownBytes`.  A delivery run feeds
the receiver of the source with segments of one stream that lie within `2 ^ 31` of
the number it expects next, and the step lemmas say when it follows the reference.
-/

/-- A receiver with unbounded positions: what it knows once SYN has arrived. -/
structure ReferenceReceiver where
  opened : Bool := false
  bytes : KnownBytes

/-- The operations on a receiver of one stream and on the reader of its output. -/
inductive DeliveryOp where
  | deliver (segment : Segment)
  | read (len : Nat)

namespace ReferenceReceiver

/-- Segments that arrive before SYN are ignored. -/
def receive (reference : ReferenceReceiver) (segment : Segment) : ReferenceReceiver :=
  if reference.opened || segment.syn then
    { opened := true
      bytes := reference.bytes.insert segment.index segment.payload.length segment.fin }
  else reference

def follow (reference : ReferenceReceiver) : DeliveryOp → ReferenceReceiver
  | .deliver segment => reference.receive segment
  | .read len => { reference with bytes := reference.bytes.pop len }

theorem pushed_le_follow (reference : ReferenceReceiver) (op : DeliveryOp) :
    reference.bytes.pushed ≤ (reference.follow op).bytes.pushed := by
  cases op with
  | read len => exact Nat.le_refl _
  | deliver segment =>
      simp only [follow, receive]
      split
      · exact frontier_mono Finset.subset_union_left
      · exact Nat.le_refl _

end ReferenceReceiver

namespace ReceiverRun

/-- Deliver the wrapped form of a segment, or read. -/
def step (isn : Wrap32) (run : ReceiverRun) : DeliveryOp → ReceiverRun
  | .deliver segment => run.receive (segment.wire isn)
  | .read len => run.read len

/-- The absolute sequence number that the receiver expects next. -/
def nextExpected (run : ReceiverRun) : Nat :=
  if run.receiver.zeroPoint.isSome then
    1 + run.pushedBytes.length + run.receiver.reassembler.output.isClosed.toNat
  else 0

/-- A segment of the stream: SYN stands at the beginning and FIN at the end. -/
structure ConsistentSegment (stream : Nat → Byte) (length : Nat) (segment : Segment) : Prop where
  opens : segment.syn = true ↔ segment.start = 0
  payload : segment.payload =
    (List.range segment.payload.length).map (fun offset => stream (segment.index + offset))
  inside : segment.payload ≠ [] → segment.index + segment.payload.length ≤ length
  ends : segment.fin = true → segment.index + segment.payload.length = length

theorem ConsistentSegment.short {stream : Nat → Byte} {length : Nat} {segment : Segment}
    (consistent : ConsistentSegment stream length segment) (bounded : length < 2 ^ 63) :
    segment.payload.length < 2 ^ 63 := by
  by_cases empty : segment.payload = []
  · rw [empty]
    decide
  · have inside := consistent.inside empty
    omega

/-- Segments of one stream within `2 ^ 31` of the next expected number. -/
def machine (stream : Nat → Byte) (length : Nat) (isn : Wrap32) :
    Machine ReceiverRun DeliveryOp where
  allowed run
    | .deliver segment =>
        ConsistentSegment stream length segment ∧
          segment.start ≤ run.nextExpected + 2 ^ 31 ∧ run.nextExpected ≤ segment.start + 2 ^ 31
    | .read _ => True
  step := step isn

end ReceiverRun

/-- The receiver has opened the stream of the reference and knows what it knows. -/
structure FollowsReference (stream : Nat → Byte) (length : Nat) (isn : Wrap32) (run : ReceiverRun)
    (reference : ReferenceReceiver) : Prop where
  represents : Represents (fun index byte => byte = stream index) length run.reassembly
    reference.bytes
  zeroPoint : run.receiver.zeroPoint = if reference.opened then some isn else none

namespace FollowsReference

variable {stream : Nat → Byte} {length : Nat} {isn : Wrap32} {run : ReceiverRun}
  {reference : ReferenceReceiver}

theorem start {capacity : Nat} (small : capacity < 2 ^ 62) :
    FollowsReference stream length isn (.start capacity) { bytes := { capacity } } where
  represents := .start small
  zeroPoint := rfl

theorem read (follows : FollowsReference stream length isn run reference) (len : Nat) :
    FollowsReference stream length isn (run.step isn (.read len)) (reference.follow (.read len)) where
  represents := follows.represents.pop len
  zeroPoint := follows.zeroPoint

/-- The zero point after the flags of a segment have been observed. -/
theorem observed_zeroPoint (follows : FollowsReference stream length isn run reference)
    {segment : Segment} (opens : segment.syn = true ↔ segment.start = 0) :
    (run.receiver.observeFlags (segment.wire isn)).zeroPoint =
      if reference.opened || segment.syn then some isn else none := by
  rw [TCPReceiver.observeFlags_zeroPoint, follows.zeroPoint]
  cases syn : segment.syn with
  | true =>
      have seqno : (segment.wire isn).seqno = isn := by
        rw [Segment.wire, opens.mp syn, Wrap32.add_zero]
      rw [seqno, Bool.or_true]
      exact if_pos syn
  | false =>
      rw [Bool.or_false]
      exact if_neg (by simp [Segment.wire, syn])

theorem deliver (follows : FollowsReference stream length isn run reference)
    (bounded : length < 2 ^ 63) {segment : Segment}
    (consistent : ReceiverRun.ConsistentSegment stream length segment)
    (small : segment.start < 2 ^ 32)
    (few : (reference.follow (.deliver segment)).bytes.pushed < 2 ^ 31) :
    FollowsReference stream length isn (run.step isn (.deliver segment))
      (reference.follow (.deliver segment)) := by
  have observed := follows.observed_zeroPoint consistent.opens
  have zeroPoint : (run.step isn (.deliver segment)).receiver.zeroPoint =
      (run.receiver.observeFlags (segment.wire isn)).zeroPoint :=
    run.receiver.receive_zeroPoint (segment.wire isn)
  by_cases opened : (reference.opened || segment.syn) = true
  · rw [if_pos opened] at observed
    have followed : reference.follow (.deliver segment) =
        { opened := true
          bytes := reference.bytes.insert segment.index segment.payload.length segment.fin } :=
      if_pos opened
    rw [followed] at few ⊢
    refine { represents := ?_, zeroPoint := zeroPoint.trans observed }
    have accepted := follows.represents.accept observed
    rw [TCPReceiver.streamIndex_wire isn consistent.opens small] at accepted
    exact accepted (ReassemblerRun.agrees_of_window consistent.payload) (consistent.short bounded)
      (fun nonempty => by exact_mod_cast consistent.inside nonempty)
      (fun fin => by exact_mod_cast consistent.ends fin) few
  · have followed : reference.follow (.deliver segment) = reference := if_neg opened
    rw [if_neg opened] at observed
    have unopened : reference.opened = false := by
      rw [Bool.or_eq_true, not_or, Bool.not_eq_true] at opened
      exact opened.1
    rw [followed]
    refine { represents := follows.represents.ignore observed, zeroPoint := ?_ }
    rw [zeroPoint, observed, unopened]
    rfl

end FollowsReference

end Rchan
