import Rchan.Wire.Checksum
import Rchan.Wire.Parser

namespace Rchan

/-!
# TCP segments

A segment is a message with the two ports and the checksum.  Both RST flags of a
message share one bit of the segment, and the acknowledgment number is present
when the ACK bit is set; everything else is written field by field, without
options and with an urgent pointer of zero.

The checksum starts from the sum of a pseudo-header and is verified over all the
bytes before any field is read.
-/

structure UserDatagramInfo where
  srcPort : UInt16 := 0
  dstPort : UInt16 := 0
  cksum : UInt16 := 0
  deriving DecidableEq, Repr

structure TCPSegment where
  message : TCPMessage := {}
  udinfo : UserDatagramInfo := {}
  deriving DecidableEq, Repr

namespace TCPMessage

/-- The RST bit of the segment that carries a message. -/
def reset (message : TCPMessage) : Bool := message.sender.rst || message.receiver.rst

/-- The message that a segment can tell apart: its RST flags agree. -/
def carried (message : TCPMessage) : TCPMessage :=
  { sender := { message.sender with rst := message.reset }
    receiver := { message.receiver with rst := message.reset } }

end TCPMessage

namespace TCPSegment

/-- `TCPHeaderMinLen`, in words of 32 bits. -/
def headerMinLen : Nat := 5

/-- The octet of flags. -/
def flags (ack reset syn fin : Bool) : UInt8 :=
  (if ack then 0x10 else 0) ||| (if reset then 0x04 else 0) ||| (if syn then 0x02 else 0) |||
    (if fin then 0x01 else 0)

def parse (segment : TCPSegment) (parser : Parser) (pseudoChecksum : Nat) : TCPSegment × Parser :=
  let check : InternetChecksum := { sum := pseudoChecksum }
  if (check.addAll parser.buffer).value ≠ 0 then (segment, parser.setError)
  else
    let (srcPort, parser) := parser.integer segment.udinfo.srcPort
    let (dstPort, parser) := parser.integer segment.udinfo.dstPort
    let (seqno, parser) := parser.integer (0 : UInt32)
    let (ackno, parser) := parser.integer seqno
    let (offsetOctet, parser) := parser.integer (0 : UInt8)
    let dataOffset := offsetOctet >>> 4
    let (octet, parser) := parser.integer offsetOctet
    let (windowSize, parser) := parser.integer segment.message.receiver.windowSize
    let (cksum, parser) := parser.integer segment.udinfo.cksum
    let (_, parser) := parser.integer (0 : UInt16)
    let parser := if dataOffset.toNat < headerMinLen then parser.setError else parser
    -- a signed product minus an unsigned one: the difference wraps in 32 bits
    let parser := parser.removePrefix (Word.sub 32 (dataOffset.toNat * 4) (headerMinLen * 4))
    let (payload, parser) := parser.remainingString
    ({ message :=
         { sender :=
             { seqno := ⟨seqno⟩
               syn := octet &&& 0x02 != 0
               payload
               fin := octet &&& 0x01 != 0
               rst := octet &&& 0x04 != 0 }
           receiver :=
             { ackno := if octet &&& 0x10 != 0 then some ⟨ackno⟩ else none
               windowSize
               rst := octet &&& 0x04 != 0 } }
       udinfo :=
         { srcPort
           dstPort
           cksum } }, parser)

def serialize (segment : TCPSegment) (serializer : Serializer) : Serializer :=
  let message := segment.message
  let serializer := serializer.integer segment.udinfo.srcPort
  let serializer := serializer.integer segment.udinfo.dstPort
  let serializer := serializer.integer message.sender.seqno.rawValue
  let serializer := serializer.integer (message.receiver.ackno.getD ⟨0⟩).rawValue
  let serializer := serializer.integer (UInt8.ofNat (headerMinLen <<< 4))
  let serializer := serializer.integer
    (flags message.receiver.ackno.isSome message.reset message.sender.syn message.sender.fin)
  let serializer := serializer.integer message.receiver.windowSize
  let serializer := serializer.integer segment.udinfo.cksum
  let serializer := serializer.integer (0 : UInt16)
  serializer.string message.sender.payload

def computeChecksum (segment : TCPSegment) (pseudoChecksum : Nat) : TCPSegment :=
  let cleared := { segment with udinfo := { segment.udinfo with cksum := 0 } }
  let check : InternetChecksum := { sum := pseudoChecksum }
  { segment with
    udinfo :=
      { segment.udinfo with cksum := (check.addAll (cleared.serialize {}).finish).value } }

/-- The helper `parse` applied to a new segment: the segment, if it has no error. -/
def ofBuffers (buffers : List (List Byte)) (pseudoChecksum : Nat) : Option TCPSegment :=
  let parsed := parse {} (Parser.ofBuffers buffers) pseudoChecksum
  if parsed.2.hasError then none else some parsed.1

/-- The helper `serialize`. -/
def toBuffers (segment : TCPSegment) : List (List Byte) := (segment.serialize {}).finish

/-! ## The bytes of a segment -/

/-- The sixteen bytes before the checksum. -/
def leading (segment : TCPSegment) : List Byte :=
  let message := segment.message
  BigEndian.bytes segment.udinfo.srcPort ++ (BigEndian.bytes segment.udinfo.dstPort ++
    (BigEndian.bytes message.sender.seqno.rawValue ++
      (BigEndian.bytes (message.receiver.ackno.getD ⟨0⟩).rawValue ++
        (BigEndian.bytes (UInt8.ofNat (headerMinLen <<< 4)) ++
          (BigEndian.bytes
            (flags message.receiver.ackno.isSome message.reset message.sender.syn
              message.sender.fin) ++
            BigEndian.bytes message.receiver.windowSize)))))

/-- The urgent pointer and the payload. -/
def trailing (segment : TCPSegment) : List Byte :=
  BigEndian.bytes (0 : UInt16) ++ segment.message.sender.payload

def bytes (segment : TCPSegment) : List Byte :=
  segment.leading ++ (BigEndian.bytes segment.udinfo.cksum ++ segment.trailing)

@[simp] theorem leading_length (segment : TCPSegment) : segment.leading.length = 16 := by
  simp [leading]

theorem bytes_length (segment : TCPSegment) :
    segment.bytes.length = 20 + segment.message.sender.payload.length := by
  simp only [bytes, trailing, List.length_append, leading_length, BigEndian.bytes_length,
    UnsignedIntegral.size_uInt16]
  omega

theorem serialize_contents (segment : TCPSegment) (serializer : Serializer) :
    (segment.serialize serializer).contents = serializer.contents ++ segment.bytes := by
  simp [serialize, bytes, leading, trailing]

theorem toBuffers_flatten (segment : TCPSegment) : segment.toBuffers.flatten = segment.bytes := by
  rw [toBuffers, Serializer.finish_flatten, serialize_contents]
  rfl

/-! ## The checksum -/

/-- The checksum field adds its value to the sum of the other words. -/
theorem weight_bytes (segment : TCPSegment) :
    InternetChecksum.weight false segment.bytes =
      InternetChecksum.weight false segment.leading + segment.udinfo.cksum.toNat +
        InternetChecksum.weight false segment.trailing := by
  have before : segment.leading.length.bodd = false := by
    rw [leading_length]
    rfl
  have field : (BigEndian.bytes segment.udinfo.cksum).length.bodd = false := by
    rw [BigEndian.bytes_length]
    rfl
  rw [bytes, InternetChecksum.weight_append_of_even before,
    InternetChecksum.weight_append_of_even field, InternetChecksum.weight_word, Nat.add_assoc]

/-- The checksum that is computed for a segment is valid. -/
theorem computeChecksum_valid {segment : TCPSegment} {pseudoChecksum : Nat}
    (fits : pseudoChecksum + 65280 * segment.bytes.length < 2 ^ 32) :
    (({ sum := pseudoChecksum } : InternetChecksum).add
      (segment.computeChecksum pseudoChecksum).bytes).value = 0 := by
  have summed : ∀ sent : TCPSegment, sent.bytes.length = segment.bytes.length →
      (({ sum := pseudoChecksum } : InternetChecksum).add sent.bytes).sum =
        pseudoChecksum + InternetChecksum.weight false sent.bytes := by
    intro sent same
    apply InternetChecksum.add_sum
    have bounded := InternetChecksum.weight_le false sent.bytes
    rw [same] at bounded
    exact Nat.lt_of_le_of_lt (Nat.add_le_add_left bounded _) fits
  let cleared : TCPSegment := { segment with udinfo := { segment.udinfo with cksum := 0 } }
  let filled := segment.computeChecksum pseudoChecksum
  have stored : filled.udinfo.cksum =
      (({ sum := pseudoChecksum } : InternetChecksum).add cleared.bytes).value := by
    rw [← toBuffers_flatten, ← InternetChecksum.addAll_eq]
    rfl
  have sameLength : filled.bytes.length = segment.bytes.length := by
    rw [bytes_length, bytes_length]
    rfl
  have clearedLength : cleared.bytes.length = segment.bytes.length := by
    rw [bytes_length, bytes_length]
  apply InternetChecksum.value_of_completed
    (({ sum := pseudoChecksum } : InternetChecksum).add cleared.bytes)
  rw [summed filled sameLength, summed cleared clearedLength, ← stored, weight_bytes, weight_bytes]
  change _ = pseudoChecksum + (InternetChecksum.weight false filled.leading + 0 +
    InternetChecksum.weight false filled.trailing) + _
  omega

/-! ## Reading a segment back -/

theorem flags_ack (ack reset syn fin : Bool) : (flags ack reset syn fin &&& 0x10 != 0) = ack := by
  cases ack <;> cases reset <;> cases syn <;> cases fin <;> rfl

theorem flags_reset (ack reset syn fin : Bool) :
    (flags ack reset syn fin &&& 0x04 != 0) = reset := by
  cases ack <;> cases reset <;> cases syn <;> cases fin <;> rfl

theorem flags_syn (ack reset syn fin : Bool) : (flags ack reset syn fin &&& 0x02 != 0) = syn := by
  cases ack <;> cases reset <;> cases syn <;> cases fin <;> rfl

theorem flags_fin (ack reset syn fin : Bool) : (flags ack reset syn fin &&& 0x01 != 0) = fin := by
  cases ack <;> cases reset <;> cases syn <;> cases fin <;> rfl

/-- An acknowledgment number survives through the ACK bit. -/
theorem ackno_carried (ackno : Option Wrap32) :
    (if ackno.isSome then some ⟨(ackno.getD ⟨0⟩).rawValue⟩ else none) = ackno := by
  cases ackno <;> rfl

/-- A segment with a valid checksum is parsed into its ports and its message, with
the RST flags joined. -/
theorem parse_bytes (segment old : TCPSegment) {parser : Parser} {pseudoChecksum : Nat}
    (view : parser.Views segment.bytes)
    (valid : (({ sum := pseudoChecksum } : InternetChecksum).add segment.bytes).value = 0) :
    (old.parse parser pseudoChecksum).1 = { segment with message := segment.message.carried } ∧
      (old.parse parser pseudoChecksum).2.error = false := by
  have verified : ¬ (({ sum := pseudoChecksum } : InternetChecksum).addAll parser.buffer).value ≠ 0 := by
    rw [InternetChecksum.addAll_eq, view.buffer_flatten]
    exact not_not_intro valid
  have words : UInt8.ofNat (headerMinLen <<< 4) >>> 4 = 5 := rfl
  have minimal : ¬ (5 : UInt8).toNat < headerMinLen := by decide
  have nothing : Word.sub 32 ((5 : UInt8).toNat * 4) (headerMinLen * 4) = 0 := by decide
  simp only [bytes, leading, trailing, List.append_assoc] at view
  rcases view.integer_bytes old.udinfo.srcPort with ⟨afterSrc, srcPort, view⟩
  rcases view.integer_bytes old.udinfo.dstPort with ⟨afterDst, dstPort, view⟩
  rcases view.integer_bytes 0 with ⟨afterSeqno, seqno, view⟩
  rcases view.integer_bytes segment.message.sender.seqno.rawValue with ⟨afterAckno, ackno, view⟩
  rcases view.integer_bytes 0 with ⟨afterOffset, offset, view⟩
  rcases view.integer_bytes (UInt8.ofNat (headerMinLen <<< 4)) with ⟨afterFlags, octet, view⟩
  rcases view.integer_bytes old.message.receiver.windowSize with ⟨afterWindow, window, view⟩
  rcases view.integer_bytes old.udinfo.cksum with ⟨afterCksum, cksum, view⟩
  rcases view.integer_bytes 0 with ⟨afterUrgent, urgent, view⟩
  have payload := (view.removePrefix 0).remainingString_eq
  unfold parse
  rw [if_neg verified]
  simp only [srcPort, dstPort, seqno, ackno, offset, octet, window, cksum, urgent, words,
    if_neg minimal, nothing, flags_ack, flags_reset, flags_syn, flags_fin, ackno_carried, payload,
    List.drop_zero]
  exact ⟨rfl, view.sound⟩

/-- The segment that is sent with its computed checksum is parsed back from any
division into nonempty strings. -/
theorem ofBuffers_computeChecksum {segment : TCPSegment} {pseudoChecksum : Nat}
    (fits : pseudoChecksum + 65280 * segment.bytes.length < 2 ^ 32)
    {buffers : List (List Byte)} (strings : ∀ str ∈ buffers, str ≠ [])
    (content : buffers.flatten = (segment.computeChecksum pseudoChecksum).bytes) :
    ofBuffers buffers pseudoChecksum =
      some { segment.computeChecksum pseudoChecksum with message := segment.message.carried } := by
  have view := Parser.ofBuffers_views strings
  rw [content] at view
  have parsed := parse_bytes _ {} view (computeChecksum_valid fits)
  simp only [ofBuffers, Parser.hasError, parsed.2, Bool.false_eq_true, if_false, parsed.1]
  rfl

end TCPSegment
end Rchan
