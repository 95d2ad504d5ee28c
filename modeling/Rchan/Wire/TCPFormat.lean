import Rchan.Wire.Cursor
import Rchan.Wire.IPv4
import Rchan.Wire.TCPSegment

namespace Rchan

/-!
# What is accepted as a TCP segment

Parsing succeeds when the checksum is valid, the twenty bytes of the fixed header are
there, and the data offset is at least as long as that header.  Whether the input is as
long as the data offset says is not checked: the options are skipped with
`remove_prefix`, which stops at the end of the input without an error.
-/

namespace InternetChecksum

/-- The Internet checksum of a byte string, summed up from a seed, is valid. -/
def Valid (seed : Nat) (bytes : List Byte) : Prop :=
  0 < seed + weight false bytes ∧ 65535 ∣ seed + weight false bytes

theorem value_eq_zero_iff_valid {seed : Nat} {bytes : List Byte}
    (fits : seed + weight false bytes < 2 ^ 32) :
    (({ sum := seed } : InternetChecksum).add bytes).value = 0 ↔ Valid seed bytes := by
  rw [value_eq_zero_iff, add_sum _ _ fits]
  rfl

/-- The sum of a pseudo-header and of a segment of at most 65535 bytes fits. -/
theorem pseudoChecksum_fits (header : IPv4Header) {bytes : List Byte}
    (short : bytes.length ≤ 65535) :
    header.pseudoChecksum + weight false bytes < 2 ^ 32 := by
  have seed := header.pseudoChecksum_le
  have sum := weight_le false bytes
  omega

end InternetChecksum

/-- A byte inside the input is the field of one byte at its offset. -/
theorem BigEndian.field_uInt8 {bytes : List Byte} {offset : Nat} (inside : offset < bytes.length) :
    BigEndian.field UInt8 bytes offset = bytes.getD offset 0 := by
  have first : (bytes.drop offset).take 1 = [bytes[offset]] := by
    rw [List.drop_eq_getElem_cons inside, List.take_succ_cons, List.take_zero]
  have decoded : BigEndian.decode [bytes[offset]] = bytes[offset].toNat := by
    simp [BigEndian.decode]
  unfold BigEndian.field
  rw [UnsignedIntegral.size_uInt8, first, decoded, List.getD_eq_getElem?_getD,
    List.getElem?_eq_getElem inside]
  exact UInt8.ofNat_toNat

namespace TCPSegment

/-- The data offset of a segment, in words of 32 bits. -/
def dataOffset (bytes : List Byte) : Nat := (bytes.getD 12 0).toNat / 16

/-- The ACK bit of a segment. -/
def AckBit (bytes : List Byte) : Prop := bytes.getD 13 0 &&& 0x10 ≠ 0

/-- The fixed header is there, the checksum is valid, and the data offset covers the
fixed header. -/
structure HeaderAccepted (bytes : List Byte) (seed : Nat) : Prop where
  length : 20 ≤ bytes.length
  valid : InternetChecksum.Valid seed bytes
  dataOffset : 5 ≤ dataOffset bytes

variable {bytes : List Byte} {seed : Nat}

theorem toNat_shiftRight_four (octet : UInt8) : (octet >>> 4).toNat = octet.toNat / 16 := by
  rw [UInt8.toNat_shiftRight]
  exact Nat.shiftRight_eq_div_pow _ _

theorem toNat_shiftRight_four_lt (octet : UInt8) : (octet >>> 4).toNat < 16 := by
  have range := octet.toNat_lt
  rw [toNat_shiftRight_four]
  omega

/-- Behind the fixed header the options are skipped, and the rest is the payload. -/
theorem options_spec {last : Parser} (ahead : last.Ahead bytes 20) {words : Nat} (small : words < 16) :
    let parser := if words < headerMinLen then last.setError else last
    let rest := (parser.removePrefix (Word.sub 32 (words * 4) (headerMinLen * 4))).remainingString
    (rest.2.hasError = false ↔ 20 ≤ bytes.length ∧ 5 ≤ words) ∧
      (20 ≤ bytes.length → 5 ≤ words → rest.1 = bytes.drop (4 * words)) := by
  intro parser rest
  constructor
  · have error : rest.2.hasError = (last.error || decide (words < headerMinLen)) :=
      Parser.error_ite_setError last (words < headerMinLen)
    rw [error, ahead.error_eq, Bool.or_eq_false_iff, decide_eq_false_iff_not,
      decide_eq_false_iff_not, Nat.not_lt, Nat.not_lt]
    rfl
  · intro whole enough
    have same : parser = last := if_neg (Nat.not_lt_of_le enough)
    have least : headerMinLen * 4 = 20 := rfl
    have skipped : Word.sub 32 (words * 4) (headerMinLen * 4) = 4 * words - 20 := by
      rw [Word.sub_of_le] <;> omega
    have total : 20 + (4 * words - 20) = 4 * words := by omega
    have taken := Parser.remainingString_of_removePrefix (ahead.holds whole) (4 * words - 20)
    rw [List.drop_drop, total] at taken
    change (parser.removePrefix (Word.sub 32 (words * 4) (headerMinLen * 4))).remainingString.1 = _
    rw [same, skipped, taken]

/-- What `parse` does with a byte string. -/
theorem parse_spec (segment : TCPSegment) {buffers : List (List Byte)}
    (chunks : BufferList.Chunks buffers bytes)
    (fits : seed + InternetChecksum.weight false bytes < 2 ^ 32) :
    ((segment.parse (Parser.ofBuffers buffers) seed).2.hasError = false ↔
        HeaderAccepted bytes seed) ∧
      (HeaderAccepted bytes seed →
        (segment.parse (Parser.ofBuffers buffers) seed).1.message.sender.payload =
            bytes.drop (4 * dataOffset bytes) ∧
          ((segment.parse (Parser.ofBuffers buffers) seed).1.message.receiver.ackno.isSome = true ↔
            AckBit bytes)) := by
  have checked : (({ sum := seed } : InternetChecksum).addAll (Parser.ofBuffers buffers).buffer).value =
      0 ↔ InternetChecksum.Valid seed bytes := by
    rw [InternetChecksum.addAll_eq, Parser.ofBuffers_buffer chunks,
      InternetChecksum.value_eq_zero_iff_valid fits]
  by_cases valid : InternetChecksum.Valid seed bytes
  · have ahead := Parser.ofBuffers_ahead chunks
    rcases ahead.integer segment.udinfo.srcPort 2 rfl (by decide) with ⟨_, _, srcPort, ahead, _⟩
    rcases ahead.integer segment.udinfo.dstPort 4 rfl (by decide) with ⟨_, _, dstPort, ahead, _⟩
    rcases ahead.integer (0 : UInt32) 8 rfl (by decide) with ⟨seqnoRaw, _, seqno, ahead, _⟩
    rcases ahead.integer seqnoRaw 12 rfl (by decide) with ⟨_, _, ackno, ahead, _⟩
    rcases ahead.integer (0 : UInt8) 13 rfl (by decide) with ⟨offsetOctet, _, offset, ahead, atOffset⟩
    rcases ahead.integer offsetOctet 14 rfl (by decide) with ⟨flagsOctet, _, octet, ahead, atFlags⟩
    rcases ahead.integer segment.message.receiver.windowSize 16 rfl (by decide) with
      ⟨_, _, window, ahead, _⟩
    rcases ahead.integer segment.udinfo.cksum 18 rfl (by decide) with ⟨_, _, cksum, ahead, _⟩
    rcases ahead.integer (0 : UInt16) 20 rfl (by decide) with ⟨_, last, urgent, ahead, _⟩
    unfold parse
    rw [if_neg (not_not_intro (checked.mpr valid))]
    simp only [srcPort, dstPort, seqno, ackno, offset, octet, window, cksum, urgent]
    have words : 20 ≤ bytes.length → (offsetOctet >>> 4).toNat = dataOffset bytes := by
      intro whole
      rw [atOffset (by omega), BigEndian.field_uInt8 (by omega)]
      exact toNat_shiftRight_four _
    have rest := options_spec ahead (toNat_shiftRight_four_lt offsetOctet)
    constructor
    · apply rest.1.trans
      constructor
      · rintro ⟨whole, enough⟩
        exact ⟨whole, valid, words whole ▸ enough⟩
      · intro accepted
        exact ⟨accepted.length, (words accepted.length).symm ▸ accepted.dataOffset⟩
    · intro accepted
      have whole := accepted.length
      have enough : 5 ≤ (offsetOctet >>> 4).toNat := (words whole).symm ▸ accepted.dataOffset
      refine ⟨(rest.2 whole enough).trans (by rw [words whole]), ?_⟩
      have bit : (flagsOctet &&& 0x10 != 0) = true ↔ AckBit bytes := by
        rw [atFlags (by omega), BigEndian.field_uInt8 (by omega), bne_iff_ne]
        rfl
      rw [← bit]
      cases flagsOctet &&& 0x10 != 0 <;> simp
  · unfold parse
    rw [if_pos (fun zero => valid (checked.mp zero))]
    constructor
    · exact iff_of_false Bool.noConfusion (fun accepted => valid accepted.valid)
    · exact fun accepted => absurd accepted.valid valid

/-! ## Well-formed segments -/

/-- The segment is as long as its data offset says. -/
structure WellFormed (bytes : List Byte) (seed : Nat) : Prop where
  accepted : HeaderAccepted bytes seed
  whole : 4 * dataOffset bytes ≤ bytes.length

/-- Parsing the strings succeeds exactly for well-formed segments, and then yields the
bytes behind the header and an acknowledgment number if there is one. -/
def AcceptsWellFormed (segment : TCPSegment) (buffers : List (List Byte)) (bytes : List Byte)
    (seed : Nat) : Prop :=
  let parsed := segment.parse (Parser.ofBuffers buffers) seed
  (parsed.2.hasError = false ↔ WellFormed bytes seed) ∧
    (parsed.2.hasError = false →
      parsed.1.message.sender.payload = bytes.drop (4 * dataOffset bytes) ∧
        (parsed.1.message.receiver.ackno.isSome = true ↔ AckBit bytes))

/-- The segments that end inside the options are the ones accepted by mistake. -/
theorem acceptsWellFormed_iff (segment : TCPSegment) (header : IPv4Header)
    {buffers : List (List Byte)} (chunks : BufferList.Chunks buffers bytes)
    (short : bytes.length ≤ 65535) :
    segment.AcceptsWellFormed buffers bytes header.pseudoChecksum ↔
      ¬ (HeaderAccepted bytes header.pseudoChecksum ∧ bytes.length < 4 * dataOffset bytes) := by
  have fits := InternetChecksum.pseudoChecksum_fits header short
  have spec := parse_spec segment chunks fits
  constructor
  · rintro accepts ⟨accepted, cut⟩
    have whole := (accepts.1.mp (spec.1.mpr accepted)).whole
    omega
  · intro noneCut
    refine ⟨spec.1.trans ⟨?_, WellFormed.accepted⟩, fun sound => spec.2 (spec.1.mp sound)⟩
    intro accepted
    refine ⟨accepted, Nat.le_of_not_lt ?_⟩
    exact fun cut => noneCut ⟨accepted, cut⟩

/-- Twenty bytes that announce a header of the given number of words. -/
def announcing (words : UInt8) (cksum : UInt16) : List Byte :=
  List.replicate 12 (0 : Byte) ++ ([words <<< 4, 0x02, 0, 0] ++ (BigEndian.bytes cksum ++ [0, 0]))

/-- A bare SYN that arrives in two strings. -/
theorem acceptsWellFormed_iff_in_two_strings :
    AcceptsWellFormed {} [(announcing 5 45027).take 7, (announcing 5 45027).drop 7]
      (announcing 5 45027) ({ len := 40 } : IPv4Header).pseudoChecksum := by
  have chunks : BufferList.Chunks [(announcing 5 45027).take 7, (announcing 5 45027).drop 7]
      (announcing 5 45027) := ⟨by decide, Or.inr (by decide)⟩
  apply (acceptsWellFormed_iff {} { len := 40 } chunks (by decide)).mpr
  rintro ⟨_, cut⟩
  exact absurd cut (by decide)

/-- Fifteen words are announced, and five are there. -/
theorem cut_options_accepted :
    ¬ AcceptsWellFormed {} [announcing 15 4067] (announcing 15 4067)
      ({ len := 40 } : IPv4Header).pseudoChecksum := by
  intro accepts
  have accepted : (TCPSegment.parse {} (Parser.ofBuffers [announcing 15 4067])
      ({ len := 40 } : IPv4Header).pseudoChecksum).2.hasError = false := by decide
  exact absurd (accepts.1.mp accepted).whole (by decide)

end TCPSegment
end Rchan
