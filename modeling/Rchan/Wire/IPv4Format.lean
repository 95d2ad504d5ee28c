import Rchan.Wire.TCPFormat

namespace Rchan

/-!
# What is accepted as an IPv4 header

The checksum of a header is verified by writing the fields that have been read and
computing the checksum again.  What has not become a field is therefore not covered:
the options, which are skipped, and the reserved bit in front of the fragmentation
flags.  And since skipping stops at the end of the input without an error, the options
need not even be there.
-/

namespace IPv4Header

/-! ## The header that a byte string writes -/

/-- The version, in the upper half of the first byte. -/
def version (bytes : List Byte) : Nat := (BigEndian.field UInt8 bytes 0).toNat / 16

/-- The length of the header in words of 32 bits, in the lower half. -/
def headerLength (bytes : List Byte) : Nat := (BigEndian.field UInt8 bytes 0).toNat % 16

/-- The two bytes of flags and fragment offset. -/
def fragmentWord (bytes : List Byte) : UInt16 := BigEndian.field UInt16 bytes 6

/-- What the reserved bit contributes to the sum of the words. -/
def reserved (bytes : List Byte) : Nat := 2 ^ 15 * ((fragmentWord bytes).toNat / 2 ^ 15)

/-- The fields of the first twenty bytes. -/
def ofBytes (bytes : List Byte) : IPv4Header where
  ver := BigEndian.field UInt8 bytes 0 >>> 4
  hlen := BigEndian.field UInt8 bytes 0 &&& 0x0f
  tos := BigEndian.field UInt8 bytes 1
  len := BigEndian.field UInt16 bytes 2
  id := BigEndian.field UInt16 bytes 4
  df := fragmentWord bytes &&& 0x4000 != 0
  mf := fragmentWord bytes &&& 0x2000 != 0
  offset := fragmentWord bytes &&& 0x1fff
  ttl := BigEndian.field UInt8 bytes 8
  proto := BigEndian.field UInt8 bytes 9
  cksum := BigEndian.field UInt16 bytes 10
  src := BigEndian.field UInt32 bytes 12
  dst := BigEndian.field UInt32 bytes 16

variable {bytes : List Byte}

theorem ofBytes_ver (bytes : List Byte) : (ofBytes bytes).ver.toNat = version bytes :=
  TCPSegment.toNat_shiftRight_four _

theorem ofBytes_hlen (bytes : List Byte) : (ofBytes bytes).hlen.toNat = headerLength bytes :=
  (UInt8.toNat_and _ _).trans (Nat.and_two_pow_sub_one_eq_mod _ 4)

theorem ofBytes_representable (bytes : List Byte) : (ofBytes bytes).Representable where
  ver := by
    have range := (BigEndian.field UInt8 bytes 0).toNat_lt
    rw [UInt8.lt_iff_toNat_lt, ofBytes_ver]
    exact Nat.div_lt_of_lt_mul range
  hlen := by
    rw [UInt8.lt_iff_toNat_lt, ofBytes_hlen]
    exact Nat.mod_lt _ (by decide)
  offset := by
    rw [UInt16.lt_iff_toNat_lt]
    change (fragmentWord bytes &&& 0x1fff).toNat < 2 ^ 13
    rw [UInt16.toNat_and]
    exact (Nat.and_two_pow_sub_one_eq_mod _ 13).trans_lt (Nat.mod_lt _ (by decide))

theorem ofBytes_cleared_representable (bytes : List Byte) :
    ({ ofBytes bytes with cksum := 0 } : IPv4Header).Representable :=
  have fits := ofBytes_representable bytes
  { ver := fits.ver
    hlen := fits.hlen
    offset := fits.offset }

/-- The first byte is written as it has been read. -/
theorem ofBytes_firstByte (bytes : List Byte) :
    (ofBytes bytes).firstByte = BigEndian.field UInt8 bytes 0 := by
  rw [← UInt8.toNat_inj, (ofBytes_representable bytes).firstByte_toNat, ofBytes_ver, ofBytes_hlen]
  exact Nat.div_add_mod' _ 16

/-- A flag is written with the bit it has been read from. -/
theorem flag_eq_and (word : UInt16) {mask : UInt16} {place : Nat}
    (single : mask.toBitVec = BitVec.twoPow 16 place) :
    (if word &&& mask != 0 then mask else 0) = word &&& mask := by
  have selected : word &&& mask = if word.toBitVec.getLsbD place then mask else 0 := by
    apply UInt16.toBitVec_inj.mp
    rw [UInt16.toBitVec_and, single, BitVec.and_twoPow, apply_ite UInt16.toBitVec, single]
    rfl
  rw [selected]
  split
  · split
    · rfl
    · rename_i zero
      exact (of_not_not (bne_iff_ne.not.mp zero)).symm
  · rfl

/-- The flags and the offset are written as they have been read, but the reserved bit
is written as zero. -/
theorem ofBytes_foVal (bytes : List Byte) : (ofBytes bytes).foVal = fragmentWord bytes &&& 0x7fff := by
  have fourteen : (0x4000 : UInt16).toBitVec = BitVec.twoPow 16 14 := by decide
  have thirteen : (0x2000 : UInt16).toBitVec = BitVec.twoPow 16 13 := by decide
  have df := flag_eq_and (fragmentWord bytes) fourteen
  have mf := flag_eq_and (fragmentWord bytes) thirteen
  have parts : (0x7fff : UInt16) = 0x4000 ||| 0x2000 ||| (0x1fff &&& 0x1fff) := rfl
  unfold foVal ofBytes
  rw [df, mf, parts]
  apply UInt16.toBitVec_inj.mp
  simp only [UInt16.toBitVec_and, UInt16.toBitVec_or, BitVec.and_or_distrib_left, BitVec.and_assoc]

theorem fragmentWord_toNat (bytes : List Byte) :
    (fragmentWord bytes).toNat = (ofBytes bytes).foVal.toNat + reserved bytes := by
  have kept : (ofBytes bytes).foVal.toNat = (fragmentWord bytes).toNat % 2 ^ 15 := by
    rw [ofBytes_foVal, UInt16.toNat_and]
    exact Nat.and_two_pow_sub_one_eq_mod _ 15
  rw [kept, reserved]
  exact (Nat.mod_add_div _ _).symm

/-! ## The words of a header -/

/-- The first three words. -/
def leading (header : IPv4Header) : List Byte :=
  BigEndian.bytes header.firstByte ++ (BigEndian.bytes header.tos ++
    (BigEndian.bytes header.len ++ BigEndian.bytes header.id))

/-- The word between the fragment word and the checksum. -/
def ttlProto (header : IPv4Header) : List Byte :=
  BigEndian.bytes header.ttl ++ BigEndian.bytes header.proto

def addresses (header : IPv4Header) : List Byte :=
  BigEndian.bytes header.src ++ BigEndian.bytes header.dst

theorem leading_length (header : IPv4Header) : header.leading.length = 6 := by
  simp [leading]

theorem ttlProto_length (header : IPv4Header) : header.ttlProto.length = 2 := by
  simp [ttlProto]

/-- A header with the given fragment word and checksum field. -/
def layout (header : IPv4Header) (fragment cksum : UInt16) : List Byte :=
  header.leading ++ (BigEndian.bytes fragment ++
    (header.ttlProto ++ (BigEndian.bytes cksum ++ header.addresses)))

theorem bytes_eq_layout (header : IPv4Header) :
    header.bytes = header.layout header.foVal header.cksum := by
  simp only [bytes, layout, leading, ttlProto, addresses, List.append_assoc]

theorem layout_length (header : IPv4Header) (fragment cksum : UInt16) :
    (header.layout fragment cksum).length = 20 := by
  simp [layout, leading, ttlProto, addresses]

/-- The first twenty bytes are the fields with the fragment word as it is. -/
theorem take_eq_layout (whole : 20 ≤ bytes.length) :
    bytes.take 20 =
      (ofBytes bytes).layout (fragmentWord bytes) (BigEndian.field UInt16 bytes 10) := by
  have split : bytes = (ofBytes bytes).layout (fragmentWord bytes)
      (BigEndian.field UInt16 bytes 10) ++ bytes.drop 20 := by
    unfold layout leading
    rw [ofBytes_firstByte]
    simp only [ttlProto, addresses, List.append_assoc]
    change bytes.drop 0 = _
    rw [BigEndian.drop_eq_field_append UInt8 0 1 rfl (by omega),
      BigEndian.drop_eq_field_append UInt8 1 2 rfl (by omega),
      BigEndian.drop_eq_field_append UInt16 2 4 rfl (by omega),
      BigEndian.drop_eq_field_append UInt16 4 6 rfl (by omega),
      BigEndian.drop_eq_field_append UInt16 6 8 rfl (by omega),
      BigEndian.drop_eq_field_append UInt8 8 9 rfl (by omega),
      BigEndian.drop_eq_field_append UInt8 9 10 rfl (by omega),
      BigEndian.drop_eq_field_append UInt16 10 12 rfl (by omega),
      BigEndian.drop_eq_field_append UInt32 12 16 rfl (by omega),
      BigEndian.drop_eq_field_append UInt32 16 20 rfl (by omega)]
    rfl
  conv_lhs => rw [split]
  exact List.take_left' (layout_length _ _ _)

/-- The fragment word and the checksum field add their values to the other words. -/
theorem weight_layout (header : IPv4Header) (fragment cksum : UInt16) :
    InternetChecksum.weight false (header.layout fragment cksum) =
      InternetChecksum.weight false (header.layout fragment 0) + cksum.toNat ∧
    InternetChecksum.weight false (header.layout fragment cksum) =
      InternetChecksum.weight false (header.layout 0 cksum) + fragment.toNat := by
  have leading : header.leading.length.bodd = false := by
    rw [leading_length]
    rfl
  have between : header.ttlProto.length.bodd = false := by
    rw [ttlProto_length]
    rfl
  have word : ∀ value : UInt16, (BigEndian.bytes value).length.bodd = false := by
    intro value
    rw [BigEndian.bytes_length]
    rfl
  have none : (0 : UInt16).toNat = 0 := rfl
  simp only [layout, InternetChecksum.weight_append_of_even leading,
    InternetChecksum.weight_append_of_even between, InternetChecksum.weight_append_of_even (word _),
    InternetChecksum.weight_word, none]
  omega

/-- The received words are those that are written again, the checksum field, and the
reserved bit. -/
theorem weight_take (whole : 20 ≤ bytes.length) :
    InternetChecksum.weight false (bytes.take 20) =
      InternetChecksum.weight false ({ ofBytes bytes with cksum := 0 } : IPv4Header).bytes +
        (BigEndian.field UInt16 bytes 10).toNat + reserved bytes := by
  have written : ({ ofBytes bytes with cksum := 0 } : IPv4Header).bytes =
      (ofBytes bytes).layout (ofBytes bytes).foVal 0 := bytes_eq_layout _
  have received := (weight_layout (ofBytes bytes) (fragmentWord bytes)
    (BigEndian.field UInt16 bytes 10)).1
  have fragment := (weight_layout (ofBytes bytes) (fragmentWord bytes) 0).2
  have cleared := (weight_layout (ofBytes bytes) (ofBytes bytes).foVal 0).2
  have word := fragmentWord_toNat bytes
  rw [take_eq_layout whole, written]
  omega

theorem weight_pos (header : IPv4Header) (version : header.ver = 4) (fits : header.Representable) :
    0 < InternetChecksum.weight false header.bytes := by
  have first : BigEndian.bytes header.firstByte = [header.firstByte] :=
    BigEndian.bytes_uInt8 header.firstByte
  have high := fits.firstByte_toNat
  rw [version] at high
  rw [bytes, first]
  change 0 < header.firstByte.toNat * 256 + _
  change _ = 64 + _ at high
  omega

/-! ## What `parse` does with a byte string -/

/-- The fixed header is there, it is of version four and covers itself, and its sum is
valid when the reserved bit is not counted.  The checksum field is not the word of ones,
which is never the value of a checksum. -/
structure HeaderAccepted (bytes : List Byte) : Prop where
  length : 20 ≤ bytes.length
  version : version bytes = 4
  words : 5 ≤ headerLength bytes
  sum : InternetChecksum.weight false (bytes.take 20) ≡ reserved bytes [MOD 65535]
  cksum : BigEndian.field UInt16 bytes 10 ≠ 0xffff

theorem ofBytes_version_iff : (ofBytes bytes).ver = 4 ↔ version bytes = 4 := by
  rw [← UInt8.toNat_inj, ofBytes_ver]
  rfl

theorem ofBytes_words_iff : (ofBytes bytes).hlen < 5 ↔ headerLength bytes < 5 := by
  rw [UInt8.lt_iff_toNat_lt, ofBytes_hlen]
  rfl

/-- The checksum computed from the fields is the one in the field. -/
theorem checksum_ofBytes_iff (whole : 20 ≤ bytes.length) (four : version bytes = 4) :
    (ofBytes bytes).checksum = (ofBytes bytes).cksum ↔
      InternetChecksum.weight false (bytes.take 20) ≡ reserved bytes [MOD 65535] ∧
        BigEndian.field UInt16 bytes 10 ≠ 0xffff := by
  let cleared : IPv4Header := { ofBytes bytes with cksum := 0 }
  have nonzero : 0 < InternetChecksum.weight false cleared.bytes :=
    weight_pos cleared (ofBytes_version_iff.mpr four) (ofBytes_cleared_representable bytes)
  have value : (ofBytes bytes).checksum.toNat =
      65535 - OnesComplement.fold 16 (InternetChecksum.weight false cleared.bytes) := by
    have bounded := InternetChecksum.weight_le false cleared.bytes
    rw [bytes_length, length] at bounded
    have fits : 0 + InternetChecksum.weight false cleared.bytes < 2 ^ 32 := by omega
    have summed := InternetChecksum.add_sum {} cleared.bytes fits
    rw [checksum, InternetChecksum.value_toNat, summed]
    exact congrArg (fun sum => 65535 - OnesComplement.fold 16 sum) (Nat.zero_add _)
  have complement := OnesComplement.complement_eq_iff (by decide : 0 < 16) nonzero
    (BigEndian.field UInt16 bytes 10).toNat
  rw [InternetChecksum.ones_eq] at complement
  have total : InternetChecksum.weight false (bytes.take 20) =
      InternetChecksum.weight false cleared.bytes + (BigEndian.field UInt16 bytes 10).toNat +
        reserved bytes := weight_take whole
  have range := (BigEndian.field UInt16 bytes 10).toNat_lt
  rw [← UInt16.toNat_inj, value]
  refine complement.trans (and_congr ?_ ?_)
  · unfold Nat.ModEq
    omega
  · rw [ne_eq, ← UInt16.toNat_inj]
    change _ ↔ (BigEndian.field UInt16 bytes 10).toNat ≠ 65535
    omega

theorem readFields_spec (header : IPv4Header) {buffers : List (List Byte)}
    (chunks : BufferList.Chunks buffers bytes) :
    (header.readFields (Parser.ofBuffers buffers)).2.Ahead bytes 20 ∧
      (20 ≤ bytes.length → (header.readFields (Parser.ofBuffers buffers)).1 = ofBytes bytes) := by
  have ahead := Parser.ofBuffers_ahead chunks
  rcases ahead.integer (0 : UInt8) 1 rfl (by decide) with ⟨_, _, first, ahead, atFirst⟩
  rcases ahead.integer header.tos 2 rfl (by decide) with ⟨_, _, tos, ahead, atTos⟩
  rcases ahead.integer header.len 4 rfl (by decide) with ⟨_, _, len, ahead, atLen⟩
  rcases ahead.integer header.id 6 rfl (by decide) with ⟨_, _, id, ahead, atId⟩
  rcases ahead.integer (0 : UInt16) 8 rfl (by decide) with ⟨_, _, foVal, ahead, atFoVal⟩
  rcases ahead.integer header.ttl 9 rfl (by decide) with ⟨_, _, ttl, ahead, atTtl⟩
  rcases ahead.integer header.proto 10 rfl (by decide) with ⟨_, _, proto, ahead, atProto⟩
  rcases ahead.integer header.cksum 12 rfl (by decide) with ⟨_, _, cksum, ahead, atCksum⟩
  rcases ahead.integer header.src 16 rfl (by decide) with ⟨_, _, src, ahead, atSrc⟩
  rcases ahead.integer header.dst 20 rfl (by decide) with ⟨_, _, dst, ahead, atDst⟩
  simp only [readFields, first, tos, len, id, foVal, ttl, proto, cksum, src, dst]
  refine ⟨ahead, fun whole => ?_⟩
  rw [atFirst (by omega), atTos (by omega), atLen (by omega), atId (by omega), atFoVal (by omega),
    atTtl (by omega), atProto (by omega), atCksum (by omega), atSrc (by omega), atDst (by omega)]
  rfl

/-- `parse` throws nothing; it succeeds for the accepted headers and yields their fields. -/
theorem parse_spec (header : IPv4Header) {buffers : List (List Byte)}
    (chunks : BufferList.Chunks buffers bytes) :
    ∃ parsed parser, header.parse (Parser.ofBuffers buffers) = .ok (parsed, parser) ∧
      (parser.hasError = false ↔ HeaderAccepted bytes) ∧
      (HeaderAccepted bytes → parsed = ofBytes bytes) := by
  rcases header.readFields_spec chunks with ⟨ahead, fields⟩
  unfold parse
  rcases reading : header.readFields (Parser.ofBuffers buffers) with ⟨read, next⟩
  rw [reading] at ahead fields
  dsimp only at ahead fields ⊢
  have checks := Parser.error_ite_setError (if read.ver ≠ 4 then next.setError else next)
    (read.hlen < 5)
  rw [Parser.error_ite_setError next, ahead.error_eq] at checks
  generalize (if read.hlen < 5 then
    (if read.ver ≠ 4 then next.setError else next).setError else
      (if read.ver ≠ 4 then next.setError else next)) = checked at checks ⊢
  have passed : checked.error = false ↔
      20 ≤ bytes.length ∧ read.ver = 4 ∧ ¬ read.hlen < 5 := by
    rw [checks]
    simp [and_assoc]
  by_cases failed : checked.hasError = true
  · rw [if_pos failed]
    have refused : ¬ HeaderAccepted bytes := by
      intro accepted
      have isFields := fields accepted.length
      have sound := passed.mpr ⟨accepted.length, by
        rw [isFields]
        exact ofBytes_version_iff.mpr accepted.version, by
        rw [isFields, ofBytes_words_iff]
        exact Nat.not_lt.mpr accepted.words⟩
      exact Bool.noConfusion (sound.symm.trans failed)
    refine ⟨read, checked, rfl, iff_of_false ?_ refused, fun accepted => absurd accepted refused⟩
    exact fun sound => Bool.noConfusion (sound.symm.trans failed)
  · rw [if_neg failed]
    rcases passed.mp (Bool.not_eq_true _ ▸ failed) with ⟨whole, four, words⟩
    have isFields := fields whole
    subst isFields
    rw [computeChecksum_eq four]
    have version := ofBytes_version_iff.mp four
    have same := checksum_ofBytes_iff whole version
    simp only [bind, Except.bind, pure, Except.pure]
    by_cases equal : (ofBytes bytes).checksum = (ofBytes bytes).cksum
    · have accepted : HeaderAccepted bytes :=
        { length := whole
          version := version
          words := Nat.le_of_not_lt (mt ofBytes_words_iff.mpr words)
          sum := (same.mp equal).1
          cksum := (same.mp equal).2 }
      rw [if_neg (not_not_intro equal), equal]
      exact ⟨ofBytes bytes, _, rfl, iff_of_true (Bool.eq_false_iff.mpr failed) accepted, fun _ => rfl⟩
    · have refused : ¬ HeaderAccepted bytes :=
        fun accepted => equal (same.mpr ⟨accepted.sum, accepted.cksum⟩)
      rw [if_pos equal]
      exact ⟨_, _, rfl, iff_of_false Bool.noConfusion refused, fun accepted => absurd accepted refused⟩

/-! ## Corrupt headers -/

/-- A header that is accepted is of version four, it is there with its options, and its
checksum is valid; without options, its fields are written back as they were. -/
def AcceptsIntact (header : IPv4Header) (buffers : List (List Byte)) (bytes : List Byte) : Prop :=
  ∀ parsed parser, header.parse (Parser.ofBuffers buffers) = .ok (parsed, parser) →
    parser.hasError = false →
      version bytes = 4 ∧ 5 ≤ headerLength bytes ∧ 4 * headerLength bytes ≤ bytes.length ∧
        InternetChecksum.Valid 0 (bytes.take (4 * headerLength bytes)) ∧
        (headerLength bytes = 5 → ∃ serializer, parsed.serialize {} = .ok serializer ∧
          serializer.finish.flatten = bytes.take 20)

/-- The bytes that the header length announces behind the fixed header. -/
def options (bytes : List Byte) : List Byte := (bytes.drop 20).take (4 * headerLength bytes - 20)

theorem take_headerLength (words : 5 ≤ headerLength bytes) :
    bytes.take (4 * headerLength bytes) = bytes.take 20 ++ options bytes := by
  have split : 4 * headerLength bytes = 20 + (4 * headerLength bytes - 20) := by omega
  rw [split, List.take_add, options]

/-- The words of the whole header: those of the fixed header, and those of the options. -/
theorem weight_header (accepted : HeaderAccepted bytes) :
    InternetChecksum.weight false (bytes.take (4 * headerLength bytes)) =
      InternetChecksum.weight false (bytes.take 20) +
        InternetChecksum.weight false (options bytes) := by
  have even : (bytes.take 20).length.bodd = false := by
    rw [List.length_take, Nat.min_eq_left accepted.length]
    rfl
  rw [take_headerLength accepted.words, InternetChecksum.weight_append_of_even even]

/-- The sum over the whole header is left to the reserved bit and the options. -/
theorem valid_iff (accepted : HeaderAccepted bytes) :
    InternetChecksum.Valid 0 (bytes.take (4 * headerLength bytes)) ↔
      65535 ∣ reserved bytes + InternetChecksum.weight false (options bytes) := by
  have positive := weight_pos { ofBytes bytes with cksum := 0 }
    (ofBytes_version_iff.mpr accepted.version) (ofBytes_cleared_representable bytes)
  have fixed := weight_take accepted.length
  have sum := accepted.sum
  unfold Nat.ModEq at sum
  unfold InternetChecksum.Valid
  rw [weight_header accepted]
  omega

/-- Without the reserved bit, the fields are written as they have been read. -/
theorem bytes_ofBytes (whole : 20 ≤ bytes.length) (clear : reserved bytes = 0) :
    (ofBytes bytes).bytes = bytes.take 20 := by
  have word : (ofBytes bytes).foVal = fragmentWord bytes := by
    rw [← UInt16.toNat_inj, fragmentWord_toNat, clear, Nat.add_zero]
  rw [bytes_eq_layout, word, take_eq_layout whole]
  rfl

theorem serialize_eq {header : IPv4Header} (four : header.ver = 4) :
    ∃ serializer, header.serialize {} = .ok serializer ∧ serializer.finish.flatten = header.bytes := by
  refine ⟨header.writeFields {}, if_neg (not_not_intro four), ?_⟩
  rw [Serializer.finish_flatten, writeFields_contents]
  rfl

/-- The headers that are accepted by mistake announce more bytes than there are, or have
a reserved bit and options that do not add up to zero. -/
theorem acceptsIntact_iff (header : IPv4Header) {buffers : List (List Byte)}
    (chunks : BufferList.Chunks buffers bytes) :
    header.AcceptsIntact buffers bytes ↔
      (HeaderAccepted bytes → 4 * headerLength bytes ≤ bytes.length ∧
        65535 ∣ reserved bytes + InternetChecksum.weight false (options bytes)) := by
  rcases header.parse_spec chunks with ⟨parsed, parser, parse, sound, fields⟩
  constructor
  · intro intact accepted
    rcases intact parsed parser parse (sound.mpr accepted) with ⟨_, _, whole, valid, _⟩
    exact ⟨whole, (valid_iff accepted).mp valid⟩
  · intro condition found after parsing noError
    rw [parse] at parsing
    cases parsing
    have accepted := sound.mp noError
    rcases condition accepted with ⟨whole, divides⟩
    refine ⟨accepted.version, accepted.words, whole, (valid_iff accepted).mpr divides, ?_⟩
    intro noOptions
    have clear : reserved bytes = 0 := by
      have none : options bytes = [] := by
        rw [options, noOptions]
        exact List.take_zero
      have range := (fragmentWord bytes).toNat_lt
      rw [none, InternetChecksum.weight, Nat.add_zero] at divides
      unfold reserved at divides ⊢
      omega
    rw [fields accepted, ← bytes_ofBytes accepted.length clear]
    exact serialize_eq (ofBytes_version_iff.mpr accepted.version)

/-- A header without options whose checksum is right when the given byte in front of the
fragment offset is zero. -/
def withFlags (flags : UInt8) : List Byte :=
  [0x45, 0, 0, 0, 0, 0, flags, 0, 0, 0, 0xba, 0xff] ++ List.replicate 8 0

/-- The header in a string of its own, in front of the payload. -/
theorem acceptsIntact_iff_before_payload :
    AcceptsIntact {} [withFlags 0, [1, 2]] (withFlags 0 ++ [1, 2]) := by
  have chunks : BufferList.Chunks [withFlags 0, [1, 2]] (withFlags 0 ++ [1, 2]) :=
    ⟨by decide, Or.inr (by decide)⟩
  exact (acceptsIntact_iff {} chunks).mpr fun _ => by decide

/-- The reserved bit is not covered by the checksum. -/
theorem reserved_bit_accepted : ¬ AcceptsIntact {} [withFlags 0x80] (withFlags 0x80) := by
  intro intact
  rcases parse_spec {} (BufferList.chunks_single (withFlags 0x80)) with
    ⟨parsed, parser, parse, sound, _⟩
  have accepted : HeaderAccepted (withFlags 0x80) :=
    { length := by decide
      version := by decide
      words := by decide
      sum := by decide
      cksum := by decide }
  rcases intact parsed parser parse (sound.mpr accepted) with ⟨_, _, _, valid, _⟩
  exact absurd valid.2 (by decide)

end IPv4Header
end Rchan
