import Rchan.Wire.Checksum
import Rchan.Wire.Parser

namespace Rchan

/-!
# IPv4 headers and datagrams

A header is written without options, so its length field is written as it is but
the header always takes twenty bytes.  Parsing skips the options that the length
field announces and checks the header checksum by computing it again from the
fields it has read.

Serializing a header of another version than four throws; `Except` carries the
text of the exception.
-/

structure IPv4Header where
  ver : UInt8 := 4
  hlen : UInt8 := 5
  tos : UInt8 := 0
  len : UInt16 := 0
  id : UInt16 := 0
  df : Bool := true
  mf : Bool := false
  offset : UInt16 := 0
  ttl : UInt8 := 128
  proto : UInt8 := 6
  cksum : UInt16 := 0
  src : UInt32 := 0
  dst : UInt32 := 0
  deriving DecidableEq, Repr

namespace IPv4Header

/-- `LENGTH`: the bytes of a header without options. -/
def length : Nat := 20

/-- `PROTO_TCP`. -/
def protoTcp : UInt8 := 6

/-! ## The fields on the wire -/

/-- The version and the header length share a byte. -/
def firstByte (header : IPv4Header) : UInt8 := (header.ver <<< 4) ||| (header.hlen &&& 0x0f)

/-- The fragmentation flags and the fragment offset share two bytes. -/
def foVal (header : IPv4Header) : UInt16 :=
  (if header.df then 0x4000 else 0) ||| (if header.mf then 0x2000 else 0) |||
    (header.offset &&& 0x1fff)

/-- The writes of `serialize`. -/
def writeFields (header : IPv4Header) (serializer : Serializer) : Serializer :=
  let serializer := serializer.integer header.firstByte
  let serializer := serializer.integer header.tos
  let serializer := serializer.integer header.len
  let serializer := serializer.integer header.id
  let serializer := serializer.integer header.foVal
  let serializer := serializer.integer header.ttl
  let serializer := serializer.integer header.proto
  let serializer := serializer.integer header.cksum
  let serializer := serializer.integer header.src
  serializer.integer header.dst

def serialize (header : IPv4Header) (serializer : Serializer) : Except String Serializer :=
  if header.ver ≠ 4 then .error "wrong IP version"
  else .ok (header.writeFields serializer)

/-- The reads of `parse`. -/
def readFields (header : IPv4Header) (parser : Parser) : IPv4Header × Parser :=
  let (firstByte, parser) := parser.integer (0 : UInt8)
  let (tos, parser) := parser.integer header.tos
  let (len, parser) := parser.integer header.len
  let (id, parser) := parser.integer header.id
  let (foVal, parser) := parser.integer (0 : UInt16)
  let (ttl, parser) := parser.integer header.ttl
  let (proto, parser) := parser.integer header.proto
  let (cksum, parser) := parser.integer header.cksum
  let (src, parser) := parser.integer header.src
  let (dst, parser) := parser.integer header.dst
  ({ ver := firstByte >>> 4
     hlen := firstByte &&& 0x0f
     tos
     len
     id
     df := foVal &&& 0x4000 != 0
     mf := foVal &&& 0x2000 != 0
     offset := foVal &&& 0x1fff
     ttl
     proto
     cksum
     src
     dst }, parser)

/-- The twenty bytes of a header. -/
def bytes (header : IPv4Header) : List Byte :=
  BigEndian.bytes header.firstByte ++ (BigEndian.bytes header.tos ++
    (BigEndian.bytes header.len ++ (BigEndian.bytes header.id ++
      (BigEndian.bytes header.foVal ++ (BigEndian.bytes header.ttl ++
        (BigEndian.bytes header.proto ++ (BigEndian.bytes header.cksum ++
          (BigEndian.bytes header.src ++ BigEndian.bytes header.dst))))))))

@[simp] theorem bytes_length (header : IPv4Header) : header.bytes.length = length := by
  simp [bytes, length]

theorem writeFields_contents (header : IPv4Header) (serializer : Serializer) :
    (header.writeFields serializer).contents = serializer.contents ++ header.bytes := by
  simp [writeFields, bytes]

/-- Every field fits into the bits it is written with. -/
structure Representable (header : IPv4Header) : Prop where
  ver : header.ver < 16
  hlen : header.hlen < 16
  offset : header.offset < 0x2000

theorem Representable.firstByte_toNat {header : IPv4Header} (fits : header.Representable) :
    header.firstByte.toNat = header.ver.toNat * 16 + header.hlen.toNat := by
  have ver : header.ver.toNat < 16 := UInt8.lt_iff_toNat_lt.mp fits.ver
  have hlen : header.hlen.toNat < 2 ^ 4 := UInt8.lt_iff_toNat_lt.mp fits.hlen
  have shifted : (header.ver <<< 4).toNat = header.ver.toNat <<< 4 := by
    rw [UInt8.toNat_shiftLeft]
    change header.ver.toNat <<< 4 % 2 ^ 8 = _
    rw [Nat.shiftLeft_eq]
    omega
  have masked : (header.hlen &&& 0x0f).toNat = header.hlen.toNat := by
    rw [UInt8.toNat_and]
    exact (Nat.and_two_pow_sub_one_eq_mod _ 4).trans (Nat.mod_eq_of_lt hlen)
  rw [firstByte, UInt8.toNat_or, shifted, masked, ← Nat.shiftLeft_add_eq_or_of_lt hlen,
    Nat.shiftLeft_eq]

theorem Representable.firstByte_ver {header : IPv4Header} (fits : header.Representable) :
    header.firstByte >>> 4 = header.ver := by
  have hlen : header.hlen.toNat < 16 := UInt8.lt_iff_toNat_lt.mp fits.hlen
  rw [← UInt8.toNat_inj, UInt8.toNat_shiftRight, fits.firstByte_toNat]
  change (header.ver.toNat * 16 + header.hlen.toNat) >>> 4 = _
  rw [Nat.shiftRight_eq_div_pow]
  omega

theorem Representable.firstByte_hlen {header : IPv4Header} (fits : header.Representable) :
    header.firstByte &&& 0x0f = header.hlen := by
  have hlen : header.hlen.toNat < 16 := UInt8.lt_iff_toNat_lt.mp fits.hlen
  rw [← UInt8.toNat_inj, UInt8.toNat_and, fits.firstByte_toNat]
  apply (Nat.and_two_pow_sub_one_eq_mod _ 4).trans
  omega

/-- A mask selects from the flags and from the offset separately. -/
theorem foVal_and (header : IPv4Header) (mask : UInt16) :
    header.foVal &&& mask =
      ((if header.df then 0x4000 else 0) ||| (if header.mf then 0x2000 else 0)) &&& mask |||
        header.offset &&& (0x1fff &&& mask) := by
  apply UInt16.toBitVec_inj.mp
  simp only [foVal, UInt16.toBitVec_and, UInt16.toBitVec_or, BitVec.and_or_distrib_right,
    BitVec.and_assoc]

theorem foVal_df (header : IPv4Header) : (header.foVal &&& 0x4000 != 0) = header.df := by
  have disjoint : (0x1fff &&& 0x4000 : UInt16) = 0 := rfl
  rw [foVal_and, disjoint, UInt16.and_zero, UInt16.or_zero]
  cases header.df <;> cases header.mf <;> rfl

theorem foVal_mf (header : IPv4Header) : (header.foVal &&& 0x2000 != 0) = header.mf := by
  have disjoint : (0x1fff &&& 0x2000 : UInt16) = 0 := rfl
  rw [foVal_and, disjoint, UInt16.and_zero, UInt16.or_zero]
  cases header.df <;> cases header.mf <;> rfl

theorem Representable.foVal_offset {header : IPv4Header} (fits : header.Representable) :
    header.foVal &&& 0x1fff = header.offset := by
  have offset : header.offset.toNat < 2 ^ 13 := UInt16.lt_iff_toNat_lt.mp fits.offset
  have flags : ((if header.df then 0x4000 else 0) ||| (if header.mf then 0x2000 else 0)) &&& 0x1fff =
      (0 : UInt16) := by
    cases header.df <;> cases header.mf <;> rfl
  rw [foVal_and, flags, UInt16.zero_or, ← UInt16.toNat_inj, UInt16.toNat_and]
  exact (Nat.and_two_pow_sub_one_eq_mod _ 13).trans (Nat.mod_eq_of_lt offset)

/-- Reading a header that has been written gives the header back. -/
theorem Representable.readFields {header : IPv4Header} (fits : header.Representable)
    {parser : Parser} {rest : List Byte} (view : parser.Views (header.bytes ++ rest))
    (old : IPv4Header) :
    ∃ next, old.readFields parser = (header, next) ∧ next.Views rest := by
  simp only [bytes, List.append_assoc] at view
  rcases view.integer_bytes 0 with ⟨afterFirst, first, view⟩
  rcases view.integer_bytes old.tos with ⟨afterTos, tos, view⟩
  rcases view.integer_bytes old.len with ⟨afterLen, len, view⟩
  rcases view.integer_bytes old.id with ⟨afterId, id, view⟩
  rcases view.integer_bytes 0 with ⟨afterFoVal, foVal, view⟩
  rcases view.integer_bytes old.ttl with ⟨afterTtl, ttl, view⟩
  rcases view.integer_bytes old.proto with ⟨afterProto, proto, view⟩
  rcases view.integer_bytes old.cksum with ⟨afterCksum, cksum, view⟩
  rcases view.integer_bytes old.src with ⟨afterSrc, src, view⟩
  rcases view.integer_bytes old.dst with ⟨afterDst, dst, view⟩
  refine ⟨afterDst, ?_, view⟩
  simp only [IPv4Header.readFields, first, tos, len, id, foVal, ttl, proto, cksum, src, dst,
    fits.firstByte_ver, fits.firstByte_hlen, foVal_df, foVal_mf, fits.foVal_offset]

/-! ## Lengths and checksums -/

def payloadLength (header : IPv4Header) : UInt16 := header.len - 4 * header.hlen.toUInt16

/-- `pseudo_checksum`, too small to leave the 32 bits of the source. -/
def pseudoChecksum (header : IPv4Header) : Nat :=
  let pcksum := (header.src >>> 16).toNat + header.src.toUInt16.toNat
  let pcksum := pcksum + ((header.dst >>> 16).toNat + header.dst.toUInt16.toNat)
  let pcksum := pcksum + header.proto.toNat
  pcksum + header.payloadLength.toNat

/-- `compute_checksum`: the checksum of the header with the field cleared. -/
def computeChecksum (header : IPv4Header) : Except String IPv4Header := do
  let serializer ← serialize { header with cksum := 0 } {}
  let check : InternetChecksum := {}
  return { header with cksum := (check.addAll serializer.finish).value }

def parse (header : IPv4Header) (parser : Parser) : Except String (IPv4Header × Parser) :=
  let (header, parser) := header.readFields parser
  let parser := if header.ver ≠ 4 then parser.setError else parser
  let parser := if header.hlen < 5 then parser.setError else parser
  if parser.hasError then .ok (header, parser)
  else do
    let parser := parser.removePrefix (Word.sub 64 (header.hlen.toNat * 4) length)
    let computed ← header.computeChecksum
    return (computed, if computed.cksum ≠ header.cksum then parser.setError else parser)

theorem pseudoChecksum_le (header : IPv4Header) : header.pseudoChecksum ≤ 5 * 65535 + 255 := by
  have high : ∀ address : UInt32, (address >>> 16).toNat ≤ 65535 := by
    intro address
    have range := address.toNat_lt
    rw [UInt32.toNat_shiftRight]
    change address.toNat >>> 16 ≤ 65535
    rw [Nat.shiftRight_eq_div_pow]
    omega
  have low : ∀ word : UInt16, word.toNat ≤ 65535 := fun word => Nat.le_of_lt_succ word.toNat_lt
  have srcHigh := high header.src
  have srcLow := low header.src.toUInt16
  have dstHigh := high header.dst
  have dstLow := low header.dst.toUInt16
  have proto := header.proto.toNat_lt
  have payload := low header.payloadLength
  simp only [pseudoChecksum]
  omega

/-- The checksum that belongs into a header. -/
def checksum (header : IPv4Header) : UInt16 :=
  (InternetChecksum.add {} ({ header with cksum := 0 }).bytes).value

/-- The checksum field does not count towards the checksum. -/
theorem checksum_of_sealed (header : IPv4Header) (cksum : UInt16) :
    checksum { header with cksum } = header.checksum := rfl

theorem pseudoChecksum_of_sealed (header : IPv4Header) (cksum : UInt16) :
    pseudoChecksum { header with cksum } = header.pseudoChecksum := rfl

theorem computeChecksum_eq {header : IPv4Header} (version : header.ver = 4) :
    header.computeChecksum = .ok { header with cksum := header.checksum } := by
  have written : serialize { header with cksum := 0 } {} =
      .ok (writeFields { header with cksum := 0 } {}) := if_neg (not_not_intro version)
  have empty : ({} : Serializer).contents = [] := rfl
  unfold computeChecksum
  rw [written]
  simp only [bind, Except.bind, pure, Except.pure, InternetChecksum.addAll_eq,
    Serializer.finish_flatten, writeFields_contents, empty, List.nil_append]
  rfl

/-- A header of version four with its checksum and at most the announced options
is accepted. -/
theorem Representable.parse {header : IPv4Header} (fits : header.Representable)
    (version : header.ver = 4) (words : 5 ≤ header.hlen) (sum : header.cksum = header.checksum)
    {parser : Parser} {rest : List Byte} (view : parser.Views (header.bytes ++ rest))
    (old : IPv4Header) :
    ∃ next, old.parse parser = .ok (header, next) ∧
      next.Views (rest.drop (header.hlen.toNat * 4 - length)) := by
  rcases fits.readFields view old with ⟨next, read, after⟩
  have enough : ¬ header.hlen < 5 := UInt8.not_lt.mpr words
  have atLeast : 5 ≤ header.hlen.toNat := UInt8.le_iff_toNat_le.mp words
  have atMost : header.hlen.toNat < 16 := UInt8.lt_iff_toNat_lt.mp fits.hlen
  have skipped : Word.sub 64 (header.hlen.toNat * 4) length = header.hlen.toNat * 4 - length := by
    apply Word.sub_of_le
    · unfold length
      omega
    · omega
  refine ⟨_, ?_, after.removePrefix _⟩
  have isFour : ¬ header.ver ≠ 4 := not_not_intro version
  have sound : ¬ next.hasError = true := by
    rw [Parser.hasError, after.sound]
    exact Bool.false_ne_true
  have same : ¬ header.checksum ≠ header.cksum := not_not_intro sum.symm
  unfold IPv4Header.parse
  simp only [read]
  rw [if_neg isFour, if_neg enough, if_neg sound, computeChecksum_eq version, skipped]
  simp only [bind, Except.bind, pure, Except.pure]
  rw [if_neg same, ← sum]

end IPv4Header

/-! ## Datagrams -/

structure IPv4Datagram where
  header : IPv4Header := {}
  payload : List (List Byte) := []
  deriving DecidableEq, Repr

namespace IPv4Datagram

def parse (dgram : IPv4Datagram) (parser : Parser) : Except String (IPv4Datagram × Parser) := do
  let (header, parser) ← dgram.header.parse parser
  let (payload, parser) := parser.allRemaining
  return ({ header, payload }, parser)

def serialize (dgram : IPv4Datagram) (serializer : Serializer) : Except String Serializer := do
  let serializer ← dgram.header.serialize serializer
  return dgram.payload.foldl Serializer.string serializer

/-- The helper `parse` applied to a new datagram: the datagram, if it has no error. -/
def ofBuffers (buffers : List (List Byte)) : Except String (Option IPv4Datagram) := do
  let (dgram, parser) ← parse {} (Parser.ofBuffers buffers)
  return if parser.hasError then none else some dgram

/-- The helper `serialize`. -/
def toBuffers (dgram : IPv4Datagram) : Except String (List (List Byte)) := do
  let serializer ← dgram.serialize {}
  return serializer.finish

/-- The strings of a serialized datagram are together its header and its payload. -/
theorem toBuffers_flatten {dgram : IPv4Datagram} (version : dgram.header.ver = 4) :
    ∃ strings, dgram.toBuffers = .ok strings ∧
      strings.flatten = dgram.header.bytes ++ dgram.payload.flatten := by
  have payload : ∀ (strings : List (List Byte)) (serializer : Serializer),
      (strings.foldl Serializer.string serializer).contents =
        serializer.contents ++ strings.flatten := by
    intro strings
    induction strings with
    | nil => simp
    | cons first rest ih =>
        intro serializer
        rw [List.foldl_cons, ih, Serializer.string_contents, List.flatten_cons, List.append_assoc]
  have written : dgram.header.serialize {} = .ok (dgram.header.writeFields {}) :=
    if_neg (not_not_intro version)
  refine ⟨(dgram.payload.foldl Serializer.string (dgram.header.writeFields {})).finish, ?_, ?_⟩
  · unfold toBuffers serialize
    rw [written]
    rfl
  · rw [Serializer.finish_flatten, payload, IPv4Header.writeFields_contents]
    rfl

/-- A datagram without options is parsed into its header and its payload, in any
division into nonempty strings. -/
theorem ofBuffers_eq {header : IPv4Header} (fits : header.Representable)
    (version : header.ver = 4) (words : header.hlen = 5) (sum : header.cksum = header.checksum)
    {buffers : List (List Byte)} (strings : ∀ str ∈ buffers, str ≠ []) {rest : List Byte}
    (content : buffers.flatten = header.bytes ++ rest) :
    ∃ payload, ofBuffers buffers = .ok (some { header, payload }) ∧
      payload.flatten = rest ∧ ∀ str ∈ payload, str ≠ [] := by
  have view := Parser.ofBuffers_views strings
  rw [content] at view
  rcases fits.parse version (by rw [words]; decide) sum view {} with ⟨next, parsed, after⟩
  rw [words] at after
  refine ⟨next.allRemaining.1, ?_, after.allRemaining_flatten, after.allRemaining_strings⟩
  unfold ofBuffers IPv4Datagram.parse
  simp only [parsed, bind, Except.bind, pure, Except.pure]
  rw [Parser.allRemaining, Parser.hasError, after.sound]
  rfl

end IPv4Datagram

end Rchan
