import Rchan.Foundation.Fallible
import Rchan.Wire.Corruption
import Rchan.Wire.IPv4Format
import Rchan.Wire.RoundTrip

namespace Rchan

/-!
# Corrupted datagrams

A datagram is covered by two checksums, one for its header and one for the segment it
carries, so a flipped bit is noticed wherever it is, with one exception.  The reserved
bit in front of the fragmentation flags becomes no field, and the header checksum is
computed from the fields; a datagram with that bit flipped is taken as if it were not.
-/

open SocketAddress

/-- A field is not changed by a bit outside of it. -/
theorem BigEndian.field_flipBit (T : Type) [UnsignedIntegral T] (bytes : List Byte)
    {offset position : Nat} (bit : Nat)
    (outside : position < offset ∨ offset + UnsignedIntegral.size T ≤ position) :
    BigEndian.field T (flipBit bytes position bit) offset = BigEndian.field T bytes offset := by
  unfold BigEndian.field flipBit
  rcases outside with before | behind
  · rw [List.drop_modify_of_lt _ _ _ _ before]
  · rw [List.drop_modify_of_ge _ _ _ _ (by omega), List.take_modify, List.modify_eq_self]
    rw [List.length_take]
    omega

theorem take_flipBit (bytes : List Byte) (count position bit : Nat) :
    (flipBit bytes position bit).take count = flipBit (bytes.take count) position bit :=
  List.take_modify _ _ _ _

theorem flipBit_append_right (first second : List Byte) {position : Nat}
    (behind : first.length ≤ position) (inside : position < first.length + second.length)
    (bit : Nat) :
    flipBit (first ++ second) position bit =
      first ++ flipBit second (position - first.length) bit := by
  have place : position - first.length < second.length := by omega
  have next : position + 1 - first.length = position - first.length + 1 := by omega
  unfold flipBit
  rw [List.modify_eq_take_cons_drop (by rw [List.length_append]; exact inside),
    List.modify_eq_take_cons_drop place, List.getElem_append_right behind, List.take_append,
    List.take_of_length_le behind, List.drop_append, List.drop_of_length_le (by omega), next,
    List.append_assoc, List.nil_append]

namespace IPv4Header

variable {bytes : List Byte} {position bit : Nat}

/-! ## The reserved bit -/

theorem fragmentWord_eq (bytes : List Byte) (whole : 8 ≤ bytes.length) :
    (fragmentWord bytes).toNat = (bytes.getD 6 0).toNat * 256 + (bytes.getD 7 0).toNat := by
  have two : (bytes.drop 6).take 2 = [bytes.getD 6 0, bytes.getD 7 0] := by
    rw [List.drop_eq_getElem_cons (by omega : 6 < bytes.length), List.take_succ_cons,
      List.drop_eq_getElem_cons (by omega : 6 + 1 < bytes.length), List.take_succ_cons,
      List.take_zero, List.getD_eq_getElem _ _ (by omega), List.getD_eq_getElem _ _ (by omega)]
  have high := (bytes.getD 6 0).toNat_lt
  have low := (bytes.getD 7 0).toNat_lt
  unfold fragmentWord BigEndian.field
  rw [UnsignedIntegral.size_uInt16, two]
  change (UInt16.ofNat _).toNat = _
  rw [UInt16.toNat_ofNat', BigEndian.decode, BigEndian.decode, BigEndian.decode]
  simp only [List.length_cons, List.length_nil]
  omega

theorem getD_flipBit (whole : position < bytes.length) (range : bit < 8) (index : Nat) :
    ((flipBit bytes position bit).getD index 0).toNat =
      if position = index then (bytes.getD index 0).toNat ^^^ 2 ^ bit
      else (bytes.getD index 0).toNat := by
  by_cases same : position = index
  · subst same
    rw [if_pos rfl, List.getD_eq_getElem _ _ (by rw [flipBit_length]; exact whole),
      List.getD_eq_getElem _ _ whole]
    simp only [flipBit, List.getElem_modify_eq]
    exact flipped_byte _ range
  · rw [if_neg same, List.getD_eq_getElem?_getD, List.getD_eq_getElem?_getD, flipBit,
      List.getElem?_modify_ne _ _ same]

/-- Only one bit of a header is the reserved one. -/
theorem reserved_flipBit (whole : 8 ≤ bytes.length) (inside : position < bytes.length)
    (range : bit < 8) (other : ¬ (position = 6 ∧ bit = 7)) :
    reserved (flipBit bytes position bit) = reserved bytes := by
  have low := (bytes.getD 7 0).toNat_lt
  have lowAfter := ((flipBit bytes position bit).getD 7 0).toNat_lt
  have high : ((flipBit bytes position bit).getD 6 0).toNat / 2 ^ 7 =
      (bytes.getD 6 0).toNat / 2 ^ 7 := by
    rw [getD_flipBit inside range]
    split
    · rename_i same
      have lower : 2 ^ bit < 2 ^ 7 := Nat.pow_lt_pow_right (by decide) (by omega)
      rw [Nat.xor_div_two_pow, Nat.div_eq_of_lt lower, Nat.xor_zero]
    · rfl
  have before := fragmentWord_eq bytes whole
  have after := fragmentWord_eq (flipBit bytes position bit)
    (by rw [flipBit_length]; exact whole)
  unfold reserved
  omega

/-- The fields do not tell the reserved bit. -/
theorem ofBytes_flipReserved (whole : 20 ≤ bytes.length) :
    ofBytes (flipBit bytes 6 7) = ofBytes bytes := by
  have word : fragmentWord (flipBit bytes 6 7) &&& 0x7fff = fragmentWord bytes &&& 0x7fff := by
    have high : ((flipBit bytes 6 7).getD 6 0).toNat % 2 ^ 7 = (bytes.getD 6 0).toNat % 2 ^ 7 := by
      rw [getD_flipBit (by omega) (by decide), if_pos rfl, Nat.xor_mod_two_pow, Nat.mod_self,
        Nat.xor_zero]
    have low : ((flipBit bytes 6 7).getD 7 0).toNat = (bytes.getD 7 0).toNat := by
      rw [getD_flipBit (by omega) (by decide), if_neg (by decide)]
    have before := fragmentWord_eq bytes (by omega)
    have after := fragmentWord_eq (flipBit bytes 6 7)
      (by rw [flipBit_length]; omega)
    rw [← UInt16.toNat_inj, UInt16.toNat_and, UInt16.toNat_and]
    have masked : ∀ value : Nat, value &&& (0x7fff : UInt16).toNat = value % 2 ^ 15 :=
      fun value => Nat.and_two_pow_sub_one_eq_mod value 15
    rw [masked, masked, before, after, low]
    omega
  have part : ∀ mask : UInt16, mask = 0x7fff &&& mask →
      fragmentWord (flipBit bytes 6 7) &&& mask = fragmentWord bytes &&& mask := by
    intro mask inside
    rw [inside, ← UInt16.and_assoc, word, UInt16.and_assoc]
  unfold ofBytes
  rw [part 0x4000 (by decide), part 0x2000 (by decide), part 0x1fff (by decide),
    BigEndian.field_flipBit UInt8 bytes 7 (Or.inr (by decide)),
    BigEndian.field_flipBit UInt8 bytes 7 (Or.inr (by decide)),
    BigEndian.field_flipBit UInt16 bytes 7 (Or.inr (by decide)),
    BigEndian.field_flipBit UInt16 bytes 7 (Or.inr (by decide)),
    BigEndian.field_flipBit UInt8 bytes 7 (Or.inl (by decide)),
    BigEndian.field_flipBit UInt8 bytes 7 (Or.inl (by decide)),
    BigEndian.field_flipBit UInt16 bytes 7 (Or.inl (by decide)),
    BigEndian.field_flipBit UInt32 bytes 7 (Or.inl (by decide)),
    BigEndian.field_flipBit UInt32 bytes 7 (Or.inl (by decide))]

/-! ## The header checksum -/

/-- Any other flipped bit of an accepted header makes its sum wrong. -/
theorem HeaderAccepted.flipBit_refused (accepted : HeaderAccepted bytes) (inside : position < 20)
    (range : bit < 8) (other : ¬ (position = 6 ∧ bit = 7)) :
    ¬ HeaderAccepted (flipBit bytes position bit) := by
  intro alsoAccepted
  have whole := accepted.length
  have width : position < (bytes.take 20).length := by
    rw [List.length_take]
    omega
  rcases InternetChecksum.weight_flipBit false width range with ⟨place, low, differ⟩
  have small : 2 ^ place ≤ 2 ^ 15 := Nat.pow_le_pow_right (by decide) (by omega)
  have positive := Nat.two_pow_pos place
  have before := accepted.sum
  have after := alsoAccepted.sum
  rw [take_flipBit, reserved_flipBit (by omega) (by omega) range other] at after
  unfold Nat.ModEq at before after
  unfold InternetChecksum.DifferBy at differ
  omega

theorem HeaderAccepted.flipReserved (accepted : HeaderAccepted bytes) :
    HeaderAccepted (flipBit bytes 6 7) := by
  have whole := accepted.length
  have length : 20 ≤ (flipBit bytes 6 7).length := by
    rw [flipBit_length]
    exact whole
  have first : BigEndian.field UInt8 (flipBit bytes 6 7) 0 = BigEndian.field UInt8 bytes 0 :=
    BigEndian.field_flipBit UInt8 bytes 7 (Or.inr (by decide))
  have cksum : BigEndian.field UInt16 (flipBit bytes 6 7) 10 = BigEndian.field UInt16 bytes 10 :=
    BigEndian.field_flipBit UInt16 bytes 7 (Or.inl (by decide))
  refine {
    length := length
    version := ?_
    words := ?_
    sum := ?_
    cksum := by rw [cksum]; exact accepted.cksum }
  · rw [IPv4Header.version, first]
    exact accepted.version
  · rw [headerLength, first]
    exact accepted.words
  · have before := weight_take whole
    have after := weight_take length
    have sum := accepted.sum
    rw [ofBytes_flipReserved whole, cksum] at after
    unfold Nat.ModEq at sum ⊢
    omega

/-- What an accepted header leaves to be parsed. -/
theorem parse_of_accepted (header : IPv4Header) {buffers : List (List Byte)}
    (chunks : BufferList.Chunks buffers bytes) (accepted : HeaderAccepted bytes) :
    ∃ next, header.parse (Parser.ofBuffers buffers) = .ok (ofBytes bytes, next) ∧
      next.error = false ∧
      next.input.Holds ((bytes.drop 20).drop (4 * headerLength bytes - 20)) := by
  rcases header.readFields_spec chunks with ⟨ahead, fields⟩
  rcases header.parse_spec chunks with ⟨parsed, next, parse, sound, same⟩
  have noError := sound.mpr accepted
  rw [same accepted] at parse
  refine ⟨next, parse, noError, ?_⟩
  have read := fields accepted.length
  have holds := ahead.holds accepted.length
  have skipped : Word.sub 64 ((ofBytes bytes).hlen.toNat * 4) length =
      4 * headerLength bytes - 20 := by
    have words := accepted.words
    have small : headerLength bytes < 16 := Nat.mod_lt _ (by decide)
    rw [ofBytes_hlen, length, Nat.mul_comm]
    exact Word.sub_of_le (by omega) (by omega)
  unfold IPv4Header.parse at parse
  rw [← skipped]
  generalize header.readFields (Parser.ofBuffers buffers) = result at parse read holds
  rcases result with ⟨found, parser⟩
  dsimp only at parse read holds
  subst read
  have four := ofBytes_version_iff.mpr accepted.version
  have words := mt ofBytes_words_iff.mp (Nat.not_lt.mpr accepted.words)
  rw [if_neg (not_not_intro four), if_neg words] at parse
  split at parse
  · rename_i failed
    have parts := Prod.mk.inj (Except.ok.inj parse)
    rw [← parts.2, failed] at noError
    cases noError
  · rcases Fallible.bind_eq_ok parse with ⟨computed, _, parse⟩
    have parts := Prod.mk.inj (Fallible.pure_eq_ok parse)
    rw [← parts.2]
    split <;> exact holds.removePrefix _

end IPv4Header

/-! ## Segments -/

namespace TCPSegment

theorem HeaderAccepted.flipBit_refused {bytes : List Byte} {seed position bit : Nat}
    (accepted : HeaderAccepted bytes seed) (inside : position < bytes.length) (range : bit < 8) :
    ¬ HeaderAccepted (flipBit bytes position bit) seed := by
  rcases InternetChecksum.weight_flipBit false inside range with ⟨place, low, differ⟩
  have small : 2 ^ place ≤ 2 ^ 15 := Nat.pow_le_pow_right (by decide) (by omega)
  intro alsoAccepted
  exact accepted.valid.not_valid_of_differ (Nat.two_pow_pos place) (by omega) differ
    alsoAccepted.valid

theorem ofBuffers_eq_none_iff {bytes : List Byte} {seed : Nat} {buffers : List (List Byte)}
    (chunks : BufferList.Chunks buffers bytes)
    (fits : seed + InternetChecksum.weight false bytes < 2 ^ 32) :
    ofBuffers buffers seed = none ↔ ¬ HeaderAccepted bytes seed := by
  rw [← (parse_spec {} chunks fits).1, Bool.not_eq_false, ofBuffers]
  split <;> simp_all

end TCPSegment

/-! ## Datagrams -/

namespace IPv4Datagram

theorem ofBuffers_of_refused {bytes : List Byte} {buffers : List (List Byte)}
    (chunks : BufferList.Chunks buffers bytes) (refused : ¬ IPv4Header.HeaderAccepted bytes) :
    ofBuffers buffers = .ok none := by
  rcases IPv4Header.parse_spec {} chunks with ⟨parsed, next, parse, sound, -⟩
  have failed : next.hasError = true := by
    by_contra passed
    exact refused (sound.mp (by simpa using passed))
  unfold ofBuffers IPv4Datagram.parse
  simp only [parse, bind, Except.bind, pure, Except.pure]
  rw [Parser.hasError] at failed ⊢
  simp only [Parser.allRemaining, failed, if_true]

theorem ofBuffers_of_accepted {bytes : List Byte} {buffers : List (List Byte)}
    (chunks : BufferList.Chunks buffers bytes) (accepted : IPv4Header.HeaderAccepted bytes)
    (rest : (bytes.drop 20).drop (4 * IPv4Header.headerLength bytes - 20) ≠ []) :
    ∃ payload, ofBuffers buffers = .ok (some { header := IPv4Header.ofBytes bytes, payload }) ∧
      payload.flatten = (bytes.drop 20).drop (4 * IPv4Header.headerLength bytes - 20) ∧
      ∀ str ∈ payload, str ≠ [] := by
  rcases IPv4Header.parse_of_accepted {} chunks accepted with ⟨next, parse, sound, holds⟩
  have view : next.Views ((bytes.drop 20).drop (4 * IPv4Header.headerLength bytes - 20)) :=
    { solid := holds.solid rest
      contents := holds.intact.contents
      sound := sound }
  refine ⟨next.allRemaining.1, ?_, view.allRemaining_flatten, view.allRemaining_strings⟩
  unfold ofBuffers IPv4Datagram.parse
  simp only [parse, bind, Except.bind, pure, Except.pure]
  rw [Parser.allRemaining, Parser.hasError, sound]
  rfl

end IPv4Datagram

namespace TCPOverIPv4Adapter

variable {Address : Type} [SocketAddress Address]

/-- A string that is longer than a header is split into two that are not empty. -/
theorem splitHeader_chunks (bytes : List Byte) (long : 20 < bytes.length) :
    BufferList.Chunks (splitHeader bytes) bytes ∧ ∀ str ∈ splitHeader bytes, str ≠ [] := by
  have nonempty : ∀ str ∈ splitHeader bytes, str ≠ [] := by
    intro str member
    apply List.ne_nil_of_length_pos
    rcases List.mem_cons.mp member with rfl | member
    · rw [List.length_take, IPv4Header.length]
      omega
    · cases List.mem_singleton.mp member
      rw [List.length_drop, IPv4Header.length]
      omega
  refine ⟨⟨?_, Or.inr nonempty⟩, nonempty⟩
  rw [splitHeader, List.flatten_cons, List.flatten_singleton, List.take_append_drop]

/-- The header that is sent with a message. -/
def sealedHeader (adapter : TCPOverIPv4Adapter Address) (message : TCPMessage) : IPv4Header :=
  { adapter.headerOf message with cksum := (adapter.headerOf message).checksum }

/-- The segment that is sent with a message. -/
def sealedSegment (adapter : TCPOverIPv4Adapter Address) (message : TCPMessage) : TCPSegment :=
  (adapter.segmentOf message).computeChecksum (adapter.headerOf message).pseudoChecksum

theorem sealedHeader_pseudoChecksum (adapter : TCPOverIPv4Adapter Address) (message : TCPMessage) :
    (adapter.sealedHeader message).pseudoChecksum = (adapter.headerOf message).pseudoChecksum :=
  IPv4Header.pseudoChecksum_of_sealed _ _

/-- The segment of a message is parsed back from any strings that make it up. -/
theorem ofBuffers_sealedSegment (adapter : TCPOverIPv4Adapter Address) {message : TCPMessage}
    (size : message.sender.payload.length ≤ 65495) {buffers : List (List Byte)}
    (strings : ∀ str ∈ buffers, str ≠ [])
    (content : buffers.flatten = (adapter.sealedSegment message).bytes) :
    TCPSegment.ofBuffers buffers (adapter.sealedHeader message).pseudoChecksum =
      some { adapter.sealedSegment message with message := message.carried } := by
  unfold sealedSegment at content ⊢
  rw [adapter.sealedHeader_pseudoChecksum,
    TCPSegment.ofBuffers_computeChecksum (adapter.segmentOf_fits size) strings content]
  rfl

/-- The bytes of a datagram on the wire. -/
def datagramOf (adapter : TCPOverIPv4Adapter Address) (message : TCPMessage) : List Byte :=
  (adapter.sealedHeader message).bytes ++ (adapter.sealedSegment message).bytes

variable (sender receiver : TCPOverIPv4Adapter Address) {message : TCPMessage}

theorem datagramOf_length (message : TCPMessage) :
    (sender.datagramOf message).length = 40 + message.sender.payload.length := by
  rw [datagramOf, List.length_append, IPv4Header.bytes_length, TCPSegment.bytes_length]
  change 20 + (20 + message.sender.payload.length) = _
  omega

theorem wrapTcpInIp_buffers (message : TCPMessage) :
    ∃ ipDgram strings, sender.wrapTcpInIp message = .ok ipDgram ∧
      ipDgram.toBuffers = .ok strings ∧ strings.flatten = sender.datagramOf message := by
  rcases IPv4Datagram.toBuffers_flatten
    (rfl : ({ header := sender.sealedHeader message
              payload := (sender.sealedSegment message).toBuffers } : IPv4Datagram).header.ver = 4)
    with ⟨strings, serialized, content⟩
  rw [TCPSegment.toBuffers_flatten] at content
  exact ⟨_, strings, sender.wrapTcpInIp_eq message, serialized, content⟩

theorem write_eq (message : TCPMessage) :
    sender.write message = .ok (sender.datagramOf message) := by
  rcases sender.wrapTcpInIp_buffers message with ⟨ipDgram, strings, wrapped, serialized, content⟩
  rw [write, Fallible.bind_of_ok wrapped, Fallible.bind_of_ok serialized, ← content]
  rfl

/-- The header of a datagram, before any payload. -/
theorem ofBuffers_sealed (message : TCPMessage) {buffers : List (List Byte)}
    (strings : ∀ str ∈ buffers, str ≠ []) {rest : List Byte}
    (content : buffers.flatten = (sender.sealedHeader message).bytes ++ rest) :
    ∃ payload, IPv4Datagram.ofBuffers buffers =
        .ok (some { header := sender.sealedHeader message, payload }) ∧
      payload.flatten = rest ∧ ∀ str ∈ payload, str ≠ [] := by
  refine IPv4Datagram.ofBuffers_eq ?_ rfl rfl ?_ strings content
  · exact {
      ver := (by decide : (4 : UInt8) < 16)
      hlen := (by decide : (5 : UInt8) < 16)
      offset := (by decide : (0 : UInt16) < 0x2000) }
  · exact (IPv4Header.checksum_of_sealed _ _).symm

/-- Only the header and the segment of a datagram matter. -/
theorem unwrapTcpInIp_congr {first second : IPv4Datagram} (header : first.header = second.header)
    (segment : first.tcpSegment = second.tcpSegment) :
    receiver.unwrapTcpInIp first = receiver.unwrapTcpInIp second := by
  unfold IPv4Datagram.tcpSegment at segment
  unfold unwrapTcpInIp
  rw [header] at segment ⊢
  by_cases tcp : second.header.proto = IPv4Header.protoTcp
  · rw [if_pos tcp, if_pos tcp] at segment
    simp only [segment]
  · simp only [if_pos tcp]

theorem readBuffers_of_none {strs : List (List Byte)}
    (refused : IPv4Datagram.ofBuffers strs = .ok none) :
    receiver.readBuffers strs = .ok (receiver, none) := by
  rw [readBuffers, Fallible.bind_of_ok refused]
  rfl

theorem readBuffers_of_some {strs : List (List Byte)} {dgram : IPv4Datagram}
    (parsed : IPv4Datagram.ofBuffers strs = .ok (some dgram)) :
    receiver.readBuffers strs = .ok (receiver.unwrapTcpInIp dgram) := by
  rw [readBuffers, Fallible.bind_of_ok parsed]
  rfl

/-- The header of a datagram is accepted, and read as it has been written. -/
theorem datagramOf_accepted (message : TCPMessage) :
    IPv4Header.HeaderAccepted (sender.datagramOf message) ∧
      IPv4Header.ofBytes (sender.datagramOf message) = sender.sealedHeader message := by
  have total := sender.datagramOf_length message
  rcases splitHeader_chunks (sender.datagramOf message) (by omega) with ⟨chunks, strings⟩
  rcases sender.ofBuffers_sealed message strings chunks.1 with ⟨payload, parsed, -, -⟩
  have accepted : IPv4Header.HeaderAccepted (sender.datagramOf message) := by
    by_contra refused
    rw [IPv4Datagram.ofBuffers_of_refused chunks refused] at parsed
    cases parsed
  rcases IPv4Header.parse_of_accepted {} chunks accepted with ⟨next, parse, sound, -⟩
  refine ⟨accepted, ?_⟩
  unfold IPv4Datagram.ofBuffers IPv4Datagram.parse at parsed
  simp only [parse, bind, Except.bind, pure, Except.pure] at parsed
  split at parsed
  · cases parsed
  · exact congrArg IPv4Datagram.header (Option.some.inj (Except.ok.inj parsed))

/-- What is parsed from the bytes of a datagram, also if the reserved bit is flipped. -/
theorem ofBuffers_datagramOf (size : message.sender.payload.length ≤ 65495) {bytes : List Byte}
    (arrived : bytes = sender.datagramOf message ∨
      bytes = flipBit (sender.datagramOf message) 6 7) :
    ∃ dgram, IPv4Datagram.ofBuffers (splitHeader bytes) = .ok (some dgram) ∧
      dgram.header = sender.sealedHeader message ∧
      dgram.tcpSegment =
        some { sender.sealedSegment message with message := message.carried } := by
  rcases sender.datagramOf_accepted message with ⟨accepted, fields⟩
  have total := sender.datagramOf_length message
  have alike : IPv4Header.HeaderAccepted bytes ∧
      IPv4Header.ofBytes bytes = sender.sealedHeader message ∧
      bytes.length = 40 + message.sender.payload.length ∧
      bytes.drop 20 = (sender.sealedSegment message).bytes := by
    have behind : (sender.datagramOf message).drop 20 = (sender.sealedSegment message).bytes :=
      List.drop_left' (IPv4Header.bytes_length _)
    rcases arrived with rfl | rfl
    · exact ⟨accepted, fields, total, behind⟩
    · refine ⟨accepted.flipReserved, ?_, (flipBit_length _ _ _).trans total, ?_⟩
      · rw [IPv4Header.ofBytes_flipReserved (by omega), fields]
      · rw [flipBit, List.drop_modify_of_lt _ _ _ _ (by decide), behind]
  rcases alike with ⟨accepted, fields, length, behind⟩
  rcases splitHeader_chunks bytes (by omega) with ⟨chunks, -⟩
  have words : IPv4Header.headerLength bytes = 5 := by
    rw [← IPv4Header.ofBytes_hlen, fields]
    rfl
  have left : (bytes.drop 20).drop (4 * IPv4Header.headerLength bytes - 20) =
      (sender.sealedSegment message).bytes := by
    rw [words, behind]
    exact List.drop_zero
  have nonempty : (sender.sealedSegment message).bytes ≠ [] := by
    apply List.ne_nil_of_length_pos
    rw [TCPSegment.bytes_length]
    omega
  rcases IPv4Datagram.ofBuffers_of_accepted chunks accepted (left.symm ▸ nonempty) with
    ⟨payload, parsed, content, strings⟩
  rw [left] at content
  refine ⟨_, parsed, fields, ?_⟩
  have tcp : (IPv4Header.ofBytes bytes).proto = IPv4Header.protoTcp := by
    rw [fields]
    rfl
  rw [IPv4Datagram.tcpSegment_of_tcp tcp]
  dsimp only
  rw [fields]
  exact sender.ofBuffers_sealedSegment size strings content

/-- A flipped bit in the segment is noticed by the checksum of the segment. -/
theorem ofBuffers_flipped_segment (size : message.sender.payload.length ≤ 65495)
    {position bit : Nat} (behind : 20 ≤ position)
    (inside : position < (sender.datagramOf message).length) (range : bit < 8) :
    ∃ dgram, IPv4Datagram.ofBuffers
        (splitHeader (flipBit (sender.datagramOf message) position bit)) = .ok (some dgram) ∧
      dgram.tcpSegment = none := by
  have total := sender.datagramOf_length message
  have front : (sender.sealedHeader message).bytes.length = 20 := IPv4Header.bytes_length _
  have length : (sender.sealedSegment message).bytes.length =
      20 + message.sender.payload.length := TCPSegment.bytes_length _
  have flipped : flipBit (sender.datagramOf message) position bit = _ :=
    flipBit_append_right (sender.sealedHeader message).bytes (sender.sealedSegment message).bytes
      (by omega) (by omega) bit
  rw [front] at flipped
  have long := flipBit_length (sender.datagramOf message) position bit
  rcases splitHeader_chunks (flipBit (sender.datagramOf message) position bit)
    (by omega) with ⟨chunks, strings⟩
  rcases sender.ofBuffers_sealed message strings (chunks.1.trans flipped) with
    ⟨payload, parsed, content, nonempty⟩
  refine ⟨_, parsed, ?_⟩
  have tcp : (sender.sealedHeader message).proto = IPv4Header.protoTcp := rfl
  rw [IPv4Datagram.tcpSegment_of_tcp tcp]
  have short : (sender.sealedSegment message).bytes.length ≤ 65535 := by omega
  have fits := InternetChecksum.pseudoChecksum_fits (sender.sealedHeader message) short
  have alsoFits := InternetChecksum.pseudoChecksum_fits (sender.sealedHeader message)
    ((flipBit_length (sender.sealedSegment message).bytes (position - 20) bit).trans_le short)
  have accepted : TCPSegment.HeaderAccepted (sender.sealedSegment message).bytes
      (sender.sealedHeader message).pseudoChecksum := by
    by_contra refused
    have rejected := (TCPSegment.ofBuffers_eq_none_iff
      (BufferList.chunks_single (sender.sealedSegment message).bytes) fits).mpr refused
    have nonempty : ∀ str ∈ [(sender.sealedSegment message).bytes], str ≠ [] := by
      intro str member
      rw [List.mem_singleton.mp member]
      apply List.ne_nil_of_length_pos
      omega
    have intact := sender.ofBuffers_sealedSegment size nonempty List.flatten_singleton
    exact Option.some_ne_none _ (intact.symm.trans rejected)
  exact (TCPSegment.ofBuffers_eq_none_iff ⟨content, Or.inr nonempty⟩ alsoFits).mpr
    (accepted.flipBit_refused (by omega) range)

/-- The message that a datagram leads to is that of its segment. -/
theorem unwrapTcpInIp_message {dgram : IPv4Datagram} {segment : TCPSegment} {msg : TCPMessage}
    (valid : dgram.tcpSegment = some segment) (taken : (receiver.unwrapTcpInIp dgram).2 = some msg) :
    msg = segment.message := by
  have accepted : ∀ adapter : TCPOverIPv4Adapter Address,
      (adapter.accept dgram.header segment).2 = some msg → msg = segment.message := by
    intro adapter taken
    unfold accept at taken
    dsimp only at taken
    split at taken
    · cases taken
    · split at taken
      · cases taken
      · generalize (if adapter.listening = true then _ else adapter) = next at taken
        split at taken
        · cases taken
        · exact (Option.some.inj taken).symm
  unfold IPv4Datagram.tcpSegment at valid
  unfold unwrapTcpInIp at taken
  dsimp only at taken
  split at valid
  · rename_i tcp
    rw [if_neg (not_not_intro tcp), valid] at taken
    split at taken
    · cases taken
    · split at taken
      · cases taken
      · exact accepted receiver taken
  · cases valid

/-- Whoever has sent a datagram and whoever reads it, the message that is read is the one
that has been sent. -/
theorem read_datagramOf (size : message.sender.payload.length + 20 ≤ kReadBufferSize)
    {after : TCPOverIPv4Adapter Address} {msg : TCPMessage}
    (taken : receiver.read (sender.datagramOf message) = .ok (after, some msg)) :
    msg = message.carried := by
  have limit : kReadBufferSize = 16384 := rfl
  have total := sender.datagramOf_length message
  have small : message.sender.payload.length ≤ 65495 := by omega
  rcases sender.ofBuffers_datagramOf small (Or.inl rfl) with ⟨dgram, parsed, -, segment⟩
  rw [receiver.read_eq (by rw [total, limit, IPv4Header.length]; omega),
    receiver.readBuffers_of_some parsed] at taken
  exact receiver.unwrapTcpInIp_message segment (congrArg Prod.snd (Except.ok.inj taken))

/-- A datagram with one flipped bit is dropped without a trace, or it is taken as if the
bit had not been flipped, which happens for the reserved bit only. -/
theorem read_flipBit (size : message.sender.payload.length + 20 ≤ kReadBufferSize)
    {position bit : Nat} (inside : position < (sender.datagramOf message).length) (range : bit < 8) :
    receiver.read (flipBit (sender.datagramOf message) position bit) =
      if position = 6 ∧ bit = 7 then receiver.read (sender.datagramOf message)
      else .ok (receiver, none) := by
  have limit : kReadBufferSize = 16384 := rfl
  have total := sender.datagramOf_length message
  have long := flipBit_length (sender.datagramOf message) position bit
  have small : message.sender.payload.length ≤ 65495 := by omega
  rw [receiver.read_eq (by rw [long, total, IPv4Header.length]; omega),
    receiver.read_eq (by rw [total, IPv4Header.length]; omega)]
  by_cases unprotected : position = 6 ∧ bit = 7
  · rw [if_pos unprotected, unprotected.1, unprotected.2]
    rcases sender.ofBuffers_datagramOf small (Or.inl rfl) with ⟨intact, parsed, header, segment⟩
    rcases sender.ofBuffers_datagramOf small (Or.inr rfl) with
      ⟨damaged, reparsed, sameHeader, sameSegment⟩
    rw [receiver.readBuffers_of_some parsed, receiver.readBuffers_of_some reparsed,
      receiver.unwrapTcpInIp_congr (sameHeader.trans header.symm) (sameSegment.trans segment.symm)]
  · rw [if_neg unprotected]
    rcases splitHeader_chunks (flipBit (sender.datagramOf message) position bit)
      (by omega) with ⟨chunks, -⟩
    by_cases front : position < 20
    · have refused := (sender.datagramOf_accepted message).1.flipBit_refused front range unprotected
      exact receiver.readBuffers_of_none (IPv4Datagram.ofBuffers_of_refused chunks refused)
    · rcases sender.ofBuffers_flipped_segment small (Nat.le_of_not_lt front) inside range with
        ⟨dgram, parsed, none⟩
      rw [receiver.readBuffers_of_some parsed, receiver.unwrapTcpInIp_of_none none]

/-- The destination port of a SYN is damaged on its way to the server. -/
theorem read_flipBit_port :
    server.read (flipBit (client.datagramOf { sender := { seqno := ⟨137⟩, syn := true } }) 23 4) =
      .ok (server, none) := by
  have damaged := client.read_flipBit server
    (show ({ sender := { seqno := ⟨137⟩, syn := true } } : TCPMessage).sender.payload.length + 20 ≤
      kReadBufferSize by decide)
    (show 23 < _ by rw [datagramOf_length]; decide) (by decide : 4 < 8)
  rw [if_neg (by decide)] at damaged
  exact damaged

end TCPOverIPv4Adapter

end Rchan
