import Rchan.System.FileDescriptor
import Rchan.Wire.DatagramCorruption

namespace Rchan

/-!
# Datagram adapters over a device

A `TCPMinnowSocket` is written for any adapter that reads and writes messages.  The
repository has two: the adapter over a TUN device, and a lossy adapter around another
one, which drops messages at random.  `OverTun` says what the rest of the development
uses of both: at the bottom there is a TUN device, and all that an adapter adds to it
is to lose messages.
-/

/-- What `TCPMinnowSocket` needs of its adapter. -/
class TCPDatagramAdapter (Address : outParam Type) (Adapt : Type) where
  config : Adapt → FdAdapterConfig Address
  setConfig : Adapt → FdAdapterConfig Address → Adapt
  setListening : Adapt → Bool → Adapt
  fd : Adapt → FDWrapper
  read : Adapt → Kernel → Except Failure (Adapt × Option TCPMessage)
  write : Adapt → TCPMessage → Kernel → Except Failure Adapt

/-! ## The TUN device -/

/-- `TCPOverIPv4OverTunFdAdapter`, with the datagrams that the device has taken. -/
structure TCPOverIPv4OverTunFdAdapter (Address : Type) extends TCPOverIPv4Adapter Address where
  tun : FDWrapper
  datagrams : List (List Byte) := []
  deriving DecidableEq, Repr

namespace TCPOverIPv4OverTunFdAdapter

open TCPOverIPv4Adapter (kReadBufferSize scatter)

variable {Address : Type} [SocketAddress Address]

/-- `TCPOverIPv4OverTunFdAdapter::read`. -/
def read (adapter : TCPOverIPv4OverTunFdAdapter Address) (kernel : Kernel) :
    Except Failure (TCPOverIPv4OverTunFdAdapter Address × Option TCPMessage) := do
  let (tun, strs) ← adapter.tun.readv [IPv4Header.length, 0] kernel
  match strs[0]?, strs[1]? with
  | some first, some second =>
      let (filter, message) ←
        (adapter.toTCPOverIPv4Adapter.readBuffers [first, second]).mapError Failure.runtimeError
      return ({ adapter with toTCPOverIPv4Adapter := filter, tun }, message)
  | _, _ => throw (.outOfRange "vector")

/-- `TCPOverIPv4OverTunFdAdapter::write`. -/
def write (adapter : TCPOverIPv4OverTunFdAdapter Address) (seg : TCPMessage) (kernel : Kernel) :
    Except Failure (TCPOverIPv4OverTunFdAdapter Address) := do
  let ipDgram ← (adapter.wrapTcpInIp seg).mapError Failure.runtimeError
  let strings ← ipDgram.toBuffers.mapError Failure.runtimeError
  let (tun, written) ← adapter.tun.writev strings kernel
  return { adapter with tun, datagrams := adapter.datagrams ++ [strings.flatten.take written] }

instance : TCPDatagramAdapter Address (TCPOverIPv4OverTunFdAdapter Address) where
  config adapter := adapter.config
  setConfig adapter config := { adapter with config }
  setListening adapter listening := { adapter with listening }
  fd := tun
  read := read
  write := write

variable {adapter after : TCPOverIPv4OverTunFdAdapter Address} {kernel : Kernel}
  {message : Option TCPMessage} {seg : TCPMessage}

/-- What the strings of a datagram are large enough for. -/
def readSize : Nat := IPv4Header.length + kReadBufferSize

/-- A read takes one datagram from the device and leaves those that have been written. -/
structure Received (adapter : TCPOverIPv4OverTunFdAdapter Address) (kernel : Kernel)
    (after : TCPOverIPv4OverTunFdAdapter Address) (message : Option TCPMessage) : Prop where
  tun : after.tun = adapter.tun.registerRead
  datagrams : after.datagrams = adapter.datagrams
  filtered : ∃ bytes, kernel.read adapter.tun.fd readSize = .ok bytes ∧
    adapter.toTCPOverIPv4Adapter.read bytes = .ok (after.toTCPOverIPv4Adapter, message)

theorem read_cases (returned : adapter.read kernel = .ok (after, message)) :
    Received adapter kernel after message := by
  rcases Fallible.bind_eq_ok returned with ⟨⟨tun, strs⟩, reading, returned⟩
  dsimp only at returned
  have device : (tun = adapter.tun ∧ strs = []) ∨
      ∃ bytes, kernel.read adapter.tun.fd readSize = .ok bytes ∧ tun = adapter.tun.registerRead ∧
        strs = [bytes.take IPv4Header.length,
          (bytes.drop IPv4Header.length).take kReadBufferSize] := by
    rw [FDWrapper.readv, if_neg (by simp)] at reading
    dsimp only [List.dropLast, List.cons_append, List.nil_append] at reading
    split at reading
    · split at reading
      · have parts := Prod.mk.inj (Except.ok.inj reading)
        exact Or.inl ⟨parts.1.symm, parts.2.symm⟩
      · cases reading
    · rename_i bytes answered
      split at reading
      · cases reading
      · have parts := Prod.mk.inj (Except.ok.inj reading)
        exact Or.inr ⟨bytes, answered, parts.1.symm, parts.2.symm⟩
  rcases device with ⟨-, rfl⟩ | ⟨bytes, answered, rfl, rfl⟩
  · cases returned
  · rcases Fallible.bind_eq_ok returned with ⟨⟨filter, found⟩, filtering, returned⟩
    have parts := Prod.mk.inj (Fallible.pure_eq_ok returned)
    rw [← parts.1, ← parts.2]
    exact {
      tun := rfl
      datagrams := rfl
      filtered := ⟨bytes, answered, Fallible.mapError_eq_ok filtering⟩ }

/-- A write gives the datagram of a message to the device, or a part of it. -/
theorem write_cases (returned : adapter.write seg kernel = .ok after) :
    ∃ written, kernel.write adapter.tun.fd (adapter.datagramOf seg) = .ok written ∧
      after = { adapter with
        tun := adapter.tun.registerWrite
        datagrams := adapter.datagrams ++ [(adapter.datagramOf seg).take written] } := by
  rcases adapter.wrapTcpInIp_buffers seg with ⟨dgram, buffers, wrapped, serialized, content⟩
  rcases Fallible.bind_eq_ok returned with ⟨ipDgram, wrapping, returned⟩
  have sameDgram := Except.ok.inj ((Fallible.mapError_eq_ok wrapping).symm.trans wrapped)
  rcases Fallible.bind_eq_ok returned with ⟨strings, serializing, returned⟩
  rw [sameDgram] at serializing
  have sameBuffers := Except.ok.inj ((Fallible.mapError_eq_ok serializing).symm.trans serialized)
  rcases Fallible.bind_eq_ok returned with ⟨⟨tun, written⟩, writing, returned⟩
  rw [sameBuffers] at writing returned
  rcases Fallible.bind_eq_ok writing with ⟨count, checked, writing⟩
  have long : (buffers.map List.length).sum = 40 + seg.sender.payload.length := by
    rw [← List.length_flatten, content, adapter.datagramOf_length]
  split at writing
  · cases writing
  · rename_i moved
    split at writing
    · cases writing
    · have parts := Prod.mk.inj (Fallible.pure_eq_ok writing)
      rw [parts.2] at checked moved
      refine ⟨written, ?_, ?_⟩
      · rw [content] at checked
        unfold FDWrapper.checkSystemCall at checked
        split at checked
        · rename_i value answered
          rw [answered, Except.ok.inj checked]
        · split at checked
          · have none := Except.ok.inj checked
            exact absurd ⟨none.symm, by omega⟩ moved
          · cases checked
      · rw [← Fallible.pure_eq_ok returned, ← parts.1, content]

/-- The device takes a datagram as a whole. -/
theorem write_of_ok {written : Nat}
    (answered : kernel.write adapter.tun.fd (adapter.datagramOf seg) = .ok written)
    (whole : written = (adapter.datagramOf seg).length) :
    adapter.write seg kernel =
      .ok { adapter with
        tun := adapter.tun.registerWrite
        datagrams := adapter.datagrams ++ [adapter.datagramOf seg] } := by
  rcases adapter.wrapTcpInIp_buffers seg with ⟨dgram, buffers, wrapped, serialized, content⟩
  have long : (buffers.map List.length).sum = (adapter.datagramOf seg).length := by
    rw [← List.length_flatten, content]
  have positive := adapter.datagramOf_length seg
  have given : adapter.tun.writev buffers kernel = .ok (adapter.tun.registerWrite, written) := by
    rw [FDWrapper.writev, content, Fallible.bind_of_ok (FDWrapper.checkSystemCall_of_ok answered),
      long, if_neg (by omega), if_neg (by omega)]
    rfl
  rw [write, wrapped]
  change (dgram.toBuffers.mapError Failure.runtimeError >>= _) = _
  rw [serialized]
  change (adapter.tun.writev buffers kernel >>= _) = _
  rw [Fallible.bind_of_ok given, content, whole]
  dsimp only
  rw [List.take_length]
  rfl

/-- A datagram that fits into the strings and that the filter gets through is read. -/
theorem read_of_ok {bytes : List Byte} {filter : TCPOverIPv4Adapter Address}
    (answered : kernel.read adapter.tun.fd readSize = .ok bytes) (fits : bytes.length ≤ readSize)
    (filtered : adapter.toTCPOverIPv4Adapter.read bytes = .ok (filter, message)) :
    adapter.read kernel =
      .ok ({ adapter with toTCPOverIPv4Adapter := filter, tun := adapter.tun.registerRead },
        message) := by
  have given : adapter.tun.readv [IPv4Header.length, 0] kernel =
      .ok (adapter.tun.registerRead, scatter [IPv4Header.length, kReadBufferSize] bytes) := by
    rw [FDWrapper.readv, if_neg (by simp)]
    dsimp only [List.dropLast, List.cons_append, List.nil_append]
    have total : [IPv4Header.length, kReadBufferSize].sum = readSize := rfl
    rw [total, answered]
    dsimp only
    rw [if_neg (Nat.not_lt_of_le fits)]
  rw [read, Fallible.bind_of_ok given]
  change ((adapter.toTCPOverIPv4Adapter.read bytes).mapError Failure.runtimeError >>= _) = _
  rw [filtered]
  rfl

end TCPOverIPv4OverTunFdAdapter

/-! ## The lossy adapter -/

/-- The random engine of the standard library. -/
class RandomEngine (Rand : Type) where
  draw : Rand → Nat × Rand

/-- `LossyFdAdapter`. -/
structure LossyFdAdapter (Rand Adapt : Type) where
  rand : Rand
  adapter : Adapt
  deriving DecidableEq, Repr

namespace LossyFdAdapter

variable {Address Rand Adapt : Type} [RandomEngine Rand] [TCPDatagramAdapter Address Adapt]

/-- The loss rate of a direction. -/
def loss (lossy : LossyFdAdapter Rand Adapt) (uplink : Bool) : UInt16 :=
  let cfg := TCPDatagramAdapter.config lossy.adapter
  if uplink then cfg.lossRateUp else cfg.lossRateDn

/-- `LossyFdAdapter::_should_drop`. -/
def shouldDrop (lossy : LossyFdAdapter Rand Adapt) (uplink : Bool) :
    LossyFdAdapter Rand Adapt × Bool :=
  if lossy.loss uplink = 0 then (lossy, false)
  else
    let (value, rand) := RandomEngine.draw lossy.rand
    ({ lossy with rand }, decide (UInt16.ofNat value < lossy.loss uplink))

/-- `LossyFdAdapter::read`. -/
def read (lossy : LossyFdAdapter Rand Adapt) (kernel : Kernel) :
    Except Failure (LossyFdAdapter Rand Adapt × Option TCPMessage) := do
  let (adapter, ret) ← TCPDatagramAdapter.read lossy.adapter kernel
  let dropped := shouldDrop { lossy with adapter } false
  return (dropped.1, if dropped.2 then none else ret)

/-- `LossyFdAdapter::write`. -/
def write (lossy : LossyFdAdapter Rand Adapt) (seg : TCPMessage) (kernel : Kernel) :
    Except Failure (LossyFdAdapter Rand Adapt) := do
  let dropped := lossy.shouldDrop true
  if dropped.2 then return dropped.1
  let adapter ← TCPDatagramAdapter.write dropped.1.adapter seg kernel
  return { dropped.1 with adapter }

instance : TCPDatagramAdapter Address (LossyFdAdapter Rand Adapt) where
  config lossy := TCPDatagramAdapter.config lossy.adapter
  setConfig lossy config := { lossy with adapter := TCPDatagramAdapter.setConfig lossy.adapter config }
  setListening lossy listening :=
    { lossy with adapter := TCPDatagramAdapter.setListening lossy.adapter listening }
  fd lossy := TCPDatagramAdapter.fd lossy.adapter
  read := read
  write := write

@[simp] theorem shouldDrop_adapter (lossy : LossyFdAdapter Rand Adapt) (uplink : Bool) :
    (lossy.shouldDrop uplink).1.adapter = lossy.adapter := by
  unfold shouldDrop
  split <;> rfl

end LossyFdAdapter

/-! ## Adapters over a TUN device -/

/-- An adapter with a TUN device at the bottom, which does what the adapter of the device
does or loses the message. -/
class OverTun (Address : outParam Type) (Adapt : Type) [SocketAddress Address] extends
    TCPDatagramAdapter Address Adapt where
  device : Adapt → TCPOverIPv4OverTunFdAdapter Address
  config_eq : ∀ adapter, config adapter = (device adapter).config
  setConfig_eq : ∀ adapter config, device (setConfig adapter config) =
    { device adapter with config }
  setListening_eq : ∀ adapter listening, device (setListening adapter listening) =
    { device adapter with listening }
  fd_eq : ∀ adapter, fd adapter = (device adapter).tun
  read_cases : ∀ {adapter kernel after message}, read adapter kernel = .ok (after, message) →
    ∃ found, (device adapter).read kernel = .ok (device after, found) ∧
      (message = none ∨ message = found)
  read_of_ok : ∀ {adapter kernel after found}, (device adapter).read kernel = .ok (after, found) →
    ∃ result, read adapter kernel = .ok result
  write_cases : ∀ {adapter seg kernel after}, write adapter seg kernel = .ok after →
    device after = device adapter ∨ (device adapter).write seg kernel = .ok (device after)
  write_of_ok : ∀ {adapter seg kernel after}, (device adapter).write seg kernel = .ok after →
    ∃ result, write adapter seg kernel = .ok result

variable {Address : Type} [SocketAddress Address]

instance : OverTun Address (TCPOverIPv4OverTunFdAdapter Address) where
  device := id
  config_eq := fun _ => rfl
  setConfig_eq := fun _ _ => rfl
  setListening_eq := fun _ _ => rfl
  fd_eq := fun _ => rfl
  read_cases := fun returned => ⟨_, returned, Or.inr rfl⟩
  read_of_ok := fun returned => ⟨_, returned⟩
  write_cases := fun returned => Or.inr returned
  write_of_ok := fun returned => ⟨_, returned⟩

instance {Rand Adapt : Type} [RandomEngine Rand] [OverTun Address Adapt] :
    OverTun Address (LossyFdAdapter Rand Adapt) where
  device lossy := OverTun.device lossy.adapter
  config_eq := fun lossy => OverTun.config_eq lossy.adapter
  setConfig_eq := fun lossy config => OverTun.setConfig_eq lossy.adapter config
  setListening_eq := fun lossy listening => OverTun.setListening_eq lossy.adapter listening
  fd_eq := fun lossy => OverTun.fd_eq lossy.adapter
  read_cases := by
    intro lossy kernel after message returned
    rcases Fallible.bind_eq_ok returned with ⟨⟨adapter, ret⟩, reading, returned⟩
    rcases OverTun.read_cases reading with ⟨found, device, kept⟩
    have parts := Prod.mk.inj (Fallible.pure_eq_ok returned)
    rw [← parts.1, ← parts.2, LossyFdAdapter.shouldDrop_adapter]
    refine ⟨found, device, ?_⟩
    split
    · exact Or.inl rfl
    · exact kept
  read_of_ok := by
    intro lossy kernel after found returned
    rcases OverTun.read_of_ok returned with ⟨result, reading⟩
    exact ⟨_, Fallible.bind_of_ok reading⟩
  write_cases := by
    intro lossy seg kernel after returned
    change (LossyFdAdapter.write lossy seg kernel) = _ at returned
    unfold LossyFdAdapter.write at returned
    dsimp only at returned
    split at returned
    · rw [← Fallible.pure_eq_ok returned, lossy.shouldDrop_adapter]
      exact Or.inl rfl
    · rcases Fallible.bind_eq_ok returned with ⟨adapter, writing, returned⟩
      rw [← Fallible.pure_eq_ok returned]
      rw [lossy.shouldDrop_adapter] at writing
      exact OverTun.write_cases writing
  write_of_ok := by
    intro lossy seg kernel after returned
    change ∃ result, LossyFdAdapter.write lossy seg kernel = .ok result
    unfold LossyFdAdapter.write
    dsimp only
    split
    · exact ⟨_, rfl⟩
    · rcases OverTun.write_of_ok returned with ⟨result, writing⟩
      rw [lossy.shouldDrop_adapter, Fallible.bind_of_ok writing]
      exact ⟨_, rfl⟩

end Rchan
