import Rchan.Foundation.Runs
import Rchan.Wire.Adapter

namespace Rchan

/-!
# A listening adapter takes one peer

The filter of `unwrap_tcp_in_ip` reads the listening flag in several places and
clears it in the middle of the chain.  Told from outside there are two modes.  A
listening adapter ignores everything but a valid SYN for its port, and that one
it answers by fixing both addresses; an adapter that does not listen never
changes, and lets through exactly the segments of one four-tuple.

Any sequence of datagrams is therefore quiet up to its first opening datagram,
and everything after that is filtered by the addresses of the opening one.
-/

open SocketAddress

namespace IPv4Datagram

/-- A valid segment for a port that carries SYN without RST. -/
structure Opens (dgram : IPv4Datagram) (ourPort : UInt16) (segment : TCPSegment) : Prop where
  valid : dgram.tcpSegment = some segment
  dstPort : segment.udinfo.dstPort = ourPort
  syn : segment.message.sender.syn = true
  rst : segment.message.sender.rst = false

/-- A valid segment between the addresses and ports of another one, in the same direction. -/
structure SameTuple (dgram : IPv4Datagram) (segment : TCPSegment) (opening : IPv4Datagram)
    (first : TCPSegment) : Prop where
  valid : dgram.tcpSegment = some segment
  dst : dgram.header.dst = opening.header.dst
  src : dgram.header.src = opening.header.src
  dstPort : segment.udinfo.dstPort = first.udinfo.dstPort
  srcPort : segment.udinfo.srcPort = first.udinfo.srcPort

end IPv4Datagram

namespace TCPOverIPv4Adapter

variable {Address : Type} [SocketAddress Address]

/-- The adapter as a machine that is fed one datagram after another. -/
def filter (Address : Type) [SocketAddress Address] :
    Machine (TCPOverIPv4Adapter Address) IPv4Datagram where
  allowed := fun _ _ => True
  step := fun adapter dgram => (adapter.unwrapTcpInIp dgram).1

/-- The message that a datagram leads to, if it is let through. -/
def delivered (adapter : TCPOverIPv4Adapter Address) (dgram : IPv4Datagram) : Option TCPMessage :=
  (adapter.unwrapTcpInIp dgram).2

/-! ## One datagram -/

/-- A listening adapter ignores what does not open a connection. -/
theorem unwrapTcpInIp_of_quiet {adapter : TCPOverIPv4Adapter Address}
    (listens : adapter.listening = true) {dgram : IPv4Datagram}
    (quiet : ∀ segment, ¬ dgram.Opens (port adapter.config.source) segment) :
    adapter.unwrapTcpInIp dgram = (adapter, none) := by
  cases carried : dgram.tcpSegment with
  | none => exact adapter.unwrapTcpInIp_of_none carried
  | some segment =>
      rw [adapter.unwrapTcpInIp_of_some carried (Or.inl listens), accept]
      by_cases ours : segment.udinfo.dstPort = port adapter.config.source
      · rw [if_neg (not_not_intro ours), if_pos]
        rw [listens, Bool.true_and, Bool.not_eq_true', Bool.eq_false_iff]
        intro opens
        simp only [Bool.and_eq_true, Bool.not_eq_true'] at opens
        exact quiet segment ⟨carried, ours, opens.1, opens.2⟩
      · rw [if_pos ours]

/-- A listening adapter takes the sender of an opening datagram as its peer. -/
theorem unwrapTcpInIp_of_opens [LawfulSocketAddress Address]
    {adapter : TCPOverIPv4Adapter Address} (listens : adapter.listening = true)
    {dgram : IPv4Datagram} {segment : TCPSegment}
    (opens : dgram.Opens (port adapter.config.source) segment) :
    adapter.unwrapTcpInIp dgram =
      (adapter.target dgram.header segment.udinfo.srcPort, some segment.message) := by
  have accepted : ¬ (adapter.listening &&
      !(segment.message.sender.syn && !segment.message.sender.rst)) = true := by
    simp [opens.syn, opens.rst]
  have peer : segment.udinfo.srcPort =
      port (adapter.target dgram.header segment.udinfo.srcPort).config.destination :=
    (LawfulSocketAddress.port_ofDottedQuad _ _).symm
  rw [adapter.unwrapTcpInIp_of_some opens.valid (Or.inl listens), accept,
    if_neg (not_not_intro opens.dstPort), if_neg accepted, if_pos listens,
    if_neg (not_not_intro peer)]

/-- An adapter that does not listen stays as it is. -/
theorem unwrapTcpInIp_connected {adapter : TCPOverIPv4Adapter Address}
    (connected : adapter.listening = false) (dgram : IPv4Datagram) :
    (adapter.unwrapTcpInIp dgram).1 = adapter := by
  by_cases addressed : dgram.header.dst = ipv4Numeric adapter.config.source ∧
      dgram.header.src = ipv4Numeric adapter.config.destination
  · cases carried : dgram.tcpSegment with
    | none => rw [adapter.unwrapTcpInIp_of_none carried]
    | some segment =>
        rw [adapter.unwrapTcpInIp_of_some carried (Or.inr addressed), accept_connected connected]
  · rw [unwrapTcpInIp_of_foreign connected addressed]

/-- An adapter that does not listen lets through the segments of its four-tuple. -/
theorem delivered_connected_iff {adapter : TCPOverIPv4Adapter Address}
    (connected : adapter.listening = false) (dgram : IPv4Datagram) (message : TCPMessage) :
    adapter.delivered dgram = some message ↔
      ∃ segment, dgram.tcpSegment = some segment ∧ segment.message = message ∧
        (dgram.header.dst = ipv4Numeric adapter.config.source ∧
          dgram.header.src = ipv4Numeric adapter.config.destination) ∧
        segment.udinfo.dstPort = port adapter.config.source ∧
        segment.udinfo.srcPort = port adapter.config.destination := by
  unfold delivered
  by_cases addressed : dgram.header.dst = ipv4Numeric adapter.config.source ∧
      dgram.header.src = ipv4Numeric adapter.config.destination
  · cases carried : dgram.tcpSegment with
    | none => simp [adapter.unwrapTcpInIp_of_none carried]
    | some segment =>
        rw [adapter.unwrapTcpInIp_of_some carried (Or.inr addressed), accept_connected connected]
        simp [addressed, and_comm]
  · rw [unwrapTcpInIp_of_foreign connected addressed]
    simp [addressed]

/-! ## Sequences of datagrams -/

/-- Without an opening datagram a listening adapter delivers nothing and stays as it is. -/
theorem run_of_quiet {adapter : TCPOverIPv4Adapter Address} (listens : adapter.listening = true)
    (dgrams : List IPv4Datagram)
    (quiet : ∀ dgram ∈ dgrams, ∀ segment, ¬ dgram.Opens (port adapter.config.source) segment) :
    (filter Address).run adapter dgrams = adapter := by
  induction dgrams with
  | nil => rfl
  | cons dgram later ih =>
      have first : (filter Address).step adapter dgram = adapter :=
        congrArg Prod.fst (unwrapTcpInIp_of_quiet listens (quiet dgram (List.mem_cons_self ..)))
      rw [Machine.run_cons, first]
      exact ih fun other member => quiet other (List.mem_cons_of_mem dgram member)

theorem run_connected {adapter : TCPOverIPv4Adapter Address} (connected : adapter.listening = false)
    (dgrams : List IPv4Datagram) : (filter Address).run adapter dgrams = adapter := by
  apply (filter Address).run_invariant (fun state => state = adapter) rfl
  rintro state dgram rfl
  exact unwrapTcpInIp_connected connected dgram

/-- A listening adapter takes one peer.  Whatever comes before the first opening
datagram is ignored; that datagram is delivered and sets the addresses; and after
it the adapter never changes and delivers what has the same four-tuple. -/
theorem listening_takes_one_peer [LawfulSocketAddress Address]
    (adapter : TCPOverIPv4Adapter Address) (listens : adapter.listening = true)
    (quiet : List IPv4Datagram)
    (foreign : ∀ dgram ∈ quiet, ∀ segment, ¬ dgram.Opens (port adapter.config.source) segment) :
    (filter Address).run adapter quiet = adapter ∧
      (∀ before dgram, before ++ [dgram] <+: quiet →
        ((filter Address).run adapter before).delivered dgram = none) ∧
      ∀ opening first, opening.Opens (port adapter.config.source) first →
        let locked := adapter.target opening.header first.udinfo.srcPort
        ((filter Address).run adapter quiet).delivered opening = some first.message ∧
          locked.listening = false ∧
          ipv4Numeric locked.config.source = opening.header.dst ∧
          port locked.config.source = port adapter.config.source ∧
          ipv4Numeric locked.config.destination = opening.header.src ∧
          port locked.config.destination = first.udinfo.srcPort ∧
          ∀ later, (filter Address).run adapter (quiet ++ opening :: later) = locked ∧
            ∀ dgram message,
              ((filter Address).run adapter (quiet ++ opening :: later)).delivered dgram =
                  some message ↔
                ∃ segment, dgram.SameTuple segment opening first ∧ segment.message = message := by
  have ignored : ∀ dgrams, dgrams <+: quiet → (filter Address).run adapter dgrams = adapter :=
    fun dgrams isPrefix => run_of_quiet listens dgrams fun dgram member =>
      foreign dgram (isPrefix.subset member)
  refine ⟨ignored quiet List.prefix_rfl, ?_, ?_⟩
  · intro before dgram isPrefix
    rw [ignored before ((List.prefix_append before [dgram]).trans isPrefix)]
    exact congrArg Prod.snd (unwrapTcpInIp_of_quiet listens
      (foreign dgram (isPrefix.subset (List.mem_append_right before (List.mem_singleton_self dgram)))))
  · intro opening first opens locked
    have taken := unwrapTcpInIp_of_opens listens opens
    have sourceIp : ipv4Numeric locked.config.source = opening.header.dst :=
      LawfulSocketAddress.ipv4Numeric_ofDottedQuad _ _
    have sourcePort : port locked.config.source = port adapter.config.source :=
      LawfulSocketAddress.port_ofDottedQuad _ _
    have destinationIp : ipv4Numeric locked.config.destination = opening.header.src :=
      LawfulSocketAddress.ipv4Numeric_ofDottedQuad _ _
    have destinationPort : port locked.config.destination = first.udinfo.srcPort :=
      LawfulSocketAddress.port_ofDottedQuad _ _
    refine ⟨?_, rfl, sourceIp, sourcePort, destinationIp, destinationPort, ?_⟩
    · rw [ignored quiet List.prefix_rfl]
      exact congrArg Prod.snd taken
    · intro later
      have settled : (filter Address).run adapter (quiet ++ opening :: later) = locked := by
        rw [Machine.run_append, ignored quiet List.prefix_rfl, Machine.run_cons]
        exact (congrArg (fun next => (filter Address).run next later)
          (congrArg Prod.fst taken)).trans (run_connected rfl later)
      refine ⟨settled, ?_⟩
      intro dgram message
      rw [settled, delivered_connected_iff rfl, sourceIp, sourcePort, destinationIp,
        destinationPort]
      constructor
      · rintro ⟨segment, valid, carries, ⟨dst, src⟩, dstPort, srcPort⟩
        exact ⟨segment, ⟨valid, dst, src, dstPort.trans opens.dstPort.symm, srcPort⟩, carries⟩
      · rintro ⟨segment, same, carries⟩
        exact ⟨segment, same.valid, carries, ⟨same.dst, same.src⟩,
          same.dstPort.trans opens.dstPort, same.srcPort⟩

/-- A server that waits for a peer on port 80. -/
def webServer : TCPOverIPv4Adapter SockaddrIn :=
  { config :=
      { source := ⟨0, 80⟩
        destination := ⟨0, 0⟩ }
    listening := true }

/-- A datagram of another protocol. -/
def stray : IPv4Datagram := { header := { proto := 17 } }

/-- The first datagram of a client at 10.0.0.1, port 5000. -/
def knock : IPv4Datagram :=
  { header :=
      { len := 40
        cksum := 59085
        src := 0x0a000001
        dst := 0x0a000002 }
    payload := [[19, 136, 0, 80, 0, 0, 0, 137, 0, 0, 0, 0, 80, 2, 0, 0, 135, 127, 0, 0]] }

def knockSegment : TCPSegment :=
  { message :=
      { sender :=
          { seqno := ⟨137⟩
            syn := true } }
    udinfo :=
      { srcPort := 5000
        dstPort := 80
        cksum := 0x877f } }

theorem knock_opens : knock.Opens 80 knockSegment :=
  { valid := by decide
    dstPort := rfl
    syn := rfl
    rst := rfl }

/-- The server ignores the stray datagram, answers the client, and stays with it. -/
theorem webServer_takes_one_peer :
    (filter SockaddrIn).run webServer [stray, knock, stray] =
      { config :=
          { source := ⟨0x0a000002, 80⟩
            destination := ⟨0x0a000001, 5000⟩ } } := by
  have foreign : ∀ dgram ∈ [stray], ∀ segment, ¬ dgram.Opens 80 segment := by
    intro dgram member segment opens
    cases List.mem_singleton.mp member
    cases opens.valid
  have taken := (listening_takes_one_peer webServer rfl [stray] foreign).2.2 knock knockSegment
    knock_opens
  exact (taken.2.2.2.2.2.2 [stray]).1

end TCPOverIPv4Adapter
end Rchan
