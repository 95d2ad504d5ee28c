import Rchan.Foundation.Fallible
import Rchan.Wire.Adapter

namespace Rchan

/-!
# File descriptors

A `FileDescriptor` is a shared handle on a wrapper of a kernel descriptor, which
remembers whether it is at the end of its file and counts the calls made on it.
The calls themselves are answered by the system, and `Kernel` is what it answers
while one event is handled; nothing is assumed about the answers here.
-/

/-- The values of `errno` that the program tells apart. -/
inductive Errno where
  | eagain
  | einprogress
  | enotsock
  | other (code : Nat)
  deriving DecidableEq, Repr

/-- The exceptions thrown on the way to a system call. -/
inductive Failure where
  | unixError (attempt : String) (errno : Errno)
  | runtimeError (what : String)
  | outOfRange (what : String)
  deriving DecidableEq, Repr

/-- The ways of `shutdown`. -/
inductive ShutdownHow where
  | rd
  | wr
  | rdwr
  deriving DecidableEq, Repr

/-- `POLLIN` or `POLLOUT`. -/
inductive Direction where
  | incoming
  | outgoing
  deriving DecidableEq, Repr

/-- A descriptor that is polled, and the event asked for, if any. -/
structure PollFd where
  fd : Nat
  events : Option Direction
  deriving DecidableEq, Repr

/-- The bits that `poll` returns for a descriptor. -/
structure Revents where
  pollin : Bool := false
  pollout : Bool := false
  pollerr : Bool := false
  pollhup : Bool := false
  pollnval : Bool := false
  deriving DecidableEq, Repr

/-- What `poll` returns: the number of descriptors with an event, and their events. -/
structure PollAnswer where
  count : Nat
  revents : Nat → Revents

/-- What `getsockopt` finds about a pending error of a socket. -/
inductive SocketErrorAnswer where
  | failed (errno : Errno)
  | wrongLength (optlen : Nat)
  | found (socketError : Nat)
  deriving DecidableEq, Repr

/-- How the system answers the calls that are made while one event is handled.  A
call is identified by the number of its descriptor and its arguments. -/
structure Kernel where
  poll : List PollFd → Except Errno PollAnswer
  getsockopt : Nat → SocketErrorAnswer
  read : Nat → Nat → Except Errno (List Byte)
  write : Nat → List Byte → Except Errno Nat
  shutdown : Nat → ShutdownHow → Except Errno Nat
  close : Nat → Except Errno Nat

/-- The errors that a non-blocking descriptor ignores. -/
def Errno.wouldBlock (errno : Errno) : Bool := errno == .eagain || errno == .einprogress

/-- `FDWrapper`. -/
structure FDWrapper where
  fd : Nat
  eof : Bool := false
  closed : Bool := false
  nonBlocking : Bool := false
  readCount : UInt32 := 0
  writeCount : UInt32 := 0
  deriving DecidableEq, Repr

namespace FDWrapper

open TCPOverIPv4Adapter (kReadBufferSize scatter)

def registerRead (wrapper : FDWrapper) : FDWrapper :=
  { wrapper with readCount := wrapper.readCount + 1 }

def registerWrite (wrapper : FDWrapper) : FDWrapper :=
  { wrapper with writeCount := wrapper.writeCount + 1 }

/-- `FDWrapper::CheckSystemCall`. -/
def checkSystemCall (wrapper : FDWrapper) (attempt : String) (returned : Except Errno Nat) :
    Except Failure Nat :=
  match returned with
  | .ok value => .ok value
  | .error errno =>
      if wrapper.nonBlocking && errno.wouldBlock then .ok 0 else .error (.unixError attempt errno)

/-- `FileDescriptor::read` into a string of the given size. -/
def read (wrapper : FDWrapper) (size : Nat) (kernel : Kernel) :
    Except Failure (FDWrapper × List Byte) :=
  let size := if size = 0 then kReadBufferSize else size
  match kernel.read wrapper.fd size with
  | .error errno =>
      if wrapper.nonBlocking && errno.wouldBlock then .ok (wrapper, [])
      else .error (.unixError "read" errno)
  | .ok bytes =>
      let wrapper := wrapper.registerRead
      let wrapper := if bytes.length = 0 then { wrapper with eof := true } else wrapper
      if size < bytes.length then .error (.runtimeError "read() read more than requested")
      else .ok (wrapper, bytes)

/-- `FileDescriptor::read` into several strings, the last of which gets the size of
the read buffer.  Nothing is left of the strings if the call would block. -/
def readv (wrapper : FDWrapper) (sizes : List Nat) (kernel : Kernel) :
    Except Failure (FDWrapper × List (List Byte)) :=
  if sizes.isEmpty then .ok (wrapper, [])
  else
    let sizes := sizes.dropLast ++ [kReadBufferSize]
    match kernel.read wrapper.fd sizes.sum with
    | .error errno =>
        if wrapper.nonBlocking && errno.wouldBlock then .ok (wrapper, [])
        else .error (.unixError "read" errno)
    | .ok bytes =>
        if sizes.sum < bytes.length then .error (.runtimeError "read() read more than requested")
        else .ok (wrapper.registerRead, scatter sizes bytes)

/-- `FileDescriptor::write` of several strings; the number of bytes written is returned. -/
def writev (wrapper : FDWrapper) (buffers : List (List Byte)) (kernel : Kernel) :
    Except Failure (FDWrapper × Nat) := do
  let totalSize := (buffers.map List.length).sum
  let bytesWritten ← wrapper.checkSystemCall "writev" (kernel.write wrapper.fd buffers.flatten)
  if bytesWritten = 0 ∧ totalSize ≠ 0 then
    throw (.runtimeError "write returned 0 given non-empty input buffer")
  else if totalSize < bytesWritten then
    throw (.runtimeError "write wrote more than length of input buffer")
  else
    return (wrapper.registerWrite, bytesWritten)

/-- `FileDescriptor::write` of one string. -/
def write (wrapper : FDWrapper) (buffer : List Byte) (kernel : Kernel) :
    Except Failure (FDWrapper × Nat) :=
  wrapper.writev [buffer] kernel

/-- `FDWrapper::close`. -/
def close (wrapper : FDWrapper) (kernel : Kernel) : Except Failure FDWrapper := do
  let _ ← wrapper.checkSystemCall "close" (kernel.close wrapper.fd)
  return { wrapper with eof := true, closed := true }

/-- `Socket::shutdown`. -/
def shutdown (wrapper : FDWrapper) (how : ShutdownHow) (kernel : Kernel) :
    Except Failure FDWrapper := do
  let _ ← wrapper.checkSystemCall "shutdown" (kernel.shutdown wrapper.fd how)
  return match how with
    | .rd => wrapper.registerRead
    | .wr => wrapper.registerWrite
    | .rdwr => wrapper.registerRead.registerWrite

/-- `FileDescriptor::set_blocking`, once both calls of `fcntl` have succeeded. -/
def setBlocking (wrapper : FDWrapper) (blocking : Bool) : FDWrapper :=
  { wrapper with nonBlocking := !blocking }

/-! ## What the calls that return have done -/

variable {wrapper after : FDWrapper} {kernel : Kernel}

/-- A wrapper from which the system has read some bytes. -/
def afterRead (wrapper : FDWrapper) (bytes : List Byte) : FDWrapper :=
  { wrapper.registerRead with eof := wrapper.eof || bytes.isEmpty }

/-- A read returns what the system has answered, or nothing if it would block. -/
theorem read_cases {size : Nat} {bytes : List Byte} (room : 0 < size)
    (returned : wrapper.read size kernel = .ok (after, bytes)) :
    (after = wrapper ∧ bytes = []) ∨
      (kernel.read wrapper.fd size = .ok bytes ∧ bytes.length ≤ size ∧
        after = wrapper.afterRead bytes) := by
  simp only [read, if_neg (Nat.ne_of_gt room)] at returned
  split at returned
  · split at returned
    · have parts := Prod.mk.inj (Except.ok.inj returned)
      exact Or.inl ⟨parts.1.symm, parts.2.symm⟩
    · cases returned
  · rename_i answered
    split at returned
    · cases returned
    · rename_i fits
      have parts := Prod.mk.inj (Except.ok.inj returned)
      rw [parts.2] at answered fits parts
      refine Or.inr ⟨answered, Nat.le_of_not_lt fits, ?_⟩
      rw [← parts.1, afterRead, registerRead]
      cases bytes <;> simp

/-- A write transfers a prefix of its buffer, and not none of it. -/
theorem write_cases {buffer : List Byte} {written : Nat}
    (returned : wrapper.write buffer kernel = .ok (after, written)) :
    after = wrapper.registerWrite ∧ written ≤ buffer.length ∧ (buffer ≠ [] → 0 < written) := by
  rcases Fallible.bind_eq_ok returned with ⟨count, _, returned⟩
  simp only [List.map_cons, List.map_nil, List.sum_cons, List.sum_nil, Nat.add_zero] at returned
  split at returned
  · cases returned
  · rename_i moved
    split at returned
    · cases returned
    · rename_i fits
      have parts := Prod.mk.inj (Fallible.pure_eq_ok returned)
      rw [parts.2] at moved fits
      refine ⟨parts.1.symm, Nat.le_of_not_lt fits, fun nonempty => ?_⟩
      have length := List.length_pos_iff.mpr nonempty
      omega

/-- The same descriptor, as open as before. -/
structure SameFile (before after : FDWrapper) : Prop where
  fd : after.fd = before.fd
  closed : after.closed = before.closed

theorem SameFile.trans {first second third : FDWrapper} (left : SameFile first second)
    (right : SameFile second third) : SameFile first third :=
  ⟨right.fd.trans left.fd, right.closed.trans left.closed⟩

theorem SameFile.read {size : Nat} {bytes : List Byte} (room : 0 < size)
    (returned : wrapper.read size kernel = .ok (after, bytes)) : SameFile wrapper after := by
  rcases read_cases room returned with ⟨same, -⟩ | ⟨-, -, same⟩ <;> rw [same] <;> exact ⟨rfl, rfl⟩

theorem SameFile.write {buffer : List Byte} {written : Nat}
    (returned : wrapper.write buffer kernel = .ok (after, written)) : SameFile wrapper after := by
  rw [(write_cases returned).1]
  exact ⟨rfl, rfl⟩

theorem SameFile.shutdown {how : ShutdownHow}
    (returned : wrapper.shutdown how kernel = .ok after) : SameFile wrapper after := by
  rcases Fallible.bind_eq_ok returned with ⟨_, _, returned⟩
  rw [← Fallible.pure_eq_ok returned]
  cases how <;> exact ⟨rfl, rfl⟩

theorem close_cases (returned : wrapper.close kernel = .ok after) :
    after = { wrapper with eof := true, closed := true } := by
  rcases Fallible.bind_eq_ok returned with ⟨_, _, returned⟩
  exact (Fallible.pure_eq_ok returned).symm

/-! ## Calls that the system lets through -/

theorem read_of_ok {size : Nat} {bytes : List Byte} (room : 0 < size)
    (answered : kernel.read wrapper.fd size = .ok bytes) (fits : bytes.length ≤ size) :
    wrapper.read size kernel = .ok (wrapper.afterRead bytes, bytes) := by
  simp only [read, if_neg (Nat.ne_of_gt room), answered, if_neg (Nat.not_lt_of_le fits)]
  rw [afterRead, registerRead]
  cases bytes <;> simp

theorem checkSystemCall_of_ok {attempt : String} {returned : Except Errno Nat} {value : Nat}
    (answered : returned = .ok value) : wrapper.checkSystemCall attempt returned = .ok value := by
  rw [answered, checkSystemCall]

theorem write_of_ok {buffer : List Byte} {written : Nat}
    (answered : kernel.write wrapper.fd buffer = .ok written) (positive : 0 < written)
    (fits : written ≤ buffer.length) :
    wrapper.write buffer kernel = .ok (wrapper.registerWrite, written) := by
  have flat : [buffer].flatten = buffer := List.flatten_singleton
  rw [write, writev, flat, Fallible.bind_of_ok (checkSystemCall_of_ok answered)]
  simp only [List.map_cons, List.map_nil, List.sum_cons, List.sum_nil, Nat.add_zero]
  rw [if_neg (fun none => Nat.ne_of_gt positive none.1), if_neg (Nat.not_lt_of_le fits)]
  rfl

theorem shutdown_of_ok {value : Nat} (answered : kernel.shutdown wrapper.fd .wr = .ok value) :
    wrapper.shutdown .wr kernel = .ok wrapper.registerWrite := by
  rw [shutdown, Fallible.bind_of_ok (checkSystemCall_of_ok answered)]
  rfl

theorem close_of_ok {value : Nat} (answered : kernel.close wrapper.fd = .ok value) :
    wrapper.close kernel = .ok { wrapper with eof := true, closed := true } := by
  rw [close, Fallible.bind_of_ok (checkSystemCall_of_ok answered)]
  rfl

end FDWrapper
end Rchan
