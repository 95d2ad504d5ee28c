import Rchan.Foundation.Conduit
import Rchan.System.FileDescriptor

namespace Rchan

/-!
# Pairs of connected stream sockets

Two stream sockets of a pair carry bytes in both directions.  A read is answered with the
next bytes that the other end has been given, or with the end behind all of them when that
end has been shut down; an end that has been shut down takes no more bytes.

A program that reads its end remembers the bytes and the end that it has seen.  Whatever it
does in between, its memory and the other end's are the two ends of a conduit.
-/

/-- How the system answers for one end of a pair: `sent` has been given to the other end,
which is `closed` or not, `received` has been read here, and this end is `shut` or not. -/
structure Kernel.StreamEnd (kernel : Kernel) (fd : Nat) (received sent : List Byte)
    (closed shut : Prop) : Prop where
  reads : ∀ size bytes, kernel.read fd size = .ok bytes → received ++ bytes <+: sent
  ends : ∀ size, 0 < size → kernel.read fd size = .ok [] → closed ∧ received = sent
  writes : shut → ∀ buffer written, kernel.write fd buffer ≠ .ok written

/-- What a program has read of its end while an event was handled: nothing, or what one call
has been answered with. -/
inductive Took (kernel : Kernel) (fd : Nat) (before : List Byte) (endBefore : Prop) :
    List Byte → Prop → Prop where
  | nothing : Took kernel fd before endBefore before endBefore
  | read {size : Nat} {bytes : List Byte} {ended : Prop} (room : 0 < size)
      (answered : kernel.read fd size = .ok bytes) (ends : ended → endBefore ∨ bytes = []) :
      Took kernel fd before endBefore (before ++ bytes) ended

theorem Took.conduit {kernel : Kernel} {fd : Nat} {before after sent : List Byte}
    {endBefore endAfter closed shut : Prop} (took : Took kernel fd before endBefore after endAfter)
    (answers : kernel.StreamEnd fd before sent closed shut)
    (conduit : Conduit sent closed before endBefore) : Conduit sent closed after endAfter := by
  cases took with
  | nothing => exact conduit
  | @read size bytes _ room answered ends =>
      refine conduit.receive (List.prefix_append _ _) (answers.reads size bytes answered) ?_
      intro ended
      refine (ends ended).imp_right ?_
      rintro rfl
      rw [List.append_nil]
      exact answers.ends size room answered

/-- Answer a read of an end at which some bytes are waiting. -/
def readEnd (waiting : List Byte) (closed : Bool) (size : Nat) : Except Errno (List Byte) :=
  if waiting.isEmpty then if closed then .ok [] else .error .eagain
  else .ok (waiting.take size)

/-- Such answers are those of a pair. -/
theorem Kernel.streamEnd_of_readEnd {kernel : Kernel} {fd : Nat} {received sent : List Byte}
    {closed shut : Prop} {isClosed : Bool} (isPrefix : received <+: sent)
    (answers : ∀ size, kernel.read fd size = readEnd (sent.drop received.length) isClosed size)
    (ends : isClosed = true → closed)
    (refuses : shut → ∀ buffer written, kernel.write fd buffer ≠ .ok written) :
    kernel.StreamEnd fd received sent closed shut where
  reads := by
    intro size bytes answered
    rw [answers, readEnd] at answered
    split at answered
    · split at answered
      · rw [← Except.ok.inj answered, List.append_nil]
        exact isPrefix
      · cases answered
    · rw [← Except.ok.inj answered]
      conv => rhs; rw [← List.prefix_iff_eq_append.mp isPrefix]
      exact (List.prefix_append_right_inj received).mpr (List.take_prefix _ _)
  ends := by
    intro size room answered
    rw [answers, readEnd] at answered
    split at answered
    · rename_i nothing
      rw [List.isEmpty_iff] at nothing
      split at answered
      · rename_i closed
        have whole := List.prefix_iff_eq_append.mp isPrefix
        rw [nothing, List.append_nil] at whole
        exact ⟨ends closed, whole⟩
      · cases answered
    · rename_i waiting
      rw [List.isEmpty_iff] at waiting
      have none := List.take_eq_nil_iff.mp (Except.ok.inj answered)
      exact absurd (none.resolve_left (Nat.ne_of_gt room)) waiting
  writes := refuses

namespace FDWrapper

variable {wrapper after : FDWrapper} {kernel : Kernel}

/-- A read of a wrapper takes what the system has answered, and an empty answer is the end. -/
theorem took_of_read {size : Nat} {bytes before : List Byte} (room : 0 < size)
    (returned : wrapper.read size kernel = .ok (after, bytes)) :
    Took kernel wrapper.fd before (wrapper.eof = true) (before ++ bytes) (after.eof = true) := by
  rcases read_cases room returned with ⟨rfl, rfl⟩ | ⟨answered, -, rfl⟩
  · rw [List.append_nil]
    exact .nothing
  · refine .read room answered fun ended => ?_
    rw [afterRead, Bool.or_eq_true, List.isEmpty_iff] at ended
    exact ended

theorem eof_write {buffer : List Byte} {written : Nat}
    (returned : wrapper.write buffer kernel = .ok (after, written)) : after.eof = wrapper.eof := by
  rw [(write_cases returned).1]
  rfl

theorem eof_shutdown {how : ShutdownHow} (returned : wrapper.shutdown how kernel = .ok after) :
    after.eof = wrapper.eof := by
  rcases Fallible.bind_eq_ok returned with ⟨_, _, returned⟩
  rw [← Fallible.pure_eq_ok returned]
  cases how <;> rfl

/-- A write that returns has been answered, unless it had nothing to write. -/
theorem write_answered {buffer : List Byte} {written : Nat} (nonempty : buffer ≠ [])
    (returned : wrapper.write buffer kernel = .ok (after, written)) :
    kernel.write wrapper.fd buffer = .ok written := by
  have positive := (write_cases returned).2.2 nonempty
  rcases Fallible.bind_eq_ok returned with ⟨count, checked, returned⟩
  have same : count = written := by
    split at returned
    · cases returned
    · split at returned
      · cases returned
      · exact congrArg Prod.snd (Fallible.pure_eq_ok returned)
  rw [List.flatten_singleton] at checked
  unfold checkSystemCall at checked
  split at checked
  · rename_i value answered
    rw [answered, ← same, Except.ok.inj checked]
  · split at checked
    · have none := Except.ok.inj checked
      omega
    · cases checked

end FDWrapper
end Rchan
