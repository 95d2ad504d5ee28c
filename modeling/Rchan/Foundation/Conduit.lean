import Mathlib.Data.List.Infix
import Mathlib.Tactic.Common

namespace Rchan

/-!
# Conduits

A conduit carries what is sent into one end to the other end.  What has been received is
the first part of what has been sent, and when the receiver has seen the end, the sender has
closed its own and nothing is missing.

Both ends take their steps without looking at each other, and conduits can be put in line.
-/

variable {Item : Type*}

structure Conduit (sent : List Item) (closed : Prop) (received : List Item) (ended : Prop) :
    Prop where
  inOrder : received <+: sent
  complete : ended → closed ∧ received = sent

namespace Conduit

variable {sent more middle received : List Item} {closed shut ended seen : Prop}

/-- Nothing has been sent yet, and the receiver has not seen an end. -/
theorem empty (sent : List Item) (unended : ¬ ended) : Conduit sent closed [] ended where
  inOrder := List.nil_prefix
  complete := fun isOver => absurd isOver unended

/-- The sender sends, or closes its end; behind a closed end it sends nothing. -/
theorem send (conduit : Conduit sent closed received ended) (grows : sent <+: more)
    (final : closed → shut ∧ more = sent) : Conduit more shut received ended where
  inOrder := conduit.inOrder.trans grows
  complete := fun isOver => by
    rcases conduit.complete isOver with ⟨isClosed, all⟩
    rcases final isClosed with ⟨isShut, same⟩
    exact ⟨isShut, all.trans same.symm⟩

/-- The receiver receives, or sees the end behind all that has been sent. -/
theorem receive (conduit : Conduit sent closed received ended) (longer : received <+: more)
    (within : more <+: sent) (ends : seen → ended ∨ closed ∧ more = sent) :
    Conduit sent closed more seen where
  inOrder := within
  complete := fun isOver => by
    rcases ends isOver with before | now
    · rcases conduit.complete before with ⟨isClosed, all⟩
      rw [all] at longer
      exact ⟨isClosed, within.eq_of_length_le longer.length_le⟩
    · exact now

/-- A conduit behind another one. -/
theorem trans {first second : Prop} (front : Conduit sent closed middle first)
    (back : Conduit middle first received second) : Conduit sent closed received second where
  inOrder := back.inOrder.trans front.inOrder
  complete := fun isOver => by
    rcases back.complete isOver with ⟨reached, all⟩
    rcases front.complete reached with ⟨isClosed, whole⟩
    exact ⟨isClosed, all.trans whole⟩

/-- Less may be said about the sender's end, and less seen at the receiver's. -/
theorem mono (conduit : Conduit sent closed received ended) (weaker : closed → shut)
    (stronger : seen → ended) : Conduit sent shut received seen where
  inOrder := conduit.inOrder
  complete := fun isOver => (conduit.complete (stronger isOver)).imp_left weaker

end Conduit
end Rchan
