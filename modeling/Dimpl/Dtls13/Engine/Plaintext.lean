import Dimpl.Dtls13.Engine.Metered

/-!
# Numbers of plaintext records

The number of the next plaintext record does not fall, whatever is called. It rises with every record
of the epoch zero that is placed in the queue.
-/

namespace Dimpl.Dtls13

open Nom Program

/-- No step of the counters lowers the number. -/
theorem rises_metered : Metered (Rises Engine.sequenceEpoch0) where
  same := fun same => Nat.le_of_eq (congrArg Meter.sequenceEpoch0 same).symm
  plaintext := fun e => Nat.le_succ e.sequenceEpoch0
  counted := by
    intro e epoch slot
    cases slot <;> exact Nat.le_refl e.sequenceEpoch0

/-- Whatever is called, the number of the next plaintext record does not fall. -/
theorem exec_rises {e : Engine} {call : Call} : e.sequenceEpoch0 ≤ (e.exec call).sequenceEpoch0 :=
  exec_metered rises_metered (updateSendKeys_unkeyed.rises Engine.sequenceEpoch0 fun _ => rfl)

/-- No plaintext number from here on was there before. -/
theorem run_rises {e : Engine} {calls : List Call} :
    e.sequenceEpoch0 ≤ (run Engine.exec e calls).sequenceEpoch0 := by
  induction calls generalizing e with
  | nil => exact Nat.le_refl _
  | cons call calls inductionHypothesis => exact Nat.le_trans exec_rises inductionHypothesis

end Dimpl.Dtls13
