import Dimpl.Lib.Program

/-!
# What the calls of a run return

Some calls of a run return a value. What holds of each of them, and how often one of a
kind is returned, follows from what a call does to the state.
-/

namespace Program

variable {σ Call ω : Type} {exec : σ → Call → σ} {output : σ → Call → Option ω}

/-- The values the calls of a run return, in order. -/
def outputs (exec : σ → Call → σ) (output : σ → Call → Option ω) : σ → List Call → List ω
  | _, [] => []
  | s, call :: calls => (output s call).toList ++ outputs exec output (exec s call) calls

/-- What every call returns under an invariant holds of all that a run returns. -/
theorem forall_mem_outputs {Inv : σ → Prop} {P : ω → Prop}
    (preserved : ∀ s call, Inv s → Inv (exec s call))
    (returned : ∀ s call value, Inv s → output s call = some value → P value) {s : σ} (initial : Inv s)
    {calls : List Call} : ∀ value ∈ outputs exec output s calls, P value := by
  induction calls generalizing s with
  | nil => exact fun _ member => absurd member List.not_mem_nil
  | cons call calls inductionHypothesis =>
      intro value member
      rcases List.mem_append.mp member with now | later
      · exact returned s call value initial (Option.mem_toList.mp now)
      · exact inductionHypothesis (preserved s call initial) value later

variable {kind : ω → Bool} {spent : σ → Prop}

/-- A kind of value is returned at most once, when a call that returns it leaves a mark
that no call takes away and that keeps it from being returned. -/
theorem countP_outputs_le_one (kept : ∀ s call, spent s → spent (exec s call))
    (marks : ∀ s call value, output s call = some value → kind value = true →
      ¬spent s ∧ spent (exec s call)) {s : σ} {calls : List Call} :
    (outputs exec output s calls).countP kind ≤ 1 := by
  have none : ∀ s calls, spent s → (outputs exec output s calls).countP kind = 0 := by
    intro s calls isSpent
    refine List.countP_eq_zero.mpr (forall_mem_outputs kept ?_ isSpent)
    intro s call value isSpent returned isKind
    exact (marks s call value returned isKind).1 isSpent
  induction calls generalizing s with
  | nil => exact Nat.zero_le 1
  | cons call calls inductionHypothesis =>
      rw [outputs, List.countP_append]
      cases returned : output s call with
      | none => simpa using inductionHypothesis
      | some value =>
          cases isKind : kind value with
          | false => simpa [isKind] using inductionHypothesis
          | true =>
              have after := none (exec s call) calls (marks s call value returned isKind).2
              simp [isKind, after]

end Program
