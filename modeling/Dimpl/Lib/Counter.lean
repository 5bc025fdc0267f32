import Dimpl.Lib.Program

/-!
# Counters of a machine word

A counter gives out numbers one after the other and starts again at zero when the word is
full. How long it may run without that is a matter of how many numbers are taken.
-/

namespace Program

variable {σ Call : Type}

/-- One more in a word of `m` values, if a number is taken. -/
def bump (m : Nat) (taken : Bool) (counter : Nat) : Nat := if taken then (counter + 1) % m else counter

/-- How many steps of a run take a number. -/
def takings (exec : σ → Call → σ) (takes : σ → Call → Bool) : σ → List Call → Nat
  | _, [] => 0
  | s, call :: calls => (takes s call).toNat + takings exec takes (exec s call) calls

/-- The numbers that a run takes, in order. -/
def numbers (exec : σ → Call → σ) (view : σ → Nat) (takes : σ → Call → Bool) : σ → List Call → List Nat
  | _, [] => []
  | s, call :: calls => (if takes s call then [view s] else []) ++ numbers exec view takes (exec s call) calls

/-- A counter that never starts again, so that no number is taken twice. -/
structure Climbs (exec : σ → Call → σ) (view : σ → Nat) (takes : σ → Call → Bool) (s : σ)
    (calls : List Call) : Prop where
  rises : Meets exec (fun s call => view s ≤ view (exec s call)) s calls
  once : (numbers exec view takes s calls).Pairwise (· < ·)

section Counters

variable {exec : σ → Call → σ} {view : σ → Nat} {takes : σ → Call → Bool} {cond : σ → Call → Prop}
  {m : Nat} {s : σ} {calls : List Call}

/-- Where the call alone tells whether a number is taken. -/
theorem takings_static {p : Call → Bool} (fixed : ∀ s call, takes s call = p call) :
    takings exec takes s calls = calls.countP p := by
  induction calls generalizing s with
  | nil => rfl
  | cons call calls inductionHypothesis =>
      rw [takings, inductionHypothesis, fixed, List.countP_cons]
      cases p call <;> simp [Nat.add_comm]

theorem takings_append {first second : List Call} :
    takings exec takes s (first ++ second) =
      takings exec takes s first + takings exec takes (run exec s first) second := by
  induction first generalizing s with
  | nil => exact (Nat.zero_add _).symm
  | cons call first inductionHypothesis =>
      rw [List.cons_append, takings, takings, inductionHypothesis, Nat.add_assoc]
      rfl

variable (step : ∀ s call, cond s call → view (exec s call) = bump m (takes s call) (view s))

include step

/-- With room the numbers are those from here on. -/
theorem numbers_ge (room : view s + takings exec takes s calls < m) (meets : Meets exec cond s calls) :
    (∀ number ∈ numbers exec view takes s calls, view s ≤ number) ∧
      (numbers exec view takes s calls).Pairwise (· < ·) := by
  induction calls generalizing s with
  | nil => exact ⟨fun _ member => absurd member List.not_mem_nil, .nil⟩
  | cons call calls inductionHypothesis =>
      have moved := step s call meets.1
      unfold bump at moved
      unfold takings at room
      unfold numbers
      cases isTaken : takes s call with
      | false =>
          rw [isTaken, if_neg Bool.false_ne_true] at moved
          rw [isTaken, Bool.toNat_false, Nat.zero_add, ← moved] at room
          rw [if_neg Bool.false_ne_true, List.nil_append, ← moved]
          exact inductionHypothesis room meets.2
      | true =>
          rw [isTaken, Bool.toNat_true] at room
          rw [isTaken, if_pos rfl, Nat.mod_eq_of_lt (by omega)] at moved
          obtain ⟨later, increasing⟩ := @inductionHypothesis (exec s call) (by omega) meets.2
          rw [if_pos rfl, List.singleton_append]
          refine ⟨fun number member => ?_, List.pairwise_cons.mpr ⟨fun number member => ?_, increasing⟩⟩
          · rcases List.mem_cons.mp member with rfl | member
            · exact Nat.le_refl _
            · have := later number member
              omega
          · have := later number member
            omega

/-- A counter climbs exactly as long as there is room for all that is taken. -/
theorem climbs_iff (wide : 1 < m) (bound : view s < m) (meets : Meets exec cond s calls) :
    Climbs exec view takes s calls ↔ view s + takings exec takes s calls < m := by
  constructor
  · rintro ⟨rises, -⟩
    induction calls generalizing s with
    | nil => exact bound
    | cons call calls inductionHypothesis =>
        have moved := step s call meets.1
        unfold bump at moved
        unfold takings
        cases isTaken : takes s call with
        | false =>
            rw [isTaken, if_neg Bool.false_ne_true] at moved
            have later := inductionHypothesis (moved ▸ bound) meets.2 rises.2
            rw [moved] at later
            simpa using later
        | true =>
            rw [isTaken, if_pos rfl] at moved
            have rise : view s ≤ view (exec s call) := rises.1
            have full : view s + 1 ≠ m := by
              rintro full
              rw [moved, full, Nat.mod_self] at rise
              omega
            rw [Nat.mod_eq_of_lt (by omega)] at moved
            have later := inductionHypothesis (by omega) meets.2 rises.2
            rw [Bool.toNat_true]
            omega
  · intro room
    refine ⟨?_, (numbers_ge step room meets).2⟩
    induction calls generalizing s with
    | nil => trivial
    | cons call calls inductionHypothesis =>
        have moved := step s call meets.1
        unfold bump at moved
        unfold takings at room
        cases isTaken : takes s call with
        | false =>
            rw [isTaken, if_neg Bool.false_ne_true] at moved
            rw [isTaken, Bool.toNat_false, Nat.zero_add, ← moved] at room
            exact ⟨Nat.le_of_eq moved.symm, inductionHypothesis (moved ▸ bound) meets.2 room⟩
        | true =>
            rw [isTaken, Bool.toNat_true] at room
            rw [isTaken, if_pos rfl, Nat.mod_eq_of_lt (by omega)] at moved
            exact ⟨by omega, inductionHypothesis (by omega) meets.2 (by omega)⟩

end Counters

end Program
