import Dimpl.Config
import Mathlib.Algebra.Order.Field.Basic
import Mathlib.Data.Rat.Cast.Order
import Mathlib.Tactic.Linarith
import Mathlib.Tactic.Positivity
import Mathlib.Tactic.Ring

/-!
# Timeouts of a flight

The timeout doubles with every attempt, and a draw of up to a quarter of a second is added to it, however
long it is. Seconds are exact fractions here, so that nothing is rounded.
-/

namespace Dimpl

/-- The longest `Duration`, in seconds. -/
def Duration.longest : ℚ := 2 ^ 64 - 1 / 10 ^ 9

/-- A sum or a product of durations, which must not overflow. -/
def Duration.checked (seconds : ℚ) : Option ℚ := if seconds ≤ Duration.longest then some seconds else none

/-- `ExponentialBackoff` with exact durations. -/
structure ExactBackoff where
  startRto : ℚ
  retries : Nat
  baseRto : ℚ
  jitter : ℚ
  left : Nat

/-- A value between -0.25s and 0.25s, without the upper bound. -/
def IsDraw (jitter : ℚ) : Prop := -1 / 4 ≤ jitter ∧ jitter < 1 / 4

namespace ExactBackoff

/-- `ExponentialBackoff::new` with the jitter that was drawn. -/
def new (startRto : ℚ) (retries : Nat) (draw : ℚ) : ExactBackoff :=
  { startRto, retries, baseRto := startRto, jitter := draw, left := retries }

/-- `reset` with the jitter that was drawn. -/
def reset (backoff : ExactBackoff) (draw : ℚ) : ExactBackoff :=
  { backoff with baseRto := backoff.startRto, jitter := draw, left := backoff.retries }

/-- `rto`: the jittered timeout, at least 50 milliseconds. -/
def rto (backoff : ExactBackoff) : Option ℚ :=
  if backoff.jitter < 0 then some (max (max (backoff.baseRto - |backoff.jitter|) 0) (1 / 20))
  else (Duration.checked (backoff.baseRto + backoff.jitter)).map fun duration => max duration (1 / 20)

/-- `attempt` with the jitter that was drawn, should one be drawn. -/
def attempt (backoff : ExactBackoff) (draw : ℚ) : Option ExactBackoff :=
  if backoff.left = 0 then some backoff
  else (Duration.checked (backoff.baseRto * 2)).map fun doubled =>
    { backoff with left := backoff.left - 1, jitter := draw, baseRto := doubled }

/-- Some attempts, one for each draw. -/
def attempts (backoff : ExactBackoff) (draws : List ℚ) : Option ExactBackoff :=
  draws.foldlM attempt backoff

variable {startRto : ℚ} {retries : Nat} {first draw : ℚ} {draws : List ℚ}

theorem attempts_concat {backoff : ExactBackoff} :
    backoff.attempts (draws ++ [draw]) = (backoff.attempts draws).bind fun b => b.attempt draw := by
  unfold attempts
  rw [List.foldlM_append]
  simp

/-- A back-off behind some attempts: the timeout doubled with each of them, and the last draw counts. -/
def after (startRto : ℚ) (retries : Nat) (first : ℚ) (draws : List ℚ) : ExactBackoff where
  startRto := startRto
  retries := retries
  baseRto := startRto * 2 ^ draws.length
  jitter := draws.getLastD first
  left := retries - draws.length

/-- An attempt that is left doubles the timeout, if that does not overflow. -/
theorem attempt_after (left : draws.length < retries) :
    (after startRto retries first draws).attempt draw =
      if startRto * 2 ^ (draws.length + 1) ≤ Duration.longest then
        some (after startRto retries first (draws ++ [draw])) else none := by
  have doubled : startRto * 2 ^ draws.length * 2 = startRto * 2 ^ (draws.length + 1) := by ring
  have notNone : (after startRto retries first draws).left ≠ 0 := by
    simp [after]
    omega
  have isLast : (draws ++ [draw]).getLastD first = draw := by simp
  rw [attempt, if_neg notNone, Duration.checked]
  simp only [after, doubled, isLast, List.length_append, List.length_singleton, Nat.sub_sub]
  split <;> rfl

/-- Attempts that succeed lead where they should. -/
theorem attempts_eq {backoff : ExactBackoff} (few : draws.length ≤ retries)
    (succeeded : (new startRto retries first).attempts draws = some backoff) :
    backoff = after startRto retries first draws := by
  induction draws using List.reverseRecOn generalizing backoff with
  | nil =>
      simp only [attempts, List.foldlM_nil, Option.pure_def, Option.some.injEq] at succeeded
      simp [← succeeded, new, after]
  | append_singleton draws draw inductionHypothesis =>
      rw [List.length_append, List.length_singleton] at few
      rw [attempts_concat] at succeeded
      obtain ⟨earlier, isEarlier, succeeded⟩ := Option.bind_eq_some_iff.mp succeeded
      rw [inductionHypothesis (by omega) isEarlier, attempt_after (by omega)] at succeeded
      split at succeeded
      · exact (Option.some.inj succeeded).symm
      · cases succeeded

/-- As long as no doubling overflows, every attempt succeeds. -/
theorem attempts_after (positive : 0 < startRto) (room : startRto * 2 ^ retries ≤ Duration.longest)
    (few : draws.length ≤ retries) :
    (new startRto retries first).attempts draws = some (after startRto retries first draws) := by
  induction draws using List.reverseRecOn with
  | nil => simp [attempts, new, after]
  | append_singleton draws draw inductionHypothesis =>
      rw [List.length_append, List.length_singleton] at few
      have smaller : startRto * 2 ^ (draws.length + 1) ≤ startRto * 2 ^ retries :=
        mul_le_mul_of_nonneg_left (pow_le_pow_right₀ (by norm_num) few) positive.le
      rw [attempts_concat, inductionHypothesis (by omega), Option.bind_some, attempt_after (by omega),
        if_pos (smaller.trans room)]

theorem isDraw_getLastD (isFirst : IsDraw first) (areDraws : ∀ draw ∈ draws, IsDraw draw) :
    IsDraw (draws.getLastD first) := by
  rcases List.eq_nil_or_concat draws with rfl | ⟨front, last, rfl⟩
  · exact isFirst
  · simpa using areDraws last (by simp)

/-- A draw leaves a timeout of a second or more within its quarter of a second. -/
theorem rto_after (isFirst : IsDraw first) (areDraws : ∀ draw ∈ draws, IsDraw draw)
    (long : 1 ≤ startRto * 2 ^ draws.length)
    (room : startRto * 2 ^ draws.length + 1 / 4 ≤ Duration.longest) :
    (after startRto retries first draws).rto =
      some (startRto * 2 ^ draws.length + draws.getLastD first) := by
  obtain ⟨low, high⟩ := isDraw_getLastD isFirst areDraws
  unfold rto after
  dsimp only
  generalize draws.getLastD first = jitter at *
  generalize startRto * 2 ^ draws.length = base at *
  split
  · rename_i negative
    have size : |jitter| = -jitter := abs_of_neg negative
    rw [size, sub_neg_eq_add, max_eq_left (show 0 ≤ base + jitter by linarith), max_eq_left (by linarith)]
  · rename_i positive
    rw [Duration.checked, if_pos (by linarith), Option.map_some, max_eq_left (by linarith)]

end ExactBackoff

/-- Timeouts that back off as documented, whatever is drawn: doubled with every attempt and within a
quarter of that, never shorter than before, as often as retries are left, and from the start again
once reset. -/
structure BacksOff (startRto : ℚ) (retries : Nat) : Prop where
  close : ∀ first draws, IsDraw first → (∀ draw ∈ draws, IsDraw draw) → draws.length ≤ retries →
    ∃ rto, ((ExactBackoff.new startRto retries first).attempts draws).bind ExactBackoff.rto = some rto ∧
      |rto - startRto * 2 ^ draws.length| ≤ startRto * 2 ^ draws.length / 4
  rises : ∀ first draws draw, IsDraw first → (∀ other ∈ draws ++ [draw], IsDraw other) →
    draws.length < retries → ∃ rto rto',
      ((ExactBackoff.new startRto retries first).attempts draws).bind ExactBackoff.rto = some rto ∧
      ((ExactBackoff.new startRto retries first).attempts (draws ++ [draw])).bind ExactBackoff.rto =
        some rto' ∧ rto ≤ rto'
  counts : ∀ first draws, IsDraw first → (∀ draw ∈ draws, IsDraw draw) → draws.length ≤ retries →
    ∃ backoff, (ExactBackoff.new startRto retries first).attempts draws = some backoff ∧
      backoff.left + draws.length = retries
  exhausted : ∀ (backoff : ExactBackoff) draw, backoff.left = 0 → backoff.attempt draw = some backoff
  resets : ∀ first draws backoff draw,
    (ExactBackoff.new startRto retries first).attempts draws = some backoff →
    backoff.reset draw = ExactBackoff.new startRto retries draw

namespace ExactBackoff

variable {startRto : ℚ} {retries : Nat} {first draw : ℚ} {draws : List ℚ}

theorem attempt_exhausted {backoff : ExactBackoff} (exhausted : backoff.left = 0) :
    backoff.attempt draw = some backoff := if_pos exhausted

theorem attempt_reset {backoff backoff' : ExactBackoff} {other : ℚ}
    (attempted : backoff.attempt draw = some backoff') : backoff'.reset other = backoff.reset other := by
  unfold attempt at attempted
  split at attempted
  · cases attempted
    rfl
  · obtain ⟨_, _, rfl⟩ := Option.map_eq_some_iff.mp attempted
    rfl

/-- A reset forgets the attempts. -/
theorem attempts_reset {backoff backoff' : ExactBackoff} {other : ℚ}
    (attempted : backoff.attempts draws = some backoff') : backoff'.reset other = backoff.reset other := by
  induction draws generalizing backoff with
  | nil =>
      cases attempted
      rfl
  | cons draw draws inductionHypothesis =>
      rw [attempts, List.foldlM_cons] at attempted
      obtain ⟨next, isNext, attempted⟩ := Option.bind_eq_some_iff.mp attempted
      exact (inductionHypothesis attempted).trans (attempt_reset isNext)

end ExactBackoff

section Spec

open ExactBackoff

variable {startRto : ℚ} {retries : Nat}

/-- A start of a second and room for all doublings are enough. -/
theorem backsOff_of_long (long : 1 ≤ startRto) (room : startRto * 2 ^ retries + 1 / 4 ≤ Duration.longest) :
    BacksOff startRto retries := by
  have positive : 0 < startRto := by linarith
  have bound : ∀ count, count ≤ retries → 1 ≤ startRto * 2 ^ count ∧
      startRto * 2 ^ count + 1 / 4 ≤ Duration.longest := by
    intro count few
    have smaller : startRto * 2 ^ count ≤ startRto * 2 ^ retries :=
      mul_le_mul_of_nonneg_left (pow_le_pow_right₀ (by norm_num) few) positive.le
    have larger : startRto * 1 ≤ startRto * 2 ^ count :=
      mul_le_mul_of_nonneg_left (one_le_pow₀ (by norm_num)) positive.le
    constructor <;> linarith
  have attempted : ∀ first draws, draws.length ≤ retries →
      (ExactBackoff.new startRto retries first).attempts draws = some (after startRto retries first draws) :=
    fun _ _ few => attempts_after positive (by linarith) few
  have timeout : ∀ first draws, IsDraw first → (∀ draw ∈ draws, IsDraw draw) → draws.length ≤ retries →
      ((ExactBackoff.new startRto retries first).attempts draws).bind ExactBackoff.rto =
        some (startRto * 2 ^ draws.length + draws.getLastD first) := by
    intro first draws isFirst areDraws few
    rw [attempted first draws few, Option.bind_some]
    exact rto_after isFirst areDraws (bound _ few).1 (bound _ few).2
  have drawn : ∀ first draws, IsDraw first → (∀ draw ∈ draws, IsDraw draw) → IsDraw (List.getLastD draws first) := by
    intro first draws isFirst areDraws
    rcases List.eq_nil_or_concat draws with rfl | ⟨front, last, rfl⟩
    · exact isFirst
    · simpa using areDraws last (by simp)
  refine ⟨?_, ?_, ?_, fun _ _ => attempt_exhausted, ?_⟩
  · intro first draws isFirst areDraws few
    obtain ⟨low, high⟩ := isDraw_getLastD isFirst areDraws
    have long := (bound _ few).1
    refine ⟨_, timeout first draws isFirst areDraws few, ?_⟩
    rw [add_sub_cancel_left, abs_le]
    constructor <;> linarith
  · intro first draws draw isFirst areDraws left
    have areFirst : ∀ other ∈ draws, IsDraw other := fun other member => areDraws other (by simp [member])
    obtain ⟨-, high⟩ := isDraw_getLastD isFirst areFirst
    obtain ⟨low, -⟩ := areDraws draw (by simp)
    have long := (bound _ left.le).1
    refine ⟨_, _, timeout first draws isFirst areFirst left.le,
      timeout first (draws ++ [draw]) isFirst areDraws (by simp; omega), ?_⟩
    have isLast : (draws ++ [draw]).getLastD first = draw := by simp
    have doubled : startRto * 2 ^ (draws.length + 1) = startRto * 2 ^ draws.length * 2 := by ring
    rw [isLast, List.length_append, List.length_singleton, doubled]
    linarith
  · intro first draws _ _ few
    refine ⟨_, attempted first draws few, ?_⟩
    simp [after]
    omega
  · intro first draws backoff draw succeeded
    exact attempts_reset succeeded

/-- A timeout that is added to does not get shorter. -/
theorem le_rto {backoff : ExactBackoff} {rto : ℚ} (isRto : backoff.rto = some rto)
    (positive : 0 ≤ backoff.jitter) :
    backoff.baseRto + backoff.jitter ≤ rto ∧ backoff.baseRto + backoff.jitter ≤ Duration.longest := by
  rw [ExactBackoff.rto, if_neg (not_lt.mpr positive), Duration.checked] at isRto
  split at isRto
  · rename_i fits
    cases isRto
    exact ⟨le_max_left _ _, fits⟩
  · cases isRto

/-- Timeouts back off as documented exactly from a second on, and as long as no doubling overflows. -/
theorem backsOff_iff (startRto : ℚ) (retries : Nat) (positive : 0 < startRto) :
    BacksOff startRto retries ↔ 1 ≤ startRto ∧ startRto * 2 ^ retries + 1 / 4 ≤ Duration.longest := by
  refine ⟨fun backsOff => ?_, fun ⟨long, room⟩ => backsOff_of_long long room⟩
  -- A quarter of a second more, or nearly so, is a quarter of the timeout at most.
  constructor
  · by_contra short
    have isDraw : IsDraw (startRto / 8 + 1 / 8) := ⟨by linarith, by linarith⟩
    obtain ⟨rto, isRto, near⟩ := backsOff.close (startRto / 8 + 1 / 8) [] isDraw (by simp) (Nat.zero_le _)
    obtain ⟨longer, -⟩ := le_rto isRto (by simp [ExactBackoff.new]; linarith)
    obtain ⟨-, bounded⟩ := abs_le.mp near
    simp only [ExactBackoff.new, List.length_nil, pow_zero, mul_one] at longer bounded
    linarith
  · by_contra full
    -- The last draw is as large as it takes.
    obtain ⟨last, low, high, beyond⟩ : ∃ last : ℚ, 0 ≤ last ∧ last < 1 / 4 ∧
        Duration.longest < startRto * 2 ^ retries + last := by
      have bound : Duration.longest - startRto * 2 ^ retries < 1 / 4 := by linarith
      obtain ⟨last, above, below⟩ := exists_between (max_lt bound (show (0 : ℚ) < 1 / 4 by norm_num))
      obtain ⟨enough, positive⟩ := max_lt_iff.mp above
      exact ⟨last, positive.le, below, by linarith⟩
    have isLast : (List.replicate retries last).getLastD last = last := by
      cases retries <;> simp [List.getLastD_eq_getLast?, List.getLast?_replicate]
    have isDraw : IsDraw last := ⟨by linarith, high⟩
    obtain ⟨rto, isRto, -⟩ := backsOff.close last (List.replicate retries last) isDraw
      (fun draw member => (List.eq_of_mem_replicate member) ▸ isDraw) (by simp)
    obtain ⟨backoff, succeeded, isRto⟩ := Option.bind_eq_some_iff.mp isRto
    obtain rfl := attempts_eq (by simp) succeeded
    obtain ⟨-, fits⟩ := le_rto isRto (by rw [after, isLast]; exact low)
    simp only [after, isLast, List.length_replicate] at fits
    linarith

theorem backsOff_iff_sample :
    (0 : ℚ) < 1 ∧ (BacksOff 1 4 ↔ (1 : ℚ) ≤ 1 ∧ (1 : ℚ) * 2 ^ 4 + 1 / 4 ≤ Duration.longest) :=
  ⟨by norm_num, backsOff_iff 1 4 (by norm_num)⟩

/-- A timeout of a tenth of a second can start at half of that. -/
theorem not_backsOff : ¬ ∀ (startRto : ℚ) (retries : Nat), 0 < startRto → BacksOff startRto retries := by
  intro claim
  have isDraw : IsDraw (-1 / 4) := ⟨by norm_num, by norm_num⟩
  obtain ⟨rto, isRto, near⟩ := (claim (1 / 10) 4 (by norm_num)).close (-1 / 4) [] isDraw (by simp) (by simp)
  have isShort : ((ExactBackoff.new (1 / 10) 4 (-1 / 4)).attempts []).bind ExactBackoff.rto =
      some (1 / 20) := by
    norm_num [ExactBackoff.attempts, ExactBackoff.new, ExactBackoff.rto, abs_of_neg]
  cases isShort.symm.trans isRto
  norm_num [abs_of_neg] at near

end Spec

namespace ExponentialBackoff

variable {backoff : ExponentialBackoff} {rng : SeededRng}

/-- The timers of an engine count nanoseconds. -/
def exact (backoff : ExponentialBackoff) : ExactBackoff where
  startRto := backoff.startRto / 10 ^ 9
  retries := backoff.retries
  baseRto := backoff.baseRto / 10 ^ 9
  jitter := backoff.jitter / 10 ^ 9
  left := backoff.left

/-- What is drawn is a value between -0.25s and 0.25s. -/
theorem drawJitter_isDraw : IsDraw ((drawJitter rng).1 / 10 ^ 9) := by
  have bound := Nat.mod_lt (rng.stream rng.position) (show 500000000 > 0 by decide)
  have value : (drawJitter rng).1 = ((rng.stream rng.position % 500000000 : Nat) : Int) - 250000000 := rfl
  rw [value]
  generalize rng.stream rng.position % 500000000 = drawn at bound
  have low : (0 : ℚ) ≤ drawn := Nat.cast_nonneg _
  have high : (drawn : ℚ) < 500000000 := by exact_mod_cast bound
  push_cast
  constructor <;> linarith

/-- The timeout in nanoseconds is the exact one, unless that overflows. -/
theorem exact_rto (fits : ((backoff.baseRto : ℚ) + backoff.jitter) / 10 ^ 9 ≤ Duration.longest) :
    backoff.exact.rto = some ((backoff.rto : ℚ) / 10 ^ 9) := by
  have scale : (0 : ℚ) < 10 ^ 9 := by positivity
  have whole : (backoff.rto : ℚ) / 10 ^ 9 =
      max (max (((backoff.baseRto : ℚ) + backoff.jitter) / 10 ^ 9) 0) (1 / 20) := by
    have least : ((50000000 : Nat) : ℚ) / 10 ^ 9 = 1 / 20 := by norm_num
    have sum : ((((backoff.baseRto : Int) + backoff.jitter).toNat : Nat) : ℚ) =
        max ((backoff.baseRto : ℚ) + backoff.jitter) 0 := by
      have isMax := Int.toNat_eq_max ((backoff.baseRto : Int) + backoff.jitter)
      have cast := congrArg (Int.cast : Int → ℚ) isMax
      push_cast at cast
      exact cast
    rw [ExponentialBackoff.rto, Nat.cast_max, sum, ← least, ← max_div_div_right scale.le,
      ← max_div_div_right scale.le, zero_div]
  rw [whole]
  unfold ExactBackoff.rto exact
  dsimp only
  rw [add_div] at fits ⊢
  split
  · rename_i negative
    rw [abs_of_neg negative, sub_neg_eq_add]
  · rename_i positive
    have base : (0 : ℚ) ≤ backoff.baseRto / 10 ^ 9 := by positivity
    rw [Duration.checked, if_pos fits, Option.map_some,
      max_eq_left (show (0 : ℚ) ≤ backoff.baseRto / 10 ^ 9 + backoff.jitter / 10 ^ 9 by linarith)]

/-- An attempt is the exact one with what is drawn, unless that overflows. -/
theorem exact_attempt (fits : (backoff.baseRto : ℚ) * 2 / 10 ^ 9 ≤ Duration.longest) :
    backoff.exact.attempt ((drawJitter rng).1 / 10 ^ 9) = some (backoff.attempt rng).1.exact := by
  have doubled : (backoff.baseRto : ℚ) / 10 ^ 9 * 2 = backoff.baseRto * 2 / 10 ^ 9 := by ring
  unfold ExactBackoff.attempt attempt exact
  dsimp only
  split
  · rfl
  · rw [doubled, Duration.checked, if_pos fits]
    simp

end ExponentialBackoff

end Dimpl
