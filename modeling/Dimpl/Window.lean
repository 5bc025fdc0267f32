import Mathlib.Data.BitVec

/-!
# Replay window

The sliding window of `window.rs`: the largest accepted number and a bitmap of
the 64 numbers below it.
-/

namespace Dimpl

/-- The newest accepted sequence number and the numbers seen just below it. -/
structure ReplayWindow where
  maxSeq : Nat
  window : BitVec 64
  deriving DecidableEq

namespace ReplayWindow

/-- A window that has seen nothing. -/
def new : ReplayWindow := ⟨0, 0⟩

/-- Whether a sequence number is neither a replay nor too old. -/
def check (w : ReplayWindow) (seqno : Nat) : Bool :=
  if seqno > w.maxSeq then true
  else
    let offset := w.maxSeq - seqno
    if offset ≥ 64 then false
    else !w.window.getLsbD offset

/-- Records that a sequence number has been received. -/
def update (w : ReplayWindow) (seqno : Nat) : ReplayWindow :=
  if seqno > w.maxSeq then
    let delta := seqno - w.maxSeq
    if delta > 63 then ⟨seqno, 1⟩
    else ⟨seqno, (w.window <<< delta) ||| 1⟩
  else
    let offset := w.maxSeq - seqno
    if offset < 64 then ⟨w.maxSeq, w.window ||| (1#64 <<< offset)⟩
    else w

/-- A recorded number is rejected from then on. -/
theorem update_check_self (w : ReplayWindow) (seqno : Nat) :
    (w.update seqno).check seqno = false := by
  unfold update
  split
  · simp only
    split <;> simp [check]
  · rename_i old
    simp only
    split
    · rename_i recent
      simp [check, old, recent]
    · rename_i tooOld
      simp [check, old, Nat.le_of_not_lt tooOld]

/-- Recording a number lets no rejected number pass. -/
theorem update_check_mono (w : ReplayWindow) (seqno : Nat) {other : Nat}
    (rejected : w.check other = false) : (w.update seqno).check other = false := by
  have notNewer : ¬other > w.maxSeq := by
    intro newer
    simp [check, newer] at rejected
  have seen : w.maxSeq - other ≥ 64 ∨ w.window.getLsbD (w.maxSeq - other) = true := by
    simpa [check, notNewer, or_iff_not_imp_left] using rejected
  unfold update
  split
  · rename_i newer
    simp only
    have older : ¬other > seqno := by omega
    split
    · rename_i jump
      have far : seqno - other ≥ 64 := by omega
      simp [check, older, far]
    · by_cases far : seqno - other ≥ 64
      · simp [check, older, far]
      · -- The window moved up by `seqno - maxSeq`, and the number's bit with it.
        have isSeen : w.window.getLsbD (w.maxSeq - other) = true := by
          refine seen.resolve_left ?_
          omega
        have moved : seqno - other - (seqno - w.maxSeq) = w.maxSeq - other := by omega
        simp [check, older, moved, isSeen]
        omega
  · simp only
    split
    · simp only [check, notNewer, if_false]
      rcases seen with far | isSeen
      · simp [far]
      · simp [isSeen]
    · exact rejected

/-- The bit of a number that was admitted is not set. -/
theorem getLsbD_of_check {w : ReplayWindow} {other : Nat} (admitted : w.check other = true)
    (old : other ≤ w.maxSeq) : w.maxSeq - other < 64 ∧ w.window.getLsbD (w.maxSeq - other) = false := by
  unfold check at admitted
  rw [if_neg (Nat.not_lt.mpr old)] at admitted
  by_cases recent : w.maxSeq - other ≥ 64
  · simp [recent] at admitted
  · exact ⟨Nat.lt_of_not_le recent, by simpa [recent] using admitted⟩

/-- What the window admits once a number is recorded: any other number it admitted, less than 64
below. -/
theorem update_check_iff (w : ReplayWindow) (seqno other : Nat) :
    (w.update seqno).check other = true ↔
      w.check other = true ∧ other ≠ seqno ∧ seqno < other + 64 := by
  by_cases admitted : w.check other = true
  swap
  · have rejected := update_check_mono w seqno (by simpa using admitted)
    simp [admitted, rejected]
  by_cases same : other = seqno
  · subst same
    simp [update_check_self]
  simp only [admitted, true_and, ne_eq, same, not_false_eq_true]
  unfold update
  by_cases newer : seqno > w.maxSeq
  · rw [if_pos newer]
    by_cases ahead : other > seqno
    · have recent : seqno < other + 64 := by omega
      dsimp only
      split <;> simp [check, ahead, recent]
    · obtain ⟨n, isOffset⟩ : ∃ n, seqno - other = n + 1 := ⟨seqno - other - 1, by omega⟩
      -- The bit of a number above the old window is not set, that of an older one as before.
      have bit : ∀ i, i = n + 1 → n + 1 < 64 → seqno - w.maxSeq ≤ 63 →
          (w.window <<< (seqno - w.maxSeq)).getLsbD i = false := by
        intro i isBit inside near
        by_cases above : other > w.maxSeq
        · simp
          omega
        · obtain ⟨-, clear⟩ := getLsbD_of_check admitted (Nat.le_of_not_lt above)
          have moved : i - (seqno - w.maxSeq) = w.maxSeq - other := by omega
          simp [moved, clear]
      dsimp only
      split
      · simp [check, ahead, isOffset]
        omega
      · rename_i near
        by_cases recent : n + 1 < 64
        · simp [check, ahead, isOffset, bit (n + 1) rfl recent (by omega)]
          omega
        · simp [check, ahead, isOffset]
          omega
  · rw [if_neg newer]
    by_cases ahead : other > w.maxSeq
    · have recent : seqno < other + 64 := by omega
      dsimp only
      split <;> simp [check, ahead, recent]
    · obtain ⟨recent, clear⟩ := getLsbD_of_check admitted (Nat.le_of_not_lt ahead)
      have near : seqno < other + 64 := by omega
      simp only [near, iff_true]
      split
      · have apart : ¬w.maxSeq - other = w.maxSeq - seqno := by omega
        simp [check, ahead, Nat.not_le.mpr recent, clear]
        omega
      · exact admitted

/-- What the window admits once some numbers are recorded. -/
theorem foldl_update_check_iff (numbers : List Nat) (other : Nat) :
    (numbers.foldl update new).check other = true ↔
      ∀ seqno ∈ numbers, other ≠ seqno ∧ seqno < other + 64 := by
  induction numbers using List.reverseRecOn with
  | nil => simp [check, new]
  | append_singleton numbers seqno inductionHypothesis =>
      rw [List.foldl_append, List.foldl_cons, List.foldl_nil, update_check_iff, inductionHypothesis]
      simp only [List.mem_append, List.mem_singleton, or_imp, forall_and, forall_eq]
      tauto

/-- What a window says of the numbers recorded in it: the largest, and which of the 64 from there down
are among them. -/
structure Holds (w : ReplayWindow) (numbers : List Nat) : Prop where
  isMax : w.maxSeq ∈ numbers ∨ numbers = [] ∧ w.maxSeq = 0
  largest : ∀ seqno ∈ numbers, seqno ≤ w.maxSeq
  bits : ∀ i, i < 64 → i ≤ w.maxSeq → (w.window.getLsbD i = true ↔ w.maxSeq - i ∈ numbers)

theorem holds_new : new.Holds [] where
  isMax := .inr ⟨rfl, rfl⟩
  largest := nofun
  bits := by simp [new]

/-- Recording a number keeps window and history together. -/
theorem Holds.update {w : ReplayWindow} {numbers : List Nat} (holds : w.Holds numbers) (seqno : Nat) :
    (w.update seqno).Holds (numbers ++ [seqno]) := by
  have largest := holds.largest
  unfold ReplayWindow.update
  by_cases newer : seqno > w.maxSeq
  · rw [if_pos newer]
    -- Nothing between the old and the new largest number was recorded.
    have unseen : ∀ i, 0 < i → i ≤ seqno → seqno - i > w.maxSeq → seqno - i ∉ numbers ++ [seqno] := by
      intro i positive inside above member
      rcases List.mem_append.mp member with old | new
      · exact absurd (largest _ old) (by omega)
      · have same := List.mem_singleton.mp new
        omega
    refine ⟨?_, ?_, ?_⟩
    · dsimp only
      split <;> simp
    · intro other member
      have bound : other ≤ seqno := by
        rcases List.mem_append.mp member with old | new
        · exact Nat.le_of_lt (Nat.lt_of_le_of_lt (largest _ old) newer)
        · exact Nat.le_of_eq (List.mem_singleton.mp new)
      dsimp only
      split <;> exact bound
    · dsimp only
      split
      · rename_i jump
        intro i inside within
        rcases Nat.eq_zero_or_pos i with rfl | positive
        · simp
        · have clear := unseen i positive within (by omega)
          simp only [clear, iff_false, Bool.not_eq_true]
          simp
          omega
      · rename_i near
        intro i inside within
        have within : i ≤ seqno := within
        rcases Nat.eq_zero_or_pos i with rfl | positive
        · simp
        · by_cases moved : i < seqno - w.maxSeq
          · have clear := unseen i positive within (by omega)
            simp [clear, moved]
            omega
          · have same : w.maxSeq - (i - (seqno - w.maxSeq)) = seqno - i := by omega
            have bit := holds.bits (i - (seqno - w.maxSeq)) (by omega) (by omega)
            rw [same] at bit
            have apart : seqno - i ≠ seqno := by omega
            have nonzero : i ≠ 0 := by omega
            rw [BitVec.getLsbD_or, BitVec.getLsbD_shiftLeft]
            simp only [moved, inside, decide_true, decide_false, Bool.not_false, Bool.true_and, List.mem_append,
              List.mem_singleton, apart, or_false, ← bit]
            simp [nonzero]
  · rw [if_neg newer]
    have isMax : w.maxSeq ∈ numbers ++ [seqno] ∨ numbers ++ [seqno] = [] ∧ w.maxSeq = 0 := by
      rcases holds.isMax with member | ⟨none, isZero⟩
      · exact .inl (List.mem_append_left _ member)
      · have isLast : w.maxSeq = seqno := by omega
        exact .inl (by simp [isLast])
    have bound : ∀ other ∈ numbers ++ [seqno], other ≤ w.maxSeq := by
      intro other member
      rcases List.mem_append.mp member with old | new
      · exact largest _ old
      · exact List.mem_singleton.mp new ▸ Nat.le_of_not_lt newer
    dsimp only
    split
    · refine ⟨isMax, bound, fun i inside within => ?_⟩
      have within : i ≤ w.maxSeq := within
      have bit := holds.bits i inside within
      have place : i = w.maxSeq - seqno ↔ w.maxSeq - i = seqno := by omega
      simp only [BitVec.getLsbD_or, Bool.or_eq_true, bit, List.mem_append, List.mem_singleton, ← place]
      refine or_congr_right ?_
      simp [inside]
      omega
    · refine ⟨isMax, bound, fun i inside within => ?_⟩
      have apart : w.maxSeq - i ≠ seqno := by omega
      simp [holds.bits i inside within, apart]

/-- Whatever is recorded in whatever order, the window is what its history says, and admits what is
above all that was recorded or is not recorded and less than 64 below the largest. -/
theorem foldl_update_spec (numbers : List Nat) :
    (numbers.foldl update new).Holds numbers ∧
      ∀ seqno, (numbers.foldl update new).check seqno = true ↔
        (∀ other ∈ numbers, other < seqno) ∨
          seqno ∉ numbers ∧ ∃ largest ∈ numbers, (∀ other ∈ numbers, other ≤ largest) ∧ largest - seqno < 64 := by
  have holds : (numbers.foldl update new).Holds numbers := by
    induction numbers using List.reverseRecOn with
    | nil => exact holds_new
    | append_singleton numbers seqno inductionHypothesis =>
        rw [List.foldl_append]
        exact inductionHypothesis.update seqno
  refine ⟨holds, fun seqno => ?_⟩
  rw [foldl_update_check_iff]
  constructor
  · intro admitted
    rcases holds.isMax with member | ⟨none, -⟩
    · refine .inr ⟨fun recorded => (admitted seqno recorded).1 rfl, _, member, holds.largest, ?_⟩
      have near := (admitted _ member).2
      omega
    · exact .inl (by simp [none])
  · rintro (above | ⟨fresh, largest, -, isLargest, near⟩) other member
    · have := above other member
      omega
    · have := isLargest other member
      refine ⟨?_, by omega⟩
      rintro rfl
      exact fresh member

end ReplayWindow

end Dimpl
