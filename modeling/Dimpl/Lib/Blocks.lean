import Mathlib.Data.List.Basic
import Mathlib.Tactic

/-!
# The start of a sequence of blocks

A function of the natural numbers into lists stands for the blocks of an endless list. Its first
elements are determined however many blocks they are taken from, and can be collected block by
block.
-/

namespace Blocks

variable {α : Type*}

/-- The first blocks one after the other. -/
def concat (block : Nat → List α) : (count : Nat) → List α
  | 0 => []
  | count + 1 => concat block count ++ block count

/-- The list is the first `size` elements of all blocks one after the other. -/
structure First (block : Nat → List α) (size : Nat) (list : List α) : Prop where
  length : list.length = size
  starts : ∃ count, list <+: concat block count

variable {block : Nat → List α} {size width count more : Nat} {list other : List α}

theorem concat_prefix : concat block count <+: concat block (count + more) := by
  induction more with
  | zero => exact List.prefix_rfl
  | succ more inductionHypothesis => exact inductionHypothesis.trans (List.prefix_append _ _)

/-- Blocks of one width. -/
theorem length_concat (even : ∀ i, (block i).length = width) :
    (concat block count).length = count * width := by
  induction count with
  | zero => simp [concat]
  | succ count inductionHypothesis =>
      simp only [concat, List.length_append, inductionHypothesis, even]
      ring

/-- There is only one such list. -/
theorem First.unique (first : First block size list) (second : First block size other) :
    list = other := by
  obtain ⟨count, starts⟩ := first.starts
  obtain ⟨count', starts'⟩ := second.starts
  have longer : list <+: concat block (count + count') := starts.trans concat_prefix
  have longer' : other <+: concat block (count + count') := by
    rw [Nat.add_comm]
    exact starts'.trans concat_prefix
  exact List.IsPrefix.eq_of_length (List.prefix_of_prefix_length_le longer longer'
    (first.length.trans second.length.symm).le) (first.length.trans second.length.symm)

/-- Enough blocks give the first elements. -/
theorem first_take (enough : size ≤ (concat block count).length) :
    First block size ((concat block count).take size) :=
  ⟨List.length_take_of_le enough, count, List.take_prefix _ _⟩

/-- The first elements grow by as much of the next block as is left to take. -/
theorem take_concat_succ :
    (concat block count).take size ++
        (block count).take (min (size - ((concat block count).take size).length)
          (block count).length) =
      (concat block (count + 1)).take size := by
  have remaining : size - ((concat block count).take size).length =
      size - (concat block count).length := by
    rw [List.length_take]
    omega
  rw [remaining, concat, List.take_append, ← List.take_take, List.take_length]

end Blocks
