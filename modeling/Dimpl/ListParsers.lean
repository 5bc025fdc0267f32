import Dimpl.Lib.Repetition

/-!
# The list parsers of both versions

`many0` and `many1` collect the elements of a list that pass a predicate in a list of bounded
capacity. All lists of the messages are read with them.
-/

namespace Dimpl

open Nom

/-- For an element parser that leaves an end of its input the loop ends. It returns the elements
that stand one behind the other up to the end of the input or to what the parser refuses, without
those the predicate drops. It fails exactly where the parser fails for good or takes nothing, or
where more elements are kept than there is room for; and `many1` also where none is kept. -/
theorem many_exact {α : Type} (p : Parser α) (keep : α → Bool) (capacity : Nat) (input : Bytes)
    (suffixes : LeavesSuffix p) :
    (∀ result, Ends p keep capacity .many0 [] input result ↔ many0 p keep capacity input = result) ∧
    (∃ result, Ends p keep capacity .many1 [] input result ∧
      many1 p keep capacity input = atLeastOne result) ∧
    (∀ items rest, many0 p keep capacity input = .ok (items, rest) ↔
      ∃ values, Elements p input values rest ∧ Stopped p rest ∧ items = values.filter keep ∧
        items.length ≤ capacity) ∧
    ((∃ err, many0 p keep capacity input = .error err) ↔
      ∃ values middle, Elements p input values middle ∧
        (Breaks p middle ∨ capacity < (values.filter keep).length)) ∧
    (∀ items rest, many1 p keep capacity input = .ok (items, rest) ↔
      items ≠ [] ∧ ∃ values, Elements p input values rest ∧ Stopped p rest ∧
        items = values.filter keep ∧ items.length ≤ capacity) ∧
    ((∃ err, many1 p keep capacity input = .error err) ↔
      (∃ values middle, Elements p input values middle ∧
        (Breaks p middle ∨ capacity < (values.filter keep).length)) ∨
      ∃ values rest, Elements p input values rest ∧ Stopped p rest ∧ values.filter keep = []) ∧
    ∀ values rest, Elements p input values rest → rest <:+ input := by
  have ends := @many0_ends α p keep capacity input suffixes
  obtain ⟨result, loops, finished⟩ := @many1_ends α p keep capacity input suffixes
  refine ⟨fun _ => ends.result_iff, ⟨result, loops, finished⟩, fun items rest => ends.ok_iff,
    ends.error_iff, fun items rest => ?_, ?_, fun values rest => Elements.suffix suffixes⟩
  · rw [finished, atLeastOne_ok_iff, loops.ok_iff]
  · rw [finished, atLeastOne_error_iff, loops.error_iff]
    refine or_congr_right ?_
    constructor
    · rintro ⟨rest, none⟩
      obtain ⟨values, elements, stopped, kept, -⟩ := loops.ok_iff.mp none
      exact ⟨values, rest, elements, stopped, kept.symm⟩
    · rintro ⟨values, rest, elements, stopped, kept⟩
      exact ⟨rest, loops.ok_iff.mpr ⟨values, elements, stopped, kept.symm, Nat.zero_le capacity⟩⟩

/-- The bytes of a list that are not zero, of which there is room for two. -/
theorem many_exact_bytes :
    many0 beU8 (fun byte => byte ≠ 0) 2 [1, 0, 2] = .ok ([1, 2], []) := by
  have suffixes : LeavesSuffix beU8 := by
    intro input value rest parsed
    exact ⟨[value], (beU8_iff.mp parsed).symm⟩
  refine ((many_exact beU8 (fun byte => byte ≠ 0) 2 [1, 0, 2] suffixes).2.2.1 _ _).mpr ?_
  refine ⟨[1, 0, 2], ?_, .inl rfl, by decide, by decide⟩
  exact .more (by decide) rfl (by decide) (.more (by decide) rfl (by decide)
    (.more (by decide) rfl (by decide) .none))

/-- A parser that leaves more than it was given, and then less. -/
def pingPong : Parser Unit := fun input => .ok ((), if input.length = 1 then [0, 0] else [0])

/-- Its elements are not kept and take bytes, and there is always a next one. -/
theorem not_many_exact :
    ¬∀ (p : Parser Unit) (keep : Unit → Bool) (capacity : Nat) (input : Bytes),
      ∃ result, Ends p keep capacity .many0 [] input result := by
  have endless {acc : List Unit} {input : Bytes} {result : Except Err (List Unit × Bytes)}
      (ends : Ends pingPong (fun _ => false) 0 .many0 acc input result) :
      input ≠ [0] ∧ input ≠ [0, 0] := by
    induction ends with
    | empty => decide
    | refused _ parsed | failed _ parsed => cases parsed
    | full _ _ _ kept | pushed _ _ _ kept => cases kept
    | stalled _ parsed stays =>
        cases parsed
        constructor
        · rintro rfl
          cases stays
        · rintro rfl
          cases stays
    | skipped _ parsed _ _ _ inductionHypothesis =>
        cases parsed
        constructor
        · rintro rfl
          exact inductionHypothesis.2 rfl
        · rintro rfl
          exact inductionHypothesis.1 rfl
  intro terminates
  obtain ⟨result, ends⟩ := terminates pingPong (fun _ => false) 0 [0]
  exact (endless ends).1 rfl

end Dimpl
