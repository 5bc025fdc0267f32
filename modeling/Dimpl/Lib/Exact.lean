import Dimpl.Lib.Format
import Dimpl.Lib.Program

/-!
# Inputs that are used up

A parser may leave a part of its input. Where what it leaves is not looked at, inputs are accepted
that have something behind them; what they are is decided by what the parser reads.
-/

namespace Nom

variable {α β ι ω ε σ : Type} {p : Parser α} {input : Bytes}

/-- The parser takes all of the input where it takes any of it. -/
def TakesAll (p : Parser α) (input : Bytes) : Prop :=
  ∀ value rest, p input = .ok (value, rest) → rest = []

/-- The input is a writing of something that is accepted, with more behind it. -/
def Trails (accepts : ω → Prop) (write : ω → Bytes) (input : Bytes) : Prop :=
  ∃ w tail, accepts w ∧ tail ≠ [] ∧ input = write w ++ tail

/-- A parser is exact but for the writings it takes with more behind them. -/
theorem exact_iff_not_trails {accepts : ω → Prop} {write : ω → Bytes}
    (reads : ∀ rest, rest ≠ [] →
      ((∃ value, p input = .ok (value, rest)) ↔ ∃ w, accepts w ∧ input = write w ++ rest)) :
    TakesAll p input ↔ ¬Trails accepts write input := by
  constructor
  · rintro exact ⟨w, tail, accepted, more, written⟩
    obtain ⟨value, parsed⟩ := (reads tail more).mpr ⟨w, accepted, written⟩
    exact more (exact value tail parsed)
  · intro none value rest parsed
    by_contra more
    obtain ⟨w, accepted, written⟩ := (reads rest more).mp ⟨value, parsed⟩
    exact none ⟨w, rest, accepted, more, written⟩

theorem ReadsAt.exact_iff {item : Nat → Parser α} {fits : ι → Prop} {write : ι → Bytes}
    {value : Nat → ι → α} {offset : Nat} (reads : ReadsAt item fits write value) :
    TakesAll (item offset) input ↔ ¬Trails fits write input := by
  apply exact_iff_not_trails
  intro rest _
  constructor
  · rintro ⟨_, parsed⟩
    obtain ⟨w, fit, -, written⟩ := (reads _ _ _ _).mp parsed
    exact ⟨w, fit, written⟩
  · rintro ⟨w, fit, written⟩
    exact ⟨_, (reads _ _ _ _).mpr ⟨w, fit, rfl, written⟩⟩

/-- What is made of the value has no part in it. -/
theorem exact_map {f : α → β} : TakesAll (do return f (← p)) input ↔ TakesAll p input := by
  constructor
  · intro exact value rest parsed
    exact exact (f value) rest (bind_iff.mpr ⟨value, rest, parsed, rfl⟩)
  · intro exact result rest parsed
    obtain ⟨value, middle, parsed, made⟩ := bind_iff.mp parsed
    obtain ⟨-, rfl⟩ := pure_iff.mp made
    exact exact value rest parsed

/-- A program that returns what a parser makes of an input. Where it is `complete` it fails only
where the parser does or, if it is `checked`, leaves something. -/
def Runs (p : Parser α) (input : Bytes) (complete checked : Prop) (x : EStateM ε σ β) (s : σ)
    (view : β → α) : Prop :=
  Program.Post x s
    (fun result _ => complete ∧ ∃ left, parse p input = .ok (view result, left) ∧ (checked → left = []))
    (fun _ _ => complete → ∀ value left, parse p input = .ok (value, left) → checked ∧ left ≠ [])

/-- What is returned was made of the whole input unless the parser is neither exact nor checked. -/
theorem Runs.whole_iff {complete checked : Prop} {x : EStateM ε σ β} {s : σ} {view : β → α}
    (runs : Runs p input complete checked x s view) :
    (∀ result s', x s = .ok result s' → parse p input = .ok (view result, [])) ↔
      (complete → ¬checked → TakesAll p input) := by
  unfold Runs Program.Post at runs
  constructor
  · intro whole isComplete unchecked value left parsed
    cases outcome : x s with
    | ok result s' =>
        have all := whole result s' outcome
        exact (Prod.mk.inj (Except.ok.inj (parsed.symm.trans all))).2
    | error err s' =>
        rw [outcome] at runs
        exact absurd (runs isComplete value left parsed).1 unchecked
  · intro exact result s' returned
    rw [returned] at runs
    obtain ⟨isComplete, left, parsed, ends⟩ := runs
    by_cases isChecked : checked
    · rw [← ends isChecked]
      exact parsed
    · rw [← exact isComplete isChecked _ left parsed]
      exact parsed

end Nom
