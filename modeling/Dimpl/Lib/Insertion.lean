import Mathlib.Data.List.Forall2

/-!
# Lists with elements inserted

A list is obtained from a shorter one by inserting new elements anywhere. The old elements stay in
their order, each in the list as it was or as another one that stands for it.
-/

namespace Insertion

/-- What is related to a list element by element has an element for each one of it. -/
theorem exists_mem {α β : Type} {related : α → β → Prop} {list : List α} {list' : List β}
    (all : List.Forall₂ related list list') {a : α} (member : a ∈ list) :
    ∃ b ∈ list', related a b := by
  induction all with
  | nil => exact absurd member List.not_mem_nil
  | cons first _ inductionHypothesis =>
      rcases List.mem_cons.mp member with rfl | member
      · exact ⟨_, List.mem_cons_self, first⟩
      · obtain ⟨b, isMember, isRelated⟩ := inductionHypothesis member
        exact ⟨b, List.mem_cons_of_mem _ isMember, isRelated⟩

section Folding

variable {ε α β γ δ : Type}

/-- What is bound is done first. -/
theorem eq_ok_of_bind {x : Except ε α} {f : α → Except ε β} {result : β}
    (isOk : (x >>= f) = .ok result) : ∃ value, x = .ok value ∧ f value = .ok result := by
  cases x with
  | error fault => cases isOk
  | ok value => exact ⟨value, rfl, isOk⟩

/-- Two results are related, or both are failures. -/
def Both (related : α → β → Prop) : Except ε α → Except ε β → Prop
  | .ok value, .ok value' => related value value'
  | .error _, .error _ => True
  | _, _ => False

theorem Both.mono {related related' : α → β → Prop} {x : Except ε α} {y : Except ε β}
    (both : Both related x y) (weaker : ∀ value value', related value value' → related' value value') :
    Both related' x y := by
  cases x with
  | error fault =>
      cases y with
      | error fault' => trivial
      | ok value' => exact both
  | ok value =>
      cases y with
      | error fault' => exact both
      | ok value' => exact weaker _ _ both

/-- Related results are those that were returned. -/
theorem Both.returned {related : α → β → Prop} {x : Except ε α} {y : Except ε β}
    (both : Both related x y) : Both (fun value value' => x = .ok value ∧ related value value') x y := by
  cases x with
  | error fault =>
      cases y with
      | error fault' => trivial
      | ok value' => exact both
  | ok value =>
      cases y with
      | error fault' => exact both
      | ok value' => exact ⟨rfl, both⟩

/-- Folds over lists that are related element by element, with a relation that may depend on what
is left of the first list. -/
theorem Both.foldlM {stands : α → β → Prop} {f : γ → α → Except ε γ} {g : δ → β → Except ε δ}
    (related : List α → γ → δ → Prop)
    (step : ∀ a rest b acc acc', stands a b → related (a :: rest) acc acc' →
      Both (related rest) (f acc a) (g acc' b))
    {list : List α} {list' : List β} (all : List.Forall₂ stands list list') {acc : γ} {acc' : δ}
    (start : related list acc acc') :
    Both (related []) (list.foldlM f acc) (list'.foldlM g acc') := by
  induction all generalizing acc acc' with
  | nil => exact start
  | @cons a b list list' first _ inductionHypothesis =>
      have both := step a list b acc acc' first start
      rw [List.foldlM_cons, List.foldlM_cons]
      cases folded : f acc a with
      | error fault =>
          rw [folded] at both
          cases folded' : g acc' b with
          | error fault' => trivial
          | ok next' =>
              rw [folded'] at both
              exact absurd both not_false
      | ok next =>
          rw [folded] at both
          cases folded' : g acc' b with
          | error fault' =>
              rw [folded'] at both
              exact absurd both not_false
          | ok next' =>
              rw [folded'] at both
              exact inductionHypothesis both

end Folding

variable {α β γ : Type} {stands : α → β → Prop} {new : β → Prop} {shorter : List α}
variable {longer : List β}

/-- New elements are inserted anywhere in a list. -/
inductive Inserted (stands : α → β → Prop) (new : β → Prop) : List α → List β → Prop
  | nil : Inserted stands new [] []
  | keep {a : α} {b : β} {shorter : List α} {longer : List β} :
      stands a b → Inserted stands new shorter longer →
        Inserted stands new (a :: shorter) (b :: longer)
  | insert {b : β} {shorter : List α} {longer : List β} :
      new b → Inserted stands new shorter longer → Inserted stands new shorter (b :: longer)

namespace Inserted

/-- A filter that drops what is new keeps the elements that stand for those it kept. -/
theorem forall₂_filter (inserted : Inserted stands new shorter longer) {keep : α → Bool}
    {keep' : β → Bool} (same : ∀ a b, stands a b → keep' b = keep a)
    (drops : ∀ b, new b → keep' b = false) :
    List.Forall₂ (fun a b => stands a b ∧ keep a = true) (shorter.filter keep)
      (longer.filter keep') := by
  induction inserted with
  | nil => exact .nil
  | @keep a b shorter longer isSame _ inductionHypothesis =>
      rw [List.filter_cons, List.filter_cons, same a b isSame]
      by_cases isKept : keep a = true
      · rw [if_pos isKept, if_pos isKept]
        exact .cons ⟨isSame, isKept⟩ inductionHypothesis
      · rw [if_neg isKept, if_neg isKept]
        exact inductionHypothesis
  | @insert b shorter longer isNew _ inductionHypothesis =>
      simpa [drops b isNew] using inductionHypothesis

/-- What is picked from the elements is the same where nothing is picked from a new one. -/
theorem filterMap_eq {longer shorter : List α} {new : α → Prop}
    (inserted : Inserted Eq new shorter longer) {pick : α → Option γ}
    (drops : ∀ b, new b → pick b = none) :
    longer.filterMap pick = shorter.filterMap pick := by
  induction inserted with
  | nil => rfl
  | keep isSame _ inductionHypothesis =>
      subst isSame
      rw [List.filterMap_cons, List.filterMap_cons, inductionHypothesis]
  | insert isNew _ inductionHypothesis =>
      rw [List.filterMap_cons_none (drops _ isNew), inductionHypothesis]

/-- A filter that drops what is new sees no difference. -/
theorem filter_eq {longer shorter : List α} {new : α → Prop}
    (inserted : Inserted Eq new shorter longer) {keep : α → Bool}
    (drops : ∀ b, new b → keep b = false) : longer.filter keep = shorter.filter keep := by
  induction inserted with
  | nil => rfl
  | keep isSame _ inductionHypothesis =>
      subst isSame
      rw [List.filter_cons, List.filter_cons, inductionHypothesis]
  | insert isNew _ inductionHypothesis =>
      simp [drops _ isNew, inductionHypothesis]

/-- The old elements are among the new ones in their order. -/
theorem sublist {longer shorter : List α} {new : α → Prop}
    (inserted : Inserted Eq new shorter longer) : shorter.Sublist longer := by
  induction inserted with
  | nil => exact .slnil
  | keep isSame _ inductionHypothesis =>
      subst isSame
      exact .cons_cons _ inductionHypothesis
  | insert _ _ inductionHypothesis => exact .cons _ inductionHypothesis

/-- What holds of all elements holds of those that stand for old ones. -/
theorem with_mem (inserted : Inserted stands new shorter longer) {holds : β → Prop}
    (all : ∀ b ∈ longer, holds b) :
    Inserted (fun a b => stands a b ∧ holds b) new shorter longer := by
  induction inserted with
  | nil => exact .nil
  | keep isSame _ inductionHypothesis =>
      obtain ⟨first, rest⟩ := List.forall_mem_cons.mp all
      exact .keep ⟨isSame, first⟩ (inductionHypothesis rest)
  | insert isNew _ inductionHypothesis =>
      exact .insert isNew (inductionHypothesis (List.forall_mem_cons.mp all).2)

end Inserted

end Insertion
