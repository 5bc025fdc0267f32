import Mathlib.Data.List.Basic

/-!
# Searching a sorted deque

The documented contract of a binary search over a double-ended queue. The
search sees the elements only through their comparison with the target, so it
is a function of the list of comparison results. Which match is found, and what
is returned for an unsorted deque, is left open.
-/

namespace Search

/-- The comparison results of a sorted deque: first the smaller elements, then
the equal ones, then the larger ones. -/
def Sorted (comparisons : List Ordering) : Prop :=
  ∃ less equal greater, comparisons =
    List.replicate less .lt ++ List.replicate equal .eq ++ List.replicate greater .gt

/-- A binary search: a hit points at an equal element, a miss at a position to
insert at; in a sorted deque a miss means that there is no equal element and
that inserting keeps the order. -/
structure DequeSearch where
  search : List Ordering → Except Nat Nat
  found : ∀ {comparisons index}, search comparisons = .ok index →
    comparisons[index]? = some .eq
  bounded : ∀ {comparisons index}, search comparisons = .error index →
    index ≤ comparisons.length
  sorted : ∀ {comparisons index}, Sorted comparisons → search comparisons = .error index →
    (∀ j, j < index → comparisons[j]? = some .lt) ∧
      ∀ j, index ≤ j → j < comparisons.length → comparisons[j]? = some .gt

namespace DequeSearch

/-- `binary_search_by` on a deque given as a list. -/
def searchBy {α : Type} (s : DequeSearch) (compare : α → Ordering) (items : List α) :
    Except Nat Nat :=
  s.search (items.map compare)

/-- A hit of `searchBy` is an element that compares equal. -/
theorem searchBy_ok {α : Type} {s : DequeSearch} {compare : α → Ordering} {items : List α}
    {index : Nat} (hit : s.searchBy compare items = .ok index) :
    ∃ item, items[index]? = some item ∧ compare item = .eq := by
  have equal := s.found hit
  rw [List.getElem?_map] at equal
  cases item : items[index]? with
  | none => simp [item] at equal
  | some value => exact ⟨value, rfl, by simpa [item] using equal⟩

/-- A miss of `searchBy` is a position inside or right behind the deque. -/
theorem searchBy_error {α : Type} {s : DequeSearch} {compare : α → Ordering} {items : List α}
    {index : Nat} (miss : s.searchBy compare items = .error index) : index ≤ items.length := by
  simpa using s.bounded miss

/-- Looks at the elements in order until one is not smaller. -/
def linearSearch : List Ordering → Except Nat Nat
  | [] => .error 0
  | .eq :: _ => .ok 0
  | .gt :: _ => .error 0
  | .lt :: rest =>
    match linearSearch rest with
    | .ok index => .ok (index + 1)
    | .error index => .error (index + 1)

theorem linearSearch_ok {comparisons : List Ordering} {index : Nat}
    (hit : linearSearch comparisons = .ok index) : comparisons[index]? = some .eq := by
  induction comparisons generalizing index with
  | nil => cases hit
  | cons first rest inductionHypothesis =>
      cases first with
      | eq => cases hit; rfl
      | gt => cases hit
      | lt =>
          unfold linearSearch at hit
          split at hit
          · rename_i inner found
            cases hit
            exact inductionHypothesis found
          · cases hit

/-- A miss is behind smaller elements only and in front of a larger one. -/
theorem linearSearch_error {comparisons : List Ordering} {index : Nat}
    (miss : linearSearch comparisons = .error index) :
    index ≤ comparisons.length ∧ (∀ j, j < index → comparisons[j]? = some .lt) ∧
      (comparisons[index]? = none ∨ comparisons[index]? = some .gt) := by
  induction comparisons generalizing index with
  | nil => cases miss; simp
  | cons first rest inductionHypothesis =>
      cases first with
      | eq => cases miss
      | gt => cases miss; simp
      | lt =>
          unfold linearSearch at miss
          split at miss
          · cases miss
          · rename_i inner found
            cases miss
            obtain ⟨bounded, smaller, stop⟩ := inductionHypothesis found
            refine ⟨by simpa using bounded, fun j below => ?_, by simpa using stop⟩
            cases j with
            | zero => rfl
            | succ j => simpa using smaller j (by omega)

/-- In sorted comparisons everything behind a larger one is larger. -/
theorem gt_after {comparisons : List Ordering} (sorted : Sorted comparisons) {i j : Nat}
    (larger : comparisons[i]? = some .gt) (after : i ≤ j) (inside : j < comparisons.length) :
    comparisons[j]? = some .gt := by
  obtain ⟨less, equal, greater, rfl⟩ := sorted
  simp only [List.getElem?_append, List.getElem?_replicate, List.length_append,
    List.length_replicate] at larger inside ⊢
  grind

/-- A linear search meets the contract. -/
def linear : DequeSearch where
  search := linearSearch
  found := linearSearch_ok
  bounded := fun miss => (linearSearch_error miss).1
  sorted := by
    intro comparisons index sorted miss
    obtain ⟨_, smaller, stop⟩ := linearSearch_error miss
    refine ⟨smaller, fun j after inside => ?_⟩
    rcases stop with outside | larger
    · simp only [List.getElem?_eq_none_iff] at outside
      omega
    · exact gt_after sorted larger after inside

end DequeSearch

end Search
