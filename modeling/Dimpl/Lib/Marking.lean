import Mathlib.Data.List.TakeWhile

/-!
# Marking a stretch of a list

A walk over a list that skips the items in front that are done, marks the next few and
leaves the rest. It can be interrupted anywhere: the list may come in pieces.
-/

namespace Marking

theorem dropWhile_none {α : Type} {done : α → Bool} {items : List α}
    (none : ∀ x ∈ items, done x = false) : items.dropWhile done = items := by
  cases items with
  | nil => rfl
  | cons x rest => rw [List.dropWhile_cons, none x List.mem_cons_self, if_neg Bool.false_ne_true]

section

variable {α : Type} (done : α → Bool) (mark : α → α)

/-- One walk: whether an item that is not done was met, how many are left to mark. -/
def walk : (started : Bool) → (left : Nat) → List α → List α × Bool × Nat
  | started, left, [] => ([], started, left)
  | started, left, x :: rest =>
    if !started && done x then
      let (rest, state) := walk started left rest
      (x :: rest, state)
    else if left = 0 then (x :: rest, true, 0)
    else
      let (rest, state) := walk true (left - 1) rest
      (mark x :: rest, state)

variable {done mark} {left : Nat} {started : Bool}

theorem walk_exhausted {items : List α} : walk done mark true 0 items = (items, true, 0) := by
  cases items with
  | nil => rfl
  | cons x rest => rfl

/-- A walk over two lists is one over the first and then, from the state it ends in, one
over the second. -/
theorem walk_append {front back : List α} :
    walk done mark started left (front ++ back) =
      ((walk done mark started left front).1 ++
        (walk done mark (walk done mark started left front).2.1
          (walk done mark started left front).2.2 back).1,
        (walk done mark (walk done mark started left front).2.1
          (walk done mark started left front).2.2 back).2) := by
  induction front generalizing started left with
  | nil => rfl
  | cons x rest inductionHypothesis =>
      simp only [List.cons_append, walk]
      split
      · simp [inductionHypothesis]
      · split
        · simp [walk_exhausted]
        · simp [inductionHypothesis]

theorem walk_started {items : List α} :
    (walk done mark true left items).1 = (items.take left).map mark ++ items.drop left := by
  induction items generalizing left with
  | nil => simp [walk]
  | cons x rest inductionHypothesis =>
      cases left with
      | zero => simp [walk]
      | succ left => simp [walk, inductionHypothesis]

/-- What the walk does to a list. -/
theorem walk_fresh {items : List α} :
    (walk done mark false left items).1 =
      items.takeWhile done ++ (((items.dropWhile done).take left).map mark ++
        (items.dropWhile done).drop left) := by
  induction items with
  | nil => simp [walk]
  | cons x rest inductionHypothesis =>
      cases isDone : done x with
      | true => simp [walk, isDone, inductionHypothesis]
      | false =>
          cases left with
          | zero => simp [walk, isDone]
          | succ left => simp [walk, isDone, walk_started]

/-- Nothing that marking leaves alone changes. -/
theorem walk_map {β : Type} {view : α → β} (kept : ∀ x, view (mark x) = view x) {items : List α} :
    (walk done mark false left items).1.map view = items.map view := by
  rw [walk_fresh, List.map_append, List.map_append, List.map_map]
  rw [show view ∘ mark = view from funext kept, ← List.map_append, ← List.map_append]
  rw [List.take_append_drop, List.takeWhile_append_dropWhile]

/-- After the walk, what is not done starts behind the marked items. -/
theorem dropWhile_walk (marked : ∀ x, done (mark x) = true) {items : List α} :
    (walk done mark false left items).1.dropWhile done =
      ((items.dropWhile done).drop left).dropWhile done := by
  have allMarked : ∀ x ∈ ((items.dropWhile done).take left).map mark, done x = true := by
    intro x member
    obtain ⟨y, -, rfl⟩ := List.mem_map.mp member
    exact marked y
  rw [walk_fresh, List.dropWhile_append_of_pos fun _ member => List.mem_takeWhile_imp member]
  rw [List.dropWhile_append_of_pos allMarked]

end

section Only

variable {α β : Type} (done : α → Bool) (view : α → β)

/-- From one list to the other, only items whose view satisfies `P` became done. -/
def DoneOnly (P : β → Prop) (before after : List α) : Prop :=
  ∀ pair ∈ before.zip after, done pair.1 = false → done pair.2 = true → P (view pair.1)

variable {done view} {mark : α → α} {P Q : β → Prop} {items before middle after : List α}

theorem DoneOnly.refl : DoneOnly done view P items items := by
  intro pair member notDone isDone
  rw [← List.map_id items, List.zip_map', List.mem_map] at member
  obtain ⟨x, -, rfl⟩ := member
  exact absurd isDone (Bool.eq_false_iff.mp notDone)

theorem DoneOnly.mono (only : DoneOnly done view P before after) (weaker : ∀ y, P y → Q y) :
    DoneOnly done view Q before after :=
  fun pair member notDone isDone => weaker _ (only pair member notDone isDone)

theorem DoneOnly.trans (same : middle.map view = before.map view)
    (first : DoneOnly done view P before middle) (second : DoneOnly done view P middle after) :
    DoneOnly done view P before after := by
  intro pair member notDone isDone
  obtain ⟨i, bound, rfl⟩ := List.mem_iff_getElem.mp member
  rw [List.length_zip, Nat.lt_min] at bound
  have length : middle.length = before.length := by
    simpa using congrArg List.length same
  have inMiddle : i < middle.length := length ▸ bound.1
  have views : view middle[i] = view before[i] := by
    have each := congrArg (·[i]?) same
    simpa [inMiddle, bound.1] using each
  rw [List.getElem_zip] at notDone isDone ⊢
  cases between : done middle[i] with
  | true =>
      refine first (before[i], middle[i]) ?_ notDone between
      exact List.mem_iff_getElem.mpr ⟨i, by rw [List.length_zip]; omega, List.getElem_zip⟩
  | false =>
      rw [← views]
      refine second (middle[i], after[i]) ?_ between isDone
      exact List.mem_iff_getElem.mpr ⟨i, by rw [List.length_zip]; omega, List.getElem_zip⟩

/-- The items that the walk makes done satisfy `P` exactly when those do that it marks and
that were not done before. -/
theorem walk_only (marked : ∀ x, done (mark x) = true) {left : Nat} :
    DoneOnly done view P items (walk done mark false left items).1 ↔
    ∀ x ∈ (items.dropWhile done).take left, done x = false → P (view x) := by
  have split : items.takeWhile done ++
      ((items.dropWhile done).take left ++ (items.dropWhile done).drop left) = items := by
    rw [List.take_append_drop, List.takeWhile_append_dropWhile]
  have whole : items.zip (walk done mark false left items).1 =
      (items.takeWhile done).zip (items.takeWhile done) ++
        (((items.dropWhile done).take left).zip (((items.dropWhile done).take left).map mark) ++
          ((items.dropWhile done).drop left).zip ((items.dropWhile done).drop left)) := by
    rw [← List.zip_append (List.length_map _).symm, ← List.zip_append rfl, ← walk_fresh, split]
  unfold DoneOnly
  rw [whole]
  simp only [List.mem_append, or_imp, forall_and]
  refine ⟨fun ⟨_, only, _⟩ x member notDone => ?_, fun only => ⟨DoneOnly.refl, ?_, DoneOnly.refl⟩⟩
  · refine only (x, mark x) ?_ notDone (marked x)
    rw [List.mem_iff_getElem] at member ⊢
    obtain ⟨i, bound, rfl⟩ := member
    exact ⟨i, by simpa using bound, by simp⟩
  · intro pair member notDone _
    exact only pair.1 (List.of_mem_zip member).1 notDone

end Only

end Marking
