import Mathlib.Data.List.Sort
import Mathlib.Data.Prod.Lex
import Dimpl.Lib.Search

/-!
# A queue with one item for each key

Items arrive in some order and the queue keeps them in the order of their keys. Of two with
the same key the first stays, except that a whole one takes the place of one that is not.
-/

namespace Arrangement

section

variable {ι κ : Type} [LinearOrder κ] (key : ι → κ) (whole : ι → Bool)

/-- Of the items with a key, the first whole one, or else the first. -/
def winner (items : List ι) (k : κ) : Option ι :=
  ((items.filter fun x => key x = k).find? whole).or (items.filter fun x => key x = k).head?

/-- A queue holds the winner of each key that occurs, in the order of the keys. -/
structure Arranged (items queue : List ι) : Prop where
  sorted : queue.Pairwise fun x y => key x < key y
  members : ∀ x, x ∈ queue ↔ winner key whole items (key x) = some x

variable {key whole} {items queue queue' : List ι} {x y : ι} {index : Nat}

theorem winner_key {k : κ} (wins : winner key whole items k = some x) : key x = k := by
  have member : x ∈ items.filter fun x => key x = k := by
    unfold winner at wins
    obtain found | ⟨-, first⟩ := Option.or_eq_some_iff.mp wins
    · exact List.mem_of_find?_eq_some found
    · exact List.mem_of_head? first
  exact of_decide_eq_true (List.mem_filter.mp member).2

theorem winner_mem {k : κ} (wins : winner key whole items k = some x) : x ∈ items := by
  unfold winner at wins
  obtain found | ⟨-, first⟩ := Option.or_eq_some_iff.mp wins
  · exact (List.mem_filter.mp (List.mem_of_find?_eq_some found)).1
  · exact (List.mem_filter.mp (List.mem_of_head? first)).1

/-- A key that occurs has a winner. -/
theorem exists_winner (member : x ∈ items) : ∃ y, winner key whole items (key x) = some y := by
  have among : x ∈ items.filter fun y => key y = key x := List.mem_filter.mpr ⟨member, decide_eq_true rfl⟩
  have first : ((items.filter fun y => key y = key x).head?).isSome = true :=
    List.isSome_head?.mpr (List.ne_nil_of_mem among)
  rw [← Option.isSome_iff_exists, winner, Option.isSome_or, first, Bool.or_true]

/-- There is only one such queue. -/
theorem Arranged.unique (arranged : Arranged key whole items queue)
    (arranged' : Arranged key whole items queue') : queue = queue' := by
  have : Std.Antisymm fun x y : ι => key x < key y := ⟨fun _ _ less greater => absurd less (lt_asymm greater)⟩
  have : Std.Irrefl fun x y : ι => key x < key y := ⟨fun _ => lt_irrefl _⟩
  exact arranged.sorted.eq_of_mem_iff arranged'.sorted fun x =>
    (arranged.members x).trans (arranged'.members x).symm

theorem Arranged.subset (arranged : Arranged key whole items queue) : queue ⊆ items := by
  intro x member
  exact winner_mem ((arranged.members x).mp member)

/-- Every key that occurs is in the queue. -/
theorem Arranged.exists_key (arranged : Arranged key whole items queue) (member : x ∈ items) :
    ∃ y ∈ queue, key y = key x := by
  obtain ⟨y, wins⟩ := @exists_winner ι κ _ key whole items x member
  have sameKey := winner_key wins
  refine ⟨y, (arranged.members y).mpr ?_, sameKey⟩
  rw [sameKey]
  exact wins

theorem Arranged.length_le (arranged : Arranged key whole items queue) : queue.length ≤ items.length := by
  have distinct : queue.Nodup := arranged.sorted.imp fun less same => (congrArg key same).not_lt less
  exact (List.subperm_of_subset distinct arranged.subset).length_le

theorem Arranged.nil : Arranged key whole [] [] :=
  ⟨.nil, fun _ => by simp [winner]⟩

/-- A new item changes the winner of its own key only. -/
theorem winner_append_other {k : κ} (other : key x ≠ k) :
    winner key whole (items ++ [x]) k = winner key whole items k := by
  simp [winner, List.filter_append, other]

theorem winner_append_first (fresh : winner key whole items (key x) = none) :
    winner key whole (items ++ [x]) (key x) = some x := by
  have none : items.filter (fun y => key y = key x) = [] := by
    unfold winner at fresh
    rw [Option.or_eq_none_iff] at fresh
    exact List.head?_eq_none_iff.mp fresh.2
  unfold winner
  rw [List.filter_append, none]
  cases isWhole : whole x <;> simp [isWhole]

theorem winner_append_again (wins : winner key whole items (key x) = some y) :
    winner key whole (items ++ [x]) (key x) = some (if !whole y && whole x then x else y) := by
  unfold winner at wins ⊢
  rw [List.filter_append]
  simp only [decide_true, List.filter_cons_of_pos, List.filter_nil, List.find?_append]
  obtain found | ⟨notFound, first⟩ := Option.or_eq_some_iff.mp wins
  · simp [found, List.find?_some found]
  · have partly : whole y = false := by
      have := List.find?_eq_none.mp notFound y (List.mem_of_head? first)
      simpa using this
    rw [notFound, List.head?_append, first]
    cases isWhole : whole x <;> simp [partly, isWhole]

/-- A queue around one place in it. -/
theorem around_sorted {front back : List ι}
    (sorted : (front ++ x :: back).Pairwise fun x y => key x < key y) :
    (∀ z ∈ front, key z < key x) ∧ ∀ z ∈ back, key x < key z := by
  rw [List.pairwise_append, List.pairwise_cons] at sorted
  exact ⟨fun z member => sorted.2.2 z member x List.mem_cons_self, sorted.2.1.1⟩

/-- A new key enters the queue between the smaller and the larger ones. -/
theorem Arranged.insert {front back : List ι} (arranged : Arranged key whole items (front ++ back))
    (smaller : ∀ z ∈ front, key z < key x) (larger : ∀ z ∈ back, key x < key z) :
    Arranged key whole (items ++ [x]) (front ++ x :: back) := by
  have apart : ∀ z ∈ front ++ back, key z ≠ key x := by
    intro z member
    obtain member | member := List.mem_append.mp member
    · exact (smaller z member).ne
    · exact (larger z member).ne'
  have fresh : winner key whole items (key x) = none := by
    rw [Option.eq_none_iff_forall_ne_some]
    intro z wins
    have sameKey := winner_key wins
    rw [← sameKey] at wins
    exact apart z ((arranged.members z).mpr wins) sameKey
  refine ⟨?_, fun z => ?_⟩
  · have sorted := List.pairwise_append.mp arranged.sorted
    refine List.pairwise_append.mpr ⟨sorted.1, List.pairwise_cons.mpr ⟨larger, sorted.2.1⟩, ?_⟩
    intro z inFront z' inBack
    obtain rfl | inBack := List.mem_cons.mp inBack
    · exact smaller z inFront
    · exact sorted.2.2 z inFront z' inBack
  · by_cases sameKey : key z = key x
    · rw [sameKey, winner_append_first fresh]
      have outside : z ∉ front ++ back := fun member => apart z member sameKey
      simp only [List.mem_append, List.mem_cons] at outside ⊢
      grind
    · rw [winner_append_other (Ne.symm sameKey), ← arranged.members z]
      have other : z ≠ x := fun same => sameKey (congrArg key same)
      simp [other]

/-- A key that is there keeps its item unless a whole one comes for one that is not. -/
theorem Arranged.again {front back : List ι} (arranged : Arranged key whole items (front ++ y :: back))
    (sameKey : key y = key x) :
    Arranged key whole (items ++ [x])
      (front ++ (if !whole y && whole x then x else y) :: back) := by
  obtain ⟨smaller, larger⟩ := around_sorted arranged.sorted
  have wins : winner key whole items (key x) = some y := by
    rw [← sameKey]
    exact (arranged.members y).mp (List.mem_append_right _ List.mem_cons_self)
  have newKey : key (if !whole y && whole x then x else y) = key y := by
    split
    · exact sameKey.symm
    · rfl
  refine ⟨?_, fun z => ?_⟩
  · have sorted := List.pairwise_append.mp arranged.sorted
    have tail := List.pairwise_cons.mp sorted.2.1
    refine List.pairwise_append.mpr ⟨sorted.1, List.pairwise_cons.mpr ⟨?_, tail.2⟩, ?_⟩
    · rw [newKey]
      exact tail.1
    · intro z inFront z' inBack
      obtain rfl | inBack := List.mem_cons.mp inBack
      · rw [newKey]
        exact smaller z inFront
      · exact sorted.2.2 z inFront z' (List.mem_cons_of_mem _ inBack)
  · by_cases keyed : key z = key x
    · rw [keyed, winner_append_again wins, Option.some_inj]
      have outside : z ∉ front ∧ z ∉ back := by
        refine ⟨fun member => ?_, fun member => ?_⟩
        · exact absurd (keyed.trans sameKey.symm) (smaller z member).ne
        · exact absurd (keyed.trans sameKey.symm) (larger z member).ne'
      simp only [List.mem_append, List.mem_cons, outside.1, outside.2, false_or, or_false]
      exact eq_comm
    · rw [winner_append_other (Ne.symm keyed), ← arranged.members z]
      have notOld : z ≠ y := fun same => keyed ((congrArg key same).trans sameKey)
      have notNew : z ≠ (if !whole y && whole x then x else y) := fun same =>
        keyed ((congrArg key same).trans (newKey.trans sameKey))
      simp only [List.mem_append, List.mem_cons, notOld, notNew, false_or]

/-- Where items with one key are the same item, that one wins. -/
theorem winner_of_unique (member : x ∈ items) (unique : ∀ y ∈ items, key y = key x → y = x) :
    winner key whole items (key x) = some x := by
  cases wins : winner key whole items (key x) with
  | none =>
      unfold winner at wins
      rw [Option.or_eq_none_iff] at wins
      have empty := List.head?_eq_none_iff.mp wins.2
      have filtered : x ∈ items.filter fun y => key y = key x :=
        List.mem_filter.mpr ⟨member, decide_eq_true rfl⟩
      rw [empty] at filtered
      cases filtered
  | some y =>
      have sameKey := winner_key wins
      rw [unique y (winner_mem wins) sameKey]

/-- A list in the order of its keys is the queue of any list with the same items. -/
theorem Arranged.of_sorted (sorted : queue.Pairwise fun x y => key x < key y)
    (same : ∀ x, x ∈ items ↔ x ∈ queue) : Arranged key whole items queue := by
  have unique : ∀ x ∈ queue, ∀ y ∈ queue, key x = key y → x = y := by
    have distinct : (queue.map key).Nodup := List.pairwise_map.mpr (sorted.imp ne_of_lt)
    intro x inQueue y inQueue' sameKey
    exact List.inj_on_of_nodup_map distinct inQueue inQueue' sameKey
  refine ⟨sorted, fun x => ⟨fun member => ?_, fun wins => ?_⟩⟩
  · apply winner_of_unique ((same x).mpr member)
    intro y inItems sameKey
    exact unique y ((same y).mp inItems) x member sameKey
  · exact (same x).mp (winner_mem wins)

end

section Search

variable {ι κ : Type} [LinearOrder κ] {key : ι → κ} {k : κ} {queue : List ι}
  {compare : ι → Ordering}

theorem comparisons_greater (greater : ∀ x, compare x = .gt ↔ k < key x)
    (all : ∀ x ∈ queue, k < key x) : queue.map compare = List.replicate queue.length .gt := by
  refine List.eq_replicate_iff.mpr ⟨List.length_map _, fun result member => ?_⟩
  obtain ⟨x, inQueue, rfl⟩ := List.mem_map.mp member
  exact (greater x).mpr (all x inQueue)

/-- In a queue that is sorted by key the comparisons with a key are sorted. -/
theorem sorted_comparisons (less : ∀ x, compare x = .lt ↔ key x < k)
    (greater : ∀ x, compare x = .gt ↔ k < key x) (sorted : queue.Pairwise fun x y => key x < key y) :
    Search.Sorted (queue.map compare) := by
  induction queue with
  | nil => exact ⟨0, 0, 0, rfl⟩
  | cons x rest inductionHypothesis =>
      obtain ⟨below, sorted⟩ := List.pairwise_cons.mp sorted
      cases result : compare x with
      | lt =>
          obtain ⟨l, m, g, same⟩ := inductionHypothesis sorted
          exact ⟨l + 1, m, g, by simp [result, same, List.replicate_succ]⟩
      | eq =>
          have equal : k ≤ key x := not_lt.mp fun lower => by
            rw [(less x).mpr lower] at result
            cases result
          have same := comparisons_greater greater fun y member => lt_of_le_of_lt equal (below y member)
          exact ⟨0, 1, rest.length, by simp [result, same]⟩
      | gt =>
          have same := comparisons_greater greater fun y member =>
            lt_trans ((greater x).mp result) (below y member)
          exact ⟨0, 0, rest.length + 1, by simp [result, same, List.replicate_succ]⟩

theorem insertIdx_take_drop {index : Nat} {x : ι} (inside : index ≤ queue.length) :
    queue.insertIdx index x = queue.take index ++ x :: queue.drop index := by
  induction queue generalizing index with
  | nil =>
      obtain rfl := Nat.le_zero.mp inside
      rfl
  | cons y rest inductionHypothesis =>
      cases index with
      | zero => rfl
      | succ index =>
          rw [List.insertIdx_succ_cons, inductionHypothesis (Nat.le_of_succ_le_succ inside)]
          rfl

/-- A miss points between the smaller and the larger keys. -/
theorem search_miss {search : Search.DequeSearch} {index : Nat}
    (less : ∀ x, compare x = .lt ↔ key x < k) (greater : ∀ x, compare x = .gt ↔ k < key x)
    (sorted : queue.Pairwise fun x y => key x < key y)
    (miss : search.searchBy compare queue = .error index) :
    ∃ front back, queue = front ++ back ∧ (∀ x ∈ front, key x < k) ∧ (∀ x ∈ back, k < key x) ∧
      ∀ x, queue.insertIdx index x = front ++ x :: back := by
  have bounded := Search.DequeSearch.searchBy_error miss
  obtain ⟨before, after⟩ := search.sorted (sorted_comparisons less greater sorted) miss
  refine ⟨queue.take index, queue.drop index, (List.take_append_drop ..).symm, ?_, ?_, ?_⟩
  · intro x member
    obtain ⟨j, inside, rfl⟩ := List.mem_take_iff_getElem.mp member
    rw [← less]
    have result := before j (by omega)
    rw [List.getElem?_map, List.getElem?_eq_getElem (by omega)] at result
    exact Option.some.inj result
  · intro x member
    obtain ⟨j, inside, rfl⟩ := List.mem_drop_iff_getElem.mp member
    rw [← greater]
    have result := after (index + j) (by omega) (by rw [List.length_map]; omega)
    rw [List.getElem?_map, List.getElem?_eq_getElem (by omega)] at result
    exact Option.some.inj result
  · intro x
    exact insertIdx_take_drop bounded

/-- A hit points at the key. -/
theorem search_hit {search : Search.DequeSearch} {index : Nat}
    (less : ∀ x, compare x = .lt ↔ key x < k) (greater : ∀ x, compare x = .gt ↔ k < key x)
    (hit : search.searchBy compare queue = .ok index) :
    ∃ front y back, queue = front ++ y :: back ∧ key y = k ∧ queue[index]? = some y ∧
      ∀ x, queue.set index x = front ++ x :: back := by
  obtain ⟨y, found, equal⟩ := Search.DequeSearch.searchBy_ok hit
  obtain ⟨inside, rfl⟩ := List.getElem?_eq_some_iff.mp found
  refine ⟨queue.take index, queue[index], queue.drop (index + 1), ?_, ?_, found, fun x => ?_⟩
  · rw [← List.drop_eq_getElem_cons, List.take_append_drop]
  · have notLess := mt (less queue[index]).mpr (by rw [equal]; exact nofun)
    have notGreater := mt (greater queue[index]).mpr (by rw [equal]; exact nofun)
    exact le_antisymm (not_lt.mp notGreater) (not_lt.mp notLess)
  · rw [List.set_eq_take_append_cons_drop, if_pos inside]

/-- Comparing pairs one component after the other. -/
theorem then_lt {left right : Nat × Nat} :
    (Ord.compare left.1 right.1).then (Ord.compare left.2 right.2) = .lt ↔ toLex left < toLex right := by
  rw [Ordering.then_eq_lt, Nat.compare_eq_lt, Nat.compare_eq_eq, Nat.compare_eq_lt,
    Prod.Lex.toLex_lt_toLex]

theorem then_gt {left right : Nat × Nat} :
    (Ord.compare left.1 right.1).then (Ord.compare left.2 right.2) = .gt ↔ toLex right < toLex left := by
  rw [Ordering.then_eq_gt, Nat.compare_eq_gt, Nat.compare_eq_eq, Nat.compare_eq_gt,
    Prod.Lex.toLex_lt_toLex]
  simp only [eq_comm]

end Search

end Arrangement
