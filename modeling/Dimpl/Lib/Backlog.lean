import Mathlib.Data.List.DropRight

/-!
# Queues that are purged from the front

An item of the queue holds several records. A record may be done, and it may be data.
Data is taken one record at a time from anywhere in the queue and is done then, but
items leave the queue at the front only, when all their records are done. Nothing here
mentions what a record is.
-/

namespace Backlog

section

variable {ι α : Type} (records : ι → List α) (done data : α → Bool)

/-- The queue without the items in front that are done. -/
def purge (queue : List ι) : List ι := queue.dropWhile fun item => (records item).all done

/-- What stays however much data is taken: the first item with something else to do, and
all behind it. -/
def stuck (queue : List ι) : List ι :=
  queue.dropWhile fun item => (records item).all fun r => done r || data r

/-- No data stays. -/
def Free (queue : List ι) : Prop :=
  ∀ item ∈ stuck records done data queue, ∀ r ∈ records item, data r = false

/-- What the stuck part depends on: which records are data, and which are data or done. -/
def shape (item : ι) : List (Bool × Bool) := (records item).map fun r => (data r, done r || data r)

/-- Which records of the stuck part are data. -/
def stuckKinds (queue : List ι) : List (List Bool) :=
  (stuck records done data queue).map fun item => (records item).map data

variable {records done data} {queue queue' : List ι}

theorem length_stuckKinds :
    (stuckKinds records done data queue).length = (stuck records done data queue).length :=
  List.length_map _

theorem free_iff_stuckKinds :
    Free records done data queue ↔
      ∀ kinds ∈ stuckKinds records done data queue, ∀ kind ∈ kinds, kind = false := by
  simp only [Free, stuckKinds, List.forall_mem_map]

theorem stuckKinds_of_shape
    (same : queue'.map (shape records done data) = queue.map (shape records done data)) :
    stuckKinds records done data queue' = stuckKinds records done data queue := by
  have ofShape : ∀ queue, stuckKinds records done data queue =
      ((queue.map (shape records done data)).dropWhile fun kinds => kinds.all Prod.snd).map
        fun kinds => kinds.map Prod.fst := by
    intro queue
    simp only [stuckKinds, stuck, shape, List.dropWhile_map, List.map_map, List.all_map,
      Function.comp_def]
  rw [ofShape, ofShape, same]

/-- The items purged are not among those that stay. -/
theorem stuck_purge :
    stuck records done data (purge records done queue) = stuck records done data queue := by
  induction queue with
  | nil => rfl
  | cons item rest inductionHypothesis =>
      unfold purge at inductionHypothesis ⊢
      rw [List.dropWhile_cons]
      split
      · rename_i all
        have passes : ((records item).all fun r => done r || data r) = true := by
          simp only [List.all_eq_true] at all ⊢
          exact fun r member => by simp [all r member]
        rw [inductionHypothesis]
        simp only [stuck, List.dropWhile_cons, if_pos passes]
      · rfl

theorem stuck_stuck :
    stuck records done data (stuck records done data queue) = stuck records done data queue :=
  List.dropWhile_idempotent _ _

theorem stuckKinds_purge :
    stuckKinds records done data (purge records done queue) =
      stuckKinds records done data queue := by
  unfold stuckKinds
  rw [stuck_purge]

/-- What is not done comes first among the same records after a purge. -/
theorem dropWhile_purge :
    ((purge records done queue).flatMap records).dropWhile done =
      (queue.flatMap records).dropWhile done := by
  induction queue with
  | nil => rfl
  | cons item rest inductionHypothesis =>
      unfold purge at inductionHypothesis ⊢
      rw [List.dropWhile_cons]
      split
      · rename_i all
        rw [inductionHypothesis, List.flatMap_cons,
          List.dropWhile_append_of_pos (List.all_eq_true.mp all)]
      · rfl

/-- With all data taken, a purge leaves what stays. -/
theorem purge_eq_stuck (taken : ∀ item ∈ queue, ∀ r ∈ records item, data r = true → done r = true) :
    purge records done queue = stuck records done data queue := by
  induction queue with
  | nil => rfl
  | cons item rest inductionHypothesis =>
      have same : ((records item).all fun r => done r || data r) = (records item).all done := by
        rw [Bool.eq_iff_iff, List.all_eq_true, List.all_eq_true]
        refine forall₂_congr fun r member => ?_
        rw [Bool.or_eq_true]
        exact ⟨fun either => either.elim id (taken item List.mem_cons_self r member), .inl⟩
      have others := inductionHypothesis fun item member => taken item (List.mem_cons_of_mem _ member)
      unfold purge stuck at others ⊢
      rw [List.dropWhile_cons, List.dropWhile_cons, same, others]

end

end Backlog
