import Mathlib.Data.List.Pairwise
import Mathlib.Data.List.Sort
import Dimpl.Lib.Pieces

/-!
# Cutting a text into pieces

Pieces that follow one another from the start of a text to its end, none of them empty, and the
datagrams their records are put into, one behind the other.
-/

namespace Pieces

section

variable {α : Type}

/-- The piece of a text at a place. -/
def Piece.cut (text : List α) (offset length : Nat) : Piece α where
  offset := offset
  length := length
  bytes := (text.drop offset).take length

/-- Pieces that follow one another from a place in a text to its end. -/
inductive Tiles (text : List α) : Nat → List (Piece α) → Prop where
  | done {offset : Nat} (complete : offset = text.length) : Tiles text offset []
  | piece {offset length : Nat} {rest : List (Piece α)} (some : 0 < length)
      (inside : offset + length ≤ text.length) (tiles : Tiles text (offset + length) rest) :
      Tiles text offset (.cut text offset length :: rest)

/-- Pieces within a limit, and all but the last at it. -/
inductive Filled (limit : Nat) : List (Piece α) → Prop where
  | none : Filled limit []
  | piece {p : Piece α} {rest : List (Piece α)} (short : p.length ≤ limit)
      (whole : rest ≠ [] → p.length = limit) (later : Filled limit rest) : Filled limit (p :: rest)

/-- A text in pieces; an empty one is one empty piece. -/
def Partition (text : List α) (pieces : List (Piece α)) : Prop :=
  (text = [] ∧ pieces = [.cut text 0 0]) ∨ (text ≠ [] ∧ Tiles text 0 pieces)

variable {text : List α} {offset : Nat} {pieces : List (Piece α)}

theorem Piece.cut_of {length : Nat} (inside : offset + length ≤ text.length) :
    (Piece.cut text offset length).Of text :=
  ⟨inside, rfl⟩

theorem Tiles.of (tiles : Tiles text offset pieces) : ∀ p ∈ pieces, p.Of text := by
  induction tiles with
  | done complete => exact fun _ member => absurd member List.not_mem_nil
  | piece some inside tiles inductionHypothesis =>
      intro p member
      obtain rfl | member := List.mem_cons.mp member
      · exact Piece.cut_of inside
      · exact inductionHypothesis p member

theorem Tiles.bytes (tiles : Tiles text offset pieces) :
    pieces.flatMap Piece.bytes = text.drop offset := by
  induction tiles with
  | done complete => rw [complete, List.drop_length, List.flatMap_nil]
  | @piece offset length rest some inside tiles inductionHypothesis =>
      rw [List.flatMap_cons, inductionHypothesis, ← List.drop_drop]
      exact List.take_append_drop length (text.drop offset)

theorem Tiles.some (tiles : Tiles text offset pieces) : ∀ p ∈ pieces, 0 < p.length := by
  induction tiles with
  | done complete => exact fun _ member => absurd member List.not_mem_nil
  | piece some inside tiles inductionHypothesis =>
      intro p member
      obtain rfl | member := List.mem_cons.mp member
      · exact some
      · exact inductionHypothesis p member

theorem Tiles.from_ (tiles : Tiles text offset pieces) : ∀ p ∈ pieces, offset ≤ p.offset := by
  induction tiles with
  | done complete => exact fun _ member => absurd member List.not_mem_nil
  | @piece offset length rest some inside tiles inductionHypothesis =>
      intro p member
      obtain rfl | member := List.mem_cons.mp member
      · exact Nat.le_refl offset
      · exact Nat.le_trans (Nat.le_add_right offset length) (inductionHypothesis p member)

/-- No two of them overlap, and they are in order. -/
theorem Tiles.apart (tiles : Tiles text offset pieces) :
    pieces.Pairwise fun p q => p.stop ≤ q.offset := by
  induction tiles with
  | done complete => exact .nil
  | piece some inside tiles inductionHypothesis =>
      exact List.pairwise_cons.mpr ⟨tiles.from_, inductionHypothesis⟩

/-- Pieces that start where the text does not end. -/
theorem Tiles.more (tiles : Tiles text offset pieces) (nonempty : pieces ≠ []) : offset < text.length := by
  cases tiles with
  | done complete => exact absurd rfl nonempty
  | piece some inside tiles => omega

theorem Filled.short {limit : Nat} (filled : Filled limit pieces) : ∀ p ∈ pieces, p.length ≤ limit := by
  induction filled with
  | none => exact fun _ member => absurd member List.not_mem_nil
  | piece short whole later inductionHypothesis =>
      exact List.forall_mem_cons.mpr ⟨short, inductionHypothesis⟩

theorem Partition.bytes (partition : Partition text pieces) : pieces.flatMap Piece.bytes = text := by
  obtain ⟨rfl, rfl⟩ | ⟨-, tiles⟩ := partition
  · rfl
  · rw [tiles.bytes, List.drop_zero]

theorem Partition.of (partition : Partition text pieces) : ∀ p ∈ pieces, p.Of text := by
  obtain ⟨rfl, rfl⟩ | ⟨-, tiles⟩ := partition
  · intro p member
    obtain rfl := List.mem_singleton.mp member
    exact Piece.cut_of (Nat.le_refl 0)
  · exact tiles.of

theorem Partition.apart (partition : Partition text pieces) :
    pieces.Pairwise fun p q => p.stop ≤ q.offset := by
  obtain ⟨rfl, rfl⟩ | ⟨-, tiles⟩ := partition
  · exact List.pairwise_singleton ..
  · exact tiles.apart

/-- They start one behind the other. -/
theorem Partition.sorted (partition : Partition text pieces) :
    pieces.Pairwise fun p q => p.offset < q.offset := by
  obtain ⟨rfl, rfl⟩ | ⟨-, tiles⟩ := partition
  · exact List.pairwise_singleton ..
  · refine tiles.apart.imp_of_mem fun inPieces _ apart => ?_
    have some := tiles.some _ inPieces
    unfold Piece.stop at apart
    omega

/-- Pieces of a text that start alike are the same. -/
theorem Partition.at_offset {p q : Piece α} (partition : Partition text pieces) (isPiece : p ∈ pieces)
    (isPiece' : q ∈ pieces) (same : p.offset = q.offset) : p = q := by
  by_contra other
  have : Std.Symm fun p q : Piece α => p.offset ≠ q.offset := ⟨fun _ _ => Ne.symm⟩
  have apart : pieces.Pairwise fun p q => p.offset ≠ q.offset := partition.sorted.imp Nat.ne_of_lt
  exact apart.forall isPiece isPiece' other same

/-- Pieces in order that include all of a text are its pieces. -/
theorem Partition.eq {chosen : List (Piece α)} (partition : Partition text pieces)
    (sorted : chosen.Pairwise fun p q => p.offset < q.offset) (same : ∀ p, p ∈ chosen ↔ p ∈ pieces) :
    chosen = pieces := by
  have : Std.Antisymm fun p q : Piece α => p.offset < q.offset :=
    ⟨fun _ _ less greater => absurd less (Nat.lt_asymm greater)⟩
  have : Std.Irrefl fun p q : Piece α => p.offset < q.offset := ⟨fun _ => Nat.lt_irrefl _⟩
  exact sorted.eq_of_mem_iff partition.sorted same

theorem Partition.ne_nil (partition : Partition text pieces) : pieces ≠ [] := by
  obtain ⟨rfl, rfl⟩ | ⟨some, tiles⟩ := partition
  · exact List.cons_ne_nil _ _
  · rintro rfl
    cases tiles with
    | done complete => exact some (List.length_eq_zero_iff.mp complete.symm)

end

/-- What each item was made from, in the same order. -/
theorem exists_list_map {α β : Type} {f : α → β} {P : α → Prop} {items : List β}
    (made : ∀ y ∈ items, ∃ x, P x ∧ f x = y) :
    ∃ sources : List α, items = sources.map f ∧ ∀ x ∈ sources, P x := by
  induction items with
  | nil => exact ⟨[], rfl, fun _ member => absurd member List.not_mem_nil⟩
  | cons y rest inductionHypothesis =>
      obtain ⟨x, holds, rfl⟩ := made y List.mem_cons_self
      obtain ⟨sources, rfl, all⟩ := inductionHypothesis fun y member => made y (List.mem_cons_of_mem _ member)
      exact ⟨x :: sources, rfl, List.forall_mem_cons.mpr ⟨holds, all⟩⟩

end Pieces

namespace Packing

section

variable {α : Type}

/-- A record behind those of the last datagram or in one of its own. -/
def enqueue (append : Bool) (datagrams : List (List α)) (record : List α) : List (List α) :=
  if append then datagrams.dropLast ++ [datagrams.getLastD [] ++ record] else datagrams ++ [record]

/-- A record that goes behind others fits there. -/
def Appends (mtu : Nat) (append : Bool) (datagrams : List (List α)) (record : List α) : Prop :=
  append = true → ∃ last, datagrams.getLast? = some last ∧ last.length + record.length ≤ mtu

/-- Datagrams of whole records, at least one in each. Only a single one is longer than the limit. -/
def Grouped (mtu : Nat) (records : List (List α)) (datagrams : List (List α)) : Prop :=
  ∃ groups : List (List (List α)),
    (∀ group ∈ groups, group ≠ [] ∧ (group.length = 1 ∨ group.flatten.length ≤ mtu)) ∧
      groups.flatten = records ∧ groups.map List.flatten = datagrams

variable {mtu : Nat} {records datagrams : List (List α)} {record : List α} {append : Bool}

theorem flatten_enqueue : (enqueue append datagrams record).flatten = datagrams.flatten ++ record := by
  cases append with
  | false => simp [enqueue]
  | true =>
      obtain rfl | ⟨front, last, rfl⟩ := List.eq_nil_or_concat datagrams
      · simp [enqueue]
      · simp [enqueue]

theorem Grouped.nil : Grouped mtu ([] : List (List α)) [] :=
  ⟨[], fun _ member => absurd member List.not_mem_nil, rfl, rfl⟩

/-- Datagrams of one record each. -/
theorem Grouped.single : Grouped mtu records records := by
  refine ⟨records.map fun record => [record], ?_, ?_, ?_⟩
  · intro group member
    obtain ⟨record, -, rfl⟩ := List.mem_map.mp member
    exact ⟨List.cons_ne_nil _ _, .inl rfl⟩
  · simp [← List.flatMap_def]
  · simp [Function.comp_def]

theorem Grouped.enqueue (grouped : Grouped mtu records datagrams)
    (appends : Appends mtu append datagrams record) :
    Grouped mtu (records ++ [record]) (enqueue append datagrams record) := by
  obtain ⟨groups, some, rfl, rfl⟩ := grouped
  cases append with
  | false =>
      refine ⟨groups ++ [[record]], ?_, by simp, by simp [Packing.enqueue]⟩
      intro group member
      obtain member | member := List.mem_append.mp member
      · exact some group member
      · obtain rfl := List.mem_singleton.mp member
        exact ⟨List.cons_ne_nil _ _, .inl rfl⟩
  | true =>
      obtain ⟨last, isLast, fits⟩ := appends rfl
      have nonempty : groups ≠ [] := by
        rintro rfl
        cases isLast
      obtain ⟨front, group, rfl⟩ := (List.eq_nil_or_concat groups).resolve_left nonempty
      rw [List.concat_eq_append] at *
      have same : last = group.flatten := by simpa using isLast.symm
      refine ⟨front ++ [group ++ [record]], ?_, by simp, by simp [Packing.enqueue]⟩
      intro other member
      obtain member | member := List.mem_append.mp member
      · exact some other (List.mem_append_left _ member)
      · obtain rfl := List.mem_singleton.mp member
        refine ⟨List.append_ne_nil_of_right_ne_nil _ (List.cons_ne_nil _ _), .inr ?_⟩
        rw [List.flatten_append, List.flatten_singleton, List.length_append, ← same]
        exact fits

/-- Records within the limit make datagrams within it. -/
theorem Grouped.length_le (grouped : Grouped mtu records datagrams)
    (short : ∀ record ∈ records, record.length ≤ mtu) : ∀ datagram ∈ datagrams, datagram.length ≤ mtu := by
  obtain ⟨groups, some, rfl, rfl⟩ := grouped
  intro datagram member
  obtain ⟨group, inGroups, rfl⟩ := List.mem_map.mp member
  obtain ⟨-, single | within⟩ := some group inGroups
  · obtain ⟨record, rfl⟩ := List.length_eq_one_iff.mp single
    rw [List.flatten_singleton]
    exact short record (List.mem_flatten_of_mem inGroups List.mem_cons_self)
  · exact within

end

end Packing
