import Mathlib.Data.List.TakeDrop

/-!
# Putting a text together from pieces

A piece claims a place in a text. Pieces are joined in the order they come: of each, what
lies beyond the furthest place reached before. The list may hold strangers, pieces of
other texts.
-/

namespace Pieces

/-- A piece with the place it claims. -/
structure Piece (α : Type) where
  offset : Nat
  length : Nat
  bytes : List α

namespace Piece

variable {α : Type}

/-- The place right behind a piece. -/
def stop (p : Piece α) : Nat := p.offset + p.length

/-- A piece holds what the text has at its place. -/
def Of (text : List α) (p : Piece α) : Prop :=
  p.stop ≤ text.length ∧ p.bytes = (text.drop p.offset).take p.length

instance [DecidableEq α] {text : List α} {p : Piece α} : Decidable (p.Of text) :=
  inferInstanceAs (Decidable (_ ∧ _))

/-- What a piece adds to what is reached. -/
def beyond (p : Piece α) (reached : Nat) : List α :=
  if reached - p.offset < p.length then p.bytes.drop (reached - p.offset) else []

variable {p : Piece α} {text : List α} {reached : Nat}

theorem beyond_nil (covered : p.stop ≤ reached ∨ p.length = 0) : p.beyond reached = [] := by
  refine if_neg ?_
  unfold stop at covered
  omega

/-- Without a gap, a piece of the text continues it. -/
theorem Of.continues (of : p.Of text) (noGap : p.offset ≤ reached) :
    text.take reached ++ p.beyond reached = text.take (max p.stop reached) := by
  by_cases covered : p.stop ≤ reached
  · rw [beyond_nil (.inl covered), List.append_nil, Nat.max_eq_right covered]
  · have new : reached - p.offset < p.length := by
      unfold stop at covered
      omega
    have bytes : p.beyond reached = (text.drop reached).take (p.stop - reached) := by
      rw [beyond, if_pos new, of.2, List.drop_take, List.drop_drop]
      unfold stop
      congr 1
      · omega
      · congr 1
        omega
    rw [bytes, Nat.max_eq_left (Nat.le_of_not_le covered), ← List.take_add]
    congr 1
    omega

/-- A piece of the text continues it where it starts. -/
theorem Of.appends (of : p.Of text) : text.take p.offset ++ p.bytes = text.take p.stop := by
  rw [of.2, ← List.take_add]
  rfl

theorem Of.length_bytes (of : p.Of text) : p.bytes.length = p.length := by
  have inside := of.1
  unfold stop at inside
  rw [of.2, List.length_take, List.length_drop]
  omega

/-- What a piece of the text adds is not longer than the way from what is reached to its
end. -/
theorem Of.length_beyond (of : p.Of text) : (p.beyond reached).length ≤ p.stop - reached := by
  unfold beyond
  split
  · rw [of.2, List.length_drop, List.length_take]
    unfold stop
    omega
  · exact Nat.zero_le _

end Piece

/-- A non-empty front of a list starts as the list does. -/
theorem exists_front_cons {α : Type} {x : α} {rest : List α} {P : List α → Prop} :
    (∃ front, front ≠ [] ∧ front <+: x :: rest ∧ P front) ↔ ∃ front, front <+: rest ∧ P (x :: front) := by
  constructor
  · rintro ⟨front, some, isPrefix, holds⟩
    cases front with
    | nil => exact absurd rfl some
    | cons y front =>
        obtain ⟨rfl, later⟩ := List.cons_prefix_cons.mp isPrefix
        exact ⟨front, later, holds⟩
  · rintro ⟨front, isPrefix, holds⟩
    exact ⟨x :: front, List.cons_ne_nil _ _, List.cons_prefix_cons.mpr ⟨rfl, isPrefix⟩, holds⟩

section Join

variable {ι α : Type} (view : ι → Piece α) (own : ι → Prop)

/-- What the pieces add, one after the other. -/
def join : (reached : Nat) → List ι → List α
  | _, [] => []
  | reached, x :: rest => (view x).beyond reached ++ join (max (view x).stop reached) rest

/-- No own piece starts behind what is reached before it. -/
def Gapless : (reached : Nat) → List ι → Prop
  | _, [] => True
  | reached, x :: rest =>
    (own x → (view x).offset ≤ reached) ∧ Gapless (max (view x).stop reached) rest

/-- The pieces reach the end of a text of `total` bytes, and a stranger among them goes no
further than what is reached before it; one without bytes may, behind the end. -/
def Undisturbed (total : Nat) : (reached : Nat) → List ι → Prop
  | reached, [] => total ≤ reached
  | reached, x :: rest =>
    (own x ∨ (view x).stop ≤ reached ∨ (view x).length = 0 ∧ total ≤ reached) ∧
      Undisturbed total (max (view x).stop reached) rest

instance Undisturbed.decidable [DecidablePred own] {total : Nat} :
    (reached : Nat) → (items : List ι) → Decidable (Undisturbed view own total reached items)
  | reached, [] => inferInstanceAs (Decidable (total ≤ reached))
  | reached, x :: rest =>
    have : Decidable (Undisturbed view own total (max (view x).stop reached) rest) :=
      Undisturbed.decidable _ rest
    inferInstanceAs (Decidable (_ ∧ _))

variable {view own} {text : List α} {items : List ι} {reached : Nat}

/-- Undisturbed pieces of a text give the text. -/
theorem join_undisturbed (pieces : ∀ x ∈ items, own x → (view x).Of text)
    (gapless : Gapless view own reached items)
    (undisturbed : Undisturbed view own text.length reached items) :
    text.take reached ++ join view reached items = text := by
  induction items generalizing reached with
  | nil => rw [join, List.append_nil, List.take_of_length_le undisturbed]
  | cons x rest inductionHypothesis =>
      have later := inductionHypothesis (fun y member => pieces y (List.mem_cons_of_mem _ member))
        gapless.2 undisturbed.2
      have step : text.take reached ++ (view x).beyond reached =
          text.take (max (view x).stop reached) := by
        obtain isOwn | covered | ⟨empty, complete⟩ := undisturbed.1
        · exact (pieces x List.mem_cons_self isOwn).continues (gapless.1 isOwn)
        · rw [Piece.beyond_nil (.inl covered), List.append_nil, Nat.max_eq_right covered]
        · rw [Piece.beyond_nil (.inr empty), List.append_nil, List.take_of_length_le complete,
            List.take_of_length_le (Nat.le_trans complete (Nat.le_max_right ..))]
      rw [join, ← List.append_assoc, step, later]

/-- The strangers are as long as they claim and share no byte with the text. -/
def Foreign (view : ι → Piece α) (own : ι → Prop) (text : List α) (items : List ι) : Prop :=
  ∀ x ∈ items, ¬own x →
    (view x).bytes.length = (view x).length ∧ ∀ byte ∈ (view x).bytes, byte ∉ text

theorem Foreign.silent {x : ι} {rest : List ι} (foreign : Foreign view own text (x :: rest))
    (stranger : ¬own x) (inside : join view reached (x :: rest) ⊆ text) :
    (view x).beyond reached = [] := by
  refine List.eq_nil_iff_forall_not_mem.mpr fun byte member => ?_
  refine (foreign x List.mem_cons_self stranger).2 byte ?_ (inside (List.mem_append_left _ member))
  unfold Piece.beyond at member
  split at member
  · exact (List.drop_suffix _ _).subset member
  · cases member

theorem Foreign.tail {x : ι} {rest : List ι} (foreign : Foreign view own text (x :: rest)) :
    Foreign view own text rest :=
  fun y member => foreign y (List.mem_cons_of_mem _ member)

/-- Where strangers add nothing, what is joined is not longer than what is missing. -/
theorem length_join (pieces : ∀ x ∈ items, own x → (view x).Of text)
    (foreign : Foreign view own text items) (inside : join view reached items ⊆ text) :
    (join view reached items).length ≤ text.length - reached := by
  induction items generalizing reached with
  | nil => exact Nat.zero_le _
  | cons x rest inductionHypothesis =>
      have later := inductionHypothesis (fun y member => pieces y (List.mem_cons_of_mem _ member))
        foreign.tail fun _ member => inside (List.mem_append_right _ member)
      rw [join, List.length_append]
      by_cases isOwn : own x
      · have piece := pieces x List.mem_cons_self isOwn
        have added : ((view x).beyond reached).length ≤ (view x).stop - reached := piece.length_beyond
        have bound := piece.1
        omega
      · rw [foreign.silent isOwn inside, List.length_nil]
        omega

/-- Where no stranger shares a byte with the text, only undisturbed pieces give it. -/
theorem undisturbed_of_join (pieces : ∀ x ∈ items, own x → (view x).Of text)
    (gapless : Gapless view own reached items) (foreign : Foreign view own text items)
    (joined : text.take reached ++ join view reached items = text) :
    Undisturbed view own text.length reached items := by
  induction items generalizing reached with
  | nil =>
      rw [join, List.append_nil] at joined
      exact (List.take_eq_self_iff text).mp joined
  | cons x rest inductionHypothesis =>
      have later := fun joined => inductionHypothesis
        (fun y member => pieces y (List.mem_cons_of_mem _ member)) gapless.2 foreign.tail joined
      have inside : join view reached (x :: rest) ⊆ text := by
        intro byte member
        rw [← joined]
        exact List.mem_append_right _ member
      by_cases isOwn : own x
      · refine ⟨.inl isOwn, later ?_⟩
        rw [← (pieces x List.mem_cons_self isOwn).continues (gapless.1 isOwn), List.append_assoc]
        exact joined
      · have silent := foreign.silent isOwn inside
        rw [join, silent, List.nil_append] at joined
        by_cases covered : (view x).stop ≤ reached
        · rw [Nat.max_eq_right covered] at joined later
          refine ⟨.inr (.inl covered), ?_⟩
          rw [Nat.max_eq_right covered]
          exact later joined
        · have empty : (view x).length = 0 := by
            by_contra some
            have new : reached - (view x).offset < (view x).length := by
              unfold Piece.stop at covered
              omega
            rw [Piece.beyond, if_pos new, List.drop_eq_nil_iff] at silent
            have claimed := (foreign x List.mem_cons_self isOwn).1
            omega
          -- A jump over bytes that are missing could not be made up for.
          have complete : text.length ≤ reached := by
            have missing := length_join (fun y member => pieces y (List.mem_cons_of_mem _ member))
              foreign.tail fun _ member => joined ▸ List.mem_append_right _ member
            have lengths := congrArg List.length joined
            rw [List.length_append, List.length_take] at lengths
            omega
          refine ⟨.inr (.inr ⟨empty, complete⟩), later ?_⟩
          rw [List.take_of_length_le complete] at joined
          rw [List.take_of_length_le (Nat.le_trans complete (Nat.le_max_right ..))]
          exact joined

end Join

end Pieces
