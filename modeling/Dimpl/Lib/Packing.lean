import Mathlib.Tactic.Common

/-!
# Packing messages into datagrams

A message is cut into records, each with an overhead, and records are put into
datagrams of bounded length, the next one behind the last as long as it fits. This
counts the records a message needs.
-/

namespace Packing

/-- The datagrams that wait: how long one may be, how many there may be, how many there
are, and the length of the last one. A closed one takes no further record. -/
structure Outbox where
  mtu : Nat
  limit : Nat
  queued : Nat
  last : Option Nat
  closed : Bool
  deriving DecidableEq

namespace Outbox

/-- Whether a record of this length goes behind the last one. -/
def appends (o : Outbox) (length : Nat) : Bool :=
  !o.closed &&
    match o.last with
    | some used => used + length ≤ o.mtu
    | none => false

/-- The outbox with one more record, if there is a place for it. -/
def place (o : Outbox) (length : Nat) : Option Outbox :=
  if o.appends length then some { o with last := o.last.map (· + length) }
  else if o.limit ≤ o.queued then none
  else some { o with closed := false, last := some length, queued := o.queued + 1 }

/-- How many bytes of a message the next record takes: what is left of the last
datagram, or all of a new one. -/
def room (o : Outbox) (overhead : Nat) : Nat :=
  let available := o.mtu - o.last.getD 0
  if available > overhead then available - overhead else o.mtu - overhead

/-- The records of a message that has so many bytes left, up to the first one that finds
no place; not more than `most` are counted. -/
def records (overhead : Nat) : (most : Nat) → (o : Outbox) → (left : Nat) → Nat
  | 0, _, _ => 0
  | most + 1, o, left =>
    let chunk := min left (o.room overhead)
    match o.place (overhead + chunk) with
    | none => 1
    | some next => if left ≤ chunk then 1 else records overhead most next (left - chunk) + 1

section Bounds

variable {o next : Outbox} {overhead length : Nat}

theorem place_mtu (placed : o.place length = some next) : next.mtu = o.mtu := by
  unfold place at placed
  split at placed
  · cases placed
    rfl
  · split at placed
    · cases placed
    · cases placed
      rfl

theorem place_open (placed : o.place length = some next) : next.closed = false := by
  unfold place at placed
  split at placed
  · rename_i appends
    cases placed
    unfold Outbox.appends at appends
    cases isClosed : o.closed with
    | false => rfl
    | true => simp [isClosed] at appends
  · split at placed
    · cases placed
    · cases placed
      rfl

/-- A record that is as long as what is left of an open datagram fills it, and one that is
as long as a datagram fills one. -/
theorem place_fills (placed : o.place length = some next)
    (fills : length = o.mtu ∨ (o.closed = false ∧ o.last.getD 0 + length = o.mtu)) :
    next.last.getD 0 = o.mtu := by
  unfold place at placed
  split at placed
  · rename_i appends
    cases placed
    unfold Outbox.appends at appends
    cases isLast : o.last with
    | none => simp [isLast] at appends
    | some used =>
        simp only [isLast, Bool.and_eq_true, decide_eq_true_eq] at appends
        simp only [isLast, Option.getD_some] at fills
        simp only [Option.map_some, Option.getD_some]
        omega
  · rename_i separate
    split at placed
    · cases placed
    · cases placed
      rcases fills with whole | ⟨isOpen, rest⟩
      · exact whole
      · cases isLast : o.last with
        | none =>
            simp only [isLast, Option.getD_none] at rest
            simpa using rest
        | some used =>
            simp only [isLast, Option.getD_some] at rest
            simp [appends, isOpen, isLast, rest] at separate

/-- With the last datagram full, every record but the last takes all of a datagram. -/
theorem records_full (capacity : overhead < o.mtu) (full : o.mtu - o.last.getD 0 ≤ overhead)
    {most left : Nat} : records overhead most o left ≤ left / (o.mtu - overhead) + 1 := by
  induction most generalizing o left with
  | zero => exact Nat.zero_le _
  | succ most inductionHypothesis =>
      unfold records
      have isRoom : o.room overhead = o.mtu - overhead := by
        simp [room, Nat.not_lt.mpr full]
      rw [isRoom]
      dsimp only
      split
      · exact Nat.le_add_left 1 _
      · rename_i next placed
        split
        · exact Nat.le_add_left 1 _
        · rename_i more
          have whole : min left (o.mtu - overhead) = o.mtu - overhead := by omega
          rw [whole] at placed more ⊢
          have filled := place_fills placed (.inl (by omega))
          have sameMtu := place_mtu placed
          have rest : records overhead most next (left - (o.mtu - overhead)) ≤
              (left - (o.mtu - overhead)) / (next.mtu - overhead) + 1 :=
            inductionHypothesis (sameMtu ▸ capacity) (by rw [filled, sameMtu]; omega)
          rw [sameMtu] at rest
          have split : left = left - (o.mtu - overhead) + (o.mtu - overhead) := by omega
          have counted : left / (o.mtu - overhead) =
              (left - (o.mtu - overhead)) / (o.mtu - overhead) + 1 := by
            conv_lhs => rw [split]
            exact Nat.add_div_right _ (by omega)
          omega

/-- At most one record fills up the last datagram. -/
theorem records_open (capacity : overhead < o.mtu) (isOpen : o.closed = false) {most left : Nat} :
    records overhead most o left ≤ left / (o.mtu - overhead) + 2 := by
  by_cases full : o.mtu - o.last.getD 0 ≤ overhead
  · exact Nat.le_trans (records_full capacity full) (Nat.le_succ _)
  · cases most with
    | zero => exact Nat.zero_le _
    | succ most =>
        unfold records
        have isRoom : o.room overhead = o.mtu - o.last.getD 0 - overhead := by
          simp [room, Nat.lt_of_not_le full]
        rw [isRoom]
        dsimp only
        split
        · exact Nat.le_add_left 1 _
        · rename_i next placed
          split
          · exact Nat.le_add_left 1 _
          · rename_i more
            have chunk : min left (o.mtu - o.last.getD 0 - overhead) =
                o.mtu - o.last.getD 0 - overhead := by omega
            rw [chunk] at placed more ⊢
            have filled := place_fills placed (.inr ⟨isOpen, by omega⟩)
            have sameMtu := place_mtu placed
            have rest : records overhead most next (left - (o.mtu - o.last.getD 0 - overhead)) ≤
                (left - (o.mtu - o.last.getD 0 - overhead)) / (next.mtu - overhead) + 1 :=
              records_full (sameMtu ▸ capacity) (by rw [filled, sameMtu]; omega)
            rw [sameMtu] at rest
            have fewer := Nat.div_le_div_right (c := o.mtu - overhead)
              (Nat.sub_le left (o.mtu - o.last.getD 0 - overhead))
            omega

/-- The records of a message: those that are as long as a datagram, the last one, and two
that are shorter because of the datagram before. -/
theorem records_le (capacity : overhead < o.mtu) {most left : Nat} :
    records overhead most o left ≤ left / (o.mtu - overhead) + 3 := by
  cases most with
  | zero => exact Nat.zero_le _
  | succ most =>
      unfold records
      dsimp only
      split
      · exact Nat.le_add_left 1 _
      · rename_i next placed
        split
        · exact Nat.le_add_left 1 _
        · have sameMtu := place_mtu placed
          have rest : records overhead most next (left - min left (o.room overhead)) ≤
              (left - min left (o.room overhead)) / (next.mtu - overhead) + 2 :=
            records_open (sameMtu ▸ capacity) (place_open placed)
          rw [sameMtu] at rest
          have fewer := Nat.div_le_div_right (c := o.mtu - overhead)
            (Nat.sub_le left (min left (o.room overhead)))
          omega

end Bounds

end Outbox

end Packing
