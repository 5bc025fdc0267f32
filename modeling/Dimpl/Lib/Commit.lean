import Mathlib.Data.List.Basic

/-!
# Scans that commit as they go

A scan goes through a list of pieces. It commits to some of them, keeps others, and
fails when more are kept than there is room for. Nothing here mentions what a piece
is.
-/

namespace Commit

/-- Some piece is committed to in front of the one that finds no room: `kept` pieces
are kept already and there is room for `limit`. -/
inductive Early {α : Type} (commits keeps : α → Prop) (limit : Nat) : Nat → List α → Prop where
  | here {kept : Nat} {piece : α} {rest : List α} (now : commits piece) :
      Early commits keeps limit kept (piece :: rest)
  | skip {kept : Nat} {piece : α} {rest : List α} (drops : ¬keeps piece)
      (later : Early commits keeps limit kept rest) : Early commits keeps limit kept (piece :: rest)
  | keep {kept : Nat} {piece : α} {rest : List α} (stays : keeps piece) (room : kept < limit)
      (later : Early commits keeps limit (kept + 1) rest) :
      Early commits keeps limit kept (piece :: rest)

section

variable {α : Type} {commits keeps : α → Prop} {limit kept : Nat} {piece : α} {rest : List α}

theorem early_nil : ¬Early commits keeps limit kept [] := by
  intro early
  cases early

/-- Behind a piece that is dropped the scan goes on. -/
theorem early_dropped (pending : ¬commits piece) (drops : ¬keeps piece) :
    Early commits keeps limit kept (piece :: rest) ↔ Early commits keeps limit kept rest := by
  refine ⟨fun early => ?_, fun later => .skip drops later⟩
  cases early with
  | here now => exact absurd now pending
  | skip _ later => exact later
  | keep isKept _ _ => exact absurd isKept drops

/-- Behind a piece that is kept the scan goes on with less room. -/
theorem early_kept (pending : ¬commits piece) (isKept : keeps piece) (room : kept < limit) :
    Early commits keeps limit kept (piece :: rest) ↔
      Early commits keeps limit (kept + 1) rest := by
  refine ⟨fun early => ?_, fun later => .keep isKept room later⟩
  cases early with
  | here now => exact absurd now pending
  | skip drops _ => exact absurd isKept drops
  | keep _ _ later => exact later

/-- A piece that finds no room ends the scan. -/
theorem early_full (pending : ¬commits piece) (isKept : keeps piece) (full : ¬kept < limit) :
    ¬Early commits keeps limit kept (piece :: rest) := by
  intro early
  cases early with
  | here now => exact pending now
  | skip drops _ => exact drops isKept
  | keep _ room _ => exact full room

end

end Commit
