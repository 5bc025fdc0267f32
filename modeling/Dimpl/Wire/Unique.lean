import Dimpl.Wire.Messages
import Dimpl.Wire.Srtp

/-!
# Writings are unique

Bytes are the writing of one thing at most: of one list of code points, of one block of extensions,
of one ClientHello.
-/

namespace Dimpl

open Nom

section Fields

variable {data data' rest rest' : Bytes}

theorem be16_inj {m n : Nat} (small : m < 65536) (small' : n < 65536)
    (same : be16 m ++ rest = be16 n ++ rest') : m = n ∧ rest = rest' := by
  have first : beU16 (be16 m ++ rest) = .ok (m, rest) := beU16_iff.mpr ⟨small, rfl⟩
  have second : beU16 (be16 m ++ rest) = .ok (n, rest') := beU16_iff.mpr ⟨small', same⟩
  rw [first] at second
  cases second
  exact ⟨rfl, rfl⟩

theorem vector8_inj (small : data.length < 256) (small' : data'.length < 256)
    (same : vector8 data ++ rest = vector8 data' ++ rest') : data = data' ∧ rest = rest' := by
  obtain ⟨count, behind⟩ := List.cons.inj same
  have lengths : data.length = data'.length := by
    rw [← toNat_length small, count, toNat_length small']
  exact List.append_inj behind lengths

theorem vector16_inj (small : data.length < 65536) (small' : data'.length < 65536)
    (same : vector16 data ++ rest = vector16 data' ++ rest') : data = data' ∧ rest = rest' := by
  unfold vector16 at same
  rw [List.append_assoc, List.append_assoc] at same
  obtain ⟨lengths, behind⟩ := be16_inj small small' same
  exact List.append_inj behind lengths

end Fields

/-- Items whose values show them are told from what they are written as. -/
theorem flatMap_inj {α ι : Type} {item : Nat → Parser α} {fits : ι → Prop} {write : ι → Bytes}
    {value : Nat → ι → α} {view : Bytes → α → ι} (reads : ReadsAt item fits write value)
    (shows : Shows view write value) (consumes : ∀ w, fits w → write w ≠ []) {ws ws' : List ι}
    (fit : ∀ w ∈ ws, fits w) (fit' : ∀ w ∈ ws', fits w)
    (same : ws.flatMap write = ws'.flatMap write) : ws = ws' := by
  induction ws generalizing ws' with
  | nil => exact (eq_nil_of_flatMap consumes fit' same).symm
  | cons w ws inductionHypothesis =>
      cases ws' with
      | nil => exact eq_nil_of_flatMap consumes fit same.symm
      | cons w' ws' =>
          obtain ⟨fitsFirst, fit⟩ := List.forall_mem_cons.mp fit
          obtain ⟨fitsFirst', fit'⟩ := List.forall_mem_cons.mp fit'
          rw [List.flatMap_cons, List.flatMap_cons] at same
          have first : item 0 (write w ++ ws.flatMap write) = .ok (value 0 w, ws.flatMap write) :=
            (reads _ _ _ _).mpr ⟨w, fitsFirst, rfl, rfl⟩
          have second : item 0 (write w ++ ws.flatMap write) = .ok (value 0 w', ws'.flatMap write) :=
            (reads _ _ _ _).mpr ⟨w', fitsFirst', rfl, same⟩
          rw [first] at second
          obtain ⟨sameValue, sameRest⟩ := Prod.mk.inj (Except.ok.inj second)
          have shown := shows [] w (ws.flatMap write)
          have shown' := shows [] w' (ws'.flatMap write)
          rw [List.nil_append, List.length_nil] at shown shown'
          rw [← same, ← sameValue, shown] at shown'
          rw [shown', inductionHypothesis fit fit' sameRest]

theorem writeCodes_inj {codes codes' : List Nat} (fit : ∀ code ∈ codes, code < 65536)
    (fit' : ∀ code ∈ codes', code < 65536) (same : writeCodes codes = writeCodes codes') :
    codes = codes' := by
  have shows : Shows (fun _ code => code) be16 (fun _ => id) := fun _ _ _ => rfl
  exact flatMap_inj readsAt_beU16 shows be16_ne_nil fit fit' same

theorem Tagged.flatMap_write_inj {all all' : List Tagged} (fit : ∀ tagged ∈ all, tagged.Fits)
    (fit' : ∀ tagged ∈ all', tagged.Fits)
    (same : all.flatMap Tagged.write = all'.flatMap Tagged.write) : all = all' := by
  have reads := Tagged.readsAt (fun (code : Nat) (range : Range) => (code, range)) readsAt_beU16
  have shows : Shows (fun buf (found : Nat × Range) => Tagged.mk found.1 (slice buf found.2))
      Tagged.write
      (fun offset tagged => (id tagged.tag, ⟨offset + 4, offset + 4 + tagged.data.length⟩)) := by
    intro front tagged back
    exact congrArg (Tagged.mk tagged.tag) (Tagged.slice_data front tagged back)
  exact flatMap_inj reads shows Tagged.write_ne_nil fit fit' same

theorem writeBlock_inj {block block' : Option (List Tagged)} {rest rest' : Bytes}
    (fits : BlockFits block) (fits' : BlockFits block') (ends : block = none → rest = [])
    (ends' : block' = none → rest' = [])
    (same : writeBlock block ++ rest = writeBlock block' ++ rest') :
    block = block' ∧ rest = rest' := by
  cases block with
  | none =>
      obtain rfl := ends rfl
      cases block' with
      | none =>
          obtain rfl := ends' rfl
          exact ⟨rfl, rfl⟩
      | some extensions' => exact absurd same (List.cons_ne_nil _ _).symm
  | some extensions =>
      cases block' with
      | none =>
          obtain rfl := ends' rfl
          exact absurd same (List.cons_ne_nil _ _)
      | some extensions' =>
          obtain ⟨fit, small⟩ := blockFits_some.mp fits
          obtain ⟨fit', small'⟩ := blockFits_some.mp fits'
          obtain ⟨sameExtensions, sameRest⟩ := vector16_inj small small' same
          exact ⟨congrArg some (Tagged.flatMap_write_inj fit fit' sameExtensions), sameRest⟩

/-- A ClientHello is told from its bytes, also with more behind them. -/
theorem HelloWire.write_inj {hello hello' : HelloWire} {rest rest' : Bytes} (fits : hello.Fits)
    (fits' : hello'.Fits) (ends : hello.extensions = none → rest = [])
    (ends' : hello'.extensions = none → rest' = [])
    (same : hello.write ++ rest = hello'.write ++ rest') : hello = hello' ∧ rest = rest' := by
  simp only [HelloWire.write, HelloWire.head, List.append_assoc] at same
  obtain ⟨version, same⟩ := be16_inj fits.version fits'.version same
  obtain ⟨random, same⟩ := List.append_inj same (fits.random.trans fits'.random.symm)
  have short {data : Bytes} (short : data.length ≤ 32) : data.length < 256 := by omega
  obtain ⟨sessionId, same⟩ := vector8_inj (short fits.sessionId) (short fits'.sessionId) same
  obtain ⟨cookie, same⟩ :=
    vector8_inj (Nat.lt_succ_of_le fits.cookie) (Nat.lt_succ_of_le fits'.cookie) same
  have listed := length_writeCodes hello.suites
  have listed' := length_writeCodes hello'.suites
  obtain ⟨written, same⟩ := vector16_inj (listed ▸ fits.suites) (listed' ▸ fits'.suites) same
  obtain ⟨methods, same⟩ := vector8_inj fits.methods fits'.methods same
  obtain ⟨extensions, behind⟩ := writeBlock_inj fits.extensions fits'.extensions ends ends' same
  have suites := writeCodes_inj fits.suite fits'.suite written
  obtain ⟨_, _, _, _, _, _, _⟩ := hello
  obtain ⟨_, _, _, _, _, _, _⟩ := hello'
  dsimp only at version random sessionId cookie suites methods extensions
  subst version random sessionId cookie suites methods extensions
  exact ⟨rfl, behind⟩

end Dimpl
