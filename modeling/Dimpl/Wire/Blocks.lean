import Dimpl.Wire.Fields

/-!
# Extension blocks

A block of extensions at the end of a message, and the three ways in which it is read.
-/

namespace Dimpl

open Nom

/-- An extension block, when there is one: the extensions behind their length. -/
def writeBlock : Option (List Tagged) → Bytes
  | none => []
  | some extensions => vector16 (extensions.flatMap Tagged.write)

/-- The extensions of a block fit, and so does their length. -/
def BlockFits (block : Option (List Tagged)) : Prop :=
  ∀ extensions ∈ block, (∀ ext ∈ extensions, ext.Fits) ∧
    (extensions.flatMap Tagged.write).length < 65536

section Blocks

variable {α : Type} {all : Nat → Parser (List α)} {value : Nat → Tagged → α} {keep : α → Bool}
variable {admits : List α → Prop} {base : Nat} {original input rest : Bytes}

/-- A parser that keeps some of the extensions that fill its input. -/
def ReadsExtensions (all : Nat → Parser (List α)) (value : Nat → Tagged → α) (keep : α → Bool)
    (admits : List α → Prop) : Prop :=
  ∀ offset input result rest, all offset input = .ok (result, rest) ↔
    rest = [] ∧ ∃ extensions : List Tagged, (∀ ext ∈ extensions, ext.Fits) ∧
      input = extensions.flatMap Tagged.write ∧
      result = (place value Tagged.write offset extensions).filter keep ∧ admits result

/-- What is kept of a block that starts at `base`. -/
def keptOf (value : Nat → Tagged → α) (keep : α → Bool) (base : Nat) (block : Option (List Tagged)) :
    List α :=
  (place value Tagged.write (base + 2) (block.getD [])).filter keep

/-- What is kept of a block shows what the kept extensions say. -/
theorem map_keptOf {view : Bytes → α → Tagged} {kept : Tagged → Bool}
    (shows : Shows view Tagged.write value) (sees : ∀ buf v, keep v = kept (view buf v))
    (front : Bytes) (block : Option (List Tagged)) (back : Bytes) :
    (keptOf value keep front.length block).map (view (front ++ (writeBlock block ++ back))) =
      (block.getD []).filter kept := by
  cases block with
  | none => rfl
  | some extensions =>
      have split : front ++ (writeBlock (some extensions) ++ back) =
          (front ++ be16 (extensions.flatMap Tagged.write).length) ++
            (extensions.flatMap Tagged.write ++ back) := by
        simp only [writeBlock, vector16, List.append_assoc]
      have length : (front ++ be16 (extensions.flatMap Tagged.write).length).length =
          front.length + 2 := by
        rw [List.length_append, length_be16]
      rw [split, keptOf, ← length]
      exact map_filter_place shows _ _ _ (sees _)

theorem writeBlock_some_ne_nil (extensions : List Tagged) : writeBlock (some extensions) ≠ [] :=
  List.cons_ne_nil _ _

/-- The code points of the extensions that are kept. -/
def keptTags (kept : Nat → Bool) (block : Option (List Tagged)) : List Nat :=
  ((block.getD []).map Tagged.tag).filter kept

theorem map_keptOf_tag {tag : α → Nat} {kept : Nat → Bool}
    (tags : ∀ offset tagged, tag (value offset tagged) = tagged.tag)
    (sees : ∀ v, keep v = kept (tag v)) (block : Option (List Tagged)) :
    (keptOf value keep base block).map tag = keptTags kept block := by
  have same : keep = kept ∘ tag := funext sees
  rw [keptOf, keptTags, same, ← List.filter_map, map_place_of _ _ tags]

theorem keptOf_none : keptOf value keep base none = [] := rfl

theorem keptOf_some (extensions : List Tagged) :
    keptOf value keep base (some extensions) =
      (place value Tagged.write (base + 2) extensions).filter keep :=
  rfl

theorem blockFits_none : BlockFits none := fun _ absent => nomatch absent

theorem blockFits_some {extensions : List Tagged} :
    BlockFits (some extensions) ↔ (∀ ext ∈ extensions, ext.Fits) ∧
      (extensions.flatMap Tagged.write).length < 65536 := by
  constructor
  · exact fun fits => fits extensions rfl
  · rintro fits _ ⟨⟩
    exact fits

theorem blockFits_empty : BlockFits (some []) :=
  blockFits_some.mpr ⟨fun _ member => absurd member List.not_mem_nil, by decide⟩

/-- The data of a vector starts behind its length. -/
theorem vector_start (data rest : Bytes) :
    (be16 data.length ++ (data ++ rest)).length - (data ++ rest).length = 2 := by
  rw [List.length_append, length_be16]
  omega

/-- A block that has to fill the input, or to be absent. -/
theorem wholeBlock_iff (reads : ReadsExtensions all value keep admits) (initial : admits [])
    {result : List α} :
    (do
      let original ← remaining
      if original.isEmpty then
        return []
      let extensionsLen ← beU16
      let start ← consumedFrom original
      let data ← take extensionsLen
      require (← remaining).isEmpty .lengthValue
      let (extensions, _) ← within data (all (base + start))
      return extensions : Parser (List α)) input = .ok (result, rest) ↔
      rest = [] ∧ ∃ block, BlockFits block ∧ input = writeBlock block ∧
        result = keptOf value keep base block ∧ admits result := by
  rw [bind_iff]
  simp only [remaining_iff]
  constructor
  · rintro ⟨_, _, ⟨rfl, rfl⟩, parsed⟩
    split at parsed
    · rename_i isEmpty
      obtain ⟨rfl, rfl⟩ := pure_ok parsed
      obtain rfl := List.isEmpty_iff.mp isEmpty
      exact ⟨rfl, none, blockFits_none, rfl, rfl, initial⟩
    · simp only [bind_iff, beU16_iff, consumedFrom_iff, take_iff, remaining_iff, require_iff,
        within_iff, Prod.exists, reads _ _ _ _, pure_iff, List.isEmpty_iff] at parsed
      obtain ⟨_, _, ⟨small, rfl⟩, _, _, ⟨rfl, rfl⟩, data, _, ⟨rfl, rfl⟩, _, _, ⟨rfl, rfl⟩, _, _,
        ⟨rfl, rfl⟩, _, _, _, ⟨⟨rfl, extensions, fit, rfl, rfl, admitted⟩, rfl⟩, rfl, rfl⟩ := parsed
      rw [vector_start] at admitted ⊢
      refine ⟨rfl, some extensions, blockFits_some.mpr ⟨fit, small⟩, ?_, rfl, admitted⟩
      rw [List.append_nil]
      rfl
  · rintro ⟨rfl, block, fits, rfl, rfl, admitted⟩
    refine ⟨_, _, ⟨rfl, rfl⟩, ?_⟩
    cases block with
    | none => rfl
    | some extensions =>
        obtain ⟨fit, small⟩ := blockFits_some.mp fits
        rw [if_neg (fun isEmpty => writeBlock_some_ne_nil _ (List.isEmpty_iff.mp isEmpty))]
        simp only [bind_iff, beU16_iff, consumedFrom_iff, take_iff, remaining_iff, require_iff,
          within_iff, Prod.exists, reads _ _ _ _, pure_iff, List.isEmpty_iff]
        have written : writeBlock (some extensions) = be16 (extensions.flatMap Tagged.write).length ++
            (extensions.flatMap Tagged.write ++ []) := by
          rw [List.append_nil]
          rfl
        have start := vector_start (extensions.flatMap Tagged.write) []
        rw [← written] at start
        refine ⟨_, _, ⟨small, written⟩, _, _, ⟨rfl, rfl⟩, _, _, ⟨rfl, rfl⟩, _, _, ⟨rfl, rfl⟩, (), _,
          ⟨rfl, rfl⟩, _, _, _, ⟨⟨rfl, extensions, fit, rfl, rfl, ?_⟩, rfl⟩, ?_, rfl⟩
        · rw [start]
          exact admitted
        · rw [start]
          rfl

/-- A block that may be followed by anything; where it is absent, so is what follows. -/
theorem openBlock_iff (reads : ReadsExtensions all value keep admits) (initial : admits [])
    {result : List α} :
    (do
      let original ← remaining
      if original.isEmpty then
        return []
      let extensionsLen ← beU16
      if extensionsLen = 0 then
        return []
      let start ← consumedFrom original
      let data ← take extensionsLen
      let (extensions, _) ← within data (all (base + start))
      return extensions : Parser (List α)) input = .ok (result, rest) ↔
      ∃ block, BlockFits block ∧ (block = none → rest = []) ∧ input = writeBlock block ++ rest ∧
        result = keptOf value keep base block ∧ admits result := by
  rw [bind_iff]
  simp only [remaining_iff]
  constructor
  · rintro ⟨_, _, ⟨rfl, rfl⟩, parsed⟩
    split at parsed
    · rename_i isEmpty
      obtain ⟨rfl, rfl⟩ := pure_ok parsed
      obtain rfl := List.isEmpty_iff.mp isEmpty
      exact ⟨none, blockFits_none, fun _ => rfl, rfl, rfl, initial⟩
    · obtain ⟨length, _, isLength, parsed⟩ := bind_ok parsed
      obtain ⟨small, rfl⟩ := beU16_iff.mp isLength
      split at parsed
      · rename_i isZero
        obtain ⟨rfl, rfl⟩ := pure_ok parsed
        subst isZero
        refine ⟨some [], blockFits_empty, ?_, rfl, rfl, initial⟩
        intro absent
        cases absent
      · simp only [bind_iff, consumedFrom_iff, take_iff, within_iff, Prod.exists, reads _ _ _ _,
          pure_iff] at parsed
        obtain ⟨_, _, ⟨rfl, rfl⟩, data, _, ⟨rfl, rfl⟩, _, _, _, ⟨⟨rfl, extensions, fit, rfl, rfl,
          admitted⟩, rfl⟩, rfl, rfl⟩ := parsed
        rw [vector_start] at admitted ⊢
        refine ⟨some extensions, blockFits_some.mpr ⟨fit, small⟩, ?_, ?_, rfl, admitted⟩
        · intro absent
          cases absent
        · rw [writeBlock, vector16, List.append_assoc]
  · rintro ⟨block, fits, ends, rfl, rfl, admitted⟩
    refine ⟨_, _, ⟨rfl, rfl⟩, ?_⟩
    cases block with
    | none =>
        obtain rfl := ends rfl
        rfl
    | some extensions =>
        obtain ⟨fit, small⟩ := blockFits_some.mp fits
        have written : writeBlock (some extensions) ++ rest =
            be16 (extensions.flatMap Tagged.write).length ++
              (extensions.flatMap Tagged.write ++ rest) := by
          rw [writeBlock, vector16, List.append_assoc]
        have isLeft : ¬(writeBlock (some extensions) ++ rest).isEmpty = true := by
          rw [written]
          exact Bool.false_ne_true
        rw [if_neg isLeft, bind_iff]
        refine ⟨_, _, beU16_iff.mpr ⟨small, written⟩, ?_⟩
        split
        · rename_i isZero
          obtain rfl := eq_nil_of_flatMap Tagged.write_ne_nil fit
            (List.length_eq_zero_iff.mp isZero).symm
          rfl
        · have start := vector_start (extensions.flatMap Tagged.write) rest
          rw [← written] at start
          simp only [bind_iff, consumedFrom_iff, take_iff, within_iff, Prod.exists, reads _ _ _ _,
            pure_iff]
          refine ⟨_, _, ⟨rfl, rfl⟩, _, _, ⟨rfl, rfl⟩, _, _, _, ⟨⟨rfl, extensions, fit, rfl, rfl, ?_⟩,
            rfl⟩, ?_, rfl⟩
          · rw [start]
            exact admitted
          · rw [start]
            rfl

/-- What is kept of a block that may not be empty. -/
def keptSome (value : Nat → Tagged → α) (keep : α → Bool) (base : Nat)
    (block : Option (List Tagged)) : Option (List α) :=
  if block.getD [] = [] then none else some (keptOf value keep base block)

theorem keptSome_of_ne_nil {extensions : List Tagged} (notEmpty : extensions ≠ []) :
    keptSome value keep base (some extensions) = some (keptOf value keep base (some extensions)) :=
  if_neg notEmpty

/-- A block that has to fill the input unless it is empty. -/
theorem fullBlock_iff (reads : ReadsExtensions all value keep admits) (initial : admits [])
    (enough : input.length ≤ original.length) {result : Option (List α)} :
    (do
      let input ← remaining
      if input.isEmpty then
        return none
      require (2 ≤ input.length) .eof
      let extensionsLen ← beU16
      let input ← remaining
      require (extensionsLen ≤ input.length) .eof
      if extensionsLen = 0 then
        return none
      let start ← consumedFrom original
      let inputExt ← take extensionsLen
      require (← remaining).isEmpty .lengthValue
      let (extensions, _) ← within inputExt (all (base + start))
      return some extensions : Parser (Option (List α))) input = .ok (result, rest) ↔
      ∃ block, BlockFits block ∧ (block ≠ some [] → rest = []) ∧ input = writeBlock block ++ rest ∧
        result = keptSome value keep (base + (original.length - input.length)) block ∧
        admits (keptOf value keep (base + (original.length - input.length)) block) := by
  rw [bind_iff]
  simp only [remaining_iff]
  constructor
  · rintro ⟨_, _, ⟨rfl, rfl⟩, parsed⟩
    split at parsed
    · rename_i isEmpty
      obtain ⟨rfl, rfl⟩ := pure_ok parsed
      obtain rfl := List.isEmpty_iff.mp isEmpty
      exact ⟨none, blockFits_none, fun _ => rfl, rfl, rfl, initial⟩
    · obtain ⟨_, _, checked, sized⟩ := bind_ok parsed
      obtain ⟨_, rfl⟩ := require_iff.mp checked
      obtain ⟨length, after, isLength, limited⟩ := bind_ok sized
      obtain ⟨small, rfl⟩ := beU16_iff.mp isLength
      obtain ⟨_, _, inside, taken⟩ := bind_ok (remaining_bind_ok limited)
      obtain ⟨_, rfl⟩ := require_iff.mp inside
      split at taken
      · rename_i isZero
        obtain ⟨rfl, rfl⟩ := pure_ok taken
        subst isZero
        exact ⟨some [], blockFits_empty, fun notEmpty => absurd rfl notEmpty, rfl, rfl, initial⟩
      · rename_i isSome
        simp only [bind_iff, consumedFrom_iff, take_iff, remaining_iff, require_iff, within_iff,
          Prod.exists, reads _ _ _ _, pure_iff, List.isEmpty_iff] at taken
        obtain ⟨_, _, ⟨rfl, rfl⟩, data, _, ⟨rfl, rfl⟩, _, _, ⟨rfl, rfl⟩, _, _, ⟨rfl, rfl⟩, _, _, _,
          ⟨⟨rfl, extensions, fit, rfl, rfl, admitted⟩, rfl⟩, rfl, rfl⟩ := taken
        have start : base + (original.length - (extensions.flatMap Tagged.write ++ []).length) =
            base + (original.length - (be16 (extensions.flatMap Tagged.write).length ++
              (extensions.flatMap Tagged.write ++ [])).length) + 2 := by
          simp only [List.length_append, length_be16] at enough ⊢
          omega
        rw [start] at admitted ⊢
        refine ⟨some extensions, blockFits_some.mpr ⟨fit, small⟩, fun _ => rfl, ?_, ?_, admitted⟩
        · rw [writeBlock, vector16, List.append_assoc]
        · have notEmpty : extensions ≠ [] := by
            rintro rfl
            exact isSome rfl
          rw [keptSome_of_ne_nil notEmpty]
          rfl
  · rintro ⟨block, fits, ends, rfl, rfl, admitted⟩
    refine ⟨_, _, ⟨rfl, rfl⟩, ?_⟩
    cases block with
    | none =>
        obtain rfl := ends (Option.some_ne_none []).symm
        rfl
    | some extensions =>
        obtain ⟨fit, small⟩ := blockFits_some.mp fits
        have written : writeBlock (some extensions) ++ rest =
            be16 (extensions.flatMap Tagged.write).length ++
              (extensions.flatMap Tagged.write ++ rest) := by
          rw [writeBlock, vector16, List.append_assoc]
        have isLeft : ¬(writeBlock (some extensions) ++ rest).isEmpty = true := by
          rw [written]
          exact Bool.false_ne_true
        rw [if_neg isLeft, bind_iff]
        refine ⟨(), _, require_iff.mpr ⟨?_, rfl⟩, ?_⟩
        · rw [written, List.length_append, length_be16]
          exact decide_eq_true (Nat.le_add_right _ _)
        rw [bind_iff]
        refine ⟨_, _, beU16_iff.mpr ⟨small, written⟩, ?_⟩
        rw [bind_iff]
        refine ⟨_, _, remaining_iff.mpr ⟨rfl, rfl⟩, ?_⟩
        rw [bind_iff]
        refine ⟨(), _, require_iff.mpr ⟨?_, rfl⟩, ?_⟩
        · rw [List.length_append]
          exact decide_eq_true (Nat.le_add_right _ _)
        split
        · rename_i isZero
          obtain rfl := eq_nil_of_flatMap Tagged.write_ne_nil fit
            (List.length_eq_zero_iff.mp isZero).symm
          rfl
        · rename_i isSome
          have notEmpty : extensions ≠ [] := by
            rintro rfl
            exact isSome rfl
          obtain rfl := ends (fun same => notEmpty (Option.some.inj same))
          have start : base + (original.length - (extensions.flatMap Tagged.write ++ []).length) =
              base + (original.length - (writeBlock (some extensions) ++ []).length) + 2 := by
            rw [written] at enough ⊢
            simp only [List.length_append, length_be16] at enough ⊢
            omega
          simp only [bind_iff, consumedFrom_iff, take_iff, remaining_iff, require_iff, within_iff,
            Prod.exists, reads _ _ _ _, pure_iff, List.isEmpty_iff]
          refine ⟨_, _, ⟨rfl, rfl⟩, _, _, ⟨rfl, rfl⟩, _, _, ⟨rfl, rfl⟩, (), _, ⟨rfl, rfl⟩, _, _, _,
            ⟨⟨rfl, extensions, fit, rfl, rfl, ?_⟩, rfl⟩, ?_, rfl⟩
          · rw [start]
            exact admitted
          · rw [start, keptSome_of_ne_nil notEmpty]
            rfl

end Blocks

/-- A block that is not empty and has supported extensions only. -/
def BlockPlain (supported : Nat → Bool) (block : Option (List Tagged)) : Prop :=
  ∀ extensions ∈ block, extensions ≠ [] ∧ ∀ ext ∈ extensions, supported ext.tag = true

/-- No two extensions of a block have the same type. -/
def BlockDistinct (block : Option (List Tagged)) : Prop :=
  ((block.getD []).map Tagged.tag).Nodup

theorem BlockPlain.filter {supported : Nat → Bool} {block : Option (List Tagged)}
    (plain : BlockPlain supported block) :
    (block.getD []).filter (fun ext => supported ext.tag) = block.getD [] := by
  cases block with
  | none => rfl
  | some extensions => exact List.filter_eq_self.mpr (plain extensions rfl).2

theorem BlockPlain.keptTags {supported : Nat → Bool} {block : Option (List Tagged)}
    (plain : BlockPlain supported block) :
    keptTags supported block = (block.getD []).map Tagged.tag := by
  have same : supported ∘ Tagged.tag = fun ext => supported ext.tag := rfl
  rw [Dimpl.keptTags, List.filter_map, same, plain.filter]

section Plain

variable {α τ : Type} {value : Nat → Tagged → α} {keep : α → Bool} {view : Bytes → α → Tagged}
variable {supported : Nat → Bool} {block : Option (List Tagged)}

/-- The kept extensions of a plain block say what the block says. -/
theorem map_keptOf_plain (shows : Shows view Tagged.write value)
    (sees : ∀ buf v, keep v = supported (view buf v).tag) (plain : BlockPlain supported block)
    (front back : Bytes) :
    (keptOf value keep front.length block).map (view (front ++ (writeBlock block ++ back))) =
      block.getD [] := by
  rw [@map_keptOf _ _ _ _ (fun tagged => supported tagged.tag) shows sees front block back,
    plain.filter]

/-- What a list of extensions says, where an empty one is not written. -/
def viewBlock (view : Bytes → α → Tagged) (buf : Bytes) (extensions : List α) :
    Option (List Tagged) :=
  if extensions.isEmpty then none else some (extensions.map (view buf))

theorem viewBlock_plain (shows : Shows view Tagged.write value)
    (sees : ∀ buf v, keep v = supported (view buf v).tag) (plain : BlockPlain supported block)
    (front back : Bytes) :
    viewBlock view (front ++ (writeBlock block ++ back)) (keptOf value keep front.length block) =
      block := by
  have shown := map_keptOf_plain shows sees plain front back
  cases block with
  | none => rfl
  | some extensions =>
      rw [viewBlock, if_neg, shown]
      · rfl
      · intro isEmpty
        rw [List.isEmpty_iff.mp isEmpty] at shown
        exact (plain extensions rfl).1 shown.symm

/-- A list of extensions behind its length is written as the block it says. -/
theorem writeBlock_map {data write : α → Bytes} {buf : Bytes} (extensions : List α)
    (isData : ∀ ext, (view buf ext).data = data ext) (writes : ∀ ext, write ext = (view buf ext).write) :
    be16 ((extensions.map fun ext => 4 + (data ext).length).sum) ++ extensions.flatMap write =
      writeBlock (some (extensions.map (view buf))) := by
  have written : (extensions.map (view buf)).flatMap Tagged.write = extensions.flatMap write := by
    rw [List.flatMap_map]
    exact List.flatMap_congr fun ext _ => (writes ext).symm
  have length : ((extensions.map (view buf)).flatMap Tagged.write).length =
      (extensions.map fun ext => 4 + (data ext).length).sum := by
    rw [Tagged.length_flatMap_write, List.map_map]
    congr 1
    exact List.map_congr_left fun ext _ => congrArg (4 + ·.length) (isData ext)
  rw [writeBlock, vector16, length, written]

/-- Which types are kept of a block does not depend on where it stands. -/
theorem distinct_keptOf {type : α → τ} {code : τ → Nat} (injective : Function.Injective code)
    (tags : ∀ offset tagged, code (type (value offset tagged)) = tagged.tag)
    (sees : ∀ v, keep v = supported (code (type v))) {base capacity : Nat} :
    ((keptOf value keep base block).map type).Nodup ∧ (keptOf value keep base block).length ≤ capacity ↔
      (keptTags supported block).Nodup ∧ (keptTags supported block).length ≤ capacity := by
  have same : (keptOf value keep base block).map (code ∘ type) = keptTags supported block := by
    apply map_keptOf_tag
    · exact tags
    · exact sees
  rw [← same, List.length_map, ← List.map_map, List.nodup_map_iff injective]

/-- A plain block has no more extensions than are supported. -/
theorem BlockPlain.length_le [BEq τ] [LawfulBEq τ] {make : Nat → τ} {all : List τ} (code : τ → Nat)
    (made : Function.LeftInverse code make) (covers : ∀ tag, supported tag = all.contains (make tag))
    (plain : BlockPlain supported block) (distinct : BlockDistinct block) :
    (block.getD []).length ≤ all.length := by
  have bound := @length_made_le _ _ make all.contains _ _ _ all code made (fun _ => rfl) distinct
  have kept : ∀ tag ∈ (block.getD []).map Tagged.tag, all.contains (make tag) = true := by
    intro tag member
    rw [← plain.keptTags] at member
    rw [← covers]
    exact (List.mem_filter.mp member).2
  rwa [filter_made kept, List.length_map, List.length_map] at bound

end Plain

end Dimpl
