import Mathlib.Data.List.Nodup
import Mathlib.Data.List.Perm.Subperm
import Dimpl.Lib.Format
import Dimpl.Types

/-!
# Fields on the wire

The parts that messages of both versions are made of, as numbers and bytes: how they are written and
what is read of them.
-/

namespace Dimpl

open Nom

/-- A code point and the data behind it, as an extension or a key share has them. -/
structure Tagged where
  tag : Nat
  data : Bytes
  deriving DecidableEq, Repr

namespace Tagged

/-- Both numbers fit in 16 bits. -/
def Fits (tagged : Tagged) : Prop := tagged.tag < 65536 ∧ tagged.data.length < 65536

/-- The code point, the length and the data. -/
def write (tagged : Tagged) : Bytes := be16 tagged.tag ++ vector16 tagged.data

theorem length_write (tagged : Tagged) : tagged.write.length = 4 + tagged.data.length := by
  rw [write, List.length_append, length_be16, length_vector16]
  omega

theorem write_ne_nil (tagged : Tagged) (_ : tagged.Fits) : tagged.write ≠ [] := by
  intro empty
  have length := tagged.length_write
  rw [empty, List.length_nil] at length
  omega

/-- Where the data stands. -/
theorem slice_data (front : Bytes) (tagged : Tagged) (back : Bytes) :
    slice (front ++ (tagged.write ++ back))
      ⟨front.length + 4, front.length + 4 + tagged.data.length⟩ = tagged.data := by
  have split : front ++ (tagged.write ++ back) =
      (front ++ (be16 tagged.tag ++ be16 tagged.data.length)) ++ (tagged.data ++ back) := by
    simp only [write, vector16, List.append_assoc]
  have length : (front ++ (be16 tagged.tag ++ be16 tagged.data.length)).length =
      front.length + 4 := by
    simp only [List.length_append, length_be16]
  rw [split, ← length]
  exact slice_between _ _ _

theorem length_flatMap_write (all : List Tagged) :
    (all.flatMap write).length = (all.map fun tagged => 4 + tagged.data.length).sum := by
  rw [List.length_flatMap]
  congr 1
  exact List.map_congr_left fun tagged _ => tagged.length_write

/-- A value made of the code point and of the range where the data stands. -/
theorem readsAt {α κ : Type} {code : Parser κ} {ofCode : Nat → κ} (make : κ → Range → α)
    (reads : ReadsAt (fun _ => code) (fun n => n < 65536) be16 (fun _ => ofCode)) :
    ReadsAt
      (fun offset => do
        let original ← remaining
        let found ← code
        let length ← beU16
        let range ← takeRange original offset length
        return make found range)
      Fits write
      (fun offset tagged =>
        make (ofCode tagged.tag) ⟨offset + 4, offset + 4 + tagged.data.length⟩) := by
  intro offset input result rest
  have isCode := reads 0
  simp only [bind_iff, remaining_iff, isCode, beU16_iff, takeRange_iff, pure_iff]
  constructor
  · rintro ⟨_, _, ⟨rfl, rfl⟩, _, _, ⟨tag, small, rfl, rfl⟩, length, _, ⟨fits, rfl⟩, _, _,
      ⟨data, rfl, rfl, rfl⟩, rfl, rfl⟩
    refine ⟨⟨tag, data⟩, ⟨small, fits⟩, ?_, ?_⟩
    · have start : (be16 tag ++ (be16 data.length ++ (data ++ rest))).length -
          (data ++ rest).length = 4 := by
        simp only [List.length_append, length_be16]
        omega
      rw [start]
    · simp only [write, vector16, List.append_assoc]
  · rintro ⟨⟨tag, data⟩, ⟨small, fits⟩, rfl, rfl⟩
    have start : (write ⟨tag, data⟩ ++ rest).length - (data ++ rest).length = 4 := by
      simp only [List.length_append, length_write]
      omega
    refine ⟨_, _, ⟨rfl, rfl⟩, _, _, ⟨tag, small, rfl, ?_⟩, data.length, _, ⟨fits, rfl⟩, _, _,
      ⟨data, rfl, rfl, rfl⟩, ?_, rfl⟩
    · simp only [write, vector16, List.append_assoc]
    · rw [start]

end Tagged

/-- An identifier behind its length. -/
theorem parseVarArray_iff {max : Nat} {data input rest : Bytes} :
    parseVarArray max input = .ok (data, rest) ↔
      data.length ≤ max % 256 ∧ input = vector8 data ++ rest := by
  unfold parseVarArray
  simp only [bind_iff, beU8_iff, require_iff, take_iff, decide_eq_true_eq]
  constructor
  · rintro ⟨len, _, rfl, _, _, ⟨bounded, rfl⟩, length, rfl⟩
    rw [vector8_of_length length]
    exact ⟨length ▸ bounded, rfl⟩
  · rintro ⟨bounded, rfl⟩
    have small : data.length < 256 := Nat.lt_of_le_of_lt bounded (Nat.mod_lt max (by omega))
    have isLength := toNat_length small
    exact ⟨_, _, rfl, (), _, ⟨by rwa [isLength], rfl⟩, isLength.symm, rfl⟩

theorem Random.parse_iff {random : Random} {input rest : Bytes} :
    Random.parse input = .ok (random, rest) ↔
      random.bytes.length = 32 ∧ input = random.bytes ++ rest := by
  unfold Random.parse
  simp only [bind_iff, take_iff, pure_iff]
  constructor
  · rintro ⟨bytes, _, ⟨length, rfl⟩, rfl, rfl⟩
    exact ⟨length, rfl⟩
  · rintro ⟨length, rfl⟩
    exact ⟨_, _, ⟨length, rfl⟩, rfl, rfl⟩

theorem ProtocolVersion.parse_iff {version : ProtocolVersion} {input rest : Bytes} :
    ProtocolVersion.parse input = .ok (version, rest) ↔
      version.asU16 < 65536 ∧ input = be16 version.asU16 ++ rest :=
  code_iff (fun _ => rfl) (fun _ => rfl)

theorem CompressionMethod.readsAt :
    ReadsAt (fun _ => CompressionMethod.parse) (fun _ => True) (fun byte => [byte])
      (fun _ => CompressionMethod.mk) :=
  readsAt_byte CompressionMethod.mk

theorem CompressionMethod.parse_iff {method : CompressionMethod} {input rest : Bytes} :
    CompressionMethod.parse input = .ok (method, rest) ↔ input = method.asU8 :: rest := by
  constructor
  · intro parsed
    obtain ⟨byte, _, rfl, rfl⟩ := (CompressionMethod.readsAt 0 _ _ _).mp parsed
    rfl
  · rintro rfl
    exact (CompressionMethod.readsAt 0 _ _ _).mpr ⟨_, trivial, rfl, rfl⟩

/-- The methods that are kept of a list that is read to its end. -/
theorem parseMethods_iff {input : Bytes} {methods : List CompressionMethod} :
    many1 CompressionMethod.parse CompressionMethod.isSupported 1 input = .ok (methods, []) ↔
      (methods = (input.map CompressionMethod.mk).filter CompressionMethod.isSupported ∧
        methods.length ≤ 1) ∧ methods ≠ [] := by
  rw [many1_iff CompressionMethod.readsAt fun _ _ => List.cons_ne_nil _ _]
  have flat (bytes : Bytes) : bytes.flatMap (fun byte => [byte]) = bytes := List.flatMap_singleton' _
  constructor
  · rintro ⟨⟨bytes, _, rfl, kept, bounded⟩, some⟩
    rw [flat]
    exact ⟨⟨kept, bounded⟩, some⟩
  · rintro ⟨⟨kept, bounded⟩, some⟩
    exact ⟨⟨input, fun _ _ => trivial, (flat input).symm, kept, bounded⟩, some⟩

section Codes

variable {α : Type} {make : Nat → α} {keep : α → Bool} {capacity : Nat} {kind : ErrorKind}
variable {condition : Nat → Bool} {refusal : ErrorKind} {values : List α} {input rest : Bytes}

/-- 16-bit numbers one behind the other. -/
def writeCodes (codes : List Nat) : Bytes := codes.flatMap be16

@[simp] theorem length_writeCodes (codes : List Nat) : (writeCodes codes).length = codes.length * 2 := by
  induction codes with
  | nil => rfl
  | cons code codes inductionHypothesis =>
      rw [writeCodes, List.flatMap_cons, List.length_append, length_be16, List.length_cons]
      unfold writeCodes at inductionHypothesis
      omega

/-- The numbers of values, as serializers write them. -/
theorem vector16_codes {α : Type} (code : α → Nat) (values : List α) :
    vector16 (writeCodes (values.map code)) =
      be16 (values.length * 2) ++ values.flatMap fun value => be16 (code value) := by
  rw [vector16, length_writeCodes, List.length_map, writeCodes, List.flatMap_map]

theorem be16_ne_nil (code : Nat) (_ : code < 65536) : be16 code ≠ [] := List.cons_ne_nil _ _

/-- The kept values of a list of numbers behind its length that fills the input. -/
theorem codeList_iff {code : Parser α}
    (reads : ReadsAt (fun _ => code) (fun n => n < 65536) be16 (fun _ => make)) :
    (do
      let listLen ← beU16
      require (condition listLen) refusal
      let data ← take listLen
      require (← remaining).isEmpty .lengthValue
      let (values, _) ← within data
        (foldItems (fun _ => code) (pushFiltered keep capacity kind) 0 [])
      return values : Parser (List α)) input = .ok (values, rest) ↔
      rest = [] ∧ ∃ codes : List Nat, (∀ code ∈ codes, code < 65536) ∧ codes.length * 2 < 65536 ∧
        condition (codes.length * 2) = true ∧ input = vector16 (writeCodes codes) ∧
        values = (codes.map make).filter keep ∧ values.length ≤ capacity := by
  simp only [bind_iff, beU16_iff, require_iff, take_iff, remaining_iff, within_iff, Prod.exists,
    foldItems_collects_iff reads be16_ne_nil collects_pushFiltered (Nat.zero_le capacity), pure_iff,
    place_const, List.isEmpty_iff]
  constructor
  · rintro ⟨_, _, ⟨small, rfl⟩, _, _, ⟨holds, rfl⟩, data, _, ⟨rfl, rfl⟩, _, _, ⟨rfl, rfl⟩, _, _,
      ⟨rfl, rfl⟩, _, _, _, ⟨⟨rfl, codes, fit, rfl, rfl, bounded⟩, rfl⟩, rfl, rfl⟩
    have isLength : (codes.flatMap be16).length = codes.length * 2 := length_writeCodes codes
    rw [isLength] at small holds
    refine ⟨rfl, codes, fit, small, holds, ?_, rfl, bounded⟩
    rw [List.append_nil]
    rfl
  · rintro ⟨rfl, codes, fit, small, holds, rfl, rfl, bounded⟩
    have isLength : (codes.flatMap be16).length = codes.length * 2 := length_writeCodes codes
    refine ⟨_, writeCodes codes ++ [], ⟨small, ?_⟩, (), _, ⟨holds, rfl⟩, _, [], ⟨isLength, rfl⟩, _, _,
      ⟨rfl, rfl⟩, (), _, ⟨rfl, rfl⟩, _, _, _, ⟨⟨rfl, codes, fit, rfl, rfl, bounded⟩, rfl⟩, rfl, rfl⟩
    rw [vector16, length_writeCodes, List.append_nil]

/-- The same behind a length of one byte, where there is a number. -/
theorem codeList8_iff {code : Parser α}
    (reads : ReadsAt (fun _ => code) (fun n => n < 65536) be16 (fun _ => make)) :
    (do
      let listLen ← beU8
      require (listLen.toNat ≠ 0 ∧ listLen.toNat % 2 = 0) .lengthValue
      let data ← take listLen.toNat
      require (← remaining).isEmpty .lengthValue
      let (values, _) ← within data
        (foldItems (fun _ => code) (pushFiltered keep capacity kind) 0 [])
      return values : Parser (List α)) input = .ok (values, rest) ↔
      rest = [] ∧ ∃ codes : List Nat, (∀ code ∈ codes, code < 65536) ∧ codes.length * 2 < 256 ∧
        codes ≠ [] ∧ input = vector8 (writeCodes codes) ∧
        values = (codes.map make).filter keep ∧ values.length ≤ capacity := by
  simp only [bind_iff, beU8_iff, require_iff, take_iff, remaining_iff, within_iff, Prod.exists,
    foldItems_collects_iff reads be16_ne_nil collects_pushFiltered (Nat.zero_le capacity), pure_iff,
    place_const, List.isEmpty_iff, decide_eq_true_eq]
  constructor
  · rintro ⟨count, _, rfl, _, _, ⟨⟨isSome, _⟩, rfl⟩, data, _, ⟨isCount, rfl⟩, _, _, ⟨rfl, rfl⟩, list⟩
    obtain ⟨_, _, ⟨rfl, rfl⟩, _, _, _, ⟨⟨rfl, codes, fit, rfl, rfl, bounded⟩, rfl⟩, rfl, rfl⟩ := list
    have isLength : (codes.flatMap be16).length = codes.length * 2 := length_writeCodes codes
    have small := count.toNat_lt
    rw [← isCount, isLength] at isSome small
    refine ⟨rfl, codes, fit, small, ?_, ?_, rfl, bounded⟩
    · rintro rfl
      exact isSome rfl
    · rw [List.append_nil, ← vector8_of_length isCount]
      rfl
  · rintro ⟨rfl, codes, fit, small, isSome, rfl, rfl, bounded⟩
    have isLength : (writeCodes codes).length = codes.length * 2 := length_writeCodes codes
    have isCount : (UInt8.ofNat (writeCodes codes).length).toNat = codes.length * 2 := by
      rw [toNat_length (isLength ▸ small), isLength]
    have positive := List.length_pos_iff.mpr isSome
    refine ⟨_, writeCodes codes ++ [], ?_, (), _, ⟨⟨by omega, by omega⟩, rfl⟩, writeCodes codes, [],
      ⟨isCount ▸ isLength, rfl⟩, _, _, ⟨rfl, rfl⟩, (), _, ⟨rfl, rfl⟩, _, _, _,
      ⟨⟨rfl, codes, fit, rfl, rfl, bounded⟩, rfl⟩, rfl, rfl⟩
    rw [vector8, List.append_nil]

end Codes

section Kept

variable {α β : Type} {make : β → α} {keep : α → Bool} {values : List β}

/-- Supported elements are all kept. -/
theorem filter_made (plain : ∀ value ∈ values, keep (make value) = true) :
    (values.map make).filter keep = values.map make :=
  List.filter_eq_self.mpr (List.forall_mem_map.mpr plain)

theorem map_filter_made {code : α → β} (made : ∀ value, code (make value) = value)
    (plain : ∀ value ∈ values, keep (make value) = true) :
    ((values.map make).filter keep).map code = values := by
  rw [filter_made plain, List.map_map]
  have same : code ∘ make = id := funext made
  rw [same, List.map_id]

/-- Some elements stay when all are supported. -/
theorem filter_made_ne_nil (plain : ∀ value ∈ values, keep (make value) = true)
    (some : values ≠ []) : (values.map make).filter keep ≠ [] := by
  rw [filter_made plain]
  exact fun isNil => some (List.map_eq_nil_iff.mp isNil)

/-- Distinct supported elements are no more than there are supported ones. -/
theorem length_made_le [BEq α] [LawfulBEq α] {all : List α} (code : α → β)
    (made : Function.LeftInverse code make) (covers : ∀ value, keep value = all.contains value)
    (distinct : values.Nodup) : ((values.map make).filter keep).length ≤ all.length := by
  apply List.Subperm.length_le
  apply List.Nodup.subperm
  · exact (distinct.map made.injective).filter keep
  · intro value member
    have kept := (List.mem_filter.mp member).2
    rw [covers] at kept
    exact List.contains_iff_mem.mp kept

end Kept

/-- A single code point with its data. -/
def Tagged.grammar : Grammar Tagged := ⟨Tagged.Fits, Tagged.write⟩

/-- A code point with its data is read and written as it is. -/
theorem Tagged.inverse {α : Type} {codec : Codec α Tagged} {value : Nat → Tagged → α}
    (reads : ∀ offset x found, codec.parse offset x = .ok (found, []) ↔
      ∃ tagged : Tagged, tagged.Fits ∧ found = value offset tagged ∧ x = tagged.write)
    (writes : ∀ found buf, codec.serialize found buf = (codec.view buf found).write)
    (shows : Shows codec.view Tagged.write value) :
    codec.Inverse Tagged.grammar Tagged.Fits fun _ => True := by
  apply Codec.inverse reads writes
  · exact fun front tagged back _ _ => shows front tagged back
  · exact fun tagged fits => fits
  · exact fun tagged fits => ⟨fits, trivial⟩

/-- A single code point. -/
def codeGrammar : Grammar Nat := ⟨fun code => code < 65536, be16⟩

/-- A code point that fills the input is read and written as it is. -/
theorem code_inverse {α : Type} {codec : Codec α Nat} {make : Nat → α} {code : α → Nat}
    (reads : ∀ offset x found, codec.parse offset x = .ok (found, []) ↔
      code found < 65536 ∧ x = be16 (code found))
    (writes : ∀ found buf, codec.serialize found buf = be16 (code found))
    (views : ∀ buf found, codec.view buf found = code found)
    (made : Function.LeftInverse code make) (makes : Function.LeftInverse make code) :
    codec.Inverse codeGrammar (fun code => code < 65536) fun _ => True := by
  have parses (offset : Nat) (x : Bytes) (found : α) : codec.parse offset x = .ok (found, []) ↔
      ∃ n, n < 65536 ∧ found = make n ∧ x = codeGrammar.write n := by
    rw [reads]
    constructor
    · rintro ⟨small, rfl⟩
      exact ⟨code found, small, (makes found).symm, rfl⟩
    · rintro ⟨n, small, rfl, rfl⟩
      rw [made]
      exact ⟨small, rfl⟩
  apply Codec.inverse parses
  · intro found buf
    rw [writes, views]
    rfl
  · intro front n back _ _
    rw [views, made]
  · exact fun n small => small
  · exact fun n small => ⟨small, trivial⟩

/-- Lists of numbers behind a length. -/
def codesGrammar (limit : Nat) (vector : Bytes → Bytes) : Grammar (List Nat) where
  fits codes := (∀ code ∈ codes, code < 65536) ∧ codes.length * 2 < limit
  write codes := vector (writeCodes codes)

/-- A list that fits, of distinct and supported numbers, with one where one is wanted. -/
structure CodesHold (limit : Nat) (wanted : List Nat → Prop) (supported : Nat → Bool)
    (codes : List Nat) : Prop where
  code : ∀ code ∈ codes, code < 65536
  length : codes.length * 2 < limit
  wanted : wanted codes
  supported : ∀ code ∈ codes, supported code = true
  distinct : codes.Nodup

/-- A parser that keeps the supported numbers of a list is inverse to the serializer of such
lists. -/
theorem codes_inverse {α : Type} [BEq α] [LawfulBEq α] {codec : Codec (List α) (List Nat)}
    {make : Nat → α} {code : α → Nat} {keep : α → Bool} {all : List α} {limit : Nat}
    {vector : Bytes → Bytes} {wanted : List Nat → Prop}
    (reads : ∀ offset x values, codec.parse offset x = .ok (values, []) ↔
      ∃ codes, ((codesGrammar limit vector).fits codes ∧ wanted codes ∧
        ((codes.map make).filter keep).length ≤ all.length) ∧
        values = (codes.map make).filter keep ∧ x = (codesGrammar limit vector).write codes)
    (writes : ∀ values buf, codec.serialize values buf =
      (codesGrammar limit vector).write (codec.view buf values))
    (views : ∀ buf values, codec.view buf values = values.map code)
    (made : Function.LeftInverse code make) (covers : ∀ value, keep value = all.contains value) :
    codec.Inverse (codesGrammar limit vector)
      (CodesHold limit wanted fun code => keep (make code))
      (fun codes => ∀ code ∈ codes, keep (make code) = true) := by
  apply Codec.inverse reads writes
  · intro front codes back _ plain
    rw [views]
    exact map_filter_made made plain
  · exact fun codes accepted => accepted.1
  · intro codes holds
    have few := length_made_le code made covers holds.distinct
    exact ⟨⟨⟨holds.code, holds.length⟩, holds.wanted, few⟩, holds.supported⟩

end Dimpl
