import Dimpl.Lib.Nom

/-!
# Binary formats

A parser is described by what it reads: the bytes of some writing in front of its input, and what
it returns for it. Formats are put together from such descriptions, and a parser and a writer
are inverse to each other where the parser reads what the writer writes.
-/

namespace Nom

variable {α β ι κ : Type}

section Primitives

variable {input rest : Bytes}

theorem bind_iff {p : Parser α} {f : α → Parser β} {value : β} :
    (p >>= f) input = .ok (value, rest) ↔
      ∃ first middle, p input = .ok (first, middle) ∧ f first middle = .ok (value, rest) := by
  constructor
  · exact bind_ok
  · rintro ⟨first, middle, succeeds, continued⟩
    exact (bind_of_ok succeeds).trans continued

theorem pure_iff {value result : α} :
    (pure value : Parser α) input = .ok (result, rest) ↔ result = value ∧ rest = input := by
  constructor
  · exact pure_ok
  · rintro ⟨rfl, rfl⟩
    rfl

theorem require_iff {condition : Bool} {kind : ErrorKind} {result : Unit} :
    require condition kind input = .ok (result, rest) ↔ condition = true ∧ rest = input := by
  constructor
  · exact require_ok
  · rintro ⟨holds, rfl⟩
    exact require_of holds

theorem remaining_iff {result : Bytes} :
    remaining input = .ok (result, rest) ↔ result = input ∧ rest = input :=
  @pure_iff _ input rest input result

theorem consumedFrom_iff {original : Bytes} {count : Nat} :
    consumedFrom original input = .ok (count, rest) ↔
      count = original.length - input.length ∧ rest = input :=
  @pure_iff _ input rest (original.length - input.length) count

theorem take_iff {count : Nat} {data : Bytes} :
    take count input = .ok (data, rest) ↔ data.length = count ∧ input = data ++ rest := by
  constructor
  · intro succeeds
    obtain ⟨enough, rfl, rfl⟩ := take_ok succeeds
    exact ⟨List.length_take_of_le enough, (List.take_append_drop count input).symm⟩
  · rintro ⟨length, rfl⟩
    exact take_append length

theorem beU8_iff {byte : UInt8} : beU8 input = .ok (byte, rest) ↔ input = byte :: rest := by
  constructor
  · exact beU8_ok
  · rintro rfl
    rfl

/-- Only the lower 16 bits are written. -/
theorem be16_mod (high n : Nat) : be16 (high * 65536 + n) = be16 n := by
  have first : UInt8.ofNat ((high * 65536 + n) / 256) = UInt8.ofNat (n / 256) := by
    apply UInt8.toNat_inj.mp
    rw [UInt8.toNat_ofNat', UInt8.toNat_ofNat']
    omega
  have second : UInt8.ofNat (high * 65536 + n) = UInt8.ofNat n := by
    apply UInt8.toNat_inj.mp
    rw [UInt8.toNat_ofNat', UInt8.toNat_ofNat']
    omega
  rw [be16, first, second, be16]

/-- A byte string is the big-endian number it stands for. -/
theorem be16_beValue {bytes : Bytes} (length : bytes.length = 2) : be16 (beValue bytes) = bytes := by
  match bytes, length with
  | [high, low], _ =>
      have small := low.toNat_lt
      have isValue : beValue [high, low] = high.toNat * 256 + low.toNat := by
        simp [beValue]
      have first : UInt8.ofNat ((high.toNat * 256 + low.toNat) / 256) = high := by
        rw [show (high.toNat * 256 + low.toNat) / 256 = high.toNat by omega, UInt8.ofNat_toNat]
      have second : UInt8.ofNat (high.toNat * 256 + low.toNat) = low := by
        apply UInt8.toNat_inj.mp
        rw [UInt8.toNat_ofNat']
        omega
      rw [isValue, be16, first, second]

theorem be24_beValue {bytes : Bytes} (length : bytes.length = 3) : be24 (beValue bytes) = bytes := by
  match bytes, length with
  | high :: rest, length =>
      have two : rest.length = 2 := by simpa using length
      have small := beValue_lt rest
      rw [two] at small
      have isValue : beValue (high :: rest) = high.toNat * 65536 + beValue rest := by
        rw [← List.singleton_append, beValue_append, two]
        simp [beValue]
      have quotient : (high.toNat * 65536 + beValue rest) / 65536 = high.toNat := by omega
      rw [isValue, be24, quotient, UInt8.ofNat_toNat, be16_mod, be16_beValue two]

@[simp] theorem length_be24 (n : Nat) : (be24 n).length = 3 := rfl

/-- Only the lower 24 bits are written. -/
theorem be24_mod (high n : Nat) : be24 (high * 16777216 + n) = be24 n := by
  have first : UInt8.ofNat ((high * 16777216 + n) / 65536) = UInt8.ofNat (n / 65536) := by
    apply UInt8.toNat_inj.mp
    rw [UInt8.toNat_ofNat', UInt8.toNat_ofNat']
    omega
  have rest : be16 (high * 16777216 + n) = be16 n := by
    rw [show high * 16777216 + n = (high * 256) * 65536 + n by omega, be16_mod]
  rw [be24, first, rest, be24]

theorem be48_beValue {bytes : Bytes} (length : bytes.length = 6) : be48 (beValue bytes) = bytes := by
  have front : (bytes.take 3).length = 3 := by
    rw [List.length_take, length]
    rfl
  have back : (bytes.drop 3).length = 3 := by rw [List.length_drop, length]
  have small := beValue_lt (bytes.drop 3)
  have isValue : beValue bytes = beValue (bytes.take 3) * 16777216 + beValue (bytes.drop 3) := by
    have joined := beValue_append (bytes.take 3) (bytes.drop 3)
    rw [List.take_append_drop, back] at joined
    omega
  rw [back] at small
  have quotient : (beValue (bytes.take 3) * 16777216 + beValue (bytes.drop 3)) / 16777216 =
      beValue (bytes.take 3) := by omega
  rw [be48, isValue, quotient, be24_mod, be24_beValue front, be24_beValue back,
    List.take_append_drop]

theorem beU48_iff {n : Nat} :
    beU48 input = .ok (n, rest) ↔ n < 2 ^ 48 ∧ input = be48 n ++ rest := by
  constructor
  · intro succeeds
    obtain ⟨enough, rfl, rfl⟩ := beUint_ok succeeds
    have length : (input.take 6).length = 6 := List.length_take_of_le enough
    have small := beValue_lt (input.take 6)
    rw [length] at small
    refine ⟨small, ?_⟩
    rw [be48_beValue length, List.take_append_drop]
  · rintro ⟨small, rfl⟩
    rw [beU48, beUint_append (length_be48 n), beValue_be48, Nat.mod_eq_of_lt small]

theorem beU16_iff {n : Nat} :
    beU16 input = .ok (n, rest) ↔ n < 65536 ∧ input = be16 n ++ rest := by
  constructor
  · intro succeeds
    obtain ⟨enough, rfl, rfl⟩ := beUint_ok succeeds
    have length : (input.take 2).length = 2 := List.length_take_of_le enough
    have small := beValue_lt (input.take 2)
    rw [length] at small
    refine ⟨small, ?_⟩
    rw [be16_beValue length, List.take_append_drop]
  · rintro ⟨small, rfl⟩
    rw [beU16, beUint_append (length_be16 n), beValue_be16, Nat.mod_eq_of_lt small]

theorem beU24_iff {n : Nat} :
    beU24 input = .ok (n, rest) ↔ n < 16777216 ∧ input = be24 n ++ rest := by
  constructor
  · intro succeeds
    obtain ⟨enough, rfl, rfl⟩ := beUint_ok succeeds
    have length : (input.take 3).length = 3 := List.length_take_of_le enough
    have small := beValue_lt (input.take 3)
    rw [length] at small
    refine ⟨small, ?_⟩
    rw [be24_beValue length, List.take_append_drop]
  · rintro ⟨small, rfl⟩
    rw [beU24, beUint_append (length_be24 n), beValue_be24, Nat.mod_eq_of_lt small]

/-- A range is taken with the bytes it stands for. -/
theorem takeRange_iff {original : Bytes} {base count : Nat} {range : Range} :
    takeRange original base count input = .ok (range, rest) ↔
      ∃ data : Bytes, data.length = count ∧ input = data ++ rest ∧
        range = ⟨base + (original.length - input.length),
          base + (original.length - input.length) + count⟩ := by
  unfold takeRange
  simp only [bind_iff, consumedFrom_iff, take_iff, pure_iff]
  constructor
  · rintro ⟨start, middle, ⟨rfl, rfl⟩, data, after, ⟨rfl, split⟩, rfl, rfl⟩
    exact ⟨data, rfl, split, rfl⟩
  · rintro ⟨data, length, split, rfl⟩
    exact ⟨_, _, ⟨rfl, rfl⟩, data, rest, ⟨length, split⟩, by rw [length], rfl⟩

theorem within_iff {data : Bytes} {p : Parser α} {result : α × Bytes} :
    within data p input = .ok (result, rest) ↔ p data = .ok result ∧ rest = input := by
  unfold within parse
  have run : p.run data = p data := rfl
  rw [run]
  cases p data with
  | error err => simp
  | ok found => simp [eq_comm]

end Primitives

/-- Bytes behind their length in one byte. -/
def vector8 (data : Bytes) : Bytes := UInt8.ofNat data.length :: data

/-- Bytes behind their length in two bytes. -/
def vector16 (data : Bytes) : Bytes := be16 data.length ++ data

/-- Bytes behind their length in three bytes. -/
def vector24 (data : Bytes) : Bytes := be24 data.length ++ data

section Vectors

@[simp] theorem length_vector8 (data : Bytes) : (vector8 data).length = 1 + data.length := by
  rw [vector8, List.length_cons, Nat.add_comm]

@[simp] theorem length_vector16 (data : Bytes) : (vector16 data).length = 2 + data.length := by
  rw [vector16, List.length_append, length_be16]

@[simp] theorem length_vector24 (data : Bytes) : (vector24 data).length = 3 + data.length := by
  rw [vector24, List.length_append, length_be24]

/-- The bytes of a vector that was read behind its length are written behind the same length. -/
theorem vector8_of_length {byte : UInt8} {data : Bytes} (length : data.length = byte.toNat) :
    vector8 data = byte :: data := by
  rw [vector8, length, UInt8.ofNat_toNat]

theorem toNat_length {data : Bytes} (small : data.length < 256) :
    (UInt8.ofNat data.length).toNat = data.length := by
  rw [UInt8.toNat_ofNat', Nat.mod_eq_of_lt small]

/-- A slice of what stands between two byte strings. -/
theorem slice_between (front data back : Bytes) :
    slice (front ++ (data ++ back)) ⟨front.length, front.length + data.length⟩ = data := by
  rw [slice, List.drop_left, Nat.add_sub_cancel_left, List.take_left]

end Vectors

/-- A parser of one item, told where its bytes stand, reads exactly the writings of the items that
fit. -/
def ReadsAt (item : Nat → Parser α) (fits : ι → Prop) (write : ι → Bytes) (value : Nat → ι → α) :
    Prop :=
  ∀ offset input result rest, item offset input = .ok (result, rest) ↔
    ∃ w, fits w ∧ result = value offset w ∧ input = write w ++ rest

/-- The values of items that stand one behind the other. -/
def place (value : Nat → ι → α) (write : ι → Bytes) : Nat → List ι → List α
  | _, [] => []
  | offset, w :: ws => value offset w :: place value write (offset + (write w).length) ws

theorem length_place {value : Nat → ι → α} {write : ι → Bytes} (offset : Nat) (ws : List ι) :
    (place value write offset ws).length = ws.length := by
  induction ws generalizing offset with
  | nil => rfl
  | cons w ws inductionHypothesis => rw [place, List.length_cons, List.length_cons, inductionHypothesis]

/-- A number of 16 bits as a value. -/
theorem readsAt_code (make : Nat → α) :
    ReadsAt (fun _ => do return make (← beU16)) (fun code => code < 65536) be16
      (fun _ => make) := by
  intro offset input result rest
  simp only [bind_iff, beU16_iff, pure_iff]
  constructor
  · rintro ⟨code, _, ⟨small, rfl⟩, rfl, rfl⟩
    exact ⟨code, small, rfl, rfl⟩
  · rintro ⟨code, small, rfl, rfl⟩
    exact ⟨code, _, ⟨small, rfl⟩, rfl, rfl⟩

theorem readsAt_beU16 : ReadsAt (fun _ => beU16) (fun code => code < 65536) be16 (fun _ => id) := by
  intro offset input result rest
  rw [beU16_iff]
  constructor
  · rintro ⟨small, rfl⟩
    exact ⟨result, small, rfl, rfl⟩
  · rintro ⟨code, small, rfl, rfl⟩
    exact ⟨small, rfl⟩

/-- A value is read off the number it is written as. -/
theorem code_iff {make : Nat → α} {code : α → Nat} (codes : ∀ v, make (code v) = v)
    (makes : ∀ n, code (make n) = n) {input rest : Bytes} {result : α} :
    (do return make (← beU16) : Parser α) input = .ok (result, rest) ↔
      code result < 65536 ∧ input = be16 (code result) ++ rest := by
  constructor
  · intro parsed
    obtain ⟨n, small, rfl, rfl⟩ := (readsAt_code make 0 _ _ _).mp parsed
    rw [makes]
    exact ⟨small, rfl⟩
  · rintro ⟨small, rfl⟩
    exact (readsAt_code make 0 _ _ _).mpr ⟨code result, small, (codes result).symm, rfl⟩

theorem readsAt_beU8 :
    ReadsAt (fun _ => beU8) (fun _ => True) (fun byte => [byte]) (fun _ => id) := by
  intro offset input result rest
  rw [beU8_iff]
  constructor
  · rintro rfl
    exact ⟨result, trivial, rfl, rfl⟩
  · rintro ⟨byte, _, rfl, rfl⟩
    rfl

/-- A byte as a value. -/
theorem readsAt_byte (make : UInt8 → α) :
    ReadsAt (fun _ => do return make (← beU8)) (fun _ => True) (fun byte => [byte])
      (fun _ => make) := by
  intro offset input result rest
  simp only [bind_iff, beU8_iff, pure_iff]
  constructor
  · rintro ⟨byte, _, rfl, rfl, rfl⟩
    exact ⟨byte, trivial, rfl, rfl⟩
  · rintro ⟨byte, _, rfl, rfl⟩
    exact ⟨byte, _, rfl, rfl, rfl⟩

theorem vector8_ne_nil (data : Bytes) : vector8 data ≠ [] := List.cons_ne_nil _ _

theorem vector16_ne_nil (data : Bytes) : vector16 data ≠ [] := List.cons_ne_nil _ _

theorem vector24_ne_nil (data : Bytes) : vector24 data ≠ [] := List.cons_ne_nil _ _

/-- A vector is kept as the range of its bytes. -/
theorem readsAt_vector8 :
    ReadsAt
      (fun offset => do
        let original ← remaining
        let len ← beU8
        takeRange original offset len.toNat)
      (fun data => data.length < 256) vector8
      (fun offset data => ⟨offset + 1, offset + 1 + data.length⟩) := by
  intro offset input result rest
  simp only [bind_iff, remaining_iff, beU8_iff, takeRange_iff]
  constructor
  · rintro ⟨_, _, ⟨rfl, rfl⟩, count, _, rfl, data, isCount, rfl, rfl⟩
    refine ⟨data, isCount ▸ count.toNat_lt, ?_, ?_⟩
    · have start : (count :: (data ++ rest)).length - (data ++ rest).length = 1 := by
        rw [List.length_cons]
        omega
      rw [start, isCount]
    · rw [vector8_of_length isCount, List.cons_append]
  · rintro ⟨data, small, rfl, rfl⟩
    have isCount := toNat_length small
    have start : (vector8 data ++ rest).length - (data ++ rest).length = 1 := by
      rw [vector8, List.cons_append, List.length_cons]
      omega
    refine ⟨_, _, ⟨rfl, rfl⟩, UInt8.ofNat data.length, data ++ rest, rfl, data, isCount.symm, rfl, ?_⟩
    rw [start, isCount]

/-- The same behind a length of two bytes, of which a least value may be wanted. -/
theorem readsAt_vector16 (least : Nat) :
    ReadsAt
      (fun offset => do
        let original ← remaining
        let len ← beU16
        require (least ≤ len) .lengthValue
        takeRange original offset len)
      (fun data => least ≤ data.length ∧ data.length < 65536) vector16
      (fun offset data => ⟨offset + 2, offset + 2 + data.length⟩) := by
  intro offset input result rest
  simp only [bind_iff, remaining_iff, beU16_iff, require_iff, takeRange_iff, decide_eq_true_eq]
  constructor
  · rintro ⟨_, _, ⟨rfl, rfl⟩, _, _, ⟨small, rfl⟩, _, _, ⟨enough, rfl⟩, data, rfl, rfl, rfl⟩
    refine ⟨data, ⟨enough, small⟩, ?_, ?_⟩
    · have start : (be16 data.length ++ (data ++ rest)).length - (data ++ rest).length = 2 := by
        rw [List.length_append, length_be16]
        omega
      rw [start]
    · rw [vector16, List.append_assoc]
  · rintro ⟨data, ⟨enough, small⟩, rfl, rfl⟩
    have start : (vector16 data ++ rest).length - (data ++ rest).length = 2 := by
      rw [vector16, List.append_assoc, List.length_append, length_be16]
      omega
    refine ⟨_, _, ⟨rfl, rfl⟩, data.length, data ++ rest, ⟨small, ?_⟩, (), _, ⟨enough, rfl⟩, data, rfl,
      rfl, ?_⟩
    · rw [vector16, List.append_assoc]
    · rw [start]

/-- The same behind a length of three bytes. -/
theorem readsAt_vector24 :
    ReadsAt
      (fun offset => do
        let original ← remaining
        let len ← beU24
        takeRange original offset len)
      (fun data => data.length < 16777216) vector24
      (fun offset data => ⟨offset + 3, offset + 3 + data.length⟩) := by
  intro offset input result rest
  simp only [bind_iff, remaining_iff, beU24_iff, takeRange_iff]
  constructor
  · rintro ⟨_, _, ⟨rfl, rfl⟩, _, _, ⟨small, rfl⟩, data, rfl, rfl, rfl⟩
    refine ⟨data, small, ?_, ?_⟩
    · have start : (be24 data.length ++ (data ++ rest)).length - (data ++ rest).length = 3 := by
        rw [List.length_append, length_be24]
        omega
      rw [start]
    · rw [vector24, List.append_assoc]
  · rintro ⟨data, small, rfl, rfl⟩
    have start : (vector24 data ++ rest).length - (data ++ rest).length = 3 := by
      rw [vector24, List.append_assoc, List.length_append, length_be24]
      omega
    refine ⟨_, _, ⟨rfl, rfl⟩, data.length, data ++ rest, ⟨small, ?_⟩, data, rfl, rfl, ?_⟩
    · rw [vector24, List.append_assoc]
    · rw [start]

section Items

variable {item : Nat → Parser α} {fits : ι → Prop} {write : ι → Bytes} {value : Nat → ι → α}
variable {push : β → α → Except ErrorKind β} {acc result : β} {input rest : Bytes} {fuel offset : Nat}

theorem foldItemsLoop_nil : foldItemsLoop item push fuel offset acc [] = .ok (acc, []) := by
  cases fuel with
  | zero => rfl
  | succ fuel => rfl

/-- One round of `foldItems` on bytes that are left. -/
theorem foldItemsLoop_succ_iff (left : input ≠ []) :
    foldItemsLoop item push (fuel + 1) offset acc input = .ok (result, rest) ↔
      ∃ found middle acc', item offset input = .ok (found, middle) ∧ push acc found = .ok acc' ∧
        foldItemsLoop item push fuel (offset + (input.length - middle.length)) acc' middle =
          .ok (result, rest) := by
  constructor
  · intro folded
    rcases foldItemsLoop_round folded with ⟨isEmpty, _⟩ | found
    · exact absurd isEmpty left
    · exact found
  · rintro ⟨found, middle, acc', isItem, pushed, folded⟩
    have notEmpty : input.isEmpty = false := by
      cases input with
      | nil => exact absurd rfl left
      | cons byte bytes => rfl
    unfold foldItemsLoop
    refine (bind_of_ok rfl).trans ?_
    simp only [notEmpty, Bool.false_eq_true, if_false]
    refine (bind_of_ok isItem).trans ?_
    simp only [pushed]
    exact (bind_of_ok rfl).trans folded

/-- Items that consume bytes are written as no bytes only where there is none. -/
theorem eq_nil_of_flatMap {ws : List ι} (consumes : ∀ w, fits w → write w ≠ [])
    (allFit : ∀ w ∈ ws, fits w) (written : [] = ws.flatMap write) : ws = [] := by
  cases ws with
  | nil => rfl
  | cons w ws =>
      rw [List.flatMap_cons] at written
      have empty := (List.append_eq_nil_iff.mp written.symm).1
      exact absurd empty (consumes w (allFit w List.mem_cons_self))

theorem foldItemsLoop_nil_iff (consumes : ∀ w, fits w → write w ≠ []) :
    foldItemsLoop item push fuel offset acc [] = .ok (result, rest) ↔
      rest = [] ∧ ∃ ws, (∀ w ∈ ws, fits w) ∧ [] = ws.flatMap write ∧
        (place value write offset ws).foldlM push acc = .ok result := by
  rw [foldItemsLoop_nil]
  constructor
  · intro ended
    cases ended
    exact ⟨rfl, [], fun _ member => absurd member List.not_mem_nil, rfl, rfl⟩
  · rintro ⟨rfl, ws, allFit, written, folded⟩
    obtain rfl := eq_nil_of_flatMap consumes allFit written
    cases folded
    rfl

theorem foldItemsLoop_iff (reads : ReadsAt item fits write value)
    (consumes : ∀ w, fits w → write w ≠ []) (enough : input.length ≤ fuel) :
    foldItemsLoop item push fuel offset acc input = .ok (result, rest) ↔
      rest = [] ∧ ∃ ws, (∀ w ∈ ws, fits w) ∧ input = ws.flatMap write ∧
        (place value write offset ws).foldlM push acc = .ok result := by
  induction fuel generalizing offset acc input with
  | zero =>
      obtain rfl := List.length_eq_zero_iff.mp (Nat.le_zero.mp enough)
      exact foldItemsLoop_nil_iff consumes
  | succ fuel inductionHypothesis =>
      by_cases left : input = []
      · subst left
        exact foldItemsLoop_nil_iff consumes
      rw [foldItemsLoop_succ_iff left]
      constructor
      · rintro ⟨found, middle, acc', isItem, pushed, folded⟩
        obtain ⟨w, fit, rfl, rfl⟩ := (reads _ _ _ _).mp isItem
        have taken := List.length_pos_iff.mpr (consumes w fit)
        have shorter : middle.length ≤ fuel := by
          rw [List.length_append] at enough
          omega
        obtain ⟨rfl, ws, allFit, rfl, continued⟩ := (inductionHypothesis shorter).mp folded
        refine ⟨rfl, w :: ws, ?_, rfl, ?_⟩
        · exact List.forall_mem_cons.mpr ⟨fit, allFit⟩
        · rw [List.length_append, Nat.add_sub_cancel] at continued
          rw [place, List.foldlM_cons, pushed]
          exact continued
      · rintro ⟨rfl, ws, allFit, rfl, folded⟩
        cases ws with
        | nil => exact absurd rfl left
        | cons w ws =>
            obtain ⟨fit, allFit⟩ := List.forall_mem_cons.mp allFit
            rw [place, List.foldlM_cons] at folded
            cases pushed : push acc (value offset w) with
            | error kind =>
                rw [pushed] at folded
                cases folded
            | ok acc' =>
                rw [pushed] at folded
                have taken := List.length_pos_iff.mpr (consumes w fit)
                rw [List.flatMap_cons, List.length_append] at enough
                have shorter : (ws.flatMap write).length ≤ fuel := by omega
                refine ⟨value offset w, ws.flatMap write, acc', ?_, pushed, ?_⟩
                · exact (reads _ _ _ _).mpr ⟨w, fit, rfl, rfl⟩
                · rw [List.flatMap_cons, List.length_append, Nat.add_sub_cancel]
                  exact (inductionHypothesis shorter).mpr ⟨rfl, ws, allFit, rfl, folded⟩

/-- A fold over items uses its input up and pushes the items that stand there. -/
theorem foldItems_iff (reads : ReadsAt item fits write value)
    (consumes : ∀ w, fits w → write w ≠ []) :
    foldItems item push offset acc input = .ok (result, rest) ↔
      rest = [] ∧ ∃ ws, (∀ w ∈ ws, fits w) ∧ input = ws.flatMap write ∧
        (place value write offset ws).foldlM push acc = .ok result :=
  foldItemsLoop_iff reads consumes (Nat.le_refl _)

end Items

/-- Pushing appends the values that are kept while the list is one that is admitted. -/
structure Collects (push : List α → α → Except ErrorKind (List α)) (keep : α → Bool)
    (admits : List α → Prop) : Prop where
  step : ∀ {acc value result}, admits acc →
    (push acc value = .ok result ↔
      if keep value then result = acc ++ [value] ∧ admits result else result = acc)
  prior : ∀ {acc more}, admits (acc ++ more) → admits acc

section Collecting

variable {push : List α → α → Except ErrorKind (List α)} {keep : α → Bool} {admits : List α → Prop}

theorem Collects.foldlM_iff (collects : Collects push keep admits) {values acc result : List α}
    (admitted : admits acc) :
    values.foldlM push acc = .ok result ↔ result = acc ++ values.filter keep ∧ admits result := by
  induction values generalizing acc with
  | nil =>
      rw [List.foldlM_nil, List.filter_nil, List.append_nil]
      constructor
      · intro ended
        cases ended
        exact ⟨rfl, admitted⟩
      · rintro ⟨rfl, _⟩
        rfl
  | cons value values inductionHypothesis =>
      have split : (value :: values).foldlM push acc = .ok result ↔
          ∃ acc', push acc value = .ok acc' ∧ values.foldlM push acc' = .ok result := by
        rw [List.foldlM_cons]
        cases push acc value with
        | error kind => simp [bind, Except.bind]
        | ok acc' => simp [bind, Except.bind]
      rw [split]
      by_cases kept : keep value = true
      · rw [List.filter_cons_of_pos kept]
        constructor
        · rintro ⟨acc', pushed, folded⟩
          rw [collects.step admitted, if_pos kept] at pushed
          obtain ⟨rfl, grown⟩ := pushed
          obtain ⟨rfl, whole⟩ := (inductionHypothesis grown).mp folded
          exact ⟨by rw [List.append_assoc, List.singleton_append], whole⟩
        · rintro ⟨rfl, whole⟩
          have grown : admits (acc ++ [value]) := by
            rw [← List.singleton_append, ← List.append_assoc] at whole
            exact collects.prior whole
          refine ⟨acc ++ [value], ?_, ?_⟩
          · rw [collects.step admitted, if_pos kept]
            exact ⟨rfl, grown⟩
          · refine (inductionHypothesis grown).mpr ⟨?_, whole⟩
            rw [List.append_assoc, List.singleton_append]
      · rw [List.filter_cons_of_neg kept]
        constructor
        · rintro ⟨acc', pushed, folded⟩
          rw [collects.step admitted, if_neg kept] at pushed
          subst pushed
          exact (inductionHypothesis admitted).mp folded
        · intro whole
          refine ⟨acc, ?_, (inductionHypothesis admitted).mpr whole⟩
          rw [collects.step admitted, if_neg kept]

theorem collects_pushFiltered {capacity : Nat} {kind : ErrorKind} :
    Collects (pushFiltered keep capacity kind) keep (fun values => values.length ≤ capacity) where
  step := by
    intro acc value result admitted
    unfold pushFiltered pushBounded
    by_cases kept : keep value = true
    · rw [if_pos kept, if_pos kept]
      by_cases room : acc.length < capacity
      · rw [if_pos room]
        constructor
        · intro pushed
          cases pushed
          refine ⟨rfl, ?_⟩
          rw [List.length_append, List.length_singleton]
          exact room
        · rintro ⟨rfl, _⟩
          rfl
      · rw [if_neg room]
        constructor
        · intro pushed
          cases pushed
        · rintro ⟨rfl, bounded⟩
          rw [List.length_append, List.length_singleton] at bounded
          exact absurd bounded room
    · rw [if_neg kept, if_neg kept]
      constructor
      · intro pushed
        cases pushed
        rfl
      · rintro rfl
        rfl
  prior := by
    intro acc more bounded
    rw [List.length_append] at bounded
    omega

theorem collects_pushBounded {capacity : Nat} {kind : ErrorKind} :
    Collects (pushBounded capacity kind) (fun _ : α => true)
      (fun values => values.length ≤ capacity) := by
  have keepsAll : pushBounded (α := α) capacity kind = pushFiltered (fun _ => true) capacity kind := by
    funext items value
    rw [pushFiltered, if_pos rfl]
  rw [keepsAll]
  exact collects_pushFiltered

/-- Pushing refuses a second value with the same key. -/
theorem collects_distinct [DecidableEq κ] {key : α → κ} {capacity : Nat} {kind : ErrorKind}
    (pushes : ∀ acc value, push acc value =
      if keep value then
        if acc.any (fun existing => key existing = key value) then .error kind
        else pushBounded capacity kind acc value
      else .ok acc) :
    Collects push keep (fun values => (values.map key).Nodup ∧ values.length ≤ capacity) where
  step := by
    intro acc value result admitted
    obtain ⟨distinct, _⟩ := admitted
    rw [pushes]
    by_cases kept : keep value = true
    · rw [if_pos kept, if_pos kept]
      have isFresh : (acc.any fun existing => decide (key existing = key value)) = true ↔
          key value ∈ acc.map key := by
        simp
      have grows : ((acc ++ [value]).map key).Nodup ↔ key value ∉ acc.map key := by
        rw [List.map_append, List.map_singleton, List.nodup_append]
        simp [distinct]
      by_cases known : key value ∈ acc.map key
      · rw [if_pos (isFresh.mpr known)]
        constructor
        · intro pushed
          cases pushed
        · rintro ⟨rfl, nodup, _⟩
          exact absurd known (grows.mp nodup)
      · rw [if_neg (fun present => known (isFresh.mp present)), pushBounded]
        by_cases room : acc.length < capacity
        · rw [if_pos room]
          constructor
          · intro pushed
            cases pushed
            refine ⟨rfl, grows.mpr known, ?_⟩
            rw [List.length_append, List.length_singleton]
            exact room
          · rintro ⟨rfl, _⟩
            rfl
        · rw [if_neg room]
          constructor
          · intro pushed
            cases pushed
          · rintro ⟨rfl, _, bounded⟩
            rw [List.length_append, List.length_singleton] at bounded
            exact absurd bounded room
    · rw [if_neg kept, if_neg kept]
      constructor
      · intro pushed
        cases pushed
        rfl
      · rintro rfl
        rfl
  prior := by
    rintro acc more ⟨distinct, bounded⟩
    rw [List.map_append] at distinct
    rw [List.length_append] at bounded
    exact ⟨(List.nodup_append.mp distinct).1, by omega⟩

/-- A fold that keeps some of the items. -/
theorem foldItems_collects_iff {item : Nat → Parser α} {fits : ι → Prop} {write : ι → Bytes}
    {value : Nat → ι → α} (reads : ReadsAt item fits write value)
    (consumes : ∀ w, fits w → write w ≠ []) (collects : Collects push keep admits)
    (initial : admits []) {offset : Nat} {input rest : Bytes} {result : List α} :
    foldItems item push offset [] input = .ok (result, rest) ↔
      rest = [] ∧ ∃ ws : List ι, (∀ w ∈ ws, fits w) ∧ input = ws.flatMap write ∧
        result = (place value write offset ws).filter keep ∧ admits result := by
  rw [foldItems_iff reads consumes]
  simp only [collects.foldlM_iff initial, List.nil_append]

/-- A fold that keeps every item. -/
theorem foldItems_pushBounded_iff {item : Nat → Parser α} {fits : ι → Prop} {write : ι → Bytes}
    {value : Nat → ι → α} (reads : ReadsAt item fits write value)
    (consumes : ∀ w, fits w → write w ≠ []) {capacity offset : Nat} {kind : ErrorKind}
    {input rest : Bytes} {result : List α} :
    foldItems item (pushBounded capacity kind) offset [] input = .ok (result, rest) ↔
      rest = [] ∧ ∃ ws : List ι, (∀ w ∈ ws, fits w) ∧ input = ws.flatMap write ∧
        result = place value write offset ws ∧ ws.length ≤ capacity := by
  have whole (ws : List ι) : (place value write offset ws).filter (fun _ => true) =
      place value write offset ws :=
    List.filter_eq_self.mpr fun _ _ => rfl
  rw [foldItems_collects_iff reads consumes collects_pushBounded (Nat.zero_le capacity)]
  constructor
  · rintro ⟨rfl, ws, fit, rfl, rfl, few⟩
    rw [whole, length_place] at few
    exact ⟨rfl, ws, fit, rfl, whole ws, few⟩
  · rintro ⟨rfl, ws, fit, rfl, rfl, few⟩
    refine ⟨rfl, ws, fit, rfl, (whole ws).symm, ?_⟩
    rwa [length_place]

end Collecting

section Many

variable {p : Parser α} {fits : ι → Prop} {write : ι → Bytes} {value : ι → α}
variable {keep : α → Bool} {capacity fuel : Nat} {kind : ErrorKind} {acc result : List α} {input : Bytes}

/-- Values that do not depend on the position. -/
theorem place_const (offset : Nat) (ws : List ι) :
    place (fun _ => value) write offset ws = ws.map value := by
  induction ws generalizing offset with
  | nil => rfl
  | cons w ws inductionHypothesis => rw [place, inductionHypothesis, List.map_cons]

/-- One round of the loop on bytes that are left, when nothing is left at the end. -/
theorem manyLoop_succ_iff (left : input ≠ []) :
    manyLoop p keep capacity kind (fuel + 1) acc input = .ok (result, []) ↔
      ∃ found middle acc', p input = .ok (found, middle) ∧ middle.length ≠ input.length ∧
        pushFiltered keep capacity kind acc found = .ok acc' ∧
        manyLoop p keep capacity kind fuel acc' middle = .ok (result, []) := by
  have notEmpty : ¬input.isEmpty = true := by rwa [List.isEmpty_iff]
  rw [manyLoop]
  dsimp only
  rw [if_neg notEmpty]
  constructor
  · intro looped
    split at looped
    · injection looped with ended
      injection ended with _ isEmpty
      exact absurd isEmpty left
    · cases looped
    · rename_i found middle isItem
      split at looped
      · cases looped
      · rename_i shorter
        split at looped
        · cases looped
        · rename_i acc' pushed
          exact ⟨found, middle, acc', isItem, shorter, pushed, looped⟩
  · rintro ⟨found, middle, acc', isItem, shorter, pushed, looped⟩
    have isItem : parse p input = .ok (found, middle) := isItem
    simp only [isItem, if_neg shorter, pushed]
    exact looped

theorem manyLoop_iff (reads : ReadsAt (fun _ => p) fits write (fun _ => value))
    (consumes : ∀ w, fits w → write w ≠ []) (enough : input.length < fuel) :
    manyLoop p keep capacity kind fuel acc input = .ok (result, []) ↔
      ∃ ws : List ι, (∀ w ∈ ws, fits w) ∧ input = ws.flatMap write ∧
        (ws.map value).foldlM (pushFiltered keep capacity kind) acc = .ok result := by
  induction fuel generalizing acc input with
  | zero => omega
  | succ fuel inductionHypothesis =>
      by_cases left : input = []
      · subst left
        constructor
        · intro ended
          cases ended
          exact ⟨[], fun _ member => absurd member List.not_mem_nil, rfl, rfl⟩
        · rintro ⟨ws, allFit, written, folded⟩
          obtain rfl := eq_nil_of_flatMap consumes allFit written
          cases folded
          rfl
      rw [manyLoop_succ_iff left]
      constructor
      · rintro ⟨found, middle, acc', isItem, shorter, pushed, looped⟩
        obtain ⟨w, fit, rfl, rfl⟩ := (reads 0 _ _ _).mp isItem
        have taken := List.length_pos_iff.mpr (consumes w fit)
        have fewer : middle.length < fuel := by
          rw [List.length_append] at enough
          omega
        obtain ⟨ws, allFit, rfl, continued⟩ := (inductionHypothesis fewer).mp looped
        refine ⟨w :: ws, List.forall_mem_cons.mpr ⟨fit, allFit⟩, rfl, ?_⟩
        rw [List.map_cons, List.foldlM_cons, pushed]
        exact continued
      · rintro ⟨ws, allFit, rfl, folded⟩
        cases ws with
        | nil => exact absurd rfl left
        | cons w ws =>
            obtain ⟨fit, allFit⟩ := List.forall_mem_cons.mp allFit
            rw [List.map_cons, List.foldlM_cons] at folded
            cases pushed : pushFiltered keep capacity kind acc (value w) with
            | error kind =>
                rw [pushed] at folded
                cases folded
            | ok acc' =>
                rw [pushed] at folded
                have taken := List.length_pos_iff.mpr (consumes w fit)
                rw [List.flatMap_cons, List.length_append] at enough
                have fewer : (ws.flatMap write).length < fuel := by omega
                refine ⟨value w, ws.flatMap write, acc', ?_, ?_, pushed, ?_⟩
                · exact (reads 0 _ _ _).mpr ⟨w, fit, rfl, rfl⟩
                · rw [List.flatMap_cons, List.length_append]
                  omega
                · exact (inductionHypothesis fewer).mpr ⟨ws, allFit, rfl, folded⟩

theorem foldlM_pushFiltered_iff {values : List α} :
    values.foldlM (pushFiltered keep capacity kind) [] = .ok result ↔
      result = values.filter keep ∧ result.length ≤ capacity :=
  collects_pushFiltered.foldlM_iff (Nat.zero_le capacity)

/-- What `many0` keeps of the items that fill the input. -/
theorem many0_iff (reads : ReadsAt (fun _ => p) fits write (fun _ => value))
    (consumes : ∀ w, fits w → write w ≠ []) :
    many0 p keep capacity input = .ok (result, []) ↔
      ∃ ws : List ι, (∀ w ∈ ws, fits w) ∧ input = ws.flatMap write ∧
        result = (ws.map value).filter keep ∧ result.length ≤ capacity := by
  have looped : many0 p keep capacity input =
      manyLoop p keep capacity .many0 (input.length + 1) [] input := rfl
  rw [looped, manyLoop_iff reads consumes (Nat.lt_succ_self _)]
  simp only [foldlM_pushFiltered_iff]

/-- `many1` keeps at least one. -/
theorem many1_iff (reads : ReadsAt (fun _ => p) fits write (fun _ => value))
    (consumes : ∀ w, fits w → write w ≠ []) :
    many1 p keep capacity input = .ok (result, []) ↔
      (∃ ws : List ι, (∀ w ∈ ws, fits w) ∧ input = ws.flatMap write ∧
        result = (ws.map value).filter keep ∧ result.length ≤ capacity) ∧ result ≠ [] := by
  have looped : many1 p keep capacity input =
      (manyLoop p keep capacity .many1 (input.length + 1) [] >>= fun items =>
        if items.isEmpty then refuse .many1 >>= fun _ => pure items else pure items) input := rfl
  rw [looped, bind_iff]
  constructor
  · rintro ⟨items, middle, collected, continued⟩
    split at continued
    · cases continued
    · rename_i some
      obtain ⟨rfl, rfl⟩ := pure_ok continued
      rw [manyLoop_iff reads consumes (Nat.lt_succ_self _)] at collected
      simp only [foldlM_pushFiltered_iff] at collected
      exact ⟨collected, fun isEmpty => some (List.isEmpty_iff.mpr isEmpty)⟩
  · rintro ⟨collected, some⟩
    refine ⟨result, [], ?_, ?_⟩
    · rw [manyLoop_iff reads consumes (Nat.lt_succ_self _)]
      simp only [foldlM_pushFiltered_iff]
      exact collected
    · rw [if_neg (fun isEmpty => some (List.isEmpty_iff.mp isEmpty))]
      rfl

end Many

section Showing

variable {view : Bytes → α → ι} {write : ι → Bytes} {value : Nat → ι → α}

/-- Wherever an item stands in a buffer, its value shows it there. -/
def Shows (view : Bytes → α → ι) (write : ι → Bytes) (value : Nat → ι → α) : Prop :=
  ∀ front w back, view (front ++ (write w ++ back)) (value front.length w) = w

theorem map_place (shows : Shows view write value) (front : Bytes) (ws : List ι) (back : Bytes) :
    (place value write front.length ws).map (view (front ++ (ws.flatMap write ++ back))) = ws := by
  induction ws generalizing front with
  | nil => rfl
  | cons w ws inductionHypothesis =>
      have first : front ++ ((w :: ws).flatMap write ++ back) =
          front ++ (write w ++ (ws.flatMap write ++ back)) := by
        rw [List.flatMap_cons, List.append_assoc]
      have later : front ++ ((w :: ws).flatMap write ++ back) =
          (front ++ write w) ++ (ws.flatMap write ++ back) := by
        rw [first, List.append_assoc]
      rw [place, List.map_cons]
      congr 1
      · rw [first]
        exact shows front w _
      · rw [later, ← List.length_append]
        exact inductionHypothesis (front ++ write w)

/-- What does not depend on the position. -/
theorem map_place_of (offset : Nat) (ws : List ι) {f : α → β} {g : ι → β}
    (same : ∀ offset w, f (value offset w) = g w) :
    (place value write offset ws).map f = ws.map g := by
  induction ws generalizing offset with
  | nil => rfl
  | cons w ws inductionHypothesis =>
      rw [place, List.map_cons, List.map_cons, same, inductionHypothesis]

/-- What is kept of the values shows what is kept of the items. -/
theorem map_filter_place (shows : Shows view write value) {keep : α → Bool} {kept : ι → Bool}
    (front : Bytes) (ws : List ι) (back : Bytes)
    (sees : ∀ v, keep v = kept (view (front ++ (ws.flatMap write ++ back)) v)) :
    ((place value write front.length ws).filter keep).map
      (view (front ++ (ws.flatMap write ++ back))) = ws.filter kept := by
  have same : keep = kept ∘ view (front ++ (ws.flatMap write ++ back)) := funext sees
  rw [same, ← List.filter_map, map_place shows]

end Showing

section ShowsVectors

theorem slice_vector8 (front data back : Bytes) :
    slice (front ++ (vector8 data ++ back))
      ⟨front.length + 1, front.length + 1 + data.length⟩ = data := by
  have split : front ++ (vector8 data ++ back) =
      (front ++ [UInt8.ofNat data.length]) ++ (data ++ back) := by
    simp only [vector8, List.append_assoc, List.cons_append, List.nil_append]
  have length : (front ++ [UInt8.ofNat data.length]).length = front.length + 1 := by
    rw [List.length_append, List.length_singleton]
  rw [split, ← length]
  exact slice_between _ _ _

theorem slice_vector16 (front data back : Bytes) :
    slice (front ++ (vector16 data ++ back))
      ⟨front.length + 2, front.length + 2 + data.length⟩ = data := by
  have split : front ++ (vector16 data ++ back) =
      (front ++ be16 data.length) ++ (data ++ back) := by
    simp only [vector16, List.append_assoc]
  have length : (front ++ be16 data.length).length = front.length + 2 := by
    rw [List.length_append, length_be16]
  rw [split, ← length]
  exact slice_between _ _ _

theorem slice_vector24 (front data back : Bytes) :
    slice (front ++ (vector24 data ++ back))
      ⟨front.length + 3, front.length + 3 + data.length⟩ = data := by
  have split : front ++ (vector24 data ++ back) =
      (front ++ be24 data.length) ++ (data ++ back) := by
    simp only [vector24, List.append_assoc]
  have length : (front ++ be24 data.length).length = front.length + 3 := by
    rw [List.length_append, length_be24]
  rw [split, ← length]
  exact slice_between _ _ _

end ShowsVectors

/-- How the messages of a kind are written, and which of them can be. -/
structure Grammar (ω : Type) where
  fits : ω → Prop
  write : ω → Bytes

/-- A parser and a serializer of values that keep some of their bytes in a buffer. The parser is
told where its input stands, and `view` is what a value says whatever buffer holds its bytes. -/
structure Codec (α ω : Type) where
  parse : Nat → Parser α
  serialize : α → Bytes → Bytes
  view : Bytes → α → ω

namespace Codec

variable {ω : Type} {codec : Codec α ω} {grammar : Grammar ω} {holds plain : ω → Prop}

/-- Parser and serializer are inverse to each other. What is written of a value that `holds` is
read as the same value, its bytes in the new buffer; and what is read of bytes that only say
`plain` things is written as the same bytes. -/
structure Inverse (codec : Codec α ω) (grammar : Grammar ω) (holds plain : ω → Prop) : Prop where
  parse_serialize : ∀ v buf front back, holds (codec.view buf v) →
    ∃ v', codec.parse front.length (codec.serialize v buf) = .ok (v', []) ∧
      codec.view (front ++ (codec.serialize v buf ++ back)) v' = codec.view buf v
  serialize_parse : ∀ front x back v, codec.parse front.length x = .ok (v, []) →
    (∀ w, grammar.fits w → x = grammar.write w → plain w) →
    codec.serialize v (front ++ (x ++ back)) = x

/-- What a parser reads decides whether it is inverse to a serializer. -/
theorem inverse {accepts : ω → Prop} {value : Nat → ω → α}
    (reads : ∀ offset x v, codec.parse offset x = .ok (v, []) ↔
      ∃ w, accepts w ∧ v = value offset w ∧ x = grammar.write w)
    (writes : ∀ v buf, codec.serialize v buf = grammar.write (codec.view buf v))
    (shows : ∀ front w back, accepts w → plain w →
      codec.view (front ++ (grammar.write w ++ back)) (value front.length w) = w)
    (fits : ∀ w, accepts w → grammar.fits w)
    (sound : ∀ w, holds w → accepts w ∧ plain w) : codec.Inverse grammar holds plain where
  parse_serialize := by
    intro v buf front back valid
    obtain ⟨accepted, isPlain⟩ := sound _ valid
    refine ⟨value front.length (codec.view buf v), ?_, ?_⟩
    · exact (reads _ _ _).mpr ⟨_, accepted, rfl, writes v buf⟩
    · rw [writes]
      exact shows front _ back accepted isPlain
  serialize_parse := by
    intro front x back v parsed isPlain
    obtain ⟨w, accepted, rfl, rfl⟩ := (reads _ _ _).mp parsed
    rw [writes, shows front w back accepted (isPlain w (fits w accepted) rfl)]

end Codec

end Nom
