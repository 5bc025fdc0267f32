import Mathlib.Algebra.Ring.Nat
import Mathlib.Data.List.Induction

/-!
# Byte parser combinators

A small model of a `nom`-style parser library over complete inputs: a parser
consumes a prefix of a byte string and either succeeds with a value and the
remaining bytes, fails recoverably (`Err.error`) or fails for good
(`Err.failure`). Nothing here mentions a concrete wire format.
-/

namespace Nom

/-- A finite byte string. -/
abbrev Bytes := List UInt8

/-- The reason a parser gives for refusing its input. -/
inductive ErrorKind where
  | eof | tag | switch | lengthValue | fail | many0 | many1
  deriving DecidableEq, Repr

/-- A recoverable error lets a repetition stop; a failure aborts the whole
parse. -/
inductive Err where
  | error (kind : ErrorKind)
  | failure (kind : ErrorKind)
  deriving DecidableEq, Repr

/-- The error kind inside either sort of refusal. -/
def Err.code : Err → ErrorKind
  | .error kind => kind
  | .failure kind => kind

/-- A parser threads the remaining input. -/
abbrev Parser (α : Type) := StateT Bytes (Except Err) α

/-- Runs a parser on an input. -/
def parse {α : Type} (p : Parser α) (input : Bytes) : Except Err (α × Bytes) :=
  p.run input

/-- Stops with a recoverable error. -/
def refuse {α : Type} (kind : ErrorKind) : Parser α := fun _ => .error (.error kind)

/-- Stops with an irrecoverable failure. -/
def fail {α : Type} (kind : ErrorKind) : Parser α := fun _ => .error (.failure kind)

/-- Fails unless the condition holds. -/
def require (condition : Bool) (kind : ErrorKind) : Parser Unit :=
  if condition then pure () else fail kind

/-- The bytes not consumed yet. -/
def remaining : Parser Bytes := get

/-- Takes exactly `count` bytes. -/
def take (count : Nat) : Parser Bytes := fun input =>
  if input.length < count then .error (.error .eof)
  else .ok (input.take count, input.drop count)

/-- The value of a big-endian byte string. -/
def beValue (bytes : Bytes) : Nat :=
  bytes.foldl (fun value byte => value * 256 + byte.toNat) 0

/-- A big-endian number of `width` bytes. -/
def beUint (width : Nat) : Parser Nat := do
  return beValue (← take width)

/-- One byte. -/
def beU8 : Parser UInt8 := fun input =>
  match input with
  | [] => .error (.error .eof)
  | byte :: rest => .ok (byte, rest)

/-- A 16-bit big-endian number. -/
def beU16 : Parser Nat := beUint 2

/-- A 24-bit big-endian number. -/
def beU24 : Parser Nat := beUint 3

/-- A 48-bit big-endian number. -/
def beU48 : Parser Nat := beUint 6

/-- A half-open range of positions in a byte string. -/
structure Range where
  start : Nat
  stop : Nat
  deriving DecidableEq, Repr

/-- The bytes a range selects. -/
def slice (bytes : Bytes) (range : Range) : Bytes :=
  (bytes.drop range.start).take (range.stop - range.start)

/-- How far the parser has advanced from the input it started at. -/
def consumedFrom (original : Bytes) : Parser Nat := do
  return original.length - (← remaining).length

/-- Takes `count` bytes and reports their position, `original` standing at
position `base` of the root buffer. -/
def takeRange (original : Bytes) (base count : Nat) : Parser Range := do
  let start ← consumedFrom original
  let data ← take count
  return ⟨base + start, base + start + data.length⟩

/-- The loop of `foldItems`: one item per unit of `fuel`. -/
def foldItemsLoop {α β : Type} (item : Nat → Parser α) (push : β → α → Except ErrorKind β) :
    (fuel : Nat) → (offset : Nat) → β → Parser β
  | 0, _, acc => pure acc
  | fuel + 1, offset, acc => do
    let before ← remaining
    if before.isEmpty then
      return acc
    let value ← item offset
    match push acc value with
    | .error kind => fail kind
    | .ok acc =>
      let parsed ← consumedFrom before
      foldItemsLoop item push fuel (offset + parsed) acc

/-- Parses items until the input is used up and folds them with `push`; `item`
is told the position of the bytes it starts at. Every item must consume a byte,
so the length of the input bounds the number of rounds. -/
def foldItems {α β : Type} (item : Nat → Parser α) (push : β → α → Except ErrorKind β)
    (offset : Nat) (acc : β) : Parser β := do
  foldItemsLoop item push (← remaining).length offset acc

/-- Appends to a list of bounded capacity. -/
def pushBounded {α : Type} (capacity : Nat) (kind : ErrorKind) (items : List α) (value : α) :
    Except ErrorKind (List α) :=
  if items.length < capacity then .ok (items ++ [value]) else .error kind

/-- Appends to a list of bounded capacity the values a predicate keeps. -/
def pushFiltered {α : Type} (keep : α → Bool) (capacity : Nat) (kind : ErrorKind)
    (items : List α) (value : α) : Except ErrorKind (List α) :=
  if keep value then pushBounded capacity kind items value else .ok items

/-- The loop shared by `many0` and `many1`. It stops at the empty input and at
the first recoverable error, and refuses a parser that consumes nothing. -/
def manyLoop {α : Type} (p : Parser α) (keep : α → Bool) (capacity : Nat) (kind : ErrorKind) :
    (fuel : Nat) → List α → Parser (List α)
  | 0, acc => pure acc
  | fuel + 1, acc => fun input =>
    if input.isEmpty then .ok (acc, input)
    else
      match parse p input with
      | .error (.error _) => .ok (acc, input)
      | .error (.failure code) => .error (.failure code)
      | .ok (value, rest) =>
        if rest.length = input.length then .error (.error kind)
        else
          match pushFiltered keep capacity kind acc value with
          | .error code => .error (.error code)
          | .ok acc => manyLoop p keep capacity kind fuel acc rest

/-- Collects the items the predicate keeps; none is fine. -/
def many0 {α : Type} (p : Parser α) (keep : α → Bool) (capacity : Nat) : Parser (List α) := do
  manyLoop p keep capacity .many0 ((← remaining).length + 1) []

/-- Collects the items the predicate keeps and wants at least one. -/
def many1 {α : Type} (p : Parser α) (keep : α → Bool) (capacity : Nat) : Parser (List α) := do
  let items ← manyLoop p keep capacity .many1 ((← remaining).length + 1) []
  if items.isEmpty then refuse .many1
  return items

/-- Runs a parser on a separate input, keeping the current one. -/
def within {α : Type} (data : Bytes) (p : Parser α) : Parser (α × Bytes) := fun input =>
  match parse p data with
  | .error err => .error err
  | .ok result => .ok (result, input)

/-- A number as two big-endian bytes, truncated to 16 bits. -/
def be16 (n : Nat) : Bytes := [UInt8.ofNat (n / 256), UInt8.ofNat n]

/-- A number as three big-endian bytes, truncated to 24 bits. -/
def be24 (n : Nat) : Bytes := UInt8.ofNat (n / 65536) :: be16 n

/-- A number as four big-endian bytes, truncated to 32 bits. -/
def be32 (n : Nat) : Bytes := UInt8.ofNat (n / 16777216) :: be24 n

/-- A number as six big-endian bytes, truncated to 48 bits. -/
def be48 (n : Nat) : Bytes := be24 (n / 16777216) ++ be24 n

/-- A number as eight big-endian bytes, truncated to 64 bits. -/
def be64 (n : Nat) : Bytes := be32 (n / 4294967296) ++ be32 n

section Numbers

theorem beValue_concat (bytes : Bytes) (byte : UInt8) :
    beValue (bytes ++ [byte]) = beValue bytes * 256 + byte.toNat := by
  simp [beValue]

theorem beValue_lt (bytes : Bytes) : beValue bytes < 256 ^ bytes.length := by
  induction bytes using List.reverseRecOn with
  | nil => simp [beValue]
  | append_singleton bytes byte inductionHypothesis =>
      have last : byte.toNat < 256 := byte.toNat_lt
      rw [beValue_concat, List.length_append, List.length_singleton, Nat.pow_succ]
      omega

@[simp] theorem length_be16 (n : Nat) : (be16 n).length = 2 := rfl

theorem beValue_be16 (n : Nat) : beValue (be16 n) = n % 65536 := by
  simp only [beValue, be16, List.foldl_cons, List.foldl_nil, UInt8.toNat_ofNat']
  omega

theorem beValue_append (first second : Bytes) :
    beValue (first ++ second) = beValue first * 256 ^ second.length + beValue second := by
  induction second using List.reverseRecOn with
  | nil => simp [beValue]
  | append_singleton second byte inductionHypothesis =>
      rw [← List.append_assoc, beValue_concat, inductionHypothesis, beValue_concat, List.length_append,
        List.length_singleton, Nat.pow_succ]
      rw [Nat.add_mul, Nat.mul_assoc, Nat.add_assoc]

theorem beValue_be24 (n : Nat) : beValue (be24 n) = n % 16777216 := by
  simp only [beValue, be24, be16, List.foldl_cons, List.foldl_nil, UInt8.toNat_ofNat']
  omega

@[simp] theorem length_be48 (n : Nat) : (be48 n).length = 6 := rfl

theorem beValue_be48 (n : Nat) : beValue (be48 n) = n % 2 ^ 48 := by
  have length : (be24 n).length = 3 := rfl
  rw [be48, beValue_append, beValue_be24, beValue_be24, length]
  omega

theorem beValue_be32 (n : Nat) : beValue (be32 n) = n % 4294967296 := by
  simp only [beValue, be32, be24, be16, List.foldl_cons, List.foldl_nil, UInt8.toNat_ofNat']
  omega

@[simp] theorem length_be64 (n : Nat) : (be64 n).length = 8 := rfl

theorem beValue_be64 (n : Nat) : beValue (be64 n) = n % 2 ^ 64 := by
  have length : (be32 n).length = 4 := rfl
  rw [be64, beValue_append, beValue_be32, beValue_be32, length]
  omega

end Numbers

section Inversion

variable {α β : Type} {input rest : Bytes}

/-- A sequence that succeeds has a first part that succeeds. -/
theorem bind_ok {p : Parser α} {f : α → Parser β} {value : β}
    (succeeds : (p >>= f) input = .ok (value, rest)) :
    ∃ first middle, p input = .ok (first, middle) ∧ f first middle = .ok (value, rest) := by
  cases outcome : p input with
  | error err => simp [bind, StateT.bind, Except.bind, outcome] at succeeds
  | ok result =>
      obtain ⟨first, middle⟩ := result
      refine ⟨first, middle, rfl, ?_⟩
      simpa [bind, StateT.bind, Except.bind, outcome] using succeeds

theorem pure_ok {value result : α} (succeeds : (pure value : Parser α) input = .ok (result, rest)) :
    result = value ∧ rest = input := by
  injection succeeds with same
  injection same with isValue isRest
  exact ⟨isValue.symm, isRest.symm⟩

theorem remaining_bind_ok {f : Bytes → Parser β} {value : β}
    (succeeds : (remaining >>= f) input = .ok (value, rest)) :
    f input input = .ok (value, rest) :=
  succeeds

theorem require_ok {condition : Bool} {kind : ErrorKind} {result : Unit}
    (succeeds : require condition kind input = .ok (result, rest)) :
    condition = true ∧ rest = input := by
  unfold require at succeeds
  split at succeeds
  · rename_i holds
    exact ⟨holds, (pure_ok succeeds).2⟩
  · cases succeeds

theorem take_ok {count : Nat} {data : Bytes} (succeeds : take count input = .ok (data, rest)) :
    count ≤ input.length ∧ data = input.take count ∧ rest = input.drop count := by
  unfold take at succeeds
  split at succeeds
  · cases succeeds
  · rename_i enough
    cases succeeds
    exact ⟨Nat.le_of_not_lt enough, rfl, rfl⟩

theorem beUint_ok {width value : Nat} (succeeds : beUint width input = .ok (value, rest)) :
    width ≤ input.length ∧ value = beValue (input.take width) ∧ rest = input.drop width := by
  obtain ⟨data, _, taken, succeeds⟩ := bind_ok succeeds
  obtain ⟨enough, rfl, rfl⟩ := take_ok taken
  obtain ⟨rfl, rfl⟩ := pure_ok succeeds
  exact ⟨enough, rfl, rfl⟩

theorem beU8_ok {byte : UInt8} (succeeds : beU8 input = .ok (byte, rest)) : input = byte :: rest := by
  cases input with
  | nil => cases succeeds
  | cons first others =>
      cases succeeds
      rfl

/-- Where a range that was taken stands. -/
theorem takeRange_eq {original : Bytes} {base count : Nat} {range : Range}
    (succeeds : takeRange original base count input = .ok (range, rest)) :
    count ≤ input.length ∧ rest = input.drop count ∧
      range = ⟨base + (original.length - input.length),
        base + (original.length - input.length) + count⟩ := by
  obtain ⟨start, middle, consumed, succeeds⟩ := bind_ok succeeds
  unfold consumedFrom at consumed
  replace consumed := remaining_bind_ok consumed
  obtain ⟨rfl, rfl⟩ := pure_ok consumed
  obtain ⟨data, _, taken, succeeds⟩ := bind_ok succeeds
  obtain ⟨enough, rfl, rfl⟩ := take_ok taken
  obtain ⟨rfl, rfl⟩ := pure_ok succeeds
  refine ⟨enough, rfl, ?_⟩
  rw [List.length_take_of_le enough]

/-- A range that was taken starts inside the root input. -/
theorem takeRange_ok {original : Bytes} {base count : Nat} {range : Range}
    (succeeds : takeRange original base count input = .ok (range, rest)) :
    base ≤ range.start ∧ range.start ≤ base + original.length := by
  obtain ⟨_, _, rfl⟩ := takeRange_eq succeeds
  constructor
  · exact Nat.le_add_right _ _
  · simp only
    omega

/-- One round of `foldItems`: the input is used up, or an item is parsed and pushed. -/
theorem foldItemsLoop_round {γ : Type} {item : Nat → Parser α} {push : γ → α → Except ErrorKind γ}
    {fuel offset : Nat} {acc result : γ}
    (folded : foldItemsLoop item push (fuel + 1) offset acc input = .ok (result, rest)) :
    (input = [] ∧ result = acc) ∨
      ∃ value middle acc', item offset input = .ok (value, middle) ∧ push acc value = .ok acc' ∧
        foldItemsLoop item push fuel (offset + (input.length - middle.length)) acc' middle =
          .ok (result, rest) := by
  unfold foldItemsLoop at folded
  replace folded := remaining_bind_ok folded
  split at folded
  · rename_i isEmpty
    exact .inl ⟨List.isEmpty_iff.mp isEmpty, (pure_ok folded).1⟩
  · obtain ⟨value, middle, isItem, folded⟩ := bind_ok folded
    cases pushed : push acc value with
    | error refused =>
        rw [pushed] at folded
        cases folded
    | ok acc' =>
        rw [pushed] at folded
        obtain ⟨parsed, after, consumed, folded⟩ := bind_ok folded
        unfold consumedFrom at consumed
        replace consumed := remaining_bind_ok consumed
        obtain ⟨isParsed, isAfter⟩ := pure_ok consumed
        subst isParsed isAfter
        exact .inr ⟨value, after, acc', isItem, pushed, folded⟩

end Inversion

section Reading

variable {α β : Type} {input middle data rest : Bytes}

theorem bind_of_ok {p : Parser α} {f : α → Parser β} {value : α}
    (succeeds : p input = .ok (value, middle)) : (p >>= f) input = f value middle := by
  simp only [bind, StateT.bind, Except.bind, succeeds]

theorem require_of {condition : Bool} {kind : ErrorKind} (holds : condition = true) :
    require condition kind input = .ok ((), input) := by
  rw [require, if_pos holds]
  rfl

theorem take_append {count : Nat} (length : data.length = count) :
    take count (data ++ rest) = .ok (data, rest) := by
  unfold take
  rw [if_neg (by rw [List.length_append]; omega), ← length, List.take_left, List.drop_left]

/-- A number is read off the bytes in front. -/
theorem beUint_append {width : Nat} (length : data.length = width) :
    beUint width (data ++ rest) = .ok (beValue data, rest) :=
  bind_of_ok (take_append length)

/-- A range stands behind what was read before. -/
theorem takeRange_append {base count : Nat} {front : Bytes} (length : data.length = count) :
    takeRange (front ++ (data ++ rest)) base count (data ++ rest) =
      .ok (⟨base + front.length, base + front.length + count⟩, rest) := by
  unfold takeRange consumedFrom
  have start : (front ++ (data ++ rest)).length - (data ++ rest).length = front.length := by
    rw [List.length_append]
    omega
  refine (bind_of_ok rfl).trans ((bind_of_ok (take_append length)).trans ?_)
  rw [start, length]
  rfl

end Reading

/-- Every value the parser returns is one of `P`. -/
def Yields {α : Type} (P : α → Prop) (p : Parser α) : Prop :=
  ∀ input value rest, p input = .ok (value, rest) → P value

section YieldsRules

variable {α β : Type} {P : α → Prop}

theorem yields_any {p : Parser α} : Yields (fun _ => True) p := fun _ _ _ _ => trivial

theorem yields_pure {value : α} (holds : P value) : Yields P (pure value : Parser α) := by
  intro input result rest succeeds
  rw [(pure_ok succeeds).1]
  exact holds

theorem yields_bind {Q : β → Prop} {p : Parser β} {f : β → Parser α} (first : Yields Q p)
    (second : ∀ value, Q value → Yields P (f value)) : Yields P (p >>= f) := by
  intro input value rest succeeds
  obtain ⟨middle, after, parsed, continued⟩ := bind_ok succeeds
  exact second middle (first _ _ _ parsed) _ _ _ continued

theorem yields_ite {condition : Prop} [Decidable condition] {p q : Parser α} (positive : Yields P p)
    (negative : Yields P q) : Yields P (if condition then p else q) := by
  split
  · exact positive
  · exact negative

theorem yields_fail {kind : ErrorKind} : Yields P (fail kind : Parser α) := by
  intro input value rest succeeds
  cases succeeds

theorem yields_take {count : Nat} : Yields (fun bytes => bytes.length = count) (take count) := by
  intro input value rest succeeds
  obtain ⟨enough, rfl, _⟩ := take_ok succeeds
  exact List.length_take_of_le enough

end YieldsRules

end Nom
