import Dimpl.Lib.Nom

/-!
# Lists of numbers on the wire

A list of 16-bit numbers behind its length in bytes. A parser that keeps some of the
numbers of such a list returns numbers that stand in it.
-/

namespace Nom

/-- The 16-bit numbers of a byte string. -/
def codes : Bytes → List Nat
  | first :: second :: rest => beValue [first, second] :: codes rest
  | _ => []

/-- The numbers of a list behind its length in bytes. -/
def listed (data : Bytes) : List Nat := codes ((data.drop 2).take (beValue (data.take 2)))

section Codes

variable {α : Type} {input rest : Bytes}

theorem codes_of_two {value : Nat} (enough : 2 ≤ input.length)
    (isValue : value = beValue (input.take 2)) :
    codes input = value :: codes (input.drop 2) := by
  match input, enough with
  | first :: second :: rest, _ => simp [codes, isValue]

/-- An item of two bytes with a number. -/
def ReadsCode (item : Parser α) (code : α → Nat) : Prop :=
  ∀ input value rest, item input = .ok (value, rest) →
    2 ≤ input.length ∧ code value = beValue (input.take 2) ∧ rest = input.drop 2

theorem pushFiltered_mem {keep : α → Bool} {capacity : Nat} {kind : ErrorKind} {items items' : List α}
    {value : α} (pushed : pushFiltered keep capacity kind items value = .ok items') :
    ∀ item ∈ items', item ∈ items ∨ item = value := by
  unfold pushFiltered pushBounded at pushed
  intro item member
  split at pushed
  · split at pushed
    · cases pushed
      simpa using member
    · cases pushed
  · cases pushed
    exact .inl member

theorem foldItemsLoop_codes {item : Parser α} {code : α → Nat} (reads : ReadsCode item code)
    {keep : α → Bool} {capacity : Nat} {kind : ErrorKind} {fuel offset : Nat} {acc values : List α}
    (folded : foldItemsLoop (fun _ => item) (pushFiltered keep capacity kind) fuel offset acc input =
      .ok (values, rest)) :
    ∀ value ∈ values, value ∈ acc ∨ code value ∈ codes input := by
  induction fuel generalizing offset acc input with
  | zero =>
      obtain ⟨rfl, _⟩ := pure_ok folded
      exact fun _ member => .inl member
  | succ fuel inductionHypothesis =>
      rcases foldItemsLoop_round folded with ⟨_, rfl⟩ | ⟨value, middle, acc', isItem, pushed, folded⟩
      · exact fun _ member => .inl member
      · obtain ⟨enough, isCode, rfl⟩ := reads _ _ _ isItem
        intro found member
        rw [codes_of_two enough isCode]
        rcases inductionHypothesis folded found member with old | later
        · rcases pushFiltered_mem pushed found old with before | rfl
          · exact .inl before
          · exact .inr List.mem_cons_self
        · exact .inr (List.mem_cons_of_mem _ later)

/-- What is kept of a list stands in it. -/
theorem foldItems_codes {item : Parser α} {code : α → Nat} (reads : ReadsCode item code)
    {keep : α → Bool} {capacity : Nat} {kind : ErrorKind} {offset : Nat} {values : List α}
    (folded : foldItems (fun _ => item) (pushFiltered keep capacity kind) offset [] input =
      .ok (values, rest)) : ∀ value ∈ values, code value ∈ codes input := by
  intro value member
  rcases foldItemsLoop_codes reads (remaining_bind_ok folded) value member with impossible | found
  · cases impossible
  · exact found

theorem within_ok {data : Bytes} {p : Parser α} {result : α × Bytes}
    (succeeds : within data p input = .ok (result, rest)) : parse p data = .ok result ∧ rest = input := by
  unfold within at succeeds
  split at succeeds
  · cases succeeds
  · rename_i found parsed
    cases succeeds
    exact ⟨parsed, rfl⟩

/-- A length and as many bytes are the list that stands there. -/
theorem listed_of_take {length : Nat} {data middle : Bytes} (isLength : beU16 input = .ok (length, middle))
    (taken : take length middle = .ok (data, rest)) : listed input = codes data := by
  obtain ⟨_, rfl, rfl⟩ := beUint_ok isLength
  obtain ⟨_, rfl, _⟩ := take_ok taken
  rfl

end Codes

end Nom
