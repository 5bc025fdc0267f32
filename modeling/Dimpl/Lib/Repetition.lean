import Dimpl.Lib.Format

/-!
# Repeating a parser

The loop of `many0` and `many1` as a relation, without a bound on its rounds, so that a loop that
does not end is one that is related to no result. What it returns and when it fails is said in
terms of the elements that stand one behind the other in the input.
-/

namespace Nom

variable {α : Type}

/-- What a parser leaves is an end of its input. -/
def LeavesSuffix (p : Parser α) : Prop :=
  ∀ input value rest, p input = .ok (value, rest) → rest <:+ input

/-- Elements that a parser finds one behind the other, each of at least one byte. -/
inductive Elements (p : Parser α) : Bytes → List α → Bytes → Prop
  | none {input : Bytes} : Elements p input [] input
  | more {input middle rest : Bytes} {value : α} {values : List α} (left : input ≠ [])
      (parsed : p input = .ok (value, middle)) (progress : middle.length ≠ input.length)
      (behind : Elements p middle values rest) : Elements p input (value :: values) rest

/-- There is no further element: the input is used up, or the parser refuses it. -/
def Stopped (p : Parser α) (input : Bytes) : Prop :=
  input = [] ∨ ∃ kind, p input = .error (.error kind)

/-- The parser fails for good, or takes nothing. -/
def Breaks (p : Parser α) (input : Bytes) : Prop :=
  input ≠ [] ∧ ((∃ kind, p input = .error (.failure kind)) ∨
    ∃ value rest, p input = .ok (value, rest) ∧ rest.length = input.length)

/-- The loop of `many0` and `many1`: from what is collected and the input that is left to a
result. -/
inductive Ends (p : Parser α) (keep : α → Bool) (capacity : Nat) (kind : ErrorKind) :
    List α → Bytes → Except Err (List α × Bytes) → Prop
  | empty {acc : List α} : Ends p keep capacity kind acc [] (.ok (acc, []))
  | refused {acc : List α} {input : Bytes} {code : ErrorKind} (left : input ≠ [])
      (parsed : p input = .error (.error code)) :
      Ends p keep capacity kind acc input (.ok (acc, input))
  | failed {acc : List α} {input : Bytes} {code : ErrorKind} (left : input ≠ [])
      (parsed : p input = .error (.failure code)) :
      Ends p keep capacity kind acc input (.error (.failure code))
  | stalled {acc : List α} {input rest : Bytes} {value : α} (left : input ≠ [])
      (parsed : p input = .ok (value, rest)) (stays : rest.length = input.length) :
      Ends p keep capacity kind acc input (.error (.error kind))
  | full {acc : List α} {input rest : Bytes} {value : α} (left : input ≠ [])
      (parsed : p input = .ok (value, rest)) (progress : rest.length ≠ input.length)
      (kept : keep value = true) (room : ¬acc.length < capacity) :
      Ends p keep capacity kind acc input (.error (.error kind))
  | skipped {acc : List α} {input rest : Bytes} {value : α} {result : Except Err (List α × Bytes)}
      (left : input ≠ []) (parsed : p input = .ok (value, rest))
      (progress : rest.length ≠ input.length) (dropped : keep value = false)
      (behind : Ends p keep capacity kind acc rest result) : Ends p keep capacity kind acc input result
  | pushed {acc : List α} {input rest : Bytes} {value : α} {result : Except Err (List α × Bytes)}
      (left : input ≠ []) (parsed : p input = .ok (value, rest))
      (progress : rest.length ≠ input.length) (kept : keep value = true)
      (room : acc.length < capacity) (behind : Ends p keep capacity kind (acc ++ [value]) rest result) :
      Ends p keep capacity kind acc input result

section Loop

variable {p : Parser α} {keep : α → Bool} {capacity : Nat} {kind : ErrorKind} {acc items : List α}
  {input rest : Bytes} {result result' : Except Err (List α × Bytes)} {fuel : Nat}

theorem Elements.suffix {values : List α} (suffixes : LeavesSuffix p)
    (elements : Elements p input values rest) : rest <:+ input := by
  induction elements with
  | none => exact List.suffix_rfl
  | more _ parsed _ _ inductionHypothesis =>
      exact inductionHypothesis.trans (suffixes _ _ _ parsed)

/-- A parser that takes from the front of its input cannot go on for ever: there are rounds enough
for all bytes. -/
theorem manyLoop_ends (suffixes : LeavesSuffix p) (enough : input.length < fuel) :
    Ends p keep capacity kind acc input (manyLoop p keep capacity kind fuel acc input) := by
  induction fuel generalizing acc input with
  | zero => exact absurd enough (Nat.not_lt_zero _)
  | succ fuel inductionHypothesis =>
      rw [manyLoop]
      beta_reduce
      by_cases left : input = []
      · subst left
        exact .empty
      rw [if_neg (by simpa using left)]
      cases outcome : parse p input with
      | error err =>
          cases err with
          | error code => exact .refused left outcome
          | failure code => exact .failed left outcome
      | ok found =>
          obtain ⟨value, middle⟩ := found
          dsimp only
          by_cases stays : middle.length = input.length
          · rw [if_pos stays]
            exact .stalled left outcome stays
          · rw [if_neg stays]
            have shorter : middle.length < fuel := by
              have shrinks := (suffixes input value middle outcome).length_le
              omega
            unfold pushFiltered pushBounded
            cases kept : keep value with
            | false => exact .skipped left outcome stays kept (inductionHypothesis shorter)
            | true =>
                rw [if_pos rfl]
                by_cases room : acc.length < capacity
                · rw [if_pos room]
                  exact .pushed left outcome stays kept room (inductionHypothesis shorter)
                · rw [if_neg room]
                  exact .full left outcome stays kept room

/-- The loop has one result at most. -/
theorem Ends.unique (first : Ends p keep capacity kind acc input result)
    (second : Ends p keep capacity kind acc input result') : result = result' := by
  induction first with
  | empty =>
      cases second with
      | empty => rfl
      | refused left | failed left | stalled left | full left | skipped left | pushed left =>
          exact absurd rfl left
  | refused left parsed =>
      cases second with
      | empty => exact absurd rfl left
      | refused => rfl
      | failed _ again | stalled _ again | full _ again | skipped _ again | pushed _ again =>
          cases parsed.symm.trans again
  | failed left parsed =>
      cases second with
      | empty => exact absurd rfl left
      | failed _ again =>
          cases parsed.symm.trans again
          rfl
      | refused _ again | stalled _ again | full _ again | skipped _ again | pushed _ again =>
          cases parsed.symm.trans again
  | stalled left parsed stays =>
      cases second with
      | empty => exact absurd rfl left
      | stalled | full => rfl
      | refused _ again | failed _ again => cases parsed.symm.trans again
      | skipped _ again progress | pushed _ again progress =>
          cases parsed.symm.trans again
          exact absurd stays progress
  | full left parsed progress kept room =>
      cases second with
      | empty => exact absurd rfl left
      | stalled | full => rfl
      | refused _ again | failed _ again => cases parsed.symm.trans again
      | skipped _ again _ dropped =>
          cases parsed.symm.trans again
          cases kept.symm.trans dropped
      | pushed _ _ _ _ room' => exact absurd room' room
  | skipped left parsed progress dropped _ inductionHypothesis =>
      cases second with
      | empty => exact absurd rfl left
      | refused _ again | failed _ again => cases parsed.symm.trans again
      | stalled _ again stays =>
          cases parsed.symm.trans again
          exact absurd stays progress
      | full _ again _ kept | pushed _ again _ kept =>
          cases parsed.symm.trans again
          cases kept.symm.trans dropped
      | skipped _ again _ _ behind =>
          cases parsed.symm.trans again
          exact inductionHypothesis behind
  | pushed left parsed progress kept room _ inductionHypothesis =>
      cases second with
      | empty => exact absurd rfl left
      | refused _ again | failed _ again => cases parsed.symm.trans again
      | stalled _ again stays =>
          cases parsed.symm.trans again
          exact absurd stays progress
      | full _ _ _ _ noRoom => exact absurd room noRoom
      | skipped _ again _ dropped =>
          cases parsed.symm.trans again
          cases kept.symm.trans dropped
      | pushed _ again _ _ _ behind =>
          cases parsed.symm.trans again
          exact inductionHypothesis behind

/-- What the loop returns: the elements up to the first that is refused, filtered. -/
theorem ends_ok_iff (room : acc.length ≤ capacity) :
    Ends p keep capacity kind acc input (.ok (items, rest)) ↔
      ∃ values, Elements p input values rest ∧ Stopped p rest ∧
        items = acc ++ values.filter keep ∧ items.length ≤ capacity := by
  constructor
  · intro ends
    generalize made : (Except.ok (items, rest) : Except Err (List α × Bytes)) = result at ends
    induction ends with
    | empty =>
        cases made
        exact ⟨[], .none, .inl rfl, (List.append_nil _).symm, room⟩
    | refused left parsed =>
        cases made
        exact ⟨[], .none, .inr ⟨_, parsed⟩, (List.append_nil _).symm, room⟩
    | failed | stalled | full => cases made
    | @skipped _ _ _ value _ left parsed progress dropped _ inductionHypothesis =>
        obtain ⟨values, behind, stopped, isItems, fits⟩ := inductionHypothesis room made
        refine ⟨value :: values, .more left parsed progress behind, stopped, ?_, fits⟩
        rw [isItems, List.filter_cons_of_neg (by simpa using dropped)]
    | @pushed acc _ _ value _ left parsed progress kept space _ inductionHypothesis =>
        have more : (acc ++ [value]).length ≤ capacity := by
          rw [List.length_append]
          exact space
        obtain ⟨values, behind, stopped, isItems, fits⟩ := inductionHypothesis more made
        refine ⟨value :: values, .more left parsed progress behind, stopped, ?_, fits⟩
        rw [isItems, List.filter_cons_of_pos kept, List.append_assoc, List.singleton_append]
  · rintro ⟨values, elements, stopped, rfl, fits⟩
    induction elements generalizing acc with
    | @none input =>
        rw [List.filter_nil, List.append_nil]
        by_cases left : input = []
        · subst left
          exact .empty
        · obtain ⟨code, refused⟩ := stopped.resolve_left left
          exact .refused left refused
    | @more input middle rest value values left parsed progress _ inductionHypothesis =>
        cases kept : keep value with
        | false =>
            rw [List.filter_cons_of_neg (by simpa using kept)] at fits ⊢
            exact .skipped left parsed progress kept (inductionHypothesis room stopped fits)
        | true =>
            rw [List.filter_cons_of_pos kept, ← List.singleton_append, ← List.append_assoc] at fits ⊢
            have space : (acc ++ [value]).length ≤ capacity := by
              rw [List.length_append] at fits
              omega
            refine .pushed left parsed progress kept ?_ (inductionHypothesis space stopped fits)
            rw [List.length_append] at space
            exact space

/-- When the loop fails: some elements in, the parser breaks off or too many were kept. -/
theorem ends_error_iff (room : acc.length ≤ capacity) :
    (∃ err, Ends p keep capacity kind acc input (.error err)) ↔
      ∃ values middle, Elements p input values middle ∧
        (Breaks p middle ∨ capacity < (acc ++ values.filter keep).length) := by
  constructor
  · rintro ⟨err, ends⟩
    generalize made : (Except.error err : Except Err (List α × Bytes)) = result at ends
    induction ends with
    | empty | refused => cases made
    | failed left parsed => exact ⟨[], _, .none, .inl ⟨left, .inl ⟨_, parsed⟩⟩⟩
    | stalled left parsed stays => exact ⟨[], _, .none, .inl ⟨left, .inr ⟨_, _, parsed, stays⟩⟩⟩
    | @full acc _ _ value left parsed progress kept noRoom =>
        refine ⟨[value], _, .more left parsed progress .none, .inr ?_⟩
        rw [List.filter_cons_of_pos kept, List.length_append]
        exact Nat.lt_of_le_of_lt (Nat.le_of_not_lt noRoom) (Nat.lt_add_of_pos_right Nat.one_pos)
    | @skipped acc _ _ value _ left parsed progress dropped _ inductionHypothesis =>
        obtain ⟨values, middle, behind, broken⟩ := inductionHypothesis room made
        refine ⟨value :: values, middle, .more left parsed progress behind, ?_⟩
        rw [List.filter_cons_of_neg (by simpa using dropped)]
        exact broken
    | @pushed acc _ _ value _ left parsed progress kept space _ inductionHypothesis =>
        have more : (acc ++ [value]).length ≤ capacity := by
          rw [List.length_append]
          exact space
        obtain ⟨values, middle, behind, broken⟩ := inductionHypothesis more made
        refine ⟨value :: values, middle, .more left parsed progress behind, ?_⟩
        rw [List.filter_cons_of_pos kept, ← List.singleton_append, ← List.append_assoc]
        exact broken
  · rintro ⟨values, middle, elements, broken⟩
    induction elements generalizing acc with
    | none =>
        rw [List.filter_nil, List.append_nil] at broken
        obtain ⟨left, breaks⟩ := broken.resolve_right (Nat.not_lt.mpr room)
        rcases breaks with ⟨code, parsed⟩ | ⟨value, rest, parsed, stays⟩
        · exact ⟨_, .failed left parsed⟩
        · exact ⟨_, .stalled left parsed stays⟩
    | @more input middle rest value values left parsed progress _ inductionHypothesis =>
        cases kept : keep value with
        | false =>
            rw [List.filter_cons_of_neg (by simpa using kept)] at broken
            obtain ⟨err, ends⟩ := inductionHypothesis room broken
            exact ⟨err, .skipped left parsed progress kept ends⟩
        | true =>
            rw [List.filter_cons_of_pos kept, ← List.singleton_append, ← List.append_assoc] at broken
            by_cases space : acc.length < capacity
            · have more : (acc ++ [value]).length ≤ capacity := by
                rw [List.length_append]
                exact space
              obtain ⟨err, ends⟩ := inductionHypothesis more broken
              exact ⟨err, .pushed left parsed progress kept space ends⟩
            · exact ⟨_, .full left parsed progress kept space⟩

theorem Ends.result_iff (ends : Ends p keep capacity kind acc input result) :
    Ends p keep capacity kind acc input result' ↔ result = result' := by
  constructor
  · exact ends.unique
  · rintro rfl
    exact ends

theorem Ends.ok_iff (ends : Ends p keep capacity kind [] input result) :
    result = .ok (items, rest) ↔
      ∃ values, Elements p input values rest ∧ Stopped p rest ∧ items = values.filter keep ∧
        items.length ≤ capacity :=
  ends.result_iff.symm.trans (ends_ok_iff (Nat.zero_le capacity))

theorem Ends.error_iff (ends : Ends p keep capacity kind [] input result) :
    (∃ err, result = .error err) ↔
      ∃ values middle, Elements p input values middle ∧
        (Breaks p middle ∨ capacity < (values.filter keep).length) := by
  have failing := @ends_error_iff α p keep capacity kind [] input (Nat.zero_le capacity)
  simp only [ends.result_iff, List.nil_append] at failing
  exact failing

end Loop

section Repetitions

variable {p : Parser α} {keep : α → Bool} {capacity : Nat} {items : List α} {input rest : Bytes}
  {result : Except Err (List α × Bytes)}

/-- What `many1` makes of the result of the loop. -/
def atLeastOne : Except Err (List α × Bytes) → Except Err (List α × Bytes)
  | .ok ([], _) => .error (.error .many1)
  | result => result

theorem atLeastOne_ok_iff :
    atLeastOne result = .ok (items, rest) ↔ items ≠ [] ∧ result = .ok (items, rest) := by
  match result with
  | .error err => exact iff_of_false nofun fun made => nomatch made.2
  | .ok ([], end') =>
      refine iff_of_false nofun fun made => ?_
      obtain ⟨some, made⟩ := made
      cases made
      exact some rfl
  | .ok (item :: others, end') =>
      constructor
      · rintro ⟨⟩
        exact ⟨List.cons_ne_nil item others, rfl⟩
      · exact fun made => made.2

theorem atLeastOne_error_iff :
    (∃ err, atLeastOne result = .error err) ↔
      (∃ err, result = .error err) ∨ ∃ rest, result = .ok ([], rest) := by
  match result with
  | .error err => exact iff_of_true ⟨err, rfl⟩ (.inl ⟨err, rfl⟩)
  | .ok ([], end') => exact iff_of_true ⟨_, rfl⟩ (.inr ⟨end', rfl⟩)
  | .ok (item :: others, end') =>
      refine iff_of_false (fun ⟨_, made⟩ => nomatch made) ?_
      rintro (⟨_, made⟩ | ⟨_, made⟩)
      · cases made
      · cases made

theorem many0_ends (suffixes : LeavesSuffix p) :
    Ends p keep capacity .many0 [] input (many0 p keep capacity input) :=
  manyLoop_ends suffixes (Nat.lt_succ_self input.length)

theorem many1_ends (suffixes : LeavesSuffix p) :
    ∃ result, Ends p keep capacity .many1 [] input result ∧
      many1 p keep capacity input = atLeastOne result := by
  refine ⟨_, manyLoop_ends suffixes (Nat.lt_succ_self input.length), ?_⟩
  have looped : many1 p keep capacity input =
      (manyLoop p keep capacity .many1 (input.length + 1) [] input >>= fun found =>
        (if found.1.isEmpty then refuse .many1 >>= fun _ : Unit => pure found.1
          else pure found.1 : Parser (List α)) found.2) :=
    rfl
  rw [looped]
  cases manyLoop p keep capacity .many1 (input.length + 1) [] input with
  | error err => rfl
  | ok found =>
      obtain ⟨items, rest⟩ := found
      cases items with
      | nil => rfl
      | cons item items => rfl

end Repetitions

end Nom
