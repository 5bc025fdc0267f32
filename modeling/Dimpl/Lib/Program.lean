import Mathlib.Logic.Relation
import Mathlib.Tactic.Common

/-!
# Reasoning about state-and-exception programs

Postconditions for programs in `EStateM`, whose state survives an error, and a
relational reading: a program moves the state along a preorder when every
outcome, normal or not, is related to where it started. Runs of a system are
sequences of calls, and an invariant kept by every call that meets a condition
holds in every state of a run whose calls all meet it.
-/

namespace Program

variable {ε σ τ α β : Type}

section Runs

variable {s : σ}

theorem run_get : (get : EStateM ε σ σ) s = .ok s s := rfl

theorem run_set {s' : σ} : (set s' : EStateM ε σ PUnit) s = .ok ⟨⟩ s' := rfl

theorem run_modify {f : σ → σ} : (modify f : EStateM ε σ PUnit) s = .ok ⟨⟩ (f s) := rfl

theorem run_throw {fault : ε} : (throw fault : EStateM ε σ α) s = .error fault s := rfl

end Runs

/-- `x` run from `s` ends normally in `Q` or with an error in `E`. -/
def Post (x : EStateM ε σ α) (s : σ) (Q : α → σ → Prop) (E : ε → σ → Prop) : Prop :=
  match x s with
  | .ok value s' => Q value s'
  | .error err s' => E err s'

instance {x : EStateM ε σ α} {s : σ} {Q : α → σ → Prop} {E : ε → σ → Prop}
    [∀ value s, Decidable (Q value s)] [∀ err s, Decidable (E err s)] : Decidable (Post x s Q E) :=
  show Decidable (match x s with
    | .ok value s' => Q value s'
    | .error err s' => E err s') from
  match x s with
  | .ok _ _ => inferInstance
  | .error _ _ => inferInstance

section Rules

variable {s : σ} {Q : α → σ → Prop} {E : ε → σ → Prop}

@[simp] theorem post_pure {value : α} : Post (pure value : EStateM ε σ α) s Q E ↔ Q value s :=
  Iff.rfl

@[simp] theorem post_throw {err : ε} : Post (throw err : EStateM ε σ α) s Q E ↔ E err s :=
  Iff.rfl

@[simp] theorem post_get {Q : σ → σ → Prop} : Post (get : EStateM ε σ σ) s Q E ↔ Q s s :=
  Iff.rfl

@[simp] theorem post_set {t : σ} {Q : PUnit → σ → Prop} :
    Post (set t : EStateM ε σ PUnit) s Q E ↔ Q ⟨⟩ t :=
  Iff.rfl

@[simp] theorem post_modify {f : σ → σ} {Q : PUnit → σ → Prop} :
    Post (modify f : EStateM ε σ PUnit) s Q E ↔ Q ⟨⟩ (f s) :=
  Iff.rfl

@[simp] theorem post_bind {x : EStateM ε σ α} {f : α → EStateM ε σ β} {Q : β → σ → Prop} :
    Post (x >>= f) s Q E ↔ Post x s (fun value s' => Post (f value) s' Q E) E := by
  simp only [Post, bind, EStateM.bind]
  cases x s <;> rfl

theorem post_ite {c : Prop} [Decidable c] {x y : EStateM ε σ α} :
    Post (if c then x else y) s Q E ↔ (c → Post x s Q E) ∧ (¬c → Post y s Q E) := by
  by_cases holds : c <;> simp [holds]

/-- A weaker postcondition. -/
theorem Post.mono {x : EStateM ε σ α} {Q' : α → σ → Prop} {E' : ε → σ → Prop}
    (holds : Post x s Q E) (normal : ∀ value s', Q value s' → Q' value s')
    (failed : ∀ err s', E err s' → E' err s') : Post x s Q' E' := by
  unfold Post at holds ⊢
  cases outcome : x s with
  | ok value s' => exact normal value s' (by simpa [outcome] using holds)
  | error err s' => exact failed err s' (by simpa [outcome] using holds)

/-- Two postconditions at once. -/
theorem Post.and {x : EStateM ε σ α} {Q' : α → σ → Prop} {E' : ε → σ → Prop}
    (first : Post x s Q E) (second : Post x s Q' E') :
    Post x s (fun value s' => Q value s' ∧ Q' value s') (fun err s' => E err s' ∧ E' err s') := by
  unfold Post at *
  cases outcome : x s with
  | ok value s' => exact ⟨by simpa [outcome] using first, by simpa [outcome] using second⟩
  | error err s' => exact ⟨by simpa [outcome] using first, by simpa [outcome] using second⟩

/-- A postcondition under a condition on the start. -/
theorem post_imp {x : EStateM ε σ α} {P : Prop} (holds : P → Post x s Q (fun _ _ => True)) :
    Post x s (fun value s' => P → Q value s') (fun _ _ => True) := by
  by_cases condition : P
  · exact (holds condition).mono (fun _ _ result _ => result) fun _ _ _ => trivial
  · unfold Post
    cases x s with
    | ok value s' => exact fun holds => absurd holds condition
    | error err s' => trivial

end Rules

/-- The state a program leaves behind, however it ends. -/
def finalState (x : EStateM ε σ α) (s : σ) : σ :=
  match x s with
  | .ok _ s' => s'
  | .error _ s' => s'

/-- What is done with the value of a program does not matter to the state. -/
theorem finalState_discard {x : EStateM ε σ α} {value : β} {s : σ} :
    finalState (x >>= fun _ => pure value) s = finalState x s := by
  unfold finalState
  change (match (match x s with
    | .ok a s' => (pure value : EStateM ε σ β) s'
    | .error err s' => .error err s') with
    | .ok _ s' => s'
    | .error _ s' => s') = _
  cases x s <;> rfl

/-- A postcondition that says what happened. -/
theorem post_self {x : EStateM ε σ α} {s : σ} :
    Post x s (fun value s' => x s = .ok value s') (fun err s' => x s = .error err s') := by
  unfold Post
  cases x s <;> rfl

/-- What a program returns, if it does. -/
def value? (x : EStateM ε σ α) (s : σ) : Option α :=
  match x s with
  | .ok value _ => some value
  | .error _ _ => none

/-- Two programs return the same, if anything, and leave states that look the same. -/
def Alike (view : σ → τ) (x y : EStateM ε σ α) : Prop :=
  ∀ s, value? x s = value? y s ∧ view (finalState x s) = view (finalState y s)

section Alike

variable {view : σ → τ}

theorem Alike.refl (x : EStateM ε σ α) : Alike view x x := fun _ => ⟨rfl, rfl⟩

/-- The same is done first. -/
theorem Alike.bind (x : EStateM ε σ α) {f g : α → EStateM ε σ β}
    (later : ∀ value, Alike view (f value) (g value)) : Alike view (x >>= f) (x >>= g) := by
  intro s
  cases outcome : x s with
  | error fault s' => simp [value?, finalState, Bind.bind, EStateM.bind, outcome]
  | ok value s' => simpa [value?, finalState, Bind.bind, EStateM.bind, outcome] using later value s'

theorem Alike.throw (fault fault' : ε) :
    Alike view (throw fault : EStateM ε σ α) (throw fault') := fun _ => ⟨rfl, rfl⟩

end Alike

theorem Post.outcome {x : EStateM ε σ α} {Q : α → σ → Prop} {E : ε → σ → Prop} (post : Post x s Q E) :
    (∃ value, value? x s = some value ∧ Q value (finalState x s)) ∨
      (value? x s = none ∧ ∃ err, E err (finalState x s)) := by
  unfold Post at post
  unfold value? finalState
  cases outcome : x s with
  | ok value s' =>
      rw [outcome] at post
      exact .inl ⟨value, rfl, post⟩
  | error err s' =>
      rw [outcome] at post
      exact .inr ⟨rfl, err, post⟩

theorem value_of_ok {x : EStateM ε σ α} {s s' : σ} {value : α} (ok : x s = .ok value s') :
    value? x s = some value := by
  simp [value?, ok]

theorem ok_of_value {x : EStateM ε σ α} {s : σ} {value : α} (returned : value? x s = some value) :
    x s = .ok value (finalState x s) := by
  unfold value? at returned
  unfold finalState
  cases outcome : x s with
  | ok value' s' => simp_all
  | error err s' => simp [outcome] at returned

/-- What a program does in a state is all that counts. -/
theorem Post.congr {x y : EStateM ε σ α} {s t : σ} {Q : α → σ → Prop} {E : ε → σ → Prop}
    (same : x s = y t) (post : Post x s Q E) : Post y t Q E := by
  unfold Post at post ⊢
  rwa [same] at post

/-- Programs with the same outcomes do the same. -/
theorem eq_of_post {x y : EStateM ε σ α} {s t : σ}
    (same : ∀ (Q : α → σ → Prop) (E : ε → σ → Prop), Post x s Q E → Post y t Q E) : x s = y t := by
  have outcome := same (fun value s' => x s = .ok value s') (fun err s' => x s = .error err s') (by
    unfold Post
    cases x s <;> rfl)
  unfold Post at outcome
  cases result : y t with
  | ok value s' =>
      rw [result] at outcome
      exact outcome
  | error err s' =>
      rw [result] at outcome
      exact outcome

/-- The error a program ends with, if it does. -/
def error? (x : EStateM ε σ α) (s : σ) : Option ε :=
  match x s with
  | .ok _ _ => none
  | .error err _ => some err

/-- A postcondition of the errors only. -/
theorem post_error {x : EStateM ε σ α} {s : σ} {P : ε → Prop} :
    Post x s (fun _ _ => True) (fun err _ => P err) ↔ ∀ err, error? x s = some err → P err := by
  unfold Post error?
  cases x s <;> simp

/-- A program that has to fail ends with its error. -/
theorem error_of_post {x : EStateM ε σ α} {s : σ} {err : ε}
    (fails : Post x s (fun _ _ => False) fun fault _ => fault = err) : error? x s = some err := by
  unfold Post at fails
  unfold error?
  cases outcome : x s with
  | ok value s' => simp [outcome] at fails
  | error fault s' => simpa [outcome] using fails

/-- A postcondition that ignores how the program ended is one of its final
state. -/
theorem post_state {x : EStateM ε σ α} {s : σ} {P : σ → Prop} :
    Post x s (fun _ s' => P s') (fun _ s' => P s') ↔ P (finalState x s) := by
  unfold Post finalState
  cases x s <;> rfl

/-- Every outcome of the program is related to the state it started in. -/
def Along (R : σ → σ → Prop) (x : EStateM ε σ α) : Prop :=
  ∀ s, Post x s (fun _ s' => R s s') (fun _ s' => R s s')

section AlongRules

variable {R : σ → σ → Prop}

theorem Along.finalState {x : EStateM ε σ α} (along : Along R x) (s : σ) :
    R s (Program.finalState x s) :=
  post_state.mp (along s)

theorem along_pure [Std.Refl R] {value : α} : Along R (pure value : EStateM ε σ α) :=
  fun s => Std.Refl.refl s

theorem along_throw [Std.Refl R] {err : ε} : Along R (throw err : EStateM ε σ α) :=
  fun s => Std.Refl.refl s

theorem along_get [Std.Refl R] : Along R (get : EStateM ε σ σ) :=
  fun s => Std.Refl.refl s

theorem along_modify {f : σ → σ} (step : ∀ s, R s (f s)) :
    Along R (modify f : EStateM ε σ PUnit) :=
  step

/-- A program that first reads the state may be judged at each state. -/
theorem along_get_bind {f : σ → EStateM ε σ α}
    (step : ∀ s, Post (f s) s (fun _ s' => R s s') (fun _ s' => R s s')) :
    Along R (get >>= f) :=
  fun s => post_bind.mpr (step s)

theorem along_bind [IsTrans σ R] {x : EStateM ε σ α} {f : α → EStateM ε σ β}
    (first : Along R x) (second : ∀ value, Along R (f value)) : Along R (x >>= f) := by
  intro s
  rw [post_bind]
  refine (first s).mono (fun value s' moved => ?_) (fun _ _ moved => moved)
  exact (second value s').mono (fun _ _ next => IsTrans.trans _ _ _ moved next)
    (fun _ _ next => IsTrans.trans _ _ _ moved next)

theorem along_ite {c : Prop} [Decidable c] {x y : EStateM ε σ α}
    (positive : c → Along R x) (negative : ¬c → Along R y) :
    Along R (if c then x else y) := by
  by_cases holds : c
  · simpa [holds] using positive holds
  · simpa [holds] using negative holds

theorem Along.mono {R' : σ → σ → Prop} {x : EStateM ε σ α} (along : Along R x)
    (weaker : ∀ s s', R s s' → R' s s') : Along R' x :=
  fun s => (along s).mono (fun _ _ => weaker s _) (fun _ _ => weaker s _)

/-- Continues from a state already related to the start. -/
theorem Along.after [IsTrans σ R] {x : EStateM ε σ α} (along : Along R x) {s t : σ}
    (moved : R s t) : Post x t (fun _ s' => R s s') (fun _ s' => R s s') :=
  (along t).mono (fun _ _ next => IsTrans.trans _ _ _ moved next)
    (fun _ _ next => IsTrans.trans _ _ _ moved next)

instance refl_invImage [Std.Refl R] (view : τ → σ) : Std.Refl (InvImage R view) :=
  ⟨fun t => Std.Refl.refl (view t)⟩

instance trans_invImage [IsTrans σ R] (view : τ → σ) : IsTrans τ (InvImage R view) :=
  ⟨fun s t u first second => IsTrans.trans (view s) (view t) (view u) first second⟩

/-- What a program returns, on top of where it moves. -/
theorem Along.post {x : EStateM ε σ α} (along : Along R x) {s : σ} {Q : α → σ → Prop}
    (holds : Post x s Q fun _ _ => True) :
    Post x s (fun value s' => R s s' ∧ Q value s') (fun _ s' => R s s') :=
  ((along s).and holds).mono (fun _ _ both => both) fun _ _ both => both.1

end AlongRules

/-- Every outcome of the program is related to its start, and what it returns has a
property together with the state it leaves. -/
def Leads (R : σ → σ → Prop) (x : EStateM ε σ α) (T : α → σ → Prop) : Prop :=
  ∀ s, Post x s (fun value s' => R s s' ∧ T value s') (fun _ s' => R s s')

section LeadsRules

variable {R : σ → σ → Prop} {T : α → σ → Prop}

theorem leads_pure [Std.Refl R] {value : α} (holds : ∀ s, T value s) :
    Leads R (pure value : EStateM ε σ α) T :=
  fun s => ⟨Std.Refl.refl s, holds s⟩

theorem leads_throw [Std.Refl R] {err : ε} : Leads R (throw err : EStateM ε σ α) T :=
  fun s => Std.Refl.refl s

theorem leads_bind [IsTrans σ R] {x : EStateM ε σ β} {f : β → EStateM ε σ α} (first : Along R x)
    (second : ∀ value, Leads R (f value) T) : Leads R (x >>= f) T := by
  intro s
  rw [post_bind]
  refine (first s).mono (fun value s' moved => ?_) fun _ _ moved => moved
  exact (second value s').mono (fun _ _ next => ⟨IsTrans.trans _ _ _ moved next.1, next.2⟩)
    fun _ _ next => IsTrans.trans _ _ _ moved next

theorem leads_ite {c : Prop} [Decidable c] {x y : EStateM ε σ α} (positive : c → Leads R x T)
    (negative : ¬c → Leads R y T) : Leads R (if c then x else y) T := by
  by_cases holds : c
  · simpa [holds] using positive holds
  · simpa [holds] using negative holds

/-- Continues from a state already related to the start. -/
theorem Leads.after [IsTrans σ R] {x : EStateM ε σ α} (leads : Leads R x T) {s t : σ}
    (moved : R s t) : Post x t (fun value s' => R s s' ∧ T value s') (fun _ s' => R s s') :=
  (leads t).mono (fun _ _ next => ⟨IsTrans.trans _ _ _ moved next.1, next.2⟩)
    (fun _ _ next => IsTrans.trans _ _ _ moved next)

end LeadsRules

/-- Every outcome of the program is related to its start, unless it is an error of
`E`. -/
def Barring (E : ε → Prop) (R : σ → σ → Prop) (x : EStateM ε σ α) : Prop :=
  ∀ s, Post x s (fun _ s' => R s s') (fun err s' => E err ∨ R s s')

section BarringRules

variable {E : ε → Prop} {R : σ → σ → Prop}

theorem Along.barring {x : EStateM ε σ α} (along : Along R x) : Barring E R x :=
  fun s => (along s).mono (fun _ _ moved => moved) fun _ _ moved => .inr moved

/-- A program whose errors are all of `E` is judged by what it does when it returns. -/
theorem barring_of_throws {x : EStateM ε σ α} (throws : ∀ s, Post x s (fun _ s' => R s s') fun err _ =>
    E err) : Barring E R x :=
  fun s => (throws s).mono (fun _ _ moved => moved) fun _ _ barred => .inl barred

theorem barring_bind [IsTrans σ R] {x : EStateM ε σ α} {f : α → EStateM ε σ β}
    (first : Barring E R x) (second : ∀ value, Barring E R (f value)) : Barring E R (x >>= f) := by
  intro s
  rw [post_bind]
  refine (first s).mono (fun value s' moved => ?_) fun _ _ failed => failed
  exact (second value s').mono (fun _ _ next => IsTrans.trans _ _ _ moved next)
    fun _ _ failed => failed.imp_right fun next => IsTrans.trans _ _ _ moved next

theorem barring_ite {c : Prop} [Decidable c] {x y : EStateM ε σ α}
    (positive : c → Barring E R x) (negative : ¬c → Barring E R y) :
    Barring E R (if c then x else y) := by
  by_cases holds : c
  · simpa [holds] using positive holds
  · simpa [holds] using negative holds

/-- A program that first reads the state may be judged at each state. -/
theorem barring_get_bind {f : σ → EStateM ε σ α}
    (step : ∀ s, Post (f s) s (fun _ s' => R s s') (fun err s' => E err ∨ R s s')) :
    Barring E R (get >>= f) :=
  fun s => post_bind.mpr (step s)

/-- Continues from a state already related to the start. -/
theorem Barring.after [IsTrans σ R] {x : EStateM ε σ α} (barring : Barring E R x) {s t : σ}
    (moved : R s t) : Post x t (fun _ s' => R s s') (fun err s' => E err ∨ R s s') :=
  (barring t).mono (fun _ _ next => IsTrans.trans _ _ _ moved next)
    fun _ _ failed => failed.imp_right fun next => IsTrans.trans _ _ _ moved next

end BarringRules

/-- Every error of the program is one of `E`. -/
def Throws (E : ε → Prop) (x : EStateM ε σ α) : Prop :=
  ∀ s, Post x s (fun _ _ => True) (fun err _ => E err)

section ThrowsRules

variable {E : ε → Prop}

theorem throws_mono {E' : ε → Prop} {x : EStateM ε σ α} (throws : Throws E x)
    (weaker : ∀ err, E err → E' err) : Throws E' x :=
  fun s => (throws s).mono (fun _ _ _ => trivial) fun err _ holds => weaker err holds

theorem throws_pure {value : α} : Throws E (pure value : EStateM ε σ α) := fun _ => trivial

theorem throws_throw {err : ε} (holds : E err) : Throws E (throw err : EStateM ε σ α) :=
  fun _ => holds

theorem throws_get : Throws E (get : EStateM ε σ σ) := fun _ => trivial

theorem throws_set {t : σ} : Throws E (set t : EStateM ε σ PUnit) := fun _ => trivial

theorem throws_modify {f : σ → σ} : Throws E (modify f : EStateM ε σ PUnit) := fun _ => trivial

theorem throws_bind {x : EStateM ε σ α} {f : α → EStateM ε σ β} (first : Throws E x)
    (second : ∀ value, Throws E (f value)) : Throws E (x >>= f) := by
  intro s
  rw [post_bind]
  exact (first s).mono (fun value s' _ => second value s') fun _ _ holds => holds

theorem throws_ite {c : Prop} [Decidable c] {x y : EStateM ε σ α} (positive : Throws E x)
    (negative : Throws E y) : Throws E (if c then x else y) := by
  by_cases holds : c
  · simpa [holds] using positive
  · simpa [holds] using negative

end ThrowsRules

/-- From a state of `P` the program ends in one, or with an error of `E`. -/
def Secures (P : σ → Prop) (E : ε → Prop) (x : EStateM ε σ α) : Prop :=
  ∀ s, P s → Post x s (fun _ s' => P s') (fun err _ => E err)

section SecuresRules

variable {P : σ → Prop} {E : ε → Prop}

/-- What a program keeps and how it fails, shown apart. -/
theorem secures_of_along {R : σ → σ → Prop} {x : EStateM ε σ α} (along : Along R x)
    (keeps : ∀ s s', R s s' → P s → P s') (throws : Throws E x) : Secures P E x :=
  fun s holds => ((along s).and (throws s)).mono (fun _ s' both => keeps s s' both.1 holds)
    fun _ _ both => both.2

theorem secures_pure {value : α} : Secures P E (pure value : EStateM ε σ α) := fun _ holds => holds

theorem secures_throw {err : ε} (allowed : E err) : Secures P E (throw err : EStateM ε σ α) :=
  fun _ _ => allowed

theorem secures_get : Secures P E (get : EStateM ε σ σ) := fun _ holds => holds

theorem secures_modify {f : σ → σ} (keeps : ∀ s, P s → P (f s)) :
    Secures P E (modify f : EStateM ε σ PUnit) :=
  keeps

theorem secures_bind {x : EStateM ε σ α} {f : α → EStateM ε σ β} (first : Secures P E x)
    (second : ∀ value, Secures P E (f value)) : Secures P E (x >>= f) := by
  intro s holds
  rw [post_bind]
  exact (first s holds).mono (fun value s' kept => second value s' kept) fun _ _ failed => failed

theorem secures_ite {c : Prop} [Decidable c] {x y : EStateM ε σ α} (positive : Secures P E x)
    (negative : Secures P E y) : Secures P E (if c then x else y) := by
  by_cases holds : c
  · simpa [holds] using positive
  · simpa [holds] using negative

/-- A program that first reads the state may be judged at each state. -/
theorem secures_get_bind {f : σ → EStateM ε σ α}
    (step : ∀ s, P s → Post (f s) s (fun _ s' => P s') (fun err _ => E err)) :
    Secures P E (get >>= f) :=
  fun s holds => post_bind.mpr (step s holds)

end SecuresRules

/-- Every value the program returns is one of `P`. -/
def Returns (P : α → Prop) (x : EStateM ε σ α) : Prop :=
  ∀ s, Post x s (fun value _ => P value) (fun _ _ => True)

section ReturnsRules

variable {P : α → Prop}

theorem returns_pure {value : α} (holds : P value) : Returns P (pure value : EStateM ε σ α) :=
  fun _ => holds

theorem returns_throw {err : ε} : Returns P (throw err : EStateM ε σ α) := fun _ => trivial

theorem returns_bind {x : EStateM ε σ β} {f : β → EStateM ε σ α}
    (second : ∀ value, Returns P (f value)) : Returns P (x >>= f) := by
  intro s
  rw [post_bind]
  unfold Post
  cases x s with
  | ok value s' => exact second value s'
  | error err s' => trivial

theorem returns_ite {c : Prop} [Decidable c] {x y : EStateM ε σ α} (positive : Returns P x)
    (negative : Returns P y) : Returns P (if c then x else y) := by
  by_cases holds : c
  · simpa [holds] using positive
  · simpa [holds] using negative

end ReturnsRules

/-- The states two related states are the two ends of, when a view of the state
stays what it is. -/
def Keeps (view : σ → τ) (s s' : σ) : Prop := view s' = view s

instance (view : σ → τ) : Std.Refl (Keeps view) := ⟨fun _ => rfl⟩

instance (view : σ → τ) : IsTrans σ (Keeps view) := ⟨fun _ _ _ first second => second.trans first⟩

/-- A view that can be told from one that stays what it is stays too. -/
theorem Along.through {υ : Type} {view : σ → τ} {program : EStateM ε σ α}
    (keeps : Along (Keeps view) program) {coarse : σ → υ} (f : τ → υ)
    (told : ∀ s, f (view s) = coarse s) : Along (Keeps coarse) program := by
  refine keeps.mono fun s s' same => ?_
  calc
    coarse s' = f (view s') := (told s').symm
    _ = f (view s) := congrArg f same
    _ = coarse s := told s

/-- The states two related states are the two ends of, when a count of the state does not fall. -/
def Rises (count : σ → Nat) (s s' : σ) : Prop := count s ≤ count s'

instance (count : σ → Nat) : Std.Refl (Rises count) := ⟨fun _ => Nat.le_refl _⟩

instance (count : σ → Nat) : IsTrans σ (Rises count) := ⟨fun _ _ _ => Nat.le_trans⟩

/-- A count that can be told from a view that stays what it is does not fall. -/
theorem Along.rises {view : σ → τ} {program : EStateM ε σ α} (keeps : Along (Keeps view) program)
    {count : σ → Nat} (f : τ → Nat) (told : ∀ s, f (view s) = count s) : Along (Rises count) program :=
  (keeps.through f told).mono fun _ _ same => Nat.le_of_eq (Eq.symm same)

section Runs

variable {Call : Type} {exec : σ → Call → σ} {cond : σ → Call → Prop}

/-- The state after a sequence of calls. -/
def run (exec : σ → Call → σ) : σ → List Call → σ := List.foldl exec

/-- Every call of a run meets a condition on the state before it. -/
def Meets (exec : σ → Call → σ) (cond : σ → Call → Prop) : σ → List Call → Prop
  | _, [] => True
  | s, call :: calls => cond s call ∧ Meets exec cond (exec s call) calls

/-- Whether a run meets a condition that can be decided. -/
def decideMeets [∀ s call, Decidable (cond s call)] :
    (s : σ) → (calls : List Call) → Decidable (Meets exec cond s calls)
  | _, [] => isTrue trivial
  | s, call :: calls =>
    match (inferInstance : Decidable (cond s call)), decideMeets (exec s call) calls with
    | isTrue first, isTrue rest => isTrue ⟨first, rest⟩
    | isFalse first, _ => isFalse fun meets => first meets.1
    | _, isFalse rest => isFalse fun meets => rest meets.2

instance [∀ s call, Decidable (cond s call)] {s : σ} {calls : List Call} :
    Decidable (Meets exec cond s calls) :=
  decideMeets s calls

/-- An invariant kept by the calls that meet the condition holds along a run
of such calls. -/
theorem run_invariant {Inv : σ → Prop}
    (preserved : ∀ s call, Inv s → cond s call → Inv (exec s call)) {s : σ} (initial : Inv s)
    {calls : List Call} (meets : Meets exec cond s calls) : Inv (run exec s calls) := by
  induction calls generalizing s with
  | nil => exact initial
  | cons call calls inductionHypothesis =>
      exact inductionHypothesis (preserved s call initial meets.1) meets.2

/-- Calls that meet a condition in states of an invariant meet what follows from both. -/
theorem Meets.of_invariant {Inv : σ → Prop} {cond' : σ → Call → Prop}
    (preserved : ∀ s call, Inv s → cond s call → cond' s call ∧ Inv (exec s call)) {s : σ}
    (initial : Inv s) {calls : List Call} (meets : Meets exec cond s calls) :
    Meets exec cond' s calls := by
  induction calls generalizing s with
  | nil => trivial
  | cons call calls inductionHypothesis =>
      obtain ⟨holds, kept⟩ := preserved s call initial meets.1
      exact ⟨holds, inductionHypothesis kept meets.2⟩

/-- A condition that always holds is met. -/
theorem Meets.of_all (all : ∀ s call, cond s call) {s : σ} {calls : List Call} :
    Meets exec cond s calls := by
  induction calls generalizing s with
  | nil => trivial
  | cons call calls inductionHypothesis => exact ⟨all s call, inductionHypothesis⟩

/-- A run followed by one more call. -/
theorem run_concat {s : σ} {calls : List Call} {call : Call} :
    run exec s (calls ++ [call]) = exec (run exec s calls) call := by
  simp [run, List.foldl_append]

/-- A prefix of a run that meets the condition meets it. -/
theorem Meets.of_append {s : σ} {first second : List Call}
    (meets : Meets exec cond s (first ++ second)) : Meets exec cond s first := by
  induction first generalizing s with
  | nil => trivial
  | cons call first inductionHypothesis => exact ⟨meets.1, inductionHypothesis meets.2⟩

/-- The last call of a run that meets the condition meets it where it is made. -/
theorem Meets.last {s : σ} {calls : List Call} {call : Call}
    (meets : Meets exec cond s (calls ++ [call])) : cond (run exec s calls) call := by
  induction calls generalizing s with
  | nil => exact meets.1
  | cons first calls inductionHypothesis => exact inductionHypothesis meets.2

end Runs

end Program
