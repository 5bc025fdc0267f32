import Dimpl.Error
import Dimpl.Lib.Program

/-!
# Effects of the engines

Both engines, and the clients and servers around them, are programs over a state
that survives an error. These are the operations they share, with their rules.
-/

namespace Dimpl

open Program

/-- An optional value, or a fault in its place. -/
def orThrow {σ α : Type} (fault : Fault) : Option α → EStateM Fault σ α
  | some value => pure value
  | none => throw fault

/-- Runs a program only under a condition. -/
def runIf {σ : Type} (condition : Bool) (program : EStateM Fault σ Unit) : EStateM Fault σ Unit :=
  if condition then program else pure ()

/-- A crypto result, its error made fatal. -/
def liftCrypto {σ α : Type} : Except CryptoError α → EStateM Fault σ α
  | .ok value => pure value
  | .error err => throw (Fault.ofCrypto err)

/-- Runs a program on a part of the state. -/
def zoom {σ τ α : Type} (view : τ → σ) (put : σ → τ → τ) (program : EStateM Fault σ α) :
    EStateM Fault τ α := fun t =>
  match program (view t) with
  | .ok value s => .ok value (put s t)
  | .error fault s => .error fault (put s t)

/-- Runs a program and then, however it ended, a last change. -/
def ensuring {σ α : Type} (program : EStateM Fault σ α) (last : σ → σ) : EStateM Fault σ α :=
  fun s =>
    match program s with
    | .ok value s' => .ok value (last s')
    | .error fault s' => .error fault (last s')

/-- `into_public_error`: parser noise is no error for the caller. -/
def publicResult {σ : Type} (program : EStateM Fault σ Unit) : EStateM Fault σ Unit := fun s =>
  match program s with
  | .error (.transient _) s' => .ok () s'
  | outcome => outcome

section Rules

variable {σ α : Type} {R : σ → σ → Prop} {s : σ} {Q : α → σ → Prop} {E : Fault → σ → Prop}

@[simp] theorem post_orThrow {fault : Fault} {value : Option α} :
    Post (orThrow fault value) s Q E ↔
      (∀ v, value = some v → Q v s) ∧ (value = none → E fault s) := by
  cases value <;> simp [orThrow]

@[simp] theorem post_liftCrypto {value : Except CryptoError α} :
    Post (liftCrypto value) s Q E ↔
      (∀ v, value = .ok v → Q v s) ∧ (∀ err, value = .error err → E (Fault.ofCrypto err) s) := by
  cases value <;> simp [liftCrypto]

@[simp] theorem post_runIf {condition : Bool} {program : EStateM Fault σ Unit}
    {Q : Unit → σ → Prop} :
    Post (runIf condition program) s Q E ↔
      (condition = true → Post program s Q E) ∧ (condition = false → Q () s) := by
  cases condition <;> simp [runIf]

theorem along_orThrow [Std.Refl R] {fault : Fault} {value : Option α} :
    Along R (orThrow fault value : EStateM Fault σ α) := by
  intro s
  simp [Std.Refl.refl]

theorem along_liftCrypto [Std.Refl R] {value : Except CryptoError α} :
    Along R (liftCrypto value : EStateM Fault σ α) := by
  intro s
  simp [Std.Refl.refl]

theorem along_runIf [Std.Refl R] {condition : Bool} {program : EStateM Fault σ Unit}
    (along : condition = true → Along R program) : Along R (runIf condition program) := by
  intro s
  exact post_runIf.mpr ⟨fun holds => along holds s, fun _ => Std.Refl.refl s⟩

theorem throws_orThrow {E : Fault → Prop} {fault : Fault} {value : Option α} (holds : E fault) :
    Throws E (orThrow fault value : EStateM Fault σ α) := by
  intro s
  simp [holds]

theorem throws_liftCrypto {E : Fault → Prop} {value : Except CryptoError α}
    (holds : ∀ err, E (Fault.ofCrypto err)) :
    Throws E (liftCrypto value : EStateM Fault σ α) := by
  intro s
  simp [holds]

theorem throws_runIf {E : Fault → Prop} {condition : Bool} {program : EStateM Fault σ Unit}
    (throws : Throws E program) : Throws E (runIf condition program) := by
  intro s
  exact post_runIf.mpr ⟨fun _ => throws s, fun _ => trivial⟩

theorem secures_orThrow {P : σ → Prop} {E : Fault → Prop} {fault : Fault} {value : Option α}
    (allowed : E fault) : Secures P E (orThrow fault value : EStateM Fault σ α) := by
  intro s holds
  simp [holds, allowed]

theorem secures_liftCrypto {P : σ → Prop} {E : Fault → Prop} {value : Except CryptoError α}
    (allowed : ∀ err, E (Fault.ofCrypto err)) :
    Secures P E (liftCrypto value : EStateM Fault σ α) := by
  intro s holds
  simp [holds, allowed]

@[simp] theorem post_ensuring {program : EStateM Fault σ α} {last : σ → σ} :
    Post (ensuring program last) s Q E ↔
      Post program s (fun value s' => Q value (last s')) (fun fault s' => E fault (last s')) := by
  unfold Post ensuring
  cases program s <;> rfl

@[simp] theorem post_publicResult {program : EStateM Fault σ Unit} {Q : Unit → σ → Prop} :
    Post (publicResult program) s Q E ↔
      Post program s Q fun fault s' =>
        match fault with
        | .transient _ => Q () s'
        | fault => E fault s' := by
  unfold Post publicResult
  cases program s with
  | ok value s' => rfl
  | error fault s' => cases fault <;> rfl

/-- Hiding parser noise does not change where a program ends. -/
theorem along_publicResult {program : EStateM Fault σ Unit} (along : Along R program) :
    Along R (publicResult program) := by
  intro s
  rw [post_publicResult]
  refine (along s).mono (fun _ _ moved => moved) fun fault s' moved => ?_
  cases fault <;> exact moved

theorem finalState_publicResult {program : EStateM Fault σ Unit} :
    finalState (publicResult program) s = finalState program s := by
  unfold finalState publicResult
  cases program s with
  | ok value s' => rfl
  | error fault s' => cases fault <;> rfl

/-- An error the caller sees: not parser noise. -/
def Fault.Public : Fault → Prop
  | .transient _ => False
  | .fatal _ => True
  | .panic _ => True

/-- An error other than that the receive queue is full. -/
def Fault.NotFull : Fault → Prop
  | .fatal .receiveQueueFull => False
  | _ => True

/-- An error the caller sees, other than that the receive queue is full. -/
def Fault.Inner : Fault → Prop
  | .transient _ => False
  | .fatal .receiveQueueFull => False
  | _ => True

theorem Fault.Inner.isPublic {fault : Fault} (inner : fault.Inner) : fault.Public := by
  cases fault with
  | transient reason => exact inner
  | fatal reason => trivial
  | panic site => trivial

theorem Fault.Inner.notFull {fault : Fault} (inner : fault.Inner) : fault.NotFull := by
  cases fault with
  | transient reason => trivial
  | panic site => trivial
  | fatal reason => cases reason <;> trivial

theorem barring_runIf [Std.Refl R] {E : Fault → Prop} {condition : Bool}
    {program : EStateM Fault σ Unit} (barring : condition = true → Barring E R program) :
    Barring E R (runIf condition program) := by
  intro s
  exact post_runIf.mpr ⟨fun holds => barring holds s, fun _ => Std.Refl.refl s⟩

/-- With parser noise hidden, the outcomes that count are those the caller sees. -/
theorem barring_publicResult {program : EStateM Fault σ Unit}
    (barring : Barring Fault.Public R program) : Barring Fault.Public R (publicResult program) := by
  intro s
  rw [post_publicResult]
  refine (barring s).mono (fun _ _ moved => moved) fun fault s' failed => ?_
  cases fault with
  | transient reason => exact failed.resolve_left id
  | fatal reason => exact .inl trivial
  | panic site => exact .inl trivial

end Rules

/-- A program that leaves the state alone. -/
abbrev ReadOnly {σ α : Type} (x : EStateM Fault σ α) : Prop := Along (· = ·) x

theorem ReadOnly.along {σ α : Type} {R : σ → σ → Prop} [Std.Refl R] {x : EStateM Fault σ α}
    (readOnly : ReadOnly x) : Along R x :=
  readOnly.mono fun s _ same => same ▸ Std.Refl.refl s

section Zoom

variable {σ τ α : Type} {view : τ → σ} {put : σ → τ → τ} {program : EStateM Fault σ α}

@[simp] theorem post_zoom {t : τ} {Q : α → τ → Prop} {E : Fault → τ → Prop} :
    Post (zoom view put program) t Q E ↔
      Post program (view t) (fun value s => Q value (put s t)) (fun fault s => E fault (put s t)) := by
  unfold Post zoom
  cases program (view t) <;> rfl

/-- What a program on a part of the state returns, it returns on the part. -/
theorem zoom_ok {t t' : τ} {value : α} (ok : zoom view put program t = .ok value t') :
    ∃ s, program (view t) = .ok value s ∧ t' = put s t := by
  unfold zoom at ok
  cases outcome : program (view t) with
  | ok value' s =>
      rw [outcome] at ok
      cases ok
      exact ⟨s, rfl, rfl⟩
  | error fault s =>
      rw [outcome] at ok
      cases ok

/-- A program on a part of the state moves the whole as it moves the part. -/
theorem along_zoom {R : σ → σ → Prop} {R' : τ → τ → Prop} (along : Along R program)
    (whole : ∀ t s, R (view t) s → R' t (put s t)) : Along R' (zoom view put program) := by
  intro t
  rw [post_zoom]
  exact (along (view t)).mono (fun _ s moved => whole t s moved) fun _ s moved => whole t s moved

/-- A program on a part of the state secures the whole as it secures the part. -/
theorem secures_zoom {P : σ → Prop} {P' : τ → Prop} {E : Fault → Prop}
    (secures : Secures P E program) (part : ∀ t, P' t → P (view t))
    (whole : ∀ t s, P' t → P s → P' (put s t)) : Secures P' E (zoom view put program) := by
  intro t holds
  rw [post_zoom]
  exact (secures (view t) (part t holds)).mono (fun _ s kept => whole t s holds kept)
    fun _ _ failed => failed

end Zoom

end Dimpl
