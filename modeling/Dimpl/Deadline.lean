import Dimpl.Config
import Dimpl.Lib.Program

/-!
# A deadline and what is promised of it

The timer of a deadline is armed by the first timeout call, for one period, and may
be taken away. An invariant that every call keeps, whatever is promised of the timer
and survives being armed, holds in particular of the promise that the deadline passes
one period after any timeout call.
-/

namespace Dimpl

open Program

/-- The timer after a timeout call at a time, or after any other call. -/
def Timeout.arm (period : Duration) (tick : Option Instant) (timer : Timeout) : Timeout :=
  match timer, tick with
  | .unarmed, some now => .armed (now + period)
  | timer, _ => timer

@[simp] theorem Timeout.arm_none {timer : Timeout} {period : Duration} :
    timer.arm period none = timer := by
  cases timer <;> rfl

/-- What is promised of a timer, with its period. -/
abbrev Promise := Duration → Timeout → Prop

namespace Promise

/-- A call turns one promise into another. -/
def Arms (tick : Option Instant) (due due' : Promise) : Prop :=
  ∀ period timer, due period timer → due' period (timer.arm period tick)

/-- The timer is there. -/
def isSet : Promise := fun _ timer => timer ≠ .disabled

/-- The timer ends by one period after a time. -/
def dueBy (now : Instant) : Promise := fun period timer =>
  ∃ deadline ≤ now + period, timer = .armed deadline

/-- The timer is not armed yet, or ends by one period after a time. -/
def pendingBy (now : Instant) : Promise := fun period timer =>
  timer = .unarmed ∨ dueBy now period timer

/-- The promise holds of a timer that was armed by a time. -/
def Allows (now : Instant) (due : Promise) : Prop :=
  ∀ period, ∀ armedAt ≤ now, due period (.armed (armedAt + period))

section Arms

variable {now : Instant} {tick : Option Instant}

theorem dueBy_allows : Allows now (dueBy now) := fun period armedAt early =>
  ⟨armedAt + period, Nat.add_le_add_right early period, rfl⟩

theorem pendingBy_allows : Allows now (pendingBy now) := fun period armedAt early =>
  .inr (dueBy_allows period armedAt early)

/-- A timer that is armed by a time, at the latest. -/
theorem Allows.arms {due : Promise} {armedAt : Instant} (allows : Allows now due)
    (early : armedAt ≤ now) : Arms (some armedAt) (fun _ timer => timer = .unarmed) due := by
  rintro period _ rfl
  exact allows period armedAt early

theorem isSet_arms : Arms tick isSet isSet := by
  intro period timer set
  cases timer with
  | disabled => exact absurd rfl set
  | armed deadline => exact Timeout.noConfusion
  | unarmed =>
      cases tick with
      | none => exact Timeout.noConfusion
      | some now => exact Timeout.noConfusion

theorem dueBy_arms : Arms tick (dueBy now) (dueBy now) := by
  rintro period _ ⟨deadline, early, rfl⟩
  exact ⟨deadline, early, rfl⟩

/-- The clock has not run past the time. -/
theorem pendingBy_arms (early : ∀ time ∈ tick, time ≤ now) :
    Arms tick (pendingBy now) (pendingBy now) := by
  rintro period timer (rfl | due)
  · cases tick with
    | none => exact .inl rfl
    | some time => exact .inr ⟨time + period, Nat.add_le_add_right (early time rfl) period, rfl⟩
  · exact .inr (dueBy_arms period timer due)

/-- A timeout call at the time. -/
theorem pendingBy_due : Arms (some now) (pendingBy now) (dueBy now) := by
  rintro period timer (rfl | due)
  · exact ⟨now + period, Nat.le_refl _, rfl⟩
  · exact dueBy_arms period timer due

end Arms

section Runs

variable {σ Call : Type} {exec : σ → Call → σ} {cond : σ → Call → Prop} {tick : Call → Option Instant}
  {Inv : Promise → σ → Prop}

/-- An invariant over any promise holds of the deadline one period after a timeout
call, when the clock of the calls before did not run ahead. -/
theorem run_due {now : Instant}
    (preserved : ∀ {s call} {due due' : Promise}, Inv due s → cond s call → Allows now due' →
      Arms (tick call) due due' → Inv due' (exec s call))
    {s : σ} {before after : List Call} {call : Call}
    (initial : Inv (pendingBy now) s) (ticks : tick call = some now)
    (ordered : ∀ earlier ∈ before, ∀ time ∈ tick earlier, time ≤ now)
    (meets : Meets exec cond s (before ++ call :: after)) :
    Inv (dueBy now) (run exec s (before ++ call :: after)) := by
  induction before generalizing s with
  | nil =>
      have called : Inv (dueBy now) (exec s call) :=
        preserved initial meets.1 dueBy_allows (ticks ▸ pendingBy_due)
      exact run_invariant (fun _ _ inv holds => preserved inv holds dueBy_allows dueBy_arms) called meets.2
  | cons first before inductionHypothesis =>
      refine inductionHypothesis (preserved initial meets.1 pendingBy_allows ?_)
        (fun earlier member => ordered earlier (List.mem_cons_of_mem _ member)) meets.2
      exact pendingBy_arms (ordered first List.mem_cons_self)

end Runs

end Promise

/-- A state machine with a deadline: its calls, those that tell the time, and the
timer with its period. -/
structure Timed (σ Call : Type) where
  start : σ → Prop
  exec : σ → Call → σ
  tick : Call → Option Instant
  handleTimeout : Instant → EStateM Fault σ Unit
  period : σ → Duration
  timer : σ → Timeout

namespace Timed

variable {σ Call : Type}

/-- The deadline covers the states that wait: in each of them the timer is there, and
one period after a timeout call of the run the next one fails, when the clock of the
calls before did not run ahead. -/
structure Covers (machine : Timed σ Call) (waits : σ → Prop) : Prop where
  set : ∀ start calls, machine.start start → waits (run machine.exec start calls) →
    machine.timer (run machine.exec start calls) ≠ .disabled
  fails : ∀ start before call after startedAt now, machine.start start →
    machine.tick call = some startedAt →
    (∀ earlier ∈ before, ∀ time ∈ machine.tick earlier, time ≤ startedAt) →
    waits (run machine.exec start (before ++ call :: after)) →
    startedAt + machine.period (run machine.exec start (before ++ call :: after)) ≤ now →
    error? (machine.handleTimeout now) (run machine.exec start (before ++ call :: after)) =
      some (.fatal (.timeout .connect))

/-- An invariant over any promise covers the states in which it speaks of the timer. -/
theorem covers {machine : Timed σ Call} {waits : σ → Prop} (Inv : Promise → σ → Prop)
    (initial : ∀ {due : Promise} {s}, machine.start s → due (machine.period s) .unarmed → Inv due s)
    (preserved : ∀ {s call} {due due' : Promise}, Inv due s →
      Promise.Arms (machine.tick call) due due' → Inv due' (machine.exec s call))
    (promised : ∀ {due : Promise} {s}, Inv due s → waits s →
      due (machine.period s) (machine.timer s))
    (reports : ∀ {s deadline now}, machine.timer s = .armed deadline → deadline ≤ now →
      error? (machine.handleTimeout now) s = some (.fatal (.timeout .connect))) :
    machine.Covers waits where
  set := fun start calls isStart isWaiting => by
    have stays : ∀ s call, Inv Promise.isSet s → True → Inv Promise.isSet (machine.exec s call) :=
      fun _ _ inv _ => preserved inv Promise.isSet_arms
    have inv : Inv Promise.isSet (run machine.exec start calls) :=
      run_invariant stays (initial isStart Timeout.noConfusion) (Meets.of_all fun _ _ => trivial)
    exact promised inv isWaiting
  fails := fun start before call after startedAt now isStart ticks ordered isWaiting late => by
    have stays : ∀ {s call} {due due' : Promise}, Inv due s → (fun (_ : σ) (_ : Call) => True) s call →
        Promise.Allows startedAt due' → Promise.Arms (machine.tick call) due due' →
        Inv due' (machine.exec s call) := fun inv _ _ arms => preserved inv arms
    have inv : Inv (Promise.dueBy startedAt) (run machine.exec start (before ++ call :: after)) :=
      Promise.run_due stays (initial isStart (.inl rfl)) ticks ordered (Meets.of_all fun _ _ => trivial)
    obtain ⟨deadline, early, armed⟩ := promised inv isWaiting
    exact reports armed (Nat.le_trans early late)

end Timed

end Dimpl
