import Dimpl.Config
import Dimpl.Lib.Program

/-!
# Draining the output

The caller polls until a timeout is reported.
-/

namespace Dimpl

open Nom Program

/-- Whether an output carries something of the connection: a datagram to send or data that
was received. -/
def Output.carries : Output → Bool
  | .packet _ | .applicationData _ => true
  | _ => false

/-- Polling until a timeout is reported, with the instant reported and the state left. -/
inductive Drained {σ : Type} (poll : EStateM Fault σ Output) : σ → Instant → σ → Prop where
  | last {s s' : σ} {t : Instant} (polled : poll s = .ok (.timeout t) s') : Drained poll s t s'
  | more {s s₁ s' : σ} {t : Instant} {output : Output} (polled : poll s = .ok output s₁)
      (notYet : ∀ instant, output ≠ .timeout instant) (rest : Drained poll s₁ t s') :
      Drained poll s t s'

/-- Polls until a timeout is reported or the polls are used up. -/
def drain? {σ : Type} (poll : EStateM Fault σ Output) : Nat → σ → Option (Instant × σ)
  | 0, _ => none
  | polls + 1, s =>
    match poll s with
    | .ok (.timeout t) s' => some (t, s')
    | .ok _ s' => drain? poll polls s'
    | .error _ _ => none

theorem drained_of_drain? {σ : Type} {poll : EStateM Fault σ Output} {polls : Nat} {s s' : σ}
    {t : Instant} (ended : drain? poll polls s = some (t, s')) : Drained poll s t s' := by
  induction polls generalizing s with
  | zero => cases ended
  | succ polls inductionHypothesis =>
      rw [drain?] at ended
      split at ended
      · rename_i polled
        cases ended
        exact .last polled
      · rename_i notTimeout polled
        exact .more polled notTimeout (inductionHypothesis ended)
      · cases ended

/-- The caller may poll until the instant that comes out of it. -/
theorem exists_drained {σ : Type} {poll : EStateM Fault σ Output} {polls : Nat} {s : σ} {t : Instant}
    (ended : (drain? poll polls s).map Prod.fst = some t) : ∃ s', Drained poll s t s' := by
  obtain ⟨⟨_, s'⟩, drained, rfl⟩ := Option.map_eq_some_iff.mp ended
  exact ⟨s', drained_of_drain? drained⟩

/-- What the earlier polls keep holds when the timeout is reported. -/
theorem Drained.last_poll {σ : Type} {poll : EStateM Fault σ Output} {s s' : σ} {t : Instant}
    {I : σ → Prop}
    (keeps : ∀ s output s', I s → poll s = .ok output s' → (∀ instant, output ≠ .timeout instant) →
      I s')
    (drained : Drained poll s t s') (holds : I s) : ∃ s₁, I s₁ ∧ poll s₁ = .ok (.timeout t) s' := by
  induction drained with
  | last polled => exact ⟨_, holds, polled⟩
  | more polled notYet _ inductionHypothesis =>
      exact inductionHypothesis (keeps _ _ _ holds polled notYet)

/-- A drain of the whole is a drain of the part that is polled last. -/
theorem Drained.part {σ τ : Type} {poll : EStateM Fault σ Output} {whole : EStateM Fault τ Output}
    {view : τ → σ} {I : τ → Prop} {t : Instant} {s s' : τ}
    (moves : ∀ s output s', I s → whole s = .ok output s' → I s' ∧
      (poll (view s) = .ok output (view s') ∨
        (view s' = view s ∧ ∀ instant, output ≠ .timeout instant)))
    (drained : Drained whole s t s') (holds : I s) : Drained poll (view s) t (view s') := by
  induction drained with
  | last polled =>
      rcases (moves _ _ _ holds polled).2 with part | ⟨_, notYet⟩
      · exact .last part
      · exact absurd rfl (notYet _)
  | more polled notYet _ inductionHypothesis =>
      obtain ⟨holds', moved⟩ := moves _ _ _ holds polled
      rcases moved with part | ⟨same, _⟩
      · exact .more part notYet (inductionHypothesis holds')
      · exact same ▸ inductionHypothesis holds'

/-- Polls until a timeout is reported or the polls are used up, with the data that comes out. -/
def collect {σ : Type} (poll : EStateM Fault σ Output) : Nat → EStateM Fault σ (List Bytes)
  | 0 => pure []
  | polls + 1 => do
    match ← poll with
    | .timeout _ => return []
    | .applicationData data =>
      let rest ← collect poll polls
      return data :: rest
    | _ => collect poll polls

/-- Polls that hand out data piece by piece, and other output only so often, end with a timeout. -/
theorem collect_post {σ : Type} {poll : EStateM Fault σ Output} {I : List Bytes → Nat → σ → Prop}
    {Done : σ → Prop}
    (step : ∀ data count s, I data count s → Post poll s
      (fun output s' => match output with
        | .applicationData payload => ∃ rest, data = payload :: rest ∧ I rest count s'
        | .timeout _ => data = [] ∧ Done s'
        | _ => ∃ fewer, count = fewer + 1 ∧ I data fewer s')
      fun _ _ => False)
    {polls count : Nat} {data : List Bytes} {s : σ} (holds : I data count s)
    (enough : data.length + count < polls) :
    Post (collect poll polls) s (fun items s' => items = data ∧ Done s') fun _ _ => False := by
  induction polls generalizing data count s with
  | zero => exact absurd enough (Nat.not_lt_zero _)
  | succ polls inductionHypothesis =>
      have quiet : ∀ {s' : σ}, (∃ fewer, count = fewer + 1 ∧ I data fewer s') →
          Post (collect poll polls) s' (fun items s' => items = data ∧ Done s') fun _ _ => False := by
        rintro s' ⟨fewer, rfl, holds'⟩
        exact inductionHypothesis holds' (by omega)
      unfold collect
      rw [post_bind]
      refine (step data count s holds).mono ?_ fun _ _ => id
      intro output s' polled
      cases output with
      | timeout t =>
          obtain ⟨rfl, done⟩ := polled
          exact ⟨rfl, done⟩
      | applicationData payload =>
          obtain ⟨rest, rfl, holds'⟩ := polled
          rw [List.length_cons] at enough
          rw [post_bind]
          refine (inductionHypothesis holds' (by omega)).mono ?_ fun _ _ => id
          rintro _ s₂ ⟨rfl, done⟩
          exact ⟨rfl, done⟩
      | packet data => exact quiet polled
      | connected => exact quiet polled
      | peerCert certificate => exact quiet polled
      | keyingMaterial material profile => exact quiet polled
      | closeNotify => exact quiet polled

/-- Datagrams that arrive one by one, each followed by a drain that starts in a good
state. -/
inductive Rounds {σ : Type} (receive : Bytes → EStateM Fault σ Unit)
    (poll : Instant → EStateM Fault σ Output) (good : σ → Prop) : σ → σ → Prop where
  | drain {s s' : σ} {now t : Instant} (ready : good s) (drained : Drained (poll now) s t s') :
      Rounds receive poll good s s'
  | round {s s₁ s' : σ} {now t : Instant} {datagram : Bytes} (before : Rounds receive poll good s s₁)
      (ready : good (finalState (receive datagram) s₁))
      (drained : Drained (poll now) (finalState (receive datagram) s₁) t s') :
      Rounds receive poll good s s'

/-- A caller that makes a timeout call, drains, and makes the next call at the instant
reported, with the instants of its calls. Every drain starts in a good state. -/
inductive EventLoop {σ : Type} (handle : Instant → EStateM Fault σ Unit)
    (poll : EStateM Fault σ Output) (good : Instant → σ → Prop) : Instant → σ → List Instant → Prop where
  | stop {now : Instant} {s : σ} : EventLoop handle poll good now s []
  | tick {now t : Instant} {s s₁ s' : σ} {later : List Instant} (handled : handle now s = .ok () s₁)
      (ready : good now s₁) (drained : Drained poll s₁ t s')
      (rest : EventLoop handle poll good t s' later) : EventLoop handle poll good now s (now :: later)

/-- When every tick reports a later instant, no instant comes twice. -/
theorem EventLoop.increasing {σ : Type} {handle : Instant → EStateM Fault σ Unit}
    {poll : EStateM Fault σ Output} {good : Instant → σ → Prop} {now : Instant} {s : σ}
    {instants : List Instant}
    (advances : ∀ now t s s₁ s', handle now s = .ok () s₁ → good now s₁ → Drained poll s₁ t s' →
      now < t)
    (loop : EventLoop handle poll good now s instants) :
    instants.Pairwise (· < ·) ∧ ∀ instant ∈ instants, now ≤ instant := by
  induction loop with
  | stop => exact ⟨.nil, fun _ never => absurd never List.not_mem_nil⟩
  | tick handled ready drained _ inductionHypothesis =>
      have next := advances _ _ _ _ _ handled ready drained
      have after : ∀ instant ∈ _, _ < instant := fun instant isLater =>
        Nat.lt_of_lt_of_le next (inductionHypothesis.2 instant isLater)
      refine ⟨.cons after inductionHypothesis.1, fun instant isInstant => ?_⟩
      rcases List.mem_cons.mp isInstant with rfl | isLater
      · exact Nat.le_refl _
      · exact Nat.le_of_lt (after instant isLater)

end Dimpl
