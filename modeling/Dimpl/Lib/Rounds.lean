import Dimpl.Lib.Program

/-!
# Machines that repeat their handlers

A machine runs the handler of its state until the state stays what it is. What the rounds
of a call do is a list of acts, and so is what a whole run does. A judgement of the acts
looks at each of them together with what was tracked of those in front of it.
-/

namespace Program

variable {ε σ S A G Call : Type}

/-- Where the state of a machine is kept and which handler it has in each. -/
structure Machine (ε σ S : Type) where
  state : σ → S
  enter : S → σ → σ
  handler : S → EStateM ε σ S

section Acts

variable {judge : G → A → Prop} {track : G → A → G}

/-- Every act is judged by what was tracked of those in front of it. -/
def Judged (judge : G → A → Prop) (track : G → A → G) : G → List A → Prop
  | _, [] => True
  | g, act :: rest => judge g act ∧ Judged judge track (track g act) rest

instance instDecidableJudged [∀ g, DecidablePred (judge g)] :
    ∀ (g : G) (acts : List A), Decidable (Judged judge track g acts)
  | _, [] => inferInstanceAs (Decidable True)
  | g, act :: rest =>
    have : Decidable (Judged judge track (track g act) rest) := instDecidableJudged (track g act) rest
    inferInstanceAs (Decidable (judge g act ∧ Judged judge track (track g act) rest))

theorem judged_append {g : G} {first second : List A} :
    Judged judge track g (first ++ second) ↔
      Judged judge track g first ∧ Judged judge track (first.foldl track g) second := by
  induction first generalizing g with
  | nil => simp [Judged]
  | cons act rest inductionHypothesis => simp [Judged, inductionHypothesis, and_assoc]

/-- A judgement that another one grants. -/
theorem judged_mp {judge' : G → A → Prop} {g : G} {acts : List A}
    (grants : Judged (fun g act => judge g act → judge' g act) track g acts)
    (judged : Judged judge track g acts) : Judged judge' track g acts := by
  induction acts generalizing g with
  | nil => trivial
  | cons act rest inductionHypothesis => exact ⟨grants.1 judged.1, inductionHypothesis grants.2 judged.2⟩

/-- Where nothing is judged. -/
theorem judged_true {g : G} {acts : List A} : Judged (fun _ _ => True) track g acts := by
  induction acts generalizing g with
  | nil => trivial
  | cons act rest inductionHypothesis => exact ⟨trivial, inductionHypothesis⟩

/-- Where every act is judged for itself. -/
theorem judged_each {P : A → Prop} {g : G} {acts : List A} :
    Judged (fun _ => P) track g acts ↔ ∀ act ∈ acts, P act := by
  induction acts generalizing g with
  | nil => simp [Judged]
  | cons act rest inductionHypothesis => simp [Judged, inductionHypothesis]

/-- What a program does behind one that succeeds. -/
def following {α : Type} (program : EStateM ε σ α) (rest : σ → List A) (s : σ) : List A :=
  match program s with
  | .ok _ s' => rest s'
  | .error _ _ => []

/-- A program and what follows it are judged together. -/
theorem judged_following {α : Type} {Inv After : G → σ → Prop} {program : EStateM ε σ α}
    (next : EStateM ε σ Unit) {rest : σ → List A} {g : G} {s : σ}
    (first : Post program s (fun _ s' => Inv g s') fun _ s' => After g s')
    (second : ∀ s', Inv g s' → Judged judge track g (rest s') ∧
      After ((rest s').foldl track g) (finalState next s')) :
    Judged judge track g (following program rest s) ∧
      After ((following program rest s).foldl track g)
        (finalState (do let _ ← program; next) s) := by
  unfold Post at first
  unfold following
  have ran : finalState (do let _ ← program; next) s =
      match program s with
      | .ok _ s' => finalState next s'
      | .error _ s' => s' := by
    unfold finalState
    simp only [bind, EStateM.bind]
    cases program s <;> rfl
  rw [ran]
  cases outcome : program s with
  | ok value s' =>
      rw [outcome] at first
      exact second s' first
  | error fault s' =>
      rw [outcome] at first
      exact ⟨trivial, first⟩

/-- A program and what follows it, where nothing is judged. -/
theorem state_following {α : Type} {Inv After : G → σ → Prop} {program : EStateM ε σ α}
    (next : EStateM ε σ Unit) {rest : σ → List A} {g : G} {s : σ}
    (first : Post program s (fun _ s' => Inv g s') fun _ s' => After g s')
    (second : ∀ s', Inv g s' → After ((rest s').foldl track g) (finalState next s')) :
    After ((following program rest s).foldl track g) (finalState (do let _ ← program; next) s) :=
  (judged_following next first fun s' inv => ⟨judged_true, second s' inv⟩).2

/-- A program and what follows it, where every act is judged for itself. -/
theorem each_following {α : Type} {P : A → Prop} {Inv After : σ → Prop} {program : EStateM ε σ α}
    (next : EStateM ε σ Unit) {rest : σ → List A} {s : σ}
    (first : Post program s (fun _ s' => Inv s') fun _ s' => After s')
    (second : ∀ s', Inv s' → (∀ act ∈ rest s', P act) ∧ After (finalState next s')) :
    (∀ act ∈ following program rest s, P act) ∧ After (finalState (do let _ ← program; next) s) := by
  obtain ⟨judged, after⟩ := @judged_following ε σ A Unit (fun _ => P) (fun g _ => g) α (fun _ => Inv)
    (fun _ => After) program next rest () s first
    fun s' inv => ⟨judged_each.mpr (second s' inv).1, (second s' inv).2⟩
  exact ⟨judged_each.mp judged, after⟩

end Acts

namespace Machine

variable [DecidableEq S] (m : Machine ε σ S) {judge : G → A → Prop} {track : G → A → G}

/-- The handlers are repeated until the state stays. -/
def loop (stuck : ε) : (fuel : Nat) → EStateM ε σ Unit
  | 0 => throw stuck
  | fuel + 1 => do
    let state := m.state (← get)
    let next ← m.handler state
    if next = state then pure ()
    else
      modify (m.enter next)
      loop stuck fuel

/-- What the rounds do, for acts that a round has by the state it starts in. -/
def rounds (acts : σ → List A) : (fuel : Nat) → σ → List A
  | 0, _ => []
  | fuel + 1, s =>
    acts s ++
      match m.handler (m.state s) s with
      | .ok next s' => if next = m.state s then [] else rounds acts fuel (m.enter next s')
      | .error _ _ => []

/-- An invariant that a round keeps when it goes on, together with what is tracked, makes
the acts of all rounds judged. What is left where they end may be less. -/
theorem loop_judged {Inv After : G → σ → Prop} {acts : σ → List A} {stuck : ε}
    (weaker : ∀ g s, Inv g s → After g s)
    (round : ∀ g s, Inv g s → Judged judge track g (acts s) ∧
      Post (m.handler (m.state s)) s
        (fun next s' => if next = m.state s then After ((acts s).foldl track g) s'
          else Inv ((acts s).foldl track g) (m.enter next s'))
        fun _ s' => After ((acts s).foldl track g) s')
    {fuel : Nat} {g : G} {s : σ} (inv : Inv g s) :
    Judged judge track g (m.rounds acts fuel s) ∧
      After ((m.rounds acts fuel s).foldl track g) (finalState (m.loop stuck fuel) s) := by
  induction fuel generalizing g s with
  | zero => exact ⟨trivial, weaker g s inv⟩
  | succ fuel inductionHypothesis =>
      obtain ⟨judged, post⟩ := round g s inv
      unfold Post at post
      have ran : finalState (m.loop stuck (fuel + 1)) s =
          match m.handler (m.state s) s with
          | .ok next s' =>
            if next = m.state s then s' else finalState (m.loop stuck fuel) (m.enter next s')
          | .error _ s' => s' := by
        unfold finalState
        simp only [loop, bind, EStateM.bind, run_get]
        cases m.handler (m.state s) s with
        | error fault s' => rfl
        | ok next s' =>
            by_cases stays : next = m.state s
            · simp [stays, pure, EStateM.pure]
            · simp only [if_neg stays]
              rfl
      unfold rounds
      rw [ran]
      cases outcome : m.handler (m.state s) s with
      | error fault s' =>
          rw [outcome] at post
          simpa using ⟨judged, post⟩
      | ok next s' =>
          rw [outcome] at post
          dsimp only at post ⊢
          by_cases stays : next = m.state s
          · rw [if_pos stays] at post ⊢
            rw [if_pos stays]
            simpa using ⟨judged, post⟩
          · rw [if_neg stays] at post ⊢
            rw [if_neg stays, List.foldl_append]
            obtain ⟨later, kept⟩ := inductionHypothesis post
            exact ⟨judged_append.mpr ⟨judged, later⟩, kept⟩

/-- The invariant of rounds where nothing is judged. -/
theorem loop_state {Inv After : G → σ → Prop} {acts : σ → List A} {stuck : ε}
    (weaker : ∀ g s, Inv g s → After g s)
    (round : ∀ g s, Inv g s → Post (m.handler (m.state s)) s
        (fun next s' => if next = m.state s then After ((acts s).foldl track g) s'
          else Inv ((acts s).foldl track g) (m.enter next s'))
        fun _ s' => After ((acts s).foldl track g) s')
    {fuel : Nat} {g : G} {s : σ} (inv : Inv g s) :
    After ((m.rounds acts fuel s).foldl track g) (finalState (m.loop stuck fuel) s) :=
  (m.loop_judged weaker (fun g s inv => ⟨judged_true, round g s inv⟩) inv).2

/-- The invariant of rounds whose acts are judged each for itself. -/
theorem loop_each {P : A → Prop} {Inv After : σ → Prop} {acts : σ → List A} {stuck : ε}
    (weaker : ∀ s, Inv s → After s)
    (round : ∀ s, Inv s → (∀ act ∈ acts s, P act) ∧ Post (m.handler (m.state s)) s
        (fun next s' => if next = m.state s then After s' else Inv (m.enter next s'))
        fun _ s' => After s')
    {fuel : Nat} {s : σ} (inv : Inv s) :
    (∀ act ∈ m.rounds acts fuel s, P act) ∧ After (finalState (m.loop stuck fuel) s) := by
  obtain ⟨judged, after⟩ := @loop_judged ε σ S A Unit _ m (fun _ => P) (fun g _ => g) (fun _ => Inv)
    (fun _ => After) acts stuck (fun _ => weaker)
    (fun _ s inv => ⟨judged_each.mpr (round s inv).1, (round s inv).2⟩) fuel () s inv
  exact ⟨judged_each.mp judged, after⟩

end Machine

section Traces

variable {exec : σ → Call → σ} {cond : σ → Call → Prop} {acts : σ → Call → List A}
  {judge : G → A → Prop} {track : G → A → G}

/-- What the calls of a run do. -/
def traced (exec : σ → Call → σ) (acts : σ → Call → List A) : σ → List Call → List A
  | _, [] => []
  | s, call :: calls => acts s call ++ traced exec acts (exec s call) calls

/-- Calls that are judged and keep an invariant make a run that is judged. -/
theorem traced_judged {Inv : G → σ → Prop}
    (step : ∀ g s call, Inv g s → cond s call → Judged judge track g (acts s call) ∧
      Inv ((acts s call).foldl track g) (exec s call))
    {g : G} {s : σ} (initial : Inv g s) {calls : List Call} (meets : Meets exec cond s calls) :
    Judged judge track g (traced exec acts s calls) := by
  induction calls generalizing g s with
  | nil => trivial
  | cons call calls inductionHypothesis =>
      obtain ⟨judged, kept⟩ := step g s call initial meets.1
      exact judged_append.mpr ⟨judged, inductionHypothesis kept meets.2⟩

/-- An invariant of states and what was tracked, along a run. -/
theorem traced_state {Inv : G → σ → Prop}
    (step : ∀ g s call, Inv g s → Inv ((acts s call).foldl track g) (exec s call))
    {g : G} {s : σ} (initial : Inv g s) {calls : List Call} :
    Inv ((traced exec acts s calls).foldl track g) (run exec s calls) := by
  induction calls generalizing g s with
  | nil => exact initial
  | cons call calls inductionHypothesis =>
      unfold traced
      rw [List.foldl_append]
      exact inductionHypothesis (step g s call initial)

/-- An invariant of a run whose acts are judged each for itself. -/
theorem traced_each {P : A → Prop} {Inv : σ → Prop}
    (step : ∀ s call, Inv s → (∀ act ∈ acts s call, P act) ∧ Inv (exec s call))
    {s : σ} (initial : Inv s) {calls : List Call} :
    (∀ act ∈ traced exec acts s calls, P act) ∧ Inv (run exec s calls) := by
  induction calls generalizing s with
  | nil => exact ⟨fun _ member => absurd member List.not_mem_nil, initial⟩
  | cons call calls inductionHypothesis =>
      obtain ⟨first, kept⟩ := step s call initial
      obtain ⟨rest, last⟩ := inductionHypothesis kept
      exact ⟨fun act member => (List.mem_append.mp member).elim (first act) (rest act), last⟩

end Traces

end Program
