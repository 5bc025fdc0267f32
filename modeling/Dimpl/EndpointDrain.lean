import Dimpl.Drain
import Dimpl.Dtls12.Client
import Dimpl.Dtls12.Server
import Dimpl.Dtls13.Client
import Dimpl.Dtls13.Server

/-!
# Draining a client or a server

`poll_output` of a client or a server first hands out what it has to tell itself, then
polls its engine.
-/

namespace Dimpl

open Nom Program

namespace Dtls13

theorem LocalEvent.intoOutput_ok {σ : Type} {bufLen : Nat} {peerCerts : List Bytes}
    {event : LocalEvent} {s s' : σ} {output : Output}
    (told : event.intoOutput bufLen peerCerts s = .ok output s') :
    s' = s ∧ ∀ instant, output ≠ .timeout instant := by
  have outcome : Post (event.intoOutput bufLen peerCerts) s
      (fun output s' => s' = s ∧ ∀ instant, output ≠ .timeout instant) (fun _ _ => True) := by
    cases event with
    | peerCert =>
        cases peerCerts with
        | nil => trivial
        | cons certificate rest =>
            unfold LocalEvent.intoOutput
            dsimp only
            rw [post_ite]
            exact ⟨fun _ => ⟨rfl, fun _ same => by cases same⟩, fun _ => trivial⟩
    | connected => exact ⟨rfl, fun _ same => by cases same⟩
    | keyingMaterial material profile => exact ⟨rfl, fun _ same => by cases same⟩
  rwa [Post, told] at outcome

theorem Endpoint.pollOutput_ok {bufLen : Nat} {p p' : Endpoint} {output : Output}
    (polled : Endpoint.pollOutput bufLen p = .ok output p') :
    p'.lastNow = p.lastNow ∧
      (Engine.pollOutput bufLen p.lastNow p.engine = .ok output p'.engine ∨
        (p'.engine = p.engine ∧ ∀ instant, output ≠ .timeout instant)) := by
  unfold Endpoint.pollOutput at polled
  simp only [bind, EStateM.bind, run_get] at polled
  cases isEvents : p.localEvents with
  | cons event rest =>
      rw [isEvents] at polled
      obtain ⟨rfl, notTimeout⟩ := LocalEvent.intoOutput_ok polled
      exact ⟨rfl, .inr ⟨rfl, notTimeout⟩⟩
  | nil =>
      rw [isEvents] at polled
      obtain ⟨e, ok, rfl⟩ := zoom_ok polled
      exact ⟨rfl, .inl ok⟩

/-- A drain of a endpoint drains its engine. -/
theorem Endpoint.drained_engine {bufLen : Nat} {p p' : Endpoint} {t : Instant}
    (drained : Drained (Endpoint.pollOutput bufLen) p t p') :
    Drained (Engine.pollOutput bufLen p.lastNow) p.engine t p'.engine := by
  have moves : ∀ p₁ output p₂, Endpoint.lastNow p₁ = p.lastNow →
      Endpoint.pollOutput bufLen p₁ = .ok output p₂ → Endpoint.lastNow p₂ = p.lastNow ∧
        (Engine.pollOutput bufLen p.lastNow p₁.engine = .ok output p₂.engine ∨
          (p₂.engine = p₁.engine ∧ ∀ instant, output ≠ .timeout instant)) := by
    intro p₁ output p₂ isNow polled
    obtain ⟨now, moved⟩ := Endpoint.pollOutput_ok polled
    rw [isNow] at now moved
    exact ⟨now, moved⟩
  exact drained.part moves rfl

/-- A drain of a client drains its engine. -/
theorem Client.drained_engine {bufLen : Nat} {c c' : Client} {t : Instant}
    (drained : Drained (Client.pollOutput bufLen) c t c') :
    Drained (Engine.pollOutput bufLen c.endpoint.lastNow) c.engine t c'.engine := by
  have moves : ∀ c₁ output c₂, True → Client.pollOutput bufLen c₁ = .ok output c₂ → True ∧
      (Endpoint.pollOutput bufLen c₁.endpoint = .ok output c₂.endpoint ∨
        (c₂.endpoint = c₁.endpoint ∧ ∀ instant, output ≠ .timeout instant)) := by
    intro c₁ output c₂ _ polled
    unfold Client.pollOutput Client.withEndpoint at polled
    obtain ⟨p, ok, rfl⟩ := zoom_ok polled
    exact ⟨trivial, .inl ok⟩
  exact Endpoint.drained_engine (drained.part moves trivial)

/-- A drain of a server drains its engine. -/
theorem Server.drained_engine {bufLen : Nat} {s s' : Server} {t : Instant}
    (drained : Drained (Server.pollOutput bufLen) s t s') :
    Drained (Engine.pollOutput bufLen s.endpoint.lastNow) s.engine t s'.engine := by
  have moves : ∀ s₁ output s₂, True → Server.pollOutput bufLen s₁ = .ok output s₂ → True ∧
      (Endpoint.pollOutput bufLen s₁.endpoint = .ok output s₂.endpoint ∨
        (s₂.endpoint = s₁.endpoint ∧ ∀ instant, output ≠ .timeout instant)) := by
    intro s₁ output s₂ _ polled
    unfold Server.pollOutput Server.withEndpoint at polled
    obtain ⟨p, ok, rfl⟩ := zoom_ok polled
    exact ⟨trivial, .inl ok⟩
  exact Endpoint.drained_engine (drained.part moves trivial)

end Dtls13

namespace Dtls12

theorem LocalEvent.intoOutput_ok {σ : Type} {bufLen : Nat} {peerCerts : List Bytes}
    {event : LocalEvent} {s s' : σ} {output : Output}
    (told : event.intoOutput bufLen peerCerts s = .ok output s') :
    s' = s ∧ ∀ instant, output ≠ .timeout instant := by
  have outcome : Post (event.intoOutput bufLen peerCerts) s
      (fun output s' => s' = s ∧ ∀ instant, output ≠ .timeout instant) (fun _ _ => True) := by
    cases event with
    | peerCert =>
        cases peerCerts with
        | nil => trivial
        | cons certificate rest =>
            unfold LocalEvent.intoOutput
            dsimp only
            rw [post_ite]
            exact ⟨fun _ => ⟨rfl, fun _ same => by cases same⟩, fun _ => trivial⟩
    | connected => exact ⟨rfl, fun _ same => by cases same⟩
    | keyingMaterial material profile => exact ⟨rfl, fun _ same => by cases same⟩
  rwa [Post, told] at outcome

theorem Client.pollOutput_ok {bufLen : Nat} {c c' : Client} {output : Output}
    (polled : Client.pollOutput bufLen c = .ok output c') :
    c'.lastNow = c.lastNow ∧
      (Engine.pollOutput bufLen c.lastNow c.engine = .ok output c'.engine ∨
        (c'.engine = c.engine ∧ ∀ instant, output ≠ .timeout instant)) := by
  unfold Client.pollOutput at polled
  simp only [bind, EStateM.bind, run_get] at polled
  cases isEvents : c.localEvents with
  | cons event rest =>
      rw [isEvents] at polled
      obtain ⟨rfl, notTimeout⟩ := LocalEvent.intoOutput_ok polled
      exact ⟨rfl, .inr ⟨rfl, notTimeout⟩⟩
  | nil =>
      rw [isEvents] at polled
      obtain ⟨e, ok, rfl⟩ := zoom_ok polled
      exact ⟨rfl, .inl ok⟩

theorem Server.pollOutput_ok {bufLen : Nat} {s s' : Server} {output : Output}
    (polled : Server.pollOutput bufLen s = .ok output s') :
    s'.lastNow = s.lastNow ∧
      (Engine.pollOutput bufLen s.lastNow s.engine = .ok output s'.engine ∨
        (s'.engine = s.engine ∧ ∀ instant, output ≠ .timeout instant)) := by
  unfold Server.pollOutput at polled
  simp only [bind, EStateM.bind, run_get] at polled
  cases isEvents : s.localEvents with
  | cons event rest =>
      rw [isEvents] at polled
      obtain ⟨rfl, notTimeout⟩ := LocalEvent.intoOutput_ok polled
      exact ⟨rfl, .inr ⟨rfl, notTimeout⟩⟩
  | nil =>
      rw [isEvents] at polled
      obtain ⟨e, ok, rfl⟩ := zoom_ok polled
      exact ⟨rfl, .inl ok⟩

/-- A drain of a client drains its engine. -/
theorem Client.drained_engine {bufLen : Nat} {c c' : Client} {t : Instant}
    (drained : Drained (Client.pollOutput bufLen) c t c') :
    Drained (Engine.pollOutput bufLen c.lastNow) c.engine t c'.engine := by
  have moves : ∀ c₁ output c₂, Client.lastNow c₁ = c.lastNow →
      Client.pollOutput bufLen c₁ = .ok output c₂ → Client.lastNow c₂ = c.lastNow ∧
        (Engine.pollOutput bufLen c.lastNow c₁.engine = .ok output c₂.engine ∨
          (c₂.engine = c₁.engine ∧ ∀ instant, output ≠ .timeout instant)) := by
    intro c₁ output c₂ isNow polled
    obtain ⟨now, moved⟩ := Client.pollOutput_ok polled
    rw [isNow] at now moved
    exact ⟨now, moved⟩
  exact drained.part moves rfl

/-- A drain of a server drains its engine. -/
theorem Server.drained_engine {bufLen : Nat} {s s' : Server} {t : Instant}
    (drained : Drained (Server.pollOutput bufLen) s t s') :
    Drained (Engine.pollOutput bufLen s.lastNow) s.engine t s'.engine := by
  have moves : ∀ s₁ output s₂, Server.lastNow s₁ = s.lastNow →
      Server.pollOutput bufLen s₁ = .ok output s₂ → Server.lastNow s₂ = s.lastNow ∧
        (Engine.pollOutput bufLen s.lastNow s₁.engine = .ok output s₂.engine ∨
          (s₂.engine = s₁.engine ∧ ∀ instant, output ≠ .timeout instant)) := by
    intro s₁ output s₂ isNow polled
    obtain ⟨now, moved⟩ := Server.pollOutput_ok polled
    rw [isNow] at now moved
    exact ⟨now, moved⟩
  exact drained.part moves rfl

end Dtls12

end Dimpl
