import Dimpl.Dtls13.ServerCapacity

/-!
# The list of saved records

The records of a flight are pushed into a list of twelve that cannot grow. With a small MTU
a flight has more records than that, and the push panics. The flight buffer of DTLS 1.2 is
a vector and has no such bound.
-/

namespace Dimpl

open Nom Program

namespace Dtls13

/-- A call pushes a record into a full list of saved records. Of the other two lists of fixed
capacity, that of the groups has four places and so has that of the receive epochs. -/
def Client.Overflows (c : Client) (call : Client.Call) : Prop :=
  ∃ c', call.program c = .error (.panic .capacityExceeded) c' ∧
    c.engine.config.kxGroups.length ≤ 4 ∧ ¬c'.Crowded

/-- The same of a server. -/
def Server.Overflows (s : Server) (call : Server.Call) : Prop :=
  ∃ s', call.program s = .error (.panic .capacityExceeded) s' ∧
    s.engine.config.kxGroups.length ≤ 4 ∧ ¬s'.Crowded

section Runs

variable {tagLen : Nat} {config : Config}

theorem Client.run_config {start : Client} {calls : List Client.Call} :
    (run Client.exec start calls).engine.config = start.engine.config := by
  have step : ∀ (c : Client) call, c.engine.config = start.engine.config → True →
      (c.exec call).engine.config = start.engine.config :=
    fun c call before _ => (@Client.exec_sizes 0 c call).1.trans before
  exact run_invariant step rfl (.of_all fun _ _ => trivial)

theorem Server.run_config {start : Server} {calls : List Server.Call} :
    (run Server.exec start calls).engine.config = start.engine.config := by
  have step : ∀ (s : Server) call, s.engine.config = start.engine.config → True →
      (s.exec call).engine.config = start.engine.config :=
    fun s call before _ => (@Server.exec_sizes 0 s call).1.trans before
  exact run_invariant step rfl (.of_all fun _ _ => trivial)

/-- A call of a client that finds room for what it sends. -/
theorem Client.not_overflows {start : Client} {calls : List Client.Call} {call : Client.Call}
    (isStart : start.Start) (provider : start.engine.config.cryptoProvider.Sized tagLen)
    (mtu : 64 ≤ start.engine.config.mtu) (fits : (run Client.exec start calls).CallFits call) :
    ¬(run Client.exec start calls).Overflows call := by
  rintro ⟨c', panics, groups, free⟩
  have same := @Client.run_config start calls
  have ready : (run Client.exec start calls).Ready tagLen :=
    ⟨Client.run_sized isStart provider, groups, same ▸ mtu⟩
  have outcome := Client.call_ready ready fits
  unfold Post at outcome
  rw [panics] at outcome
  exact outcome.elim id free

/-- A call of a server that finds room for what it sends. -/
theorem Server.not_overflows {start : Server} {calls : List Server.Call} {call : Server.Call}
    (isStart : start.Start) (provider : start.engine.config.cryptoProvider.Sized tagLen)
    (mtu : 64 ≤ start.engine.config.mtu) (fits : (run Server.exec start calls).CallFits call) :
    ¬(run Server.exec start calls).Overflows call := by
  rintro ⟨s', panics, groups, free⟩
  have same := @Server.run_config start calls
  have ready : (run Server.exec start calls).Ready tagLen :=
    ⟨Server.run_sized isStart provider, groups, same ▸ mtu⟩
  have outcome := Server.call_ready ready fits
  unfold Post at outcome
  rw [panics] at outcome
  exact outcome.elim id free

end Runs

section Decisions

instance (s : Server) : Decidable s.Crowded := inferInstanceAs (Decidable (_ ∧ _))

/-- A call that panics does so in the state it leaves. -/
theorem Server.overflows_of_post {s : Server} {call : Server.Call}
    (groups : s.engine.config.kxGroups.length ≤ 4)
    (panics : Post call.program s (fun _ _ => False)
      fun fault s' => fault = .panic .capacityExceeded ∧ ¬s'.Crowded) : s.Overflows call := by
  unfold Post at panics
  split at panics
  · exact panics.elim
  · rename_i fault s' outcome
    exact ⟨s', by rw [outcome, panics.1], groups, panics.2⟩

instance {e : Engine} {type : MessageType} {α : Type} {values : Option α} {write : α → EngineM Bytes} :
    Decidable (∀ value ∈ values, e.Takes type (write value)) :=
  match values with
  | none => isTrue (by simp)
  | some value => decidable_of_iff (e.Takes type (write value)) (by simp)

instance (s : Server) (state : Server.State) : Decidable (s.FitsIn state) :=
  match state with
  | .sendServerHello => inferInstanceAs
    (Decidable (∀ write ∈ s.writeServerHello, s.engine.flightBegin.Takes .serverHello (id write)))
  | .sendEncryptedExtensions => inferInstanceAs (Decidable (s.engine.Takes .encryptedExtensions
    (pure (Server.createEncryptedExtensions s.endpoint.negotiatedSrtpProfile))))
  | .sendCertificateRequest => inferInstanceAs
    (Decidable (s.engine.Takes .certificateRequest (pure Server.createCertificateRequest)))
  | .sendCertificate => inferInstanceAs
    (Decidable (s.engine.Takes .certificate (createCertificate [])))
  | .sendCertificateVerify => inferInstanceAs
    (Decidable (s.engine.Takes .certificateVerify (createCertificateVerify serverLabel)))
  | .sendFinished => inferInstanceAs (Decidable (∀ secret ∈ s.endpoint.serverHsTrafficSecret,
    s.engine.Takes .finished (computeVerifyData secret)))
  | .awaitClientHello => isTrue trivial
  | .awaitCertificate => isTrue trivial
  | .awaitCertificateVerify => isTrue trivial
  | .awaitFinished => isTrue trivial
  | .awaitApplicationData => isTrue trivial
  | .halfClosedLocal => isTrue trivial
  | .closed => isTrue trivial

/-- Whether the handlers of a server find room. -/
def Server.decideRoundsFit : (fuel : Nat) → (s : Server) → Decidable (s.RoundsFit fuel)
  | 0, _ => isTrue trivial
  | fuel + 1, _ =>
    have : ∀ next : Server, Decidable (next.RoundsFit fuel) := decideRoundsFit fuel
    inferInstanceAs (Decidable (_ ∧ _))

instance (fuel : Nat) (s : Server) : Decidable (s.RoundsFit fuel) := Server.decideRoundsFit fuel s

instance (s : Server) (call : Server.Call) : Decidable (s.CallFits call) :=
  match call with
  | .handlePacket packet => inferInstanceAs
    (Decidable (Post (do Server.retainHello packet; Server.withEngine (receivePacket packet)) s
      (fun _ s' => s'.RoundsFit 20) (fun _ _ => True)))
  | .handleTimeout now => inferInstanceAs
    (Decidable (Post (Server.withEndpoint (Endpoint.handleTimeout now)) s
      (fun _ s' => s'.RoundsFit 20) (fun _ _ => True)))
  | .pollOutput _ => isTrue trivial
  | .sendApplicationData _ => isTrue trivial
  | .close => isTrue trivial

end Decisions

end Dtls13

namespace Sample

theorem length_digest {length : Nat} {bytes : Bytes} (long : 8 ≤ length) :
    (digest length bytes).length = length := by
  simp [digest, be32, be24]
  omega

theorem provider_sized : provider.Sized 16 where
  tag := by
    intro suite isSuite
    cases List.mem_singleton.mp isSuite
    rfl
  appends := by
    intro suite isSuite key made isMade plaintext aad nonce ciphertext encrypted
    cases List.mem_singleton.mp isSuite
    cases isMade
    cases encrypted
    simp [tag, length_digest]
  cookie := by
    intro key data mac computed
    cases computed
    exact length_digest (by decide)

/-- A server with datagrams of 64 bytes, 30 of which may wait, and a certificate of 300
bytes. -/
def cramped : Dtls13.Server :=
  .newWithEngine (.new { config with mtu := 64, maxQueueTx := 30 }
    { certificate with certificate := List.replicate 300 7 } (rng 100)) (rng 17) 0 false

/-- The first datagram of a client. -/
def hello : Bytes :=
  (run Dtls13.Exchange.exec (.sample { config with mtu := 200 } certificate)
    [.client (.handleTimeout 0), .client (.pollOutput 2000)]).fromClient.headD []

end Sample

end Dimpl
