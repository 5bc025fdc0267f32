import Dimpl.Dtls13.ClientRun
import Dimpl.Dtls13.ServerRun
import Dimpl.Sample

/-!
# A client and a server with a network between them

The network delivers any datagram that was handed out, in any order and any number
of times, or never. The applications on both sides make their calls at any time.
-/

namespace Dimpl.Dtls13

open Nom Program

/-- What an application asks of its endpoint. -/
inductive Ask where
  | handleTimeout (now : Instant)
  | pollOutput (bufLen : Nat)
  | sendApplicationData (data : Bytes)
  | close

namespace Ask

/-- The call on a client. -/
def onClient : Ask → Client.Call
  | .handleTimeout now => .handleTimeout now
  | .pollOutput bufLen => .pollOutput bufLen
  | .sendApplicationData data => .sendApplicationData data
  | .close => .close

/-- The call on a server. -/
def onServer : Ask → Server.Call
  | .handleTimeout now => .handleTimeout now
  | .pollOutput bufLen => .pollOutput bufLen
  | .sendApplicationData data => .sendApplicationData data
  | .close => .close

/-- The datagram that is handed out, if any. -/
def handsOut {σ : Type} (poll : Nat → EStateM Fault σ Output) (s : σ) : Ask → List Bytes
  | .pollOutput bufLen =>
    match poll bufLen s with
    | .ok (.packet datagram) _ => [datagram]
    | _ => []
  | _ => []

end Ask

/-- Two endpoints and the datagrams each has handed out. -/
structure Exchange where
  client : Client
  server : Server
  fromClient : List Bytes
  fromServer : List Bytes

namespace Exchange

/-- What happens next. -/
inductive Call where
  | client (ask : Ask)
  | server (ask : Ask)
  /-- The client gets a datagram of the server. -/
  | toClient (index : Nat)
  /-- The server gets a datagram of the client. -/
  | toServer (index : Nat)

/-- The endpoints and the network after a call. -/
def exec (x : Exchange) : Call → Exchange
  | .client ask =>
    { x with
      client := x.client.exec ask.onClient
      fromClient := x.fromClient ++ ask.handsOut Client.pollOutput x.client }
  | .server ask =>
    { x with
      server := x.server.exec ask.onServer
      fromServer := x.fromServer ++ ask.handsOut Server.pollOutput x.server }
  | .toClient index =>
    match x.fromServer[index]? with
    | some datagram => { x with client := x.client.exec (.handlePacket datagram) }
    | none => x
  | .toServer index =>
    match x.fromClient[index]? with
    | some datagram => { x with server := x.server.exec (.handlePacket datagram) }
    | none => x

/-- Two endpoints at their start and nothing on the way. -/
def Start (x : Exchange) : Prop :=
  x.client.Start ∧ x.server.Start ∧ x.fromClient = [] ∧ x.fromServer = []

/-- Endpoints and network reached by any calls. -/
def Reached (x : Exchange) : Prop := ∃ start calls, Start start ∧ x = run exec start calls

section Endpoints

variable {x : Exchange}

theorem run_client (calls : List Call) :
    ∃ clientCalls, (run exec x calls).client = run Client.exec x.client clientCalls := by
  induction calls generalizing x with
  | nil => exact ⟨[], rfl⟩
  | cons call rest inductionHypothesis =>
      obtain ⟨later, isLater⟩ := @inductionHypothesis (exec x call)
      -- One call makes at most one on the client.
      have step : ∃ first, (exec x call).client = run Client.exec x.client first := by
        cases call with
        | client ask => exact ⟨[ask.onClient], rfl⟩
        | server ask => exact ⟨[], rfl⟩
        | toClient index =>
            simp only [exec]
            split
            · exact ⟨[.handlePacket _], rfl⟩
            · exact ⟨[], rfl⟩
        | toServer index =>
            simp only [exec]
            split <;> exact ⟨[], rfl⟩
      obtain ⟨first, isFirst⟩ := step
      refine ⟨first ++ later, ?_⟩
      rw [isFirst] at isLater
      simpa [run] using isLater

theorem run_server (calls : List Call) :
    ∃ serverCalls, (run exec x calls).server = run Server.exec x.server serverCalls := by
  induction calls generalizing x with
  | nil => exact ⟨[], rfl⟩
  | cons call rest inductionHypothesis =>
      obtain ⟨later, isLater⟩ := @inductionHypothesis (exec x call)
      have step : ∃ first, (exec x call).server = run Server.exec x.server first := by
        cases call with
        | client ask => exact ⟨[], rfl⟩
        | server ask => exact ⟨[ask.onServer], rfl⟩
        | toClient index =>
            simp only [exec]
            split <;> exact ⟨[], rfl⟩
        | toServer index =>
            simp only [exec]
            split
            · exact ⟨[.handlePacket _], rfl⟩
            · exact ⟨[], rfl⟩
      obtain ⟨first, isFirst⟩ := step
      refine ⟨first ++ later, ?_⟩
      rw [isFirst] at isLater
      simpa [run] using isLater

/-- The client of an exchange is one that calls reach. -/
theorem Reached.client (reached : Reached x) : x.client.Reached := by
  obtain ⟨start, calls, isStart, rfl⟩ := reached
  obtain ⟨clientCalls, same⟩ := run_client (x := start) calls
  exact ⟨start.client, clientCalls, isStart.1, same⟩

/-- The server of an exchange is one that calls reach. -/
theorem Reached.server (reached : Reached x) : x.server.Reached := by
  obtain ⟨start, calls, isStart, rfl⟩ := reached
  obtain ⟨serverCalls, same⟩ := run_server (x := start) calls
  exact ⟨start.server, serverCalls, isStart.2.1, same⟩

end Endpoints

/-- Two endpoints of one configuration that runs. -/
def sample (config : Config) (clientCertificate : DtlsCertificate) : Exchange where
  client := Client.newWithEngine (Engine.new config clientCertificate (Sample.rng 1)) (Sample.rng 7) 0
  server := Server.newWithEngine (Engine.new config Sample.certificate (Sample.rng 100))
    (Sample.rng 17) 0 false
  fromClient := []
  fromServer := []

theorem sample_start {config : Config} {clientCertificate : DtlsCertificate} :
    Start (sample config clientCertificate) :=
  ⟨.fresh .., .fresh .., rfl, rfl⟩

/-- The flights of a handshake up to the client's Finished, each handed out in up to
six datagrams. -/
def flights : List Call :=
  [.client (.handleTimeout 0), .server (.handleTimeout 0), .client (.pollOutput 2000), .toServer 0] ++
    List.replicate 6 (.server (.pollOutput 2000)) ++ (List.range 6).map .toClient ++
    List.replicate 6 (.client (.pollOutput 2000))

end Exchange

end Dimpl.Dtls13
