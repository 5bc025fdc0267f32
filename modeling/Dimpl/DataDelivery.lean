import Dimpl.Dtls13.Client
import Dimpl.Dtls13.Engine.Arrival
import Dimpl.Dtls13.Server
import Dimpl.RecordProtection

/-!
# Application data on a lossy network

What one side of a connection of version 1.3 sends, the other side hands out: once each and in order,
if no datagram holds more than sixteen records.
-/

namespace Dimpl

open Nom Program Delivery

namespace Dtls13

section Endpoints

variable {ch : Channel} {opened waiting : List Nat} {p : Endpoint}

/-- Nothing waits to be reported, sent or answered. -/
structure Endpoint.Idle (p : Endpoint) : Prop where
  events : p.localEvents = []
  queued : p.queuedData = []
  answered : p.pendingKeyUpdateResponse = false

theorem Engine.OnlyData.incomplete {e : Engine} {wanted : MessageType} (only : e.OnlyData) :
    e.hasCompleteHandshake wanted = false := by
  have none : e.scanFragments = [] := by
    unfold Engine.scanFragments
    have empty : ((e.rxRecords.dropWhile Record.isHandled).take maxDefragmentPackets).flatMap
        Record.handshakes = [] := by
      rw [List.flatMap_eq_nil_iff]
      intro r member
      exact (only r ((List.dropWhile_suffix _).subset (List.mem_of_mem_take member))).2
    rw [empty]
    rfl
  unfold Engine.hasCompleteHandshake
  rw [none]
  rfl

/-- With data only in the queue there is nothing to do. -/
theorem Endpoint.awaitApplicationData_idle (idle : p.Idle) (calm : p.engine.needsKeyUpdate = false)
    (only : p.engine.OnlyData) :
    Post Endpoint.awaitApplicationData p (fun _ p' => p' = p) fun _ _ => False := by
  have initiated : Post initiateKeyUpdate p (fun _ p' => p' = p) fun _ _ => False := by
    have same : ({ p.engine with needsKeyUpdate := false } : Engine) = p.engine := by
      rw [← calm]
    unfold initiateKeyUpdate withEngine needsKeyUpdate
    rw [post_bind, post_zoom, post_bind, post_get, post_bind, post_set, post_pure, same, post_bind, post_get,
      calm]
    dsimp only
    rw [Bool.false_and, post_zoom, post_runIf]
    exact ⟨fun impossible => absurd impossible Bool.false_ne_true, fun _ => rfl⟩
  have flushed : Post sendQueuedData p (fun _ p' => p' = p) fun _ _ => False := by
    have same : ({ p with queuedData := [] } : Endpoint) = p := by
      rw [← idle.queued]
    unfold sendQueuedData withEngine
    rw [post_bind, post_get, post_bind, post_set, same, idle.queued, post_zoom]
    rfl
  have answered : Post answerKeyUpdate p (fun _ p' => p' = p) fun _ _ => False := by
    unfold answerKeyUpdate
    rw [post_bind, post_get, idle.answered, if_neg Bool.false_ne_true]
    rfl
  have updated : Post (onKeyUpdate receiveKeyUpdate) p (fun _ p' => p' = p) fun _ _ => False := by
    unfold onKeyUpdate withEngine nextHandshakeNoTranscript nextHandshakeWithOptions
    rw [post_bind, post_zoom, post_bind, post_get, only.incomplete, if_neg Bool.false_ne_true, post_pure]
    rfl
  unfold Endpoint.awaitApplicationData
  rw [post_bind]
  refine initiated.mono ?_ fun _ _ => id
  rintro _ _ rfl
  rw [post_bind]
  refine flushed.mono ?_ fun _ _ => id
  rintro _ _ rfl
  rw [post_bind]
  refine answered.mono ?_ fun _ _ => id
  rintro _ _ rfl
  exact updated

theorem Endpoint.Idle.settled {e : Engine} (idle : p.Idle) (only : e.OnlyData)
    (calm : e.needsKeyUpdate = false) :
    Post Endpoint.awaitApplicationData { p with engine := e } (fun _ p' => p' = { p with engine := e })
      fun _ _ => False :=
  Endpoint.awaitApplicationData_idle ⟨idle.events, idle.queued, idle.answered⟩ calm only

end Endpoints

/-- Either side of a connection. -/
inductive Party where
  | client (c : Client)
  | server (s : Server)

namespace Party

/-- A call of either side. -/
def call {α : Type} (onClient : ClientM α) (onServer : ServerM α) : EStateM Fault Party α
  | .client c =>
    match onClient c with
    | .ok value c' => .ok value (.client c')
    | .error fault c' => .error fault (.client c')
  | .server s =>
    match onServer s with
    | .ok value s' => .ok value (.server s')
    | .error fault s' => .error fault (.server s')

/-- `handle_packet`. -/
def handlePacket (packet : Bytes) : EStateM Fault Party Unit :=
  call (Client.handlePacket packet) (Server.handlePacket packet)

/-- `poll_output`. -/
def pollOutput (bufLen : Nat) : EStateM Fault Party Output :=
  call (Client.pollOutput bufLen) (Server.pollOutput bufLen)

/-- `send_application_data`. -/
def sendApplicationData (data : Bytes) : EStateM Fault Party Unit :=
  call (Client.sendApplicationData data) (Server.sendApplicationData data)

/-- The common fields. -/
def endpoint : Party → Endpoint
  | .client c => c.endpoint
  | .server s => s.endpoint

/-- The engine. -/
def engine (party : Party) : Engine := party.endpoint.engine

/-- The handshake is over and nothing is closed. -/
def Connected : Party → Prop
  | .client c => c.state = .awaitApplicationData
  | .server s => s.state = .awaitApplicationData

section Calls

variable {ch : Channel} {opened waiting : List Nat} {party : Party} {α : Type}

theorem post_call {onClient : ClientM α} {onServer : ServerM α} {Q : α → Party → Prop}
    {E : Fault → Party → Prop} :
    Post (call onClient onServer) party Q E ↔
      match party with
      | .client c => Post onClient c (fun value c' => Q value (.client c')) fun fault c' => E fault (.client c')
      | .server s => Post onServer s (fun value s' => Q value (.server s')) fun fault s' => E fault (.server s') := by
  unfold Post call
  cases party with
  | client c =>
      dsimp only
      cases onClient c <;> rfl
  | server s =>
      dsimp only
      cases onServer s <;> rfl

/-- A side that is connected, with these numbers opened and these packets in its queue. -/
structure Listens (ch : Channel) (opened waiting : List Nat) (party : Party) : Prop where
  connected : party.Connected
  idle : party.endpoint.Idle
  engine : ch.Listens opened waiting party.engine

/-- What a datagram does to the engine is what it does to the side. -/
theorem handlePacket_engine {packet : Bytes} {Good : Engine → Prop} (connected : party.Connected)
    (idle : party.endpoint.Idle) (quiet : ∀ e, Good e → e.OnlyData ∧ e.needsKeyUpdate = false)
    (received : Post (receivePacket packet) party.engine (fun _ e => Good e)
      fun fault e => (∃ reason, fault = .transient reason) ∧ Good e) :
    Post (handlePacket packet) party
      (fun _ party' => party'.Connected ∧ party'.endpoint.Idle ∧ Good party'.engine) fun _ _ => False := by
  rw [handlePacket, post_call]
  cases party with
  | client c =>
      have state : c.state = .awaitApplicationData := connected
      unfold Client.handlePacket
      dsimp only
      rw [post_publicResult, post_bind]
      unfold Client.withEngine Client.withEndpoint Endpoint.withEngine
      rw [post_zoom, post_zoom]
      refine Post.mono received ?_ ?_
      · intro _ e good
        obtain ⟨only, calm⟩ := quiet e good
        have same := @Endpoint.Idle.settled c.endpoint e idle only calm
        unfold Client.makeProgress Client.progressLoop
        rw [post_bind, post_get, post_bind]
        dsimp only
        rw [state]
        dsimp only [Client.State.makeProgress]
        unfold Client.awaitApplicationData Client.withEndpoint
        rw [post_bind, post_zoom]
        refine same.mono ?_ fun _ _ => False.elim
        rintro _ _ rfl
        rw [post_pure, if_pos rfl, post_pure]
        exact ⟨rfl, ⟨idle.events, idle.queued, idle.answered⟩, good⟩
      · rintro _ e ⟨⟨reason, rfl⟩, good⟩
        exact ⟨state, ⟨idle.events, idle.queued, idle.answered⟩, good⟩
  | server s =>
      have state : s.state = .awaitApplicationData := connected
      have later : (s.autoMode && decide (s.state = .awaitClientHello)) = false := by
        rw [state]
        simp
      unfold Server.handlePacket Server.retainHello
      dsimp only
      rw [post_bind, post_bind, post_get, later, if_neg Bool.false_ne_true, post_pure, post_publicResult,
        post_bind]
      unfold Server.withEngine Server.withEndpoint Endpoint.withEngine
      rw [post_zoom, post_zoom]
      refine Post.mono received ?_ ?_
      · intro _ e good
        obtain ⟨only, calm⟩ := quiet e good
        have same := @Endpoint.Idle.settled s.endpoint e idle only calm
        unfold Server.makeProgress Server.progressLoop
        rw [post_bind, post_bind, post_get, post_bind]
        dsimp only
        rw [state]
        dsimp only [Server.State.makeProgress]
        unfold Server.awaitApplicationData Server.withEndpoint
        rw [post_bind, post_zoom]
        refine same.mono ?_ fun _ _ => False.elim
        rintro _ _ rfl
        rw [post_pure, if_pos rfl, post_pure, post_modify]
        unfold Server.commitVersion
        split
        · exact ⟨rfl, ⟨idle.events, idle.queued, idle.answered⟩, good⟩
        · exact ⟨rfl, ⟨idle.events, idle.queued, idle.answered⟩, good⟩
      · rintro _ e ⟨⟨reason, rfl⟩, good⟩
        exact ⟨state, ⟨idle.events, idle.queued, idle.answered⟩, good⟩

/-- A poll is one of the engine. -/
theorem pollOutput_engine {bufLen : Nat} {Q : Output → Engine → Prop} (connected : party.Connected)
    (idle : party.endpoint.Idle)
    (polled : Post (Engine.pollOutput bufLen party.endpoint.lastNow) party.engine Q fun _ _ => False) :
    Post (pollOutput bufLen) party
      (fun output party' => party'.Connected ∧ party'.endpoint.Idle ∧ Q output party'.engine)
      fun _ _ => False := by
  have step : Post (Endpoint.pollOutput bufLen) party.endpoint
      (fun output p' => p'.Idle ∧ Q output p'.engine) fun _ _ => False := by
    unfold Endpoint.pollOutput
    rw [post_bind, post_get, idle.events]
    dsimp only
    unfold Endpoint.withEngine
    rw [post_zoom]
    refine Post.mono polled ?_ fun _ _ => id
    intro output e holds
    exact ⟨⟨idle.events, idle.queued, idle.answered⟩, holds⟩
  rw [pollOutput, post_call]
  cases party with
  | client c =>
      unfold Client.pollOutput Client.withEndpoint
      dsimp only
      rw [post_zoom]
      refine Post.mono step ?_ fun _ _ => id
      exact fun output p' holds => ⟨connected, holds⟩
  | server s =>
      unfold Server.pollOutput Server.withEndpoint
      dsimp only
      rw [post_zoom]
      refine Post.mono step ?_ fun _ _ => id
      exact fun output p' holds => ⟨connected, holds⟩

end Calls

section Deliveries

variable {ch : Channel} {opened waiting : List Nat} {party : Party} {i : Nat}

/-- A connected side receives what comes through a channel. -/
theorem inbox (sound : ch.Sound) :
    Inbox ch.packets ch.base 16 64 ch.room (fun i => handlePacket (ch.datagrams.getD i []))
      (collect (pollOutput ch.bufLen) ch.polls) (Listens ch) where
  fresh := by
    intro opened waiting party i listens inside admitted short absent room
    have received : Post (receivePacket (ch.datagrams.getD i [])) party.engine
        (fun _ e => ch.Listens (opened ++ numbers ch.packets ch.base i) (waiting.orderedInsert (· ≤ ·) i) e)
        fun fault e => (∃ reason, fault = .transient reason) ∧
          ch.Listens (opened ++ numbers ch.packets ch.base i) (waiting.orderedInsert (· ≤ ·) i) e :=
      (receivePacket_fresh sound listens.engine inside admitted absent room).mono (fun _ _ got => got.2)
        fun _ _ lost => absurd short (Nat.not_le.mpr lost.1)
    have arrived := handlePacket_engine listens.connected listens.idle
      (fun e good => ⟨good.onlyData, good.calm⟩) received
    exact post_state.mp (arrived.mono (fun _ _ all => ⟨all.1, all.2.1, all.2.2⟩) fun _ _ => False.elim)
  long := by
    intro opened waiting party i listens inside admitted long absent room
    have received : Post (receivePacket (ch.datagrams.getD i [])) party.engine
        (fun _ e => ∃ part ⊆ numbers ch.packets ch.base i, ch.Listens (opened ++ part) waiting e)
        fun fault e => (∃ reason, fault = .transient reason) ∧
          ∃ part ⊆ numbers ch.packets ch.base i, ch.Listens (opened ++ part) waiting e :=
      (receivePacket_fresh sound listens.engine inside admitted absent room).mono
        (fun _ _ got => absurd got.1 (Nat.not_le.mpr long)) fun _ _ lost => ⟨⟨_, lost.2.1⟩, lost.2.2⟩
    have arrived := handlePacket_engine listens.connected listens.idle
      (by
        rintro e ⟨part, -, good⟩
        exact ⟨good.onlyData, good.calm⟩) received
    have state := post_state.mp (arrived.mono (fun _ _ all => all) fun _ _ => False.elim)
    obtain ⟨connected, idle, part, within, engine⟩ := state
    exact ⟨part, within, connected, idle, engine⟩
  stale := by
    intro opened waiting party i listens inside again
    have received : Post (receivePacket (ch.datagrams.getD i [])) party.engine
        (fun _ e => ch.Listens opened waiting e)
        fun fault e => (∃ reason, fault = .transient reason) ∧ ch.Listens opened waiting e :=
      (receivePacket_stale sound listens.engine inside again).mono (fun _ _ got => got) fun _ _ => False.elim
    have arrived := handlePacket_engine listens.connected listens.idle
      (fun e good => ⟨good.onlyData, good.calm⟩) received
    exact post_state.mp (arrived.mono (fun _ _ all => ⟨all.1, all.2.1, all.2.2⟩) fun _ _ => False.elim)
  drained := by
    intro opened waiting party listens
    have few := @start_add_le _ ch.packets 0 waiting listens.engine.sorted fun _ _ => Nat.zero_le _
    have polls := listens.engine.polls
    refine collect_post (I := fun data count party' => party'.Connected ∧ party'.endpoint.Idle ∧
        party.engine.HandsOut ch.bufLen data count party'.engine) ?_
      ⟨listens.connected, listens.idle, listens.engine.handsOut sound⟩ (by omega)
    rintro data count party' ⟨connected, idle, hands⟩
    refine (pollOutput_engine connected idle (pollOutput_handsOut hands)).mono ?_ fun _ _ => id
    rintro output party₁ ⟨connected₁, idle₁, polled⟩
    cases output with
    | applicationData payload =>
        obtain ⟨rest, split, hands₁⟩ := polled
        exact ⟨rest, split, connected₁, idle₁, hands₁⟩
    | timeout t =>
        obtain ⟨none, hands₁, empty⟩ := polled
        exact ⟨none, connected₁, idle₁, listens.engine.drained hands₁ empty⟩
    | packet | connected | peerCert | keyingMaterial | closeNotify =>
        obtain ⟨fewer, split, hands₁⟩ := polled
        exact ⟨fewer, split, connected₁, idle₁, hands₁⟩

/-- Data that a connected side sends is sealed by its engine at once. -/
theorem submit_engine {payloads : List Bytes} {epoch : Nat} {P : Engine → Prop} (connected : party.Connected)
    (isEpoch : party.engine.appSendEpoch = epoch)
    (sent : Post (submit (createCiphertextRecord .applicationData epoch false) payloads) party.engine
      (fun _ e => P e) fun _ _ => True) :
    Post (submit sendApplicationData payloads) party (fun _ party' => P party'.engine) fun _ _ => True := by
  induction payloads generalizing party with
  | nil => exact sent
  | cons payload rest inductionHypothesis =>
      unfold submit at sent ⊢
      rw [post_bind] at sent ⊢
      have same := @createUnsaved_unsent .applicationData epoch payload party.engine
      have sealed := sent.and (same.mono (fun _ _ kept => kept) fun _ _ _ => trivial)
      have whole : Post (sendApplicationData payload) party
          (fun _ party' => party'.Connected ∧ party'.engine.appSendEpoch = epoch ∧
            Post (submit (createCiphertextRecord .applicationData epoch false) rest) party'.engine
              (fun _ e => P e) fun _ _ => True) fun _ _ => True := by
        rw [sendApplicationData, post_call]
        cases party with
        | client c =>
            have state : c.state = .awaitApplicationData := connected
            have isEpoch : c.endpoint.engine.appSendEpoch = epoch := isEpoch
            unfold Client.sendApplicationData
            dsimp only
            rw [post_bind, post_get, if_neg (by rw [state]; decide), if_neg (not_not_intro state)]
            unfold Client.withEndpoint Endpoint.sendData Endpoint.withEngine
            rw [post_zoom, post_bind, post_get, post_zoom, isEpoch]
            refine Post.mono sealed ?_ fun _ _ _ => trivial
            rintro _ e ⟨later, kept⟩
            exact ⟨state, (congrArg Engine.appSendEpoch kept).trans isEpoch, later⟩
        | server s =>
            have state : s.state = .awaitApplicationData := connected
            have isEpoch : s.endpoint.engine.appSendEpoch = epoch := isEpoch
            unfold Server.sendApplicationData
            dsimp only
            rw [post_bind, post_get, if_neg (by rw [state]; decide), if_neg (not_not_intro state)]
            unfold Server.withEndpoint Endpoint.sendData Endpoint.withEngine
            rw [post_zoom, post_bind, post_get, post_zoom, isEpoch]
            refine Post.mono sealed ?_ fun _ _ _ => trivial
            rintro _ e ⟨later, kept⟩
            exact ⟨state, (congrArg Engine.appSendEpoch kept).trans isEpoch, later⟩
      refine whole.mono ?_ fun _ _ _ => trivial
      rintro _ party' ⟨connected', isEpoch', later⟩
      exact inductionHypothesis connected' isEpoch' later

end Deliveries

/-- A side that is connected with another one, whose keys it has, that received nothing of what the other
side sends from now on, has nothing to do and nothing in its queue. -/
structure Follows (sender receiver : Party) (suite : SupportedDtls13CipherSuite) (keys keys' : EpochKeys)
    (count : Nat) : Prop where
  connected : receiver.Connected
  idle : receiver.endpoint.Idle
  shares : Shares sender.engine receiver.engine suite keys keys' sender.engine.appSendEpoch
  later : sender.engine.appSendEpoch ≠ 0
  stands : receiver.engine.StandsFor sender.engine.appSendEpoch
  released : receiver.engine.releaseAppData = true
  opening : receiver.engine.closeNotifySequence = none
  calm : receiver.engine.needsKeyUpdate = false
  empty : receiver.engine.queueRx = []
  unseen : ∀ n ≥ sender.engine.nextSeq sender.engine.appSendEpoch,
    receiver.engine.replayCheck ⟨sender.engine.appSendEpoch, n⟩ = true
  behind : receiver.engine.expectedRecvSeq sender.engine.appSendEpoch ≤
    sender.engine.nextSeq sender.engine.appSendEpoch
  near : sender.engine.nextSeq sender.engine.appSendEpoch + count <
    receiver.engine.expectedRecvSeq sender.engine.appSendEpoch + 32768

/-- What one side sends and the other side gets, datagram by datagram in rounds, each followed by a drain. -/
def receive (bufLen polls : Nat) (datagrams : List Bytes) (rounds : List (List Nat)) :
    EStateM Fault Party (List (List Bytes)) :=
  play (fun i => handlePacket (datagrams.getD i [])) (collect (pollOutput bufLen) polls) rounds

end Party

end Dtls13

namespace Dtls13.Party

/-- A client that is connected. -/
def sampleSender : Party :=
  .client { Client.newWithEngine (Protection.sender 5) (Sample.rng 0) 0 with state := .awaitApplicationData }

/-- The server on the other side. -/
def sampleReceiver : Party :=
  .server { Server.newWithEngine { Protection.receiver 5 with releaseAppData := true } (Sample.rng 0) 0 false with
    state := .awaitApplicationData }

/-- The client once it sent two payloads. -/
def sampleSent : Party := finalState (submit sendApplicationData [[104, 105], [7]]) sampleSender

theorem follows_sample : sampleSender.Follows sampleReceiver Sample.suite13 Protection.keys Protection.keys 2 where
  connected := rfl
  idle := ⟨rfl, rfl, rfl⟩
  shares := { @Protection.shares 5 (by decide) (by decide) with }
  later := by decide
  stands := .inr ⟨fun _ => rfl, by decide⟩
  released := rfl
  opening := rfl
  calm := rfl
  empty := rfl
  unseen := by
    intro n _
    change ReplayWindow.new.check n = true
    unfold ReplayWindow.check ReplayWindow.new
    simp
  behind := by decide
  near := by decide

end Dtls13.Party

end Dimpl
