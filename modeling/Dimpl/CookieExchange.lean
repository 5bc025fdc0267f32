import Dimpl.Dtls12.Conduct
import Dimpl.Dtls12.Engine.Counters
import Dimpl.Sample

/-!
# The cookie exchange of DTLS 1.2

A server that wants a cookie answers a hello without one and forgets it. It does not forget
that it has counted the hello and its answer.
-/

namespace Dimpl

open Nom Program

namespace Dtls12

/-- An engine in front of a hello, after a number of requests for a cookie. -/
structure Engine.Waits (asked : Nat) (e : Engine) : Prop where
  peer : e.peerHandshakeSeqNo = asked % 65536
  next : e.nextHandshakeSeqNo = asked % 65536
  transcript : e.transcript = []
  queueRx : e.queueRx = []
  cipherSuite : e.cipherSuite = none
  plain : e.peerEncryptionEnabled = false
  unreleased : e.releaseAppData = false

section Engines

variable {e e' : Engine} {asked : Nat}

theorem Engine.Waits.of_posture (waits : e.Waits asked) (posture : e'.posture = e.posture)
    (queueRx : e'.queueRx = []) : e'.Waits asked where
  peer := (congrArg Posture.peerHandshakeSeqNo posture).trans waits.peer
  next := (congrArg Posture.nextHandshakeSeqNo posture).trans waits.next
  transcript := (congrArg Posture.transcript posture).trans waits.transcript
  queueRx := queueRx
  cipherSuite := (congrArg Posture.cipherSuite posture).trans waits.cipherSuite
  plain := (congrArg Posture.peerEncryptionEnabled posture).trans waits.plain
  unreleased := (congrArg Posture.releaseAppData posture).trans waits.unreleased

theorem createHandshake_public {type : MessageType} {writeBody : EngineM Bytes}
    (builds : Throws Fault.Public writeBody) :
    Throws Fault.Public (createHandshake type writeBody) := by
  have inner : ∀ {α : Type} {program : EngineM α}, Throws Fault.Inner program →
      Throws Fault.Public program := fun throws => throws_mono throws fun _ inner => inner.isPublic
  have fragments : ∀ header epoch overhead body fuel offset,
      Throws Fault.Public (createFragments header epoch overhead body fuel offset) := by
    intro header epoch overhead body fuel
    induction fuel with
    | zero => exact fun _ => throws_throw trivial
    | succ fuel inductionHypothesis =>
        intro offset
        refine throws_ite (throws_bind throws_get fun e => ?_) throws_pure
        exact throws_bind (inner createRecordInner_inner) fun _ =>
          throws_runIf (inductionHypothesis _)
  refine throws_bind builds fun body => throws_bind throws_get fun e => ?_
  refine throws_bind throws_set fun _ => throws_bind ?_ fun _ => fragments _ _ _ _ _ _
  refine throws_ite (throws_bind (inner selectedCipherSuite_inner) fun _ => ?_) throws_pure
  exact throws_bind throws_get fun _ => throws_pure

/-- A message is numbered and told; what was received stays. -/
theorem createHandshake_told {type : MessageType} {writeBody : EngineM Bytes}
    (readOnly : ReadOnly writeBody) :
    Post (createHandshake type writeBody) e
      (fun _ e' => e'.queueRx = e.queueRx ∧ ∃ body, e'.posture =
        { e.posture with
          transcript := e.transcript ++ transcriptMessage type e.nextHandshakeSeqNo body
          nextHandshakeSeqNo := (e.nextHandshakeSeqNo + 1) % 65536 })
      (fun _ _ => True) := by
  unfold createHandshake
  rw [post_bind]
  refine (readOnly e).mono (fun body e₁ same => ?_) fun _ _ _ => trivial
  cases same
  rw [post_bind, post_get]
  dsimp only
  rw [post_bind, post_set, post_bind]
  refine (handshakeOverhead_readOnly _).mono (fun overhead e₂ same => ?_) fun _ _ _ => trivial
  cases same
  refine (createFragments_standing _).mono (fun _ e' same => ?_) fun _ _ _ => trivial
  exact ⟨congrArg Prod.snd same, body, congrArg Prod.fst same⟩

/-- There is nothing to take from an empty queue. -/
theorem nextHandshake_empty {wanted : MessageType} (empty : e.queueRx = []) :
    nextHandshake wanted e = .ok none e := by
  have nothing : e.hasCompleteHandshake wanted = false := by
    unfold Engine.hasCompleteHandshake Engine.scanFragments Engine.rxRecords
    rw [empty]
    rfl
  unfold nextHandshake
  simp only [bind, EStateM.bind, run_get, nothing]
  rfl

/-- A message that is taken is the next one of the peer. -/
theorem nextHandshake_counted {wanted : MessageType} :
    Post (nextHandshake wanted) e
      (fun found e' => found = none ∧ e' = e ∨ ∃ message, found = some message ∧
        e'.peerHandshakeSeqNo = (e.peerHandshakeSeqNo + 1) % 65536 ∧
        e'.nextHandshakeSeqNo = e.nextHandshakeSeqNo ∧ e'.cipherSuite = e.cipherSuite ∧
        e'.peerEncryptionEnabled = e.peerEncryptionEnabled ∧ e'.releaseAppData = e.releaseAppData ∧
        e'.config = e.config)
      (fun _ _ => True) := by
  unfold nextHandshake
  rw [post_bind, post_get, post_ite]
  refine ⟨fun complete => ?_, fun _ => .inl ⟨rfl, rfl⟩⟩
  split
  · trivial
  · rename_i first rest queued
    have isNext := complete_isNext complete queued
    unfold defragment
    rw [post_bind, post_bind, post_get]
    dsimp only
    rw [post_bind, post_set, post_ite]
    refine ⟨fun _ => trivial, fun whole => ?_⟩
    rw [post_bind, post_modify]
    split
    · trivial
    · rw [post_ite]
      refine ⟨fun _ => trivial, fun _ => ?_⟩
      rw [post_pure, post_bind, post_modify, post_pure]
      exact .inr ⟨_, rfl, isNext ▸ rfl, rfl, rfl, rfl, rfl, rfl⟩

end Engines

/-- A datagram that holds one whole hello of the client, in one record in the clear. -/
structure Hello (datagram : Bytes) (messageSeq : Nat) (body : Bytes) (hello : ClientHello) (r : Record)
    (fragment : Fragment) : Prop where
  alone : recordEnd datagram = some datagram.length
  record : Record.ofBuffer datagram 0 = .ok r
  plain : r.sequence.epoch = 0
  handshakes : r.handshakes = [fragment]
  unread : fragment.handled = false
  type : fragment.header.msgType = .clientHello
  messageSeq : fragment.header.messageSeq = messageSeq
  start : fragment.header.fragmentOffset = 0
  whole : fragment.header.fragmentLength = fragment.header.length
  bytes : slice r.buffer fragment.range = body
  length : body.length = fragment.header.length
  parsed : ∃ rest, Nom.parse (Body.parse 0 .clientHello none) body = .ok (.clientHello hello, rest)

section Receiving

variable {e : Engine} {asked messageSeq : Nat} {datagram body : Bytes} {hello : ClientHello}
  {r : Record} {fragment : Fragment}

theorem Hello.handshake (isHello : Hello datagram messageSeq body hello r fragment) :
    r.record.contentType = .handshake := by
  have parsed := isHello.record
  unfold Record.ofBuffer at parsed
  cases header : Nom.parse (DTLSRecord.parse 0 0) datagram with
  | error err =>
      rw [header] at parsed
      cases parsed
  | ok found =>
      rw [header] at parsed
      cases parsed
      have holds := isHello.handshakes
      unfold Record.ofHeader at holds ⊢
      dsimp only at holds ⊢
      split at holds
      · rename_i isHandshake
        exact isHandshake
      · cases holds

theorem Hello.classified (isHello : Hello datagram messageSeq body hello r fragment)
    (plain : e.peerEncryptionEnabled = false) : classifyRecord r e = .ok (some r) e := by
  have type := isHello.handshake
  have notData : decide (ContentType.handshake = .applicationData) = false := rfl
  unfold classifyRecord
  simp only [bind, EStateM.bind, run_get, type, plain, notData,
    Bool.and_false]
  rfl

/-- The records of the datagram. -/
theorem Hello.records (isHello : Hello datagram messageSeq body hello r fragment)
    (plain : e.peerEncryptionEnabled = false) : parseRecords datagram e = .ok [r] e := by
  have one : parseRecord (datagram.take datagram.length) e = .ok (some r) e := by
    rw [List.take_length]
    unfold parseRecord
    simp only [bind, EStateM.bind, run_get, isHello.record,
      isHello.plain, decide_true, Bool.true_or, if_true]
    rfl
  have positive : 0 < datagram.length := by
    have ends := isHello.alone
    unfold recordEnd at ends
    split at ends
    · cases ends
    · rename_i long
      have header : DTLSRecord.headerLen = 13 := rfl
      omega
  have loop : parseRecordsLoop datagram.length datagram [] e = .ok [r] e := by
    obtain ⟨fuel, isFuel⟩ := Nat.exists_eq_succ_of_ne_zero (Nat.ne_of_gt positive)
    have notEmpty : datagram.isEmpty = false := by
      rw [List.isEmpty_eq_false_iff]
      exact List.ne_nil_of_length_pos positive
    have rest : parseRecordsLoop fuel (datagram.drop datagram.length) [r] e = .ok [r] e := by
      rw [List.drop_length]
      cases fuel <;> rfl
    rw [isFuel, parseRecordsLoop, notEmpty]
    simp only [Bool.false_eq_true, if_false, isHello.alone]
    simp only [bind, EStateM.bind, one]
    exact rest
  have classified : classifyRecords [r] e = .ok [r] e := by
    unfold classifyRecords classifyRecords
    simp only [bind, EStateM.bind, isHello.classified plain]
    rfl
  unfold parseRecords
  simp only [bind, EStateM.bind, loop, classified]

/-- A hello that is not stale is queued; it may have to wait. -/
theorem Hello.received (isHello : Hello datagram messageSeq body hello r fragment)
    (waits : e.Waits asked) :
    Post (receivePacket datagram) e
      (fun _ e' => e'.queueRx = if messageSeq < e.peerHandshakeSeqNo then [] else [⟨r, []⟩])
      (fun _ _ => messageSeq < e.peerHandshakeSeqNo ∨ e.config.maxQueueRx = 0) := by
  unfold receivePacket parsePacket
  rw [post_bind, post_modify, post_bind]
  have records : Post (parseRecords datagram) (e.logEvent (.received datagram))
      (fun records e' => records = [r] ∧ e' = e.logEvent (.received datagram)) (fun _ _ => False) := by
    have plain : (e.logEvent (.received datagram)).peerEncryptionEnabled = false := waits.plain
    rw [Post, isHello.records plain]
    exact ⟨rfl, rfl⟩
  refine records.mono ?_ fun _ _ never => never.elim
  rintro _ _ ⟨rfl, rfl⟩
  have first : r.firstHandshake = some fragment := by
    rw [Record.firstHandshake, isHello.handshakes, List.head?_cons]
  have dupe : fragment.dupeTriggersResend = some messageSeq := by
    unfold Fragment.dupeTriggersResend
    rw [isHello.type, isHello.start, isHello.messageSeq]
    rfl
  have empty : (e.logEvent (.received datagram)).queueRx = [] := waits.queueRx
  simp only [Incoming.ofRecords]
  unfold insertIncoming
  rw [post_bind, post_get, post_ite]
  refine ⟨fun full => .inr ?_, fun _ => ?_⟩
  · rw [empty] at full
    exact Nat.le_zero.mp full
  · simp only [first]
    unfold insertIncomingHandshake
    rw [post_bind, post_get, post_bind]
    by_cases stale : messageSeq < e.peerHandshakeSeqNo
    · -- The request may be sent again.
      rw [if_pos stale]
      refine (along_runIf (fun _ => flightResend_standing) _).mono (fun _ e₁ same => ?_)
        fun _ _ _ => .inl stale
      have peer : e₁.peerHandshakeSeqNo = e.peerHandshakeSeqNo :=
        congrArg Posture.peerHandshakeSeqNo (congrArg Prod.fst same)
      rw [post_bind, post_get]
      simp only [isHello.messageSeq, peer, if_pos stale]
      exact (congrArg Prod.snd same).trans waits.queueRx
    · rw [if_neg stale, post_runIf]
      have calm : (((Incoming.records ⟨r, []⟩).filterMap Record.firstHandshake).filterMap
          Fragment.dupeTriggersResend).head?.any (fun seq =>
            seq < (e.logEvent (.received datagram)).peerHandshakeSeqNo &&
              !(e.logEvent (.received datagram)).peerHandshakeConfirmed) = false := by
        simp only [Incoming.records, List.filterMap_cons, first, dupe, List.filterMap_nil,
          List.head?_cons, Option.any_some]
        have same : (e.logEvent (.received datagram)).peerHandshakeSeqNo = e.peerHandshakeSeqNo := rfl
        rw [same, decide_eq_false stale, Bool.false_and]
      refine ⟨fun due => ?_, fun _ => ?_⟩
      · rw [calm] at due
        cases due
      · have plain : (e.logEvent (.received datagram)).peerEncryptionEnabled = false := waits.plain
        have unreleased : (e.logEvent (.received datagram)).releaseAppData = false := waits.unreleased
        have fresh : ¬messageSeq < (e.logEvent (.received datagram)).peerHandshakeSeqNo := stale
        rw [post_bind, post_get]
        simp only [isHello.messageSeq, if_neg fresh, plain, unreleased, Bool.false_and,
          Bool.false_eq_true, if_false]
        split
        · rename_i index missed
          rw [empty] at missed
          have isFirst : index = 0 := Nat.le_zero.mp (Search.DequeSearch.searchBy_error missed)
          rw [post_set, isFirst]
          simp only [empty, List.insertIdx_zero]
        · rename_i index hit
          rw [empty] at hit
          obtain ⟨item, found, _⟩ := Search.DequeSearch.searchBy_ok hit
          cases found

/-- What reassembly sees of the hello. -/
theorem Hello.scanned (isHello : Hello datagram messageSeq body hello r fragment)
    (queued : e.queueRx = [⟨r, []⟩]) :
    e.scanFragments = [fragment] ∧ e.unhandledFragments = [(fragment, r.buffer)] := by
  have unhandled : r.isHandled = false := by
    unfold Record.isHandled
    rw [isHello.handshakes]
    simp [isHello.unread]
  have records : e.rxRecords.dropWhile Record.isHandled = [r] := by
    unfold Engine.rxRecords
    simp [queued, Incoming.records, unhandled]
  constructor
  · unfold Engine.scanFragments
    rw [records]
    simp [maxDefragmentPackets, isHello.handshakes, isHello.unread]
  · unfold Engine.unhandledFragments
    rw [records]
    simp [isHello.handshakes, isHello.unread]

theorem Hello.complete_iff (isHello : Hello datagram messageSeq body hello r fragment)
    (queued : e.queueRx = [⟨r, []⟩]) :
    e.hasCompleteHandshake .clientHello = true ↔ messageSeq = e.peerHandshakeSeqNo := by
  unfold Engine.hasCompleteHandshake
  rw [(isHello.scanned queued).1]
  simp [isHello.type, isHello.messageSeq, contiguous, isHello.start, isHello.whole]

/-- A hello that is the next message is taken and stands in the transcript. -/
theorem Hello.taken (isHello : Hello datagram messageSeq body hello r fragment)
    (queued : e.queueRx = [⟨r, []⟩]) (isNext : messageSeq = e.peerHandshakeSeqNo)
    (cipherSuite : e.cipherSuite = none) :
    Post (nextHandshake .clientHello) e
      (fun found e' => (∃ header, found = some (⟨header, .clientHello hello⟩, body)) ∧
        e'.transcript = e.transcript ++ transcriptMessage .clientHello messageSeq body ∧
        e'.nextHandshakeSeqNo = e.nextHandshakeSeqNo ∧ e'.config = e.config)
      (fun _ _ => False) := by
  obtain ⟨rest, parsed⟩ := isHello.parsed
  have told : { fragment.header with fragmentOffset := 0, fragmentLength := fragment.header.length }.serializeFragment
      body = transcriptMessage .clientHello messageSeq body := by
    unfold transcriptMessage
    rw [← isHello.type, ← isHello.messageSeq, isHello.length]
  unfold nextHandshake
  rw [post_bind, post_get, if_pos ((isHello.complete_iff queued).mpr isNext), (isHello.scanned queued).2]
  dsimp only
  unfold defragment
  rw [post_bind, post_bind, post_get]
  simp only [takenFragments, List.takeWhile_nil, List.flatMap_cons, List.flatMap_nil, List.append_nil,
    isHello.bytes, told]
  rw [post_bind, post_set, if_neg (not_not.mpr isHello.length), post_bind, post_modify, isHello.type,
    cipherSuite, parsed]
  dsimp only
  have notFinished : decide (MessageType.clientHello = .finished) = false := rfl
  rw [notFinished, Bool.and_false, if_neg Bool.false_ne_true, post_pure, post_bind, post_modify, post_pure]
  exact ⟨⟨_, rfl⟩, rfl, rfl, rfl⟩

end Receiving

/-- A server that waits for a hello with a cookie, after a number of requests for one. -/
structure Server.Waits (asked : Nat) (s : Server) : Prop where
  state : s.state = .awaitClientHello
  engine : s.engine.Waits asked
  cookie : s.engine.config.useServerCookie = true
  room : asked ≠ 0 → 0 < s.engine.config.maxQueueRx

/-- A datagram completes a hello without a valid cookie, and the server answers. -/
structure Server.Requests (datagram : Bytes) (s s' : Server) : Prop where
  handled : Server.handlePacket datagram s = .ok () s'
  hello : ∃ e₁ e₂ header hello buffer, receivePacket datagram s.engine = .ok () e₁ ∧
    nextHandshake .clientHello e₁ = .ok (some (⟨header, .clientHello hello⟩, buffer)) e₂ ∧
    Server.verifyCookie s.engine.config.cryptoProvider s.cookieSecret hello.random hello.cookie = false

/-- A server that has answered a number of hellos without a valid cookie. Time passes and
its answers are taken. -/
inductive Server.Asked (start : Server) : Nat → Server → Prop where
  | start : Asked start 0 start
  | request {asked : Nat} {s s' : Server} {datagram : Bytes} (before : Asked start asked s)
      (requests : Server.Requests datagram s s') : Asked start (asked + 1) s'
  | poll {asked bufLen : Nat} {s : Server} (before : Asked start asked s) :
      Asked start asked (s.exec (.pollOutput bufLen))
  | timeout {asked : Nat} {s : Server} {now : Instant} (before : Asked start asked s) :
      Asked start asked (s.exec (.handleTimeout now))

section Servers

variable {s s' : Server} {asked : Nat} {datagram : Bytes}

/-- The answer to a hello without a valid cookie. -/
theorem Server.sendHelloVerifyRequest_waits {clientRandom : Random}
    (state : s.state = .awaitClientHello)
    (peer : s.engine.peerHandshakeSeqNo = (asked + 1) % 65536)
    (next : s.engine.nextHandshakeSeqNo = asked % 65536) (cipherSuite : s.engine.cipherSuite = none)
    (plain : s.engine.peerEncryptionEnabled = false) (unreleased : s.engine.releaseAppData = false) :
    Post (Server.sendHelloVerifyRequest clientRandom) s
      (fun next s' => next = .awaitClientHello ∧ s'.state = .awaitClientHello ∧
        s'.engine.Waits (asked + 1) ∧ s'.engine.config = s.engine.config)
      (fun fault _ => fault.Public) := by
  unfold Server.sendHelloVerifyRequest
  rw [post_bind, post_get, post_bind, post_liftCrypto]
  refine ⟨fun cookie _ => ?_, fun _ _ => trivial⟩
  unfold Server.withEngine
  rw [post_bind, post_zoom, post_modify, post_bind, post_zoom]
  have told := @createHandshake_told s.engine.flightBegin .helloVerifyRequest
    (pure (HelloVerifyRequest.serialize ⟨.dtls10, cookie⟩)) along_pure
  have failed : Throws Fault.Public (createHandshake .helloVerifyRequest
      (pure (HelloVerifyRequest.serialize ⟨.dtls10, cookie⟩))) := createHandshake_public throws_pure
  refine (told.and (failed _)).mono (fun _ e₁ created => ?_) fun _ _ failed => failed.2
  obtain ⟨⟨_, _, posture⟩, _⟩ := created
  rw [post_bind, post_zoom, post_modify, post_pure]
  have counted : e₁.nextHandshakeSeqNo = (s.engine.nextHandshakeSeqNo + 1) % 65536 :=
    congrArg Posture.nextHandshakeSeqNo posture
  refine ⟨rfl, state, ?_, congrArg Posture.config posture⟩
  exact
    { peer := (congrArg Posture.peerHandshakeSeqNo posture).trans peer
      next := by
        refine counted.trans ?_
        rw [next]
        omega
      transcript := rfl
      queueRx := rfl
      cipherSuite := (congrArg Posture.cipherSuite posture).trans cipherSuite
      plain := (congrArg Posture.peerEncryptionEnabled posture).trans plain
      unreleased := (congrArg Posture.releaseAppData posture).trans unreleased }

/-- An empty queue without room stays empty. -/
theorem receivePacket_noRoom {e : Engine} (noRoom : e.config.maxQueueRx = 0) :
    Post (receivePacket datagram) e (fun _ e' => e'.queueRx = e.queueRx) (fun _ _ => True) := by
  unfold receivePacket parsePacket parseRecords
  rw [post_bind, post_modify, post_bind, post_bind]
  refine (parseRecordsLoop_sameRx _).mono (fun parsed e₁ same₁ => ?_) fun _ _ _ => trivial
  refine (classifyRecords_sameRx _).mono (fun records e₂ same₂ => ?_) fun _ _ _ => trivial
  have queue : e₂.queueRx = e.queueRx := same₂.queue.trans same₁.queue
  have config : e₂.config.maxQueueRx = 0 := by
    rw [same₂.config, same₁.config]
    exact noRoom
  split
  · exact queue
  · unfold insertIncoming
    rw [post_bind, post_get, post_ite]
    refine ⟨fun _ => trivial, fun notFull => absurd ?_ notFull⟩
    rw [config]
    exact Nat.zero_le _

/-- A hello without a valid cookie is answered with a request, unless it is refused. -/
theorem Server.handleClientHello_waits {hello : ClientHello} {buffer : Bytes}
    (cookie : s.engine.config.useServerCookie = true)
    (invalid : Server.verifyCookie s.engine.config.cryptoProvider s.cookieSecret hello.random
      hello.cookie = false)
    (state : s.state = .awaitClientHello)
    (peer : s.engine.peerHandshakeSeqNo = (asked + 1) % 65536)
    (next : s.engine.nextHandshakeSeqNo = asked % 65536) (cipherSuite : s.engine.cipherSuite = none)
    (plain : s.engine.peerEncryptionEnabled = false) (unreleased : s.engine.releaseAppData = false) :
    Post (Server.handleClientHello hello buffer) s
      (fun next s' => next = .awaitClientHello ∧ s'.state = .awaitClientHello ∧
        s'.engine.Waits (asked + 1) ∧ s'.engine.config = s.engine.config)
      (fun fault _ => fault.Public) := by
  unfold Server.handleClientHello
  rw [post_bind, post_get, post_ite]
  refine ⟨fun _ => trivial, fun _ => ?_⟩
  rw [post_ite]
  refine ⟨fun _ => trivial, fun _ => ?_⟩
  rw [cookie, invalid, Bool.not_false, Bool.and_true, if_pos rfl]
  exact Server.sendHelloVerifyRequest_waits state peer next cipherSuite plain unreleased

/-- A hello that a datagram completes is handled, and the loop goes on from there. -/
theorem Server.handlePacket_hello {Q : Unit → Server → Prop} {E : Fault → Server → Prop}
    {e₁ e₂ : Engine} {header : Header} {hello : ClientHello} {buffer : Bytes}
    (isState : s.state = .awaitClientHello) (received : receivePacket datagram s.engine = .ok () e₁)
    (taken : nextHandshake .clientHello e₁ = .ok (some (⟨header, .clientHello hello⟩, buffer)) e₂)
    (handled : Post (Server.handleClientHello hello buffer) { s with engine := e₂ }
      (fun next s₁ => if next = .awaitClientHello then Q () s₁ else
        Post (publicResult (Server.progressLoop 19)) { s₁ with state := next } Q E)
      (fun fault s' => match fault with | .transient _ => Q () s' | fault => E fault s')) :
    Post (Server.handlePacket datagram) s Q E := by
  obtain ⟨state⟩ := s
  cases isState
  unfold Server.handlePacket Server.withEngine
  rw [post_publicResult, post_bind, post_zoom, Post, received]
  dsimp only
  unfold Server.makeProgress Server.progressLoop
  rw [post_bind, post_get, post_bind]
  unfold Server.State.makeProgress Server.awaitClientHello Server.onHandshake Server.withEngine
  rw [post_bind, post_zoom, Post, taken]
  dsimp only
  refine handled.mono (fun next s₁ after => ?_) fun _ _ failed => failed
  rw [post_ite]
  refine ⟨fun stays => ?_, fun moves => ?_⟩
  · rwa [if_pos stays] at after
  · rw [if_neg moves, post_publicResult] at after
    rwa [post_bind, post_modify]

/-- One more request. -/
theorem Server.Requests.waits (requests : Server.Requests datagram s s') (waits : s.Waits asked) :
    s'.Waits (asked + 1) := by
  obtain ⟨e₁, e₂, header, hello, buffer, received, taken, invalid⟩ := requests.hello
  have posture := @receivePacket_posture datagram s.engine
  rw [Post, received] at posture
  have counted := @nextHandshake_counted e₁ .clientHello
  rw [Post, taken] at counted
  obtain ⟨none, _⟩ | ⟨message, _, peer, next, suite, plain, unreleased, config⟩ := counted
  · cases none
  have same : e₁.config = s.engine.config := congrArg Posture.config posture
  have room : 0 < s.engine.config.maxQueueRx := by
    refine Nat.pos_of_ne_zero fun noRoom => ?_
    have empty := @receivePacket_noRoom datagram s.engine noRoom
    rw [Post, received] at empty
    rw [nextHandshake_empty (empty.trans waits.engine.queueRx)] at taken
    cases taken
  have outcome : Post (Server.handlePacket datagram) s (fun _ s' => s'.Waits (asked + 1))
      (fun _ _ => True) := by
    have peerNow : e₂.peerHandshakeSeqNo = (asked + 1) % 65536 := by
      have before : e₁.peerHandshakeSeqNo = asked % 65536 :=
        (congrArg Posture.peerHandshakeSeqNo posture).trans waits.engine.peer
      rw [peer, before]
      omega
    have sameConfig : e₂.config = s.engine.config := config.trans same
    have answered := @Server.handleClientHello_waits { s with engine := e₂ } asked hello buffer
      ((congrArg Config.useServerCookie sameConfig).trans waits.cookie)
      (by rw [sameConfig]; exact invalid) waits.state peerNow
      ((next.trans (congrArg Posture.nextHandshakeSeqNo posture)).trans waits.engine.next)
      ((suite.trans (congrArg Posture.cipherSuite posture)).trans waits.engine.cipherSuite)
      ((plain.trans (congrArg Posture.peerEncryptionEnabled posture)).trans waits.engine.plain)
      ((unreleased.trans (congrArg Posture.releaseAppData posture)).trans waits.engine.unreleased)
    refine Server.handlePacket_hello waits.state received taken
      (answered.mono ?_ fun fault _ isPublic => ?_)
    · rintro _ s₁ ⟨rfl, state, engine, kept⟩
      have configNow : s₁.engine.config = s.engine.config := kept.trans sameConfig
      rw [if_pos rfl]
      exact ⟨state, engine, configNow ▸ waits.cookie, fun _ => configNow ▸ room⟩
    · cases fault with
      | transient reason => exact isPublic.elim
      | fatal reason => trivial
      | panic site => trivial
  rwa [Post, requests.handled] at outcome

/-- A poll hands out what there is. -/
theorem Engine.pollOutput_waits {e : Engine} {bufLen : Nat} {now : Instant} (waits : e.Waits asked) :
    Post (Engine.pollOutput bufLen now) e (fun _ e' => e'.Waits asked ∧ e'.config = e.config)
      (fun _ e' => e'.Waits asked ∧ e'.config = e.config) := by
  have empty : Post (Engine.pollOutput bufLen now) e (fun _ e' => e'.queueRx = [])
      (fun _ e' => e'.queueRx = []) := by
    have purged : e.purgeHandledQueueRx.queueRx = [] := by
      unfold Engine.purgeHandledQueueRx
      rw [waits.queueRx]
      rfl
    unfold Engine.pollOutput pollAppData pollPacketTx
    rw [post_bind, post_modify, post_bind, post_bind, post_get, post_ite]
    refine ⟨fun _ => ?_, fun isReleased => ?_⟩
    · rw [post_pure, post_bind, post_bind, post_get]
      split
      · rw [post_pure, post_bind, post_get, post_ite]
        exact ⟨fun _ => purged, fun _ => purged⟩
      · rw [post_bind, post_set, post_ite]
        exact ⟨fun _ => purged, fun _ => purged⟩
    · have unreleased : e.purgeHandledQueueRx.releaseAppData = false := waits.unreleased
      rw [unreleased] at isReleased
      exact absurd rfl isReleased
  refine (empty.and (pollOutput_posture e)).mono ?_ ?_
  all_goals
    rintro _ e' ⟨queue, posture⟩
    exact ⟨waits.of_posture posture queue, congrArg Posture.config posture⟩

/-- A timeout sends the request again or gives up. -/
theorem Engine.handleTimeout_waits {e : Engine} {now : Instant} (waits : e.Waits asked) :
    Post (Engine.handleTimeout now) e (fun _ e' => e'.Waits asked ∧ e'.config = e.config)
      (fun _ e' => e'.Waits asked ∧ e'.config = e.config) := by
  have timed : ∀ e' : Engine, e'.standing.1 = { e.posture with clock := e'.clock } → e'.queueRx = [] →
      e'.Waits asked ∧ e'.config = e.config := by
    intro e' posture queue
    exact ⟨⟨(congrArg Posture.peerHandshakeSeqNo posture).trans waits.peer,
      (congrArg Posture.nextHandshakeSeqNo posture).trans waits.next,
      (congrArg Posture.transcript posture).trans waits.transcript, queue,
      (congrArg Posture.cipherSuite posture).trans waits.cipherSuite,
      (congrArg Posture.peerEncryptionEnabled posture).trans waits.plain,
      (congrArg Posture.releaseAppData posture).trans waits.unreleased⟩,
      congrArg Posture.config posture⟩
  unfold Engine.handleTimeout
  rw [post_bind, post_modify, post_bind, post_get, post_ite]
  have armed := timed (e.armTimers now) rfl waits.queueRx
  refine ⟨fun _ => armed, fun _ => ?_⟩
  split
  · unfold retransmit
    rw [post_ite]
    refine ⟨fun _ => armed, fun _ => ?_⟩
    rw [post_bind, post_get, post_ite]
    refine ⟨fun _ => ?_, fun _ => armed⟩
    dsimp only
    rw [post_bind, post_set]
    refine (flightResend_standing _).mono (fun _ e' same => ?_) fun _ e' same => ?_
    all_goals
      refine timed e' ?_ ((congrArg Prod.snd same).trans waits.queueRx)
      rw [congrArg Prod.fst same]
      have clock : e'.clock = _ := congrArg Posture.clock (congrArg Prod.fst same)
      rw [clock]
      rfl
  · exact armed

theorem Server.Waits.of_engine (waits : s.Waits asked) (state : s'.state = s.state)
    (engine : s'.engine.Waits asked ∧ s'.engine.config = s.engine.config) : s'.Waits asked where
  state := state.trans waits.state
  engine := engine.1
  cookie := (congrArg Config.useServerCookie engine.2).trans waits.cookie
  room := fun some => by
    rw [engine.2]
    exact waits.room some

theorem Server.Waits.polled {bufLen : Nat} (waits : s.Waits asked) :
    (s.exec (.pollOutput bufLen)).Waits asked := by
  have outcome : Post (Server.pollOutput bufLen) s (fun _ s' => s'.Waits asked)
      (fun _ s' => s'.Waits asked) := by
    unfold Server.pollOutput
    rw [post_bind, post_get]
    split
    · rename_i event rest queued
      rw [post_bind, post_set]
      have told : ({ s with localEvents := rest } : Server).Waits asked :=
        waits.of_engine rfl ⟨waits.engine, rfl⟩
      refine (LocalEvent.intoOutput_readOnly _).mono ?_ ?_
      all_goals
        rintro _ _ rfl
        exact told
    · unfold Server.withEngine
      rw [post_zoom]
      exact (Engine.pollOutput_waits waits.engine).mono (fun _ _ kept => waits.of_engine rfl kept)
        fun _ _ kept => waits.of_engine rfl kept
  refine post_state.mp (?_ : Post (do let _ ← Server.pollOutput bufLen) s _ _)
  rw [post_bind]
  exact outcome

/-- With nothing received there is nothing to handle. -/
theorem Server.Waits.idle (waits : s.Waits asked) : Server.makeProgress s = .ok () s := by
  obtain ⟨state⟩ := s
  cases waits.state
  unfold Server.makeProgress Server.progressLoop Server.State.makeProgress Server.awaitClientHello
    Server.onHandshake Server.withEngine zoom
  simp only [bind, EStateM.bind, run_get,
    nextHandshake_empty waits.engine.queueRx]
  rfl

theorem Server.Waits.timed {now : Instant} (waits : s.Waits asked) :
    (s.exec (.handleTimeout now)).Waits asked := by
  have outcome : Post (Server.handleTimeout now) s (fun _ s' => s'.Waits asked)
      (fun _ s' => s'.Waits asked) := by
    have drawn : Post (Server.initRandom now) { s with lastNow := now } (fun _ s' => s'.Waits asked)
        (fun _ _ => False) := by
      unfold Server.initRandom
      rw [post_bind, post_get]
      split
      · exact waits.of_engine rfl ⟨waits.engine, rfl⟩
      · unfold Server.withEngine newRandom randomArr
        simp only [post_bind, post_zoom, post_get, post_set, post_pure, post_modify]
        have engine := waits.engine
        exact waits.of_engine rfl ⟨⟨engine.peer, engine.next, engine.transcript, engine.queueRx,
          engine.cipherSuite, engine.plain, engine.unreleased⟩, rfl⟩
    unfold Server.handleTimeout
    rw [post_bind, post_modify, post_bind]
    refine drawn.mono (fun _ s₁ waits₁ => ?_) fun _ _ never => never.elim
    rw [post_bind]
    unfold Server.withEngine
    rw [post_zoom]
    refine (Engine.handleTimeout_waits waits₁.engine).mono (fun _ e kept => ?_) fun _ e kept => ?_
    · have waits₂ : ({ s₁ with engine := e } : Server).Waits asked := waits₁.of_engine rfl kept
      rw [post_publicResult, Post, waits₂.idle]
      exact waits₂
    · exact waits₁.of_engine rfl kept
  exact post_state.mp outcome

/-- However many hellos were answered, the server waits for the next one. -/
theorem Server.Asked.waits {start : Server} (isStart : start.Start)
    (cookie : start.engine.config.useServerCookie = true) (runs : Server.Asked start asked s) :
    s.Waits asked := by
  induction runs with
  | start =>
      cases isStart
      exact ⟨rfl, ⟨rfl, rfl, rfl, rfl, rfl, rfl, rfl⟩, cookie, fun never => absurd rfl never⟩
  | request _ requests inductionHypothesis => exact requests.waits inductionHypothesis
  | poll _ inductionHypothesis => exact inductionHypothesis.polled
  | timeout _ inductionHypothesis => exact inductionHypothesis.timed

theorem Server.Asked.reached {start : Server} (isStart : start.Start)
    (runs : Server.Asked start asked s) : s.Reached := by
  have called : ∀ {s : Server} (call : Server.Call), s.Reached → (s.exec call).Reached := by
    rintro _ call ⟨start, calls, isStart, rfl⟩
    exact ⟨start, calls ++ [call], isStart, run_concat.symm⟩
  induction runs with
  | start => exact ⟨start, [], isStart, rfl⟩
  | @request _ s s' datagram _ requests inductionHypothesis =>
      have final : finalState (Server.handlePacket datagram) s = s' := by
        rw [finalState, requests.handled]
      have after : s.exec (.handlePacket datagram) = s' := final
      exact after ▸ called (.handlePacket datagram) inductionHypothesis
  | poll _ inductionHypothesis => exact called _ inductionHypothesis
  | timeout _ inductionHypothesis => exact called _ inductionHypothesis

end Servers

/-- What a server does with a hello that it accepts. -/
def Server.proceed (hello : ClientHello) (body : Bytes) : ServerM Unit :=
  publicResult do
    let next ← Server.acceptClientHello hello body
    modify fun (s : Server) => { s with state := next }
    Server.progressLoop 19

/-- A server goes on with a hello: it accepts it, the hello opens the transcript, and the
ServerHello stands behind it with number 1 once the server is past sending it. -/
structure Server.Proceeds (datagram body : Bytes) (hello : ClientHello) (s : Server) : Prop where
  accepted : ∃ e : Engine, e.transcript = transcriptMessage .clientHello 1 body ∧
    e.nextHandshakeSeqNo = 1 ∧
    Server.handlePacket datagram s = Server.proceed hello body { s with engine := e }
  told : transcriptMessage .clientHello 1 body <+: (s.exec (.handlePacket datagram)).engine.transcript
  reply : (s.exec (.handlePacket datagram)).state ≠ .awaitClientHello →
    (s.exec (.handlePacket datagram)).state ≠ .sendServerHello →
    ∃ answer, transcriptMessage .clientHello 1 body ++ transcriptMessage .serverHello 1 answer <+:
      (s.exec (.handlePacket datagram)).engine.transcript

section Accepting

variable {s s' : Server} {asked : Nat} {datagram body : Bytes} {hello : ClientHello} {r : Record}
  {fragment : Fragment}

/-- Accepting a hello leaves the transcript to the messages. -/
theorem Server.acceptClientHello_told :
    Post (Server.acceptClientHello hello body) s
      (fun next s' => next = .sendServerHello ∧ s'.state = s.state ∧
        s'.engine.transcript = s.engine.transcript ∧
        s'.engine.nextHandshakeSeqNo = s.engine.nextHandshakeSeqNo)
      (fun _ s' => s'.state = s.state ∧ s'.engine.transcript = s.engine.transcript) := by
  unfold Server.acceptClientHello
  rw [post_bind, post_get]
  dsimp only
  rw [post_bind, post_orThrow]
  refine ⟨fun suite _ => ?_, fun _ => ⟨rfl, rfl⟩⟩
  unfold Server.withEngine setCipherSuite
  rw [post_bind, post_zoom, post_bind, post_get, post_bind, post_orThrow]
  refine ⟨fun supported _ => ?_, fun _ => ⟨rfl, rfl⟩⟩
  rw [post_set, post_bind, post_modify]
  split
  · exact ⟨rfl, rfl⟩
  · rw [post_ite]
    refine ⟨fun _ => ⟨rfl, rfl⟩, fun _ => ?_⟩
    rw [post_bind, post_modify]
    exact ⟨rfl, rfl, rfl, rfl⟩

/-- No state goes back to waiting for a hello. -/
theorem Server.State.behind {state next : Server.State} (behind : state ≠ .awaitClientHello)
    (isNext : next ∈ state :: state.follows) : next ≠ .awaitClientHello := by
  rintro rfl
  cases state <;> simp_all [Server.State.follows]

/-- Behind the hello the transcript only grows. -/
theorem Server.progressLoop_told {due : Promise} {base : Bytes} {fuel : Nat} (inv : s.Inv due)
    (behind : s.state ≠ .awaitClientHello) (told : base <+: s.engine.transcript) :
    Post (Server.progressLoop fuel) s (fun _ s' => base <+: s'.engine.transcript)
      (fun _ s' => base <+: s'.engine.transcript) := by
  induction fuel generalizing s with
  | zero => exact told
  | succ fuel inductionHypothesis =>
      unfold Server.progressLoop
      rw [post_bind, post_get]
      dsimp only
      rw [post_bind]
      have late : s.state.phase ≠ .hello := by
        cases isState : s.state <;> simp_all [Server.State.phase]
      have grows : ∀ s', Server.Within s.state.phase s.state.calm (s.state ≠ .awaitCertificate) s s' →
          base <+: s'.engine.transcript := fun s' within =>
        told.trans ((within.engine.endures inv.phase).transcript late)
      have follows := Server.makeProgress_returns s.state s
      refine (((Server.makeProgress_inv inv).and (Server.makeProgress_within s.state s)).and follows).mono
        ?_ fun _ s' failed => grows s' failed.1.2
      rintro next s' ⟨⟨kept, within⟩, isNext⟩
      rw [post_ite]
      refine ⟨fun _ => grows s' within, fun _ => ?_⟩
      rw [post_bind, post_modify]
      exact inductionHypothesis kept (Server.State.behind behind isNext) (grows s' within)

/-- The ServerHello is the next message. -/
theorem Server.sendServerHello_told :
    Post Server.sendServerHello s
      (fun next s' => next ≠ .awaitClientHello ∧ next ≠ .sendServerHello ∧
        ∃ answer, s'.engine.transcript = s.engine.transcript ++
          transcriptMessage .serverHello s.engine.nextHandshakeSeqNo answer)
      (fun _ _ => True) := by
  unfold Server.sendServerHello Server.withEngine
  rw [post_bind, post_zoom, post_modify, post_bind, post_get, post_bind, post_orThrow]
  refine ⟨fun random _ => ?_, fun _ => trivial⟩
  rw [post_bind, post_zoom]
  have told := @createHandshake_told s.engine.flightBegin .serverHello _
    (@Server.createServerHello_readOnly random (s.sessionId.getD []) s.negotiatedSrtpProfile)
  refine told.mono (fun _ e created => ?_) fun _ _ _ => trivial
  obtain ⟨_, answer, posture⟩ := created
  rw [post_bind, post_zoom]
  refine (selectedCipherSuite_readOnly _).mono ?_ fun _ _ _ => trivial
  rintro suite _ rfl
  refine ⟨?_, ?_, answer, congrArg Posture.transcript posture⟩
  all_goals split <;> decide

/-- From the ServerHello on. -/
theorem Server.progressLoop_reply {due : Promise} {base : Bytes} {fuel : Nat} (inv : s.Inv due)
    (state : s.state = .sendServerHello) (told : s.engine.transcript = base)
    (isFirst : s.engine.nextHandshakeSeqNo = 1) :
    Post (Server.progressLoop fuel) s
      (fun _ s' => base <+: s'.engine.transcript ∧ (s'.state ≠ .sendServerHello →
        ∃ answer, base ++ transcriptMessage .serverHello 1 answer <+: s'.engine.transcript))
      (fun _ s' => base <+: s'.engine.transcript ∧ (s'.state ≠ .sendServerHello →
        ∃ answer, base ++ transcriptMessage .serverHello 1 answer <+: s'.engine.transcript)) := by
  cases fuel with
  | zero => exact ⟨told ▸ List.prefix_rfl, fun past => absurd state past⟩
  | succ fuel =>
      obtain ⟨isState⟩ := s
      cases state
      unfold Server.progressLoop
      rw [post_bind, post_get]
      dsimp only
      rw [post_bind]
      refine ((Server.sendServerHello_told.and (Server.makeProgress_inv inv)).and
        (Server.makeProgress_within .sendServerHello _)).mono ?_ ?_
      · rintro next s' ⟨⟨⟨behind, past, answer, sent⟩, kept⟩, _⟩
        rw [post_ite]
        refine ⟨fun stays => absurd stays past, fun _ => ?_⟩
        rw [post_bind, post_modify]
        rw [told, isFirst] at sent
        have both : base ++ transcriptMessage .serverHello 1 answer <+: s'.engine.transcript := by
          rw [sent]
        refine (Server.progressLoop_told kept behind both).mono
          (fun _ s'' grown => ?_) fun _ s'' grown => ?_
        all_goals exact ⟨(List.prefix_append _ _).trans grown, fun _ => ⟨answer, grown⟩⟩
      · rintro _ s' ⟨_, within⟩
        have grown := (within.engine.endures inv.phase).transcript (by decide)
        rw [told] at grown
        exact ⟨grown, fun past => absurd within.state past⟩

/-- A hello in order, with the cookie that the server wants. -/
structure Server.Welcomes (hello : ClientHello) (s : Server) : Prop where
  version : hello.clientVersion = .dtls12
  compression : hello.compressionMethods.contains .null = true
  cookie : Server.verifyCookie s.engine.config.cryptoProvider s.cookieSecret hello.random
    hello.cookie = true

theorem Server.handleClientHello_accepts (welcomes : s.Welcomes hello) :
    Server.handleClientHello hello body s = Server.acceptClientHello hello body s := by
  unfold Server.handleClientHello
  simp only [bind, EStateM.bind, run_get, welcomes.version,
    welcomes.compression, welcomes.cookie, ne_eq, not_true, if_false, Bool.not_true, Bool.and_false,
    Bool.false_eq_true]

/-- The handler of the hello that was read. -/
theorem Server.post_awaitClientHello {e₁ e₂ : Engine} {header : Header}
    {Q : Server.State → Server → Prop} {E : Fault → Server → Prop}
    (taken : nextHandshake .clientHello e₁ = .ok (some (⟨header, .clientHello hello⟩, body)) e₂) :
    Post Server.awaitClientHello { s with engine := e₁ } Q E ↔
      Post (Server.handleClientHello hello body) { s with engine := e₂ } Q E := by
  unfold Server.awaitClientHello Server.onHandshake Server.withEngine
  rw [post_bind, post_zoom]
  unfold Post
  rw [taken]

/-- The first hello with a cookie is read. -/
theorem Hello.read (isHello : Hello datagram 1 body hello r fragment) (waits : s.Waits asked)
    (isFirst : asked % 65536 = 1) :
    ∃ e₁ e₂ header, receivePacket datagram s.engine = .ok () e₁ ∧
      nextHandshake .clientHello e₁ = .ok (some (⟨header, .clientHello hello⟩, body)) e₂ ∧
      e₂.transcript = transcriptMessage .clientHello 1 body ∧ e₂.nextHandshakeSeqNo = 1 ∧
      e₂.config = s.engine.config := by
  have peer : s.engine.peerHandshakeSeqNo = 1 := waits.engine.peer.trans isFirst
  have some : asked ≠ 0 := by
    rintro rfl
    cases isFirst
  have received := (isHello.received waits.engine).and (receivePacket_posture s.engine)
  cases outcome : receivePacket datagram s.engine with
  | error fault e₁ =>
      rw [Post, outcome] at received
      rcases received.1 with stale | noRoom
      · rw [peer] at stale
        exact absurd stale (Nat.lt_irrefl 1)
      · exact absurd noRoom (Nat.ne_of_gt (waits.room some))
  | ok value e₁ =>
      rw [Post, outcome] at received
      obtain ⟨queue, posture⟩ := received
      rw [peer, if_neg (Nat.lt_irrefl 1)] at queue
      have isNext : 1 = e₁.peerHandshakeSeqNo :=
        ((congrArg Posture.peerHandshakeSeqNo posture).trans peer).symm
      have suite : e₁.cipherSuite = none :=
        (congrArg Posture.cipherSuite posture).trans waits.engine.cipherSuite
      have taken := isHello.taken queue isNext suite
      cases result : nextHandshake .clientHello e₁ with
      | error fault e₂ =>
          rw [Post, result] at taken
          exact taken.elim
      | ok found e₂ =>
          rw [Post, result] at taken
          obtain ⟨⟨header, rfl⟩, told, next, config⟩ := taken
          have empty : e₁.transcript = [] :=
            (congrArg Posture.transcript posture).trans waits.engine.transcript
          rw [empty, List.nil_append] at told
          have number : e₁.nextHandshakeSeqNo = 1 :=
            ((congrArg Posture.nextHandshakeSeqNo posture).trans waits.engine.next).trans isFirst
          exact ⟨e₁, e₂, header, rfl, result, told, next.trans number,
            config.trans (congrArg Posture.config posture)⟩

/-- The call of a server that waits, once the hello is read. -/
theorem Server.handlePacket_accepts {e₁ e₂ : Engine} {header : Header}
    (isState : s.state = .awaitClientHello) (received : receivePacket datagram s.engine = .ok () e₁)
    (taken : nextHandshake .clientHello e₁ = .ok (some (⟨header, .clientHello hello⟩, body)) e₂)
    (accepts : Server.handleClientHello hello body { s with engine := e₂ } =
      Server.acceptClientHello hello body { s with engine := e₂ }) :
    Server.handlePacket datagram s = Server.proceed hello body { s with engine := e₂ } := by
  refine (eq_of_post fun Q E proceeds => ?_).symm
  unfold Server.proceed at proceeds
  rw [post_publicResult, post_bind] at proceeds
  refine Server.handlePacket_hello isState received taken (Post.congr accepts.symm ?_)
  refine (proceeds.and Server.acceptClientHello_told).mono ?_ fun _ _ failed => failed.1
  rintro next s₁ ⟨after, rfl, _⟩
  rw [if_neg (by decide), post_publicResult]
  rwa [post_bind, post_modify] at after

/-- A hello with a cookie behind one request: the server goes on. -/
theorem Hello.proceeds {due : Promise} (isHello : Hello datagram 1 body hello r fragment)
    (waits : s.Waits asked) (inv : s.Inv due) (isFirst : asked % 65536 = 1)
    (welcomes : s.Welcomes hello) : s.Proceeds datagram body hello := by
  obtain ⟨e₁, e₂, header, received, taken, told, number, config⟩ := isHello.read waits isFirst
  have welcomes₂ : ({ s with engine := e₂ } : Server).Welcomes hello :=
    ⟨welcomes.version, welcomes.compression, by rw [config]; exact welcomes.cookie⟩
  have accepts := @Server.handleClientHello_accepts { s with engine := e₂ } body hello welcomes₂
  have outcome : Post (Server.handlePacket datagram) s
      (fun _ s' => transcriptMessage .clientHello 1 body <+: s'.engine.transcript ∧
        (s'.state ≠ .awaitClientHello → s'.state ≠ .sendServerHello → ∃ answer,
          transcriptMessage .clientHello 1 body ++ transcriptMessage .serverHello 1 answer <+:
            s'.engine.transcript))
      (fun _ s' => transcriptMessage .clientHello 1 body <+: s'.engine.transcript ∧
        (s'.state ≠ .awaitClientHello → s'.state ≠ .sendServerHello → ∃ answer,
          transcriptMessage .clientHello 1 body ++ transcriptMessage .serverHello 1 answer <+:
            s'.engine.transcript)) := by
    refine Server.handlePacket_hello waits.state received taken ?_
    have invRead := Server.withEngine_inv inv (@receivePacket_moves _ datagram fun _ _ => trivial)
    unfold Server.withEngine at invRead
    rw [post_zoom, Post, received] at invRead
    have invHandled := Server.makeProgress_inv invRead
    have isAwait : ({ s with engine := e₁ } : Server).state.makeProgress = Server.awaitClientHello := by
      rw [waits.state]
      rfl
    rw [isAwait, Server.post_awaitClientHello taken] at invHandled
    refine Post.congr accepts.symm ?_
    have kept := (invHandled.congr accepts).and Server.acceptClientHello_told
    refine kept.mono ?_ fun fault s' failed => ?_
    · rintro next s₁ ⟨inv₁, rfl, _, sameTranscript, sameNumber⟩
      rw [if_neg (by decide), post_publicResult]
      refine (Server.progressLoop_reply inv₁ rfl (sameTranscript.trans told)
        (sameNumber.trans number)).mono (fun _ s' after => ⟨after.1, fun _ => after.2⟩)
        fun fault s' after => ?_
      cases fault <;> exact ⟨after.1, fun _ => after.2⟩
    · have same : s'.engine.transcript = transcriptMessage .clientHello 1 body :=
        failed.2.2.trans told
      have isAwaiting : s'.state = .awaitClientHello := failed.2.1.trans waits.state
      have stays : transcriptMessage .clientHello 1 body <+: s'.engine.transcript ∧
          (s'.state ≠ .awaitClientHello → s'.state ≠ .sendServerHello → ∃ answer,
            transcriptMessage .clientHello 1 body ++ transcriptMessage .serverHello 1 answer <+:
              s'.engine.transcript) :=
        ⟨same ▸ List.prefix_rfl, fun moved => absurd isAwaiting moved⟩
      cases fault <;> exact stays
  have final := post_state.mp outcome
  exact ⟨⟨e₂, told, number, Server.handlePacket_accepts waits.state received taken accepts⟩,
    final.1, final.2⟩

/-- Out of turn the hello is not read, so nothing is told. -/
theorem Hello.untold (isHello : Hello datagram 1 body hello r fragment) (waits : s.Waits asked)
    (notFirst : asked % 65536 ≠ 1) :
    (s.exec (.handlePacket datagram)).engine.transcript = [] := by
  have outcome : Post (Server.handlePacket datagram) s (fun _ s' => s'.engine.transcript = [])
      (fun _ s' => s'.engine.transcript = []) := by
    unfold Server.handlePacket
    rw [post_publicResult, post_bind]
    unfold Server.withEngine
    rw [post_zoom]
    have received := (isHello.received waits.engine).and (receivePacket_posture s.engine)
    refine received.mono (fun _ e₁ after => ?_) fun fault e₁ after => ?_
    · obtain ⟨queue, posture⟩ := after
      have empty : e₁.transcript = [] :=
        (congrArg Posture.transcript posture).trans waits.engine.transcript
      have peer : e₁.peerHandshakeSeqNo = asked % 65536 :=
        (congrArg Posture.peerHandshakeSeqNo posture).trans waits.engine.peer
      have nothing : nextHandshake .clientHello e₁ = .ok none e₁ := by
        rw [waits.engine.peer] at queue
        split at queue
        · exact nextHandshake_empty queue
        · have incomplete : e₁.hasCompleteHandshake .clientHello = false := by
            rw [Bool.eq_false_iff]
            intro complete
            exact notFirst (((isHello.complete_iff queue).mp complete).trans peer).symm
          unfold nextHandshake
          simp only [bind, EStateM.bind, run_get, incomplete]
          rfl
      unfold Server.makeProgress Server.progressLoop
      rw [post_bind, post_get]
      dsimp only
      rw [waits.state, post_bind]
      unfold Server.State.makeProgress Server.awaitClientHello Server.onHandshake Server.withEngine
      rw [post_bind, post_zoom, Post, nothing]
      exact empty
    · have empty : e₁.transcript = [] :=
        (congrArg Posture.transcript after.2).trans waits.engine.transcript
      cases fault <;> exact empty
  exact post_state.mp outcome

end Accepting

end Dtls12

/-- A server that wants cookies goes on with a hello of number 1 and a valid cookie exactly
when it has answered one hello without a cookie before. The numbers have sixteen bits. -/
theorem cookie_exchange_iff (start s : Dtls12.Server) (asked : Nat) (datagram body : Bytes)
    (hello : Dtls12.ClientHello) (r : Dtls12.Record) (fragment : Dtls12.Fragment) :
    start.Start → start.engine.config.useServerCookie = true → start.Asked asked s →
    Dtls12.Hello datagram 1 body hello r fragment → s.Welcomes hello →
      (s.Proceeds datagram body hello ↔ asked % 65536 = 1) := by
  intro isStart cookie runs isHello welcomes
  have waits := runs.waits isStart cookie
  constructor
  · intro proceeds
    by_contra notFirst
    have told := proceeds.told
    rw [isHello.untold waits notFirst, List.prefix_nil] at told
    cases told
  · intro isFirst
    exact isHello.proceeds waits (runs.reached isStart).inv isFirst welcomes

namespace Dtls12

/-- Whether a datagram completes a hello without a valid cookie that a server answers. -/
def Server.requests? (datagram : Bytes) (s : Server) : Bool :=
  match receivePacket datagram s.engine with
  | .ok () e₁ =>
    match nextHandshake .clientHello e₁ with
    | .ok (some (⟨_, .clientHello hello⟩, _)) _ =>
      !Server.verifyCookie s.engine.config.cryptoProvider s.cookieSecret hello.random hello.cookie &&
        (value? (Server.handlePacket datagram) s).isSome
    | _ => false
  | _ => false

theorem Server.requests_of_check {datagram : Bytes} {s : Server} (check : s.requests? datagram = true) :
    Server.Requests datagram s (s.exec (.handlePacket datagram)) := by
  unfold Server.requests? at check
  split at check
  · rename_i e₁ received
    split at check
    · rename_i header hello buffer e₂ taken
      rw [Bool.and_eq_true, Bool.not_eq_true'] at check
      obtain ⟨value, handled⟩ := Option.isSome_iff_exists.mp check.2
      exact ⟨ok_of_value handled, e₁, e₂, header, hello, buffer, received, taken, check.1⟩
    · cases check
  · cases check

/-- Whether a datagram holds one whole hello of number 1 that a server welcomes. -/
def Server.welcomes? (datagram : Bytes) (s : Server) : Bool :=
  match Record.ofBuffer datagram 0 with
  | .ok r =>
    match r.handshakes with
    | [fragment] =>
      let body := slice r.buffer fragment.range
      match Nom.parse (Body.parse 0 .clientHello none) body with
      | .ok (.clientHello hello, _) =>
        recordEnd datagram = some datagram.length && r.sequence.epoch = 0 && !fragment.handled &&
        fragment.header = ⟨.clientHello, body.length, 1, 0, body.length⟩ &&
        hello.clientVersion = .dtls12 && hello.compressionMethods.contains .null &&
        Server.verifyCookie s.engine.config.cryptoProvider s.cookieSecret hello.random hello.cookie
      | _ => false
    | _ => false
  | _ => false

theorem Server.welcomes_of_check {datagram : Bytes} {s : Server} (check : s.welcomes? datagram = true) :
    ∃ body hello r fragment, Hello datagram 1 body hello r fragment ∧ s.Welcomes hello := by
  unfold Server.welcomes? at check
  split at check
  · rename_i r parsed
    split at check
    · rename_i fragment handshakes
      dsimp only at check
      split at check
      · rename_i hello rest isHello
        simp only [Bool.and_eq_true, decide_eq_true_eq, Bool.not_eq_true'] at check
        obtain ⟨⟨⟨⟨⟨⟨alone, plain⟩, unread⟩, header⟩, version⟩, compression⟩, cookie⟩ := check
        refine ⟨_, hello, r, fragment, ⟨alone, parsed, plain, handshakes, unread, ?_, ?_, ?_, ?_, rfl, ?_,
          rest, isHello⟩, ⟨version, compression, cookie⟩⟩
        all_goals rw [header]
      · cases check
    · cases check
  · cases check

/-- A server that wants cookies, at its start. -/
def Server.strict : Server :=
  .newWithEngine (.new { Sample.config with useServerCookie := true } (.certificate Sample.certificate)
    (Sample.rng 1) (Sample.rng 7)) 0

/-- A client that has sent its first hello. -/
def Client.greeted : Client :=
  Client.exec (.newWithEngine (.new Sample.config (.certificate Sample.certificate)
    (Sample.rng 1) (Sample.rng 7)) 0) (.handleTimeout 0)

/-- The datagram a client hands out. -/
def Client.handsOut (c : Client) : Bytes :=
  match value? (Client.pollOutput 2000) c with
  | some (.packet datagram) => datagram
  | _ => []

/-- The datagram a server hands out. -/
def Server.handsOut (s : Server) : Bytes :=
  match value? (Server.pollOutput 2000) s with
  | some (.packet datagram) => datagram
  | _ => []

/-- That server once it has answered the hello. -/
def Server.answered : Server := Server.strict.exec (.handlePacket Client.greeted.handsOut)

/-- That server once it has answered the hello a second time, with number 1. -/
def Server.answeredTwice : Server :=
  Server.answered.exec (.handlePacket (Client.greeted.handsOut.set 18 1))

/-- The second hello of the client, with the cookie. -/
def Client.returned : Bytes :=
  ((Client.greeted.exec (.pollOutput 2000)).exec (.handlePacket Server.answered.handsOut)).handsOut

end Dtls12

/-- A server that has answered one hello goes on with the next. -/
theorem cookie_exchange_once :
    ∃ (start s : Dtls12.Server) (asked : Nat) (datagram body : Bytes) (hello : Dtls12.ClientHello)
      (r : Dtls12.Record) (fragment : Dtls12.Fragment), start.Start ∧
      start.engine.config.useServerCookie = true ∧ start.Asked asked s ∧
      Dtls12.Hello datagram 1 body hello r fragment ∧ s.Welcomes hello ∧
      s.Proceeds datagram body hello := by
  have start : Dtls12.Server.strict.Start := .fresh ..
  have checks : Dtls12.Server.strict.requests? Dtls12.Client.greeted.handsOut = true ∧
      Dtls12.Server.answered.welcomes? Dtls12.Client.returned = true := by
    decide +kernel
  have asked : Dtls12.Server.strict.Asked 1 Dtls12.Server.answered :=
    .request .start (Dtls12.Server.requests_of_check checks.1)
  obtain ⟨body, hello, r, fragment, isHello, welcomes⟩ := Dtls12.Server.welcomes_of_check checks.2
  exact ⟨_, _, 1, _, body, hello, r, fragment, start, rfl, asked, isHello, welcomes,
    (cookie_exchange_iff _ _ 1 _ body hello r fragment start rfl asked isHello welcomes).mpr rfl⟩

/-- A server that has answered two does not. -/
theorem not_cookie_exchange :
    ∃ (start s : Dtls12.Server) (asked : Nat) (datagram body : Bytes) (hello : Dtls12.ClientHello)
      (r : Dtls12.Record) (fragment : Dtls12.Fragment), start.Start ∧
      start.engine.config.useServerCookie = true ∧ start.Asked asked s ∧
      Dtls12.Hello datagram 1 body hello r fragment ∧ s.Welcomes hello ∧
      ¬s.Proceeds datagram body hello := by
  have start : Dtls12.Server.strict.Start := .fresh ..
  have checks : Dtls12.Server.strict.requests? Dtls12.Client.greeted.handsOut = true ∧
      Dtls12.Server.answered.requests? (Dtls12.Client.greeted.handsOut.set 18 1) = true ∧
      Dtls12.Server.answeredTwice.welcomes? Dtls12.Client.returned = true := by
    decide +kernel
  have asked : Dtls12.Server.strict.Asked 2 Dtls12.Server.answeredTwice :=
    .request (.request .start (Dtls12.Server.requests_of_check checks.1))
      (Dtls12.Server.requests_of_check checks.2.1)
  obtain ⟨body, hello, r, fragment, isHello, welcomes⟩ := Dtls12.Server.welcomes_of_check checks.2.2
  refine ⟨_, _, 2, _, body, hello, r, fragment, start, rfl, asked, isHello, welcomes, fun proceeds => ?_⟩
  have told := proceeds.told
  rw [isHello.untold (asked.waits start rfl) (by decide), List.prefix_nil] at told
  cases told

end Dimpl
