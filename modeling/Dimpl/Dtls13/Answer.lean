import Dimpl.Dtls13.Debt
import Dimpl.Dtls13.Engine.Faults
import Dimpl.Dtls13.Exchange

/-!
# Answers to a KeyUpdate

What an established connection does, as far as the order of a request, its answer and
application data goes. The answer is sent by the next call that makes progress, and not by
the one that consumes the request.
-/

namespace Dimpl.Dtls13

open Nom Program

/-- What matters to the order: a KeyUpdate that asks for one was consumed, the answer was
sent, application data was put into the transmit queue. -/
inductive Act where
  | asked
  | answered
  | data
  deriving DecidableEq, Repr

namespace Act

/-- Whether an answer is owed behind some acts. -/
def owes : Bool → List Act → Bool
  | owed, [] => owed
  | _, .asked :: rest => owes true rest
  | _, .answered :: rest => owes false rest
  | owed, .data :: rest => owes owed rest

/-- No data is sent while an answer is owed. -/
def Ordered : Bool → List Act → Prop
  | _, [] => True
  | _, .asked :: rest => Ordered true rest
  | _, .answered :: rest => Ordered false rest
  | owed, .data :: rest => owed = false ∧ Ordered owed rest

theorem owes_append {owed : Bool} {first second : List Act} :
    owes owed (first ++ second) = owes (owes owed first) second := by
  induction first generalizing owed with
  | nil => rfl
  | cons act rest inductionHypothesis => cases act <;> exact inductionHypothesis

theorem ordered_append {owed : Bool} {first second : List Act} :
    Ordered owed (first ++ second) ↔ Ordered owed first ∧ Ordered (owes owed first) second := by
  induction first generalizing owed with
  | nil => simp [Ordered, owes]
  | cons act rest inductionHypothesis =>
      cases act <;> simp [Ordered, owes, inductionHypothesis, and_assoc]

/-- Data is in order where nothing is owed. -/
theorem ordered_data {count : Nat} : Ordered false (List.replicate count .data) := by
  induction count with
  | zero => trivial
  | succ count inductionHypothesis => exact ⟨rfl, inductionHypothesis⟩

theorem owes_data {owed : Bool} {count : Nat} : owes owed (List.replicate count .data) = owed := by
  induction count with
  | zero => rfl
  | succ count inductionHypothesis => exact inductionHypothesis

end Act

/-- What happens behind a program that succeeds. -/
def behind {σ α : Type} (program : EStateM Fault σ α) (rest : σ → List Act) (s : σ) : List Act :=
  match program s with
  | .ok _ s' => rest s'
  | .error _ _ => []

/-- The protected records an engine has put into its queue. -/
def Engine.sealedCount (e : Engine) : Nat :=
  (e.log.filter fun event => event matches .sealed ..).length

namespace Endpoint

/-- The data that a program puts into the queue. -/
def dataActs {α : Type} (program : EndpointM α) (p : Endpoint) : List Act :=
  List.replicate ((finalState program p).engine.sealedCount - p.engine.sealedCount) .data

/-- The answer that is sent, if one is pending. -/
def answerActs (p : Endpoint) : List Act :=
  if p.pendingKeyUpdateResponse then behind answerKeyUpdate (fun _ => [.answered]) p else []

/-- The request that is consumed, if there is one. -/
def askedActs (p : Endpoint) : List Act :=
  match value? (withEngine (nextHandshakeNoTranscript .keyUpdate)) p with
  | some (some (handshake, _)) =>
    if handshake.body = .keyUpdate .updateRequested then
      behind (onKeyUpdate receiveKeyUpdate) (fun _ => [.asked]) p
    else []
  | _ => []

/-- What `await_application_data` does, stage by stage. -/
def awaitActs : Endpoint → List Act :=
  behind initiateKeyUpdate fun p =>
    dataActs sendQueuedData p ++ behind sendQueuedData (fun p =>
      answerActs p ++ behind answerKeyUpdate askedActs p) p

end Endpoint

section Stages

variable {α β σ : Type}

theorem post_behind_ok {program : EStateM Fault σ α} {next : α → EStateM Fault σ β} {s s' : σ} {value : α}
    {Q : β → σ → Prop} {E : Fault → σ → Prop} (ok : program s = .ok value s')
    (post : Post (next value) s' Q E) : Post (program >>= next) s Q E := by
  rw [post_bind]
  unfold Post
  rw [ok]
  exact post

theorem post_behind_error {program : EStateM Fault σ α} {next : α → EStateM Fault σ β} {s s' : σ}
    {fault : Fault} {Q : β → σ → Prop} {E : Fault → σ → Prop} (failed : program s = .error fault s')
    (post : E fault s') : Post (program >>= next) s Q E := by
  rw [post_bind]
  unfold Post
  rw [failed]
  exact post

theorem behind_ok {program : EStateM Fault σ α} {rest : σ → List Act} {s s' : σ} {value : α}
    (ok : program s = .ok value s') : behind program rest s = rest s' := by
  unfold behind
  rw [ok]

theorem behind_error {program : EStateM Fault σ α} {rest : σ → List Act} {s s' : σ} {fault : Fault}
    (failed : program s = .error fault s') : behind program rest s = [] := by
  unfold behind
  rw [failed]

end Stages

namespace Endpoint

variable {p : Endpoint} {owed : Bool}

/-- An owed answer is marked, and no data waits while one is pending. -/
structure Minds (owed : Bool) (p : Endpoint) : Prop where
  marked : owed = true → p.pendingKeyUpdateResponse = true
  idle : p.pendingKeyUpdateResponse = true → p.queuedData = []

theorem Minds.of_debt {p' : Endpoint} (minds : Minds owed p) (same : p'.debt = p.debt) :
    Minds owed p' := by
  have pending : p'.pendingKeyUpdateResponse = p.pendingKeyUpdateResponse := congrArg Prod.fst same
  have queued : p'.queuedData = p.queuedData := congrArg Prod.snd same
  exact ⟨fun isOwed => pending ▸ minds.marked isOwed, fun isPending => queued ▸ minds.idle (pending ▸ isPending)⟩

/-- Behind the queued data nothing waits. -/
theorem sendQueuedData_post :
    Post sendQueuedData p
      (fun _ p' => p'.pendingKeyUpdateResponse = p.pendingKeyUpdateResponse ∧ p'.queuedData = [])
      (fun _ p' => p'.pendingKeyUpdateResponse = p.pendingKeyUpdateResponse ∧ p'.queuedData = []) := by
  unfold sendQueuedData
  rw [post_bind, post_get, post_bind, post_set]
  refine (withEngine_debt _).mono (fun _ p' same => ?_) fun _ p' same => ?_
  · exact ⟨congrArg Prod.fst same, congrArg Prod.snd same⟩
  · exact ⟨congrArg Prod.fst same, congrArg Prod.snd same⟩

/-- Without queued data none is sent. -/
theorem dataActs_empty (empty : p.queuedData = []) : dataActs sendQueuedData p = [] := by
  have same : (finalState sendQueuedData p).engine = p.engine := by
    unfold sendQueuedData finalState
    simp only [bind, EStateM.bind, run_get, run_set, empty,
      sendQueued]
    rfl
  unfold dataActs
  rw [same, Nat.sub_self]
  rfl

/-- The data of the queue is in order. -/
theorem dataActs_ordered (minds : Minds owed p) : Act.Ordered owed (dataActs sendQueuedData p) := by
  cases isPending : p.pendingKeyUpdateResponse with
  | true =>
      rw [dataActs_empty (minds.idle isPending)]
      trivial
  | false =>
      have free : owed = false := by
        cases owed with
        | false => rfl
        | true => exact absurd (minds.marked rfl) (by simp [isPending])
      rw [free]
      exact Act.ordered_data

/-- The answer is sent and its mark removed, or both stay as they are. -/
theorem answerKeyUpdate_post (minds : Minds owed p) :
    Post answerKeyUpdate p (fun _ p' => Minds (Act.owes owed p.answerActs) p')
      (fun _ p' => Minds owed p' ∧ p.answerActs = []) := by
  cases isPending : p.pendingKeyUpdateResponse with
  | false =>
      have none : p.answerActs = [] := by simp [answerActs, isPending]
      rw [none]
      unfold answerKeyUpdate
      rw [post_bind, post_get, if_neg (by simp [isPending])]
      exact minds
  | true =>
      have acts : p.answerActs = behind answerKeyUpdate (fun _ => [.answered]) p := by
        simp [answerActs, isPending]
      have kept : Post answerKeyUpdate p (fun _ p' => p'.queuedData = p.queuedData)
          (fun _ p' => p'.debt = p.debt) := by
        unfold answerKeyUpdate
        rw [post_bind, post_get, if_pos isPending, post_bind]
        exact (withEngine_debt p).mono (fun _ p' same => congrArg Prod.snd same) fun _ _ same => same
      rw [acts]
      refine (kept.and post_self).mono (fun _ p' both => ?_) fun _ p' both => ?_
      · rw [behind_ok both.2]
        exact ⟨fun isOwed => (by cases isOwed), fun _ => both.1.trans (minds.idle isPending)⟩
      · exact ⟨minds.of_debt both.1, behind_error both.2⟩

theorem queuedData_answered {p' : Endpoint} (ok : answerKeyUpdate p = .ok () p') :
    p'.queuedData = p.queuedData := by
  have kept : Post answerKeyUpdate p (fun _ p' => p'.queuedData = p.queuedData) (fun _ _ => True) := by
    unfold answerKeyUpdate
    rw [post_bind, post_get, post_ite]
    refine ⟨fun _ => ?_, fun _ => rfl⟩
    rw [post_bind]
    exact (withEngine_debt p).mono (fun _ p' same => congrArg Prod.snd same) fun _ _ _ => trivial
  unfold Post at kept
  rw [ok] at kept
  exact kept

/-- The KeyUpdate that is next asks for one in return. -/
def Requested (p : Endpoint) : Prop :=
  ∃ handshake buffer, value? (withEngine (nextHandshakeNoTranscript .keyUpdate)) p =
    some (some (handshake, buffer)) ∧ handshake.body = .keyUpdate .updateRequested

theorem askedActs_ok {p' : Endpoint} (ok : onKeyUpdate receiveKeyUpdate p = .ok () p') :
    (p.askedActs = [.asked] ∧ p.Requested) ∨ p.askedActs = [] := by
  unfold askedActs
  split
  · rename_i handshake buffer found
    by_cases asks : handshake.body = .keyUpdate .updateRequested
    · rw [if_pos asks, behind_ok ok]
      exact .inl ⟨rfl, handshake, buffer, found, asks⟩
    · rw [if_neg asks]
      exact .inr rfl
  · exact .inr rfl

theorem askedActs_error {p' : Endpoint} {fault : Fault}
    (failed : onKeyUpdate receiveKeyUpdate p = .error fault p') : p.askedActs = [] := by
  unfold askedActs
  split
  · rw [behind_error failed]
    exact ite_self _
  · rfl

/-- What consuming a KeyUpdate does to the mark. -/
theorem onKeyUpdate_post :
    Post (onKeyUpdate receiveKeyUpdate) p
      (fun _ p' => p'.queuedData = p.queuedData ∧
        (p.pendingKeyUpdateResponse = true ∨ p.Requested → p'.pendingKeyUpdateResponse = true))
      (fun _ p' => p'.debt = p.debt) := by
  have keeps : Along (Keeps debt) (withEngine (nextHandshakeNoTranscript .keyUpdate)) :=
    withEngine_debt
  have found := (keeps p).and post_self
  unfold onKeyUpdate
  rw [post_bind]
  refine found.mono (fun message p₁ both => ?_) fun _ _ both => both.1
  obtain ⟨same, isFound⟩ := both
  have pending : p₁.pendingKeyUpdateResponse = p.pendingKeyUpdateResponse := congrArg Prod.fst same
  have queued : p₁.queuedData = p.queuedData := congrArg Prod.snd same
  cases message with
  | none =>
      refine ⟨queued, ?_⟩
      rintro (isPending | ⟨handshake, buffer, isMessage, _⟩)
      · exact pending.trans isPending
      · rw [value_of_ok isFound] at isMessage
        cases isMessage
  | some message =>
      obtain ⟨handshake, buffer⟩ := message
      dsimp only
      split
      · rename_i request isRequest
        unfold receiveKeyUpdate
        rw [post_bind]
        refine (withEngine_debt p₁).mono (fun _ p₂ same₂ => ?_) fun _ _ failed => failed.trans same
        rw [post_bind]
        refine (withEngine_debt p₂).mono (fun _ p₃ same₃ => ?_)
          fun _ _ failed => failed.trans (same₂.trans same)
        have isSame : p₃.debt = p.debt := same₃.trans (same₂.trans same)
        rw [post_bind, post_modify]
        unfold withEngine
        rw [post_zoom, post_modify]
        refine ⟨congrArg Prod.snd isSame, fun asked => ?_⟩
        show (p₃.pendingKeyUpdateResponse || decide (request = .updateRequested)) = true
        rcases asked with isPending | ⟨handshake', buffer', isMessage, asks⟩
        · have isMarked : p₃.pendingKeyUpdateResponse = true :=
            (congrArg Prod.fst isSame).trans isPending
          simp [isMarked]
        · rw [value_of_ok isFound] at isMessage
          cases isMessage
          rw [isRequest] at asks
          cases asks
          simp
      · exact same

/-- A consumed request is marked. -/
theorem onKeyUpdate_minds (minds : Minds owed p) (idle : p.queuedData = []) :
    Post (onKeyUpdate receiveKeyUpdate) p (fun _ p' => Minds (Act.owes owed p.askedActs) p')
      (fun _ p' => Minds owed p' ∧ p.askedActs = []) := by
  refine (onKeyUpdate_post.and post_self).mono (fun _ p' both => ?_) fun _ p' both => ?_
  · obtain ⟨⟨queued, marked⟩, ok⟩ := both
    refine ⟨fun isOwed => marked ?_, fun _ => queued.trans idle⟩
    rcases askedActs_ok ok with ⟨_, requested⟩ | none
    · exact .inr requested
    · rw [none] at isOwed
      exact .inl (minds.marked isOwed)
  · exact ⟨minds.of_debt both.1, askedActs_error both.2⟩

/-- An established connection keeps the order. -/
theorem awaitApplicationData_minds (minds : Minds owed p) :
    Act.Ordered owed p.awaitActs ∧
      Post awaitApplicationData p (fun _ p' => Minds (Act.owes owed p.awaitActs) p')
        (fun _ p' => Minds (Act.owes owed p.awaitActs) p') := by
  unfold awaitActs awaitApplicationData
  have initiated := (initiateKeyUpdate_debt p).and post_self
  cases first : initiateKeyUpdate p with
  | error fault p₁ =>
      rw [behind_error first]
      unfold Post at initiated
      rw [first] at initiated
      exact ⟨trivial, post_behind_error first (minds.of_debt initiated.1)⟩
  | ok value p₁ =>
      rw [behind_ok first]
      unfold Post at initiated
      rw [first] at initiated
      have minds₁ : Minds owed p₁ := minds.of_debt initiated.1
      have ordered := dataActs_ordered minds₁
      have stays : Act.owes owed (dataActs sendQueuedData p₁) = owed := Act.owes_data
      have queued := (@sendQueuedData_post p₁)
      rw [Act.ordered_append, stays]
      cases second : sendQueuedData p₁ with
      | error fault p₂ =>
          unfold Post at queued
          rw [second] at queued
          rw [behind_error second, List.append_nil, stays]
          refine ⟨⟨ordered, trivial⟩, post_behind_ok first (post_behind_error second ?_)⟩
          exact ⟨fun isOwed => queued.1.trans (minds₁.marked isOwed), fun _ => queued.2⟩
      | ok value p₂ =>
          unfold Post at queued
          rw [second] at queued
          have minds₂ : Minds owed p₂ :=
            ⟨fun isOwed => queued.1.trans (minds₁.marked isOwed), fun _ => queued.2⟩
          rw [behind_ok second, Act.owes_append, stays]
          have answered := answerKeyUpdate_post minds₂
          have inOrder : Act.Ordered owed p₂.answerActs := by
            unfold answerActs behind
            split
            · split <;> trivial
            · trivial
          rw [Act.ordered_append, Act.owes_append]
          cases third : answerKeyUpdate p₂ with
          | error fault p₃ =>
              unfold Post at answered
              rw [third] at answered
              rw [behind_error third, answered.2]
              refine ⟨⟨ordered, trivial, trivial⟩, ?_⟩
              exact post_behind_ok first (post_behind_ok second (post_behind_error third answered.1))
          | ok value p₃ =>
              unfold Post at answered
              rw [third] at answered
              rw [behind_ok third]
              have idle : p₃.queuedData = [] :=
                (queuedData_answered third).trans queued.2
              refine ⟨⟨ordered, inOrder, ?_⟩, ?_⟩
              · unfold askedActs behind
                split
                · split
                  · split <;> trivial
                  · trivial
                · trivial
              · refine post_behind_ok first (post_behind_ok second (post_behind_ok third ?_))
                refine (onKeyUpdate_minds answered idle).mono (fun _ _ minds => minds) fun _ _ failed => ?_
                rw [failed.2]
                exact failed.1

end Endpoint

section Sending

theorem hashAlgorithm_inner : Throws Fault.Inner hashAlgorithm :=
  throws_bind throws_get fun _ => throws_bind (throws_orThrow trivial) fun _ => throws_pure

theorem expandLabel_inner {secret : Bytes} {label : String} {context : Bytes} {length : Nat} :
    Throws Fault.Inner (expandLabel secret label context length) :=
  throws_bind hashAlgorithm_inner fun _ => throws_bind throws_get fun _ =>
    throws_liftCrypto inner_crypto

theorem updateSendKeys_inner : Throws Fault.Inner updateSendKeys := by
  have hashLen : Throws Fault.Inner hashLen :=
    throws_bind hashAlgorithm_inner fun _ => throws_pure
  have derived : ∀ epoch secret, Throws Fault.Inner (deriveEpochKeys epoch secret) := by
    intro epoch secret
    refine throws_bind suiteProvider_inner fun _ => throws_bind expandLabel_inner fun _ => ?_
    refine throws_bind expandLabel_inner fun _ => throws_bind expandLabel_inner fun _ => ?_
    refine throws_bind (throws_liftCrypto inner_crypto) fun _ => throws_ite ?_ (throws_throw trivial)
    exact throws_bind throws_get fun _ => throws_bind throws_set fun _ => throws_pure
  refine throws_bind throws_get fun _ => throws_bind (throws_orThrow trivial) fun _ => ?_
  refine throws_bind throws_modify fun _ => ?_
  refine throws_bind (throws_bind hashLen fun _ => expandLabel_inner) fun _ => ?_
  exact throws_bind (derived _ _) fun _ => throws_modify

theorem createKeyUpdate_inner {request : KeyUpdateRequest} :
    Throws Fault.Inner (createKeyUpdate request) :=
  throws_bind throws_modify fun _ => throws_bind throws_get fun _ => throws_bind throws_set fun _ =>
    throws_bind createCiphertextRecord_inner fun _ => updateSendKeys_inner

theorem sendQueued_inner {epoch : Nat} {data : List Bytes} : Throws Fault.Inner (sendQueued epoch data) := by
  induction data with
  | nil => exact throws_pure
  | cons first rest inductionHypothesis =>
      exact throws_bind createCiphertextRecord_inner fun _ => inductionHypothesis

end Sending

namespace Endpoint

theorem withEngine_inner {α : Type} {program : EngineM α} (inner : Throws Fault.Inner program) :
    Throws Fault.Inner (withEngine program) := by
  intro p
  unfold withEngine
  rw [post_zoom]
  exact inner p.engine

/-- A round of an established connection that the caller does not see fail sends the answer
that is pending. -/
theorem answered_of_await {p : Endpoint} (pending : p.pendingKeyUpdateResponse = true)
    (silent : Post awaitApplicationData p (fun _ _ => True) fun fault _ => ¬fault.Inner) :
    .answered ∈ p.awaitActs := by
  have initiated : Throws Fault.Inner initiateKeyUpdate :=
    throws_bind (withEngine_inner (throws_bind throws_get fun _ => throws_bind throws_set fun _ =>
      throws_pure)) fun _ => throws_bind throws_get fun _ =>
        withEngine_inner (throws_runIf createKeyUpdate_inner)
  have queued : Throws Fault.Inner sendQueuedData :=
    throws_bind throws_get fun _ => throws_bind throws_set fun _ => withEngine_inner sendQueued_inner
  have answers : Throws Fault.Inner answerKeyUpdate :=
    throws_bind throws_get fun _ => throws_ite
      (throws_bind (withEngine_inner createKeyUpdate_inner) fun _ => throws_modify) throws_pure
  unfold awaitApplicationData at silent
  rw [post_bind] at silent
  have first := ((initiateKeyUpdate_debt p).and ((initiated p).and post_self)).and silent
  unfold Post at first
  unfold awaitActs
  split at first
  · rename_i value p₁ _
    obtain ⟨⟨same, _, isFirst⟩, silent₁⟩ := first
    rw [behind_ok isFirst]
    have pending₁ : p₁.pendingKeyUpdateResponse = true := (congrArg Prod.fst same).trans pending
    have silent₁ : Post (do sendQueuedData; answerKeyUpdate; onKeyUpdate receiveKeyUpdate) p₁
        (fun _ _ => True) (fun fault _ => ¬fault.Inner) := silent₁
    rw [post_bind] at silent₁
    have second := (sendQueuedData_post.and ((queued p₁).and post_self)).and silent₁
    unfold Post at second
    split at second
    · rename_i value p₂ _
      obtain ⟨⟨⟨isPending, _⟩, _, isSecond⟩, silent₂⟩ := second
      rw [behind_ok isSecond]
      have silent₂ : Post (do answerKeyUpdate; onKeyUpdate receiveKeyUpdate) p₂
          (fun _ _ => True) (fun fault _ => ¬fault.Inner) := silent₂
      rw [post_bind] at silent₂
      have third := ((answers p₂).and post_self).and silent₂
      unfold Post at third
      split at third
      · obtain ⟨⟨_, isThird⟩, _⟩ := third
        refine List.mem_append_right _ (List.mem_append_left _ ?_)
        unfold answerActs
        rw [if_pos (isPending.trans pending₁), behind_ok isThird]
        exact List.mem_singleton_self _
      · exact absurd third.1.1 third.2
    · exact absurd second.1.2.1 second.2
  · exact absurd first.1.2.1 first.2

end Endpoint

namespace Client

variable {c : Client} {owed : Bool}

/-- The handshake is over. -/
def Late (state : State) : Prop :=
  state = .awaitApplicationData ∨ state = .halfClosedLocal ∨ state = .closed

/-- An answer is pending only behind the handshake. -/
structure Minds (owed : Bool) (c : Client) : Prop where
  endpoint : c.endpoint.Minds owed
  late : c.endpoint.pendingKeyUpdateResponse = true → Late c.state

/-- What the rounds of `make_progress` do. -/
def loopActs : (fuel : Nat) → Client → List Act
  | 0, _ => []
  | fuel + 1, c =>
    if c.state = .awaitApplicationData then c.endpoint.awaitActs
    else
      match c.state.makeProgress c with
      | .ok next c' => if next = c.state then [] else loopActs fuel { c' with state := next }
      | .error _ _ => []

/-- What a call does. -/
def acts (c : Client) : Call → List Act
  | .handlePacket packet =>
    behind (withEngine (receivePacket packet)) (loopActs 20) c
  | .handleTimeout now => behind (withEndpoint (Endpoint.handleTimeout now)) (loopActs 20) c
  | .sendApplicationData data =>
    if c.state = .awaitApplicationData then c.endpoint.dataActs (Endpoint.sendData data) else []
  | _ => []

/-- What the calls of a run do. -/
def trace : Client → List Call → List Act
  | _, [] => []
  | c, call :: calls => c.acts call ++ trace (c.exec call) calls

/-- No application data is handed over while an answer is pending. -/
def Patient (c : Client) : Call → Prop
  | .sendApplicationData _ =>
    c.state = .awaitApplicationData → c.endpoint.pendingKeyUpdateResponse = false
  | _ => True

theorem Minds.of_debt {c' : Client} (minds : Minds owed c) (same : c'.debt = c.debt)
    (state : c'.state = c.state) : Minds owed c' := by
  have pending : c'.endpoint.pendingKeyUpdateResponse = c.endpoint.pendingKeyUpdateResponse :=
    congrArg Prod.fst same
  exact ⟨minds.endpoint.of_debt same, fun isPending => state ▸ minds.late (pending ▸ isPending)⟩

theorem withEndpoint_keeps {α : Type} {program : EndpointM α} :
    Along (Keeps Client.state) (withEndpoint program) := by
  intro c
  unfold withEndpoint
  rw [post_zoom]
  exact post_self.mono (fun _ _ _ => rfl) fun _ _ _ => rfl

/-- Behind the handshake there is no way back. -/
theorem handlers_late (late : Late c.state) (other : c.state ≠ .awaitApplicationData) :
    Post c.state.makeProgress c (fun next c' => Late next ∧ c'.state = c.state)
      (fun _ c' => c'.state = c.state) := by
  rcases late with connected | closing | isClosed
  · exact absurd connected other
  · rw [closing]
    unfold State.makeProgress halfClosedLocal
    rw [post_bind]
    refine (withEndpoint_keeps c).mono (fun both c' same => ?_) fun _ _ same => same.trans closing
    refine ⟨?_, same.trans closing⟩
    cases both with
    | true => exact .inr (.inr rfl)
    | false => exact .inr (.inl rfl)
  · rw [isClosed]
    exact ⟨.inr (.inr rfl), isClosed⟩

/-- The rounds of `make_progress` keep the order. -/
theorem progressLoop_minds {fuel : Nat} (minds : Minds owed c) :
    Act.Ordered owed (c.loopActs fuel) ∧
      Post (progressLoop fuel) c (fun _ c' => Minds (Act.owes owed (c.loopActs fuel)) c')
        (fun _ c' => Minds (Act.owes owed (c.loopActs fuel)) c') := by
  induction fuel generalizing c with
  | zero => exact ⟨trivial, minds⟩
  | succ fuel inductionHypothesis =>
      by_cases connected : c.state = .awaitApplicationData
      · have isActs : c.loopActs (fuel + 1) = c.endpoint.awaitActs := by
          simp [loopActs, connected]
        obtain ⟨ordered, post⟩ := Endpoint.awaitApplicationData_minds minds.endpoint
        rw [isActs]
        refine ⟨ordered, ?_⟩
        unfold progressLoop
        rw [post_bind, post_get, connected]
        unfold State.makeProgress awaitApplicationData withEndpoint
        rw [post_bind, post_bind, post_zoom]
        refine post.mono (fun _ p' kept => ?_) fun _ p' kept => ⟨kept, fun _ => .inl connected⟩
        rw [post_pure, if_pos rfl]
        exact ⟨kept, fun _ => .inl connected⟩
      · have kept := ((handlers_debt connected c).and post_self)
        have late := fun isLate => handlers_late isLate connected
        unfold progressLoop
        rw [post_bind, post_get, post_bind]
        cases outcome : c.state.makeProgress c with
        | error fault c₁ =>
            have isActs : c.loopActs (fuel + 1) = [] := by
              simp [loopActs, connected, outcome]
            unfold Post at kept late ⊢
            rw [outcome] at kept late ⊢
            rw [isActs]
            refine ⟨trivial, minds.endpoint.of_debt kept.1, fun isPending => ?_⟩
            have isLate := minds.late ((congrArg Prod.fst kept.1).symm.trans isPending)
            exact late isLate ▸ isLate
        | ok next c₁ =>
            unfold Post at kept late ⊢
            rw [outcome] at kept late ⊢
            have pending : c₁.endpoint.pendingKeyUpdateResponse =
                c.endpoint.pendingKeyUpdateResponse := congrArg Prod.fst kept.1
            dsimp only
            by_cases stays : next = c.state
            · have isActs : c.loopActs (fuel + 1) = [] := by
                simp [loopActs, connected, outcome, stays]
              rw [isActs, if_pos stays]
              refine ⟨trivial, minds.endpoint.of_debt kept.1, fun isPending => ?_⟩
              have isLate := minds.late (pending ▸ isPending)
              exact (late isLate).2 ▸ isLate
            · have isActs : c.loopActs (fuel + 1) = loopActs fuel { c₁ with state := next } := by
                simp [loopActs, connected, outcome, stays]
              rw [isActs, if_neg stays]
              have minds₁ : Minds owed { c₁ with state := next } :=
                ⟨minds.endpoint.of_debt kept.1, fun isPending =>
                  (late (minds.late (pending ▸ isPending))).1⟩
              exact inductionHypothesis minds₁

/-- A call that is not impatient keeps the order. -/
theorem exec_minds {call : Call} (minds : Minds owed c) (patient : c.Patient call) :
    Act.Ordered owed (c.acts call) ∧ Minds (Act.owes owed (c.acts call)) (c.exec call) := by
  -- What comes in front of `make_progress` leaves the debt and the state alone.
  have rounds : ∀ {program : ClientM Unit}, Along (Keeps debt) program →
      Along (Keeps Client.state) program →
      Act.Ordered owed (behind program (loopActs 20) c) ∧
        Post (do program; makeProgress) c
          (fun _ c' => Minds (Act.owes owed (behind program (loopActs 20) c)) c')
          (fun _ c' => Minds (Act.owes owed (behind program (loopActs 20) c)) c') := by
    intro program debt state
    have kept := (debt c).and (state c)
    cases outcome : program c with
    | error fault c₁ =>
        unfold Post at kept
        rw [outcome] at kept
        rw [behind_error outcome]
        exact ⟨trivial, post_behind_error outcome (minds.of_debt kept.1 kept.2)⟩
    | ok value c₁ =>
        unfold Post at kept
        rw [outcome] at kept
        rw [behind_ok outcome]
        obtain ⟨ordered, post⟩ := @progressLoop_minds c₁ owed 20 (minds.of_debt kept.1 kept.2)
        exact ⟨ordered, post_behind_ok outcome post⟩
  cases call with
  | handlePacket packet =>
      obtain ⟨ordered, post⟩ := @rounds (withEngine (receivePacket packet)) withEngine_debt withEndpoint_keeps
      refine ⟨ordered, post_state.mp ?_⟩
      show Post (publicResult do withEngine (receivePacket packet); makeProgress) c _ _
      rw [post_publicResult]
      refine post.mono (fun _ _ kept => kept) fun fault _ kept => ?_
      cases fault <;> exact kept
  | handleTimeout now =>
      obtain ⟨ordered, post⟩ := @rounds (withEndpoint (Endpoint.handleTimeout now))
        (withEndpoint_debt Endpoint.handleTimeout_debt) withEndpoint_keeps
      refine ⟨ordered, post_state.mp ?_⟩
      show Post (do withEndpoint (Endpoint.handleTimeout now); publicResult makeProgress) c _ _
      rw [post_bind] at post ⊢
      refine post.mono (fun _ _ made => ?_) fun _ _ kept => kept
      rw [post_publicResult]
      refine made.mono (fun _ _ kept => kept) fun fault _ kept => ?_
      cases fault <;> exact kept
  | pollOutput bufLen =>
      refine ⟨trivial, post_state.mp ?_⟩
      show Post (do let _ ← withEndpoint (Endpoint.pollOutput bufLen)) c _ _
      rw [post_bind]
      have kept := ((withEndpoint_debt Endpoint.pollOutput_debt c).and (withEndpoint_keeps c) :
        Post (withEndpoint (Endpoint.pollOutput bufLen)) c _ _)
      exact kept.mono (fun _ _ both => minds.of_debt both.1 both.2)
        fun _ _ both => minds.of_debt both.1 both.2
  | sendApplicationData data =>
      by_cases connected : c.state = .awaitApplicationData
      · have isActs : c.acts (.sendApplicationData data) =
            c.endpoint.dataActs (Endpoint.sendData data) := by
          simp [acts, connected]
        have free : owed = false := by
          cases owed with
          | false => rfl
          | true => exact absurd (minds.endpoint.marked rfl) (by simp [patient connected])
        have stays : Act.owes owed (c.endpoint.dataActs (Endpoint.sendData data)) = owed := Act.owes_data
        rw [isActs, stays]
        refine ⟨free ▸ Act.ordered_data, post_state.mp ?_⟩
        show Post (sendApplicationData data) c _ _
        unfold sendApplicationData
        rw [post_bind, post_get, if_neg (by simp [connected]), if_neg (not_not.mpr connected)]
        have sends : Along (Keeps Endpoint.debt) (Endpoint.sendData data) :=
          along_bind along_get fun _ => Endpoint.withEngine_debt
        exact ((withEndpoint_debt sends c).and (withEndpoint_keeps c)).mono
          (fun _ _ both => minds.of_debt both.1 both.2) fun _ _ both => minds.of_debt both.1 both.2
      · have isActs : c.acts (.sendApplicationData data) = [] := by
          simp [acts, connected]
        rw [isActs]
        refine ⟨trivial, post_state.mp ?_⟩
        show Post (sendApplicationData data) c _ _
        unfold sendApplicationData
        rw [post_bind, post_get, post_ite]
        refine ⟨fun _ => minds, fun isOpen => ?_⟩
        rw [if_pos connected]
        -- Data that is queued before the handshake is over finds no answer pending.
        have early : c.endpoint.pendingKeyUpdateResponse ≠ true := by
          intro isPending
          rcases minds.late isPending with isConnected | closing | isClosed
          · exact connected isConnected
          · exact isOpen (.inr closing)
          · exact isOpen (.inl isClosed)
        exact ⟨⟨minds.endpoint.marked, fun isPending => absurd isPending early⟩,
          fun isPending => absurd isPending early⟩
  | close =>
      refine ⟨trivial, post_state.mp ?_⟩
      show Post close c _ _
      unfold close
      rw [post_bind, post_get, post_ite]
      refine ⟨fun _ => minds, fun _ => ?_⟩
      rw [post_ite]
      refine ⟨fun _ => ?_, fun connected => ?_⟩
      · rw [post_bind, withEngine_post, post_modify, post_modify]
        exact ⟨minds.endpoint.of_debt rfl, fun _ => .inr (.inr rfl)⟩
      · rw [post_bind]
        refine ((withEndpoint_debt Endpoint.closeWrite_debt c).and (withEndpoint_keeps c)).mono
          (fun _ c₁ both => ?_) fun _ _ both => minds.of_debt both.1 both.2
        rw [post_modify]
        exact ⟨minds.endpoint.of_debt both.1, fun _ => .inr (.inl rfl)⟩

/-- A run without impatient calls keeps the order. -/
theorem run_minds {calls : List Call} (minds : Minds owed c) (meets : Meets exec Patient c calls) :
    Act.Ordered owed (trace c calls) ∧
      Minds (Act.owes owed (trace c calls)) (run exec c calls) := by
  induction calls generalizing c owed with
  | nil => exact ⟨trivial, minds⟩
  | cons call calls inductionHypothesis =>
      obtain ⟨ordered, kept⟩ := exec_minds minds meets.1
      obtain ⟨later, last⟩ := inductionHypothesis kept meets.2
      refine ⟨Act.ordered_append.mpr ⟨ordered, later⟩, ?_⟩
      show Minds (Act.owes owed (c.acts call ++ trace (c.exec call) calls)) _
      rw [Act.owes_append]
      exact last

/-- A timeout call that succeeds sends the answer that is pending. -/
theorem answered_of_timeout {now : Instant} (connected : c.state = .awaitApplicationData)
    (pending : c.endpoint.pendingKeyUpdateResponse = true)
    (succeeds : (value? (handleTimeout now) c).isSome = true) :
    .answered ∈ c.acts (.handleTimeout now) := by
  have kept := ((withEndpoint_debt Endpoint.handleTimeout_debt c).and (withEndpoint_keeps c) :
    Post (withEndpoint (Endpoint.handleTimeout now)) c _ _)
  unfold value? handleTimeout at succeeds
  simp only [bind, EStateM.bind] at succeeds
  cases outcome : withEndpoint (Endpoint.handleTimeout now) c with
  | error fault c₁ => simp [outcome] at succeeds
  | ok value c₁ =>
      unfold Post at kept
      rw [outcome] at kept succeeds
      dsimp only at succeeds
      have connected₁ : c₁.state = .awaitApplicationData := kept.2.trans connected
      have pending₁ : c₁.endpoint.pendingKeyUpdateResponse = true :=
        (congrArg Prod.fst kept.1).trans pending
      have isActs : c.acts (.handleTimeout now) = c₁.endpoint.awaitActs := by
        show behind (withEndpoint (Endpoint.handleTimeout now)) (loopActs 20) c = _
        rw [behind_ok outcome]
        simp [loopActs, connected₁]
      rw [isActs]
      refine Endpoint.answered_of_await pending₁ ?_
      -- An error of the handler that is no parser noise would be the result of the call.
      unfold Post
      split
      · trivial
      · rename_i fault p' failed
        intro inner
        have fails : Post makeProgress c₁ (fun _ _ => False) (fun fault _ => fault.Inner) := by
          unfold makeProgress progressLoop
          rw [post_bind, post_get, connected₁]
          unfold State.makeProgress awaitApplicationData withEndpoint
          rw [post_bind, post_bind, post_zoom]
          unfold Post
          rw [failed]
          exact inner
        have seen : Post (publicResult makeProgress) c₁ (fun _ _ => False) (fun _ _ => True) := by
          rw [post_publicResult]
          refine fails.mono (fun _ _ impossible => impossible) fun fault _ isInner => ?_
          cases fault with
          | transient reason => exact isInner
          | fatal reason => trivial
          | panic site => trivial
        unfold Post at seen
        split at seen
        · exact seen
        · rename_i isError
          simp [isError] at succeeds

end Client

namespace Server

variable {s : Server} {owed : Bool}

/-- The handshake is over. -/
def Late (state : State) : Prop :=
  state = .awaitApplicationData ∨ state = .halfClosedLocal ∨ state = .closed

/-- An answer is pending only behind the handshake. -/
structure Minds (owed : Bool) (s : Server) : Prop where
  endpoint : s.endpoint.Minds owed
  late : s.endpoint.pendingKeyUpdateResponse = true → Late s.state

/-- What the rounds of `make_progress` do. -/
def loopActs : (fuel : Nat) → Server → List Act
  | 0, _ => []
  | fuel + 1, s =>
    if s.state = .awaitApplicationData then s.endpoint.awaitActs
    else
      match s.state.makeProgress s with
      | .ok next s' => if next = s.state then [] else loopActs fuel { s' with state := next }
      | .error _ _ => []

/-- What a call does. -/
def acts (s : Server) : Call → List Act
  | .handlePacket packet =>
    behind (do retainHello packet; withEngine (receivePacket packet)) (loopActs 20) s
  | .handleTimeout now => behind (withEndpoint (Endpoint.handleTimeout now)) (loopActs 20) s
  | .sendApplicationData data =>
    if s.state = .awaitApplicationData then s.endpoint.dataActs (Endpoint.sendData data) else []
  | _ => []

/-- What the calls of a run do. -/
def trace : Server → List Call → List Act
  | _, [] => []
  | s, call :: calls => s.acts call ++ trace (s.exec call) calls

/-- No application data is handed over while an answer is pending. -/
def Patient (s : Server) : Call → Prop
  | .sendApplicationData _ =>
    s.state = .awaitApplicationData → s.endpoint.pendingKeyUpdateResponse = false
  | _ => True

theorem Minds.of_debt {s' : Server} (minds : Minds owed s) (same : s'.debt = s.debt)
    (state : s'.state = s.state) : Minds owed s' := by
  have pending : s'.endpoint.pendingKeyUpdateResponse = s.endpoint.pendingKeyUpdateResponse :=
    congrArg Prod.fst same
  exact ⟨minds.endpoint.of_debt same, fun isPending => state ▸ minds.late (pending ▸ isPending)⟩

/-- Behind the handshake there is no way back. -/
theorem handlers_late (late : Late s.state) (other : s.state ≠ .awaitApplicationData) :
    Post s.state.makeProgress s (fun next s' => Late next ∧ s'.state = s.state)
      (fun _ s' => s'.state = s.state) := by
  rcases late with connected | closing | isClosed
  · exact absurd connected other
  · rw [closing]
    unfold State.makeProgress halfClosedLocal
    rw [post_bind]
    refine (withEndpoint_state s).mono (fun both s' same => ?_) fun _ _ same => same.trans closing
    refine ⟨?_, same.trans closing⟩
    cases both with
    | true => exact .inr (.inr rfl)
    | false => exact .inr (.inl rfl)
  · rw [isClosed]
    exact ⟨.inr (.inr rfl), isClosed⟩

/-- The rounds of `make_progress` keep the order. -/
theorem progressLoop_minds {fuel : Nat} (minds : Minds owed s) :
    Act.Ordered owed (s.loopActs fuel) ∧
      Post (progressLoop fuel) s (fun _ s' => Minds (Act.owes owed (s.loopActs fuel)) s')
        (fun _ s' => Minds (Act.owes owed (s.loopActs fuel)) s') := by
  induction fuel generalizing s with
  | zero => exact ⟨trivial, minds⟩
  | succ fuel inductionHypothesis =>
      by_cases connected : s.state = .awaitApplicationData
      · have isActs : s.loopActs (fuel + 1) = s.endpoint.awaitActs := by
          simp [loopActs, connected]
        obtain ⟨ordered, post⟩ := Endpoint.awaitApplicationData_minds minds.endpoint
        rw [isActs]
        refine ⟨ordered, ?_⟩
        unfold progressLoop
        rw [post_bind, post_get, connected]
        unfold State.makeProgress awaitApplicationData withEndpoint
        rw [post_bind, post_bind, post_zoom]
        refine post.mono (fun _ p' kept => ?_) fun _ p' kept => ⟨kept, fun _ => .inl connected⟩
        rw [post_pure, if_pos rfl]
        exact ⟨kept, fun _ => .inl connected⟩
      · have kept := ((handlers_debt connected s).and post_self)
        have late := fun isLate => handlers_late isLate connected
        unfold progressLoop
        rw [post_bind, post_get, post_bind]
        cases outcome : s.state.makeProgress s with
        | error fault s₁ =>
            have isActs : s.loopActs (fuel + 1) = [] := by
              simp [loopActs, connected, outcome]
            unfold Post at kept late ⊢
            rw [outcome] at kept late ⊢
            rw [isActs]
            refine ⟨trivial, minds.endpoint.of_debt kept.1, fun isPending => ?_⟩
            have isLate := minds.late ((congrArg Prod.fst kept.1).symm.trans isPending)
            exact late isLate ▸ isLate
        | ok next s₁ =>
            unfold Post at kept late ⊢
            rw [outcome] at kept late ⊢
            have pending : s₁.endpoint.pendingKeyUpdateResponse =
                s.endpoint.pendingKeyUpdateResponse := congrArg Prod.fst kept.1
            dsimp only
            by_cases stays : next = s.state
            · have isActs : s.loopActs (fuel + 1) = [] := by
                simp [loopActs, connected, outcome, stays]
              rw [isActs, if_pos stays]
              refine ⟨trivial, minds.endpoint.of_debt kept.1, fun isPending => ?_⟩
              have isLate := minds.late (pending ▸ isPending)
              exact (late isLate).2 ▸ isLate
            · have isActs : s.loopActs (fuel + 1) = loopActs fuel { s₁ with state := next } := by
                simp [loopActs, connected, outcome, stays]
              rw [isActs, if_neg stays]
              have minds₁ : Minds owed { s₁ with state := next } :=
                ⟨minds.endpoint.of_debt kept.1, fun isPending =>
                  (late (minds.late (pending ▸ isPending))).1⟩
              exact inductionHypothesis minds₁

/-- A call that is not impatient keeps the order. -/
theorem exec_minds {call : Call} (minds : Minds owed s) (patient : s.Patient call) :
    Act.Ordered owed (s.acts call) ∧ Minds (Act.owes owed (s.acts call)) (s.exec call) := by
  -- What comes in front of `make_progress` leaves the debt and the state alone.
  have rounds : ∀ {program : ServerM Unit}, Along (Keeps debt) program →
      Along (Keeps Server.state) program →
      Act.Ordered owed (behind program (loopActs 20) s) ∧
        Post (do program; makeProgress) s
          (fun _ s' => Minds (Act.owes owed (behind program (loopActs 20) s)) s')
          (fun _ s' => Minds (Act.owes owed (behind program (loopActs 20) s)) s') := by
    intro program debt state
    have kept := (debt s).and (state s)
    cases outcome : program s with
    | error fault s₁ =>
        unfold Post at kept
        rw [outcome] at kept
        rw [behind_error outcome]
        exact ⟨trivial, post_behind_error outcome (minds.of_debt kept.1 kept.2)⟩
    | ok value s₁ =>
        unfold Post at kept
        rw [outcome] at kept
        rw [behind_ok outcome]
        obtain ⟨ordered, post⟩ := @progressLoop_minds s₁ owed 20 (minds.of_debt kept.1 kept.2)
        exact ⟨ordered, post_behind_ok outcome post⟩
  cases call with
  | handlePacket packet =>
      have retains : Along (Keeps debt) (retainHello packet) := by
        refine along_get_bind fun s => ?_
        rw [post_ite]
        refine ⟨fun _ => ?_, fun _ => rfl⟩
        rw [post_ite]
        exact ⟨fun _ => rfl, fun _ => rfl⟩
      have still : Along (Keeps Server.state) (retainHello packet) := fun s =>
        (retainHello_within s).mono (fun _ _ within => within.state) fun _ _ within => within.state
      obtain ⟨ordered, post⟩ := @rounds (do retainHello packet; withEngine (receivePacket packet))
        (along_bind retains fun _ => withEngine_debt) (along_bind still fun _ => withEndpoint_state)
      refine ⟨ordered, post_state.mp ?_⟩
      show Post (handlePacket packet) s _ _
      unfold handlePacket
      rw [post_bind] at post ⊢
      rw [post_bind] at post
      refine post.mono (fun _ s₁ received => ?_) fun _ _ kept => kept
      rw [post_publicResult, post_bind]
      refine received.mono (fun _ s₂ made => ?_) fun fault _ kept => by cases fault <;> exact kept
      rw [post_bind]
      refine made.mono (fun _ s₃ kept => ?_) fun fault _ kept => by cases fault <;> exact kept
      rw [post_modify]
      refine kept.of_debt ?_ ?_
      · unfold commitVersion
        split <;> rfl
      · unfold commitVersion
        split <;> rfl
  | handleTimeout now =>
      obtain ⟨ordered, post⟩ := @rounds (withEndpoint (Endpoint.handleTimeout now))
        (withEndpoint_debt Endpoint.handleTimeout_debt) withEndpoint_state
      refine ⟨ordered, post_state.mp ?_⟩
      show Post (do withEndpoint (Endpoint.handleTimeout now); publicResult makeProgress) s _ _
      rw [post_bind] at post ⊢
      refine post.mono (fun _ _ made => ?_) fun _ _ kept => kept
      rw [post_publicResult]
      refine made.mono (fun _ _ kept => kept) fun fault _ kept => ?_
      cases fault <;> exact kept
  | pollOutput bufLen =>
      refine ⟨trivial, post_state.mp ?_⟩
      show Post (do let _ ← withEndpoint (Endpoint.pollOutput bufLen)) s _ _
      rw [post_bind]
      have kept := ((withEndpoint_debt Endpoint.pollOutput_debt s).and (withEndpoint_state s) :
        Post (withEndpoint (Endpoint.pollOutput bufLen)) s _ _)
      exact kept.mono (fun _ _ both => minds.of_debt both.1 both.2)
        fun _ _ both => minds.of_debt both.1 both.2
  | sendApplicationData data =>
      by_cases connected : s.state = .awaitApplicationData
      · have isActs : s.acts (.sendApplicationData data) =
            s.endpoint.dataActs (Endpoint.sendData data) := by
          simp [acts, connected]
        have free : owed = false := by
          cases owed with
          | false => rfl
          | true => exact absurd (minds.endpoint.marked rfl) (by simp [patient connected])
        have stays : Act.owes owed (s.endpoint.dataActs (Endpoint.sendData data)) = owed := Act.owes_data
        rw [isActs, stays]
        refine ⟨free ▸ Act.ordered_data, post_state.mp ?_⟩
        show Post (sendApplicationData data) s _ _
        unfold sendApplicationData
        rw [post_bind, post_get, if_neg (by simp [connected]), if_neg (not_not.mpr connected)]
        have sends : Along (Keeps Endpoint.debt) (Endpoint.sendData data) :=
          along_bind along_get fun _ => Endpoint.withEngine_debt
        exact ((withEndpoint_debt sends s).and (withEndpoint_state s)).mono
          (fun _ _ both => minds.of_debt both.1 both.2) fun _ _ both => minds.of_debt both.1 both.2
      · have isActs : s.acts (.sendApplicationData data) = [] := by
          simp [acts, connected]
        rw [isActs]
        refine ⟨trivial, post_state.mp ?_⟩
        show Post (sendApplicationData data) s _ _
        unfold sendApplicationData
        rw [post_bind, post_get, post_ite]
        refine ⟨fun _ => minds, fun isOpen => ?_⟩
        rw [if_pos connected]
        -- Data that is queued before the handshake is over finds no answer pending.
        have early : s.endpoint.pendingKeyUpdateResponse ≠ true := by
          intro isPending
          rcases minds.late isPending with isConnected | closing | isClosed
          · exact connected isConnected
          · exact isOpen (.inr closing)
          · exact isOpen (.inl isClosed)
        exact ⟨⟨minds.endpoint.marked, fun isPending => absurd isPending early⟩,
          fun isPending => absurd isPending early⟩
  | close =>
      refine ⟨trivial, post_state.mp ?_⟩
      show Post close s _ _
      unfold close
      rw [post_bind, post_get, post_ite]
      refine ⟨fun _ => minds, fun _ => ?_⟩
      rw [post_ite]
      refine ⟨fun _ => ?_, fun connected => ?_⟩
      · rw [post_bind, withEngine_post, post_modify, post_modify]
        exact ⟨minds.endpoint.of_debt rfl, fun _ => .inr (.inr rfl)⟩
      · rw [post_bind]
        refine ((withEndpoint_debt Endpoint.closeWrite_debt s).and (withEndpoint_state s)).mono
          (fun _ s₁ both => ?_) fun _ _ both => minds.of_debt both.1 both.2
        rw [post_modify]
        exact ⟨minds.endpoint.of_debt both.1, fun _ => .inr (.inl rfl)⟩

/-- A run without impatient calls keeps the order. -/
theorem run_minds {calls : List Call} (minds : Minds owed s) (meets : Meets exec Patient s calls) :
    Act.Ordered owed (trace s calls) ∧
      Minds (Act.owes owed (trace s calls)) (run exec s calls) := by
  induction calls generalizing s owed with
  | nil => exact ⟨trivial, minds⟩
  | cons call calls inductionHypothesis =>
      obtain ⟨ordered, kept⟩ := exec_minds minds meets.1
      obtain ⟨later, last⟩ := inductionHypothesis kept meets.2
      refine ⟨Act.ordered_append.mpr ⟨ordered, later⟩, ?_⟩
      show Minds (Act.owes owed (s.acts call ++ trace (s.exec call) calls)) _
      rw [Act.owes_append]
      exact last

/-- A timeout call that succeeds sends the answer that is pending. -/
theorem answered_of_timeout {now : Instant} (connected : s.state = .awaitApplicationData)
    (pending : s.endpoint.pendingKeyUpdateResponse = true)
    (succeeds : (value? (handleTimeout now) s).isSome = true) :
    .answered ∈ s.acts (.handleTimeout now) := by
  have kept := ((withEndpoint_debt Endpoint.handleTimeout_debt s).and (withEndpoint_state s) :
    Post (withEndpoint (Endpoint.handleTimeout now)) s _ _)
  unfold value? handleTimeout at succeeds
  simp only [bind, EStateM.bind] at succeeds
  cases outcome : withEndpoint (Endpoint.handleTimeout now) s with
  | error fault s₁ => simp [outcome] at succeeds
  | ok value s₁ =>
      unfold Post at kept
      rw [outcome] at kept succeeds
      dsimp only at succeeds
      have connected₁ : s₁.state = .awaitApplicationData := kept.2.trans connected
      have pending₁ : s₁.endpoint.pendingKeyUpdateResponse = true :=
        (congrArg Prod.fst kept.1).trans pending
      have isActs : s.acts (.handleTimeout now) = s₁.endpoint.awaitActs := by
        show behind (withEndpoint (Endpoint.handleTimeout now)) (loopActs 20) s = _
        rw [behind_ok outcome]
        simp [loopActs, connected₁]
      rw [isActs]
      refine Endpoint.answered_of_await pending₁ ?_
      -- An error of the handler that is no parser noise would be the result of the call.
      unfold Post
      split
      · trivial
      · rename_i fault p' failed
        intro inner
        have fails : Post makeProgress s₁ (fun _ _ => False) (fun fault _ => fault.Inner) := by
          unfold makeProgress progressLoop
          rw [post_bind, post_get, connected₁]
          unfold State.makeProgress awaitApplicationData withEndpoint
          rw [post_bind, post_bind, post_zoom]
          unfold Post
          rw [failed]
          exact inner
        have seen : Post (publicResult makeProgress) s₁ (fun _ _ => False) (fun _ _ => True) := by
          rw [post_publicResult]
          refine fails.mono (fun _ _ impossible => impossible) fun fault _ isInner => ?_
          cases fault with
          | transient reason => exact isInner
          | fatal reason => trivial
          | panic site => trivial
        unfold Post at seen
        split at seen
        · exact seen
        · rename_i isError
          simp [isError] at succeeds

end Server

end Dimpl.Dtls13
