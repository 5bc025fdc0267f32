import Dimpl.Dtls13.Engine.Channel
import Dimpl.Dtls13.Engine.Discard
import Dimpl.Dtls13.Engine.Pending
import Dimpl.Lib.Arrangement

/-!
# Application data that comes in

Datagrams with application data, as the other side sealed them: their records are opened once each,
queued by their numbers and handed out from the front.
-/

namespace Dimpl.Dtls13

open Nom Program Delivery

section Records

variable {suite : SupportedDtls13CipherSuite} {keys : EpochKeys} {epoch number : Nat}
  {ciphertext rest : Bytes}

theorem length_wireRecord :
    (wireRecord suite keys ⟨epoch, number⟩ ciphertext).length = 5 + ciphertext.length := by
  rw [wireRecord, length_maskSequenceBytes, List.length_append]
  rfl

/-- Where a record ends that others may follow. -/
theorem recordEnd_wire (fits : ciphertext.length < 65536) :
    recordEnd (wireRecord suite keys ⟨epoch, number⟩ ciphertext ++ rest) =
      .ok (some (wireRecord suite keys ⟨epoch, number⟩ ciphertext).length) := by
  obtain ⟨isCiphertext, noId, long, hasLength, -⟩ := @flags_unified epoch
  obtain ⟨mask, isMask⟩ : ∃ mask, snMask suite keys ciphertext = mask := ⟨_, rfl⟩
  have seqLen : Dtls13Record.seqLen (0b00101100 ||| UInt8.ofNat (epoch % 4)) = 2 := if_pos long
  have headerLen : Dtls13Record.unifiedHeaderLen (0b00101100 ||| UInt8.ofNat (epoch % 4)) = 5 := by
    rw [Dtls13Record.unifiedHeaderLen, seqLen, if_pos hasLength]
  have length := @length_wireRecord suite keys epoch number ciphertext
  have whole : 5 ≤ (wireRecord suite keys ⟨epoch, number⟩ ciphertext ++ rest).length := by
    rw [List.length_append]
    omega
  have first : (wireRecord suite keys ⟨epoch, number⟩ ciphertext ++ rest).headD 0 =
      0b00101100 ||| UInt8.ofNat (epoch % 4) := by
    rw [wireRecord_eq isMask]
    rfl
  have field : ((wireRecord suite keys ⟨epoch, number⟩ ciphertext ++ rest).drop 3).take 2 =
      be16 ciphertext.length := by
    rw [wireRecord_eq isMask]
    rfl
  unfold recordEnd
  dsimp only
  rw [first, if_pos isCiphertext, noId, if_neg Bool.false_ne_true, headerLen, if_pos hasLength, seqLen]
  have long' : ¬((decide ((wireRecord suite keys ⟨epoch, number⟩ ciphertext ++ rest).length < 2) ||
      decide ((wireRecord suite keys ⟨epoch, number⟩ ciphertext ++ rest).length < 5)) = true) := by
    simp only [Bool.or_eq_true, decide_eq_true_eq]
    omega
  rw [if_neg long', field, beValue_be16, Nat.mod_eq_of_lt fits, length]

/-- One record more of a datagram. -/
theorem parseRecordsLoop_wire {fuel : Nat} {parsed : List Record} (fits : ciphertext.length < 65536) :
    parseRecordsLoop (fuel + 1) (wireRecord suite keys ⟨epoch, number⟩ ciphertext ++ rest) parsed =
      (do
        match ← parseRecord (wireRecord suite keys ⟨epoch, number⟩ ciphertext) with
        | none => parseRecordsLoop fuel rest parsed
        | some r =>
          if parsed.length < 16 then parseRecordsLoop fuel rest (parsed ++ [r])
          else throw (.transient .tooManyRecords)) := by
  have filled : (wireRecord suite keys ⟨epoch, number⟩ ciphertext ++ rest).isEmpty = false := by
    obtain ⟨mask, isMask⟩ : ∃ mask, snMask suite keys ciphertext = mask := ⟨_, rfl⟩
    rw [wireRecord_eq isMask]
    rfl
  have within : ¬(wireRecord suite keys ⟨epoch, number⟩ ciphertext ++ rest).length <
      (wireRecord suite keys ⟨epoch, number⟩ ciphertext).length := by
    rw [List.length_append]
    omega
  conv_lhs => unfold parseRecordsLoop
  rw [filled, if_neg Bool.false_ne_true, recordEnd_wire fits]
  dsimp only
  rw [List.take_left, List.drop_left]
  exact if_neg within

end Records

section Opening

variable {e e₁ e' : Engine} {epoch m n : Nat}

theorem Engine.recvKeys_unopened : e.unopened.recvKeys epoch = e.recvKeys epoch := by
  unfold Engine.recvKeys Engine.recvEntry Engine.unopened
  dsimp only
  rw [List.find?_map, Option.map_map]
  rfl

theorem Engine.standsFor_unopened : e.unopened.StandsFor epoch ↔ e.StandsFor epoch := by
  unfold Engine.StandsFor Engine.unopened
  dsimp only
  rw [List.filter_map, List.getLast?_map, Option.map_map]
  rfl

/-- What the window of an epoch admits once a number was opened. -/
theorem Engine.replayCheck_replayUpdate (known : (e.recvKeys epoch).isSome = true) :
    (e.replayUpdate ⟨epoch, m⟩).replayCheck ⟨epoch, n⟩ = true ↔
      e.replayCheck ⟨epoch, n⟩ = true ∧ m ≠ n ∧ m < n + 64 := by
  have admits : ∀ w : ReplayWindow, (w.update m).check n = true ↔
      w.check n = true ∧ m ≠ n ∧ m < n + 64 := by
    intro w
    rw [ReplayWindow.update_check_iff, ne_comm]
  unfold Engine.replayUpdate Engine.replayCheck
  by_cases handshake : epoch = 2
  · simp only [handshake, if_true]
    exact admits e.hsReplay
  · have found := @find_updateFirst epoch epoch (fun entry => entry.receive m) (fun _ => rfl) e.appRecvKeys
    rw [if_pos rfl] at found
    unfold Engine.recvKeys at known
    simp only [if_neg handshake, Engine.recvEntry] at known ⊢
    rw [found]
    cases isEntry : e.appRecvKeys.find? fun entry => entry.epoch = epoch with
    | none => simp [isEntry] at known
    | some entry => exact admits entry.replay

/-- The number that is expected once a number was opened. -/
theorem Engine.expectedRecvSeq_replayUpdate (known : (e.recvKeys epoch).isSome = true) :
    (e.replayUpdate ⟨epoch, m⟩).expectedRecvSeq epoch = max (m + 1) (e.expectedRecvSeq epoch) := by
  unfold Engine.replayUpdate Engine.expectedRecvSeq
  by_cases handshake : epoch = 2
  · simp only [handshake, if_true]
  · have found := @find_updateFirst epoch epoch (fun entry => entry.receive m) (fun _ => rfl) e.appRecvKeys
    rw [if_pos rfl] at found
    unfold Engine.recvKeys at known
    simp only [if_neg handshake, Engine.recvEntry] at known ⊢
    rw [found]
    cases isEntry : e.appRecvKeys.find? fun entry => entry.epoch = epoch with
    | none => simp [isEntry] at known
    | some entry => rfl

theorem Engine.expectedRecvSeq_opened {event : Event} (known : (e.recvKeys epoch).isSome = true) :
    ((e.replayUpdate ⟨epoch, m⟩).logEvent event).expectedRecvSeq epoch =
      max (m + 1) (e.expectedRecvSeq epoch) :=
  Engine.expectedRecvSeq_replayUpdate known

/-- Numbers of an epoch were opened, and nothing else happened. -/
structure Engine.Unseals (epoch : Nat) (numbers : List Nat) (e e' : Engine) : Prop where
  same : e'.unopened = e.unopened
  check : ∀ n, e'.replayCheck ⟨epoch, n⟩ = true ↔
    e.replayCheck ⟨epoch, n⟩ = true ∧ ∀ m ∈ numbers, m ≠ n ∧ m < n + 64
  lower : e.expectedRecvSeq epoch ≤ e'.expectedRecvSeq epoch
  upper : ∀ bound, e.expectedRecvSeq epoch ≤ bound → (∀ m ∈ numbers, m < bound) →
    e'.expectedRecvSeq epoch ≤ bound

theorem Engine.Unseals.refl : Engine.Unseals epoch [] e e :=
  ⟨rfl, fun n => by simp, Nat.le_refl _, fun _ within _ => within⟩

theorem Engine.Unseals.trans {numbers later : List Nat} (first : Engine.Unseals epoch numbers e e₁)
    (second : Engine.Unseals epoch later e₁ e') : Engine.Unseals epoch (numbers ++ later) e e' where
  same := second.same.trans first.same
  check := by
    intro n
    rw [second.check, first.check]
    simp only [List.mem_append, or_imp, forall_and, and_assoc]
    tauto
  lower := Nat.le_trans first.lower second.lower
  upper := by
    intro bound within small
    apply second.upper bound
    · exact first.upper bound within fun m member => small m (List.mem_append_left _ member)
    · exact fun m member => small m (List.mem_append_right _ member)

theorem Engine.Unseals.of_opened {event : Event} (known : (e.recvKeys epoch).isSome = true) :
    Engine.Unseals epoch [m] e ((e.replayUpdate ⟨epoch, m⟩).logEvent event) where
  same := Engine.opened_unopened
  check := by
    intro n
    simp only [List.mem_singleton, forall_eq]
    exact Engine.replayCheck_replayUpdate known
  lower := by
    rw [Engine.expectedRecvSeq_opened known]
    exact Nat.le_max_right _ _
  upper := by
    intro bound within small
    have below := small m (List.mem_singleton_self m)
    rw [Engine.expectedRecvSeq_opened known]
    omega

end Opening

section Listening

variable {sender e e' : Engine} {suite : SupportedDtls13CipherSuite} {keys keys' : EpochKeys}
  {epoch base total : Nat} {opened : List Nat}

/-- An engine that shares the keys of an epoch with a sender, hands out application data, and of the
numbers that the sender uses has opened these. -/
structure Engine.Tuned (sender : Engine) (suite : SupportedDtls13CipherSuite) (keys keys' : EpochKeys)
    (epoch base total : Nat) (opened : List Nat) (e : Engine) : Prop where
  shares : Shares sender e suite keys keys' epoch
  stands : e.StandsFor epoch
  later : epoch ≠ 0
  released : e.releaseAppData = true
  opening : e.closeNotifySequence = none
  check : ∀ n, base ≤ n → n < base + total →
    (e.replayCheck ⟨epoch, n⟩ = true ↔ ∀ m ∈ opened, m ≠ n ∧ m < n + 64)
  few : total < 32768
  low : base + total < e.expectedRecvSeq epoch + 32768
  high : e.expectedRecvSeq epoch ≤ base + total

/-- Keys stay the same when numbers are opened. -/
theorem Shares.of_unopened (shares : Shares sender e suite keys keys' epoch)
    (same : e'.unopened = e.unopened) : Shares sender e' suite keys keys' epoch :=
  have isSuite : e'.suiteProvider = e.suiteProvider := (congrArg Engine.suiteProvider same :)
  have isKeys : e'.recvKeys epoch = e.recvKeys epoch := by
    rw [← @Engine.recvKeys_unopened e', same, Engine.recvKeys_unopened]
  have enabled : e'.peerEncryptionEnabled = e.peerEncryptionEnabled :=
    (congrArg Engine.peerEncryptionEnabled same :)
  { shares with
    recvSuite := isSuite.trans shares.recvSuite
    recvKeys := isKeys.trans shares.recvKeys
    enabled := enabled.trans shares.enabled }

theorem Engine.Tuned.takes {numbers : List Nat}
    (tuned : Engine.Tuned sender suite keys keys' epoch base total opened e)
    (takes : Engine.Unseals epoch numbers e e') (inside : ∀ m ∈ numbers, m < base + total) :
    Engine.Tuned sender suite keys keys' epoch base total (opened ++ numbers) e' where
  shares := tuned.shares.of_unopened takes.same
  stands := by
    rw [← Engine.standsFor_unopened, takes.same, Engine.standsFor_unopened]
    exact tuned.stands
  later := tuned.later
  released := (congrArg Engine.releaseAppData takes.same).trans tuned.released
  opening := (congrArg Engine.closeNotifySequence takes.same).trans tuned.opening
  check := by
    intro n low high
    rw [takes.check, tuned.check n low high]
    simp only [List.mem_append, or_imp, forall_and]
    tauto
  few := tuned.few
  low := by
    have lower := takes.lower
    have low := tuned.low
    omega
  high := takes.upper _ tuned.high inside

end Listening

section Parsing

variable {sender e : Engine} {suite : SupportedDtls13CipherSuite} {keys keys' : EpochKeys}
  {epoch base total n : Nat} {opened : List Nat} {payload wire bytes : Bytes} {payloads : List Bytes}
  {parsed : List Record}

/-- A record that opens is new, and its number is all that changes. -/
theorem openRecord_opens {slice : Bytes} {r : Record} :
    Post (openRecord slice r) e
      (fun result e' => ∀ found, result = some found → found = .ofHeader found.buffer found.record ∧
        ∃ event, e' = (e.replayUpdate found.record.sequence).logEvent event)
      fun _ _ => True := by
  unfold openRecord
  rw [post_bind, post_get]
  dsimp only
  rw [post_ite]
  refine ⟨fun _ _ => nofun, fun _ => ?_⟩
  rw [post_bind]
  refine (suiteProvider_readOnly e).mono ?_ fun _ _ _ => trivial
  rintro suite _ rfl
  rw [post_ite]
  refine ⟨fun _ _ => nofun, fun _ => ?_⟩
  split
  · exact fun _ => nofun
  · rw [post_bind, post_modify]
    split
    · exact fun _ => nofun
    · rintro _ ⟨⟩
      exact ⟨rfl, _, rfl⟩

theorem parseRecord_opens (enabled : e.peerEncryptionEnabled = true)
    (isCiphertext : Dtls13Record.isCiphertextHeader (wire.headD 0) = true) :
    Post (parseRecord wire) e
      (fun result e' => ∀ found, result = some found → found = .ofHeader found.buffer found.record ∧
        ∃ event, e' = (e.replayUpdate found.record.sequence).logEvent event)
      fun _ _ => True := by
  unfold parseRecord
  rw [post_bind]
  refine decryptSequenceNumber_first.mono ?_ fun _ _ _ => trivial
  rintro buffer _ ⟨rfl, first⟩
  rw [post_bind, post_get]
  cases Record.ofBuffer buffer with
  | error err => exact fun _ => nofun
  | ok r =>
      simp only [isCiphertext, enabled, Bool.not_true, Bool.or_self, Bool.false_eq_true, if_false]
      exact openRecord_opens

/-- A record with this data, as it is queued. -/
structure Record.IsData (epoch number : Nat) (payload : Bytes) (r : Record) : Prop where
  type : r.record.contentType = .applicationData
  sequence : r.record.sequence = ⟨epoch, number⟩
  content : r.fragment = payload
  plain : r.handshakes = []
  unhandled : r.handled = false

/-- A record whose number the window admits is opened. -/
theorem parseRecord_unseen (tuned : Engine.Tuned sender suite keys keys' epoch base total opened e)
    (isWire : DataWire suite keys epoch n payload wire) (low : base ≤ n) (high : n < base + total)
    (admitted : ∀ m ∈ opened, m ≠ n ∧ m < n + 64) :
    Post (parseRecord wire) e
      (fun result e' => ∃ r, result = some r ∧ r.IsData epoch n payload ∧ Engine.Unseals epoch [n] e e')
      fun _ _ => False := by
  obtain ⟨ciphertext, isSealed, -, fits, rfl⟩ := isWire
  have few := tuned.few
  have near := tuned.low
  have near' := tuned.high
  have resolves := (resolveEpoch_iff tuned.shares.recvKeys).mpr tuned.stands
  have type : ContentType.applicationData.asU8 ≠ 0 := by decide
  obtain ⟨r, _, _, returned, isType, isSequence, isContent, -⟩ :=
    parseRecord_wire tuned.shares resolves fits isSealed type (by omega) (by omega)
      ((tuned.check n low high).mpr admitted)
  have isOk := ok_of_value returned
  have opens := @parseRecord_opens e (wireRecord suite keys ⟨epoch, n⟩ ciphertext) tuned.shares.enabled
    flags_unified.1
  rw [Post, isOk] at opens ⊢
  obtain ⟨isRecord, event, state⟩ := opens r rfl
  refine ⟨r, rfl, ⟨isType, isSequence, isContent, ?_, congrArg Record.handled isRecord⟩, ?_⟩
  · refine (congrArg Record.handshakes isRecord).trans (if_neg ?_)
    rw [isType]
    decide
  · rw [state, isSequence]
    exact Engine.Unseals.of_opened (by rw [tuned.shares.recvKeys]; rfl)

/-- A record whose number was opened is dropped. -/
theorem parseRecord_stale (tuned : Engine.Tuned sender suite keys keys' epoch base total opened e)
    (isWire : DataWire suite keys epoch n payload wire) (low : base ≤ n) (high : n < base + total)
    (again : n ∈ opened) :
    Post (parseRecord wire) e (fun result e' => result = none ∧ e' = e) fun _ _ => False := by
  obtain ⟨ciphertext, -, -, fits, rfl⟩ := isWire
  have few := tuned.few
  have near := tuned.low
  have near' := tuned.high
  have resolves := (resolveEpoch_iff tuned.shares.recvKeys).mpr tuned.stands
  obtain ⟨isCiphertext, -, long, -⟩ := @flags_unified epoch
  have first : (wireRecord suite keys ⟨epoch, n⟩ ciphertext).headD 0 =
      0b00101100 ||| UInt8.ofNat (epoch % 4) := rfl
  have refused : e.replayCheck ⟨epoch, n⟩ = false := by
    rw [Bool.eq_false_iff]
    intro admitted
    exact ((tuned.check n low high).mp admitted n again).1 rfl
  have close : ((n : Int) - e.expectedRecvSeq epoch).natAbs < 2 ^ (numberBits true - 1) := by
    simp only [numberBits, if_true, Nat.reduceSub, Nat.reducePow]
    omega
  have completed : e.resolveSequence epoch (n % 65536) true = n := reconstructSequence_near close
  unfold parseRecord
  rw [post_bind]
  refine (decryptSequenceNumber_wire tuned.shares resolves).mono ?_ fun _ _ => id
  rintro _ _ ⟨rfl, rfl⟩
  rw [post_bind, post_get, parse_unifiedHeader fits, first, isCiphertext, tuned.shares.enabled]
  simp only [Bool.not_true, Bool.or_self, Bool.false_eq_true, if_false]
  unfold openRecord
  rw [post_bind, post_get]
  simp only [Engine.fullSequence, Record.ofHeader, first, resolves, long, completed, refused, Bool.not_false,
    if_true, post_pure, and_self]

/-- Records with this data, numbered from a number on. -/
inductive Found (epoch : Nat) : Nat → List Bytes → List Record → Prop where
  | none {n : Nat} : Found epoch n [] []
  | record {n : Nat} {payload : Bytes} {rest : List Bytes} {r : Record} {records : List Record}
      (isData : r.IsData epoch n payload) (later : Found epoch (n + 1) rest records) :
      Found epoch n (payload :: rest) (r :: records)

theorem parseRecordsLoop_nil {fuel : Nat} :
    parseRecordsLoop fuel [] parsed = (pure parsed : EngineM (List Record)) := by
  cases fuel <;> rfl

/-- A datagram whose numbers the window admits is opened up to the seventeenth record, and lost if there is
one. -/
theorem parseRecordsLoop_unseen {fuel : Nat} (carries : Carries (DataWire suite keys epoch) n payloads bytes)
    (tuned : Engine.Tuned sender suite keys keys' epoch base total opened e) (low : base ≤ n)
    (high : n + payloads.length ≤ base + total)
    (admitted : ∀ k, n ≤ k → k < n + payloads.length → ∀ m ∈ opened, m ≠ k ∧ m < k + 64)
    (enough : bytes.length ≤ fuel) (some : parsed.length ≤ 16) :
    Post (parseRecordsLoop fuel bytes parsed) e
      (fun records e' => parsed.length + payloads.length ≤ 16 ∧ ∃ found, records = parsed ++ found ∧
        Found epoch n payloads found ∧ Engine.Unseals epoch (List.range' n payloads.length) e e')
      fun fault e' => 16 < parsed.length + payloads.length ∧ fault = .transient .tooManyRecords ∧
        ∃ part ⊆ List.range' n payloads.length, Engine.Unseals epoch part e e' := by
  induction carries generalizing e opened fuel parsed with
  | none =>
      rw [parseRecordsLoop_nil]
      exact ⟨some, [], (List.append_nil _).symm, .none, .refl⟩
  | @record n payload rest wire bytes isWire later inductionHypothesis =>
      have isWire' := isWire
      obtain ⟨ciphertext, -, -, fits, rfl⟩ := isWire'
      have length := @length_wireRecord suite keys epoch n ciphertext
      rw [List.length_append, length] at enough
      rw [List.length_cons] at high admitted
      obtain ⟨fuel, rfl⟩ : ∃ rest, fuel = rest + 1 := ⟨fuel - 1, by omega⟩
      rw [parseRecordsLoop_wire fits, post_bind]
      refine (parseRecord_unseen tuned isWire low (by omega) (admitted n (Nat.le_refl n) (by omega))).mono ?_
        fun _ _ => False.elim
      rintro _ e₁ ⟨r, rfl, isData, takes⟩
      dsimp only
      rw [post_ite]
      constructor
      · intro room
        have tuned₁ := tuned.takes takes (by simpa using (by omega : n < base + total))
        refine (inductionHypothesis tuned₁ (by omega) (by omega) ?_ (by omega) ?_).mono ?_ ?_
        · intro k above below m isOpened
          rcases List.mem_append.mp isOpened with isOpened | isNew
          · exact admitted k (by omega) (by omega) m isOpened
          · obtain rfl := List.mem_singleton.mp isNew
            omega
        · rw [List.length_append, List.length_singleton]
          omega
        · rintro _ e' ⟨few, found, rfl, later, takes'⟩
          rw [List.length_append, List.length_singleton] at few
          refine ⟨by rw [List.length_cons]; omega, r :: found, by simp, .record isData later, ?_⟩
          exact takes.trans takes'
        · rintro _ e' ⟨many, rfl, part, within, takes'⟩
          rw [List.length_append, List.length_singleton] at many
          refine ⟨by rw [List.length_cons]; omega, rfl, n :: part, ?_, takes.trans takes'⟩
          rw [List.length_cons, List.range'_succ]
          exact List.cons_subset_cons n within
      · intro full
        refine ⟨by rw [List.length_cons]; omega, rfl, [n], ?_, takes⟩
        simp [List.range'_succ]

/-- A datagram whose numbers were opened gives nothing. -/
theorem parseRecordsLoop_stale {fuel : Nat} (carries : Carries (DataWire suite keys epoch) n payloads bytes)
    (tuned : Engine.Tuned sender suite keys keys' epoch base total opened e) (low : base ≤ n)
    (high : n + payloads.length ≤ base + total)
    (again : ∀ k, n ≤ k → k < n + payloads.length → k ∈ opened) (enough : bytes.length ≤ fuel) :
    Post (parseRecordsLoop fuel bytes parsed) e (fun records e' => records = parsed ∧ e' = e)
      fun _ _ => False := by
  induction carries generalizing fuel with
  | none =>
      rw [parseRecordsLoop_nil]
      exact ⟨rfl, rfl⟩
  | @record n payload rest wire bytes isWire later inductionHypothesis =>
      have isWire' := isWire
      obtain ⟨ciphertext, -, -, fits, rfl⟩ := isWire'
      have length := @length_wireRecord suite keys epoch n ciphertext
      rw [List.length_append, length] at enough
      rw [List.length_cons] at high again
      obtain ⟨fuel, rfl⟩ : ∃ rest, fuel = rest + 1 := ⟨fuel - 1, by omega⟩
      rw [parseRecordsLoop_wire fits, post_bind]
      refine (parseRecord_stale tuned isWire low (by omega) (again n (Nat.le_refl n) (by omega))).mono ?_
        fun _ _ => id
      rintro _ _ ⟨rfl, rfl⟩
      exact inductionHypothesis (by omega) (by omega) (fun k above below => again k (by omega) (by omega))
        (by omega)

/-- Data is not acted on. -/
theorem classifyRecords_found {records : List Record} (found : Found epoch n payloads records)
    (opening : e.closeNotifySequence = none) :
    Post (classifyRecords records) e (fun kept e' => kept = records ∧ e' = e) fun _ _ => False := by
  have ack : ContentType.applicationData ≠ .ack := by decide
  have alert : ContentType.applicationData ≠ .alert := by decide
  have ccs : ContentType.applicationData ≠ .changeCipherSpec := by decide
  induction found with
  | none => exact ⟨rfl, rfl⟩
  | @record n payload rest r records isData later inductionHypothesis =>
      have kept : Post (classifyRecord r) e (fun kept e' => kept = some r ∧ e' = e) fun _ _ => False := by
        unfold classifyRecord
        rw [post_bind, post_get, isData.type, opening]
        simp [ack, alert, ccs]
      unfold classifyRecords
      rw [post_bind]
      refine kept.mono ?_ fun _ _ => id
      rintro _ _ ⟨rfl, rfl⟩
      rw [post_bind]
      refine inductionHypothesis.mono ?_ fun _ _ => id
      rintro _ _ ⟨rfl, rfl⟩
      exact ⟨rfl, rfl⟩

end Parsing

section Queueing

variable {e : Engine} {packets : List (List Bytes)} {epoch base n i j : Nat} {waiting : List Nat}
  {x y : Incoming} {r : Record} {payloads : List Bytes} {records : List Record}

theorem Sequence.cmp_lt {left right : Sequence} : left.cmp right = .lt ↔
    toLex (left.epoch, left.sequenceNumber) < toLex (right.epoch, right.sequenceNumber) := by
  unfold Sequence.cmp
  rw [Prod.Lex.toLex_lt_toLex]
  by_cases less : left.epoch < right.epoch
  · simp [less]
  · by_cases greater : right.epoch < left.epoch
    · simp [less, greater]
      omega
    · have same : left.epoch = right.epoch := by omega
      simp [same, Nat.compare_eq_lt]

theorem Sequence.cmp_gt {left right : Sequence} : left.cmp right = .gt ↔
    toLex (right.epoch, right.sequenceNumber) < toLex (left.epoch, left.sequenceNumber) := by
  unfold Sequence.cmp
  rw [Prod.Lex.toLex_lt_toLex]
  by_cases less : left.epoch < right.epoch
  · simp [less]
    omega
  · by_cases greater : right.epoch < left.epoch
    · simp [less, greater]
    · have same : left.epoch = right.epoch := by omega
      simp [same, Nat.compare_eq_gt]

/-- What decides on the place of a datagram without handshakes in the receive queue. -/
def Incoming.place (incoming : Incoming) : Nat ×ₗ Nat :=
  toLex (incoming.first.record.sequence.epoch, incoming.first.record.sequence.sequenceNumber)

/-- A datagram that was opened and holds the data of a packet. -/
structure Parcel (packets : List (List Bytes)) (epoch base i : Nat) (incoming : Incoming) : Prop where
  inside : i < packets.length
  found : Found epoch (base + start packets i) (packets.getD i []) incoming.records

theorem Found.first (found : Found epoch n payloads (r :: records)) : ∃ payload, r.IsData epoch n payload := by
  cases found with
  | record isData later => exact ⟨_, isData⟩

theorem Parcel.place (parcel : Parcel packets epoch base i x) :
    x.place = toLex (epoch, base + start packets i) := by
  obtain ⟨payload, isData⟩ := Found.first parcel.found
  rw [Incoming.place, isData.sequence]

theorem Parcel.place_lt (parcel : Parcel packets epoch base i x) (parcel' : Parcel packets epoch base j y) :
    x.place < y.place ↔ start packets i < start packets j := by
  rw [parcel.place, parcel'.place, Prod.Lex.toLex_lt_toLex]
  simp

/-- A datagram with data is queued in its place. -/
theorem insertIncoming_parcel (pairs : List.Forall₂ (Parcel packets epoch base) waiting e.queueRx)
    (sorted : waiting.Pairwise (· < ·)) (filled : ∀ packet ∈ packets, packet ≠ [])
    (parcel : Parcel packets epoch base i x) (absent : i ∉ waiting)
    (room : e.queueRx.length < e.config.maxQueueRx) :
    Post (insertIncoming x) e
      (fun _ e' => ∃ queueRx, e' = { e with queueRx } ∧
        List.Forall₂ (Parcel packets epoch base) (waiting.orderedInsert (· ≤ ·) i) queueRx)
      fun _ _ => False := by
  obtain ⟨payload, isData⟩ := Found.first parcel.found
  have plain : x.first.firstHandshake = none := by
    rw [Record.firstHandshake, isData.plain]
    rfl
  have places : e.queueRx.Pairwise fun y z => y.place < z.place := by
    apply forall₂_pairwise pairs sorted
    intro j y k z isItem isItem' less
    rw [isItem.place_lt isItem']
    exact start_lt filled isItem.inside less
  unfold insertIncoming
  rw [post_bind, post_get, if_neg (Nat.not_le.mpr room), plain]
  dsimp only
  unfold insertIncomingNonHandshake
  rw [post_bind, post_get]
  split
  · rename_i index miss
    obtain ⟨front, back, split, smaller, larger, inserted⟩ :=
      Arrangement.search_miss (fun _ => Sequence.cmp_lt) (fun _ => Sequence.cmp_gt) places miss
    rw [post_set]
    refine ⟨_, rfl, ?_⟩
    rw [inserted x]
    refine forall₂_orderedInsert (split ▸ pairs) parcel ?_ ?_
    · intro y member j isItem
      have less := (isItem.place_lt parcel).mp (smaller y member)
      by_contra above
      have greater := @start_mono _ packets i j (Nat.le_of_not_lt above)
      omega
    · intro y member j isItem
      have less := (parcel.place_lt isItem).mp (larger y member)
      by_contra below
      have greater := @start_mono _ packets j i (Nat.le_of_not_lt below)
      omega
  · rename_i index hit
    obtain ⟨front, y, back, split, same, -, -⟩ :=
      Arrangement.search_hit (fun _ => Sequence.cmp_lt) (fun _ => Sequence.cmp_gt) hit
    obtain ⟨j, member, isItem⟩ := forall₂_mem pairs y (by rw [split]; simp)
    have same : y.place = x.place := same
    have notLess := mt (isItem.place_lt parcel).mpr (not_lt_of_ge same.ge)
    have notGreater := mt (parcel.place_lt isItem).mpr (not_lt_of_ge same.le)
    rcases Nat.lt_trichotomy i j with less | rfl | greater
    · exact absurd (start_lt filled parcel.inside less) notGreater
    · exact absurd member absent
    · exact absurd (start_lt filled isItem.inside greater) notLess

end Queueing

/-- What a sender put into datagrams, and a receiver of them. -/
structure Channel where
  sender : Engine
  suite : SupportedDtls13CipherSuite
  keys : EpochKeys
  keys' : EpochKeys
  epoch : Nat
  base : Nat
  mtu : Nat
  packets : List (List Bytes)
  datagrams : List Bytes
  bufLen : Nat
  polls : Nat
  room : Nat

namespace Channel

/-- The datagrams carry the packets, and the caller of the receiver gives buffers that are long enough and
polls often enough. -/
structure Sound (ch : Channel) : Prop where
  stream : Stream (DataWire ch.suite ch.keys ch.epoch) ch.mtu ch.base ch.packets ch.datagrams
  fits : ∀ payload ∈ ch.packets.flatten, payload.length ≤ ch.bufLen

/-- An engine that opened these numbers of the channel and has these packets in its queue, in order. -/
structure Listens (ch : Channel) (opened waiting : List Nat) (e : Engine) : Prop where
  tuned : Engine.Tuned ch.sender ch.suite ch.keys ch.keys' ch.epoch ch.base ch.packets.flatten.length opened e
  pairs : List.Forall₂ (Parcel ch.packets ch.epoch ch.base) waiting e.queueRx
  sorted : waiting.Pairwise (· < ·)
  short : ∀ datagram ∈ e.queueTx, datagram.length ≤ ch.bufLen
  polls : ch.packets.flatten.length + e.queueTx.length < ch.polls
  room : e.config.maxQueueRx = ch.room
  calm : e.needsKeyUpdate = false

end Channel

section Arriving

variable {ch : Channel} {e e' : Engine} {opened waiting : List Nat} {i : Nat}

theorem Engine.Tuned.of_unpolled {sender : Engine} {suite : SupportedDtls13CipherSuite}
    {keys keys' : EpochKeys} {epoch base total : Nat}
    (tuned : Engine.Tuned sender suite keys keys' epoch base total opened e)
    (same : e'.unpolled = e.unpolled) :
    Engine.Tuned sender suite keys keys' epoch base total opened e' := by
  have isSuite : e'.suiteProvider = e.suiteProvider :=
    (congrArg (fun e : Engine => e.suiteProvider) same :)
  have isKeys : e'.recvKeys epoch = e.recvKeys epoch :=
    (congrArg (fun e : Engine => e.recvKeys epoch) same :)
  have enabled : e'.peerEncryptionEnabled = e.peerEncryptionEnabled :=
    (congrArg Engine.peerEncryptionEnabled same :)
  have stands : e'.StandsFor epoch = e.StandsFor epoch :=
    (congrArg (fun e : Engine => e.StandsFor epoch) same :)
  have expected : e'.expectedRecvSeq epoch = e.expectedRecvSeq epoch :=
    (congrArg (fun e : Engine => e.expectedRecvSeq epoch) same :)
  have checks : ∀ n, e'.replayCheck ⟨epoch, n⟩ = e.replayCheck ⟨epoch, n⟩ :=
    fun n => (congrArg (fun e : Engine => e.replayCheck ⟨epoch, n⟩) same :)
  refine
    { shares :=
        { tuned.shares with
          recvSuite := isSuite.trans tuned.shares.recvSuite
          recvKeys := isKeys.trans tuned.shares.recvKeys
          enabled := enabled.trans tuned.shares.enabled }
      stands := stands.mpr tuned.stands
      later := tuned.later
      released := (congrArg Engine.releaseAppData same).trans tuned.released
      opening := (congrArg Engine.closeNotifySequence same).trans tuned.opening
      check := fun n low high => by rw [checks]; exact tuned.check n low high
      few := tuned.few
      low := expected ▸ tuned.low
      high := expected ▸ tuned.high }

theorem Engine.Unseals.logged {epoch : Nat} {event : Event} : Engine.Unseals epoch [] e (e.logEvent event) where
  same := rfl
  check := fun n => by simp [show (e.logEvent event).replayCheck ⟨epoch, n⟩ = e.replayCheck ⟨epoch, n⟩ from rfl]
  lower := Nat.le_refl _
  upper := fun _ within _ => within

/-- Opening numbers leaves the queues alone. -/
theorem Channel.Listens.takes {numbers : List Nat} (listens : ch.Listens opened waiting e)
    (takes : Engine.Unseals ch.epoch numbers e e')
    (inside : ∀ m ∈ numbers, m < ch.base + ch.packets.flatten.length) :
    ch.Listens (opened ++ numbers) waiting e' where
  tuned := listens.tuned.takes takes inside
  pairs := by
    have same : e'.queueRx = e.queueRx := (congrArg Engine.queueRx takes.same :)
    rw [same]
    exact listens.pairs
  sorted := listens.sorted
  short := by
    have same : e'.queueTx = e.queueTx := (congrArg Engine.queueTx takes.same :)
    rw [same]
    exact listens.short
  polls := by
    have same : e'.queueTx = e.queueTx := (congrArg Engine.queueTx takes.same :)
    rw [same]
    exact listens.polls
  room := by
    have same : e'.config = e.config := (congrArg Engine.config takes.same :)
    rw [same]
    exact listens.room
  calm := (congrArg Engine.needsKeyUpdate takes.same).trans listens.calm

theorem Channel.Listens.logged {event : Event} (listens : ch.Listens opened waiting e) :
    ch.Listens opened waiting (e.logEvent event) := by
  simpa using listens.takes (@Engine.Unseals.logged e ch.epoch event) (by simp)

/-- A datagram whose numbers the window admits is queued in its place, or lost as a whole if it holds more
than sixteen records. -/
theorem receivePacket_fresh (sound : ch.Sound) (listens : ch.Listens opened waiting e)
    (inside : i < ch.packets.length)
    (admitted : ∀ n ∈ numbers ch.packets ch.base i, ∀ m ∈ opened, m ≠ n ∧ m < n + 64) (absent : i ∉ waiting)
    (room : waiting.length < ch.room) :
    Post (receivePacket (ch.datagrams.getD i [])) e
      (fun _ e' => (ch.packets.getD i []).length ≤ 16 ∧
        ch.Listens (opened ++ numbers ch.packets ch.base i) (waiting.orderedInsert (· ≤ ·) i) e')
      fun fault e' => 16 < (ch.packets.getD i []).length ∧ fault = .transient .tooManyRecords ∧
        ∃ part ⊆ numbers ch.packets ch.base i, ch.Listens (opened ++ part) waiting e' := by
  have carries := (sound.stream.at_index inside).1
  have filled := sound.stream.filled
  have within : ∀ n ∈ numbers ch.packets ch.base i, n < ch.base + ch.packets.flatten.length :=
    fun n member => (numbers_bounds member).2
  have size := @start_add_length_le _ ch.packets i
  unfold receivePacket parsePacket parseRecords
  rw [post_bind, post_modify, post_bind, post_bind]
  generalize Event.received (ch.datagrams.getD i []) = event
  have logged := @Channel.Listens.logged _ _ _ _ event listens
  refine (parseRecordsLoop_unseen carries logged.tuned (Nat.le_add_right _ _) (by omega) ?_ (Nat.le_refl _)
    (Nat.zero_le _)).mono ?_ ?_
  · intro k above below m isOpened
    exact admitted k (mem_numbers.mpr ⟨above, by rw [start_succ]; omega⟩) m isOpened
  · rintro records e₁ ⟨few, found, isRecords, isFound, takes⟩
    rw [List.nil_append] at isRecords
    subst isRecords
    have listens₁ := logged.takes takes within
    refine (classifyRecords_found isFound listens₁.tuned.opening).mono ?_ fun _ _ => False.elim
    rintro kept e₂ ⟨isKept, isSame⟩
    subst isKept e₂
    cases kept with
    | nil =>
        have empty : ch.packets.getD i [] = [] := by
          generalize ch.packets.getD i [] = packet at isFound
          cases isFound
          rfl
        rw [List.getD_eq_getElem _ _ inside] at empty
        exact absurd empty (filled _ (List.getElem_mem inside))
    | cons first rest =>
        dsimp only [Incoming.ofRecords]
        have parcel : Parcel ch.packets ch.epoch ch.base i ⟨first, rest⟩ := ⟨inside, isFound⟩
        have space : e₁.queueRx.length < e₁.config.maxQueueRx := by
          rw [← listens₁.pairs.length_eq, listens₁.room]
          exact room
        refine (insertIncoming_parcel listens₁.pairs listens₁.sorted filled parcel absent space).mono ?_
          fun _ _ => False.elim
        rintro _ _ ⟨queueRx, rfl, pairs⟩
        refine ⟨by simpa using few, ?_⟩
        exact
          { tuned := listens₁.tuned.of_unpolled rfl
            pairs
            sorted := orderedInsert_sorted listens₁.sorted absent
            short := listens₁.short
            polls := listens₁.polls
            room := listens₁.room
            calm := listens₁.calm }
  · rintro _ e₁ ⟨many, rfl, part, isPart, takes⟩
    refine ⟨by simpa using many, rfl, part, isPart, ?_⟩
    exact logged.takes takes fun m member => within m (isPart member)

/-- A datagram whose numbers were opened changes nothing. -/
theorem receivePacket_stale (sound : ch.Sound) (listens : ch.Listens opened waiting e)
    (inside : i < ch.packets.length) (again : numbers ch.packets ch.base i ⊆ opened) :
    Post (receivePacket (ch.datagrams.getD i [])) e (fun _ e' => ch.Listens opened waiting e')
      fun _ _ => False := by
  have carries := (sound.stream.at_index inside).1
  have size := @start_add_length_le _ ch.packets i
  unfold receivePacket parsePacket parseRecords
  rw [post_bind, post_modify, post_bind, post_bind]
  generalize Event.received (ch.datagrams.getD i []) = event
  have logged := @Channel.Listens.logged _ _ _ _ event listens
  refine (parseRecordsLoop_stale carries logged.tuned (Nat.le_add_right _ _) (by omega) ?_
    (Nat.le_refl _)).mono ?_ fun _ _ => id
  · intro k above below
    exact again (mem_numbers.mpr ⟨above, by rw [start_succ]; omega⟩)
  · rintro _ _ ⟨rfl, rfl⟩
    exact logged

end Arriving

section Draining

variable {e e' e₀ : Engine} {bufLen count : Nat} {data : List Bytes} {now : Instant}

/-- The data that was not handed out yet. -/
def Engine.pending (e : Engine) : List Bytes := e.pendingData.map Record.fragment

theorem markFirstRecord_filter {p : Record → Bool} {records marked : List Record} {found : Record}
    (taken : markFirstRecord p records = some (found, marked)) (idle : p { found with handled := true } = false) :
    records.filter p = found :: marked.filter p := by
  induction records generalizing marked with
  | nil => cases taken
  | cons r rest inductionHypothesis =>
      unfold markFirstRecord at taken
      split at taken
      · rename_i isNext
        cases taken
        rw [List.filter_cons_of_pos isNext, List.filter_cons_of_neg (by rw [idle]; exact Bool.false_ne_true)]
      · rename_i fails
        obtain ⟨⟨other, others⟩, inRest, isMarked⟩ := Option.map_eq_some_iff.mp taken
        cases isMarked
        rw [List.filter_cons_of_neg fails, List.filter_cons_of_neg fails]
        exact inductionHypothesis inRest

theorem markFirst_filter {p : Record → Bool} {queue marked : List Incoming} {found : Record}
    (taken : markFirst p queue = some (found, marked)) (idle : p { found with handled := true } = false) :
    (queue.flatMap Incoming.records).filter p = found :: (marked.flatMap Incoming.records).filter p := by
  induction queue generalizing marked with
  | nil => cases taken
  | cons incoming rest inductionHypothesis =>
      unfold markFirst at taken
      split at taken
      · rename_i r first others inIncoming
        cases taken
        rw [List.flatMap_cons, List.flatMap_cons, List.filter_append, List.filter_append,
          markFirstRecord_filter inIncoming idle]
        rfl
      · rename_i absent
        obtain ⟨⟨other, others⟩, inRest, isMarked⟩ := Option.map_eq_some_iff.mp taken
        cases isMarked
        have none : incoming.records.filter p = [] := by
          rw [List.filter_eq_nil_iff]
          intro r member
          rw [markFirstRecord_none (markFirstRecord_absent absent) r member]
          exact Bool.false_ne_true
        rw [List.flatMap_cons, List.flatMap_cons, List.filter_append, List.filter_append, none]
        exact inductionHypothesis inRest

/-- Everything in the receive queue is data. -/
def Engine.OnlyData (e : Engine) : Prop := ∀ r ∈ e.rxRecords, r.isData = true ∧ r.handshakes = []

/-- What is left of the data while it is handed out. -/
structure Engine.HandsOut (e₀ : Engine) (bufLen : Nat) (data : List Bytes) (count : Nat) (e : Engine) :
    Prop where
  same : e.unpolled = e₀.unpolled
  calm : e.needsKeyUpdate = e₀.needsKeyUpdate
  released : e.releaseAppData = true
  opening : e.closeNotifySequence = none
  only : e.OnlyData
  pending : e.pending = data
  fits : ∀ payload ∈ data, payload.length ≤ bufLen
  short : ∀ datagram ∈ e.queueTx, datagram.length ≤ bufLen
  count : e.queueTx.length = count

theorem Engine.OnlyData.purge (only : e.OnlyData) : e.purgeHandledQueueRx.OnlyData := by
  intro r member
  apply only r
  obtain ⟨item, inQueue, inItem⟩ := List.mem_flatMap.mp member
  exact List.mem_flatMap.mpr ⟨item, (List.dropWhile_suffix _).subset inQueue, inItem⟩

theorem Engine.OnlyData.pending_purge (only : e.OnlyData) : e.purgeHandledQueueRx.pending = e.pending :=
  congrArg (List.map Record.fragment) (purge_pending fun r member _ => (only r member).2).1

/-- Data that is handed out stays data. -/
theorem Engine.OnlyData.marked {p : Record → Bool} {queueRx : List Incoming} {found : Record}
    (only : e.OnlyData) (taken : markFirst p e.queueRx = some (found, queueRx)) :
    Engine.OnlyData { e with queueRx } := by
  intro r member
  have contents := (markFirst_some taken).2.2
  have inMap : r.content ∈ (queueRx.flatMap Incoming.records).map Record.content :=
    List.mem_map_of_mem member
  rw [contents] at inMap
  obtain ⟨before, inQueue, same⟩ := List.mem_map.mp inMap
  obtain ⟨isData, plain⟩ := only before inQueue
  have sameRecord : before.record = r.record := congrArg (fun c => c.2.1) same
  have sameHandshakes := congrArg (fun c => c.2.2) same
  refine ⟨?_, ?_⟩
  · rw [Record.isData, ← sameRecord]
    exact isData
  · simp only [Record.content, plain, List.map_nil] at sameHandshakes
    exact List.map_eq_nil_iff.mp sameHandshakes.symm

/-- One poll hands out the first piece of data; with none left it sends, and in the end the queue is
empty. -/
theorem pollOutput_handsOut (hands : e₀.HandsOut bufLen data count e) :
    Post (Engine.pollOutput bufLen now) e
      (fun output e' => match output with
        | .applicationData payload => ∃ rest, data = payload :: rest ∧ e₀.HandsOut bufLen rest count e'
        | .timeout _ => data = [] ∧ e₀.HandsOut bufLen [] 0 e' ∧ e'.queueRx = []
        | _ => ∃ fewer, count = fewer + 1 ∧ e₀.HandsOut bufLen data fewer e')
      fun _ _ => False := by
  unfold Engine.pollOutput
  rw [post_bind, post_modify, post_bind]
  have only := hands.only.purge
  have pending : e.purgeHandledQueueRx.pending = data := hands.only.pending_purge.trans hands.pending
  have fits := hands.fits
  unfold pollAppData
  rw [post_bind, post_get]
  have released : e.purgeHandledQueueRx.releaseAppData = true := hands.released
  have isOpen : ¬(!e.purgeHandledQueueRx.releaseAppData) = true := by
    rw [released]
    exact Bool.false_ne_true
  rw [if_neg isOpen]
  cases taken : markFirst (fun r => r.record.contentType = .applicationData && !r.isHandled)
      e.purgeHandledQueueRx.queueRx with
  | some result =>
      obtain ⟨r, queueRx⟩ := result
      obtain ⟨queued, -, -⟩ := markFirst_some taken
      obtain ⟨-, plain⟩ := only r queued
      have idle : Record.isPending { r with handled := true } = false := by
        simp [Record.isPending, Record.isHandled, plain]
      have filtered : (e.purgeHandledQueueRx.queueRx.flatMap Incoming.records).filter Record.isPending =
          r :: (queueRx.flatMap Incoming.records).filter Record.isPending := markFirst_filter taken idle
      have split : data = r.fragment ::
          ((queueRx.flatMap Incoming.records).filter Record.isPending).map Record.fragment := by
        rw [← pending, Engine.pending, Engine.pendingData, Engine.rxRecords, filtered, List.map_cons]
      have fit : ¬bufLen < r.fragment.length := by
        have within := fits r.fragment (by rw [split]; exact List.mem_cons_self)
        omega
      dsimp only
      rw [if_neg fit, plain, List.isEmpty_nil, Bool.not_true, if_neg Bool.false_ne_true, post_bind, post_set,
        post_pure]
      dsimp only
      rw [post_pure]
      refine ⟨_, split, ?_⟩
      exact
        { same := hands.same
          calm := hands.calm
          released := hands.released
          opening := hands.opening
          only := only.marked taken
          pending := rfl
          fits := fun payload member => fits payload (by rw [split]; exact List.mem_cons_of_mem _ member)
          short := hands.short
          count := hands.count }
  | none =>
      have absent := markFirst_none taken
      have nothing : data = [] := by
        rw [← pending, Engine.pending, Engine.pendingData, List.map_eq_nil_iff, List.filter_eq_nil_iff]
        intro r member
        obtain ⟨item, inQueue, inItem⟩ := List.mem_flatMap.mp member
        have handled := absent item inQueue r inItem
        rw [Record.isPending, handled]
        exact Bool.false_ne_true
      have empty : e.purgeHandledQueueRx.queueRx = [] := by
        have done : ∀ item ∈ e.purgeHandledQueueRx.queueRx, item.records.all Record.isHandled = true := by
          intro item inQueue
          rw [List.all_eq_true]
          intro r inItem
          have handled := absent item inQueue r inItem
          have isData := (only r (List.mem_flatMap.mpr ⟨item, inQueue, inItem⟩)).1
          simp only [Record.isData, decide_eq_true_eq] at isData
          simpa [isData] using handled
        have twice : e.purgeHandledQueueRx.queueRx.dropWhile (fun item => item.records.all Record.isHandled) =
            e.purgeHandledQueueRx.queueRx := List.dropWhile_idempotent _ _
        rw [← twice]
        exact List.dropWhile_eq_nil_iff.mpr done
      dsimp only
      rw [post_pure]
      dsimp only
      rw [post_bind, post_modify]
      have idle : e.purgeHandledQueueRx.maybeScheduleHandshakeAck now =
          { e.purgeHandledQueueRx with handshakeAckDeadline := none } := by
        have settled : (!e.purgeHandledQueueRx.handshakeInProgress) = true := by
          unfold Engine.handshakeInProgress
          rw [released, Bool.not_true, Bool.and_false, Bool.not_false]
        unfold Engine.maybeScheduleHandshakeAck
        rw [if_pos settled]
      rw [idle, post_bind]
      unfold pollPacketTx
      rw [post_bind, post_get]
      dsimp only
      cases queue : e.purgeHandledQueueRx.queueTx with
      | cons packet rest =>
          have queue' : e.queueTx = packet :: rest := queue
          have fit : ¬bufLen < packet.length := by
            have within := hands.short packet (by rw [queue']; exact List.mem_cons_self)
            omega
          dsimp only
          rw [post_bind, post_set, if_neg fit, post_pure]
          dsimp only
          rw [post_pure]
          refine ⟨rest.length, ?_, ?_⟩
          · rw [← hands.count, queue', List.length_cons]
          exact
            { same := hands.same
              calm := hands.calm
              released := hands.released
              opening := hands.opening
              only := only
              pending := pending
              fits := fits
              short := fun datagram member => hands.short datagram (by
                rw [queue']
                exact List.mem_cons_of_mem _ member)
              count := rfl }
      | nil =>
          have isOpen : ¬(e.closeNotifySequence.isSome && !e.closeNotifyReported) = true := by
            rw [hands.opening, Option.isSome_none, Bool.false_and]
            exact Bool.false_ne_true
          dsimp only
          rw [post_pure]
          dsimp only
          rw [post_bind, post_get]
          split
          · next isClosed => exact absurd isClosed isOpen
          rw [post_pure]
          refine ⟨nothing, ?_, empty⟩
          exact
            { same := hands.same
              calm := hands.calm
              released := hands.released
              opening := hands.opening
              only := only
              pending := pending.trans nothing
              fits := fun _ member => absurd member List.not_mem_nil
              short := fun _ member => absurd member List.not_mem_nil
              count := rfl }

end Draining

section Handing

variable {ch : Channel} {e e' : Engine} {opened waiting : List Nat} {epoch base n : Nat}
  {packets : List (List Bytes)} {payloads : List Bytes} {records : List Record} {queue : List Incoming}

theorem Found.pending (found : Found epoch n payloads records) :
    (records.filter Record.isPending).map Record.fragment = payloads ∧
      ∀ r ∈ records, r.isData = true ∧ r.handshakes = [] := by
  induction found with
  | none => exact ⟨rfl, fun _ member => absurd member List.not_mem_nil⟩
  | @record n payload rest r records isData later inductionHypothesis =>
      obtain ⟨content, only⟩ := inductionHypothesis
      have waits : r.isPending = true := by
        simp [Record.isPending, Record.isHandled, isData.type, isData.plain, isData.unhandled]
      constructor
      · rw [List.filter_cons_of_pos waits, List.map_cons, isData.content, content]
      · refine List.forall_mem_cons.mpr ⟨⟨?_, isData.plain⟩, only⟩
        simp [Record.isData, isData.type]

theorem pending_parcels (pairs : List.Forall₂ (Parcel packets epoch base) waiting queue) :
    ((queue.flatMap Incoming.records).filter Record.isPending).map Record.fragment =
        waiting.flatMap (fun i => packets.getD i []) ∧
      ∀ r ∈ queue.flatMap Incoming.records, r.isData = true ∧ r.handshakes = [] := by
  induction pairs with
  | nil => exact ⟨rfl, fun _ member => absurd member List.not_mem_nil⟩
  | cons parcel _ inductionHypothesis =>
      obtain ⟨content, only⟩ := inductionHypothesis
      obtain ⟨here, onlyHere⟩ := parcel.found.pending
      constructor
      · rw [List.flatMap_cons, List.filter_append, List.map_append, here, content, List.flatMap_cons]
      · intro r member
        rw [List.flatMap_cons, List.mem_append] at member
        exact member.elim (onlyHere r) (only r)

theorem Channel.Listens.onlyData (listens : ch.Listens opened waiting e) : e.OnlyData :=
  (pending_parcels listens.pairs).2

/-- All data in the queue is there to be handed out. -/
theorem Channel.Listens.handsOut (listens : ch.Listens opened waiting e) (sound : ch.Sound) :
    e.HandsOut ch.bufLen (waiting.flatMap fun i => ch.packets.getD i []) e.queueTx.length e where
  same := rfl
  calm := rfl
  released := listens.tuned.released
  opening := listens.tuned.opening
  only := listens.onlyData
  pending := (pending_parcels listens.pairs).1
  fits := by
    intro payload member
    obtain ⟨i, -, inPacket⟩ := List.mem_flatMap.mp member
    apply sound.fits
    by_cases inside : i < ch.packets.length
    · rw [List.getD_eq_getElem _ _ inside] at inPacket
      exact List.mem_flatten_of_mem (List.getElem_mem inside) inPacket
    · rw [List.getD_eq_default _ _ (Nat.le_of_not_lt inside)] at inPacket
      exact absurd inPacket List.not_mem_nil
  short := listens.short
  count := rfl

/-- With all data handed out the queue is empty, and nothing else is different. -/
theorem Channel.Listens.drained (listens : ch.Listens opened waiting e)
    (hands : e.HandsOut ch.bufLen [] 0 e') (empty : e'.queueRx = []) : ch.Listens opened [] e' where
  tuned := listens.tuned.of_unpolled hands.same
  pairs := by
    rw [empty]
    exact .nil
  sorted := .nil
  short := hands.short
  polls := by
    have polls := listens.polls
    rw [hands.count]
    omega
  room := (congrArg (fun e : Engine => e.config.maxQueueRx) hands.same).trans listens.room
  calm := hands.calm.trans listens.calm

end Handing

end Dimpl.Dtls13
