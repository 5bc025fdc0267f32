import Dimpl.Dtls13.Engine.Faults
import Dimpl.Dtls13.Engine.Frame
import Dimpl.Lib.Packing

/-!
# The records of a flight

A message is cut into records by the length of the datagrams that wait, and each record
is saved for retransmission in a list of twelve. Whether a message finds room in the list
is known before it is cut.
-/

namespace Dimpl

open Nom

/-- An error other than that a list of fixed capacity is full. -/
def Fault.WithinCapacity : Fault → Prop
  | .panic .capacityExceeded => False
  | _ => True

/-- What the cipher seals is longer by the tag. -/
def Cipher.Appends (cipher : Cipher) (tagLen : Nat) : Prop :=
  ∀ plaintext aad nonce ciphertext, cipher.encrypt plaintext aad nonce = .ok ciphertext →
    ciphertext.length = plaintext.length + tagLen

namespace Dtls13

open Program Packing

/-- The records a flight can save. -/
def flightCapacity : Nat := 12

namespace Engine

/-- The transmit queue, as far as cutting a message depends on it. -/
def outbox (e : Engine) : Outbox where
  mtu := e.config.mtu
  limit := e.config.maxQueueTx
  queued := e.queueTx.length
  last := e.queueTx.getLast?.map List.length
  closed := e.datagramSealed

/-- What a record of a message is longer by than its part of the message: the headers of
the record and of the fragment and, for a protected one, the tag and the inner type. -/
def overhead (e : Engine) (type : MessageType) : Nat :=
  if epochForMessage type = 0 then Dtls13Record.plaintextHeaderLen + 12
  else 5 + 12 + ((e.suiteProvider.elim 0 SupportedDtls13CipherSuite.tagLen) + 1)

/-- The flight has room for the records of a message of this length. -/
def Fits (e : Engine) (type : MessageType) (length : Nat) : Prop :=
  e.flightSavedRecords.length +
    Outbox.records (e.overhead type) (flightCapacity + 1) e.outbox length ≤ flightCapacity

instance (e : Engine) (type : MessageType) (length : Nat) : Decidable (e.Fits type length) :=
  inferInstanceAs (Decidable (_ ≤ _))

/-- The handshake keys append a tag of this length. -/
def Seals (e : Engine) (tagLen : Nat) : Prop :=
  ∀ keys, e.hsSendKeys = some keys → keys.cipher.Appends tagLen

end Engine

section Lengths

theorem Dtls13Record.length_serialize_plaintext {contentType : ContentType} {seq : Nat}
    {fragment : Bytes} :
    (Dtls13Record.serialize contentType ⟨0, seq⟩ fragment).length =
      Dtls13Record.plaintextHeaderLen + fragment.length := by
  simp [Dtls13Record.serialize, Dtls13Record.plaintextHeader, Dtls13Record.plaintextHeaderLen, be48,
    be24, ProtocolVersion.serialize]
  omega

theorem Dtls13Record.length_serialize_unified {contentType : ContentType} {epoch seq : Nat}
    {fragment : Bytes} (isProtected : epoch ≠ 0) :
    (Dtls13Record.serialize contentType ⟨epoch, seq⟩ fragment).length = 5 + fragment.length := by
  simp [Dtls13Record.serialize, Dtls13Record.unifiedHeader, isProtected]
  omega

theorem length_maskSequenceBytes {mask bytes : Bytes} :
    (maskSequenceBytes mask bytes).length = bytes.length := by
  unfold maskSequenceBytes
  split <;> rfl

theorem Header.length_serializeFragment {header : Header} {fragment : Bytes} :
    (header.serializeFragment fragment).length = 12 + fragment.length := by
  simp [Header.serializeFragment, be24]
  omega

end Lengths

section Placing

variable {e e₁ : Engine} {append : Bool} {bytes : Bytes}

theorem Engine.canAppend_eq {length : Nat} : e.canAppend length = e.outbox.appends length := by
  unfold Engine.canAppend Outbox.appends Engine.outbox
  cases e.queueTx.getLast? <;> rfl

/-- A record in the queue is one in the outbox. -/
theorem Engine.outbox_enqueueRecord (decided : append = e.outbox.appends bytes.length)
    (free : ¬(!append && decide (e.queueTx.length ≥ e.config.maxQueueTx)) = true) :
    e.outbox.place bytes.length = some (e.enqueueRecord append bytes).outbox := by
  unfold Engine.enqueueRecord Outbox.place
  rw [← decided]
  cases append with
  | true =>
      have last : ∃ datagram, e.queueTx.getLast? = some datagram := by
        cases isLast : e.queueTx.getLast? with
        | some datagram => exact ⟨datagram, rfl⟩
        | none => simp [Outbox.appends, Engine.outbox, isLast] at decided
      obtain ⟨datagram, isLast⟩ := last
      have nonempty : e.queueTx ≠ [] := by
        intro empty
        simp [empty] at isLast
      have length : e.queueTx.length - 1 + 1 = e.queueTx.length :=
        Nat.sub_add_cancel (List.length_pos_iff.mpr nonempty)
      simp [Engine.outbox, isLast, List.getLastD_eq_getLast?, length]
  | false =>
      have room : ¬e.config.maxQueueTx ≤ e.queueTx.length := by simpa using free
      simp [Engine.outbox, room]

@[simp] theorem Engine.enqueueRecord_saved :
    (e.enqueueRecord append bytes).flightSavedRecords = e.flightSavedRecords := by
  unfold Engine.enqueueRecord
  split <;> rfl

@[simp] theorem Engine.enqueueRecord_hsSendKeys :
    (e.enqueueRecord append bytes).hsSendKeys = e.hsSendKeys := by
  unfold Engine.enqueueRecord
  split <;> rfl

/-- Only the queue and the seal matter to the outbox. -/
theorem Engine.outbox_congr (config : e₁.config = e.config) (queueTx : e₁.queueTx = e.queueTx)
    (isSealed : e₁.datagramSealed = e.datagramSealed) : e₁.outbox = e.outbox := by
  simp [Engine.outbox, config, queueTx, isSealed]

theorem checkQueueTx_post :
    Post (checkQueueTx append) e
      (fun _ e' => e = e' ∧
        ¬(!append && decide (e.queueTx.length ≥ e.config.maxQueueTx)) = true)
      (fun fault _ => fault.WithinCapacity) := by
  unfold checkQueueTx
  rw [post_bind, post_get, post_ite]
  exact ⟨fun _ => trivial, fun free => ⟨rfl, free⟩⟩

end Placing

/-- A record of a message is saved, nothing is placed yet. -/
structure Saved (e e' : Engine) : Prop where
  outbox : e'.outbox = e.outbox
  saved : e'.flightSavedRecords.length = e.flightSavedRecords.length + 1
  hsSendKeys : e'.hsSendKeys = e.hsSendKeys

/-- A record of a message took its place in the queue and in the flight. -/
structure Placed (length : Nat) (e e' : Engine) : Prop where
  outbox : e.outbox.place length = some e'.outbox
  saved : e'.flightSavedRecords.length = e.flightSavedRecords.length + 1
  hsSendKeys : e'.hsSendKeys = e.hsSendKeys

section Records

variable {e e₁ e' : Engine} {fragment bytes : Bytes} {contentType : ContentType} {append : Bool}

theorem saveEntry_saved {entry : Entry} (room : e.flightSavedRecords.length < flightCapacity) :
    Post (saveEntry entry) e (fun _ e' => Saved e e') (fun _ _ => False) := by
  unfold saveEntry
  rw [post_bind, post_get, post_ite, post_set]
  exact ⟨fun _ => ⟨rfl, List.length_append, rfl⟩, fun full => absurd room full⟩

/-- A saved record that is put into the queue. -/
theorem Saved.placed (isSaved : Saved e e₁) (decided : append = e.canAppend bytes.length)
    (free : ¬(!append && decide (e₁.queueTx.length ≥ e₁.config.maxQueueTx)) = true) :
    Placed bytes.length e (e₁.enqueueRecord append bytes) where
  outbox := by
    rw [← isSaved.outbox]
    refine Engine.outbox_enqueueRecord ?_ free
    rw [isSaved.outbox, decided, Engine.canAppend_eq]
  saved := (congrArg List.length Engine.enqueueRecord_saved).trans isSaved.saved
  hsSendKeys := Engine.enqueueRecord_hsSendKeys.trans isSaved.hsSendKeys

/-- Other fields do not matter. -/
theorem Placed.congr {length : Nat} (placed : Placed length e e₁) (outbox : e'.outbox = e₁.outbox)
    (saved : e'.flightSavedRecords = e₁.flightSavedRecords) (keys : e'.hsSendKeys = e₁.hsSendKeys) :
    Placed length e e' :=
  ⟨outbox ▸ placed.outbox, saved ▸ placed.saved, keys.trans placed.hsSendKeys⟩

theorem createPlaintextRecord_placed (room : e.flightSavedRecords.length < flightCapacity) :
    Post (createPlaintextRecord contentType true fragment) e
      (fun _ e' => Placed (Dtls13Record.plaintextHeaderLen + fragment.length) e e')
      (fun fault _ => fault.WithinCapacity) := by
  unfold createPlaintextRecord
  rw [post_bind, post_get, post_bind, post_runIf]
  refine ⟨fun _ => (saveEntry_saved room).mono ?_ fun _ _ impossible => impossible.elim,
    fun unsaved => by cases unsaved⟩
  intro _ e₁ saved
  rw [post_bind]
  refine checkQueueTx_post.mono ?_ fun _ _ within => within
  rintro _ _ ⟨rfl, free⟩
  rw [post_ite]
  refine ⟨fun _ => trivial, fun _ => ?_⟩
  rw [post_modify]
  have length := @Dtls13Record.length_serialize_plaintext contentType e.sequenceEpoch0 fragment
  have placed : Placed (Dtls13Record.serialize contentType ⟨0, e.sequenceEpoch0⟩ fragment).length e
      (e₁.enqueueRecord (e.canAppend (Dtls13Record.plaintextHeaderLen + fragment.length))
        (Dtls13Record.serialize contentType ⟨0, e.sequenceEpoch0⟩ fragment)) :=
    saved.placed (by rw [length]) free
  rw [length] at placed
  exact placed.congr rfl rfl rfl

/-- A protected record of the handshake. -/
theorem createCiphertextRecord_placed {tagLen : Nat} (seals : e.Seals tagLen)
    (room : e.flightSavedRecords.length < flightCapacity) :
    Post (createCiphertextRecord contentType 2 true fragment) e
      (fun _ e' => Placed (5 + (fragment.length + 1 + tagLen)) e e')
      (fun fault _ => fault.WithinCapacity) := by
  unfold createCiphertextRecord
  rw [post_bind, post_get, post_bind, post_runIf]
  refine ⟨fun _ => (saveEntry_saved room).mono ?_ fun _ _ impossible => impossible.elim,
    fun unsaved => by cases unsaved⟩
  intro _ e₁ saved
  rw [post_bind]
  unfold suiteProvider
  rw [post_bind, post_get, post_orThrow]
  refine ⟨fun suite _ => ?_, fun _ => trivial⟩
  rw [post_bind, post_orThrow]
  refine ⟨fun keys isKeys => ?_, fun _ => trivial⟩
  rw [post_bind, post_liftCrypto]
  refine ⟨fun ciphertext encrypted => ?_, fun _ _ => trivial⟩
  have sealedLen := seals keys isKeys _ _ _ _ encrypted
  rw [List.length_append, List.length_singleton] at sealedLen
  rw [post_bind]
  refine checkQueueTx_post.mono ?_ fun _ _ within => within
  rintro _ _ ⟨rfl, free⟩
  rw [post_ite]
  refine ⟨fun _ => trivial, fun _ => ?_⟩
  rw [post_modify, ← sealedLen]
  generalize isBytes : maskSequenceBytes _ _ = bytes
  have length : bytes.length = 5 + ciphertext.length := by
    rw [← isBytes, length_maskSequenceBytes, Dtls13Record.length_serialize_unified (by decide)]
  have bumped : Saved e (e₁.bumpSlot 2 (e.sendSlot 2)) := ⟨saved.outbox, saved.saved, saved.hsSendKeys⟩
  have placed : Placed bytes.length e ((e₁.bumpSlot 2 (e.sendSlot 2)).enqueueRecord
      (e.canAppend (5 + ciphertext.length)) bytes) :=
    bumped.placed (by rw [length]) free
  rw [length] at placed
  exact placed.congr rfl rfl rfl

end Records

/-- What a record of an epoch costs beside its part of a message. -/
def Costs (tagLen epoch overhead : Nat) : Prop :=
  (epoch = 0 ∧ overhead = Dtls13Record.plaintextHeaderLen + 12) ∨
    (epoch = 2 ∧ overhead = 5 + 12 + (tagLen + 1))

section Fragments

variable {e : Engine} {tagLen epoch overhead : Nat} {header : Header} {body : Bytes}

theorem createRecord_placed (costs : Costs tagLen epoch overhead) (seals : e.Seals tagLen)
    (room : e.flightSavedRecords.length < flightCapacity) {header : Header} {part : Bytes} :
    Post (createRecord .handshake epoch true (header.serializeFragment part)) e
      (fun _ e' => Placed (overhead + part.length) e e') (fun fault _ => fault.WithinCapacity) := by
  rcases costs with ⟨rfl, rfl⟩ | ⟨rfl, rfl⟩
  · have length : Dtls13Record.plaintextHeaderLen + 12 + part.length =
        Dtls13Record.plaintextHeaderLen + (header.serializeFragment part).length := by
      rw [Header.length_serializeFragment, Nat.add_assoc]
    rw [length]
    exact createPlaintextRecord_placed room
  · have length : 5 + 12 + (tagLen + 1) + part.length =
        5 + ((header.serializeFragment part).length + 1 + tagLen) := by
      rw [Header.length_serializeFragment]
      omega
    rw [length]
    exact createCiphertextRecord_placed seals room

theorem chunkLen_eq {offset : Nat} :
    chunkLen e overhead body.length offset = min (body.length - offset) (e.outbox.room overhead) := by
  have used : (e.queueTx.getLast?.map List.length).getD 0 = e.outbox.last.getD 0 := rfl
  unfold chunkLen Outbox.room
  rw [used]
  dsimp only
  by_cases empty : body.length = 0
  · simp [empty]
  · rw [if_neg empty]
    rfl

/-- The loop of `create_handshake` saves the records that are counted. -/
theorem createFragments_within (costs : Costs tagLen epoch overhead) (seals : e.Seals tagLen)
    {fuel offset : Nat} (more : offset < body.length ∨ (body.length = 0 ∧ offset = 0))
    (counted : Outbox.records overhead fuel e.outbox (body.length - offset) < fuel)
    (fits : e.flightSavedRecords.length +
      Outbox.records overhead fuel e.outbox (body.length - offset) ≤ flightCapacity) :
    Post (createFragments header epoch overhead body fuel offset) e (fun _ _ => True)
      (fun fault _ => fault.WithinCapacity) := by
  induction fuel generalizing e offset with
  | zero => exact absurd counted (Nat.not_lt_zero _)
  | succ fuel inductionHypothesis =>
      unfold createFragments
      have enters : (decide (offset < body.length) || decide (body.length = 0) && decide (offset = 0)) = true := by
        simpa using more
      dsimp only
      rw [if_pos enters, post_bind, post_get, post_bind, chunkLen_eq]
      generalize isChunk : min (body.length - offset) (e.outbox.room overhead) = chunk
      have length : ((body.drop offset).take chunk).length = chunk := by
        simp only [List.length_take, List.length_drop]
        omega
      unfold Outbox.records at counted fits
      dsimp only at counted fits
      rw [isChunk] at counted fits
      have room : e.flightSavedRecords.length < flightCapacity := by
        split at fits
        · omega
        · split at fits <;> omega
      refine (createRecord_placed costs seals room).mono ?_ fun _ _ within => within
      intro _ e₁ placed
      rw [length] at placed
      rw [placed.outbox] at counted fits
      dsimp only at counted fits
      rw [post_runIf]
      refine ⟨fun nonempty => ?_, fun _ => trivial⟩
      have nonempty := of_decide_eq_true nonempty
      split at counted
      · -- The rest of the message was in this record.
        rename_i last
        cases fuel with
        | zero => omega
        | succ fuel =>
            unfold createFragments
            dsimp only
            rw [if_neg (by simp; omega)]
            trivial
      · rename_i rest
        rw [if_neg rest] at fits
        have left : body.length - (offset + chunk) = body.length - offset - chunk := by omega
        have same : e₁.Seals tagLen := by
          intro keys isKeys
          exact seals keys (placed.hsSendKeys ▸ isKeys)
        refine inductionHypothesis same (.inl (by omega)) ?_ ?_
        · rw [left]
          omega
        · rw [left, placed.saved]
          omega

/-- A message that the flight has room for. -/
theorem createHandshake_within {type : MessageType} {writeBody : EngineM Bytes}
    (reads : ReadOnly writeBody) (seals : e.Seals tagLen)
    (suites : ∀ suite, e.suiteProvider = some suite → suite.tagLen = tagLen)
    (writes : Post writeBody e (fun body _ => e.Fits type body.length)
      (fun fault _ => fault.WithinCapacity)) :
    Post (createHandshake type writeBody) e (fun _ _ => True)
      (fun fault _ => fault.WithinCapacity) := by
  unfold createHandshake
  rw [post_bind]
  refine ((reads e).and writes).mono ?_ fun _ _ failed => failed.2
  rintro body _ ⟨rfl, fits⟩
  rw [post_bind, post_get, post_bind, post_set]
  have more : 0 < body.length ∨ (body.length = 0 ∧ 0 = 0) := by omega
  have counted : Outbox.records (e.overhead type) (flightCapacity + 1) e.outbox body.length <
      flightCapacity + 1 := by
    unfold Engine.Fits at fits
    omega
  rw [post_ite]
  refine ⟨fun isPlain => ?_, fun isProtected => ?_⟩
  · have isOverhead : e.overhead type = Dtls13Record.plaintextHeaderLen + 12 := if_pos isPlain
    unfold Engine.Fits at fits
    rw [isOverhead] at counted fits
    have costs : Costs tagLen (epochForMessage type) (Dtls13Record.plaintextHeaderLen + 12) :=
      .inl ⟨isPlain, rfl⟩
    refine createFragments_within costs ?_ more counted fits
    exact seals
  · have isEpoch : epochForMessage type = 2 := by
      unfold epochForMessage at isProtected ⊢
      split at isProtected
      · exact absurd rfl isProtected
      · rename_i other
        exact if_neg other
    unfold suiteProvider
    rw [post_bind, post_bind, post_get, post_orThrow]
    refine ⟨fun suite isSuite => ?_, fun _ => trivial⟩
    have isOverhead : e.overhead type = 5 + 12 + (suite.tagLen + 1) := by
      unfold Engine.overhead
      rw [if_neg isProtected, show e.suiteProvider = some suite from isSuite]
      rfl
    unfold Engine.Fits at fits
    rw [isOverhead] at counted fits
    refine createFragments_within (.inr ⟨isEpoch, by rw [suites suite isSuite]⟩) ?_ more counted fits
    exact seals

end Fragments

end Dtls13

end Dimpl
