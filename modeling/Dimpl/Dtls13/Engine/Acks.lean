import Dimpl.Dtls13.Engine.Protection
import Dimpl.Dtls13.Engine.Sealing

/-!
# Acknowledgements

What an ACK does to the flight, and what a retransmission makes of what is left: the entries that
are listed are marked, a flight that is done is dropped, and the others are sent again under numbers
that were not used.
-/

namespace Dimpl.Dtls13

open Nom Program

section Lists

variable {numbers : List (Nat × Nat)}

/-- A list of numbers of eight bytes each is read back. -/
theorem ackedNumbers_flatMap (words : ∀ number ∈ numbers, number.1 < 2 ^ 64 ∧ number.2 < 2 ^ 64) :
    ((List.range numbers.length).map fun i =>
      (beValue (((numbers.flatMap fun number => be64 number.1 ++ be64 number.2).drop (i * 16)).take 8),
        beValue (((numbers.flatMap fun number => be64 number.1 ++ be64 number.2).drop (i * 16 + 8)).take 8))) =
      numbers := by
  induction numbers with
  | nil => rfl
  | cons number rest inductionHypothesis =>
      obtain ⟨small, small'⟩ := words number List.mem_cons_self
      have later := inductionHypothesis fun other member => words other (List.mem_cons_of_mem _ member)
      have skip : ∀ i j, ((be64 number.1 ++ be64 number.2) ++
          rest.flatMap fun number => be64 number.1 ++ be64 number.2).drop ((i + 1) * 16 + j) =
          (rest.flatMap fun number => be64 number.1 ++ be64 number.2).drop (i * 16 + j) := by
        intro i j
        rw [show (i + 1) * 16 + j = 16 + (i * 16 + j) by omega, ← List.drop_drop]
        exact congrArg _ (List.drop_left' rfl)
      have first : beValue (be64 number.1) = number.1 := by
        rw [beValue_be64]
        exact Nat.mod_eq_of_lt small
      have second : beValue (be64 number.2) = number.2 := by
        rw [beValue_be64]
        exact Nat.mod_eq_of_lt small'
      rw [List.length_cons, List.range_succ_eq_map, List.map_cons, List.map_map, List.flatMap_cons]
      congr 1
      · rw [Nat.zero_mul, List.drop_zero, Nat.zero_add, List.append_assoc, List.take_left' (length_be64 _),
          List.drop_left' (length_be64 _), List.take_left' (length_be64 _), first, second]
      · refine Eq.trans (List.map_congr_left fun i _ => ?_) later
        have start := skip i 0
        simp only [Nat.add_zero] at start
        simp only [Function.comp_apply, Nat.succ_eq_add_one, start, skip i 8]

/-- The numbers of an ACK are read back. -/
theorem ackedNumbers_ackFragment (few : numbers.length * 16 < 65536)
    (words : ∀ number ∈ numbers, number.1 < 2 ^ 64 ∧ number.2 < 2 ^ 64) :
    ackedNumbers (ackFragment numbers) = some numbers := by
  have length : (numbers.flatMap fun number => be64 number.1 ++ be64 number.2).length =
      numbers.length * 16 := by
    rw [List.length_flatMap]
    simp
  have front : beValue ((ackFragment numbers).take 2) = numbers.length * 16 := by
    rw [ackFragment, List.take_left' (length_be16 _), beValue_be16]
    exact Nat.mod_eq_of_lt few
  have back : (ackFragment numbers).drop 2 =
      numbers.flatMap fun number => be64 number.1 ++ be64 number.2 := List.drop_left' (length_be16 _)
  have long : ¬(ackFragment numbers).length < 2 := by
    rw [ackFragment, List.length_append, length_be16]
    omega
  unfold ackedNumbers
  simp only [front, back, length, long]
  rw [if_neg (by simp), Nat.mul_div_cancel _ (by decide)]
  exact congrArg some (ackedNumbers_flatMap words)

/-- A fragment of the wrong length is no list. -/
theorem ackedNumbers_malformed {fragment : Bytes}
    (malformed : fragment.length < 2 ∨ fragment.length - 2 ≠ beValue (fragment.take 2) ∨
      (fragment.length - 2) % 16 ≠ 0) :
    ackedNumbers fragment = none := by
  unfold ackedNumbers
  rw [if_pos]
  simp only [List.length_drop, Bool.or_eq_true, decide_eq_true_eq]
  omega

end Lists

section Marks

variable {e : Engine} {numbers : List (Nat × Nat)} {fragment : Bytes}

/-- An entry whose current number is listed is marked. -/
def Entry.mark (numbers : List (Nat × Nat)) (entry : Entry) : Entry :=
  if (entry.epoch, entry.sendSeq) ∈ numbers then { entry with acked := true } else entry

/-- An entry was acknowledged before or is listed. -/
def Entry.Settled (numbers : List (Nat × Nat)) (entry : Entry) : Prop :=
  entry.acked = true ∨ (entry.epoch, entry.sendSeq) ∈ numbers

/-- A flight is done: what it has of the handshake is acknowledged, or all of it while the keys
before a KeyUpdate are kept. -/
def Engine.FlightDone (e : Engine) (numbers : List (Nat × Nat)) : Prop :=
  ((∃ entry ∈ e.flightSavedRecords, entry.epoch = 2) ∧
      ∀ entry ∈ e.flightSavedRecords, entry.epoch = 2 → entry.Settled numbers) ∨
    e.prevAppSendKeys.isSome ∧ e.flightSavedRecords ≠ [] ∧
      ∀ entry ∈ e.flightSavedRecords, entry.Settled numbers

@[simp] theorem Entry.mark_epoch {entry : Entry} : (entry.mark numbers).epoch = entry.epoch := by
  unfold Entry.mark
  split <;> rfl

theorem Entry.mark_acked {entry : Entry} : (entry.mark numbers).acked = true ↔ entry.Settled numbers := by
  unfold Entry.mark Entry.Settled
  split <;> simp_all

theorem Entry.mark_mark {entry : Entry} : (entry.mark numbers).mark numbers = entry.mark numbers := by
  by_cases listed : (entry.epoch, entry.sendSeq) ∈ numbers
  · simp [Entry.mark, listed]
  · simp [Entry.mark, listed]

theorem Engine.markAcked_eq :
    e.markAcked numbers = { e with flightSavedRecords := e.flightSavedRecords.map (Entry.mark numbers) } := by
  unfold Engine.markAcked
  congr 1
  refine List.map_congr_left fun entry _ => ?_
  unfold Entry.mark
  simp only [List.contains_iff_mem]

/-- Handshake flights end when what they have of epoch 2 is acknowledged. -/
theorem Engine.endHandshakeFlight_eq :
    ((∃ entry ∈ e.flightSavedRecords, entry.epoch = 2) ∧
      (∀ entry ∈ e.flightSavedRecords, entry.epoch = 2 → entry.acked = true) ∧
      e.endHandshakeFlight = { e with flightTimeout := .disabled, flightSavedRecords := [] }) ∨
    ¬((∃ entry ∈ e.flightSavedRecords, entry.epoch = 2) ∧
      ∀ entry ∈ e.flightSavedRecords, entry.epoch = 2 → entry.acked = true) ∧
      e.endHandshakeFlight = e := by
  unfold Engine.endHandshakeFlight
  dsimp only
  split
  · rename_i done
    simp only [Bool.and_eq_true, Bool.not_eq_true', List.isEmpty_eq_false_iff_exists_mem, List.mem_filter,
      decide_eq_true_eq, List.all_eq_true, and_imp] at done
    obtain ⟨⟨entry, member, isEpoch⟩, acked⟩ := done
    exact .inl ⟨⟨entry, member, isEpoch⟩, acked, rfl⟩
  · rename_i notDone
    refine .inr ⟨fun done => notDone ?_, rfl⟩
    obtain ⟨⟨entry, member, isEpoch⟩, acked⟩ := done
    simp only [Bool.and_eq_true, Bool.not_eq_true', List.isEmpty_eq_false_iff_exists_mem, List.mem_filter,
      decide_eq_true_eq, List.all_eq_true, and_imp]
    exact ⟨⟨entry, member, isEpoch⟩, acked⟩

/-- The flight of a KeyUpdate ends when all of it is acknowledged. -/
theorem Engine.endKeyUpdate_eq :
    (e.prevAppSendKeys.isSome ∧ e.flightSavedRecords ≠ [] ∧
      (∀ entry ∈ e.flightSavedRecords, entry.acked = true) ∧
      e.endKeyUpdate =
        { e with prevAppSendKeys := none, flightSavedRecords := [], flightTimeout := .disabled }) ∨
    ¬(e.prevAppSendKeys.isSome ∧ e.flightSavedRecords ≠ [] ∧
      ∀ entry ∈ e.flightSavedRecords, entry.acked = true) ∧ e.endKeyUpdate = e := by
  unfold Engine.endKeyUpdate
  split
  · rename_i done
    simp only [Bool.and_eq_true, Bool.not_eq_true', List.all_eq_true] at done
    exact .inl ⟨done.1.1, by simpa using done.1.2, done.2, rfl⟩
  · rename_i notDone
    refine .inr ⟨fun done => notDone ?_, rfl⟩
    simp only [Bool.and_eq_true, Bool.not_eq_true', List.all_eq_true]
    exact ⟨⟨done.1, by simpa using done.2.1⟩, done.2.2⟩

theorem Engine.endKeyUpdate_none (none : e.flightSavedRecords = []) : e.endKeyUpdate = e := by
  simp [Engine.endKeyUpdate, none]

/-- A flight that is done is dropped, in any other the listed entries are marked. -/
theorem Engine.processAck_flight (isList : ackedNumbers fragment = some numbers) :
    (e.FlightDone numbers → (e.processAck fragment).flightSavedRecords = []) ∧
      (¬e.FlightDone numbers →
        (e.processAck fragment).flightSavedRecords = e.flightSavedRecords.map (Entry.mark numbers)) := by
  have acked : (∀ entry ∈ (e.markAcked numbers).flightSavedRecords, entry.epoch = 2 → entry.acked = true) ↔
      ∀ entry ∈ e.flightSavedRecords, entry.epoch = 2 → entry.Settled numbers := by
    simp [Engine.markAcked_eq, Entry.mark_acked]
  have all : (∀ entry ∈ (e.markAcked numbers).flightSavedRecords, entry.acked = true) ↔
      ∀ entry ∈ e.flightSavedRecords, entry.Settled numbers := by
    simp [Engine.markAcked_eq, Entry.mark_acked]
  have some : (∃ entry ∈ (e.markAcked numbers).flightSavedRecords, entry.epoch = 2) ↔
      ∃ entry ∈ e.flightSavedRecords, entry.epoch = 2 := by
    simp [Engine.markAcked_eq]
  have nonempty : (e.markAcked numbers).flightSavedRecords ≠ [] ↔ e.flightSavedRecords ≠ [] := by
    simp [Engine.markAcked_eq]
  have marked : (e.markAcked numbers).flightSavedRecords = e.flightSavedRecords.map (Entry.mark numbers) := by
    rw [Engine.markAcked_eq]
  have previous : (e.markAcked numbers).prevAppSendKeys = e.prevAppSendKeys := rfl
  unfold Engine.processAck
  rw [isList]
  dsimp only
  rcases (e.markAcked numbers).endHandshakeFlight_eq with ⟨isHandshake, isAcked, ended⟩ | ⟨notDone, kept⟩
  · rw [ended, Engine.endKeyUpdate_none rfl]
    exact ⟨fun _ => rfl, fun notDone => absurd (.inl ⟨some.mp isHandshake, acked.mp isAcked⟩) notDone⟩
  · rw [kept]
    rw [some, acked] at notDone
    rcases (e.markAcked numbers).endKeyUpdate_eq with ⟨isSome, more, isAcked, ended⟩ | ⟨notUpdate, same⟩
    · rw [ended]
      exact ⟨fun _ => rfl, fun notDone =>
        absurd (.inr ⟨previous ▸ isSome, nonempty.mp more, all.mp isAcked⟩) notDone⟩
    · rw [same]
      rw [nonempty, all, previous] at notUpdate
      exact ⟨fun done => (done.elim notDone notUpdate).elim, fun _ => marked⟩

/-- An ACK that is processed again changes nothing more. -/
theorem Engine.processAck_processAck : (e.processAck fragment).processAck fragment = e.processAck fragment := by
  unfold Engine.processAck
  cases isList : ackedNumbers fragment with
  | none => rfl
  | some numbers =>
      dsimp only
      -- An empty flight has nothing to mark and nothing to end.
      have empty : ∀ e' : Engine, e'.flightSavedRecords = [] →
          ((e'.markAcked numbers).endHandshakeFlight).endKeyUpdate = e' := by
        intro e' none
        have unmarked : e'.markAcked numbers = e' := by
          rw [Engine.markAcked_eq, none, List.map_nil, ← none]
        rw [unmarked, show e'.endHandshakeFlight = e' by simp [Engine.endHandshakeFlight, none]]
        exact Engine.endKeyUpdate_none none
      have twice : (e.markAcked numbers).markAcked numbers = e.markAcked numbers := by
        rw [Engine.markAcked_eq, Engine.markAcked_eq, List.map_map]
        congr 1
        exact List.map_congr_left fun entry _ => Entry.mark_mark
      rcases (e.markAcked numbers).endHandshakeFlight_eq with ⟨-, -, ended⟩ | ⟨notDone, kept⟩
      · refine empty _ ?_
        rw [ended, Engine.endKeyUpdate_none rfl]
      · rw [kept]
        rcases (e.markAcked numbers).endKeyUpdate_eq with ⟨-, -, -, ended⟩ | ⟨-, same⟩
        · refine empty _ ?_
          rw [ended]
        · rw [same, twice, kept, same]

/-- The order of the numbers does not matter. -/
theorem Engine.markAcked_perm {numbers' : List (Nat × Nat)} (perm : numbers'.Perm numbers) :
    e.markAcked numbers' = e.markAcked numbers := by
  rw [Engine.markAcked_eq, Engine.markAcked_eq]
  congr 1
  refine List.map_congr_left fun entry _ => ?_
  simp only [Entry.mark, perm.mem_iff]

end Marks

section Resending

variable {e e' : Engine}

/-- What a record of an epoch is made of besides its number: configuration, suite and send keys. -/
structure Outfit where
  config : Config
  cipherSuite : Option Dtls13CipherSuite
  hsSendKeys : Option EpochKeys
  prevAppSendKeys : Option EpochKeys
  prevAppSendEpoch : Nat
  appSendKeys : Option EpochKeys

/-- The outfit of an engine. -/
def Engine.outfit (e : Engine) : Outfit where
  config := e.config
  cipherSuite := e.cipherSuite
  hsSendKeys := e.hsSendKeys
  prevAppSendKeys := e.prevAppSendKeys
  prevAppSendEpoch := e.prevAppSendEpoch
  appSendKeys := e.appSendKeys

/-- The record of an entry under its number. -/
def Engine.recordOf (e : Engine) (entry : Entry) : Option Bytes :=
  if entry.epoch = 0 then
    some (Dtls13Record.serialize entry.contentType ⟨0, entry.sendSeq⟩ entry.fragment)
  else do
    let suite ← e.suiteProvider
    let keys ← e.slotKeys (e.sendSlot entry.epoch)
    let header := Dtls13Record.unifiedHeader ⟨entry.epoch, entry.sendSeq⟩
      (entry.fragment.length + 1 + suite.tagLen)
    let ciphertext ← (keys.cipher.encrypt (entry.fragment ++ [entry.contentType.asU8]) (Aad.newDtls13 header)
      (Nonce.xor keys.iv entry.sendSeq)).toOption
    return maskSequenceBytes (snMask suite keys ciphertext)
      (Dtls13Record.serialize .applicationData ⟨entry.epoch, entry.sendSeq⟩ ciphertext)

/-- Two epochs count their records together. -/
def Engine.SameCount (e : Engine) (epoch other : Nat) : Prop :=
  (epoch = 0 ↔ other = 0) ∧ e.sendSlot epoch = e.sendSlot other

/-- What a retransmission leaves of an entry. -/
def Entry.content (entry : Entry) : ContentType × Nat × Bytes × Bool :=
  (entry.contentType, entry.epoch, entry.fragment, entry.acked)

theorem sendSlot_of_outfit (same : e'.outfit = e.outfit) {epoch : Nat} :
    e'.sendSlot epoch = e.sendSlot epoch := by
  have keys : e'.prevAppSendKeys = e.prevAppSendKeys := congrArg Outfit.prevAppSendKeys same
  have previous : e'.prevAppSendEpoch = e.prevAppSendEpoch := congrArg Outfit.prevAppSendEpoch same
  rw [Engine.sendSlot, Engine.sendSlot, keys, previous]

theorem recordOf_of_outfit (same : e'.outfit = e.outfit) : e'.recordOf = e.recordOf := by
  have config : e'.config = e.config := congrArg Outfit.config same
  have suite : e'.cipherSuite = e.cipherSuite := congrArg Outfit.cipherSuite same
  have provider : e'.suiteProvider = e.suiteProvider := by
    rw [Engine.suiteProvider, Engine.suiteProvider, config, suite]
  have keys : e'.slotKeys = e.slotKeys := by
    funext slot
    cases slot with
    | handshake => exact congrArg Outfit.hsSendKeys same
    | previous => exact congrArg Outfit.prevAppSendKeys same
    | current => exact congrArg Outfit.appSendKeys same
  funext entry
  unfold Engine.recordOf
  rw [provider, keys, sendSlot_of_outfit same]

/-- A record that is placed in the queue has the next number of its epoch, which is counted. -/
structure Engine.Placed (e e' : Engine) (entry : Entry) : Prop where
  outfit : e'.outfit = e.outfit
  number : entry.sendSeq = e.nextSeq entry.epoch
  record : ∃ record, e.recordOf entry = some record ∧ e'.queueTx.flatten = e.queueTx.flatten ++ record
  counted : ∀ epoch, e.SameCount entry.epoch epoch → e'.nextSeq epoch = e.nextSeq epoch + 1
  others : ∀ epoch, e.nextSeq epoch ≤ e'.nextSeq epoch

theorem Engine.enqueueRecord_flatten {append : Bool} {bytes : Bytes} :
    (e.enqueueRecord append bytes).queueTx.flatten = e.queueTx.flatten ++ bytes := by
  unfold Engine.enqueueRecord
  cases append with
  | false => simp
  | true =>
      rcases List.eq_nil_or_concat e.queueTx with none | ⟨front, last, isLast⟩
      · simp [none]
      · simp [isLast]

theorem createPlaintextRecord_places {contentType : ContentType} {fragment : Bytes} :
    Post (createPlaintextRecord contentType false fragment) e
      (fun _ e' => e.Placed e' { contentType, epoch := 0, sendSeq := e.sequenceEpoch0, fragment, acked := false })
      fun _ _ => True := by
  unfold createPlaintextRecord runIf checkQueueTx
  rw [post_bind, post_get, if_neg Bool.false_ne_true, post_bind, post_pure, post_bind, post_bind, post_get,
    post_ite]
  refine ⟨fun _ => trivial, fun _ => ?_⟩
  rw [post_pure, post_ite]
  refine ⟨fun _ => trivial, fun _ => ?_⟩
  rw [post_modify]
  refine ⟨?_, rfl, ⟨_, rfl, Engine.enqueueRecord_flatten⟩, ?_, ?_⟩
  · unfold Engine.enqueueRecord
    split <;> rfl
  · rintro epoch ⟨zero, -⟩
    simp [Engine.nextSeq, zero.mp rfl]
  · intro epoch
    unfold Engine.nextSeq
    split
    · exact Nat.le_succ _
    · unfold Engine.enqueueRecord
      split <;> exact Nat.le_refl _

theorem slotSeq_bumpSlot {epoch : Nat} {slot other : SendSlot} :
    (e.bumpSlot epoch slot).slotSeq other = if other = slot then e.slotSeq slot + 1 else e.slotSeq other := by
  cases slot <;> cases other <;> rfl

theorem createCiphertextRecord_places {contentType : ContentType} {epoch : Nat} {fragment : Bytes}
    (isProtected : epoch ≠ 0) :
    Post (createCiphertextRecord contentType epoch false fragment) e
      (fun _ e' => e.Placed e'
        { contentType, epoch, sendSeq := e.slotSeq (e.sendSlot epoch), fragment, acked := false })
      fun _ _ => True := by
  unfold createCiphertextRecord suiteProvider checkQueueTx
  rw [post_bind, post_get, post_bind]
  unfold runIf
  rw [if_neg Bool.false_ne_true, post_pure, post_bind, post_bind, post_get, post_orThrow]
  refine ⟨fun suite isSuite => ?_, fun _ => trivial⟩
  rw [post_bind, post_orThrow]
  refine ⟨fun keys isKeys => ?_, fun _ => trivial⟩
  rw [post_bind, post_liftCrypto]
  refine ⟨fun ciphertext isSealed => ?_, fun _ _ => trivial⟩
  rw [List.length_append, List.length_singleton] at isSealed
  rw [post_bind, post_bind, post_get, post_ite]
  refine ⟨fun _ => trivial, fun _ => ?_⟩
  rw [post_pure, post_ite]
  refine ⟨fun _ => trivial, fun _ => ?_⟩
  rw [post_modify]
  -- Logging and queueing change neither the outfit nor the counts.
  have number : ∀ (e₁ : Engine) append bytes event other,
      ((e₁.enqueueRecord append bytes).logEvent event).nextSeq other =
        if other = 0 then e₁.sequenceEpoch0 else e₁.slotSeq (e₁.sendSlot other) := by
    intro e₁ append bytes event other
    cases append <;> rfl
  have outfit : ∀ (e₁ : Engine) append bytes event,
      ((e₁.enqueueRecord append bytes).logEvent event).outfit = e₁.outfit := by
    intro e₁ append bytes event
    cases append <;> rfl
  have bumped : (e.bumpSlot epoch (e.sendSlot epoch)).outfit = e.outfit := by
    cases e.sendSlot epoch <;> rfl
  have plain : (e.bumpSlot epoch (e.sendSlot epoch)).sequenceEpoch0 = e.sequenceEpoch0 := by
    cases e.sendSlot epoch <;> rfl
  have queue : (e.bumpSlot epoch (e.sendSlot epoch)).queueTx = e.queueTx := by
    cases e.sendSlot epoch <;> rfl
  refine ⟨(outfit _ _ _ _).trans bumped, (if_neg isProtected).symm,
    ⟨maskSequenceBytes (snMask suite keys ciphertext)
      (Dtls13Record.serialize .applicationData ⟨epoch, e.slotSeq (e.sendSlot epoch)⟩ ciphertext), ?_, ?_⟩,
    ?_, ?_⟩
  · unfold Engine.recordOf
    simp only [isProtected, if_false, isSuite, isKeys, Option.bind_eq_bind, Option.bind_some]
    rw [isSealed]
    rfl
  · rw [← queue]
    exact Engine.enqueueRecord_flatten
  · rintro other ⟨zero, sameSlot⟩
    have isOther : other ≠ 0 := fun none => isProtected (zero.mpr none)
    rw [number, if_neg isOther, sendSlot_of_outfit bumped, slotSeq_bumpSlot, if_pos sameSlot.symm,
      Engine.nextSeq, if_neg isOther, sameSlot]
  · intro other
    rw [number, Engine.nextSeq, sendSlot_of_outfit bumped, slotSeq_bumpSlot, plain]
    split
    · exact Nat.le_refl _
    · split
      · rename_i sameSlot
        rw [sameSlot]
        exact Nat.le_succ _
      · exact Nat.le_refl _

theorem createRecord_places {contentType : ContentType} {epoch : Nat} {fragment : Bytes} :
    Post (createRecord contentType epoch false fragment) e
      (fun _ e' => e.Placed e' { contentType, epoch, sendSeq := e.nextSeq epoch, fragment, acked := false })
      fun _ _ => True := by
  unfold createRecord
  rw [post_ite]
  refine ⟨?_, fun isProtected => ?_⟩
  · rintro rfl
    exact createPlaintextRecord_places
  · rw [Engine.nextSeq, if_neg isProtected]
    exact createCiphertextRecord_places isProtected

/-- What a retransmission of entries does: those that are not acknowledged are placed in the queue, in
order, under numbers from the counts on, and keep these numbers. -/
structure Engine.Resends (e e' : Engine) (entries resent : List Entry) : Prop where
  outfit : e'.outfit = e.outfit
  content : resent.map Entry.content = entries.map Entry.content
  acked : resent.filter Entry.acked = entries.filter Entry.acked
  records : ∃ records, (resent.filter fun entry => !entry.acked).mapM e.recordOf = some records ∧
    e'.queueTx.flatten = e.queueTx.flatten ++ records.flatten
  fresh : ∀ entry ∈ resent, entry.acked = false →
    e.nextSeq entry.epoch ≤ entry.sendSeq ∧ entry.sendSeq < e'.nextSeq entry.epoch
  distinct : (resent.filter fun entry => !entry.acked).Pairwise fun first second =>
    e.SameCount first.epoch second.epoch → first.sendSeq < second.sendSeq
  others : ∀ epoch, e.nextSeq epoch ≤ e'.nextSeq epoch

theorem sameCount_of_outfit (same : e'.outfit = e.outfit) {epoch other : Nat} :
    e'.SameCount epoch other ↔ e.SameCount epoch other := by
  rw [Engine.SameCount, Engine.SameCount, sendSlot_of_outfit same, sendSlot_of_outfit same]

theorem Engine.SameCount.refl {epoch : Nat} : e.SameCount epoch epoch := ⟨Iff.rfl, rfl⟩

/-- The loop of `flight_resend`. -/
theorem resendEntries_resends {entries : List Entry} :
    Post (resendEntries entries) e (fun resent e' => e.Resends e' entries resent) fun _ _ => True := by
  induction entries generalizing e with
  | nil =>
      refine ⟨rfl, rfl, rfl, ⟨[], rfl, by simp⟩, nofun, List.Pairwise.nil, fun _ => Nat.le_refl _⟩
  | cons entry rest inductionHypothesis =>
      unfold resendEntries resendEntry
      rw [post_bind, post_bind, post_get, post_ite]
      constructor
      · intro isAcked
        rw [post_pure, post_bind]
        refine inductionHypothesis.mono ?_ fun _ _ _ => trivial
        rintro resent e' resends
        rw [post_pure]
        refine ⟨resends.outfit, by rw [List.map_cons, List.map_cons, resends.content], ?_, ?_, ?_, ?_,
          resends.others⟩
        · rw [List.filter_cons_of_pos isAcked, List.filter_cons_of_pos isAcked, resends.acked]
        · rw [List.filter_cons_of_neg (by simp [isAcked])]
          exact resends.records
        · intro other member unacked
          rcases List.mem_cons.mp member with rfl | member
          · cases isAcked.symm.trans unacked
          · exact resends.fresh other member unacked
        · rw [List.filter_cons_of_neg (by simp [isAcked])]
          exact resends.distinct
      · intro isUnacked
        have isUnacked : entry.acked = false := by simpa using isUnacked
        rw [post_bind]
        refine createRecord_places.mono ?_ fun _ _ _ => trivial
        rintro _ e₁ placed
        rw [post_pure, post_bind]
        refine inductionHypothesis.mono ?_ fun _ _ _ => trivial
        rintro resent e' resends
        rw [post_pure]
        have unfiltered : (!({ entry with sendSeq := e.nextSeq entry.epoch } : Entry).acked) = true := by
          simp [isUnacked]
        have isEntry : (⟨entry.contentType, entry.epoch, e.nextSeq entry.epoch, entry.fragment, false⟩ : Entry) =
            { entry with sendSeq := e.nextSeq entry.epoch } := by rw [← isUnacked]
        refine ⟨resends.outfit.trans placed.outfit, ?_, ?_, ?_, ?_, ?_, ?_⟩
        · rw [List.map_cons, List.map_cons, resends.content]
          rfl
        · rw [List.filter_cons_of_neg (by simp [isUnacked]), List.filter_cons_of_neg (by simp [isUnacked]),
            resends.acked]
        · obtain ⟨record, isRecord, queue⟩ := placed.record
          obtain ⟨records, isRecords, queue'⟩ := resends.records
          rw [isEntry] at isRecord
          rw [recordOf_of_outfit placed.outfit] at isRecords
          refine ⟨record :: records, ?_, ?_⟩
          · rw [@List.filter_cons_of_pos _ (fun entry : Entry => !entry.acked) _ _ unfiltered, List.mapM_cons,
              isRecord, isRecords]
            rfl
          · rw [queue', queue, List.flatten_cons, List.append_assoc]
        · intro other member unacked
          rcases List.mem_cons.mp member with rfl | member
          · refine ⟨Nat.le_refl _, ?_⟩
            have counted := placed.counted entry.epoch .refl
            have later := resends.others entry.epoch
            dsimp only
            omega
          · obtain ⟨low, high⟩ := resends.fresh other member unacked
            exact ⟨Nat.le_trans (placed.others other.epoch) low, high⟩
        · rw [@List.filter_cons_of_pos _ (fun entry : Entry => !entry.acked) _ _ unfiltered]
          refine List.Pairwise.cons ?_ (resends.distinct.imp fun both same =>
            both ((sameCount_of_outfit placed.outfit).mpr same))
          intro other member same
          obtain ⟨member, unacked⟩ := List.mem_filter.mp member
          have low := (resends.fresh other member (by simpa using unacked)).1
          have counted := placed.counted other.epoch same
          have sameNumber : e.nextSeq entry.epoch = e.nextSeq other.epoch := by
            obtain ⟨zero, slot⟩ := same
            unfold Engine.nextSeq
            rw [show e.sendSlot entry.epoch = e.sendSlot other.epoch from slot]
            have zero : entry.epoch = 0 ↔ other.epoch = 0 := zero
            simp only [zero]
          dsimp only
          omega
        · exact fun epoch => Nat.le_trans (placed.others epoch) (resends.others epoch)

/-- `flight_resend`, when it succeeds: the flight is sent again but for what was acknowledged. -/
theorem flightResend_resends :
    Post flightResend e
      (fun _ e' => e.Resends e' e.flightSavedRecords e'.flightSavedRecords) fun _ _ => True := by
  unfold flightResend
  rw [post_bind, post_get, post_bind, post_set, post_bind]
  refine resendEntries_resends.mono ?_ fun _ _ _ => trivial
  rintro resent e' resends
  rw [post_modify]
  exact ⟨resends.outfit, resends.content, resends.acked, resends.records, resends.fresh, resends.distinct,
    resends.others⟩

end Resending

end Dimpl.Dtls13
