import Dimpl.Dtls13.Engine.Epochs
import Dimpl.KeyDerivation

/-!
# Receive epochs over a whole connection

The receive epochs of an engine follow one another as long as the application keys are installed
once and the sixteen bits of an epoch last. The KeyUpdate that takes the last epoch is followed
by the epoch zero.
-/

namespace Dimpl.Dtls13

open Nom Program

section Runs

variable {e : Engine} {installs updates : Nat} {calls : List Call}

theorem run_turns (turns : e.Turns installs updates)
    (staged : Meets Engine.exec (fun e call => call.Staged e) e calls)
    (once : installs + takings Engine.exec Call.installs e calls ≤ 1)
    (room : updates + takings Engine.exec Call.rotatesRecv e calls < 65533) :
    (run Engine.exec e calls).Turns (installs + takings Engine.exec Call.installs e calls)
      (updates + takings Engine.exec Call.rotatesRecv e calls) := by
  induction calls generalizing e installs updates with
  | nil => exact turns
  | cons call calls inductionHypothesis =>
      unfold takings at once room ⊢
      rw [← Nat.add_assoc] at once room ⊢
      rw [← Nat.add_assoc]
      have step := exec_turns turns staged.1 (by omega) (by omega)
      exact inductionHypothesis step staged.2 once room

/-- Keys installed a second time stand behind newer ones or the same. -/
theorem not_follows_again {call : Call} (turns : e.Turns 1 updates) (again : call.installs e = true) :
    ¬(e.exec call).Follows (3 + updates) := by
  intro follows
  have few := turns.follows.few
  have epochs := @exec_recvEpochs e call few
  rw [if_pos again, turns.behind rfl] at epochs
  have last := follows.last (Nat.le_add_right 3 updates)
  rw [epochs, List.getLast?_concat] at last
  obtain rfl : updates = 0 := by
    have same : 3 = 3 + updates := Option.some.inj last
    omega
  have consecutive : (e.exec call).ledger.recvEpochs = _ := follows.consecutive
  have length : (e.exec call).appRecvKeys.length = 2 :=
    (List.length_map _).symm.trans (congrArg List.length epochs)
  rw [epochs, length] at consecutive
  exact absurd consecutive (by decide)

/-- Behind the last epoch comes the epoch zero. -/
theorem not_follows_full {call : Call} (turns : e.Turns 1 65532) (rotates : call.rotatesRecv e = true) :
    ¬(e.exec call).Follows 65536 := by
  intro follows
  have few := turns.follows.few
  have epochs := @exec_recvEpochs e call few
  have other : call.installs e = false := by
    cases isFirst : call.installs e with
    | false => rfl
    | true => cases (installs_rotatesRecv isFirst).symm.trans rotates
  rw [other, if_neg Bool.false_ne_true, if_pos rotates, turns.behind rfl] at epochs
  have last := follows.last (by omega)
  rw [epochs, rotated, List.getLast?_concat, last_live] at last
  cases last

/-- Where the epochs follow one another all along, keys are installed once and there is room. -/
theorem room_of_follows (turns : e.Turns installs updates) (room : updates < 65533)
    (staged : Meets Engine.exec (fun e call => call.Staged e) e calls)
    (follows : ∀ before, before <+: calls → 0 < installs + takings Engine.exec Call.installs e before →
      (run Engine.exec e before).Follows (3 + (updates + takings Engine.exec Call.rotatesRecv e before))) :
    installs + takings Engine.exec Call.installs e calls ≤ 1 ∧
      updates + takings Engine.exec Call.rotatesRecv e calls < 65533 := by
  induction calls generalizing e installs updates with
  | nil => exact ⟨turns.once, room⟩
  | cons call calls inductionHypothesis =>
      have next := follows [call] (List.prefix_append [call] calls)
      simp only [takings, Nat.add_zero] at next
      have once : installs + (call.installs e).toNat ≤ 1 := by
        by_contra twice
        have last := turns.once
        cases again : call.installs e with
        | false => simp [again] at twice; omega
        | true =>
            rw [again, Bool.toNat_true] at twice next
            obtain rfl : installs = 1 := by omega
            rw [installs_rotatesRecv again] at next
            exact not_follows_again turns again (next (by omega))
      have room : updates + (call.rotatesRecv e).toNat < 65533 := by
        by_contra full
        cases rotates : call.rotatesRecv e with
        | false => simp [rotates] at full; omega
        | true =>
            rw [rotates, Bool.toNat_true] at full next
            obtain rfl : updates = 65532 := by omega
            obtain rfl : installs = 1 := by
              by_contra other
              have last := turns.once
              cases (turns.before (by omega)).1
            exact not_follows_full turns rotates (next (by omega))
      unfold takings
      rw [← Nat.add_assoc, ← Nat.add_assoc]
      refine inductionHypothesis (exec_turns turns staged.1 once room) room staged.2 fun before isPrefix some => ?_
      have later := follows (call :: before) (List.cons_prefix_cons.mpr ⟨rfl, isPrefix⟩)
      simp only [takings, ← Nat.add_assoc] at later some ⊢
      exact later some

theorem turns_new (config : Config) (certificate : DtlsCertificate) (rng : SeededRng) (isClient : Bool) :
    ((Engine.new config certificate rng).setClient isClient).Turns 0 0 :=
  ⟨Nat.zero_le 1, nofun, fun _ => ⟨rfl, rfl⟩, nofun⟩

end Runs

/-- From the installation of the application keys on the receive epochs follow one another and
are found, exactly if it is not repeated and the epochs last; a KeyUpdate never changes an entry
that it keeps. -/
theorem recvEpochs_follow_iff (config : Config) (certificate : DtlsCertificate) (rng : SeededRng)
    (isClient : Bool) (calls : List Call) :
    (Meets Engine.exec (fun e call => call.Staged e)
        ((Engine.new config certificate rng).setClient isClient) calls →
      ((∀ before, before <+: calls →
          0 < takings Engine.exec Call.installs ((Engine.new config certificate rng).setClient isClient) before →
          (run Engine.exec ((Engine.new config certificate rng).setClient isClient) before).Follows
            (3 + takings Engine.exec Call.rotatesRecv
              ((Engine.new config certificate rng).setClient isClient) before)) ↔
        takings Engine.exec Call.installs ((Engine.new config certificate rng).setClient isClient) calls ≤ 1 ∧
          takings Engine.exec Call.rotatesRecv
            ((Engine.new config certificate rng).setClient isClient) calls < 65533)) ∧
    ∀ e : Engine, ∃ kept new, kept <:+ e.appRecvKeys ∧
      (e.exec .updateRecvKeys).appRecvKeys = kept ++ new ∧ new.length ≤ 1 ∧
      (e.appRecvKeys.length ≤ 4 → e.appRecvKeys.length ≤ kept.length + new.length) := by
  have turns := turns_new config certificate rng isClient
  refine ⟨fun staged => ⟨fun follows => ?_, fun ⟨once, room⟩ before isPrefix some => ?_⟩,
    fun _ => updateRecvKeys_keeps⟩
  · have room := @room_of_follows _ _ _ calls turns (by decide) staged
    simp only [Nat.zero_add] at room
    exact room follows
  · obtain ⟨rest, rfl⟩ := isPrefix
    rw [takings_append] at once room
    have behind := run_turns turns staged.of_append (by omega) (by omega)
    rw [Nat.zero_add, Nat.zero_add] at behind
    rw [show takings Engine.exec Call.installs _ before = 1 by omega] at behind
    exact behind.follows

/-- What the derivation of keys needs of the provider and the suite. -/
structure Engine.Derives (hash : HashAlgorithm) (mac : (key data : Bytes) → Bytes) (e : Engine) : Prop where
  isHmac : e.config.cryptoProvider.IsHmac hash mac
  suite : ∃ suite, e.cipherSuite = some suite ∧ suite.hashAlgorithm = hash
  provider : ∃ suite, e.suiteProvider = some suite ∧ suite.keyLen ≤ 32 ∧ suite.ivLen = 12 ∧
    ∀ key, ∃ cipher, suite.createCipher key = .ok cipher
  wide : 1 ≤ hash.outputLen ∧ hash.outputLen ≤ 64

section Derivation

variable {e : Engine} {hash : HashAlgorithm} {mac : (key data : Bytes) → Bytes}

theorem hashAlgorithm_derives (derives : e.Derives hash mac) :
    Post hashAlgorithm e (fun found e' => hash = found ∧ e = e') fun _ _ => False := by
  obtain ⟨suite, isSuite, isHash⟩ := derives.suite
  unfold hashAlgorithm
  rw [post_bind, post_get, post_bind, isSuite]
  exact ⟨isHash.symm, rfl⟩

/-- A short label and a short output are no reason to fail. -/
theorem expandLabel_derives (derives : e.Derives hash mac) {secret : Bytes} {label : String}
    {outputLen : Nat} (short : 6 + (ascii label).length ≤ 255) (few : outputLen ≤ 64) :
    Post (expandLabel secret label [] outputLen) e (fun out e' => out.length = outputLen ∧ e = e')
      fun _ _ => False := by
  have wide := derives.wide
  obtain ⟨out, returned, first⟩ := @hkdfExpand_first _ _ _ derives.isHmac secret
    (be16 outputLen ++ UInt8.ofNat (6 + (ascii label).length) :: (ascii "dtls13" ++ ascii label) ++
      [UInt8.ofNat 0]) outputLen (by omega)
  unfold expandLabel
  rw [post_bind]
  refine (hashAlgorithm_derives derives).mono ?_ fun _ _ => id
  rintro _ _ ⟨rfl, rfl⟩
  rw [post_bind, post_get, post_liftCrypto]
  have isInfo : CryptoProvider.buildHkdfLabel (ascii "dtls13") (ascii label) [] outputLen =
      .ok (be16 outputLen ++ UInt8.ofNat (6 + (ascii label).length) :: (ascii "dtls13" ++ ascii label) ++
        [UInt8.ofNat 0]) := by
    unfold CryptoProvider.buildHkdfLabel
    have prefixLen : (ascii "dtls13").length = 6 := by decide
    simp only [prefixLen, List.length_nil]
    rw [if_neg (by omega), if_neg (by omega), if_neg (by omega)]
  have expanded : e.config.cryptoProvider.hkdfExpandLabelDtls13 hash secret (ascii label) [] outputLen =
      .ok out := by
    unfold CryptoProvider.hkdfExpandLabelDtls13
    rw [isInfo]
    exact returned
  rw [expanded]
  exact ⟨fun value same => Except.ok.inj same ▸ ⟨first.length, rfl⟩, fun err failed => nomatch failed⟩

theorem deriveEpochKeys_derives (derives : e.Derives hash mac) {epoch : Nat} {secret : Bytes} :
    Post (deriveEpochKeys epoch secret) e (fun _ e' => e' = { e with installations := e.installations + 1 })
      fun _ _ => False := by
  obtain ⟨suite, isSuite, keyLen, ivLen, creates⟩ := derives.provider
  have expands : ∀ {label : String} {outputLen : Nat}, 6 + (ascii label).length ≤ 255 → outputLen ≤ 64 →
      Post (expandLabel secret label [] outputLen) e (fun out e' => out.length = outputLen ∧ e = e')
        fun _ _ => False := fun short few => expandLabel_derives derives short few
  unfold deriveEpochKeys suiteProvider
  rw [post_bind, post_bind, post_get, isSuite]
  unfold orThrow
  rw [post_pure, post_bind]
  refine (expands (by decide) (by omega)).mono ?_ fun _ _ => id
  rintro key _ ⟨-, rfl⟩
  rw [post_bind]
  refine (expands (by decide) (by omega)).mono ?_ fun _ _ => id
  rintro iv _ ⟨isIv, rfl⟩
  rw [post_bind]
  refine (expands (by decide) (by omega)).mono ?_ fun _ _ => id
  rintro snKey _ ⟨-, rfl⟩
  obtain ⟨cipher, created⟩ := creates key
  rw [post_bind, created, post_liftCrypto]
  refine ⟨fun _ _ => ?_, fun _ failed => nomatch failed⟩
  rw [post_ite]
  exact ⟨fun _ => rfl, fun other => other (isIv.trans ivLen)⟩

/-- With room for it a KeyUpdate of the peer is followed. -/
theorem updateRecvKeys_derives (derives : e.Derives hash mac) (present : e.appRecvKeys ≠ [])
    (few : e.appRecvKeys.length ≤ 4) :
    Call.updateRecvKeys.rotatesRecv e = true := by
  obtain ⟨latest, isLatest⟩ := Option.isSome_iff_exists.mp (List.getLast?_isSome.mpr present)
  have followed : Post updateRecvKeys e (fun _ _ => True) fun _ _ => False := by
    unfold updateRecvKeys
    rw [post_bind, post_get, post_bind, isLatest]
    unfold orThrow deriveNextTrafficSecret hashLen
    rw [post_pure, post_bind, post_bind, post_bind]
    refine (hashAlgorithm_derives derives).mono ?_ fun _ _ => id
    rintro _ _ ⟨rfl, rfl⟩
    rw [post_pure]
    refine (expandLabel_derives derives (by decide) derives.wide.2).mono ?_ fun _ _ => id
    rintro nextSecret _ ⟨-, rfl⟩
    rw [post_bind]
    refine (deriveEpochKeys_derives derives).mono ?_ fun _ _ => id
    rintro keys _ rfl
    rw [post_bind, post_modify]
    unfold pushRecvEpoch
    rw [post_bind, post_get, post_ite]
    refine ⟨fun _ => trivial, fun full => full ?_⟩
    change e.keptEntries.length < 4
    unfold Engine.keptEntries
    split
    · rw [List.length_tail]
      omega
    · omega
  rcases followed.outcome with ⟨_, returned, -⟩ | ⟨-, _, impossible⟩
  · exact congrArg Option.isSome returned
  · exact impossible.elim

/-- The peer may go on with its KeyUpdates without end. -/
theorem takings_updates (derives : e.Derives hash mac) (present : e.appRecvKeys ≠ [])
    (few : e.appRecvKeys.length ≤ 4) (count : Nat) :
    takings Engine.exec Call.rotatesRecv e (List.replicate count .updateRecvKeys) = count := by
  induction count generalizing e with
  | zero => rfl
  | succ count inductionHypothesis =>
      have rotates := updateRecvKeys_derives derives present few
      have epochs := @exec_recvEpochs e .updateRecvKeys few
      have other : Call.updateRecvKeys.installs e = false := rfl
      rw [other, if_neg Bool.false_ne_true, if_pos rotates] at epochs
      have kept : (e.exec .updateRecvKeys).unequipped = e.unequipped := updateRecvKeys_unequipped.finalState e
      have config : (e.exec .updateRecvKeys).config = e.config := (congrArg Engine.config kept : _)
      have suite : (e.exec .updateRecvKeys).cipherSuite = e.cipherSuite :=
        (congrArg Engine.cipherSuite kept : _)
      have derives' : (e.exec .updateRecvKeys).Derives hash mac := by
        refine ⟨config ▸ derives.isHmac, suite ▸ derives.suite, ?_, derives.wide⟩
        unfold Engine.suiteProvider
        rw [config, suite]
        exact derives.provider
      have length : (e.exec .updateRecvKeys).appRecvKeys.length = (rotated e.ledger.recvEpochs).length :=
        (List.length_map _).symm.trans (congrArg List.length epochs)
      have short : e.ledger.recvEpochs.length ≤ 4 := (List.length_map _).trans_le few
      have bounds : 1 ≤ (rotated e.ledger.recvEpochs).length ∧ (rotated e.ledger.recvEpochs).length ≤ 4 := by
        unfold rotated
        split
        · rw [List.length_append, List.length_tail, List.length_singleton]
          omega
        · rw [List.length_append, List.length_singleton]
          omega
      have present' : (e.exec .updateRecvKeys).appRecvKeys ≠ [] := by
        rintro none
        rw [none, List.length_nil] at length
        omega
      rw [List.replicate_succ, takings, rotates, inductionHypothesis derives' present' (length ▸ bounds.2)]
      exact Nat.add_comm 1 count

end Derivation

/-- A client with its application keys. -/
def installedCalls : List Call := [.setCipherSuite .aes128GcmSha256, .installApplicationKeys [1] [2]]

/-- The 65533rd KeyUpdate of the peer takes the newest epoch back to zero. -/
theorem not_recvEpochs_follow :
    ¬ ∀ (config : Config) (certificate : DtlsCertificate) (rng : SeededRng) (isClient : Bool)
        (calls : List Call),
      Meets Engine.exec (fun e call => call.Staged e)
        ((Engine.new config certificate rng).setClient isClient) calls →
      ∀ before, before <+: calls →
        0 < takings Engine.exec Call.installs ((Engine.new config certificate rng).setClient isClient) before →
        (run Engine.exec ((Engine.new config certificate rng).setClient isClient) before).Follows
          (3 + takings Engine.exec Call.rotatesRecv
            ((Engine.new config certificate rng).setClient isClient) before) := by
  intro follows
  have staged : ∀ (e : Engine) (count : Nat),
      Meets Engine.exec (fun e call => Call.Staged e call) e (List.replicate count .updateRecvKeys) := by
    intro e count
    induction count generalizing e with
    | zero => trivial
    | succ count inductionHypothesis => exact ⟨trivial, inductionHypothesis _⟩
  have meets : ∀ count, Meets Engine.exec (fun e call => call.Staged e)
      ((Engine.new Sample.config Sample.certificate (Sample.rng 0)).setClient true)
      (installedCalls ++ List.replicate count .updateRecvKeys) := fun count =>
    (⟨trivial, trivial, staged _ count⟩ : _ ∧ _ ∧ _)
  have room : ∀ count, takings Engine.exec Call.rotatesRecv
      ((Engine.new Sample.config Sample.certificate (Sample.rng 0)).setClient true)
      (installedCalls ++ List.replicate count .updateRecvKeys) < 65533 := fun count =>
    (((recvEpochs_follow_iff _ _ _ _ _).1 (meets count)).mp (follows _ _ _ _ _ (meets count))).2
  have derives : (run Engine.exec ((Engine.new Sample.config Sample.certificate (Sample.rng 0)).setClient true)
      installedCalls).Derives .sha256 fun key data => Sample.digest 32 (key ++ data) :=
    { isHmac := ⟨fun _ _ => rfl, fun _ _ => rfl, by decide⟩
      suite := ⟨.aes128GcmSha256, by decide, by decide⟩
      provider := ⟨Sample.suite13, rfl, by decide, by decide, fun _ => ⟨_, rfl⟩⟩
      wide := by decide }
  have many := room 65533
  rw [takings_append, takings_updates derives (by decide) (by decide)] at many
  omega

end Dimpl.Dtls13
