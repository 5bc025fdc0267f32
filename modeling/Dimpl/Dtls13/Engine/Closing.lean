import Dimpl.Dtls13.Engine.Authenticity
import Dimpl.Dtls13.Engine.Pending

/-!
# What is handed out around a close

`classify_record` notes the number of the first close_notify that comes in and from then on
drops the records behind it. Records that are queued already, or stand in front of the alert in
its datagram, are not looked at again.
-/

namespace Dimpl.Dtls13

open Nom Program

namespace Record

/-- The record is numbered behind a close. -/
def late (closed : Option Sequence) (r : Record) : Bool :=
  closed.any fun cn => r.record.sequence.cmp cn = .gt

/-- The description of a protected alert. -/
def notice (r : Record) : Option UInt8 :=
  if r.record.contentType = .alert && r.record.sequence.epoch ≠ 0 then r.fragment[1]? else none

end Record

/-- Of the records of a datagram, in their order, the first that closes comes in front of no
application data with a larger number: neither of what waits nor of what the datagram has in
front of it. A fatal alert ends the datagram. -/
def timely : (pending records : List Record) → Bool
  | _, [] => true
  | pending, r :: rest =>
    match r.notice with
    | none => timely (pending ++ [r].filter Record.isData) rest
    | some description =>
      if description = 0 then pending.all fun p => !p.late (some r.record.sequence)
      else description != 90 || timely pending rest

/-- What `classify_record` makes of a record under protection, and of the number that is noted:
a record behind a close is dropped, an alert closes, and application data is passed on. -/
inductive Classified (closed : Option Sequence) (r : Record) :
    Option Record → Option Sequence → Prop where
  | late (late : r.late closed = true) : Classified closed r none closed
  | passed {kept : Option Record} (early : r.late closed = false)
      (opened : r.notice = none ∨ r.notice = some 90) (isKept : kept = none ∨ kept = some r)
      (data : r.isData = true → kept = some r) : Classified closed r kept closed
  | closes (early : r.late closed = false) (notice : r.notice = some 0) :
      Classified closed r none (some (closed.getD r.record.sequence))

namespace Engine

/-- The records `Records::parse` finds in a datagram. -/
def found (e : Engine) (packet : Bytes) : List Record :=
  (value? (parseRecordsLoop packet.length packet []) e).getD []

/-- The records of it that are not control records and not behind a close. -/
def kept (e : Engine) (packet : Bytes) : List Record := (value? (parseRecords packet) e).getD []

/-- The engine absorbs a datagram: it does not close behind application data and loses none. -/
structure Absorbs (e : Engine) (packet : Bytes) : Prop where
  timely : e.closeNotifySequence = none → timely e.pendingData (e.found packet) = true
  room : ∀ incoming ∈ Incoming.ofRecords (e.kept packet), e.Room incoming

instance {e : Engine} {packet : Bytes} : Decidable (e.Absorbs packet) :=
  decidable_of_iff ((e.closeNotifySequence = none → Dtls13.timely e.pendingData (e.found packet) = true) ∧
      ∀ incoming ∈ Incoming.ofRecords (e.kept packet), e.Room incoming)
    ⟨fun ⟨timely, room⟩ => ⟨timely, room⟩, fun absorbed => ⟨absorbed.timely, absorbed.room⟩⟩

/-- Datagrams parsed one after the other, each absorbed. -/
def AbsorbsAll (e : Engine) : List Bytes → Prop
  | [] => True
  | packet :: rest => e.Absorbs packet ∧ (finalState (parsePacket packet) e).AbsorbsAll rest

instance decidableAbsorbsAll {e : Engine} : (packets : List Bytes) → Decidable (e.AbsorbsAll packets)
  | [] => isTrue trivial
  | packet :: rest =>
    have := @decidableAbsorbsAll (finalState (parsePacket packet) e) rest
    inferInstanceAs (Decidable (e.Absorbs packet ∧ (finalState (parsePacket packet) e).AbsorbsAll rest))

/-- The records found in datagrams that are parsed one after the other. -/
def foundAll (e : Engine) : List Bytes → List Record
  | [] => []
  | packet :: rest => e.found packet ++ (finalState (parsePacket packet) e).foundAll rest

/-- Nothing waits that is behind a close. -/
structure InOrder (e : Engine) : Prop where
  plain : e.PlainData
  released : e.releaseAppData = true → e.peerEncryptionEnabled = true
  timely : e.peerEncryptionEnabled = true → ∀ r ∈ e.pendingData, r.late e.closeNotifySequence = false

/-- A close stays the one it is. -/
def StaysClosed (e e' : Engine) : Prop :=
  ∀ cn, e.closeNotifySequence = some cn → e'.closeNotifySequence = some cn

end Engine

section Classifying

variable {e e' : Engine}

instance : Std.Refl Engine.StaysClosed := ⟨fun _ _ closed => closed⟩

instance : IsTrans Engine Engine.StaysClosed :=
  ⟨fun _ _ _ first second cn closed => second cn (first cn closed)⟩

theorem Engine.StaysClosed.of_same (same : e'.closeNotifySequence = e.closeNotifySequence) :
    Engine.StaysClosed e e' :=
  fun _ closed => same.trans closed

theorem Engine.StaysClosed.late (stays : Engine.StaysClosed e e') {r : Record}
    (late : r.late e.closeNotifySequence = true) : r.late e'.closeNotifySequence = true := by
  cases closed : e.closeNotifySequence with
  | none => simp [Record.late, closed] at late
  | some cn =>
      rw [closed] at late
      rw [stays cn closed]
      exact late

theorem Record.notice_of_isData {r : Record} (isData : r.isData = true) : r.notice = none := by
  have isType : r.record.contentType = .applicationData := of_decide_eq_true isData
  have noAlert : ContentType.applicationData ≠ ContentType.alert := by decide
  simp [Record.notice, isType, noAlert]

theorem Engine.processAck_close {ackData : Bytes} :
    (e.processAck ackData).closeNotifySequence = e.closeNotifySequence := by
  unfold Engine.processAck
  split
  · rfl
  · unfold Engine.endKeyUpdate Engine.endHandshakeFlight
    dsimp only
    split <;> split <;> rfl

theorem classifyRecord_classified {r : Record} (enabled : e.peerEncryptionEnabled = true) :
    Post (classifyRecord r) e
      (fun kept e' => Classified e.closeNotifySequence r kept e'.closeNotifySequence)
      (fun _ e' => e'.closeNotifySequence = e.closeNotifySequence) := by
  have noData : ∀ {type : ContentType}, r.record.contentType = type → type ≠ .applicationData →
      r.isData = true → (none : Option Record) = some r := fun isType other isData =>
    absurd (isType.symm.trans (of_decide_eq_true isData)) other
  unfold classifyRecord
  rw [post_bind, post_get, post_ite]
  refine ⟨fun late => .late late, fun early => ?_⟩
  have early : r.late e.closeNotifySequence = false := by simpa [Record.late] using early
  rw [post_ite]
  refine ⟨fun unprotected => ?_, fun protect => ?_⟩
  · simp only [enabled, Bool.and_true, Bool.and_eq_true, Bool.or_eq_true, decide_eq_true_eq] at unprotected
    refine .passed early (.inl (by simp [Record.notice, unprotected.1])) (.inl rfl) ?_
    rcases unprotected.2 with isAck | isAlert
    · exact noData isAck (by decide)
    · exact noData isAlert (by decide)
  rw [post_ite]
  refine ⟨fun isAck => ?_, fun noAck => ?_⟩
  · rw [post_bind, post_set, post_pure, Engine.processAck_close]
    have noAlert : ContentType.ack ≠ ContentType.alert := by decide
    exact .passed early (.inl (by simp [Record.notice, isAck, noAlert])) (.inl rfl)
      (noData isAck (by decide))
  rw [post_ite]
  refine ⟨fun isAlert => ?_, fun noAlert => ?_⟩
  · have isNotice : r.notice = r.fragment[1]? := by
      simp only [enabled, isAlert, Bool.and_true, Bool.and_eq_true, Bool.or_eq_true,
        decide_eq_true_eq, or_true, and_true] at protect
      simp [Record.notice, isAlert, protect]
    have data := noData isAlert (by decide)
    cases described : r.fragment[1]? with
    | none => exact .passed early (.inl (isNotice.trans described)) (.inl rfl) data
    | some description =>
        rw [described] at isNotice
        dsimp only
        rw [post_ite]
        refine ⟨fun closes => ?_, fun _ => ?_⟩
        · rw [post_bind, post_set]
          exact .closes early (closes ▸ isNotice)
        · rw [post_ite]
          exact ⟨fun benign => .passed early (.inr (benign ▸ isNotice)) (.inl rfl) data, fun _ => rfl⟩
  · have unnoticed : r.notice = none := by simp [Record.notice, noAlert]
    rw [post_ite]
    refine ⟨fun isChange => ?_, fun _ => ?_⟩
    · exact .passed early (.inl unnoticed) (.inl rfl) (noData isChange (by decide))
    · exact .passed early (.inl unnoticed) (.inr rfl) fun _ => rfl

/-- What classification leaves is in order when what waits is and the datagram is timely, and
no application data in front of the close is missing from it. -/
theorem classifyRecords_timely {pending records : List Record}
    (enabled : e.peerEncryptionEnabled = true)
    (fresh : ∀ p ∈ pending, p.late e.closeNotifySequence = false)
    (inTime : e.closeNotifySequence = none → timely pending records = true) :
    Post (classifyRecords records) e
      (fun kept e' => Engine.StaysClosed e e' ∧
        (∀ r ∈ records, r.isData = true → r.late e'.closeNotifySequence = false → r ∈ kept) ∧
        ∀ p, p ∈ pending ∨ (p ∈ kept ∧ p.isData = true) → p.late e'.closeNotifySequence = false)
      (fun _ e' => Engine.StaysClosed e e' ∧ ∀ p ∈ pending, p.late e'.closeNotifySequence = false) := by
  induction records generalizing e pending with
  | nil =>
      refine ⟨fun _ closed => closed, fun _ member => absurd member List.not_mem_nil, ?_⟩
      rintro p (waits | ⟨member, -⟩)
      · exact fresh p waits
      · exact absurd member List.not_mem_nil
  | cons r rest inductionHypothesis =>
      unfold classifyRecords
      rw [post_bind]
      refine ((classifyRecord_classified enabled).and (classifyRecord_unclassified e)).mono ?_ ?_
      · rintro kept e₁ ⟨classified, same⟩
        have enabled₁ : e₁.peerEncryptionEnabled = true :=
          (congrArg Engine.peerEncryptionEnabled same : _).trans enabled
        generalize isClosed : e₁.closeNotifySequence = closed₁ at classified
        cases classified with
        | late late =>
            have stays₁ : Engine.StaysClosed e e₁ := .of_same isClosed
            rw [post_bind]
            refine (@inductionHypothesis e₁ pending enabled₁ ?_ fun opened => ?_).mono ?_ ?_
            · rwa [isClosed]
            · rw [isClosed] at opened
              simp [Record.late, opened] at late
            · rintro others e₂ ⟨stays, arrived, ordered⟩
              have stays := IsTrans.trans _ _ _ stays₁ stays
              refine ⟨stays, List.forall_mem_cons.mpr ⟨fun _ early => ?_, arrived⟩, ordered⟩
              rw [stays.late late] at early
              cases early
            · rintro _ e₂ ⟨stays, ordered⟩
              exact ⟨IsTrans.trans _ _ _ stays₁ stays, ordered⟩
        | passed early opened isKept data =>
            have stays₁ : Engine.StaysClosed e e₁ := .of_same isClosed
            -- Application data that is passed on waits from here on.
            rw [post_bind]
            refine (@inductionHypothesis e₁ (pending ++ [r].filter Record.isData) enabled₁
              ?_ fun unclosed => ?_).mono ?_ ?_
            · rw [isClosed]
              refine List.forall_mem_append.mpr ⟨fresh, fun p member => ?_⟩
              rw [List.mem_singleton.mp (List.mem_of_mem_filter member)]
              exact early
            · have inTime := inTime (isClosed.symm.trans unclosed)
              unfold timely at inTime
              rcases opened with none | userCanceled
              · rwa [none] at inTime
              · have noData : r.isData = false := by
                  cases isData : r.isData with
                  | false => rfl
                  | true => simp [Record.notice_of_isData isData] at userCanceled
                simpa [userCanceled, noData] using inTime
            · rintro others e₂ ⟨stays, arrived, ordered⟩
              have stays := IsTrans.trans _ _ _ stays₁ stays
              refine ⟨stays, List.forall_mem_cons.mpr ⟨fun isData _ => ?_, fun r' member isData early => ?_⟩,
                fun p waits => ordered p ?_⟩
              · rw [data isData]
                exact List.mem_cons_self
              · exact List.mem_append_right _ (arrived r' member isData early)
              · rcases waits with old | ⟨member, isData⟩
                · exact .inl (List.mem_append_left _ old)
                · rcases List.mem_append.mp member with first | later
                  · have isRecord : p = r := by
                      rcases isKept with rfl | rfl
                      · simp at first
                      · simpa using first
                    refine .inl (List.mem_append_right _ ?_)
                    rw [isRecord] at isData ⊢
                    simp [isData]
                  · exact .inr ⟨later, isData⟩
            · rintro _ e₂ ⟨stays, ordered⟩
              exact ⟨IsTrans.trans _ _ _ stays₁ stays,
                fun p waits => ordered p (List.mem_append_left _ waits)⟩
        | closes early notice =>
            have stays₁ : Engine.StaysClosed e e₁ := by
              intro cn closed
              rw [isClosed, closed]
              rfl
            have noData : r.isData = true → False := by
              intro isData
              rw [Record.notice_of_isData isData] at notice
              cases notice
            rw [post_bind]
            refine (@inductionHypothesis e₁ pending enabled₁ ?_ fun opened => ?_).mono ?_ ?_
            · intro p waits
              rw [isClosed]
              cases closed : e.closeNotifySequence with
              | some cn =>
                  rw [closed] at fresh
                  exact fresh p waits
              | none =>
                  have inTime := inTime closed
                  unfold timely at inTime
                  rw [notice] at inTime
                  simpa using List.all_eq_true.mp inTime p waits
            · rw [isClosed] at opened
              cases opened
            · rintro others e₂ ⟨stays, arrived, ordered⟩
              refine ⟨IsTrans.trans _ _ _ stays₁ stays,
                List.forall_mem_cons.mpr ⟨fun isData _ => absurd isData noData, arrived⟩, ordered⟩
            · rintro _ e₂ ⟨stays, ordered⟩
              exact ⟨IsTrans.trans _ _ _ stays₁ stays, ordered⟩
      · rintro _ e₁ ⟨same, _⟩
        refine ⟨.of_same same, ?_⟩
        rw [same]
        exact fresh

/-- What parsing datagrams in which those records are found leaves. -/
structure Engine.Gained (e : Engine) (found : List Record) (e' : Engine) : Prop where
  inOrder : e'.InOrder
  enabled : e'.peerEncryptionEnabled = true
  closed : Engine.StaysClosed e e'
  kept : ∀ r ∈ e.pendingData, r ∈ e'.pendingData
  arrived : ∀ r ∈ found, r.isData = true → r.late e'.closeNotifySequence = false → r ∈ e'.pendingData

/-- What the place of a datagram depends on. -/
def Engine.shelf (e : Engine) : List Incoming × Config × Nat :=
  (e.queueRx, e.config, e.peerHandshakeSeqNo)

theorem Engine.Room.of_shelf {incoming : Incoming} (room : e.Room incoming)
    (same : e'.shelf = e.shelf) : e'.Room incoming := by
  simp only [Engine.shelf, Prod.mk.injEq] at same
  obtain ⟨queue, config, number⟩ := same
  unfold Engine.Room Engine.placeOf at room ⊢
  rwa [queue, config, number]

/-- What `Records::parse` finds and keeps. -/
theorem parseRecords_timely {packet : Bytes} (inOrder : e.InOrder)
    (enabled : e.peerEncryptionEnabled = true)
    (inTime : e.closeNotifySequence = none → timely e.pendingData (e.found packet) = true) :
    Post (parseRecords packet) e
      (fun kept e' => e'.shelf = e.shelf ∧ Engine.StaysClosed e e' ∧ (∀ r ∈ kept, r.Fresh) ∧
        (∀ r ∈ e.found packet, r.isData = true → r.late e'.closeNotifySequence = false → r ∈ kept) ∧
        ∀ p, p ∈ e.pendingData ∨ (p ∈ kept ∧ p.isData = true) → p.late e'.closeNotifySequence = false)
      (fun _ e' => e'.shelf = e.shelf ∧ Engine.StaysClosed e e' ∧
        ∀ p ∈ e.pendingData, p.late e'.closeNotifySequence = false) := by
  have fresh := inOrder.timely enabled
  unfold parseRecords
  rw [post_bind]
  have opened := ((parseRecordsLoop_fresh (fun _ member => absurd member List.not_mem_nil) e).and
    (parseRecordsLoop_unopened e)).and
    (@post_self _ _ _ (parseRecordsLoop packet.length packet []) e)
  refine opened.mono (fun parsed e₁ ⟨⟨isFresh, same⟩, outcome⟩ => ?_) fun _ e₁ ⟨⟨_, same⟩, _⟩ => ?_
  · have isFound : e.found packet = parsed := by
      unfold Engine.found
      rw [value_of_ok outcome]
      rfl
    have shelf₁ : e₁.shelf = e.shelf := (congrArg Engine.shelf same : _)
    have closed₁ : e₁.closeNotifySequence = e.closeNotifySequence :=
      (congrArg Engine.closeNotifySequence same : _)
    have enabled₁ : e₁.peerEncryptionEnabled = true :=
      (congrArg Engine.peerEncryptionEnabled same : _).trans enabled
    rw [isFound] at inTime ⊢
    rw [← closed₁] at fresh inTime
    have classified := ((classifyRecords_timely enabled₁ fresh inTime).and
      (classifyRecords_unclassified e₁)).and (@classifyRecords_subset parsed e₁)
    refine classified.mono (fun kept e₂ ⟨⟨⟨stays, arrived, ordered⟩, same₂⟩, subset⟩ => ?_)
      fun _ e₂ ⟨⟨⟨stays, ordered⟩, same₂⟩, _⟩ => ?_
    all_goals
      have shelf₂ : e₂.shelf = e₁.shelf := (congrArg Engine.shelf same₂ : _)
      have stays : Engine.StaysClosed e e₂ := IsTrans.trans _ _ _ (.of_same closed₁) stays
    · exact ⟨shelf₂.trans shelf₁, stays, fun r member => isFresh r (subset r member), arrived, ordered⟩
    · exact ⟨shelf₂.trans shelf₁, stays, ordered⟩
  · have shelf₁ : e₁.shelf = e.shelf := (congrArg Engine.shelf same : _)
    have closed₁ : e₁.closeNotifySequence = e.closeNotifySequence :=
      (congrArg Engine.closeNotifySequence same : _)
    exact ⟨shelf₁, .of_same closed₁, closed₁ ▸ fresh⟩

/-- A datagram that is absorbed is queued in order, with all its application data that is not behind a
close. -/
theorem parsePacket_gained {packet : Bytes} (inOrder : e.InOrder)
    (enabled : e.peerEncryptionEnabled = true) (absorbed : e.Absorbs packet) :
    Post (parsePacket packet) e (fun _ e' => e.Gained (e.found packet) e')
      (fun _ e' => e.Gained [] e') := by
  have flags : ∀ {e'}, Keeps Engine.unreceived e e' → e.PlainData → e'.PlainData →
      (∀ r ∈ e'.pendingData, r.late e'.closeNotifySequence = false) →
      e'.InOrder ∧ e'.peerEncryptionEnabled = true := by
    intro e' same _ plain ordered
    have isEnabled : e'.peerEncryptionEnabled = e.peerEncryptionEnabled :=
      (congrArg Engine.peerEncryptionEnabled same : _)
    exact ⟨⟨plain, fun _ => isEnabled.trans enabled, fun _ => ordered⟩, isEnabled.trans enabled⟩
  have core : Post (parsePacket packet) e
      (fun _ e' => Engine.StaysClosed e e' ∧ (∀ r ∈ e.pendingData, r ∈ e'.pendingData) ∧
        (∀ r ∈ e.found packet, r.isData = true → r.late e'.closeNotifySequence = false →
          r ∈ e'.pendingData) ∧
        ∀ r ∈ e'.pendingData, r.late e'.closeNotifySequence = false)
      (fun _ e' => Engine.StaysClosed e e' ∧ (∀ r ∈ e.pendingData, r ∈ e'.pendingData) ∧
        ∀ r ∈ e'.pendingData, r.late e'.closeNotifySequence = false) := by
    unfold parsePacket
    rw [post_bind]
    have parsed := (parseRecords_timely inOrder enabled absorbed.timely).and
      (@post_self _ _ _ (parseRecords packet) e)
    refine parsed.mono (fun kept e₂ ⟨⟨shelf, stays, fresh, arrived, ordered⟩, outcome⟩ => ?_)
      fun _ e₂ ⟨⟨shelf, stays, ordered⟩, _⟩ => ?_
    all_goals
      have pending₂ : e₂.pendingData = e.pendingData :=
        Engine.pendingData_of_queue (congrArg Prod.fst shelf)
    · have isKept : e.kept packet = kept := by
        unfold Engine.kept
        rw [value_of_ok outcome]
        rfl
      cases isIncoming : Incoming.ofRecords kept with
      | none =>
          have nothing : kept = [] := by
            cases kept with
            | nil => rfl
            | cons first rest => cases isIncoming
          rw [nothing] at arrived
          refine ⟨stays, fun r waits => pending₂.symm ▸ waits, fun r member isData early => ?_,
            fun r waits => ordered r (.inl (pending₂ ▸ waits))⟩
          exact absurd (arrived r member isData early) List.not_mem_nil
      | some incoming =>
          have records := Incoming.records_of isIncoming
          have room : e₂.Room incoming :=
            (absorbed.room incoming (isKept.symm ▸ isIncoming)).of_shelf shelf
          refine ((@insertIncoming_queued e₂ incoming).and
            (insertIncoming_unqueued e₂)).mono (fun _ e₃ ⟨queue, same⟩ => ?_) fun _ e₃ ⟨queue, same⟩ => ?_
          all_goals
            have closed₃ : e₃.closeNotifySequence = e₂.closeNotifySequence :=
              (congrArg Engine.closeNotifySequence same : _)
            have stays₃ : Engine.StaysClosed e e₃ := IsTrans.trans _ _ _ stays (.of_same closed₃)
            rw [closed₃]
          · refine ⟨stays₃, fun r waits => pendingData_queuedWith queue room (pending₂.symm ▸ waits),
              fun r member isData early => ?_, fun r waits => ?_⟩
            · have inKept := arrived r member isData early
              exact pendingData_arrived queue room (records.symm ▸ inKept)
                ((fresh r inKept).pending isData)
            · obtain ⟨queued, pending⟩ := Engine.mem_pendingData.mp waits
              rcases rxRecords_queuedWith queue queued with old | new
              · exact ordered r (.inl (pending₂ ▸ Engine.mem_pendingData.mpr ⟨old, pending⟩))
              · exact ordered r (.inr ⟨records ▸ new, (Record.isPending_iff.mp pending).1⟩)
          · have pending₃ := Engine.pendingData_of_queue queue
            exact ⟨stays₃, fun r waits => pending₃.symm ▸ pending₂.symm ▸ waits,
              fun r waits => ordered r (.inl (pending₂ ▸ pending₃ ▸ waits))⟩
    · exact ⟨stays, fun r waits => pending₂.symm ▸ waits,
        fun r waits => ordered r (pending₂ ▸ waits)⟩
  refine ((core.and (parsePacket_unreceived e)).and (parsePacket_plain e)).mono
    (fun _ e' ⟨⟨⟨stays, kept, arrived, ordered⟩, same⟩, plain⟩ => ?_)
    fun _ e' ⟨⟨⟨stays, kept, ordered⟩, same⟩, plain⟩ => ?_
  all_goals obtain ⟨inOrder', enabled'⟩ := flags same inOrder.plain (plain inOrder.plain) ordered
  · exact ⟨inOrder', enabled', stays, kept, arrived⟩
  · exact ⟨inOrder', enabled', stays, kept, fun _ member => absurd member List.not_mem_nil⟩

/-- So are datagrams parsed one after the other. -/
theorem reparse_gained {packets : List Bytes} (inOrder : e.InOrder)
    (enabled : e.peerEncryptionEnabled = true) (absorbed : e.AbsorbsAll packets) :
    Post (reparse packets) e (fun _ e' => e.Gained (e.foundAll packets) e')
      (fun _ e' => e.Gained [] e') := by
  induction packets generalizing e with
  | nil => exact ⟨inOrder, enabled, fun _ closed => closed, fun _ waits => waits,
      fun _ member => absurd member List.not_mem_nil⟩
  | cons packet rest inductionHypothesis =>
      obtain ⟨first, others⟩ := absorbed
      unfold reparse
      rw [post_bind]
      refine ((parsePacket_gained inOrder enabled first).and post_self).mono ?_ fun _ _ failed => failed.1
      rintro _ e₁ ⟨gained, parsed⟩
      have isNext : finalState (parsePacket packet) e = e₁ := by
        unfold finalState
        rw [parsed]
      rw [isNext] at others
      unfold Engine.foundAll
      rw [isNext]
      refine (inductionHypothesis gained.inOrder gained.enabled others).mono ?_ ?_
      · rintro _ e₂ more
        refine ⟨more.inOrder, more.enabled, IsTrans.trans _ _ _ gained.closed more.closed,
          fun r waits => more.kept r (gained.kept r waits), fun r member isData early => ?_⟩
        rcases List.mem_append.mp member with here | later
        · refine more.kept r (gained.arrived r here isData ?_)
          cases late : r.late e₁.closeNotifySequence with
          | false => rfl
          | true =>
              rw [more.closed.late late] at early
              cases early
        · exact more.arrived r later isData early
      · rintro _ e₂ more
        exact ⟨more.inOrder, more.enabled, IsTrans.trans _ _ _ gained.closed more.closed,
          fun r waits => more.kept r (gained.kept r waits),
          fun _ member => absurd member List.not_mem_nil⟩

end Classifying

end Dimpl.Dtls13
