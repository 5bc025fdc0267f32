import Dimpl.Dtls13.Engine.Drain

/-!
# Application data that waits

The application data of the receive queue that was not handed out: what a datagram adds to it,
what becomes of it when a queued datagram is replaced, and which of it a poll takes.
-/

namespace Dimpl.Dtls13

open Nom Program

namespace Record

/-- Application data that was not handed out. -/
def isPending (r : Record) : Bool := r.record.contentType = .applicationData && !r.isHandled

/-- Only handshake records hold handshake fragments. -/
def Plain (r : Record) : Prop := r.isData = true → r.handshakes = []

/-- The record was just parsed: its application data waits. -/
structure Fresh (r : Record) : Prop where
  plain : r.Plain
  pending : r.isData = true → r.isPending = true

end Record

/-- Where a datagram goes in the receive queue. -/
inductive Place where
  | inserted (index : Nat)
  | replaced (index : Nat)
  | dropped

namespace Place

/-- Nothing that waits is dropped or replaced. -/
def Spares (queue : List Incoming) (incoming : Incoming) : Place → Prop
  | .inserted _ => True
  | .replaced index => ∀ existing ∈ queue[index]?, ∀ r ∈ existing.records, r.isPending = false
  | .dropped => ∀ r ∈ incoming.records, r.isData = false

instance {queue : List Incoming} {incoming : Incoming} :
    (place : Place) → Decidable (place.Spares queue incoming)
  | .inserted _ => isTrue trivial
  | .replaced index => inferInstanceAs
      (Decidable (∀ existing ∈ queue[index]?, ∀ r ∈ existing.records, r.isPending = false))
  | .dropped => inferInstanceAs (Decidable (∀ r ∈ incoming.records, r.isData = false))

end Place

namespace Engine

/-- The application data that waits, in the order it is handed out. -/
def pendingData (e : Engine) : List Record := e.rxRecords.filter Record.isPending

/-- Only handshake records of the queue hold handshake fragments. -/
def PlainData (e : Engine) : Prop := ∀ r ∈ e.rxRecords, r.Plain

/-- Where `insert_incoming` puts a datagram: one that starts with a handshake message already
dealt with is dropped, and so is a duplicate that does not replace the one it is a duplicate of. -/
def placeOf (e : Engine) (incoming : Incoming) : Place :=
  match incoming.first.firstHandshake with
  | some handshake =>
    if handshake.header.messageSeq < e.peerHandshakeSeqNo then .dropped
    else
      match e.config.dequeSearch.searchBy (fun item => compareKeys (queueKey item)
          (handshake.header.messageSeq, handshake.header.fragmentOffset)) e.queueRx with
      | .error index => .inserted index
      | .ok index =>
        if e.queueRx[index]?.any fun existing => shouldReplace existing incoming then .replaced index
        else .dropped
  | none =>
    match e.config.dequeSearch.searchBy
        (fun item => item.first.record.sequence.cmp incoming.first.record.sequence) e.queueRx with
    | .error index => .inserted index
    | .ok _ => .dropped

/-- The queue with the datagram in its place. -/
def queuedWith (e : Engine) (incoming : Incoming) : List Incoming :=
  match e.placeOf incoming with
  | .inserted index => e.queueRx.insertIdx index incoming
  | .replaced index => e.queueRx.set index incoming
  | .dropped => e.queueRx

/-- Application data is neither dropped with its datagram nor lost with one that is replaced. -/
def Room (e : Engine) (incoming : Incoming) : Prop :=
  (e.placeOf incoming).Spares e.queueRx incoming

instance {e : Engine} {incoming : Incoming} : Decidable (e.Room incoming) :=
  inferInstanceAs (Decidable ((e.placeOf incoming).Spares e.queueRx incoming))

end Engine

section Queue

variable {e e' : Engine} {incoming : Incoming}

theorem Record.isPending_eq {r : Record} : r.isPending = (r.isData && !r.isHandled) := rfl

theorem Record.isPending_iff {r : Record} :
    r.isPending = true ↔ r.isData = true ∧ r.isHandled = false := by
  simp [Record.isPending, Record.isData]

theorem Engine.mem_pendingData {r : Record} :
    r ∈ e.pendingData ↔ r ∈ e.rxRecords ∧ r.isPending = true :=
  List.mem_filter

theorem Engine.pendingData_of_queue (same : e'.queueRx = e.queueRx) :
    e'.pendingData = e.pendingData := by
  simp only [Engine.pendingData, Engine.rxRecords, same]

/-- `insert_incoming` puts a datagram in its place, or fails and leaves the queue. -/
theorem insertIncoming_queued :
    Post (insertIncoming incoming) e (fun _ e' => e'.queueRx = e.queuedWith incoming)
      (fun _ e' => e'.queueRx = e.queueRx) := by
  unfold insertIncoming
  rw [post_bind, post_get, post_ite]
  refine ⟨fun _ => rfl, fun _ => ?_⟩
  unfold Engine.queuedWith Engine.placeOf
  cases incoming.first.firstHandshake with
  | some handshake =>
      dsimp only
      unfold insertIncomingHandshake
      rw [post_bind, post_get, post_bind]
      have resent : Along (Keeps fun e : Engine => (e.queueRx, e.config, e.peerHandshakeSeqNo))
          (runIf (((incoming.records.filterMap Record.firstHandshake).filterMap
            Fragment.dupeTriggersResend).head?.any fun seq => seq < e.peerHandshakeSeqNo)
            flightResend) :=
        along_runIf fun _ => flightResend_unspoken.through
          (fun e : Engine => (e.queueRx, e.config, e.peerHandshakeSeqNo)) fun _ => rfl
      refine (resent e).mono (fun _ e₁ same => ?_) fun _ _ same => congrArg Prod.fst same
      simp only [Keeps, Prod.mk.injEq] at same
      obtain ⟨queue, config, number⟩ := same
      rw [← queue, ← config, ← number, post_bind, post_get, post_ite]
      refine ⟨fun old => ?_, fun new => ?_⟩
      · rw [post_pure, if_pos old]
      · rw [post_ite, if_neg new]
        refine ⟨fun _ => rfl, fun _ => ?_⟩
        cases e₁.config.dequeSearch.searchBy (fun item => compareKeys (queueKey item)
            (handshake.header.messageSeq, handshake.header.fragmentOffset)) e₁.queueRx with
        | error index => exact rfl
        | ok index =>
            dsimp only
            rw [post_ite]
            refine ⟨fun replaces => ?_, fun stays => ?_⟩
            · rw [post_set, if_pos replaces]
            · rw [post_pure, if_neg stays]
  | none =>
      dsimp only
      unfold insertIncomingNonHandshake
      rw [post_bind, post_get]
      cases e.config.dequeSearch.searchBy
          (fun item => item.first.record.sequence.cmp incoming.first.record.sequence) e.queueRx with
      | error index => exact rfl
      | ok index => exact rfl

/-- An insertion position is inside the queue. -/
theorem Engine.placeOf_inserted {index : Nat} (place : e.placeOf incoming = .inserted index) :
    index ≤ e.queueRx.length := by
  unfold Engine.placeOf at place
  split at place
  · split at place
    · cases place
    · split at place
      · rename_i miss
        cases place
        exact Search.DequeSearch.searchBy_error miss
      · split at place <;> cases place
  · split at place
    · rename_i miss
      cases place
      exact Search.DequeSearch.searchBy_error miss
    · cases place

/-- What a datagram replaces is in the queue. -/
theorem Engine.placeOf_replaced {index : Nat} (place : e.placeOf incoming = .replaced index) :
    index < e.queueRx.length := by
  unfold Engine.placeOf at place
  split at place
  · split at place
    · cases place
    · split at place
      · cases place
      · rename_i hit
        obtain ⟨item, found, -⟩ := Search.DequeSearch.searchBy_ok hit
        split at place
        · cases place
          exact (List.getElem?_eq_some_iff.mp found).1
        · cases place
  · split at place <;> cases place

/-- Nothing is queued but what was queued and what the datagram brings. -/
theorem Engine.mem_queuedWith {item : Incoming} (member : item ∈ e.queuedWith incoming) :
    item ∈ e.queueRx ∨ item = incoming := by
  unfold Engine.queuedWith at member
  cases place : e.placeOf incoming with
  | inserted index =>
      rw [place] at member
      exact ((List.mem_insertIdx (Engine.placeOf_inserted place)).mp member).symm
  | replaced index =>
      rw [place] at member
      exact List.mem_or_eq_of_mem_set member
  | dropped =>
      rw [place] at member
      exact .inl member

theorem rxRecords_queuedWith (queue : e'.queueRx = e.queuedWith incoming) {r : Record}
    (member : r ∈ e'.rxRecords) : r ∈ e.rxRecords ∨ r ∈ incoming.records := by
  obtain ⟨item, inQueue, inItem⟩ := List.mem_flatMap.mp member
  rw [queue] at inQueue
  rcases Engine.mem_queuedWith inQueue with old | rfl
  · exact .inl (List.mem_flatMap.mpr ⟨item, old, inItem⟩)
  · exact .inr inItem

/-- With room nothing that waits is lost. -/
theorem pendingData_queuedWith (queue : e'.queueRx = e.queuedWith incoming)
    (room : e.Room incoming) {r : Record} (member : r ∈ e.pendingData) : r ∈ e'.pendingData := by
  obtain ⟨queued, pending⟩ := Engine.mem_pendingData.mp member
  obtain ⟨item, inQueue, inItem⟩ := List.mem_flatMap.mp queued
  refine Engine.mem_pendingData.mpr ⟨List.mem_flatMap.mpr ⟨item, ?_, inItem⟩, pending⟩
  rw [queue]
  unfold Engine.queuedWith
  unfold Engine.Room at room
  cases place : e.placeOf incoming with
  | inserted index =>
      exact (List.mem_insertIdx (Engine.placeOf_inserted place)).mpr (.inr inQueue)
  | replaced index =>
      rw [place] at room
      obtain ⟨i, inside, isItem⟩ := List.mem_iff_getElem.mp inQueue
      by_cases same : index = i
      · -- The datagram that gives way holds nothing that waits.
        have found : e.queueRx[index]? = some item := by
          simp [same, inside, isItem]
        rw [room item found r inItem] at pending
        cases pending
      · refine List.mem_iff_getElem.mpr ⟨i, by simpa using inside, ?_⟩
        rw [List.getElem_set_ne same, isItem]
  | dropped => exact inQueue

/-- With room the application data of a datagram waits from now on. -/
theorem pendingData_arrived (queue : e'.queueRx = e.queuedWith incoming) (room : e.Room incoming)
    {r : Record} (member : r ∈ incoming.records) (pending : r.isPending = true) :
    r ∈ e'.pendingData := by
  refine Engine.mem_pendingData.mpr ⟨List.mem_flatMap.mpr ⟨incoming, ?_, member⟩, pending⟩
  rw [queue]
  unfold Engine.queuedWith
  unfold Engine.Room at room
  cases place : e.placeOf incoming with
  | inserted index => exact (List.mem_insertIdx (Engine.placeOf_inserted place)).mpr (.inl rfl)
  | replaced index =>
      refine List.mem_iff_getElem.mpr ⟨index, by simpa using Engine.placeOf_replaced place, ?_⟩
      exact List.getElem_set_self _
  | dropped =>
      rw [place] at room
      have isData := (Record.isPending_iff.mp pending).1
      rw [room r member] at isData
      cases isData

/-- The first record that is taken is the first that can be, and the others stay. -/
theorem markFirstRecord_find {p : Record → Bool} {records marked : List Record} {found : Record}
    (taken : markFirstRecord p records = some (found, marked)) :
    records.find? p = some found ∧ (∀ r ∈ records, p r = true → r = found ∨ r ∈ marked) ∧
      ∀ r ∈ marked, r ∈ records ∨ r = { found with handled := true } := by
  induction records generalizing marked with
  | nil => cases taken
  | cons r rest inductionHypothesis =>
      unfold markFirstRecord at taken
      split at taken
      · rename_i holds
        cases taken
        refine ⟨by simp [holds], fun other member _ => ?_, fun other member => ?_⟩
        · exact (List.mem_cons.mp member).imp id (List.mem_cons_of_mem _)
        · exact (List.mem_cons.mp member).symm.imp (List.mem_cons_of_mem _) id
      · rename_i fails
        obtain ⟨⟨other, others⟩, inRest, isMarked⟩ := Option.map_eq_some_iff.mp taken
        cases isMarked
        obtain ⟨first, stay, come⟩ := inductionHypothesis inRest
        refine ⟨by simp [fails, first], fun other member holds => ?_, fun other member => ?_⟩
        · rcases List.mem_cons.mp member with rfl | member
          · exact .inr List.mem_cons_self
          · exact (stay other member holds).imp id (List.mem_cons_of_mem _)
        · rcases List.mem_cons.mp member with rfl | member
          · exact .inl List.mem_cons_self
          · exact (come other member).imp (List.mem_cons_of_mem _) id

theorem markFirst_find {p : Record → Bool} {queue marked : List Incoming} {found : Record}
    (taken : markFirst p queue = some (found, marked)) :
    (queue.flatMap Incoming.records).find? p = some found ∧
      (∀ r ∈ queue.flatMap Incoming.records, p r = true →
        r = found ∨ r ∈ marked.flatMap Incoming.records) ∧
      ∀ r ∈ marked.flatMap Incoming.records,
        r ∈ queue.flatMap Incoming.records ∨ r = { found with handled := true } := by
  induction queue generalizing marked with
  | nil => cases taken
  | cons incoming rest inductionHypothesis =>
      simp only [List.flatMap_cons, List.find?_append, List.mem_append]
      unfold markFirst at taken
      split at taken
      · rename_i r first others inIncoming
        cases taken
        obtain ⟨isFirst, stay, come⟩ := markFirstRecord_find inIncoming
        refine ⟨by simp [isFirst], fun other member holds => ?_, fun other member => ?_⟩
        · rcases member with here | later
          · exact (stay other here holds).imp id fun marked =>
              List.mem_append_left _ marked
          · exact .inr (List.mem_append_right _ later)
        · rcases List.mem_append.mp member with here | later
          · exact (come other here).imp .inl id
          · exact .inl (.inr later)
      · rename_i absent
        obtain ⟨⟨other, others⟩, inRest, isMarked⟩ := Option.map_eq_some_iff.mp taken
        cases isMarked
        obtain ⟨isFirst, stay, come⟩ := inductionHypothesis inRest
        have missing := markFirstRecord_absent absent
        have none : incoming.records.find? p = none :=
          List.find?_eq_none.mpr fun r member => by
            simp [markFirstRecord_none missing r member]
        refine ⟨by simp [none, isFirst], fun other member holds => ?_, fun other member => ?_⟩
        · rcases member with here | later
          · exact .inr (List.mem_append_left _ here)
          · exact (stay other later holds).imp id (List.mem_append_right _)
        · rcases List.mem_append.mp member with here | later
          · exact .inl (.inl here)
          · exact (come other later).imp .inr id

end Queue

section Parsing

theorem Record.ofHeader_fresh {buffer : Bytes} {record : Dtls13Record} :
    (Record.ofHeader buffer record).Fresh := by
  have none : (Record.ofHeader buffer record).Plain := by
    intro isData
    have isType : record.contentType = .applicationData := of_decide_eq_true isData
    have noHandshake : ContentType.applicationData ≠ ContentType.handshake := by decide
    simp only [Record.ofHeader, isType, if_neg noHandshake]
  refine ⟨none, fun isData => ?_⟩
  rw [Record.isPending_eq, isData, Record.isHandled, none isData]
  rfl

theorem parseRecord_fresh {recordSlice : Bytes} :
    Returns (fun found => ∀ r ∈ found, r.Fresh) (parseRecord recordSlice) := by
  have absent : ∀ r ∈ (none : Option Record), r.Fresh := fun _ found => nomatch found
  refine returns_bind fun buffer => returns_bind fun e => ?_
  split
  · exact returns_pure absent
  · rename_i r parsed
    refine returns_ite (returns_pure ?_) ?_
    · rintro _ ⟨⟩
      rw [(Record.ofBuffer_ok parsed).1]
      exact Record.ofHeader_fresh
    · refine returns_bind fun e => returns_ite (returns_pure absent) ?_
      refine returns_bind fun suite => returns_ite (returns_pure absent) ?_
      split
      · exact returns_pure absent
      · refine returns_bind fun _ => ?_
        split
        · exact returns_pure absent
        · refine returns_pure ?_
          rintro _ ⟨⟩
          exact Record.ofHeader_fresh

theorem parseRecordsLoop_fresh {fuel : Nat} {packet : Bytes} {parsed : List Record}
    (fresh : ∀ r ∈ parsed, r.Fresh) :
    Returns (fun records => ∀ r ∈ records, r.Fresh) (parseRecordsLoop fuel packet parsed) := by
  induction fuel generalizing packet parsed with
  | zero => exact returns_pure fresh
  | succ fuel inductionHypothesis =>
      unfold parseRecordsLoop
      refine returns_ite (returns_pure fresh) ?_
      split
      · exact returns_throw
      · exact returns_pure fresh
      · refine returns_ite returns_throw fun e => ?_
        rw [post_bind]
        refine (parseRecord_fresh e).mono (fun found e₁ isFresh => ?_) fun _ _ _ => trivial
        cases found with
        | none => exact inductionHypothesis fresh e₁
        | some r =>
            have all : ∀ r' ∈ parsed ++ [r], r'.Fresh := by
              intro r' member
              rcases List.mem_append.mp member with old | new
              · exact fresh r' old
              · exact List.mem_singleton.mp new ▸ isFresh r rfl
            exact returns_ite (inductionHypothesis all) returns_throw e₁

/-- Classification passes records on as they are. -/
theorem classifyRecords_subset {records : List Record} :
    Returns (fun kept => ∀ r ∈ kept, r ∈ records) (classifyRecords records) := by
  induction records with
  | nil => exact returns_pure fun _ member => member
  | cons r rest inductionHypothesis =>
      have one : Returns (fun kept => ∀ r' ∈ kept, r' = r) (classifyRecord r) := by
        have absent : ∀ r' ∈ (none : Option Record), r' = r := fun _ found => nomatch found
        refine returns_bind fun e => returns_ite (returns_pure absent) ?_
        refine returns_ite (returns_pure absent) (returns_ite (returns_bind fun _ => returns_pure absent) ?_)
        refine returns_ite ?_ (returns_ite (returns_pure absent) (returns_pure ?_))
        · split
          · exact returns_pure absent
          · refine returns_ite (returns_bind fun _ => returns_pure absent) ?_
            exact returns_ite (returns_pure absent) returns_throw
        · rintro _ ⟨⟩
          rfl
      intro e
      unfold classifyRecords
      rw [post_bind]
      refine (one e).mono (fun kept e₁ isRecord => ?_) fun _ _ _ => trivial
      rw [post_bind]
      refine (inductionHypothesis e₁).mono (fun others _ isRest => ?_) fun _ _ _ => trivial
      intro r' member
      rcases List.mem_append.mp member with first | later
      · exact isRecord r' (Option.mem_toList.mp first) ▸ List.mem_cons_self
      · exact List.mem_cons_of_mem _ (isRest r' later)

theorem Incoming.records_of {records : List Record} {incoming : Incoming}
    (isIncoming : Incoming.ofRecords records = some incoming) : incoming.records = records := by
  cases records with
  | nil => cases isIncoming
  | cons first rest =>
      cases isIncoming
      rfl

/-- Whatever comes in, only handshake records hold handshake fragments. -/
theorem parsePacket_plain {packet : Bytes} :
    Along (fun e e' => e.PlainData → e'.PlainData) (parsePacket packet) := by
  intro e
  unfold parsePacket parseRecords
  rw [post_bind, post_bind]
  have same : ∀ {e e' : Engine}, e'.queueRx = e.queueRx → e.PlainData → e'.PlainData :=
    fun queue plain => by
      unfold Engine.PlainData Engine.rxRecords
      rw [queue]
      exact plain
  refine ((parseRecordsLoop_fresh (fun _ member => absurd member List.not_mem_nil) e).and
    (parseRecordsLoop_sameRx e)).mono (fun parsed e₁ ⟨fresh, same₁⟩ => ?_) fun _ e₁ failed =>
      same failed.2.queue
  refine ((classifyRecords_subset e₁).and (classifyRecords_sameRx e₁)).mono
    (fun kept e₂ ⟨subset, same₂⟩ => ?_) fun _ e₂ failed => same (failed.2.queue.trans same₁.queue)
  have queue : e₂.queueRx = e.queueRx := same₂.queue.trans same₁.queue
  cases isIncoming : Incoming.ofRecords kept with
  | none => exact same queue
  | some incoming =>
      refine insertIncoming_queued.mono (fun _ e₃ queued plain => ?_) fun _ e₃ failed =>
        same (failed.trans queue)
      intro r member
      rcases rxRecords_queuedWith queued member with old | new
      · exact same queue plain r old
      · exact (fresh r (subset r (Incoming.records_of isIncoming ▸ new))).plain

end Parsing

section Reading

variable {e e' : Engine}

/-- Holding no fragments depends on the content of a record only. -/
theorem Record.Plain.of_content {r₀ r : Record} (plain : r₀.Plain) (content : r₀.content = r.content) :
    r.Plain := by
  intro isData
  simp only [Record.content, Prod.mk.injEq] at content
  obtain ⟨-, header, fragments⟩ := content
  have isData₀ : r₀.isData = true := by
    unfold Record.isData at isData ⊢
    rwa [header]
  rw [plain isData₀] at fragments
  exact List.map_eq_nil_iff.mp fragments.symm

/-- Fragments are marked in handshake records only. -/
theorem markRecords_pending {started : Bool} {left : Nat} {records : List Record}
    (plain : ∀ r ∈ records, r.Plain) :
    (markRecords started left records).1.filter Record.isPending =
      records.filter Record.isPending := by
  induction records generalizing started left with
  | nil => rfl
  | cons r rest inductionHypothesis =>
      obtain ⟨isPlain, others⟩ := List.forall_mem_cons.mp plain
      simp only [markRecords, List.filter_cons, inductionHypothesis others]
      cases isData : r.isData with
      | true =>
          -- There is nothing to mark in application data.
          have none := isPlain isData
          have same : ({ r with handshakes := (markFragments started left r.handshakes).1 } : Record) =
              r := by
            rw [none]
            cases r
            simpa [markFragments] using none.symm
          rw [same]
      | false =>
          have still : Record.isData
              { r with handshakes := (markFragments started left r.handshakes).1 } = false := isData
          simp only [Record.isPending_eq, isData, still, Bool.false_and, Bool.false_eq_true, if_false]

theorem markQueue_pending {started : Bool} {left : Nat} {queue : List Incoming}
    (plain : ∀ r ∈ queue.flatMap Incoming.records, r.Plain) :
    ((markQueue started left queue).flatMap Incoming.records).filter Record.isPending =
      (queue.flatMap Incoming.records).filter Record.isPending := by
  induction queue generalizing started left with
  | nil => rfl
  | cons incoming rest inductionHypothesis =>
      simp only [List.flatMap_cons, List.forall_mem_append] at plain
      have here := @markRecords_pending started left incoming.records plain.1
      unfold markQueue
      split
      · rename_i first others _ _ marked
        rw [marked] at here
        simp only [List.flatMap_cons, List.filter_append, inductionHypothesis plain.2, ← here]
        rfl
      · simp only [List.flatMap_cons, List.filter_append, inductionHypothesis plain.2]

/-- Nothing that waits comes or goes. -/
def Engine.SamePending (e e' : Engine) : Prop :=
  e.PlainData → e'.pendingData = e.pendingData ∧ e'.PlainData

instance : Std.Refl Engine.SamePending := ⟨fun _ plain => ⟨rfl, plain⟩⟩

instance : IsTrans Engine Engine.SamePending := by
  refine ⟨fun e e' e'' first second plain => ?_⟩
  obtain ⟨same, plain'⟩ := first plain
  obtain ⟨same', plain''⟩ := second plain'
  exact ⟨same'.trans same, plain''⟩

theorem Engine.SamePending.of_queue (same : e'.queueRx = e.queueRx) : Engine.SamePending e e' := by
  intro plain
  refine ⟨Engine.pendingData_of_queue same, ?_⟩
  unfold Engine.PlainData Engine.rxRecords
  rw [same]
  exact plain

theorem Engine.SamePending.of_marked {started : Bool} {left : Nat}
    (marked : e'.queueRx = markQueue started left e.queueRx) : Engine.SamePending e e' := by
  intro plain
  refine ⟨?_, fun r member => ?_⟩
  · simp only [Engine.pendingData, Engine.rxRecords, marked]
    exact markQueue_pending plain
  · have content := @markQueue_content started left e.queueRx
    rw [← marked] at content
    have isContent : r.content ∈ e.rxRecords.map Record.content :=
      content ▸ List.mem_map_of_mem member
    obtain ⟨r₀, queued, same⟩ := List.mem_map.mp isContent
    exact (plain r₀ queued).of_content same

/-- Reading a message takes no application data. -/
theorem nextHandshakeWithOptions_samePending {wanted : MessageType} {withTranscript allowUnknown : Bool} :
    Along Engine.SamePending (nextHandshakeWithOptions wanted withTranscript allowUnknown) := by
  have queued : ∀ {α : Type} {program : EngineM α}, Along (Keeps Engine.queueRx) program →
      Along Engine.SamePending program := fun keeps => keeps.mono fun _ _ => .of_queue
  refine along_bind along_get fun e => along_ite (fun _ => ?_) fun _ => along_pure
  split
  · exact along_throw
  · refine along_bind (along_get_bind fun e => ?_) fun _ => along_pure
    dsimp only
    rw [post_bind, post_set]
    refine Along.after (queued ?_) (.of_marked rfl)
    refine along_ite (fun _ => along_throw) fun _ => along_bind (along_modify fun _ => rfl) fun _ => ?_
    refine along_bind (along_runIf fun _ => along_modify fun _ => rfl) fun _ => ?_
    split
    · exact along_throw
    · exact along_ite (fun _ => along_throw) fun _ => along_pure

/-- Datagrams that are done with hold nothing that waits. -/
theorem purge_pending : Engine.SamePending e e.purgeHandledQueueRx := by
  have kept : ∀ queue : List Incoming,
      ((queue.dropWhile fun item => item.records.all Record.isHandled).flatMap
        Incoming.records).filter Record.isPending =
      (queue.flatMap Incoming.records).filter Record.isPending := by
    intro queue
    induction queue with
    | nil => rfl
    | cons incoming rest inductionHypothesis =>
        by_cases handled : incoming.records.all Record.isHandled = true
        · have none : incoming.records.filter Record.isPending = [] := by
            refine List.filter_eq_nil_iff.mpr fun r member pending => ?_
            have done := List.all_eq_true.mp handled r member
            rw [(Record.isPending_iff.mp pending).2] at done
            cases done
          simp only [List.dropWhile_cons, handled, if_true, List.flatMap_cons, List.filter_append,
            none, List.nil_append, inductionHypothesis]
        · simp only [List.dropWhile_cons, handled, Bool.false_eq_true, if_false]
  intro plain
  refine ⟨kept e.queueRx, fun r member => plain r ?_⟩
  obtain ⟨item, inQueue, inItem⟩ := List.mem_flatMap.mp member
  exact List.mem_flatMap.mpr ⟨item, (List.dropWhile_suffix _).subset inQueue, inItem⟩

/-- What a poll takes is the first record that waits. -/
theorem pollAppData_pending {bufLen : Nat} (plain : e.PlainData) :
    Post (pollAppData bufLen) e
      (fun found e' => e'.PlainData ∧ match found with
        | some data => e.releaseAppData = true ∧ ∃ r, e.pendingData.head? = some r ∧
            data = r.fragment ∧ (∀ r' ∈ e.pendingData, r' = r ∨ r' ∈ e'.pendingData) ∧
            ∀ r' ∈ e'.pendingData, r' ∈ e.pendingData
        | none => e' = e ∧ (e.releaseAppData = true → e.pendingData = []))
      (fun _ e' => e' = e) := by
  unfold pollAppData
  rw [post_bind, post_get, post_ite]
  refine ⟨fun closed => ⟨plain, rfl, fun released => ?_⟩, fun opened => ?_⟩
  · simp [released] at closed
  have released : e.releaseAppData = true := by simpa using opened
  cases taken : markFirst (fun r => r.record.contentType = .applicationData && !r.isHandled)
      e.queueRx with
  | none =>
      refine ⟨plain, rfl, fun _ => List.filter_eq_nil_iff.mpr fun r member pending => ?_⟩
      obtain ⟨item, inQueue, inItem⟩ := List.mem_flatMap.mp member
      have absent : r.isPending = false := markFirst_none taken item inQueue r inItem
      rw [absent] at pending
      cases pending
  | some result =>
      obtain ⟨r, marked⟩ := result
      dsimp only
      rw [post_ite]
      refine ⟨fun _ => rfl, fun _ => ?_⟩
      rw [post_ite]
      refine ⟨fun _ => rfl, fun _ => ?_⟩
      rw [post_bind, post_set]
      obtain ⟨isFirst, stay, come⟩ := markFirst_find taken
      have queued : r ∈ e.rxRecords := List.mem_of_find?_eq_some isFirst
      have isPending : r.isPending = true := List.find?_some isFirst
      have noFragments := plain r queued (Record.isPending_iff.mp isPending).1
      have done : Record.isPending { r with handled := true } = false := by
        simp [Record.isPending_eq, Record.isHandled, noFragments]
      refine ⟨fun r' member => ?_, released, r, ?_, rfl, fun r' member => ?_, fun r' member => ?_⟩
      · rcases come r' member with old | rfl
        · exact plain r' old
        · exact fun _ => noFragments
      · exact List.head?_filter.trans isFirst
      · obtain ⟨queued', pending⟩ := Engine.mem_pendingData.mp member
        exact (stay r' queued' pending).imp id fun inMarked =>
          Engine.mem_pendingData.mpr ⟨inMarked, pending⟩
      · obtain ⟨inMarked, pending⟩ := Engine.mem_pendingData.mp member
        rcases come r' inMarked with old | rfl
        · exact Engine.mem_pendingData.mpr ⟨old, pending⟩
        · rw [done] at pending
          cases pending

end Reading

end Dimpl.Dtls13
