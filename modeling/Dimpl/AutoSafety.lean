import Dimpl.Auto
import Dimpl.Sample

/-!
# What a datagram can do to an auto-sensing client

Version detection reads inside of the datagram except in one place: the value of a
`supported_versions` extension is read behind a header that may be the last thing in
the body. The client is taken out while its successor is built, and an error there
leaves nothing behind.
-/

namespace Dimpl

open Nom Program

namespace Auto

/-- A 16-bit number at a position, zero outside. -/
def u16At (bytes : Bytes) (position : Nat) : Nat :=
  (bytes.getD position 0).toNat * 256 + (bytes.getD (position + 1) 0).toNat

/-- From a position the first `supported_versions` extension is at another one. -/
inductive Finds (body : Bytes) (extEnd : Nat) : Nat → Nat → Prop where
  | here {pos : Nat} (room : pos + 4 ≤ extEnd) (type : u16At body pos = 0x002B) :
      Finds body extEnd pos pos
  | skip {pos found : Nat} (room : pos + 4 ≤ extEnd) (other : u16At body pos ≠ 0x002B)
      (later : Finds body extEnd (pos + 4 + u16At body (pos + 2)) found) :
      Finds body extEnd pos found

/-- The extensions of a ServerHello body. -/
structure ExtensionRange (body : Bytes) (start stop : Nat) : Prop where
  long : 35 ≤ body.length
  begins : start = 34 + (1 + (body.getD 34 0).toNat) + 2 + 1 + 2
  fits : start ≤ body.length
  ends : stop = start + u16At body (start - 2)
  inside : stop ≤ body.length

/-- The body of the handshake record a datagram starts with. -/
structure RecordBody (packet recordBody : Bytes) : Prop where
  long : 13 ≤ packet.length
  handshake : packet.getD 0 0 = 0x16
  inside : getRange packet 13 (13 + u16At packet 11) = some recordBody
  header : 12 ≤ recordBody.length

/-- The datagram starts with a HelloVerifyRequest. -/
def VerifyRequest (packet : Bytes) : Prop :=
  ∃ recordBody, RecordBody packet recordBody ∧ recordBody.getD 0 0 = 3

/-- The datagram starts with a ServerHello fragment of this body. -/
def HelloBody (packet body : Bytes) : Prop :=
  ∃ recordBody, RecordBody packet recordBody ∧ recordBody.getD 0 0 = 2 ∧
    getRange recordBody 12 (12 + ((recordBody.getD 9 0).toNat * 65536 + u16At recordBody 10)) =
      some body

/-- The datagram starts with what a server answers a hello with. -/
def Recognised (packet : Bytes) : Prop := VerifyRequest packet ∨ ∃ body, HelloBody packet body

/-- Where a ServerHello has its `supported_versions` extension, with a value declared. -/
def VersionsAt (packet body : Bytes) (found : Nat) : Prop :=
  ∃ start stop, HelloBody packet body ∧ ExtensionRange body start stop ∧
    Finds body stop start found ∧ 2 ≤ u16At body (found + 2)

/-- The datagram has a ServerHello whose `supported_versions` value is cut off. -/
def CutVersions (packet : Bytes) : Prop :=
  ∃ body found, VersionsAt packet body found ∧ body.length < found + 6

/-- The datagram has a ServerHello that selects DTLS 1.3. -/
def Selects13 (packet : Bytes) : Prop :=
  ∃ body found, VersionsAt packet body found ∧ found + 6 ≤ body.length ∧
    u16At body (found + 4) = 0xFEFC

/-- The computation panics. -/
def Panics {α : Type} (outcome : Except Panic α) : Prop := ∃ site, outcome = .error site

section Reading

variable {α : Type} {bytes body : Bytes} {position : Nat}

theorem index_inside (inside : position < bytes.length) :
    index bytes position = .ok (bytes.getD position 0) := by
  simp [index, List.getElem?_eq_getElem inside, List.getD_eq_getElem?_getD]

theorem indexU16_inside (inside : position + 2 ≤ bytes.length) :
    indexU16 bytes position = .ok (u16At bytes position) := by
  have first : position < bytes.length := by omega
  have second : position + 1 < bytes.length := by omega
  simp only [indexU16, index_inside first, index_inside second]
  rfl

theorem indexU16_outside (outside : bytes.length < position + 2) : Panics (indexU16 bytes position) := by
  by_cases first : position < bytes.length
  · have second : bytes[position + 1]? = none := List.getElem?_eq_none (by omega)
    rw [indexU16, index_inside first]
    simp only [index, second]
    exact ⟨_, rfl⟩
  · have missing : bytes[position]? = none := List.getElem?_eq_none (by omega)
    simp only [indexU16, index, missing]
    exact ⟨_, rfl⟩

theorem ok_bind {β : Type} {value : α} {f : α → Except Panic β} :
    (Except.ok value >>= f) = f value := rfl

/-- A panic is carried through what comes behind it. -/
theorem Panics.bind {β : Type} {outcome : Except Panic α} {f : α → Except Panic β}
    (panics : Panics outcome) : Panics (outcome >>= f) := by
  obtain ⟨site, rfl⟩ := panics
  exact ⟨site, rfl⟩

/-- What a `supported_versions` extension says. -/
def versionAt (body : Bytes) (found : Nat) : Except Panic DetectedVersion :=
  if 2 ≤ u16At body (found + 2) then do
    let version ← indexU16 body (found + 4)
    return if version = 0xFEFC then .dtls13 else .dtls12
  else return .dtls12

/-- The walk ends, with what the first `supported_versions` extension says. -/
theorem walkExtensions_spec {extEnd fuel pos : Nat} (inside : extEnd ≤ body.length)
    (enough : extEnd < pos + fuel) (some : 0 < fuel) :
    (∀ found, Finds body extEnd pos found →
        walkExtensions body extEnd fuel pos = versionAt body found) ∧
      ((∀ found, ¬Finds body extEnd pos found) →
        walkExtensions body extEnd fuel pos = .ok .dtls12) := by
  induction fuel generalizing pos with
  | zero => omega
  | succ fuel inductionHypothesis =>
      unfold walkExtensions
      by_cases room : pos + 4 ≤ extEnd
      · rw [if_pos room, indexU16_inside (by omega), indexU16_inside (by omega)]
        simp only [ok_bind]
        by_cases type : u16At body pos = 0x002B
        · rw [if_pos type]
          refine ⟨fun found finds => ?_, fun nowhere => absurd (.here room type) (nowhere pos)⟩
          cases finds with
          | here _ _ => rfl
          | skip _ other _ => exact absurd type other
        · rw [if_neg type]
          obtain ⟨later, otherwise⟩ := @inductionHypothesis (pos + 4 + u16At body (pos + 2))
            (by omega) (by omega)
          refine ⟨fun found finds => ?_, fun nowhere => otherwise fun found finds =>
            nowhere found (.skip room type finds)⟩
          cases finds with
          | here _ isType => exact absurd isType type
          | skip _ _ finds => exact later found finds
      · rw [if_neg room]
        refine ⟨fun found finds => ?_, fun _ => rfl⟩
        cases finds with
        | here isRoom _ => exact absurd isRoom room
        | skip isRoom _ _ => exact absurd isRoom room

/-- A body with extensions is as new as they say. -/
theorem bodyVersion_range {start stop : Nat} (range : ExtensionRange body start stop) :
    bodyVersion body = do return some (← walkExtensions body stop (stop + 1) start) := by
  obtain ⟨long, rfl, fits, rfl, inside⟩ := range
  have sid : body[34]? = some (body.getD 34 0) := by
    simp [List.getD_eq_getElem?_getD, List.getElem?_eq_getElem (show 34 < body.length by omega)]
  simp only [Nat.add_sub_cancel] at inside ⊢
  unfold bodyVersion
  simp only [sid]
  rw [if_neg (by omega), if_neg (by omega), indexU16_inside (by omega)]
  simp only [ok_bind]
  rw [if_neg (by omega)]

/-- A body without extensions is of DTLS 1.2. -/
theorem bodyVersion_plain (plain : ∀ start stop, ¬ExtensionRange body start stop) :
    bodyVersion body = .ok (some .dtls12) := by
  unfold bodyVersion
  by_cases short : body.length < 35
  · rw [if_pos short]
    rfl
  · have sid : body[34]? = some (body.getD 34 0) := by
      simp [List.getD_eq_getElem?_getD, List.getElem?_eq_getElem (show 34 < body.length by omega)]
    simp only [if_neg short, sid]
    by_cases ends : 34 + (1 + (body.getD 34 0).toNat) + 2 + 1 + 2 > body.length
    · rw [if_pos ends]
      rfl
    · rw [if_neg ends, indexU16_inside (by omega)]
      simp only [ok_bind]
      split
      · rfl
      · rename_i inside
        refine absurd ⟨by omega, rfl, by omega, rfl, ?_⟩ (plain _ _)
        simp only [Nat.add_sub_cancel]
        omega

variable {packet : Bytes}

/-- The number of bytes a fragment header declares. -/
theorem fragmentLen_eq : (bytes.getD 9 0).toNat * 65536 + (bytes.getD 10 0).toNat * 256 +
    (bytes.getD 11 0).toNat = (bytes.getD 9 0).toNat * 65536 + u16At bytes 10 := by
  simp only [u16At, Nat.reduceAdd]
  omega

theorem inner_of_record {recordBody : Bytes} (record : RecordBody packet recordBody) :
    serverHelloVersionInner packet = recordVersion recordBody := by
  have long := record.long
  unfold serverHelloVersionInner
  rw [if_neg (by omega), index_inside (by omega), indexU16_inside (by omega)]
  simp only [ok_bind]
  rw [if_neg (not_not.mpr record.handshake), record.inside]

/-- A datagram that starts with no handshake header tells nothing. -/
theorem inner_of_none (other : ∀ recordBody, ¬RecordBody packet recordBody) :
    serverHelloVersionInner packet = .ok none := by
  unfold serverHelloVersionInner
  by_cases short : packet.length < 13
  · rw [if_pos short]
    rfl
  · rw [if_neg short, index_inside (by omega), indexU16_inside (by omega)]
    simp only [ok_bind]
    by_cases handshake : packet.getD 0 0 = 0x16
    · rw [if_neg (not_not.mpr handshake)]
      cases inside : getRange packet 13 (13 + u16At packet 11) with
      | none => rfl
      | some recordBody =>
          have header : recordBody.length < 12 := by
            by_contra long
            exact other recordBody ⟨by omega, handshake, inside, by omega⟩
          simp only [recordVersion, if_pos header]
          rfl
    · rw [if_pos handshake]
      rfl

theorem inner_of_verify (verify : VerifyRequest packet) :
    serverHelloVersionInner packet = .ok (some .dtls12) := by
  obtain ⟨recordBody, record, type⟩ := verify
  have header := record.header
  rw [inner_of_record record]
  unfold recordVersion
  rw [if_neg (by omega), index_inside (by omega)]
  simp only [ok_bind]
  rw [if_pos type]
  rfl

theorem inner_of_hello (hello : HelloBody packet body) :
    serverHelloVersionInner packet = bodyVersion body := by
  obtain ⟨recordBody, record, type, inside⟩ := hello
  have header := record.header
  have notVerify : ¬recordBody.getD 0 0 = 3 := by
    rw [type]
    decide
  rw [inner_of_record record]
  unfold recordVersion
  rw [if_neg (by omega), index_inside (by omega), index_inside (by omega), index_inside (by omega),
    index_inside (by omega)]
  simp only [ok_bind]
  rw [if_neg notVerify, if_neg (not_not.mpr type), fragmentLen_eq, inside]

theorem inner_otherwise (unrecognised : ¬Recognised packet) :
    serverHelloVersionInner packet = .ok none := by
  by_cases starts : ∃ recordBody, RecordBody packet recordBody
  · obtain ⟨recordBody, record⟩ := starts
    have header := record.header
    rw [inner_of_record record]
    unfold recordVersion
    rw [if_neg (by omega), index_inside (by omega), index_inside (by omega), index_inside (by omega),
      index_inside (by omega)]
    simp only [ok_bind]
    rw [if_neg fun verify => unrecognised (.inl ⟨recordBody, record, verify⟩)]
    by_cases type : recordBody.getD 0 0 = 2
    · rw [if_neg (not_not.mpr type), fragmentLen_eq]
      cases inside : getRange recordBody 12
          (12 + ((recordBody.getD 9 0).toNat * 65536 + u16At recordBody 10)) with
      | none => rfl
      | some body => exact absurd (.inr ⟨body, recordBody, record, type, inside⟩) unrecognised
    · rw [if_pos type]
      rfl
  · exact inner_of_none fun recordBody record => starts ⟨recordBody, record⟩

/-- A datagram starts with one message. -/
theorem RecordBody.unique {first second : Bytes} (one : RecordBody packet first)
    (other : RecordBody packet second) : first = second :=
  Option.some.inj (one.inside.symm.trans other.inside)

theorem HelloBody.unique {first second : Bytes} (one : HelloBody packet first)
    (other : HelloBody packet second) : first = second := by
  obtain ⟨record, isRecord, _, inside⟩ := one
  obtain ⟨record', isRecord', _, inside'⟩ := other
  cases isRecord.unique isRecord'
  exact Option.some.inj (inside.symm.trans inside')

theorem HelloBody.not_verify (hello : HelloBody packet body) : ¬VerifyRequest packet := by
  rintro ⟨record', isRecord', verify⟩
  obtain ⟨record, isRecord, type, _⟩ := hello
  cases isRecord.unique isRecord'
  rw [type] at verify
  exact absurd verify (by decide)

theorem Finds.unique {extEnd pos first second : Nat} (one : Finds body extEnd pos first)
    (other : Finds body extEnd pos second) : first = second := by
  induction one with
  | here _ type =>
      cases other with
      | here _ _ => rfl
      | skip _ notType _ => exact absurd type notType
  | skip _ notType _ inductionHypothesis =>
      cases other with
      | here _ type => exact absurd type notType
      | skip _ _ later => exact inductionHypothesis later

theorem ExtensionRange.unique {start stop start' stop' : Nat} (one : ExtensionRange body start stop)
    (other : ExtensionRange body start' stop') : start = start' ∧ stop = stop' := by
  have begins : start = start' := one.begins.trans other.begins.symm
  refine ⟨begins, one.ends.trans ?_⟩
  rw [begins, other.ends]

/-- What version detection says of a datagram that starts with a ServerHello. -/
theorem serverHelloVersion_hello (hello : HelloBody packet body) :
    (∃ start stop found, ExtensionRange body start stop ∧ Finds body stop start found ∧
        serverHelloVersion packet = versionAt body found) ∨
      ((∀ found, ¬VersionsAt packet body found) ∧ serverHelloVersion packet = .ok .dtls12) := by
  unfold serverHelloVersion
  rw [inner_of_hello hello]
  by_cases ranges : ∃ start stop, ExtensionRange body start stop
  · obtain ⟨start, stop, range⟩ := ranges
    obtain ⟨finds, nowhere⟩ := @walkExtensions_spec body stop (stop + 1) start range.inside (by omega)
      (by omega)
    rw [bodyVersion_range range]
    by_cases anywhere : ∃ found, Finds body stop start found
    · obtain ⟨found, isFound⟩ := anywhere
      refine .inl ⟨start, stop, found, range, isFound, ?_⟩
      rw [finds found isFound]
      cases versionAt body found <;> rfl
    · have none : ∀ found, ¬Finds body stop start found := fun found isFound =>
        anywhere ⟨found, isFound⟩
      refine .inr ⟨?_, ?_⟩
      · rintro found ⟨start', stop', _, range', isFound, _⟩
        obtain ⟨rfl, rfl⟩ := range.unique range'
        exact none found isFound
      · rw [nowhere none]
        rfl
  · refine .inr ⟨?_, ?_⟩
    · rintro found ⟨start, stop, _, range, _⟩
      exact ranges ⟨start, stop, range⟩
    · rw [bodyVersion_plain fun start stop range => ranges ⟨start, stop, range⟩]
      rfl

theorem versionAt_cases (body : Bytes) (found : Nat) :
    (2 ≤ u16At body (found + 2) ∧ body.length < found + 6 ∧ Panics (versionAt body found)) ∨
      (2 ≤ u16At body (found + 2) ∧ found + 6 ≤ body.length ∧ u16At body (found + 4) = 0xFEFC ∧
        versionAt body found = .ok .dtls13) ∨
      (¬(2 ≤ u16At body (found + 2) ∧ (body.length < found + 6 ∨ u16At body (found + 4) = 0xFEFC)) ∧
        versionAt body found = .ok .dtls12) := by
  unfold versionAt
  by_cases declared : 2 ≤ u16At body (found + 2)
  · rw [if_pos declared]
    by_cases short : body.length < found + 6
    · exact .inl ⟨declared, short, (indexU16_outside (by omega)).bind⟩
    · rw [indexU16_inside (by omega)]
      by_cases new : u16At body (found + 4) = 0xFEFC
      · refine .inr (.inl ⟨declared, by omega, new, ?_⟩)
        simp only [ok_bind, if_pos new]
        rfl
      · refine .inr (.inr ⟨fun both => both.2.elim short new, ?_⟩)
        simp only [ok_bind, if_neg new]
        rfl
  · rw [if_neg declared]
    exact .inr (.inr ⟨fun both => declared both.1, rfl⟩)

/-- The extension the walk finds is the one the datagram has. -/
theorem VersionsAt.found {start stop found found' : Nat} (versions : VersionsAt packet body found)
    (range : ExtensionRange body start stop) (finds : Finds body stop start found') :
    found = found' := by
  obtain ⟨start', stop', _, range', finds', _⟩ := versions
  obtain ⟨rfl, rfl⟩ := range.unique range'
  exact finds'.unique finds

/-- What version detection says, in terms of the datagram. -/
theorem serverHelloVersion_cases (packet : Bytes) :
    (¬Recognised packet ∧ serverHelloVersion packet = .ok .unknown) ∨
      (Recognised packet ∧ CutVersions packet ∧ Panics (serverHelloVersion packet)) ∨
      (Recognised packet ∧ ¬CutVersions packet ∧ Selects13 packet ∧
        serverHelloVersion packet = .ok .dtls13) ∨
      (Recognised packet ∧ ¬CutVersions packet ∧ ¬Selects13 packet ∧
        serverHelloVersion packet = .ok .dtls12) := by
  by_cases recognised : Recognised packet
  · right
    rcases recognised with verify | ⟨body, hello⟩
    · refine .inr (.inr ⟨.inl verify, ?_, ?_, ?_⟩)
      · rintro ⟨body, found, ⟨_, _, hello, _⟩, _⟩
        exact hello.not_verify verify
      · rintro ⟨body, found, ⟨_, _, hello, _⟩, _⟩
        exact hello.not_verify verify
      · rw [serverHelloVersion, inner_of_verify verify]
        rfl
    · have isRecognised : Recognised packet := .inr ⟨body, hello⟩
      rcases serverHelloVersion_hello hello with ⟨start, stop, found, range, finds, isVersion⟩ |
        ⟨nowhere, isVersion⟩
      · rw [isVersion]
        -- Whatever the datagram has is at the place the walk finds.
        have place : ∀ body' found', VersionsAt packet body' found' → body' = body ∧ found' = found := by
          intro body' found' versions
          obtain ⟨_, _, hello', _⟩ := id versions
          cases hello'.unique hello
          exact ⟨rfl, versions.found range finds⟩
        rcases versionAt_cases body found with ⟨declared, short, panics⟩ |
          ⟨declared, inside, new, isNew⟩ | ⟨old, isOld⟩
        · exact .inl ⟨isRecognised,
            ⟨body, found, ⟨start, stop, hello, range, finds, declared⟩, short⟩, panics⟩
        · refine .inr (.inl ⟨isRecognised, ?_, ?_, isNew⟩)
          · rintro ⟨body', found', versions, short⟩
            obtain ⟨rfl, rfl⟩ := place _ _ versions
            omega
          · exact ⟨body, found, ⟨start, stop, hello, range, finds, declared⟩, inside, new⟩
        · refine .inr (.inr ⟨isRecognised, ?_, ?_, isOld⟩)
          · rintro ⟨body', found', versions, short⟩
            obtain ⟨rfl, rfl⟩ := place _ _ versions
            obtain ⟨_, _, _, _, _, declared⟩ := versions
            exact old ⟨declared, .inl short⟩
          · rintro ⟨body', found', versions, _, new⟩
            obtain ⟨rfl, rfl⟩ := place _ _ versions
            obtain ⟨_, _, _, _, _, declared⟩ := versions
            exact old ⟨declared, .inr new⟩
      · refine .inr (.inr ⟨isRecognised, ?_, ?_, isVersion⟩)
        · rintro ⟨body', found', versions, _⟩
          obtain ⟨_, _, hello', _⟩ := id versions
          cases hello'.unique hello
          exact nowhere found' versions
        · rintro ⟨body', found', versions, _⟩
          obtain ⟨_, _, hello', _⟩ := id versions
          cases hello'.unique hello
          exact nowhere found' versions
  · left
    refine ⟨recognised, ?_⟩
    rw [serverHelloVersion, inner_otherwise recognised]
    rfl

end Reading

end Auto

section Building

variable {config : Config} {rng entropy : SeededRng} {now : Instant}

/-- The first timeout call on a fresh engine succeeds unless the handshake may take no
time at all. -/
theorem Dtls12.handleTimeout_fresh {e : Dtls12.Engine} (connect : e.connectTimeout = .unarmed)
    (flight : e.flightTimeout = .unarmed) (positive : 0 < e.config.handshakeTimeout) :
    Post (Dtls12.Engine.handleTimeout now) e (fun _ e' => e'.queueRx = e.queueRx)
      (fun _ _ => False) := by
  have waits : now < now + e.flightBackoff.rto := Nat.lt_add_of_pos_right e.flightBackoff.rto_pos
  have early : now < now + e.config.handshakeTimeout := Nat.lt_add_of_pos_right positive
  unfold Dtls12.Engine.handleTimeout Dtls12.retransmit
  simp only [post_bind, post_modify, post_get, post_ite, Dtls12.Engine.armTimers, connect, flight,
    if_true, decide_eq_true_eq, waits, post_pure]
  exact ⟨fun passed => absurd early (Nat.not_lt.mpr passed), fun _ => trivial⟩

theorem Dtls13.handleTimeout_fresh {e : Dtls13.Engine} (connect : e.connectTimeout = .unarmed)
    (flight : e.flightTimeout = .unarmed) (idle : e.hsSendKeys = none)
    (positive : 0 < e.config.handshakeTimeout) :
    Post (Dtls13.Engine.handleTimeout now) e (fun _ e' => e'.queueRx = e.queueRx)
      (fun _ _ => False) := by
  have waits : now < now + e.flightBackoff.rto := Nat.lt_add_of_pos_right e.flightBackoff.rto_pos
  have early : now < now + e.config.handshakeTimeout := Nat.lt_add_of_pos_right positive
  unfold Dtls13.Engine.handleTimeout Dtls13.retransmit Dtls13.maybeFlushHandshakeAck
  simp only [post_bind, post_modify, post_get, post_ite, Dtls13.Engine.armTimers, connect, flight,
    if_true, decide_eq_true_eq, waits, post_pure, Dtls13.Engine.maybeScheduleHandshakeAck,
    Dtls13.Engine.handshakeInProgress, idle]
  exact ⟨fun passed => absurd early (Nat.not_lt.mpr passed), fun _ => rfl⟩

/-- A DTLS 1.2 client that waits with nothing received makes no progress. -/
theorem Dtls12.Client.makeProgress_waiting {c : Dtls12.Client}
    (waits : c.state = .awaitHelloVerifyRequest) (empty : c.engine.queueRx = []) :
    Post Dtls12.Client.makeProgress c (fun _ _ => True) (fun _ _ => False) := by
  have nothing : ∀ wanted, c.engine.hasCompleteHandshake wanted = false := by
    intro wanted
    simp [Dtls12.Engine.hasCompleteHandshake, Dtls12.Engine.scanFragments, Dtls12.Engine.rxRecords,
      empty]
  simp [Dtls12.Client.makeProgress, Dtls12.Client.progressLoop, waits,
    Dtls12.Client.State.makeProgress, Dtls12.Client.awaitHelloVerifyRequest,
    Dtls12.Client.onHandshake, Dtls12.Client.withEngine, Dtls12.nextHandshake, nothing]

/-- So does a DTLS 1.3 client. -/
theorem Dtls13.Client.makeProgress_waiting {c : Dtls13.Client}
    (waits : c.state = .awaitServerHello) (empty : c.engine.queueRx = []) :
    Post Dtls13.Client.makeProgress c (fun _ _ => True) (fun _ _ => False) := by
  have nothing : ∀ wanted, c.endpoint.engine.hasCompleteHandshake wanted = false := by
    intro wanted
    have noRecord : c.endpoint.engine.queueRx = [] := empty
    simp [Dtls13.Engine.hasCompleteHandshake, Dtls13.Engine.scanFragments, Dtls13.Engine.rxRecords,
      noRecord]
  simp [Dtls13.Client.makeProgress, Dtls13.Client.progressLoop, waits,
    Dtls13.Client.State.makeProgress, Dtls13.Client.awaitServerHello,
    Dtls13.Client.onHandshake, Dtls13.Client.withEngine, Dtls13.Client.withEndpoint,
    Dtls13.Endpoint.withEngine, Dtls13.nextHandshake, Dtls13.nextHandshakeWithOptions, nothing]

/-- The first timeout call on a fresh engine fails when the handshake may take no time
at all. -/
theorem Dtls12.handleTimeout_instant {e : Dtls12.Engine} (connect : e.connectTimeout = .unarmed)
    (instant : e.config.handshakeTimeout = 0) :
    Post (Dtls12.Engine.handleTimeout now) e (fun _ _ => False)
      (fun fault _ => fault = .fatal (.timeout .connect)) := by
  unfold Dtls12.Engine.handleTimeout
  simp [Dtls12.Engine.armTimers, connect, instant]

theorem Dtls13.handleTimeout_instant {e : Dtls13.Engine} (connect : e.connectTimeout = .unarmed)
    (instant : e.config.handshakeTimeout = 0) :
    Post (Dtls13.Engine.handleTimeout now) e (fun _ _ => False)
      (fun fault _ => fault = .fatal (.timeout .connect)) := by
  unfold Dtls13.Engine.handleTimeout
  simp [Dtls13.Engine.armTimers, connect, instant]

variable {random : Random} {bytes : Bytes} {exchange : ActiveKeyExchange}
  {certificate : DtlsCertificate}

/-- A DTLS 1.2 client that takes over a hello can be built exactly when the handshake
may take some time; otherwise the connect timeout is reported. -/
theorem Dtls12.Client.handleTimeout_hybrid {auth : Dtls12.AuthMode} :
    Post (Dtls12.Client.handleTimeout now)
      (Dtls12.Client.newFromHybrid random bytes (Dtls12.Engine.new config auth rng entropy) now)
      (fun _ _ => 0 < config.handshakeTimeout)
      (fun fault _ => config.handshakeTimeout = 0 ∧ fault = .fatal (.timeout .connect)) := by
  unfold Dtls12.Client.handleTimeout Dtls12.Client.initRandom Dtls12.Client.withEngine
  rw [post_bind, post_modify, post_bind, post_bind, post_get]
  dsimp only [Dtls12.Client.newFromHybrid]
  rw [post_pure, post_bind, post_zoom]
  rcases Nat.eq_zero_or_pos config.handshakeTimeout with instant | positive
  · exact (Dtls12.handleTimeout_instant rfl instant).mono (fun _ _ never => never.elim)
      fun _ _ fault => ⟨instant, fault⟩
  · refine (Dtls12.handleTimeout_fresh rfl rfl positive).mono ?_ fun _ _ never => never.elim
    intro _ e' empty
    rw [post_publicResult]
    exact (Dtls12.Client.makeProgress_waiting rfl empty).mono (fun _ _ _ => positive)
      fun _ _ never => never.elim

/-- The same of a DTLS 1.3 client. -/
theorem Dtls13.Client.handleTimeout_hybrid :
    Post (Dtls13.Client.handleTimeout now)
      (Dtls13.Client.newFromHybrid random bytes exchange (Dtls13.Engine.new config certificate rng)
        entropy now)
      (fun _ _ => 0 < config.handshakeTimeout)
      (fun fault _ => config.handshakeTimeout = 0 ∧ fault = .fatal (.timeout .connect)) := by
  unfold Dtls13.Client.handleTimeout Dtls13.Client.withEndpoint Dtls13.Endpoint.handleTimeout
    Dtls13.Endpoint.initRandom Dtls13.Endpoint.withEngine
  rw [post_bind, post_zoom, post_bind, post_modify, post_bind, post_bind, post_get]
  dsimp only [Dtls13.Client.newFromHybrid]
  rw [post_pure, post_zoom]
  rcases Nat.eq_zero_or_pos config.handshakeTimeout with instant | positive
  · exact (Dtls13.handleTimeout_instant rfl instant).mono (fun _ _ never => never.elim)
      fun _ _ fault => ⟨instant, fault⟩
  · refine (Dtls13.handleTimeout_fresh rfl rfl rfl positive).mono ?_ fun _ _ never => never.elim
    intro _ e' empty
    rw [post_publicResult]
    refine Post.mono (Q := fun _ _ => True) (E := fun _ _ => False) ?_ (fun _ _ _ => positive)
      fun _ _ never => never.elim
    exact Dtls13.Client.makeProgress_waiting rfl empty

end Building

section Instance

variable {σ : Type} {wrap : σ → Inner} {construct handle : EStateM Fault σ Unit} {initial : σ}
  {d : Dtls}

/-- Whatever returns behind the constructor leaves a client in its place. -/
theorem Dtls.install_built (built : Post construct initial (fun _ _ => True) fun _ _ => False) :
    Post (Dtls.install wrap construct handle initial) d (fun _ d' => d'.inner.isSome = true)
      (fun fault d' => fault.isPanic = true ∨ d'.inner.isSome = true) := by
  unfold Post at built ⊢
  unfold Dtls.install
  cases outcome : construct initial with
  | error fault _ => simp [outcome] at built
  | ok value client =>
      dsimp only
      cases handled : handle client with
      | ok value client => rfl
      | error fault client =>
          cases fault with
          | transient reason => exact .inr rfl
          | fatal reason => exact .inr rfl
          | panic site => exact .inl rfl

/-- An error of the constructor leaves what was there. -/
theorem Dtls.install_failed {reason : Error}
    (failed : Post construct initial (fun _ _ => False) fun fault _ => fault = .fatal reason) :
    Post (Dtls.install wrap construct handle initial) d (fun _ _ => False)
      (fun fault d' => fault = .fatal reason ∧ d' = d) := by
  unfold Post at failed ⊢
  unfold Dtls.install
  cases outcome : construct initial with
  | ok value client => simp [outcome] at failed
  | error fault _ =>
      rw [outcome] at failed
      exact ⟨failed, rfl⟩

end Instance

namespace ClientPending

variable (pending : ClientPending) (rng entropy : SeededRng) (packet : Bytes)

/-- The instance around a waiting client. -/
def instance_ : Dtls := ⟨some (.clientPending pending)⟩

/-- A datagram does no harm to a waiting client: version detection and the constructor of
the next client do not panic, and the instance has a client when the call returns. -/
structure Survives : Prop where
  detects : ∀ site, Auto.serverHelloVersion packet ≠ .error site
  builds : Auto.serverHelloVersion packet = .ok .dtls12 →
    ∀ site, error? (Dtls12.Client.beginHybrid pending.certificate pending.lastNow)
      (Dtls12.Client.newFromHybrid pending.hybrid.random pending.hybrid.handshakeFragment
        (Dtls12.Engine.new pending.config (.certificate pending.certificate) rng entropy)
        pending.lastNow) ≠ some (.panic site)
  returns : Post (Dtls.handlePendingAutoClient rng entropy packet) pending.instance_
    (fun _ d => d.inner.isSome = true)
    (fun fault d => fault.isPanic = true ∨ d.inner.isSome = true)

/-- The condition: no version value is cut off, and a datagram that is recognised finds a
configuration and a certificate the next client can be built from. -/
structure Harmless : Prop where
  whole : ¬Auto.CutVersions packet
  time : Auto.Recognised packet → 0 < pending.config.handshakeTimeout
  certificate : Auto.Recognised packet → ¬Auto.Selects13 packet →
    pending.certificate.certificate ≠ []

end ClientPending

section Survival

variable {pending : ClientPending} {rng entropy : SeededRng} {packet : Bytes}

theorem ClientPending.beginHybrid_post :
    Post (Dtls12.Client.beginHybrid pending.certificate pending.lastNow)
      (Dtls12.Client.newFromHybrid pending.hybrid.random pending.hybrid.handshakeFragment
        (Dtls12.Engine.new pending.config (.certificate pending.certificate) rng entropy)
        pending.lastNow)
      (fun _ _ => 0 < pending.config.handshakeTimeout)
      (fun fault _ => (pending.certificate.certificate = [] ∧ fault = .panic .assertion) ∨
        (pending.config.handshakeTimeout = 0 ∧ fault = .fatal (.timeout .connect))) := by
  unfold Dtls12.Client.beginHybrid
  rw [post_ite]
  refine ⟨fun empty => .inl ⟨List.isEmpty_iff.mp empty, rfl⟩, fun _ => ?_⟩
  exact Dtls12.Client.handleTimeout_hybrid.mono (fun _ _ positive => positive)
    fun _ _ failed => .inr failed

/-- The call on a datagram that was recognised is the installation of a client. -/
theorem ClientPending.handle_dtls12 (version : Auto.serverHelloVersion packet = .ok .dtls12) :
    Dtls.handlePendingAutoClient rng entropy packet pending.instance_ =
      Dtls.install .client12 (Dtls12.Client.beginHybrid pending.certificate pending.lastNow)
        (Dtls12.Client.handlePacket packet)
        (Dtls12.Client.newFromHybrid pending.hybrid.random pending.hybrid.handshakeFragment
          (Dtls12.Engine.new pending.config (.certificate pending.certificate) rng entropy)
          pending.lastNow) ⟨none⟩ := by
  unfold Dtls.handlePendingAutoClient
  rw [version]
  rfl

theorem ClientPending.handle_dtls13 (version : Auto.serverHelloVersion packet = .ok .dtls13) :
    Dtls.handlePendingAutoClient rng entropy packet pending.instance_ =
      Dtls.install .client13 (Dtls13.Client.handleTimeout pending.lastNow)
        (Dtls13.Client.handlePacket packet)
        (Dtls13.Client.newFromHybrid pending.hybrid.random pending.hybrid.transcriptBytes
          pending.hybrid.activeKeyExchange
          (Dtls13.Engine.new pending.config pending.certificate rng) entropy pending.lastNow)
        ⟨none⟩ := by
  unfold Dtls.handlePendingAutoClient
  rw [version]
  rfl

/-- The call leaves a client behind, where the version is known, as far as the next one
can be built. -/
theorem ClientPending.returns_of_built (time : 0 < pending.config.handshakeTimeout)
    (certificate : pending.certificate.certificate ≠ [] ∨
      Auto.serverHelloVersion packet = .ok .dtls13)
    (known : Auto.serverHelloVersion packet = .ok .dtls12 ∨
      Auto.serverHelloVersion packet = .ok .dtls13) :
    Post (Dtls.handlePendingAutoClient rng entropy packet) pending.instance_
      (fun _ d => d.inner.isSome = true)
      (fun fault d => fault.isPanic = true ∨ d.inner.isSome = true) := by
  unfold Post
  rcases known with isOld | isNew
  · rw [ClientPending.handle_dtls12 isOld]
    refine Dtls.install_built (ClientPending.beginHybrid_post.mono (fun _ _ _ => trivial) ?_)
    rintro fault _ (⟨empty, _⟩ | ⟨instant, _⟩)
    · rcases certificate with present | isNew
      · exact present empty
      · rw [isOld] at isNew
        cases isNew
    · exact absurd instant (Nat.pos_iff_ne_zero.mp time)
  · rw [ClientPending.handle_dtls13 isNew]
    refine Dtls.install_built (Dtls13.Client.handleTimeout_hybrid.mono (fun _ _ _ => trivial) ?_)
    rintro fault _ ⟨instant, _⟩
    exact absurd instant (Nat.pos_iff_ne_zero.mp time)

/-- Without time for the handshake no client is left behind. -/
theorem ClientPending.time_of_returns (certificate : pending.certificate.certificate ≠ [] ∨
      Auto.serverHelloVersion packet = .ok .dtls13)
    (known : Auto.serverHelloVersion packet = .ok .dtls12 ∨
      Auto.serverHelloVersion packet = .ok .dtls13)
    (returns : Post (Dtls.handlePendingAutoClient rng entropy packet) pending.instance_
      (fun _ d => d.inner.isSome = true)
      (fun fault d => fault.isPanic = true ∨ d.inner.isSome = true)) :
    0 < pending.config.handshakeTimeout := by
  refine Nat.pos_of_ne_zero fun instant => ?_
  have failed : Post (Dtls.handlePendingAutoClient rng entropy packet) pending.instance_
      (fun _ _ => False) (fun fault d => fault = .fatal (.timeout .connect) ∧ d = ⟨none⟩) := by
    unfold Post
    rcases known with isOld | isNew
    · rw [ClientPending.handle_dtls12 isOld]
      refine Dtls.install_failed (ClientPending.beginHybrid_post.mono ?_ ?_)
      · intro _ _ positive
        exact absurd instant (Nat.pos_iff_ne_zero.mp positive)
      · rintro fault _ (⟨empty, _⟩ | ⟨_, isTimeout⟩)
        · rcases certificate with present | isNew
          · exact absurd empty present
          · rw [isOld] at isNew
            cases isNew
        · exact isTimeout
    · rw [ClientPending.handle_dtls13 isNew]
      refine Dtls.install_failed (Dtls13.Client.handleTimeout_hybrid.mono ?_ ?_)
      · intro _ _ positive
        exact absurd instant (Nat.pos_iff_ne_zero.mp positive)
      · exact fun _ _ failed => failed.2
  have both := returns.and failed
  unfold Post at both
  split at both
  · exact both.2
  · obtain ⟨kept, rfl, rfl⟩ := both
    simp [Fault.isPanic] at kept

end Survival

/-- A ServerHello that ends with the header of a `supported_versions` extension of two
bytes. -/
def Auto.cutDatagram : Bytes :=
  [0x16, 0xFE, 0xFD, 0, 0, 0, 0, 0, 0, 0, 0, 0, 56, 2, 0, 0, 44, 0, 0, 0, 0, 0, 0, 0, 44, 0xFE, 0xFD] ++
    List.replicate 32 0 ++ [0, 0x13, 0x01, 0, 0, 4, 0, 0x2B, 0, 2]

/-- An auto-sensing client that has sent its hello. -/
def ClientPending.sample : ClientPending where
  hybrid :=
    { random := ⟨List.replicate 32 0⟩
      activeKeyExchange := { pubKey := [1], group := .x25519, complete := fun _ => .ok [1] }
      transcriptBytes := [1, 0, 0, 0]
      handshakeFragment := [1, 0, 0, 0, 0, 0, 0, 0, 0, 0, 0, 0] }
  config := Sample.config
  certificate := Sample.certificate
  wirePacket := []
  needsSend := false
  lastNow := 0
  retransmitAt := none
  retransmitCount := 0

section Noise

variable {pending : ClientPending} {rng entropy : SeededRng} {packet : Bytes}

/-- Installing a client leaves no waiting one behind. -/
theorem Dtls.install_replaces {σ : Type} {wrap : σ → Inner} {construct handle : EStateM Fault σ Unit}
    {initial : σ} {fault : Fault} (other : ∀ client, wrap client ≠ .clientPending pending) :
    Dtls.install wrap construct handle initial ⟨none⟩ ≠ .error fault pending.instance_ := by
  intro refused
  unfold Dtls.install at refused
  split at refused
  · cases refused
  · split at refused
    · cases refused
    · injection refused with _ same
      exact other _ (Option.some.inj (congrArg Dtls.inner same))
    · cases refused

/-- What a datagram that is not recognised is answered with. -/
theorem ClientPending.handle_unknown (version : Auto.serverHelloVersion packet = .ok .unknown) :
    Dtls.handlePendingAutoClient rng entropy packet pending.instance_ =
      .error (.fatal (.unexpectedMessage .unrecognizedAutoServerResponse)) pending.instance_ := by
  unfold Dtls.handlePendingAutoClient
  rw [version]
  rfl

end Noise

end Dimpl
