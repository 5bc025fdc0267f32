import Dimpl.Dtls13.Codec
import Dimpl.Dtls13.Engine.Reassembly
import Dimpl.Lib.Exact

/-!
# What may stand behind a body

`Handshake::defragment` looks at what the parser of a Finished leaves over and leaves it to the
other parsers whether they take the whole body. In DTLS 1.3 four of them do not.
-/

namespace Dimpl.Dtls13

open Nom Program

/-- The types that `Body::parse` knows the form of. -/
def MessageType.HasGrammar (type : MessageType) : Prop :=
  type ∈ [.clientHello, .serverHello, .encryptedExtensions, .certificate, .certificateRequest,
    .certificateVerify, .finished, .keyUpdate]

/-- The body is a message that its parser is content with, and there is more behind it. -/
def TailIgnored (type : MessageType) (body : Bytes) : Prop :=
  if type = .serverHello then
    Trails (fun wire : ServerHelloWire => wire.Fits ∧ wire.extensions = some []) ServerHelloWire.write
      body
  else if type = .encryptedExtensions then
    Trails (fun extensions => BlockFits (some extensions) ∧ Extension.Admits 5
      (keptOf Extension.ofTagged (fun ext => ext.extensionType.isSupported) 0 (some extensions)))
      (fun extensions => writeBlock (some extensions)) body
  else if type = .certificate then
    Trails (fun wire : CertificateWire => wire.Fits ∧ wire.entries.length ≤ 32) CertificateWire.write
      body
  else if type = .certificateVerify then Trails Tagged.Fits Tagged.write body
  else False

section Parsers

variable {body : Bytes}

theorem ServerHello.parse_exact :
    TakesAll (ServerHello.parse 0) body ↔
      ¬Trails (fun wire : ServerHelloWire => wire.Fits ∧ wire.extensions = some [])
        ServerHelloWire.write body := by
  apply exact_iff_not_trails
  intro rest more
  simp only [ServerHello.parse_iff]
  constructor
  · rintro ⟨_, wire, fits, ends, written, -, -⟩
    have empty : wire.extensions = some [] := by
      by_contra filled
      exact more (ends filled)
    exact ⟨wire, ⟨fits, empty⟩, written⟩
  · rintro ⟨wire, ⟨fits, empty⟩, written⟩
    refine ⟨_, wire, fits, fun filled => absurd empty filled, written, rfl, ?_⟩
    rw [empty]
    exact ⟨List.nodup_nil, Nat.zero_le 5⟩

theorem parseEncryptedExtensions_exact :
    TakesAll (parseEncryptedExtensions 0) body ↔
      ¬Trails (fun extensions => BlockFits (some extensions) ∧ Extension.Admits 5
        (keptOf Extension.ofTagged (fun ext => ext.extensionType.isSupported) 0 (some extensions)))
        (fun extensions => writeBlock (some extensions)) body := by
  apply exact_iff_not_trails
  intro rest _
  simp only [parseEncryptedExtensions_iff]
  constructor
  · rintro ⟨_, extensions, fits, written, rfl, admitted⟩
    exact ⟨extensions, ⟨fits, admitted⟩, written⟩
  · rintro ⟨extensions, ⟨fits, admitted⟩, written⟩
    exact ⟨_, extensions, fits, written, rfl, admitted⟩

theorem Certificate.parse_exact :
    TakesAll (Certificate.parse 0) body ↔
      ¬Trails (fun wire : CertificateWire => wire.Fits ∧ wire.entries.length ≤ 32)
        CertificateWire.write body := by
  apply exact_iff_not_trails
  intro rest _
  simp only [Certificate.parse_iff]
  constructor
  · rintro ⟨_, wire, fits, few, written, -⟩
    exact ⟨wire, ⟨fits, few⟩, written⟩
  · rintro ⟨wire, ⟨fits, few⟩, written⟩
    exact ⟨_, wire, fits, few, written, rfl⟩

theorem DigitallySigned.parse_exact :
    TakesAll (DigitallySigned.parse 0) body ↔ ¬Trails Tagged.Fits Tagged.write body :=
  DigitallySigned.readsAt.exact_iff

end Parsers

section Bodies

variable {type : MessageType} {suite : Option Dtls13CipherSuite} {allowUnknown : Bool} {body : Bytes}

theorem exact_clientHello :
    TakesAll (Body.parseWithOptions 0 .clientHello suite allowUnknown) body := by
  refine exact_map.mpr fun hello rest parsed => ?_
  exact (ClientHello.parseWithOptions_iff.mp parsed).1

theorem exact_certificateRequest :
    TakesAll (Body.parseWithOptions 0 .certificateRequest suite allowUnknown) body := by
  intro value rest parsed
  have parsed : (do
      let input ← take (← remaining).length
      return Body.certificateRequest ⟨0, 0 + input.length⟩ : Parser Body) body =
        .ok (value, rest) := parsed
  simp only [bind_iff, remaining_iff, take_iff, pure_iff] at parsed
  obtain ⟨_, _, ⟨rfl, rfl⟩, taken, _, ⟨all, written⟩, -, rfl⟩ := parsed
  have lengths := congrArg List.length written
  rw [List.length_append] at lengths
  exact List.length_eq_zero_iff.mp (by omega)

theorem parse_keyUpdate :
    Body.parseWithOptions 0 .keyUpdate suite allowUnknown = (do
      let byte ← beU8
      require (← remaining).isEmpty .lengthValue
      match KeyUpdateRequest.fromU8 byte with
      | none => fail .fail
      | some request => return .keyUpdate request) :=
  rfl

theorem exact_keyUpdate : TakesAll (Body.parseWithOptions 0 .keyUpdate suite allowUnknown) body := by
  intro value rest parsed
  rw [parse_keyUpdate] at parsed
  simp only [bind_iff, beU8_iff, remaining_iff, require_iff, List.isEmpty_iff] at parsed
  obtain ⟨byte, _, -, _, _, ⟨rfl, rfl⟩, _, _, ⟨empty, rfl⟩, known⟩ := parsed
  cases found : KeyUpdateRequest.fromU8 byte with
  | none =>
      rw [found] at known
      cases known
  | some request =>
      rw [found] at known
      obtain ⟨-, rfl⟩ := pure_iff.mp known
      exact empty

/-- The parsers of four types leave what is behind their message. -/
theorem body_exact_iff (known : type.HasGrammar) (unchecked : type ≠ .finished) :
    TakesAll (Body.parseWithOptions 0 type suite allowUnknown) body ↔ ¬TailIgnored type body := by
  simp only [MessageType.HasGrammar, List.mem_cons, List.not_mem_nil, or_false] at known
  rcases known with rfl | rfl | rfl | rfl | rfl | rfl | rfl | rfl
  · exact iff_of_true exact_clientHello not_false
  · exact exact_map.trans ServerHello.parse_exact
  · exact exact_map.trans parseEncryptedExtensions_exact
  · exact exact_map.trans Certificate.parse_exact
  · exact iff_of_true exact_certificateRequest not_false
  · exact exact_map.trans DigitallySigned.parse_exact
  · exact absurd rfl unchecked
  · exact iff_of_true exact_keyUpdate not_false

theorem tailIgnored_known (ignored : TailIgnored type body) : type.HasGrammar ∧ type ≠ .finished := by
  unfold TailIgnored at ignored
  unfold MessageType.HasGrammar
  split_ifs at ignored
  all_goals
    subst_vars
    decide

end Bodies

section Defragment

variable {e : Engine} {first : Fragment × Bytes} {rest : List (Fragment × Bytes)}
  {withTranscript allowUnknown : Bool}

/-- `Handshake::defragment` returns what the parser makes of the bytes, and for a Finished wants it
to take all of them. -/
theorem defragment_runs {body : Bytes}
    (assembled : assembledBytes (takenFragments (first :: rest)) = body) :
    Runs (Body.parseWithOptions 0 first.1.header.msgType e.cipherSuite allowUnknown) body
      (body.length = first.1.header.length) (first.1.header.msgType = .finished)
      (defragment first rest withTranscript allowUnknown) e (fun message => message.1.body) := by
  subst assembled
  unfold Runs defragment
  rw [post_bind, post_get]
  dsimp only
  rw [post_bind, post_set, post_ite]
  refine ⟨fun mismatch fits => absurd fits mismatch, fun fits => ?_⟩
  rw [post_bind, post_modify, post_bind]
  refine Post.mono (Q := fun _ _ => True) (E := fun _ _ => False) ?_ ?_ ?_
  · rw [post_runIf]
    exact ⟨fun _ => trivial, fun _ => trivial⟩
  · intro _ e' _
    split
    · rename_i err failed
      intro _ value left parsed
      have parsed := failed.symm.trans parsed
      cases parsed
    · rename_i value left parsed
      rw [post_ite, Bool.and_eq_true, Bool.not_eq_true', List.isEmpty_eq_false_iff, decide_eq_true_iff]
      constructor
      · rintro ⟨more, finished⟩ - other rest again
        obtain ⟨rfl, rfl⟩ := Prod.mk.inj (Except.ok.inj (parsed.symm.trans again))
        exact ⟨finished, more⟩
      · intro passes
        refine ⟨not_not.mp fits, left, parsed, fun finished => ?_⟩
        by_contra more
        exact passes ⟨more, finished⟩
  · exact fun _ _ never => never.elim

/-- A message of a known form is taken only where the parser of its type takes all of its body. -/
def ParsedExactly (e : Engine) (first : Fragment × Bytes) (rest : List (Fragment × Bytes))
    (withTranscript allowUnknown : Bool) : Prop :=
  first.1.header.msgType.HasGrammar → ∀ message e',
    defragment first rest withTranscript allowUnknown e = .ok message e' →
      Nom.parse (Body.parseWithOptions 0 first.1.header.msgType e.cipherSuite allowUnknown)
        (assembledBytes (takenFragments (first :: rest))) = .ok (message.1.body, [])

theorem parsedExactly_iff {body : Bytes}
    (assembled : assembledBytes (takenFragments (first :: rest)) = body) :
    ParsedExactly e first rest withTranscript allowUnknown ↔
      ¬(body.length = first.1.header.length ∧ TailIgnored first.1.header.msgType body) := by
  unfold ParsedExactly
  rw [assembled, (defragment_runs assembled).whole_iff]
  constructor
  · rintro exact ⟨complete, ignored⟩
    obtain ⟨known, unchecked⟩ := tailIgnored_known ignored
    exact (body_exact_iff known unchecked).mp (exact known complete unchecked) ignored
  · intro none known complete unchecked
    exact (body_exact_iff known unchecked).mpr fun ignored => none ⟨complete, ignored⟩

end Defragment

end Dimpl.Dtls13
