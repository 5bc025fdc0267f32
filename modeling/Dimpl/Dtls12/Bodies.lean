import Dimpl.Dtls12.Codec
import Dimpl.Dtls12.Engine.Reassembly
import Dimpl.Lib.Exact

/-!
# What may stand behind a body

As in DTLS 1.3 only the parser of a Finished is looked after. None of the others but that of a
NewSessionTicket, which takes everything, makes sure of its own that it takes the whole body.
-/

namespace Dimpl.Dtls12

open Nom Program

/-- The types that `Body::parse` knows the form of. -/
def MessageType.HasGrammar (type : MessageType) : Prop :=
  type ∈ [.helloRequest, .clientHello, .helloVerifyRequest, .serverHello, .certificate,
    .serverKeyExchange, .certificateRequest, .serverHelloDone, .certificateVerify,
    .clientKeyExchange, .newSessionTicket, .finished]

/-- A HelloVerifyRequest on the wire. -/
def HelloVerifyRequest.write (request : HelloVerifyRequest) : Bytes :=
  be16 request.serverVersion.asU16 ++ vector8 request.cookie

/-- The body is a message that its parser is content with, and there is more behind it. -/
def TailIgnored (type : MessageType) (suite : Option Dtls12CipherSuite) (body : Bytes) : Prop :=
  if type = .helloRequest ∨ type = .serverHelloDone then body ≠ []
  else if type = .clientHello then
    Trails (fun wire : HelloWire => wire.Fits ∧ wire.extensions ≠ none ∧ (ClientHello.ofWire 0 wire).Admits)
      HelloWire.write body
  else if type = .helloVerifyRequest then
    Trails (fun request : HelloVerifyRequest => request.serverVersion.asU16 < 65536 ∧
      request.cookie.length ≤ 255 ∧ request.cookie ≠ []) HelloVerifyRequest.write body
  else if type = .serverHello then
    Trails (fun wire : ServerHelloWire => wire.Fits ∧ wire.extensions = some []) ServerHelloWire.write
      body
  else if type = .certificate then
    Trails (fun certificates => certificatesGrammar.fits certificates ∧ certificates.length ≤ 32)
      certificatesGrammar.write body
  else if type = .serverKeyExchange then
    ∃ chosen, suite = some chosen ∧
      Trails (fun wire : ExchangeWire => wire.Fits ∧
        exchangeAlgorithm wire = keyExchangeAlgorithm chosen ∧ ¬unsigned wire) ExchangeWire.write body
  else if type = .certificateRequest then
    Trails (fun wire : RequestWire => wire.Fits ∧ (CertificateRequest.ofWire 0 wire).Admits)
      RequestWire.write body
  else if type = .certificateVerify then Trails Tagged.Fits Tagged.write body
  else if type = .clientKeyExchange then
    ∃ chosen, suite = some chosen ∧
      Trails (fun wire : ClientKeyWire => wire.Fits ∧
        clientKeyAlgorithm wire = keyExchangeAlgorithm chosen) ClientKeyWire.write body
  else False

section Parsers

variable {body : Bytes}

theorem ClientHello.parse_exact :
    TakesAll (ClientHello.parse 0) body ↔
      ¬Trails (fun wire : HelloWire => wire.Fits ∧ wire.extensions ≠ none ∧ (ofWire 0 wire).Admits)
        HelloWire.write body := by
  apply exact_iff_not_trails
  intro rest more
  simp only [ClientHello.parse_iff]
  constructor
  · rintro ⟨_, wire, fits, ends, written, rfl, admitted⟩
    exact ⟨wire, ⟨fits, fun none => more (ends none), admitted⟩, written⟩
  · rintro ⟨wire, ⟨fits, block, admitted⟩, written⟩
    exact ⟨_, wire, fits, fun none => absurd none block, written, rfl, admitted⟩

theorem HelloVerifyRequest.parse_exact :
    TakesAll HelloVerifyRequest.parse body ↔
      ¬Trails (fun request : HelloVerifyRequest => request.serverVersion.asU16 < 65536 ∧
        request.cookie.length ≤ 255 ∧ request.cookie ≠ []) HelloVerifyRequest.write body := by
  apply exact_iff_not_trails
  intro rest _
  simp only [HelloVerifyRequest.parse_iff, and_assoc, HelloVerifyRequest.write]

theorem ServerHello.parse_exact :
    TakesAll (ServerHello.parse 0) body ↔
      ¬Trails (fun wire : ServerHelloWire => wire.Fits ∧ wire.extensions = some [])
        ServerHelloWire.write body := by
  apply exact_iff_not_trails
  intro rest more
  simp only [ServerHello.parse_iff]
  constructor
  · rintro ⟨_, wire, fits, ends, written, -, -⟩
    have empty : wire.extensions = some [] := by
      by_contra filled
      exact more (ends filled)
    exact ⟨wire, ⟨fits, empty⟩, written⟩
  · rintro ⟨wire, ⟨fits, empty⟩, written⟩
    refine ⟨_, wire, fits, fun filled => absurd empty filled, written, rfl, ?_⟩
    rw [empty]
    exact ⟨List.nodup_nil, Nat.zero_le _⟩

theorem parseCertificate_exact :
    TakesAll (parseCertificate 0) body ↔
      ¬Trails (fun certificates => certificatesGrammar.fits certificates ∧ certificates.length ≤ 32)
        certificatesGrammar.write body := by
  apply exact_iff_not_trails
  intro rest _
  simp only [parseCertificate_iff]
  constructor
  · rintro ⟨_, certificates, fits, few, written, -⟩
    exact ⟨certificates, ⟨fits, few⟩, written⟩
  · rintro ⟨certificates, ⟨fits, few⟩, written⟩
    exact ⟨_, certificates, fits, few, written, rfl⟩

theorem ServerKeyExchange.parse_exact {algorithm : KeyExchangeAlgorithm} :
    TakesAll (ServerKeyExchange.parse 0 algorithm) body ↔
      ¬Trails (fun wire : ExchangeWire => wire.Fits ∧ exchangeAlgorithm wire = algorithm ∧ ¬unsigned wire)
        ExchangeWire.write body := by
  apply exact_iff_not_trails
  intro rest more
  simp only [ServerKeyExchange.parse_iff]
  constructor
  · rintro ⟨_, wire, fits, agreed, ends, written, -⟩
    exact ⟨wire, ⟨fits, agreed, fun plain => more (ends plain)⟩, written⟩
  · rintro ⟨wire, ⟨fits, agreed, signed⟩, written⟩
    exact ⟨_, wire, fits, agreed, fun plain => absurd plain signed, written, rfl⟩

theorem CertificateRequest.parse_exact :
    TakesAll (CertificateRequest.parse 0) body ↔
      ¬Trails (fun wire : RequestWire => wire.Fits ∧ (ofWire 0 wire).Admits) RequestWire.write body := by
  apply exact_iff_not_trails
  intro rest _
  simp only [CertificateRequest.parse_iff]
  constructor
  · rintro ⟨_, wire, fits, written, rfl, admitted⟩
    exact ⟨wire, ⟨fits, admitted⟩, written⟩
  · rintro ⟨wire, ⟨fits, admitted⟩, written⟩
    exact ⟨_, wire, fits, written, rfl, admitted⟩

theorem ClientKeyExchange.parse_exact {algorithm : KeyExchangeAlgorithm} :
    TakesAll (ClientKeyExchange.parse 0 algorithm) body ↔
      ¬Trails (fun wire : ClientKeyWire => wire.Fits ∧ clientKeyAlgorithm wire = algorithm)
        ClientKeyWire.write body := by
  apply exact_iff_not_trails
  intro rest _
  simp only [ClientKeyExchange.parse_iff]
  constructor
  · rintro ⟨_, wire, fits, agreed, written, -⟩
    exact ⟨wire, ⟨fits, agreed⟩, written⟩
  · rintro ⟨wire, ⟨fits, agreed⟩, written⟩
    exact ⟨_, wire, fits, agreed, written, rfl⟩

end Parsers

section Bodies

variable {type : MessageType} {suite : Option Dtls12CipherSuite} {body : Bytes}

theorem exact_pure {value : Body} : TakesAll (pure value : Parser Body) body ↔ body = [] := by
  constructor
  · intro exact
    exact exact value body rfl
  · rintro rfl _ rest parsed
    exact (pure_iff.mp parsed).2

theorem exact_newSessionTicket : TakesAll (Body.parse 0 .newSessionTicket suite) body := by
  intro value rest parsed
  have parsed : Body.parseTicket 0 body = .ok (value, rest) := parsed
  unfold Body.parseTicket at parsed
  simp only [bind_iff, remaining_iff, takeRange_iff, pure_iff] at parsed
  obtain ⟨_, _, ⟨rfl, rfl⟩, _, _, ⟨data, all, written, -⟩, -, rfl⟩ := parsed
  have lengths := congrArg List.length written
  rw [List.length_append] at lengths
  exact List.length_eq_zero_iff.mp (by omega)

/-- A parser that needs a suite fails without one. -/
theorem withSuite_exact_iff {α : Type} {p : Dtls12CipherSuite → Parser α}
    {ignored : Dtls12CipherSuite → Prop} (exact : ∀ chosen, TakesAll (p chosen) body ↔ ¬ignored chosen) :
    TakesAll (Body.withSuite suite p) body ↔ ¬∃ chosen, suite = some chosen ∧ ignored chosen := by
  cases suite with
  | none =>
      refine iff_of_true (fun _ _ parsed => ?_) ?_
      · cases parsed
      · rintro ⟨_, ⟨⟩, -⟩
  | some chosen =>
      refine (exact chosen).trans (not_congr ⟨fun holds => ⟨chosen, rfl, holds⟩, ?_⟩)
      rintro ⟨_, ⟨⟩, holds⟩
      exact holds

/-- Only a NewSessionTicket is taken whole at any rate. -/
theorem body_exact_iff (known : type.HasGrammar) (unchecked : type ≠ .finished) :
    TakesAll (Body.parse 0 type suite) body ↔ ¬TailIgnored type suite body := by
  simp only [MessageType.HasGrammar, List.mem_cons, List.not_mem_nil, or_false] at known
  rcases known with rfl | rfl | rfl | rfl | rfl | rfl | rfl | rfl | rfl | rfl | rfl | rfl
  · exact exact_pure.trans not_not.symm
  · exact exact_map.trans ClientHello.parse_exact
  · exact exact_map.trans HelloVerifyRequest.parse_exact
  · exact exact_map.trans ServerHello.parse_exact
  · exact exact_map.trans parseCertificate_exact
  · exact withSuite_exact_iff fun _ => exact_map.trans ServerKeyExchange.parse_exact
  · exact exact_map.trans CertificateRequest.parse_exact
  · exact exact_pure.trans not_not.symm
  · exact exact_map.trans DigitallySigned.readsAt.exact_iff
  · exact withSuite_exact_iff fun _ => exact_map.trans ClientKeyExchange.parse_exact
  · exact iff_of_true exact_newSessionTicket not_false
  · exact absurd rfl unchecked

theorem tailIgnored_known (ignored : TailIgnored type suite body) :
    type.HasGrammar ∧ type ≠ .finished := by
  unfold TailIgnored at ignored
  unfold MessageType.HasGrammar
  split_ifs at ignored with empty
  · rcases empty with rfl | rfl <;> decide
  all_goals
    subst_vars
    decide

end Bodies

section Defragment

variable {e : Engine} {first : Fragment × Bytes} {rest : List (Fragment × Bytes)} {body : Bytes}

/-- `Handshake::defragment` returns what the parser makes of the bytes, and for a Finished wants it
to take all of them. -/
theorem defragment_runs (assembled : assembledBytes (takenFragments (first :: rest)) = body) :
    Runs (Body.parse 0 first.1.header.msgType e.cipherSuite) body
      (body.length = first.1.header.length) (first.1.header.msgType = .finished)
      (defragment first rest) e (fun message => message.1.body) := by
  subst assembled
  unfold Runs defragment
  rw [post_bind, post_get]
  dsimp only
  rw [post_bind, post_set, post_ite]
  refine ⟨fun mismatch fits => absurd fits mismatch, fun fits => ?_⟩
  rw [post_bind, post_modify]
  split
  · rename_i err failed
    intro _ value left parsed
    have parsed := failed.symm.trans parsed
    cases parsed
  · rename_i value left parsed
    rw [post_ite, Bool.and_eq_true, Bool.not_eq_true', List.isEmpty_eq_false_iff, decide_eq_true_iff]
    constructor
    · rintro ⟨more, finished⟩ - other rest again
      obtain ⟨rfl, rfl⟩ := Prod.mk.inj (Except.ok.inj (parsed.symm.trans again))
      exact ⟨finished, more⟩
    · intro passes
      refine ⟨not_not.mp fits, left, parsed, fun finished => ?_⟩
      by_contra more
      exact passes ⟨more, finished⟩

/-- A message of a known form is taken only where the parser of its type takes all of its body. -/
def ParsedExactly (e : Engine) (first : Fragment × Bytes) (rest : List (Fragment × Bytes)) : Prop :=
  first.1.header.msgType.HasGrammar → ∀ message e', defragment first rest e = .ok message e' →
    Nom.parse (Body.parse 0 first.1.header.msgType e.cipherSuite)
      (assembledBytes (takenFragments (first :: rest))) = .ok (message.1.body, [])

theorem parsedExactly_iff (assembled : assembledBytes (takenFragments (first :: rest)) = body) :
    ParsedExactly e first rest ↔
      ¬(body.length = first.1.header.length ∧
        TailIgnored first.1.header.msgType e.cipherSuite body) := by
  unfold ParsedExactly
  rw [assembled, (defragment_runs assembled).whole_iff]
  constructor
  · rintro exact ⟨complete, ignored⟩
    obtain ⟨known, unchecked⟩ := tailIgnored_known ignored
    exact (body_exact_iff known unchecked).mp (exact known complete unchecked) ignored
  · intro none known complete unchecked
    exact (body_exact_iff known unchecked).mpr fun ignored => none ⟨complete, ignored⟩

end Defragment

end Dimpl.Dtls12
