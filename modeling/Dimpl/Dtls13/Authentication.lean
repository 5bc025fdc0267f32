import Dimpl.Dtls13.EndpointRun

/-!
# What the peer proved

A Certificate, a CertificateVerify and a Finished are messages of the transcript.
A peer has signed when its CertificateVerify verifies, under the first certificate
of its Certificate, over the transcript in front of it, and its Finished matches
when it is the verify data over the transcript in front of it.
-/

namespace Dimpl.Dtls13

open Nom Program

/-- `compute_verify_data` over any transcript. -/
def verifyDataOver (provider : CryptoProvider) (suite : Dtls13CipherSuite)
    (secret transcript : Bytes) : Except CryptoError Bytes := do
  let hash := suite.hashAlgorithm
  let finishedKey ← provider.hkdfExpandLabelDtls13 hash secret (ascii "finished") [] hash.outputLen
  provider.hkdfExtract hash finishedKey (provider.hash hash transcript)

/-- A Certificate message of the peer with this list of certificates ends the
transcript `through`. -/
def Presented (log : List Event) (through : Bytes) (list : List Bytes) : Prop :=
  ∃ before body suite certificate rest, Heard log .certificate body ∧
    through = before ++ transcriptMessage .certificate body ∧
      Nom.parse (Body.parseWithOptions 0 .certificate suite false) body =
        .ok (.certificate certificate, rest) ∧
      list = certificate.certificateList.map fun entry => slice body entry.cert

/-- A CertificateVerify with this body verifies under the certificate over the
transcript `before`. -/
def Verifies (label : String) (provider : CryptoProvider) (suite : Dtls13CipherSuite)
    (certificate before body : Bytes) : Prop :=
  ∃ signed rest hash algorithm,
    Nom.parse (Body.parseWithOptions 0 .certificateVerify (some suite) false) body =
        .ok (.certificateVerify signed, rest) ∧
      signatureSchemeToComponents signed.scheme = .ok (hash, algorithm) ∧
      provider.verifySignature certificate
        (signedContent label (provider.hash suite.hashAlgorithm before))
        (signed.signature body) hash algorithm = .ok ()

/-- The peer has sent a list of certificates that is not empty, and after it a
CertificateVerify that verifies under the first of them over the transcript in front
of it. -/
def PeerSigned (label : String) (e : Engine) : Prop :=
  ∃ suite through certificate others before body, e.cipherSuite = some suite ∧
    Presented e.log through (certificate :: others) ∧ through <+: before ∧
      Heard e.log .certificateVerify body ∧
      before ++ transcriptMessage .certificateVerify body <+: e.transcript ∧
      Verifies label e.config.cryptoProvider suite certificate before body

/-- The peer has sent a Finished that is the verify data over the transcript in front
of it. -/
def PeerFinished (secret : Option Bytes) (e : Engine) : Prop :=
  ∃ suite key before body range rest, e.cipherSuite = some suite ∧ secret = some key ∧
    Heard e.log .finished body ∧ before ++ transcriptMessage .finished body <+: e.transcript ∧
      Nom.parse (Body.parseWithOptions 0 .finished (some suite) false) body =
        .ok (.finished range, rest) ∧
      verifyDataOver e.config.cryptoProvider suite key before = .ok (slice body range)

section Lasting

variable {early own : Prop} {e e' : Engine} {p p' : Endpoint}

theorem Presented.mono {log log' : List Event} {through : Bytes} {list : List Bytes}
    (presented : Presented log through list) (grown : log <+: log') :
    Presented log' through list := by
  obtain ⟨before, body, suite, certificate, rest, heard, isMessage⟩ := presented
  exact ⟨before, body, suite, certificate, rest, heard.mono grown, isMessage⟩

theorem PeerSigned.mono {label : String} (signed : PeerSigned label e)
    (steady : Steady early own e e') (late : ¬early) : PeerSigned label e' := by
  obtain ⟨suite, through, certificate, others, before, body, isSuite, presented, inOrder, heard,
    sent, verifies⟩ := signed
  refine ⟨suite, through, certificate, others, before, body, (steady.suite late).trans isSuite,
    presented.mono steady.log, inOrder, heard.mono steady.log,
    sent.trans (steady.transcript late), ?_⟩
  rw [steady.config]
  exact verifies

theorem PeerFinished.mono {secret : Option Bytes} (finished : PeerFinished secret e)
    (steady : Steady early own e e') (late : ¬early) : PeerFinished secret e' := by
  obtain ⟨suite, key, before, body, range, rest, isSuite, isKey, heard, sent, parsed, equal⟩ :=
    finished
  refine ⟨suite, key, before, body, range, rest, (steady.suite late).trans isSuite, isKey,
    heard.mono steady.log, sent.trans (steady.transcript late), parsed, ?_⟩
  rw [steady.config]
  exact equal

end Lasting

section Checks

variable {e : Engine} {p : Endpoint}

theorem hashAlgorithm_post :
    Post hashAlgorithm e
      (fun hash e' => e' = e ∧ ∃ suite, e.cipherSuite = some suite ∧ hash = suite.hashAlgorithm)
      (fun fault e' => e' = e ∧ e.cipherSuite = none ∧ fault = .panic .noCipherSuite) := by
  unfold hashAlgorithm
  rw [post_bind, post_get, post_bind, post_orThrow]
  exact ⟨fun suite isSuite => ⟨rfl, suite, isSuite, rfl⟩, fun none => ⟨rfl, none, rfl⟩⟩

theorem transcriptHash_post :
    Post transcriptHash e
      (fun value e' => e' = e ∧ ∃ suite, e.cipherSuite = some suite ∧
        value = e.config.cryptoProvider.hash suite.hashAlgorithm e.transcript)
      (fun _ e' => e' = e) := by
  unfold transcriptHash transcriptHashOf
  rw [post_bind, post_get, post_bind]
  refine hashAlgorithm_post.mono ?_ fun _ _ failed => failed.1
  rintro hash _ ⟨rfl, suite, isSuite, rfl⟩
  rw [post_bind, post_get]
  exact ⟨rfl, suite, isSuite, rfl⟩

theorem computeVerifyData_post {secret : Bytes} :
    Post (computeVerifyData secret) e
      (fun value e' => e' = e ∧ ∃ suite, e.cipherSuite = some suite ∧
        verifyDataOver e.config.cryptoProvider suite secret e.transcript = .ok value)
      (fun _ e' => e' = e) := by
  unfold computeVerifyData hashLen expandLabel
  simp only [post_bind]
  refine hashAlgorithm_post.mono ?_ fun _ _ failed => failed.1
  rintro _ _ ⟨rfl, suite, isSuite, rfl⟩
  rw [post_pure]
  refine hashAlgorithm_post.mono ?_ fun _ _ failed => failed.1
  rintro _ _ ⟨rfl, suite', isSuite', rfl⟩
  cases isSuite.symm.trans isSuite'
  rw [post_get, post_liftCrypto]
  refine ⟨fun finishedKey expanded => ?_, fun _ _ => rfl⟩
  refine transcriptHash_post.mono ?_ fun _ _ same => same
  rintro _ _ ⟨rfl, suite'', isSuite'', rfl⟩
  cases isSuite.symm.trans isSuite''
  unfold extract
  rw [post_bind]
  refine hashAlgorithm_post.mono ?_ fun _ _ failed => failed.1
  rintro _ _ ⟨rfl, suite''', isSuite''', rfl⟩
  cases isSuite.symm.trans isSuite'''
  rw [post_bind, post_get, post_liftCrypto]
  refine ⟨fun value extracted => ⟨rfl, suite, isSuite, ?_⟩, fun _ _ => rfl⟩
  unfold verifyDataOver
  simp only [expanded, bind, Except.bind]
  exact extracted

/-- A program that leaves the engine alone and does not panic. -/
def Harmless {α : Type} (program : EngineM α) (e : Engine) : Prop :=
  Post program e (fun _ e' => e' = e) (fun fault e' => e' = e ∧ ∀ site, fault ≠ .panic site)

theorem Harmless.bind {α β : Type} {program : EngineM α} {next : α → EngineM β}
    (first : Harmless program e) (second : ∀ value, Harmless (next value) e) :
    Harmless (program >>= next) e := by
  unfold Harmless
  rw [post_bind]
  refine Post.mono first ?_ fun _ _ failed => failed
  rintro value _ rfl
  exact second value

theorem hashAlgorithm_harmless (known : e.cipherSuite.isSome = true) : Harmless hashAlgorithm e := by
  refine hashAlgorithm_post.mono (fun _ _ read => read.1) fun _ _ failed => ?_
  rw [failed.2.1] at known
  cases known

theorem transcriptHashOf_harmless (known : e.cipherSuite.isSome = true) {data : Bytes} :
    Harmless (transcriptHashOf data) e :=
  (hashAlgorithm_harmless known).bind fun _ => rfl

theorem expandLabel_harmless (known : e.cipherSuite.isSome = true) {secret context : Bytes}
    {label : String} {outputLen : Nat} : Harmless (expandLabel secret label context outputLen) e := by
  refine (hashAlgorithm_harmless known).bind fun hash => ?_
  unfold Harmless
  rw [post_bind, post_get, post_liftCrypto]
  exact ⟨fun _ _ => rfl, fun _ _ => ⟨rfl, fun _ => Fault.noConfusion⟩⟩

/-- Keying material is extracted or not, without a panic. -/
theorem extractSrtpKeyingMaterial_harmless (known : e.cipherSuite.isSome = true)
    {profile : SrtpProfile} : Harmless (extractSrtpKeyingMaterial profile) e := by
  unfold extractSrtpKeyingMaterial
  refine Harmless.bind rfl fun _ => Harmless.bind ?_ fun expMaster => ?_
  · unfold Harmless
    rw [post_orThrow]
    exact ⟨fun _ _ => rfl, fun _ => ⟨rfl, fun _ => Fault.noConfusion⟩⟩
  · refine (transcriptHashOf_harmless known).bind fun _ => ?_
    have hashed : Harmless hashLen e := (hashAlgorithm_harmless known).bind fun _ => rfl
    refine hashed.bind fun _ => ?_
    refine (expandLabel_harmless known).bind fun _ => ?_
    exact (transcriptHashOf_harmless known).bind fun _ => expandLabel_harmless known

namespace Endpoint

/-- The end of the handshake cannot fail: the connection is reported and application
data released. -/
theorem completeHandshake_post (known : p.engine.cipherSuite.isSome = true) :
    Post completeHandshake p
      (fun _ p' => ∃ localEvents,
        p' = { p with engine := p.engine.releaseApplicationData, localEvents })
      (fun _ _ => False) := by
  unfold completeHandshake emitKeyingMaterial pushEvent
  rw [post_bind, post_modify, post_bind, post_bind, post_get]
  split
  · exact ⟨_, rfl⟩
  · rename_i profile _
    have harmless : Harmless (extractSrtpKeyingMaterial profile) p.engine :=
      extractSrtpKeyingMaterial_harmless known
    unfold Harmless Post at harmless
    dsimp only
    split
    · exact ⟨_, rfl⟩
    · rename_i site _ failed
      rw [failed] at harmless
      exact absurd rfl (harmless.2 site)
    · exact ⟨_, rfl⟩

/-- A CertificateVerify that is accepted was verified under the first certificate. -/
theorem checkCertificateVerify_post {label : String} {missing : CertificateError}
    {transcript transcriptHash : Bytes} {signed : DigitallySigned} {buffer : Bytes} :
    Post (checkCertificateVerify label missing transcript transcriptHash signed buffer) p
      (fun _ p' => Endures False False p p' ∧
        ∃ certificate hash algorithm, p.peerCertificates.head? = some certificate ∧
          signatureSchemeToComponents signed.scheme = .ok (hash, algorithm) ∧
          p.engine.config.cryptoProvider.verifySignature certificate
            (signedContent label transcriptHash) (signed.signature buffer) hash algorithm = .ok ())
      (fun _ p' => Endures False False p p') := by
  refine checkCertificateVerify_endures.post ?_
  unfold checkCertificateVerify
  rw [post_bind, post_get]
  dsimp only
  split
  · trivial
  · rename_i certDer hash algorithm accepted
    unfold withEngine verifySignature
    rw [post_bind, post_zoom, post_bind, post_get, post_liftCrypto]
    refine ⟨fun _ verified => ?_, fun _ _ => trivial⟩
    unfold refuseSignature at accepted
    split at accepted
    · cases accepted
    · split at accepted
      · cases accepted
      · split at accepted
        · cases accepted
        · rename_i certificate isFirst
          split at accepted
          · cases accepted
          · split at accepted
            · cases accepted
            · rename_i components
              cases accepted
              refine Post.mono post_self ?_ fun _ _ _ => trivial
              exact fun _ _ _ => ⟨_, _, _, isFirst, components, verified⟩

/-- A Finished that is accepted is the expected one. -/
theorem checkFinished_post {failed : SecurityError} {transcript expected verifyData : Bytes} :
    Post (checkFinished failed transcript expected verifyData) p
      (fun _ p' => Endures False False p p' ∧ verifyData = expected) (fun _ p' => Endures False False p p') := by
  refine checkFinished_endures.post ?_
  unfold checkFinished
  rw [post_ite]
  refine ⟨fun _ => trivial, fun equal => ?_⟩
  exact Post.mono post_self (fun _ _ _ => by simpa using equal) fun _ _ _ => trivial

end Endpoint

end Checks

end Dimpl.Dtls13
