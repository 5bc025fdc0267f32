import Dimpl.Types

/-!
# Errors

The public error type of `error.rs` with the variants the modelled functions
return, and the internal split into transient parser noise, fatal errors and
panics. A panic is a result of the model: an assertion, an `unwrap` or a bounded
push of the source that does not hold.
-/

namespace Dimpl

open Nom

/-- A message that does not fit the negotiated key exchange. -/
inductive UnexpectedMessageError where
  | serverKeyExchangeWithoutSignature
  | pskServerKeyExchangeInEcdhePath
  | ecdheServerKeyExchangeInPskPath
  | pskClientKeyExchangeInEcdhePath
  | ecdheClientKeyExchangeInPskPath
  | certificateRequestContextTruncated
  | certificateRequestExtensionsTruncated
  | unrecognizedAutoServerResponse
  deriving DecidableEq

/-- Data an operation needs and the local state does not have. -/
inductive InvalidStateError where
  | noCipherSuiteSelected
  | noCipherSuite
  | noClientRandom
  | noServerRandom
  | noSharedSecretForHandshakeKeyDerivation
  | noServerHandshakeTrafficSecret
  | noServerHandshakeTrafficSecretForFinished
  | noClientHandshakeTrafficSecret
  | noClientHandshakeTrafficSecretForFinished
  | noHandshakeSecretForApplicationKeyDerivation
  | noActiveKeyExchange
  | noCurrentAppSendKeysForKeyUpdate
  | noCurrentAppRecvKeysForKeyUpdate
  | extendedMasterSecretSessionHashMissing
  deriving DecidableEq

/-- A cryptographic failure; `operationFailed` is what a provider reports. -/
inductive CryptoError where
  | noSupportedKeyExchangeGroups
  | noDtls12KeyExchangeGroupsConfigured
  | epoch0SequenceNumberExhausted
  | sendSequenceNumberExhausted (epoch : Nat)
  | sendKeysNotAvailable (epoch : Nat)
  | recvKeysNotAvailable (epoch : Nat)
  | keyExchangeGroupNotFound (group : NamedGroup)
  | keyExchangeNotInitialized
  | unsupportedEcdheNamedGroup (group : NamedGroup)
  | unsupportedCipherSuite (suite : Dtls12CipherSuite)
  | signatureAlgorithmNotOfferedByClient
  | signatureAlgorithmMismatch (expected actual : SignatureAlgorithm)
  | unsupportedSignaturePair (signature : SignatureAlgorithm) (hash : HashAlgorithm)
  | hkdfOutputTooLong
  | hkdfLabelTooLong
  | hkdfContextTooLong
  | hkdfOutputLengthTooLarge
  | invalidVerifyDataLength
  | verifyDataTooLong
  | masterSecretTooLong
  | preMasterSecretNotAvailable
  | masterSecretNotAvailable
  | clientRandomNotAvailable
  | serverRandomNotAvailable
  | clientCipherNotInitialized
  | serverCipherNotInitialized
  | writeIvNotAvailable (isClient : Bool)
  | unsupportedDtls12RecordIvLen (len : Nat) (suite : Dtls12CipherSuite)
  | noPrivateKeyConfigured
  | pskNotSet
  | exporterMasterSecretNotDerived
  | keyingMaterialTooLong
  | operationFailed (code : Nat)
  deriving DecidableEq

/-- A certificate that is missing or not usable. -/
inductive CertificateError where
  | noServerCertificateReceived
  | noClientCertificateForVerification
  | noServerCertificateForVerification
  | serverCertificateContextMustBeEmpty
  | unsupportedHashAlgorithm (hash : HashAlgorithm)
  | parseFailed
  deriving DecidableEq

/-- A violation of the security policy. -/
inductive SecurityError where
  | unsupportedHelloVerifyRequestVersion (version : ProtocolVersion)
  | unsupportedServerVersion (version : ProtocolVersion)
  | unsupportedClientVersion (version : ProtocolVersion)
  | unsupportedServerCompression (method : CompressionMethod)
  | unsupportedClientCompression
  | unsupportedKeyExchangeAlgorithm
  | serverSelectedUnknownCipherSuite
  | serverSelectedIncompatibleCipherSuite (suite : Dtls12CipherSuite)
  | serverSelectedDisallowedCipherSuite (suite : Dtls12CipherSuite)
  | serverSelectedDisallowedDtls13CipherSuite (suite : Dtls13CipherSuite)
  | extendedMasterSecretNotNegotiated
  | noMutuallyAcceptableCipherSuite
  | clientHelloLegacyVersionNotDtls12
  | serverHelloLegacyVersionNotDtls12
  | clientHelloMissingDtls13SupportedVersions
  | clientHelloMustOfferNullCompression
  | invalidCookieInClientHello
  | cannotSendSecondHelloRetryRequest
  | noCommonCipherSuite
  | noCommonKeyExchangeGroup
  | hrrSelectedDisallowedCipherSuite
  | hrrDidNotSelectDtls13
  | serverHelloCompressionMustBeNull
  | serverDidNotNegotiateDtls13
  | serverMissingKeyShare
  | serverKeyShareGroupMismatch (expected actual : NamedGroup)
  | signatureTooLarge
  | signatureSchemeNotOffered (scheme : SignatureScheme)
  | unsupportedSignatureScheme (scheme : SignatureScheme)
  | signatureSchemeCertificateCurveMismatch (scheme : SignatureScheme)
      (expected actual : NamedGroup)
  | serverFinishedVerificationFailed
  | clientFinishedVerificationFailed
  | fatalAlert (description : UInt8)
  deriving DecidableEq

/-- A failure of the pre-shared key lookup. -/
inductive PskError where
  | noPskResolverConfigured
  | noPskIdentityConfigured
  | resolverReturnedNoKey
  deriving DecidableEq

/-- Which deadline passed. -/
inductive TimeoutError where
  | hybridClientHello
  | connect
  | handshake
  deriving DecidableEq

/-- The public errors of a DTLS call. -/
inductive Error where
  | unexpectedMessage (reason : UnexpectedMessageError)
  | invalidState (reason : InvalidStateError)
  | cryptoError (reason : CryptoError)
  | certificateError (reason : CertificateError)
  | securityError (reason : SecurityError)
  | pskError (reason : PskError)
  | receiveQueueFull
  | transmitQueueFull
  | incompleteServerHello
  | timeout (reason : TimeoutError)
  | renegotiationAttempt
  | handshakePending
  | connectionClosed
  | dtls12Fallback
  | tooManyClientHelloFragments
  deriving DecidableEq

/-- Parser noise that a datagram may cause and the caller never sees. -/
inductive TransientError where
  | parseIncomplete
  | parse (kind : ErrorKind)
  | tooManyRecords
  deriving DecidableEq

/-- The places of the source that stop the program. -/
inductive Panic where
  /-- `suite_provider` and `hash_algorithm` without a known suite. -/
  | noCipherSuite
  /-- A push to a full fixed-capacity vector. -/
  | capacityExceeded
  /-- `insert_incoming_non_handshake` meets a duplicate of a protected record. -/
  | duplicateProtectedRecord
  /-- `Record::set_handled` on a record with parsed handshakes. -/
  | setHandledOnHandshake
  /-- Any other `unwrap`, `expect` or assertion. -/
  | assertion
  deriving DecidableEq

/-- How a call can end early. -/
inductive Fault where
  | transient (reason : TransientError)
  | fatal (reason : Error)
  | panic (site : Panic)
  deriving DecidableEq

/-- A fault that does not return to the caller. -/
def Fault.isPanic : Fault → Bool
  | .panic _ => true
  | _ => false

/-- A refused parse is transient. -/
def Fault.ofNom (err : Nom.Err) : Fault := .transient (.parse err.code)

/-- A cryptographic failure is fatal. -/
def Fault.ofCrypto (err : CryptoError) : Fault := .fatal (.cryptoError err)

end Dimpl
