import RefineId.Rapp.Wire.Envelope

/-! Card operations a requester may ask for, and their typed answers
(`crates/rapp/src/operation.rs`). -/
namespace RefineId.Rapp

open Data

/-- Rejections of an operation, a request or a result. -/
inductive CardOperationError where
  | invalidLifetime
  | invalidDisplayContext
  | wrongDigestLength
  | keyAlgorithmMismatch
  | batchTooLarge
  | packageTooLarge
  | invalidIdentifier
  | profileActionMismatch
  | unknownAction
  | unknownProfile
  | invalidField (field : String)
  | unexpectedField
  | operationMismatch
  | wire (error : WireError)
  deriving DecidableEq

inductive CertificateKind where
  | authentication
  | signature
  deriving DecidableEq

namespace CertificateKind

def wireName : CertificateKind → String
  | authentication => "authentication"
  | signature => "signature"

def parse (value : String) : Except CardOperationError CertificateKind :=
  match value with
  | "authentication" => .ok authentication
  | "signature" => .ok signature
  | _ => .error (.invalidField "kind")

@[simp] theorem parse_wireName (kind : CertificateKind) : parse kind.wireName = .ok kind := by
  cases kind <;> rfl

end CertificateKind

inductive CardKeyProfile where
  | ecdsaP256
  | ecdsaP384
  | rsa2048
  | rsa3072
  deriving DecidableEq

namespace CardKeyProfile

/-- Length of one signature on the wire. -/
def signatureSize : CardKeyProfile → Nat
  | ecdsaP256 => 64
  | ecdsaP384 => 96
  | rsa2048 => 256
  | rsa3072 => 384

def wireName : CardKeyProfile → String
  | ecdsaP256 => "ecdsa_p256"
  | ecdsaP384 => "ecdsa_p384"
  | rsa2048 => "rsa_2048"
  | rsa3072 => "rsa_3072"

def parse (value : String) : Except CardOperationError CardKeyProfile :=
  match value with
  | "ecdsa_p256" => .ok ecdsaP256
  | "ecdsa_p384" => .ok ecdsaP384
  | "rsa_2048" => .ok rsa2048
  | "rsa_3072" => .ok rsa3072
  | _ => .error (.invalidField "key_profile")

@[simp] theorem parse_wireName (profile : CardKeyProfile) :
    parse profile.wireName = .ok profile := by
  cases profile <;> rfl

end CardKeyProfile

inductive SignatureAlgorithm where
  | ecdsaSha224
  | ecdsaSha256
  | ecdsaSha384
  | ecdsaSha512
  | rsaPkcs1Sha256
  | rsaPkcs1Sha384
  | rsaPkcs1Sha512
  | rsaPssSha256
  deriving DecidableEq

namespace SignatureAlgorithm

def wireName : SignatureAlgorithm → String
  | ecdsaSha224 => "ecdsa_sha224"
  | ecdsaSha256 => "ecdsa_sha256"
  | ecdsaSha384 => "ecdsa_sha384"
  | ecdsaSha512 => "ecdsa_sha512"
  | rsaPkcs1Sha256 => "rsa_pkcs1_sha256"
  | rsaPkcs1Sha384 => "rsa_pkcs1_sha384"
  | rsaPkcs1Sha512 => "rsa_pkcs1_sha512"
  | rsaPssSha256 => "rsa_pss_sha256"

def digestSize : SignatureAlgorithm → Nat
  | ecdsaSha224 => 28
  | ecdsaSha256 | rsaPkcs1Sha256 | rsaPssSha256 => 32
  | ecdsaSha384 | rsaPkcs1Sha384 => 48
  | ecdsaSha512 | rsaPkcs1Sha512 => 64

def supports : SignatureAlgorithm → CardKeyProfile → Bool
  | ecdsaSha224, .ecdsaP256 | ecdsaSha224, .ecdsaP384 => true
  | ecdsaSha256, .ecdsaP256 | ecdsaSha256, .ecdsaP384 => true
  | ecdsaSha384, .ecdsaP256 | ecdsaSha384, .ecdsaP384 => true
  | ecdsaSha512, .ecdsaP256 | ecdsaSha512, .ecdsaP384 => true
  | rsaPkcs1Sha256, .rsa2048 | rsaPkcs1Sha256, .rsa3072 => true
  | rsaPkcs1Sha384, .rsa2048 | rsaPkcs1Sha384, .rsa3072 => true
  | rsaPkcs1Sha512, .rsa2048 | rsaPkcs1Sha512, .rsa3072 => true
  | rsaPssSha256, .rsa2048 | rsaPssSha256, .rsa3072 => true
  | _, _ => false

def parse (value : String) : Except CardOperationError SignatureAlgorithm :=
  match value with
  | "ecdsa_sha224" => .ok ecdsaSha224
  | "ecdsa_sha256" => .ok ecdsaSha256
  | "ecdsa_sha384" => .ok ecdsaSha384
  | "ecdsa_sha512" => .ok ecdsaSha512
  | "rsa_pkcs1_sha256" => .ok rsaPkcs1Sha256
  | "rsa_pkcs1_sha384" => .ok rsaPkcs1Sha384
  | "rsa_pkcs1_sha512" => .ok rsaPkcs1Sha512
  | "rsa_pss_sha256" => .ok rsaPssSha256
  | _ => .error (.invalidField "algorithm")

@[simp] theorem parse_wireName (algorithm : SignatureAlgorithm) :
    parse algorithm.wireName = .ok algorithm := by
  cases algorithm <;> rfl

end SignatureAlgorithm

def displayNameBytes (length : Nat) : Bool :=
  1 ≤ length && length ≤ 256

def containerReservedDirectory : String := "META-INF/"

/-- Whether an entry lies under the container's reserved directory, in any
letter case. -/
def underReservedDirectory (name : String) : Bool :=
  (bytesBefore name (byteLen containerReservedDirectory)).any
    fun head => eqIgnoreAsciiCase head containerReservedDirectory

/-- The entries of a package checked in order against those before them. -/
def checkContainedFiles (before : List String) : List String → Except CardOperationError Unit
  | [] => .ok ()
  | name :: rest =>
    if !displayNameBytes (byteLen name) || (trim name).isEmpty then .error .invalidDisplayContext
    else if underReservedDirectory name || before.contains name then
      .error (.invalidField "contained_files")
    else checkContainedFiles (before ++ [name]) rest

/-- The files a package holds, in container order. Only checked lists are
values of this type. -/
structure ContainedFiles where
  names : List String
  nonempty : names ≠ []
  checked : checkContainedFiles [] names = .ok ()
  deriving DecidableEq

def ContainedFiles.reconstruct (names : List String) : Except CardOperationError ContainedFiles :=
  if hEmpty : names = [] then .error (.invalidField "contained_files")
  else
    match hCheck : checkContainedFiles [] names with
    | .error error => .error error
    | .ok () => .ok ⟨names, hEmpty, hCheck⟩

@[simp] theorem ContainedFiles.reconstruct_names (files : ContainedFiles) :
    ContainedFiles.reconstruct files.names = .ok files := by
  have hCheck := files.checked
  rw [reconstruct, dif_neg files.nonempty]
  split
  · rename_i hError
    rw [hCheck] at hError
    cases hError
  · rfl

inductive CardOperation where
  | inspectCard
  | readIdentity
  | readCertificate (kind : CertificateKind)
  | browserAuthenticate (origin : String) (keyProfile : CardKeyProfile)
      (algorithm : SignatureAlgorithm) (digest : Bytes)
  | signDocument (documentName : String) (containedFiles : Option ContainedFiles)
      (keyProfile : CardKeyProfile) (algorithm : SignatureAlgorithm) (digest : Bytes)
  | batchSignDocuments (documentNames : List String) (keyProfile : CardKeyProfile)
      (algorithm : SignatureAlgorithm) (digests : List Bytes)
  deriving DecidableEq

namespace CardOperation

/-- Whether the action commands a private key behind a PIN. -/
def isConsequential : CardOperation → Bool
  | browserAuthenticate .. | signDocument .. | batchSignDocuments .. => true
  | _ => false

def batchTotal : CardOperation → Option Nat
  | batchSignDocuments _ _ _ digests => some digests.length
  | _ => none

/-- The profile that owns this action. -/
def requiredProfile : CardOperation → ProfileName
  | inspectCard | readIdentity => .cardStatus
  | readCertificate .authentication | browserAuthenticate .. => .authentication
  | readCertificate .signature | signDocument .. | batchSignDocuments .. => .documentSigning

end CardOperation

structure CardIdentity where
  holderName : String
  cardId : String
  issuanceDate : String
  expirationDate : String
  certificates : List Bytes
  tokenDisplayName : Option String
  deriving DecidableEq

/-- An identity answer within its bounds; the first field outside them is
named. -/
def CardIdentity.reconstruct (holderName cardId issuanceDate expirationDate : String)
    (certificates : List Bytes) (tokenDisplayName : Option String) :
    Except CardOperationError CardIdentity :=
  if !(1 ≤ byteLen holderName && byteLen holderName ≤ 128) then
    .error (.invalidField "card_holder_name")
  else if !(1 ≤ byteLen cardId && byteLen cardId ≤ 64) then .error (.invalidField "card_id")
  else if byteLen issuanceDate ≠ 10 then .error (.invalidField "issuance_date")
  else if byteLen expirationDate ≠ 10 then .error (.invalidField "expiration_date")
  else if certificates.isEmpty || certificates.any List.isEmpty then
    .error (.invalidField "certificates")
  else if tokenDisplayName.any fun name => !(1 ≤ byteLen name && byteLen name ≤ 64) then
    .error (.invalidField "token_display_name")
  else .ok ⟨holderName, cardId, issuanceDate, expirationDate, certificates, tokenDisplayName⟩

inductive CardOperationResult where
  | inspection (answerToReset : Bytes)
  | identity (identity : CardIdentity)
  | certificate (bytes : Bytes)
  | signature (bytes : Bytes)
  | signatures (signatures : List Bytes)
  deriving DecidableEq

end RefineId.Rapp
