import RefineId.Data.Words

/-! Identifiers, limits and registries shared by every layer of the remote
authorization proxy protocol (`crates/rapp/src/types.rs`, `transport.rs`). -/
namespace RefineId.Rapp

open Data

/-- The wire version triple carried by every envelope. -/
def wireVersion : Nat × Nat × Nat := (26, 11, 7)

def mandatoryPairingSuite : String := "Noise_XXpsk3_25519_ChaChaPoly_SHA512"

def mandatorySessionSuite : String := "Noise_KK_25519_ChaChaPoly_SHA512"

/-- The pairing suite of `cpace.rs`, echoed in `pairing.hello`. -/
def cpaceKc2Suite : String :=
  "CPACE-RISTR255-SHA512-RAPP-KC2 + Noise_XXpsk3_25519_ChaChaPoly_SHA512"

def noiseTagSize : Nat := 16

def maxFrameSize : Nat := 65535

/-- One frame less its authentication tag. -/
def maxFramePlaintext : Nat := 65519

def pairIdSize : Nat := 16

def sessionIdSize : Nat := 16

def operationIdSize : Nat := 16

def certificateFingerprintSize : Nat := 32

def grantsHashSize : Nat := 32

def sessionReadyNonceSize : Nat := 32

def livenessChallengeSize : Nat := 32

def x25519KeySize : Nat := 32

structure IdentifierError where
  expected : Nat
  got : Nat
  deriving DecidableEq

/-- The `reconstruct` every public identifier shares: the slice must have
exactly the identifier's length. -/
def reconstructIdentifier (size : Nat) (bytes : Bytes) : Except IdentifierError (FixedBytes size) :=
  match FixedBytes.ofSlice? size bytes with
  | some value => .ok value
  | none => .error ⟨size, bytes.length⟩

@[simp] theorem reconstructIdentifier_val {size} (id : FixedBytes size) :
    reconstructIdentifier size id.val = .ok id := by
  simp [reconstructIdentifier]

theorem reconstructIdentifier_eq_ok {size bytes id} :
    reconstructIdentifier size bytes = .ok id ↔ bytes = id.val := by
  rw [← FixedBytes.ofSlice?_eq_some, reconstructIdentifier]
  cases FixedBytes.ofSlice? size bytes <;> simp

abbrev PairId := FixedBytes pairIdSize

abbrev SessionId := FixedBytes sessionIdSize

abbrev OperationId := FixedBytes operationIdSize

abbrev CertificateFingerprint := FixedBytes certificateFingerprintSize

abbrev GrantsHash := FixedBytes grantsHashSize

/-- Registered credential profiles. -/
inductive ProfileName where
  | cardStatus
  | authentication
  | documentSigning
  deriving DecidableEq

namespace ProfileName

def asStr : ProfileName → String
  | cardStatus => "fi.refineid.card-status"
  | authentication => "fi.refineid.authentication"
  | documentSigning => "fi.refineid.document-signing"

def parse (value : String) : Option ProfileName :=
  if value = "fi.refineid.card-status" then some cardStatus
  else if value = "fi.refineid.authentication" then some authentication
  else if value = "fi.refineid.document-signing" then some documentSigning
  else none

@[simp] theorem parse_asStr (profile : ProfileName) : parse profile.asStr = some profile := by
  cases profile <;> decide

theorem parse_eq_some {value profile} : parse value = some profile ↔ value = profile.asStr := by
  constructor
  · intro h
    unfold parse at h
    split_ifs at h with hStatus hAuthentication hSigning <;> cases h <;> assumption
  · rintro rfl
    exact parse_asStr profile

end ProfileName

inductive CloseReason where
  | normal
  | complete
  | userDisconnect
  | policy
  | protocolViolation
  | pairingRevoked
  | shutdown
  | cardUnavailable
  | serviceWithdrawn
  deriving DecidableEq

inductive FrameError where
  | oversized (got maximum : Nat)
  deriving DecidableEq

@[ext] structure BinaryFrame where
  bytes : Bytes
  bounded : bytes.length ≤ maxFrameSize
  deriving DecidableEq

def BinaryFrame.reconstruct (bytes : Bytes) : Except FrameError BinaryFrame :=
  if h : bytes.length ≤ maxFrameSize then .ok ⟨bytes, h⟩
  else .error (.oversized bytes.length maxFrameSize)

theorem BinaryFrame.reconstruct_of_le {bytes} (h : bytes.length ≤ maxFrameSize) :
    BinaryFrame.reconstruct bytes = .ok ⟨bytes, h⟩ := by
  simp [BinaryFrame.reconstruct, h]

end RefineId.Rapp
