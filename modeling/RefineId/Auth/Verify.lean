import RefineId.Auth.PinLengths
import RefineId.Auth.RetryRisk

/-! What a VERIFY comes to and how it can fail (`crates/auth/src/verify.rs`). -/
namespace RefineId.Auth

open Apdu

inductive VerifyOutcome where
  | ok
  | wrongPin (retriesLeft : PinRetries)
  | locked
  | other (sw : StatusWord)
  deriving DecidableEq

/-- Failures of a credential operation over a link with its own errors. -/
inductive AuthError (E : Type) where
  | transport (error : E)
  | outcome (outcome : TransportOutcome)
  | command (error : CredentialBodyError)
  | retryFloor (refusal : RetryFloorRefusal)
  | pinLength (refusal : PinLengthRefusal)

end RefineId.Auth
