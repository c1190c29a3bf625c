import RefineId.Auth.Credentials
import RefineId.Apdu.StatusWord

/-! What a counter of tries allows (`crates/auth/src/retry_risk.rs`), with the
status a probe reports (`verify.rs`). -/
namespace RefineId.Auth

open Data Apdu

inductive PinStatus where
  | verified
  | remaining (retries : PinRetries)
  | noInfo
  | locked
  | other (sw : StatusWord)
  deriving DecidableEq

def classifyPinStatusSw : StatusWord → PinStatus
  | .success => .verified
  | .pinIncorrect retries => .remaining retries
  | .authenticationFailed => .noInfo
  | .authenticationBlocked | .referenceDataInvalidated => .locked
  | other => .other other

inductive FlooredCredential where
  | pin1
  | pin2
  | puk
  deriving DecidableEq

def FlooredCredential.ofSlot : PinSlot → FlooredCredential
  | .pin1 => .pin1
  | .pin2 => .pin2

inductive PinRetryRisk where
  | normalOperatingConditions
  | disturbanceDetected
  | securityIncidentDeclared
  | criticalThreatLevel
  | lockdownImminent
  | defencesFallen
  deriving DecidableEq

namespace PinRetryRisk

def fromRetries (retries : PinRetries) : Option PinRetryRisk :=
  match retries.get.toNat with
  | 5 => some normalOperatingConditions
  | 4 => some disturbanceDetected
  | 3 => some securityIncidentDeclared
  | 2 => some criticalThreatLevel
  | 1 => some lockdownImminent
  | 0 => some defencesFallen
  | _ => none

def spendsALastTry : PinRetryRisk → Bool
  | criticalThreatLevel | lockdownImminent => true
  | _ => false

def isAboveFloor : PinRetryRisk → Bool
  | normalOperatingConditions | disturbanceDetected | securityIncidentDeclared => true
  | _ => false

def permitsReusableCache : PinRetryRisk → Bool
  | normalOperatingConditions => true
  | _ => false

end PinRetryRisk

inductive RetryFloorRefusal where
  | triesBelowFloor (credential : FlooredCredential) (remaining : PinRetries)
  | blocked (credential : FlooredCredential)
  | counterUnreadable (credential : FlooredCredential)
  deriving DecidableEq

variable (credential : FlooredCredential)

def checkLastTries : PinStatus → Except RetryFloorRefusal Unit
  | .remaining remaining =>
    match PinRetryRisk.fromRetries remaining with
    | some risk =>
      if risk.spendsALastTry then .error (.triesBelowFloor credential remaining) else .ok ()
    | none => .error (.counterUnreadable credential)
  | .verified | .locked => .ok ()
  | .noInfo | .other _ => .error (.counterUnreadable credential)

def checkPinFloor : PinStatus → Except RetryFloorRefusal Unit
  | .verified => .ok ()
  | .remaining remaining =>
    match PinRetryRisk.fromRetries remaining with
    | some risk =>
      if risk.isAboveFloor then .ok () else .error (.triesBelowFloor credential remaining)
    | none => .error (.counterUnreadable credential)
  | .locked => .error (.blocked credential)
  | .noInfo | .other _ => .error (.counterUnreadable credential)

def checkRetryFloor (status : PinStatus) : Except RetryFloorRefusal Unit :=
  match credential with
  | .pin1 | .pin2 => checkPinFloor credential status
  | .puk =>
    match status with
    | .verified => .error (.counterUnreadable credential)
    | other => checkLastTries credential other

def pin1StatusPermitsReusableCache : PinStatus → Bool
  | .verified => true
  | .remaining retries =>
    match PinRetryRisk.fromRetries retries with
    | some risk => risk.permitsReusableCache
    | none => false
  | .locked | .noInfo | .other _ => false

end RefineId.Auth
