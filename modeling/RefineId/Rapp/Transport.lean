import RefineId.Rapp.Wire.Value

/-! The registered transport profiles and the entries they contribute to a
pairing offer (`crates/rapp/src/transport.rs`). -/
namespace RefineId.Rapp

open Data

def bleProfile : String := "fi.refineid.rapp.ble"

def bleCandidateId : String := "ble"

def bleServiceUuid : String := "7E39FD01-A6B5-4D78-9E11-37E28E9545F1"

def bleServiceUuidParameter : String := "service_uuid"

def streamProfile : String := "fi.refineid.stream"

def streamCandidateId : String := "stream"

structure TransportCandidate where
  profile : String
  candidateId : String
  parameters : Body
  deriving DecidableEq

/-- The registered profiles, in the order the source derives. -/
inductive TransportProfile where
  | ble
  | stream
  deriving DecidableEq

namespace TransportProfile

def name : TransportProfile → String
  | ble => bleProfile
  | stream => streamProfile

def candidateId : TransportProfile → String
  | ble => bleCandidateId
  | stream => streamCandidateId

def parse (name : String) : Option TransportProfile :=
  if name = bleProfile then some ble
  else if name = streamProfile then some stream
  else none

def offerEntry (profile : TransportProfile) : TransportCandidate where
  profile := profile.name
  candidateId := profile.candidateId
  parameters :=
    if profile = ble then BTreeMap.ofList [(bleServiceUuidParameter, .text bleServiceUuid)]
    else BTreeMap.empty

end TransportProfile

end RefineId.Rapp
