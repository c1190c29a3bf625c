import RefineId.Rapp.Link
import RefineId.Rapp.EngineAgreement
import RefineId.Rapp.CloseAcknowledgement
import RefineId.Rapp.FrameBound
import RefineId.Rapp.OfferRoundTrip
import RefineId.Rapp.PairingAgreement
import RefineId.Rapp.TxtRecords
import RefineId.Rapp.RoutingReplay
import RefineId.Rapp.Liveness
import RefineId.Rapp.PairingExpiry
import RefineId.Rapp.CpaceStrings
import RefineId.Rapp.PairingCandidatesSafety
import RefineId.Rapp.BleSarRoundTrip
import RefineId.Rapp.BleSarSoundness
import RefineId.Apdu.ChainedResponse
import RefineId.Apdu.CredentialSend
import RefineId.Pace.FragmentedRead
import RefineId.Pace.RefusedCommand
import RefineId.DocSign.PathValidation
import RefineId.DocSign.Report
import RefineId.DocSign.RevocationCache
import RefineId.DocSign.SigningTime
import RefineId.DocSign.XadesIntact
import RefineId.DocSign.ZipTiling
import RefineId.Pades.ObjectDictionaries
import RefineId.Pades.StreamObjects
import RefineId.Pades.StreamRows
import RefineId.Auth.ContainerScan
import RefineId.Auth.Lockout
import RefineId.Cms.NamedCurves
import RefineId.Cms.OidText
import RefineId.Pkcs11.SlotHoldings
import RefineId.Pkcs11.RejectedPins
import RefineId.Ccid.Descriptor
import RefineId.Cms.SignatureForms
import RefineId.Pkcs15.TokenSerial
import RefineId.Pkcs11.EcdsaDigest
