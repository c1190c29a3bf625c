import Mathlib.Data.ZMod.Basic
import RefineId.Ber.Records

/-! ECDSA signature verification over named curves
(`crates/cms/src/ecdsa.rs`). Big integers are natural numbers and a residue in
Montgomery form is an element of `ZMod`: their operations are taken as exact. -/
namespace RefineId.Cms

open Data Ber

def sec1UncompressedTag : UInt8 := 0x04

def pointCoordinateCount : Nat := 2

def derSignPad : UInt8 := 0

def asn1SequenceTag : UInt16 := 0x30

def asn1IntegerTag : UInt16 := 0x02

def highBitSet : UInt8 := 0x80

def bitsPerByte : Nat := 8

def boxedUintLimbBits : Nat := 64

/-- Named-curve parameters as big-endian octets. -/
structure Curve where
  p : Bytes
  a : Bytes
  b : Bytes
  gx : Bytes
  gy : Bytes
  n : Bytes
  deriving DecidableEq

inductive EcdsaError where
  | badModulus
  | badPublicKey
  | badSignature
  | sigOutOfRange
  | notInvertible
  | verifyFailed
  deriving DecidableEq

/-- An uncompressed point: the tag and two coordinates of one length. -/
structure Sec1UncompressedPoint where
  bytes : Bytes
  tagged : bytes.head? = some sec1UncompressedTag
  coordinates : bytes.length - 1 ≠ 0 ∧ (bytes.length - 1) % pointCoordinateCount = 0

/-- Decode into a number of the given bit precision. The precision is a whole
number of octets, so what fits in octets fits in bits. -/
def fromBeSlice (bytes : Bytes) (bits : Nat) : Option Nat :=
  if bytes.length > (bits + 7) / 8 then none else some (beValue bytes)

def bitsVartime (value : Nat) : Nat :=
  if value = 0 then 0 else value.log2 + 1

def invert {modulus : Nat} (residue : ZMod modulus) : Option (ZMod modulus) :=
  if residue.val.Coprime modulus then some residue⁻¹ else none

/-- `none` is the point at infinity. -/
structure AffinePoint where
  xy : Option (Nat × Nat)
  deriving DecidableEq

namespace AffinePoint

def infinity : AffinePoint := ⟨none⟩

def isInfinity (point : AffinePoint) : Bool := point.xy.isNone

end AffinePoint

structure CurveCtx where
  fieldLen : Nat
  bitsP : Nat
  bitsN : Nat
  a : Nat
  b : Nat
  pUint : Nat
  nUint : Nat
  g : AffinePoint
  deriving DecidableEq

namespace EcdsaHelpers

/-- Octets in bits, rounded up to whole limbs. -/
def bitsForLen (byteLen : Nat) : Nat :=
  max ((byteLen * bitsPerByte + (boxedUintLimbBits - 1)) / boxedUintLimbBits * boxedUintLimbBits)
    boxedUintLimbBits

def boxed (bytes : Bytes) (bits : Nat) : Except EcdsaError Nat :=
  (fromBeSlice bytes bits).elim (.error .badModulus) .ok

end EcdsaHelpers

namespace CurveCtx

open EcdsaHelpers

def new (curve : Curve) : Except EcdsaError CurveCtx := do
  let bitsP := bitsForLen curve.p.length
  let bitsN := bitsForLen curve.n.length
  let pUint ← boxed curve.p bitsP
  let nUint ← boxed curve.n bitsN
  let a ← boxed curve.a bitsP
  let b ← boxed curve.b bitsP
  let gx ← boxed curve.gx bitsP
  let gy ← boxed curve.gy bitsP
  -- Montgomery form needs odd moduli
  if pUint % 2 = 0 then .error .badModulus
  else if nUint % 2 = 0 then .error .badModulus
  else .ok ⟨curve.p.length, bitsP, bitsN, a, b, pUint, nUint, ⟨some (gx, gy)⟩⟩

variable (ctx : CurveCtx)

def pMont (x : Nat) : ZMod ctx.pUint := x

def nMont (x : Nat) : ZMod ctx.nUint := x

def double (point : AffinePoint) : AffinePoint :=
  match point.xy with
  | none => .infinity
  | some (px, py) =>
    let pyMont := ctx.pMont py
    if pyMont = ctx.pMont 0 then .infinity
    else
      let three := ctx.pMont 3
      let two := ctx.pMont 2
      let aMont := ctx.pMont ctx.a
      let pxMont := ctx.pMont px
      let num := three * (pxMont * pxMont) + aMont
      match invert (two * pyMont) with
      | none => .infinity
      | some denInv =>
        let lambda := num * denInv
        let lambdaSq := lambda * lambda
        let rx := lambdaSq - pxMont - pxMont
        let ry := lambda * (pxMont - rx) - pyMont
        ⟨some (rx.val, ry.val)⟩

def add (p q : AffinePoint) : AffinePoint :=
  match p.xy, q.xy with
  | some (px, py), some (qx, qy) =>
    if px = qx then
      if py = qy then ctx.double p
      else .infinity
    else
      let pxM := ctx.pMont px
      let pyM := ctx.pMont py
      let qxM := ctx.pMont qx
      let qyM := ctx.pMont qy
      let num := qyM - pyM
      match invert (qxM - pxM) with
      | none => .infinity
      | some denInv =>
        let lambda := num * denInv
        let lambdaSq := lambda * lambda
        let rx := lambdaSq - pxM - qxM
        let ry := lambda * (pxM - rx) - pyM
        ⟨some (rx.val, ry.val)⟩
  | _, _ => if p.isInfinity then q else p

/-- One turn of the double-and-add loop, at bit `i` of the scalar. -/
def scalarMulStep (k : Nat) (state : AffinePoint × AffinePoint) (i : Nat) :
    AffinePoint × AffinePoint :=
  let (acc, addend) := state
  (if k.testBit i then ctx.add acc addend else acc, ctx.double addend)

def scalarMul (k : Nat) (point : AffinePoint) : AffinePoint :=
  if point.isInfinity then .infinity
  else ((List.range (bitsVartime k)).foldl (ctx.scalarMulStep k) (.infinity, point)).1

def fieldElement (bytes : Bytes) : Except EcdsaError Nat :=
  if bytes.length ≠ ctx.fieldLen then .error .badPublicKey
  else do
    let value ← (fromBeSlice bytes ctx.bitsP).elim (.error .badPublicKey) .ok
    if value ≥ ctx.pUint then .error .badPublicKey else .ok value

variable (point : Sec1UncompressedPoint)

def parseAffine : Except EcdsaError AffinePoint :=
  if point.bytes.head? ≠ some sec1UncompressedTag then .error .badPublicKey
  else
    let body := point.bytes.drop 1
    if body.length ≠ ctx.fieldLen * pointCoordinateCount then .error .badPublicKey
    else do
      let x ← ctx.fieldElement (body.take ctx.fieldLen)
      let y ← ctx.fieldElement (body.drop ctx.fieldLen)
      .ok ⟨some (x, y)⟩

def isOnCurve (q : AffinePoint) : Bool :=
  match q.xy with
  | none => false
  | some (qx, qy) =>
    let qxM := ctx.pMont qx
    let qyM := ctx.pMont qy
    let lhs := qyM * qyM
    let aM := ctx.pMont ctx.a
    let bM := ctx.pMont ctx.b
    let rhs := qxM * qxM * qxM + aM * qxM + bM
    decide (lhs = rhs)

def publicKey : Except EcdsaError AffinePoint := do
  let q ← ctx.parseAffine point
  if ctx.isOnCurve q then .ok q else .error .badPublicKey

end CurveCtx

namespace EcdsaHelpers

/-- The octets of a positive integer without its sign octet. Empty, zero,
negative and padded encodings are refused. -/
def positiveMagnitude : Bytes → Except EcdsaError Bytes
  | [] => .error .badSignature
  | first :: rest =>
    if first &&& highBitSet ≠ 0 then .error .badSignature
    else if first = derSignPad then
      match rest with
      | [] => .error .badSignature
      | second :: _ => if second &&& highBitSet = 0 then .error .badSignature else .ok rest
    else .ok (first :: rest)

/-- The next child, which has to be a positive integer, and the octets after
it. -/
def nextInteger (components : Bytes) : Except EcdsaError (Bytes × Bytes) :=
  if components = [] then .error .badSignature
  else
    match BerTlvAny.parse components with
    | .error _ => .error .badSignature
    | .ok child =>
      if child.tag ≠ asn1IntegerTag then .error .badSignature
      else do
        let magnitude ← positiveMagnitude child.value
        .ok (magnitude, components.drop child.size)

/-- The magnitudes of `r` and `s` in a sequence of exactly two integers. -/
def parseEcdsaSignature (bytes : Bytes) : Except EcdsaError (Bytes × Bytes) :=
  match BerTlvAny.parse bytes with
  | .error _ => .error .badSignature
  | .ok outer =>
    if outer.tag ≠ asn1SequenceTag then .error .badSignature
    else if outer.size ≠ bytes.length then .error .badSignature
    else do
      let (r, components) ← nextInteger outer.value
      let (s, components) ← nextInteger components
      if components ≠ [] then .error .badSignature else .ok (r, s)

/-- Shift a whole buffer right by fewer than eight bits. -/
def shiftOctets (extraBits : Nat) : (carry : UInt8) → Bytes → Bytes
  | _, [] => []
  | carry, byte :: rest =>
    let mask := UInt8.ofNat (2 ^ extraBits - 1)
    let shifted := byte >>> UInt8.ofNat extraBits ||| carry <<< UInt8.ofNat (bitsPerByte - extraBits)
    shifted :: shiftOctets extraBits (byte &&& mask) rest

/-- The leading octets of a digest, as many as the order has, shifted when the
order does not fill its last octet. -/
def digestToScalar (digest : Bytes) (ctx : CurveCtx) : Nat :=
  let nBits := bitsVartime ctx.nUint
  let nBytes := (nBits + (bitsPerByte - 1)) / bitsPerByte
  let buf := digest.take nBytes
  let extraBits := (bitsPerByte - nBits % bitsPerByte) % bitsPerByte
  let buf := if extraBits ≠ 0 then shiftOctets extraBits 0 buf else buf
  (fromBeSlice buf ctx.bitsN).getD 0

/-- Reduce a coordinate modulo the order by at most one subtraction. -/
def bytesIntoN (sx : Nat) (ctx : CurveCtx) : Nat :=
  if sx ≥ ctx.nUint then sx - ctx.nUint else sx

end EcdsaHelpers

open EcdsaHelpers

/-- The last step: the abscissa of the sum modulo the order against `r`. -/
def compareAbscissa (ctx : CurveCtx) (sum : AffinePoint) (r : Nat) : Except EcdsaError Unit :=
  match sum.xy with
  | none => .error .verifyFailed
  | some (sx, _) => if bytesIntoN sx ctx = r then .ok () else .error .verifyFailed

/-- The verification equation, for numbers in range. -/
def verifyEquation (ctx : CurveCtx) (q : AffinePoint) (r s : Nat) (messageDigest : Bytes) :
    Except EcdsaError Unit := do
  let eUint := digestToScalar messageDigest ctx
  let wMont ← (invert (ctx.nMont s)).elim (.error .notInvertible) .ok
  let u1 := (ctx.nMont eUint * wMont).val
  let u2 := (ctx.nMont r * wMont).val
  compareAbscissa ctx (ctx.add (ctx.scalarMul u1 ctx.g) (ctx.scalarMul u2 q)) r

def verifyPrehashed (curve : Curve) (pubkeySec1 : Sec1UncompressedPoint)
    (signatureDer messageDigest : Bytes) : Except EcdsaError Unit := do
  let ctx ← CurveCtx.new curve
  let q ← ctx.publicKey pubkeySec1
  let (rBytes, sBytes) ← parseEcdsaSignature signatureDer
  let r ← boxed rBytes ctx.bitsN
  let s ← boxed sBytes ctx.bitsN
  if r < 1 ∨ r ≥ ctx.nUint ∨ s < 1 ∨ s ≥ ctx.nUint then .error .sigOutOfRange
  else verifyEquation ctx q r s messageDigest

end RefineId.Cms
