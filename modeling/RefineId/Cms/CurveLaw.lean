import Mathlib.AlgebraicGeometry.EllipticCurve.Affine.Point
import Mathlib.Algebra.Field.ZMod
import RefineId.Cms.Ecdsa

/-! The point arithmetic of the verifier is the group law of the curve. A
point of the group is written with its coordinates reduced modulo the field
prime, which is how the verifier holds every point. -/
namespace RefineId.Cms.CurveCtx

open WeierstrassCurve.Affine List Nat ZMod

/-- The curve `y² = x³ + ax + b` over the field of `p` elements. -/
def curve (ctx : CurveCtx) : WeierstrassCurve.Affine (ZMod ctx.pUint) :=
  ⟨0, 0, 0, ctx.pMont ctx.a, ctx.pMont ctx.b⟩

variable {ctx : CurveCtx}

def encode : ctx.curve.Point → AffinePoint
  | .zero => .infinity
  | .some x y _ => ⟨some (x.val, y.val)⟩

@[simp] theorem encode_zero : encode (0 : ctx.curve.Point) = .infinity := by
  rfl

@[simp] theorem negY_curve (x y : ZMod ctx.pUint) : ctx.curve.negY x y = -y := by
  simp [WeierstrassCurve.Affine.negY, curve]

theorem addX_curve (x₁ x₂ slope : ZMod ctx.pUint) :
    ctx.curve.addX x₁ x₂ slope = slope * slope - x₁ - x₂ := by
  simp only [WeierstrassCurve.Affine.addX, curve]
  ring

theorem addY_curve (x₁ x₂ y₁ slope : ZMod ctx.pUint) :
    ctx.curve.addY x₁ x₂ y₁ slope = slope * (x₁ - (slope * slope - x₁ - x₂)) - y₁ := by
  simp only [WeierstrassCurve.Affine.addY, negY_curve, WeierstrassCurve.Affine.negAddY, addX_curve]
  ring

theorem equation_curve (x y : ZMod ctx.pUint) :
    ctx.curve.Equation x y ↔ y * y = x * x * x + ctx.pMont ctx.a * x + ctx.pMont ctx.b := by
  rw [WeierstrassCurve.Affine.equation_iff]
  simp only [curve, pow_succ, pow_zero, one_mul, zero_mul, add_zero]

theorem Δ_curve (ctx : CurveCtx) :
    ctx.curve.Δ = -((16 * (4 * ctx.a ^ 3 + 27 * ctx.b ^ 2) : ℕ) : ZMod ctx.pUint) := by
  simp only [WeierstrassCurve.Δ, WeierstrassCurve.b₂, WeierstrassCurve.b₄, WeierstrassCurve.b₆,
    WeierstrassCurve.b₈, curve, pMont]
  push_cast
  ring

variable [Fact ctx.pUint.Prime]

theorem encode_injective : Function.Injective (@encode ctx) := by
  rintro (_ | ⟨x₁, y₁, hP⟩) (_ | ⟨x₂, y₂, hQ⟩) hEq
  · rfl
  · cases hEq
  · cases hEq
  simp only [encode, AffinePoint.mk.injEq, Option.some.injEq, Prod.mk.injEq] at hEq
  obtain rfl := val_injective _ hEq.1
  obtain rfl := val_injective _ hEq.2
  rfl

@[simp] theorem pMont_val (x : ZMod ctx.pUint) : ctx.pMont x.val = x :=
  natCast_zmod_val x

theorem invert_of_ne_zero {modulus} [Fact modulus.Prime] {residue : ZMod modulus}
    (hResidue : residue ≠ 0) : invert residue = some residue⁻¹ := by
  refine if_pos ((isUnit_iff_coprime _ _).mp ?_)
  rw [natCast_zmod_val]
  exact hResidue.isUnit

/-- Doubling is the sum of a point with itself. The characteristic is odd, so
only the points of order two have a vertical tangent. -/
theorem double_encode (hOdd : ctx.pUint ≠ 2) (P : ctx.curve.Point) :
    ctx.double (encode P) = encode (P + P) := by
  have hTwo : (2 : ZMod ctx.pUint) ≠ 0 := Ring.two_ne_zero (by rwa [ZMod.ringChar_zmod_n])
  rcases P with _ | ⟨x, y, hPoint⟩
  · rfl
  have hZero : ctx.pMont 0 = 0 := Nat.cast_zero
  simp only [double, encode, pMont_val, hZero]
  by_cases hFlat : y = 0
  · rw [if_pos hFlat, Point.add_self_of_Y_eq (by rw [negY_curve, hFlat, neg_zero])]
  have hDouble : ctx.pMont 2 * y ≠ 0 := mul_ne_zero hTwo hFlat
  have hNe : y ≠ ctx.curve.negY x y := by
    intro hEq
    rw [negY_curve, eq_neg_iff_add_eq_zero, ← two_mul] at hEq
    exact hDouble hEq
  have hSlope : ctx.curve.slope x x y y =
      (ctx.pMont 3 * (x * x) + ctx.pMont ctx.a) * (ctx.pMont 2 * y)⁻¹ := by
    have hDen : y - ctx.curve.negY x y = ctx.pMont 2 * y := by
      rw [negY_curve, sub_neg_eq_add, ← two_mul]
      rfl
    rw [slope_of_Y_ne rfl hNe, hDen, div_eq_mul_inv]
    congr 1
    change 3 * x ^ 2 + 2 * 0 * x + ctx.pMont ctx.a - 0 * y = 3 * (x * x) + ctx.pMont ctx.a
    ring
  rw [if_neg hFlat, invert_of_ne_zero hDouble, Point.add_self_of_Y_ne hNe]
  simp only [hSlope, addX_curve, addY_curve]

theorem add_encode (hOdd : ctx.pUint ≠ 2) (P Q : ctx.curve.Point) :
    ctx.add (encode P) (encode Q) = encode (P + Q) := by
  rcases P with _ | ⟨x₁, y₁, hP⟩
  · rw [← Point.zero_def, zero_add]
    rfl
  rcases Q with _ | ⟨x₂, y₂, hQ⟩
  · rw [← Point.zero_def, add_zero]
    rfl
  have hVal : ∀ a b : ZMod ctx.pUint, a.val = b.val ↔ a = b := fun _ _ =>
    (ZMod.val_injective _).eq_iff
  by_cases hX : x₁ = x₂
  · subst hX
    by_cases hY : y₁ = y₂
    · subst hY
      have hDouble := double_encode hOdd (Point.some x₁ y₁ hP)
      simpa only [add, encode, if_pos] using hDouble
    · -- two points over one abscissa are equal or opposite
      have hOpposite : y₁ = ctx.curve.negY x₁ y₂ :=
        (Y_eq_of_X_eq hP.left hQ.left rfl).resolve_left hY
      rw [Point.add_of_Y_eq rfl hOpposite]
      simp only [add, encode, if_true, hVal, if_neg hY]
  · have hDen : x₂ - x₁ ≠ 0 := sub_ne_zero.mpr (Ne.symm hX)
    have hSlope : ctx.curve.slope x₁ x₂ y₁ y₂ = (y₂ - y₁) * (x₂ - x₁)⁻¹ := by
      rw [slope_of_X_ne hX, ← div_eq_mul_inv, ← neg_sub y₂, ← neg_sub x₂, neg_div_neg_eq]
    rw [Point.add_of_X_ne hX]
    simp only [add, encode, hVal, if_neg hX, pMont_val, invert_of_ne_zero hDen, hSlope, addX_curve,
      addY_curve]

section ScalarMul
variable (hOdd : ctx.pUint ≠ 2) (k : ℕ) (P : ctx.curve.Point)
include hOdd

/-- Before bit `i` the accumulator holds the multiple by the low bits of the
scalar and the addend the multiple by `2 ^ i`. -/
theorem scalarMulStep_encode (i : ℕ) :
    ctx.scalarMulStep k (encode ((k % 2 ^ i) • P), encode (2 ^ i • P)) i =
      (encode ((k % 2 ^ (i + 1)) • P), encode (2 ^ (i + 1) • P)) := by
  have hAddend : ctx.double (encode (2 ^ i • P)) = encode (2 ^ (i + 1) • P) := by
    rw [double_encode hOdd, ← two_nsmul, ← mul_nsmul', ← pow_succ']
  have hAcc : (if k.testBit i then ctx.add (encode ((k % 2 ^ i) • P)) (encode (2 ^ i • P))
      else encode ((k % 2 ^ i) • P)) = encode ((k % 2 ^ (i + 1)) • P) := by
    rw [mod_pow_succ, testBit_eq_decide_div_mod_eq]
    simp only [decide_eq_true_eq]
    split_ifs with hBit
    · rw [add_encode hOdd, ← add_nsmul, hBit, mul_one]
    · rw [show k / 2 ^ i % 2 = 0 by omega, mul_zero, add_zero]
  rw [scalarMulStep]
  simp only [hAddend, hAcc]

theorem foldl_scalarMulStep_encode (bits : ℕ) :
    (range bits).foldl (ctx.scalarMulStep k) (.infinity, encode P) =
      (encode ((k % 2 ^ bits) • P), encode (2 ^ bits • P)) := by
  induction bits with
  | zero => simp [mod_one]
  | succ bits ih =>
    rw [range_succ, foldl_append, ih, foldl_cons, foldl_nil, scalarMulStep_encode hOdd]

theorem scalarMul_encode : ctx.scalarMul k (encode P) = encode (k • P) := by
  have hBits : k < 2 ^ bitsVartime k := by
    unfold bitsVartime
    split_ifs with hZero
    · omega
    · exact lt_log2_self
  rcases P with _ | ⟨x, y, hPoint⟩
  · rw [← Point.zero_def, nsmul_zero]
    rfl
  have hFold := foldl_scalarMulStep_encode hOdd k (.some x y hPoint) (bitsVartime k)
  rw [mod_eq_of_lt hBits] at hFold
  change ((range (bitsVartime k)).foldl (ctx.scalarMulStep k) (.infinity, _)).1 = _
  rw [hFold]

end ScalarMul

end RefineId.Cms.CurveCtx
