import Mathlib.Tactic.NormNum.Prime
import RefineId.Cms.Standard
import RefineId.Data.Primality

/-! The two named curves of the table, and that their parameters are a domain:
the primes by certificates, the rest by computation. -/
namespace RefineId.Cms

open Data CurveCtx ZMod CurveCtx

def secp256r1P : Nat :=
  0xFFFFFFFF00000001000000000000000000000000FFFFFFFFFFFFFFFFFFFFFFFF

def secp256r1A : Nat :=
  0xFFFFFFFF00000001000000000000000000000000FFFFFFFFFFFFFFFFFFFFFFFC

def secp256r1B : Nat :=
  0x5AC635D8AA3A93E7B3EBBD55769886BC651D06B0CC53B0F63BCE3C3E27D2604B

def secp256r1Gx : Nat :=
  0x6B17D1F2E12C4247F8BCE6E563A440F277037D812DEB33A0F4A13945D898C296

def secp256r1Gy : Nat :=
  0x4FE342E2FE1A7F9B8EE7EB4A7C0F9E162BCE33576B315ECECBB6406837BF51F5

def secp256r1N : Nat :=
  0xFFFFFFFF00000000FFFFFFFFFFFFFFFFBCE6FAADA7179E84F3B9CAC2FC632551

def secp384r1P : Nat :=
  0xFFFFFFFFFFFFFFFFFFFFFFFFFFFFFFFFFFFFFFFFFFFFFFFFFFFFFFFFFFFFFFFEFFFFFFFF0000000000000000FFFFFFFF

def secp384r1A : Nat :=
  0xFFFFFFFFFFFFFFFFFFFFFFFFFFFFFFFFFFFFFFFFFFFFFFFFFFFFFFFFFFFFFFFEFFFFFFFF0000000000000000FFFFFFFC

def secp384r1B : Nat :=
  0xB3312FA7E23EE7E4988E056BE3F82D19181D9C6EFE8141120314088F5013875AC656398D8A2ED19D2A85C8EDD3EC2AEF

def secp384r1Gx : Nat :=
  0xAA87CA22BE8B05378EB1C71EF320AD746E1D3B628BA79B9859F741E082542A385502F25DBF55296C3A545E3872760AB7

def secp384r1Gy : Nat :=
  0x3617DE4A96262C6F5D9E98BF9292DC29F8F41DBD289A147CE9DA3113B5F0B8C00A60B1CE1D7E819D7A431D7C90EA0E5F

def secp384r1N : Nat :=
  0xFFFFFFFFFFFFFFFFFFFFFFFFFFFFFFFFFFFFFFFFFFFFFFFFC7634D81F4372DDF581A0DB248B0A77AECEC196ACCC52973

/-- The curves with an entry in the table. -/
inductive NamedCurve where
  | secp256r1
  | secp384r1
  deriving DecidableEq

namespace NamedCurve

def curve : NamedCurve → Curve
  | secp256r1 =>
    ⟨beBytes 32 secp256r1P, beBytes 32 secp256r1A, beBytes 32 secp256r1B,
      beBytes 32 secp256r1Gx, beBytes 32 secp256r1Gy, beBytes 32 secp256r1N⟩
  | secp384r1 =>
    ⟨beBytes 48 secp384r1P, beBytes 48 secp384r1A, beBytes 48 secp384r1B,
      beBytes 48 secp384r1Gx, beBytes 48 secp384r1Gy, beBytes 48 secp384r1N⟩

end NamedCurve

/-- Numbers up to `secp256r1P`, each resting on prime factors before it. -/
def secp256r1PSteps : List PocklingtonStep :=
  [⟨704251, [313, 5]⟩, ⟨78283, [4349]⟩, ⟨46076956964474543, [704251, 78283]⟩,
    ⟨66417393611, [3677, 197]⟩,
    ⟨11290956913871, [66417393611]⟩,
    ⟨774023187263532362759620327192479577272145303, [46076956964474543, 11290956913871]⟩,
    ⟨835945042244614951780389953367877943453916927241,
      [774023187263532362759620327192479577272145303]⟩,
    ⟨secp256r1P, [835945042244614951780389953367877943453916927241]⟩]

/-- Numbers up to `secp256r1N`, each resting on prime factors before it. -/
def secp256r1NSteps : List PocklingtonStep :=
  [⟨155317, [43, 43]⟩, ⟨191039911, [155317]⟩, ⟨208150935158385979, [191039911, 3023]⟩,
    ⟨2624747550333869278416773953, [208150935158385979]⟩,
    ⟨104471, [337]⟩,
    ⟨3969899, [104471]⟩,
    ⟨1002328039319, [3969899]⟩,
    ⟨secp256r1N, [2624747550333869278416773953, 1002328039319]⟩]

/-- Numbers up to `secp384r1P`, each resting on prime factors before it. -/
def secp384r1PSteps : List PocklingtonStep :=
  [⟨363557, [937]⟩, ⟨532247449, [363557]⟩, ⟨44925942675193, [532247449]⟩,
    ⟨35581458644053887931343, [44925942675193]⟩,
    ⟨23964610537191310276190549303, [35581458644053887931343]⟩,
    ⟨862725979338887169942859774909, [23964610537191310276190549303]⟩,
    ⟨20705423504133292078628634597817, [862725979338887169942859774909]⟩,
    ⟨413244619895455989650825325680172591660047, [20705423504133292078628634597817]⟩,
    ⟨12397338596863679689524759770405177749801411, [413244619895455989650825325680172591660047]⟩,
    ⟨21407, [139, 11]⟩,
    ⟨246608641, [21407]⟩,
    ⟨105957871, [881, 211]⟩,
    ⟨529709925838459440593, [246608641, 105957871]⟩,
    ⟨19173790298027098165721053155794528970226934547887232785722672956982046098136719667167519737147526097,
      [12397338596863679689524759770405177749801411, 529709925838459440593]⟩,
    ⟨secp384r1P,
      [19173790298027098165721053155794528970226934547887232785722672956982046098136719667167519737147526097]⟩]

/-- Numbers up to `secp384r1N`, each resting on prime factors before it. -/
def secp384r1NSteps : List PocklingtonStep :=
  [⟨272109983, [421, 233]⟩, ⟨228572385721, [272109983]⟩, ⟨23314383343543, [228572385721]⟩,
    ⟨426632512014427833817, [23314383343543]⟩,
    ⟨1495199339761412565498084319, [426632512014427833817]⟩,
    ⟨17942392077136950785977011829, [1495199339761412565498084319]⟩,
    ⟨9863677, [881, 311]⟩,
    ⟨37344768852931, [9863677]⟩,
    ⟨55942463741690639, [37344768852931]⟩,
    ⟨1059392654943455286185473617842338478315215895509773412096307,
      [17942392077136950785977011829, 55942463741690639]⟩,
    ⟨3055465788140352002733946906144561090641249606160407884365391979704929268480326390471,
      [1059392654943455286185473617842338478315215895509773412096307]⟩,
    ⟨secp384r1N,
      [3055465788140352002733946906144561090641249606160407884365391979704929268480326390471]⟩]

/-- All four certificates, checked together. -/
theorem certificates_check : Certified 256 [5, 197, 313, 3677, 4349] secp256r1PSteps ∧
      Certified 256 [43, 337, 3023] secp256r1NSteps ∧
      Certified 384 [11, 139, 211, 881, 937] secp384r1PSteps ∧
      Certified 384 [233, 311, 421, 881] secp384r1NSteps := by
  decide +kernel

namespace NamedCurve

/-- What the verifier derives from the table entry. -/
def ctx : NamedCurve → CurveCtx
  | secp256r1 =>
    ⟨32, 256, 256, secp256r1A, secp256r1B, secp256r1P, secp256r1N,
      ⟨some (secp256r1Gx, secp256r1Gy)⟩⟩
  | secp384r1 =>
    ⟨48, 384, 384, secp384r1A, secp384r1B, secp384r1P, secp384r1N,
      ⟨some (secp384r1Gx, secp384r1Gy)⟩⟩

def baseX : NamedCurve → Nat
  | secp256r1 => secp256r1Gx
  | secp384r1 => secp384r1Gx

def baseY : NamedCurve → Nat
  | secp256r1 => secp256r1Gy
  | secp384r1 => secp384r1Gy

variable (named : NamedCurve)

/-- The arithmetic of the table: the derived context, a discriminant that is
not zero, and a base point below the prime and on the curve. -/
theorem table_arithmetic : new named.curve = .ok named.ctx ∧
      (16 * (4 * named.ctx.a ^ 3 + 27 * named.ctx.b ^ 2)) % named.ctx.pUint ≠ 0 ∧
      (named.baseY * named.baseY) % named.ctx.pUint =
        (named.baseX * named.baseX * named.baseX + named.ctx.a * named.baseX + named.ctx.b) %
          named.ctx.pUint ∧
      named.baseX < named.ctx.pUint ∧ named.baseY < named.ctx.pUint := by
  cases named <;> decide +kernel

theorem fieldPrime : named.ctx.pUint.Prime := by
  cases named
  · have hSmall : ∀ q ∈ [5, 197, 313, 3677, 4349], Nat.Prime q := by norm_num
    exact certificates_check.1.prime hSmall secp256r1P (by simp [secp256r1PSteps])
  · have hSmall : ∀ q ∈ [11, 139, 211, 881, 937], Nat.Prime q := by norm_num
    exact certificates_check.2.2.1.prime hSmall secp384r1P (by simp [secp384r1PSteps])

theorem orderPrime : named.ctx.nUint.Prime := by
  cases named
  · have hSmall : ∀ q ∈ [43, 337, 3023], Nat.Prime q := by norm_num
    exact certificates_check.2.1.prime hSmall secp256r1N (by simp [secp256r1NSteps])
  · have hSmall : ∀ q ∈ [233, 311, 421, 881], Nat.Prime q := by norm_num
    exact certificates_check.2.2.2.prime hSmall secp384r1N (by simp [secp384r1NSteps])

theorem smooth : named.ctx.curve.Δ ≠ 0 := by
  obtain ⟨-, hResidue, -⟩ := named.table_arithmetic
  intro hZero
  rw [CurveCtx.Δ_curve, neg_eq_zero] at hZero
  exact hResidue (Nat.mod_eq_zero_of_dvd ((natCast_eq_zero_iff _ _).mp hZero))

theorem base_equation :
    named.ctx.curve.Equation (named.ctx.pMont named.baseX) (named.ctx.pMont named.baseY) := by
  obtain ⟨-, -, hResidue, -⟩ := named.table_arithmetic
  rw [equation_curve]
  unfold pMont
  exact_mod_cast (natCast_eq_natCast_iff' _ _ _).mpr hResidue

def base (named : NamedCurve) : named.ctx.curve.Point :=
  .some _ _ ((WeierstrassCurve.Affine.equation_iff_nonsingular_of_Δ_ne_zero named.smooth).mp
    named.base_equation)

theorem g_eq : named.ctx.g = encode named.base := by
  obtain ⟨-, -, -, hX, hY⟩ := named.table_arithmetic
  have hTable : named.ctx.g = ⟨some (named.baseX, named.baseY)⟩ := by cases named <;> rfl
  have hXVal : (named.ctx.pMont named.baseX).val = named.baseX := val_natCast_of_lt hX
  have hYVal : (named.ctx.pMont named.baseY).val = named.baseY := val_natCast_of_lt hY
  rw [hTable, base, encode, hXVal, hYVal]

def domain (named : NamedCurve) : Domain where
  curve := named.curve
  ctx := named.ctx
  new_eq := named.table_arithmetic.1
  fieldPrime := named.fieldPrime
  orderPrime := named.orderPrime
  odd := by cases named <;> decide +kernel
  smooth := named.smooth
  base := named.base
  g_eq := named.g_eq
  fieldFits := by cases named <;> decide +kernel
  fieldBits := by cases named <;> decide +kernel
  orderBits := by cases named <;> decide +kernel
  orderOctets := by cases named <;> decide +kernel
  near := by cases named <;> decide +kernel

/-- For both curves, every key, signature and digest: the verifier decides the
standard's equation, and its point arithmetic is the group law. -/
theorem verification_is_standard (named : NamedCurve) :
    (∀ (key : Sec1UncompressedPoint) (signature digest : Bytes),
      verifyPrehashed named.curve key signature digest = .ok () ↔
        ∃ r s, EncodesPair signature r s ∧ named.domain.Accepts key.bytes digest r s) ∧
      Function.Injective (@CurveCtx.encode named.ctx) ∧
      (∀ P : named.domain.Group, named.ctx.double (encode P) = encode (P + P)) ∧
      (∀ P Q : named.domain.Group,
        named.ctx.add (encode P) (encode Q) = encode (P + Q)) ∧
      ∀ (k : ℕ) (P : named.domain.Group),
        named.ctx.scalarMul k (encode P) = encode (k • P) := by
  have : Fact named.ctx.pUint.Prime := ⟨named.fieldPrime⟩
  exact ⟨named.domain.verifyPrehashed_iff, encode_injective,
    double_encode named.domain.odd, add_encode named.domain.odd,
    scalarMul_encode named.domain.odd⟩

end NamedCurve

end RefineId.Cms
