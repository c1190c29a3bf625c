import Mathlib.FieldTheory.Finite.Basic

/-! Primality of large numbers by the Pocklington criterion. Enough of
`n - 1` is factored into primes that were settled before, so a certificate is
a list of numbers, each with some prime factors of its predecessor. Every
condition is a computation on natural numbers. -/
namespace RefineId.Data

/-- A power of `q` that divides an exponent killing `x` divides the order of
`x`, unless the exponent can be lowered by `q`. -/
theorem pow_dvd_orderOf {G : Type*} [Monoid G] {x : G} {exponent q k : ℕ} (hPrime : q.Prime)
    (hOne : x ^ exponent = 1) (hPower : q ^ k ∣ exponent)
    (hLower : x ^ (exponent / q) ≠ 1) : q ^ k ∣ orderOf x := by
  obtain ⟨cofactor, hCofactor⟩ := orderOf_dvd_of_pow_eq_one hOne
  by_cases hDvd : q ∣ cofactor
  · obtain ⟨lower, rfl⟩ := hDvd
    refine absurd ?_ hLower
    rw [hCofactor, Nat.mul_left_comm, Nat.mul_div_cancel_left _ hPrime.pos, pow_mul,
      pow_orderOf_eq_one, one_pow]
  · rw [hCofactor] at hPower
    have hCoprime := (Nat.Prime.coprime_iff_not_dvd hPrime).mpr hDvd
    exact (Nat.Coprime.pow_left k hCoprime).dvd_of_dvd_mul_right hPower

/-- The Pocklington criterion: a divisor of `n - 1` above the root of `n`
whose primes all show in the order of one base. -/
theorem prime_of_pocklington {n divisor base : ℕ} (hOne : 1 < n) (hDivisor : divisor ∣ n - 1)
    (hLarge : n < divisor ^ 2) (hFermat : (base : ZMod n) ^ (n - 1) = 1)
    (hUnit : ∀ q, q.Prime → q ∣ divisor → IsUnit ((base : ZMod n) ^ ((n - 1) / q) - 1)) :
    n.Prime := by
  by_contra hComposite
  -- the least prime factor of a composite number is at most its root
  have hLeast : n.minFac.Prime := Nat.minFac_prime (by omega)
  have hRoot : n.minFac ^ 2 ≤ n := Nat.minFac_sq_le_self (by omega) hComposite
  have : Fact n.minFac.Prime := ⟨hLeast⟩
  let reduce : ZMod n →+* ZMod n.minFac := ZMod.castHom n.minFac_dvd (ZMod n.minFac)
  have hReduce : reduce base = (base : ZMod n.minFac) := map_natCast reduce base
  have hKilled : (base : ZMod n.minFac) ^ (n - 1) = 1 := by
    rw [← hReduce, ← map_pow, hFermat, map_one]
  have hDvd : divisor ∣ n.minFac - 1 := by
    rw [Nat.dvd_iff_prime_pow_dvd_dvd]
    intro q k hPrime hPower
    rcases Nat.eq_zero_or_pos k with rfl | hPositive
    · simp
    have hLower : (base : ZMod n.minFac) ^ ((n - 1) / q) ≠ 1 := by
      intro hEq
      have hImage := (hUnit q hPrime ((dvd_pow_self q hPositive.ne').trans hPower)).map reduce
      rw [map_sub, map_pow, map_one, hReduce, hEq, sub_self] at hImage
      exact not_isUnit_zero hImage
    have hOrder := pow_dvd_orderOf hPrime hKilled (hPower.trans hDivisor) hLower
    refine hOrder.trans (orderOf_dvd_of_pow_eq_one (ZMod.pow_card_sub_one_eq_one ?_))
    intro hZero
    rw [hZero, zero_pow (by omega)] at hKilled
    exact zero_ne_one hKilled
  have hBound : divisor < n.minFac :=
    Nat.lt_of_le_of_lt (Nat.le_of_dvd (by have := hLeast.two_le; omega) hDvd)
      (by have := hLeast.two_le; omega)
  have := Nat.pow_lt_pow_left hBound (show 2 ≠ 0 by decide)
  omega

/-- The residue of a power of two, by squaring along `bits` binary digits of
the exponent. -/
def twoPowMod (modulus : ℕ) : (bits exponent : ℕ) → ℕ
  | 0, _ => 1 % modulus
  | bits + 1, exponent =>
    let root := twoPowMod modulus bits (exponent / 2)
    if exponent % 2 = 0 then root * root % modulus else 2 * (root * root) % modulus

theorem twoPowMod_eq (modulus : ℕ) {bits exponent} (hBits : exponent < 2 ^ bits) :
    twoPowMod modulus bits exponent = 2 ^ exponent % modulus := by
  induction bits generalizing exponent with
  | zero => simp [twoPowMod, show exponent = 0 by simpa using hBits]
  | succ bits ih =>
    have hHalf : exponent / 2 < 2 ^ bits := by rw [pow_succ] at hBits; omega
    unfold twoPowMod
    rw [ih hHalf]
    split_ifs with hEven
    · rw [← Nat.mul_mod, ← pow_add]
      congr 2
      omega
    · rw [Nat.mul_mod, ← Nat.mul_mod (2 ^ (exponent / 2)), ← pow_add, ← Nat.mul_mod, ← pow_succ']
      congr 2
      omega

/-- One number of a certificate with prime factors of its predecessor,
repeated as often as they are used. -/
structure PocklingtonStep where
  value : ℕ
  factors : List ℕ

/-- The conditions of the criterion for base two, over factors among the
numbers `known`. -/
def PocklingtonStep.Holds (bits : ℕ) (known : List ℕ) (step : PocklingtonStep) : Prop :=
  1 < step.value ∧ step.value < 2 ^ bits ∧ step.factors.prod ∣ step.value - 1 ∧
    step.value < step.factors.prod ^ 2 ∧
    twoPowMod step.value bits (step.value - 1) = 1 ∧
    ∀ q ∈ step.factors, q ∈ known ∧
      (twoPowMod step.value bits ((step.value - 1) / q) + (step.value - 1)).Coprime step.value

instance (bits : ℕ) (known : List ℕ) (step : PocklingtonStep) : Decidable (step.Holds bits known) :=
  inferInstanceAs (Decidable (_ ∧ _))

theorem PocklingtonStep.Holds.prime {bits known} {step : PocklingtonStep}
    (hHolds : step.Holds bits known) (hKnown : ∀ q ∈ known, q.Prime) : step.value.Prime := by
  obtain ⟨hOne, hBits, hDivisor, hLarge, hFermat, hFactors⟩ := hHolds
  have hCast : ∀ exponent < step.value,
      ((2 : ℕ) : ZMod step.value) ^ exponent = (twoPowMod step.value bits exponent : ℕ) := by
    intro exponent hExponent
    rw [twoPowMod_eq _ (hExponent.trans hBits), ZMod.natCast_mod, Nat.cast_pow]
  refine @prime_of_pocklington _ _ 2 hOne hDivisor hLarge ?_ fun q hPrime hDvd => ?_
  · rw [hCast _ (by omega), hFermat, Nat.cast_one]
  obtain ⟨factor, hFactor, hDvd⟩ := (Prime.dvd_prod_iff hPrime.prime).mp hDvd
  obtain ⟨hMem, hCoprime⟩ := hFactors factor hFactor
  obtain rfl := (Nat.prime_dvd_prime_iff_eq hPrime (hKnown factor hMem)).mp hDvd
  have hUnit := (ZMod.isUnit_iff_coprime _ _).mpr hCoprime
  -- adding the predecessor of the modulus subtracts one
  rwa [Nat.cast_add, ← hCast _ (Nat.lt_of_le_of_lt (Nat.div_le_self _ _) (by omega)),
    Nat.cast_sub hOne.le, ZMod.natCast_self, zero_sub, Nat.cast_one, ← sub_eq_add_neg] at hUnit

/-- Every step rests on the numbers before it. -/
def Certified (bits : ℕ) : (known : List ℕ) → List PocklingtonStep → Prop
  | _, [] => True
  | known, step :: steps =>
    step.Holds bits known ∧ Certified bits (step.value :: known) steps

instance decidableCertified (bits : ℕ) :
    (known : List ℕ) → (steps : List PocklingtonStep) → Decidable (Certified bits known steps)
  | _, [] => .isTrue trivial
  | known, step :: steps =>
    have := decidableCertified bits (step.value :: known) steps
    inferInstanceAs (Decidable (_ ∧ _))

theorem Certified.prime {bits known} {steps : List PocklingtonStep}
    (hCertified : Certified bits known steps) (hKnown : ∀ q ∈ known, q.Prime) :
    ∀ value ∈ steps.map PocklingtonStep.value, value.Prime := by
  induction steps generalizing known with
  | nil => simp
  | cons step steps ih =>
    obtain ⟨hHolds, hRest⟩ := hCertified
    have hPrime := hHolds.prime hKnown
    refine List.forall_mem_cons.mpr ⟨hPrime, ih hRest ?_⟩
    exact List.forall_mem_cons.mpr ⟨hPrime, hKnown⟩

end RefineId.Data
