import Mathlib
import TizenRT.Stdlib.Strtoul

set_option autoImplicit false

/-!
The fixed-point operators of lib_fixedmath.c, which are built when CONFIG_HAVE_LONG_LONG is off,
and the `long long` macros of fixedmath.h that stand for them otherwise. A `b16_t` is an `int32_t`
and a `ub16_t` a `uint32_t`, both with 16 fraction bits; a value is kept as the integer it stores,
and `uint32_t` arithmetic is reduced modulo 2^32.
-/

namespace TizenRT.Fixedmath

def b16HALF : Nat := 0x8000
def b16MAX : Int := 0x7fffffff
def b16MIN : Int := -0x80000000
def ub16MAX : Nat := 0xffffffff

def toB16 (u : Nat) : Int := Stdlib.toSigned 32 u

namespace LongLong

/-- `ub32toub16` and the `(ub16_t)` cast: a `ub32_t` rounded to 16 fraction bits. The sum cannot
wrap for a product of two `ub16_t`. -/
def ub32toub16 (b : Nat) : Nat := (b + 0x8000) / 2 ^ 16 % 2 ^ 32

def ub16toub32 (b : Nat) : Nat := b * 2 ^ 16

def ub16mulub16 (a b : Nat) : Nat := ub32toub16 (a * b)

def ub16divub16 (a b : Nat) : Nat := ub16toub32 a / b % 2 ^ 32

end LongLong

/-- `fixsign`: the two magnitudes, as the `(ub16_t)` casts after it read them (`-b16MIN` wraps to
itself, which the cast reads as 2^31), and whether exactly one argument was negative. -/
def fixsign (a b : Int) : Nat × Nat × Bool :=
  (a.natAbs, b.natAbs, decide (a < 0) ^^ decide (b < 0))

/-- `adjustsign`: a negative result is taken for an overflow, then the sign is put back. -/
def adjustsign (result : Int) (negate : Bool) : Int :=
  if result < 0 then
    if result ≠ 0 then b16MIN else b16MAX
  else if negate then -result else result

theorem adjustsign_of_neg {result : Int} (h : result < 0) (negate : Bool) :
    adjustsign result negate = b16MIN := by
  rw [adjustsign, if_pos h, if_pos (by omega)]

/-- `ub16mulub16`: the integer and fraction halves of both factors and the partial products, where
the source takes the integer half of `m2` from `m1`. -/
def ub16mulub16 (m1 m2 : Nat) : Nat :=
  let m1i := m1 / 2 ^ 16
  let m2i := m1 / 2 ^ 16
  let m1f := m1 % 2 ^ 16
  let m2f := m2 % 2 ^ 16
  (m1i * m2i * 2 ^ 16 + m1i * m2f + m2i * m1f + (m1f * m2f + b16HALF) / 2 ^ 16) % 2 ^ 32

def b16mulb16 (m1 m2 : Int) : Int :=
  let (a, b, negate) := fixsign m1 m2
  adjustsign (toB16 (ub16mulub16 a b)) negate

/-- `ub16sqr`: the same partial products with `mi * mf` counted twice. -/
def ub16sqr (a : Nat) : Nat :=
  let mi := a / 2 ^ 16
  let mf := a % 2 ^ 16
  (mi * mi * 2 ^ 16 + mi * mf * 2 + (mf * mf + b16HALF) / 2 ^ 16) % 2 ^ 32

/-- `b16sqr`: the square of the magnitude, `b16MAX` where it reads as negative. -/
def b16sqr (a : Int) : Int :=
  let sq := toB16 (ub16sqr a.natAbs)
  if sq < 0 then b16MAX else sq

theorem exists_halves (m : Nat) : ∃ q r, m = 2 ^ 16 * q + r ∧ r < 2 ^ 16 :=
  ⟨m / 2 ^ 16, m % 2 ^ 16, (Nat.div_add_mod m _).symm, Nat.mod_lt _ (by norm_num)⟩

theorem halves_div {q r : Nat} (hr : r < 2 ^ 16) : (2 ^ 16 * q + r) / 2 ^ 16 = q := by omega

theorem halves_mod {q r : Nat} (hr : r < 2 ^ 16) : (2 ^ 16 * q + r) % 2 ^ 16 = r := by omega

theorem mul_add_half_div (m1 m2 : Nat) :
    (m1 * m2 + b16HALF) / 2 ^ 16 =
      m1 / 2 ^ 16 * (m2 / 2 ^ 16) * 2 ^ 16 + m1 / 2 ^ 16 * (m2 % 2 ^ 16) + m2 / 2 ^ 16 * (m1 % 2 ^ 16) +
        (m1 % 2 ^ 16 * (m2 % 2 ^ 16) + b16HALF) / 2 ^ 16 := by
  obtain ⟨q1, r1, rfl, hr1⟩ := exists_halves m1
  obtain ⟨q2, r2, rfl, hr2⟩ := exists_halves m2
  rw [halves_div hr1, halves_mod hr1, halves_div hr2, halves_mod hr2]
  rw [show (2 ^ 16 * q1 + r1) * (2 ^ 16 * q2 + r2) + b16HALF =
      (r1 * r2 + b16HALF) + (q1 * q2 * 2 ^ 16 + q1 * r2 + q2 * r1) * 2 ^ 16 by ring,
    Nat.add_mul_div_right _ _ (by norm_num)]
  ring

theorem ub16mulub16_add_mul (m1 m2 : Nat) :
    (ub16mulub16 m1 m2 + m2 / 2 ^ 16 * m1) % 2 ^ 32 =
      ((m1 * m2 + b16HALF) / 2 ^ 16 + m1 / 2 ^ 16 * m1) % 2 ^ 32 := by
  rw [mul_add_half_div, ub16mulub16, Nat.mod_add_mod]
  obtain ⟨q1, r1, rfl, hr1⟩ := exists_halves m1
  obtain ⟨q2, r2, rfl, hr2⟩ := exists_halves m2
  simp only [halves_div hr1, halves_mod hr1, halves_div hr2, halves_mod hr2]
  exact congrArg (· % 2 ^ 32) (by ring)

theorem ub16mulub16_of_div_eq {m1 m2 : Nat} (h : m1 / 2 ^ 16 = m2 / 2 ^ 16) :
    ub16mulub16 m1 m2 = LongLong.ub16mulub16 m1 m2 := by
  rw [LongLong.ub16mulub16, LongLong.ub32toub16, show (0x8000 : Nat) = b16HALF from rfl,
    mul_add_half_div]
  simp only [ub16mulub16, h]

/-- `ub16divub16`: the quotient of the integer half `num & 0xffff0000`, then the rest of `num`
rounded; ub16MAX where the first part has 16 bits or more, or where the sum wraps. `term1 * denom`
is at most `num`, so the subtraction cannot wrap. -/
def ub16divub16 (num denom : Nat) : Nat :=
  let term1 := num / 2 ^ 16 * 2 ^ 16 / denom
  if term1 ≥ 0x10000 then ub16MAX
  else
    let numf := num - term1 * denom
    let term1 := term1 * 2 ^ 16
    let product := (term1 + (numf + denom / 2) % 2 ^ 32 / denom) % 2 ^ 32
    if product < term1 then ub16MAX else product

def b16divb16 (num denom : Int) : Int :=
  let (a, b, negate) := fixsign num denom
  adjustsign (toB16 (ub16divub16 a b)) negate

theorem ub16divub16_lt (num denom : Nat) : ub16divub16 num denom < 2 ^ 32 := by
  simp only [ub16divub16]
  split_ifs
  · decide
  · decide
  · exact Nat.mod_lt _ (by norm_num)

theorem ub16divub16_of_lt {num denom : Nat} (hlt : num < denom) (hden : denom ≤ 2 ^ 31) :
    ub16divub16 num denom = (num + denom / 2) / denom := by
  have hz : num / 2 ^ 16 * 2 ^ 16 / denom = 0 :=
    Nat.div_eq_of_lt (lt_of_le_of_lt (Nat.div_mul_le_self num _) hlt)
  have hsum : num + denom / 2 < 2 ^ 32 := by omega
  have hq : (num + denom / 2) / denom < 2 ^ 32 := lt_of_le_of_lt (Nat.div_le_self _ _) hsum
  simp only [ub16divub16, hz, Nat.zero_mul, Nat.sub_zero, Nat.zero_add, Nat.mod_eq_of_lt hsum,
    Nat.mod_eq_of_lt hq]
  simp

theorem b16mulb16_of_overflow {m1 m2 : Int} (h : 2 ^ 31 ≤ ub16mulub16 m1.natAbs m2.natAbs) :
    b16mulb16 m1 m2 = b16MIN := by
  have hlt : ub16mulub16 m1.natAbs m2.natAbs < 2 ^ 32 := Nat.mod_lt _ (by norm_num)
  apply adjustsign_of_neg
  simp only [toB16, Stdlib.toSigned, if_neg (Nat.not_lt.mpr h)]
  omega

theorem b16divb16_of_overflow {num denom : Int} (h : 2 ^ 31 ≤ ub16divub16 num.natAbs denom.natAbs) :
    b16divb16 num denom = b16MIN := by
  have hlt := ub16divub16_lt num.natAbs denom.natAbs
  apply adjustsign_of_neg
  simp only [toB16, Stdlib.toSigned, if_neg (Nat.not_lt.mpr h)]
  omega

/-- 1.0 times 2.0 and 1.0 over 2.0 against the `long long` macros, and two positive results of
magnitude in [2^31, 2^32): 36864.0 as 192.0 squared, and 32768.0 as 16384.0 over 0.5. -/
theorem fixedmath_disagrees_with_long_long :
    ub16mulub16 0x10000 0x20000 = 0x10000 ∧ LongLong.ub16mulub16 0x10000 0x20000 = 0x20000 ∧
      ub16divub16 0x10000 0x20000 = 1 ∧ LongLong.ub16divub16 0x10000 0x20000 = 0x8000 ∧
      b16mulb16 0x10000 0x20000 = 0x10000 ∧
      b16mulb16 0xc00000 0xc00000 = b16MIN ∧ b16divb16 0x40000000 0x8000 = b16MIN := by
  have hmul : ub16mulub16 0x10000 0x20000 = 0x10000 := by
    have h := ub16mulub16_add_mul 0x10000 0x20000
    have hlt : ub16mulub16 0x10000 0x20000 < 2 ^ 32 := Nat.mod_lt _ (by norm_num)
    generalize ub16mulub16 0x10000 0x20000 = x at h hlt ⊢
    simp only [b16HALF] at h
    omega
  have hdiv : ub16divub16 0x10000 0x20000 = 1 := ub16divub16_of_lt (by norm_num) (by norm_num)
  have hsq : ub16mulub16 0xc00000 0xc00000 = LongLong.ub16mulub16 0xc00000 0xc00000 :=
    ub16mulub16_of_div_eq rfl
  have hmulover : b16mulb16 0xc00000 0xc00000 = b16MIN :=
    b16mulb16_of_overflow (by rw [show (0xc00000 : Int).natAbs = 0xc00000 from rfl, hsq]; decide)
  have hdivover : b16divb16 0x40000000 0x8000 = b16MIN := b16divb16_of_overflow (by decide)
  refine ⟨hmul, by decide, hdiv, by decide, ?_, hmulover, hdivover⟩
  simp [b16mulb16, fixsign, hmul, adjustsign, toB16, Stdlib.toSigned]

end TizenRT.Fixedmath
