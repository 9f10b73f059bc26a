import Mathlib.Tactic

/-!
# Binary64 numbers by their magnitudes

A finite binary64 number is a multiple of `2^-1074`, so its magnitude is a natural number of that
unit. `roundMag` rounds an exact magnitude `a / d` to the nearest such number with a 53-bit
significand, ties to even, as every operation of the format does. A magnitude that is one already
is left alone (`roundMag_of_representable`), and every rounded one is one
(`roundMag_representable`).
-/

namespace Binary64

/-- The nearest integer to `a / d`, ties to even. -/
def rne (a d : ℕ) : ℕ :=
  if 2 * (a % d) < d then a / d
  else if d < 2 * (a % d) then a / d + 1
  else if a / d % 2 = 0 then a / d
  else a / d + 1

/-- The exponent of the last bit of a significand. -/
def unitExp (y : ℕ) : ℕ := y.log2 - 52

def roundMag (a d : ℕ) : ℕ := rne a (d * 2 ^ unitExp (a / d)) * 2 ^ unitExp (a / d)

/-- `1` in the unit of magnitudes. -/
def ONE : ℕ := 2 ^ 1074

/-- Magnitudes from here on are infinite. -/
def LIMIT : ℕ := 2 ^ (1024 + 1074)

/-- A significand and an exponent. -/
def Representable (y : ℕ) : Prop := ∃ n p, n ≤ 2 ^ 53 ∧ y = n * 2 ^ p

theorem rne_le (a d : ℕ) : rne a d ≤ a / d + 1 := by
  unfold rne
  split
  · exact Nat.le_succ _
  · split
    · exact Nat.le_refl _
    · split
      · exact Nat.le_succ _
      · exact Nat.le_refl _

theorem rne_mul (n : ℕ) {d : ℕ} (hd : 0 < d) : rne (n * d) d = n := by
  rw [rne, Nat.mul_mod_left, if_pos (by omega), Nat.mul_div_cancel n hd]

theorem lt_unit (y : ℕ) : y < 2 ^ 53 * 2 ^ unitExp y := by
  rw [← pow_add]
  refine Nat.lt_of_lt_of_le Nat.lt_log2_self (Nat.pow_le_pow_right (by omega) ?_)
  rw [unitExp]
  omega

theorem roundMag_representable (a d : ℕ) : Representable (roundMag a d) := by
  refine ⟨rne a (d * 2 ^ unitExp (a / d)), unitExp (a / d), ?_, rfl⟩
  have hsmall : a / (d * 2 ^ unitExp (a / d)) < 2 ^ 53 := by
    rw [← Nat.div_div_eq_div_mul]
    exact Nat.div_lt_of_lt_mul (by rw [Nat.mul_comm]; exact lt_unit (a / d))
  exact Nat.le_trans (rne_le _ _) hsmall

/-- The last bit of a representable number is no finer than its unit. -/
theorem unit_dvd {y : ℕ} (h : Representable y) : 2 ^ unitExp y ∣ y := by
  obtain ⟨n, p, hn, rfl⟩ := h
  rcases Nat.eq_zero_or_pos n with rfl | hpos
  · rw [Nat.zero_mul]
    exact Nat.dvd_zero _
  have hne : n * 2 ^ p ≠ 0 := Nat.mul_ne_zero hpos.ne' (Nat.two_pow_pos p).ne'
  rcases Nat.lt_or_eq_of_le hn with hlt | rfl
  · have hlog : (n * 2 ^ p).log2 < 53 + p := by
      rw [Nat.log2_lt hne, pow_add]
      exact Nat.mul_lt_mul_of_pos_right hlt (Nat.two_pow_pos p)
    exact Dvd.dvd.mul_left (Nat.pow_dvd_pow 2 (by rw [unitExp]; omega)) n
  · have hlog : (2 ^ 53 * 2 ^ p).log2 < 53 + p + 1 := by
      rw [Nat.log2_lt hne, ← pow_add]
      exact Nat.pow_lt_pow_right (by omega) (Nat.lt_succ_self _)
    rw [← pow_add]
    exact Nat.pow_dvd_pow 2 (by rw [unitExp, pow_add]; omega)

/-- A representable number is its own rounding. -/
theorem roundMag_of_representable {y : ℕ} (h : Representable y) : roundMag y 1 = y := by
  obtain ⟨n, hn⟩ := unit_dvd h
  rw [roundMag, Nat.div_one, Nat.one_mul]
  have hy : y = n * 2 ^ unitExp y := by rw [Nat.mul_comm, ← hn]
  have hrne : rne y (2 ^ unitExp y) = n :=
    calc rne y (2 ^ unitExp y) = rne (n * 2 ^ unitExp y) (2 ^ unitExp y) := congrArg (rne · _) hy
      _ = n := rne_mul n (Nat.two_pow_pos _)
  rw [hrne, ← hy]

theorem roundMag_roundMag (a d : ℕ) : roundMag (roundMag a d) 1 = roundMag a d :=
  roundMag_of_representable (roundMag_representable a d)

/-- Integers of up to 53 bits are represented. -/
theorem representable_mul_one {n : ℕ} (h : n ≤ 2 ^ 53) : Representable (n * ONE) :=
  ⟨n, 1074, h, rfl⟩

/-! ## Numbers -/

/-- A number; `finite` counts units of `2^-1074`. The sign of a zero is left out. -/
inductive Number where
  | nan
  | infinite (negative : Bool)
  | finite (units : ℤ)
deriving Repr, DecidableEq

namespace Number

/-- The number of a rounded magnitude. -/
def ofMag (negative : Bool) (y : ℕ) : Number :=
  if LIMIT ≤ y then infinite negative
  else finite (if negative = true then -(y : ℤ) else y)

/-- The number nearest to `a / d`. -/
def ofRatio (negative : Bool) (a d : ℕ) : Number := ofMag negative (roundMag (a * ONE) d)

def sub : Number → Number → Number
  | finite a, finite b => ofMag (decide (a < b)) (roundMag (a - b).natAbs 1)
  | infinite s, infinite s' => if s = s' then nan else infinite s
  | infinite s, finite _ => infinite s
  | finite _, infinite s => infinite (!s)
  | nan, _ => nan
  | _, nan => nan

def abs : Number → Number
  | nan => nan
  | infinite _ => infinite false
  | finite a => finite |a|

/-- `a > b`; nothing is greater than a `nan`, and a `nan` than nothing. -/
def gt : Number → Number → Bool
  | finite a, finite b => decide (b < a)
  | finite _, infinite s => s
  | infinite s, finite _ => !s
  | infinite s, infinite s' => !s && s'
  | nan, _ => false
  | _, nan => false

/-- The integer a number is, if it is one. -/
def toInt? : Number → Option ℤ
  | finite a => if a % ONE = 0 then some (a / ONE) else none
  | _ => none

/-- The number that the integer `n` is, where it is one. -/
def ofInt (n : ℤ) : Number := finite (n * ONE)

end Number

/-- `n` is a number exactly. -/
def IsNumber (n : ℤ) : Prop :=
  roundMag (n.natAbs * ONE) 1 = n.natAbs * ONE ∧ n.natAbs * ONE < LIMIT

instance (n : ℤ) : Decidable (IsNumber n) := inferInstanceAs (Decidable (_ ∧ _))

theorem ONE_pos : 0 < ONE := by
  unfold ONE
  positivity

theorem LIMIT_pos : 0 < LIMIT := by
  unfold LIMIT
  positivity

theorem isNumber_zero : IsNumber 0 := by
  refine ⟨roundMag_of_representable ⟨0, 0, Nat.zero_le _, by simp⟩, ?_⟩
  rw [Int.natAbs_zero, Nat.zero_mul]
  exact LIMIT_pos

theorem toInt?_ofInt (n : ℤ) : (Number.ofInt n).toInt? = some n := by
  have hpos : (ONE : ℤ) ≠ 0 := by exact_mod_cast ONE_pos.ne'
  rw [Number.ofInt, Number.toInt?, Int.mul_emod_left, if_pos rfl, Int.mul_ediv_cancel n hpos]

theorem toInt?_eq_some {x : Number} {n : ℤ} (h : x.toInt? = some n) : x = Number.ofInt n := by
  cases x with
  | nan => cases h
  | infinite s => cases h
  | finite a =>
      rw [Number.toInt?] at h
      split at h
      · rename_i hmod
        rw [Number.ofInt, ← Option.some.inj h, Int.ediv_mul_cancel (Int.dvd_of_emod_eq_zero hmod)]
      · cases h

/-- The nearest number to an integer that is one. -/
theorem ofRatio_of_isNumber {negative : Bool} {a : ℕ} {n : ℤ} (hn : IsNumber n)
    (hround : roundMag (a * ONE) 1 = n.natAbs * ONE)
    (hsign : n = if negative = true then -(n.natAbs : ℤ) else n.natAbs) :
    Number.ofRatio negative a 1 = Number.ofInt n := by
  rw [Number.ofRatio, Number.ofMag, hround, if_neg (Nat.not_le.mpr hn.2), Number.ofInt]
  congr 1
  cases negative with
  | false =>
      rw [if_neg (by decide)] at hsign ⊢
      conv_rhs => rw [hsign]
      push_cast
      rfl
  | true =>
      rw [if_pos rfl] at hsign ⊢
      conv_rhs => rw [hsign]
      push_cast
      ring

/-- An integer that was read as a number is one. -/
theorem isNumber_of_ofRatio {negative : Bool} {a d : ℕ} {n : ℤ}
    (h : (Number.ofRatio negative a d).toInt? = some n) : IsNumber n := by
  have hnum := toInt?_eq_some h
  rw [Number.ofRatio, Number.ofMag] at hnum
  split at hnum
  · cases hnum
  · rename_i hlimit
    have habs : n.natAbs * ONE = roundMag (a * ONE) d := by
      have hunits := Number.finite.inj hnum
      have hcast := congrArg Int.natAbs hunits
      rw [Int.natAbs_mul, Int.natAbs_natCast] at hcast
      rw [← hcast]
      split
      · rw [Int.natAbs_neg, Int.natAbs_natCast]
      · rw [Int.natAbs_natCast]
    exact ⟨by rw [habs, roundMag_roundMag], by rw [habs]; exact Nat.not_le.mp hlimit⟩

end Binary64
