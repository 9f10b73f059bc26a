import Mathlib.Algebra.Module.ZMod
import Mathlib.AlgebraicGeometry.EllipticCurve.Affine.Point
import Mathlib.FieldTheory.Finite.Basic
import Mathlib.GroupTheory.Perm.Cycle.Type
import Strimz.Ecdsa
import Strimz.Primality

/-!
# The curve secp256k1

`y² = x³ + 7` over the field of `p` elements, with its generator. Its group has the prime order
`n` (`card_point`): `n` kills the generator, by a ladder that the kernel evaluates, so it divides
the order of the group; that is odd, as no point has the ordinate 0, and at most `2 p + 1`. So the
points are a curve in the sense of `Ecdsa.Curve`.
-/

namespace Strimz.Secp256k1

open WeierstrassCurve.Affine Primality

/-! ## The two primes -/

def p : ℕ := 0xfffffffffffffffffffffffffffffffffffffffffffffffffffffffefffffc2f

def n : ℕ := 0xfffffffffffffffffffffffffffffffebaaedce6af48a03bbfd25e8cd0364141

def pCertificate : List Entry :=
  [⟨13331831, 13, [(2, 1), (5, 1), (971, 1), (1373, 1)]⟩,
   ⟨173378833005251801, 6, [(2, 3), (5, 2), (2621, 1), (24809, 1), (13331831, 1)]⟩,
   ⟨22149492674086928081353, 5, [(2, 3), (3, 1), (5323, 1), (173378833005251801, 1)]⟩,
   ⟨132896956044521568488119, 6, [(2, 1), (3, 1), (22149492674086928081353, 1)]⟩,
   ⟨96557, 2, [(2, 2), (101, 1), (239, 1)]⟩,
   ⟨1206781, 10, [(2, 2), (3, 1), (5, 1), (20113, 1)]⟩,
   ⟨7240687, 3, [(2, 1), (3, 1), (1206781, 1)]⟩,
   ⟨107590001, 3, [(2, 4), (5, 4), (7, 1), (29, 1), (53, 1)]⟩,
   ⟨255515944373312847190720520512484175977, 3, [(2, 3), (7, 2), (11, 1), (1627, 1), (2657, 1),
     (4423, 1), (41201, 1), (96557, 1), (7240687, 1), (107590001, 1)]⟩,
   ⟨205115282021455665897114700593932402728804164701536103180137503955397371, 10, [(2, 1),
     (3, 1), (5, 1), (29, 2), (31, 1), (7723, 1), (132896956044521568488119, 1),
     (255515944373312847190720520512484175977, 1)]⟩,
   ⟨115792089237316195423570985008687907853269984665640564039457584007908834671663, 3, [(2, 1),
     (3, 1), (7, 1), (13441, 1),
     (205115282021455665897114700593932402728804164701536103180137503955397371, 1)]⟩]

def nCertificate : List Entry :=
  [⟨85831, 3, [(2, 1), (3, 1), (5, 1), (2861, 1)]⟩,
   ⟨4681609, 23, [(2, 3), (3, 1), (97, 1), (2011, 1)]⟩,
   ⟨107361793816595537, 3, [(2, 4), (16699, 1), (85831, 1), (4681609, 1)]⟩,
   ⟨120233, 3, [(2, 3), (7, 1), (19, 1), (113, 1)]⟩,
   ⟨44706919, 6, [(2, 1), (3, 1), (797, 1), (9349, 1)]⟩,
   ⟨174723607534414371449, 3, [(2, 3), (17, 1), (59, 1), (4051, 1), (120233, 1), (44706919, 1)]⟩,
   ⟨305873, 3, [(2, 4), (7, 1), (2731, 1)]⟩,
   ⟨545358713, 5, [(2, 3), (41, 1), (59, 1), (28181, 1)]⟩,
   ⟨1627771, 3, [(2, 1), (3, 1), (5, 1), (29, 1), (1871, 1)]⟩,
   ⟨297159362677, 2, [(2, 2), (3, 2), (11, 1), (461, 1), (1627771, 1)]⟩,
   ⟨29047611873442575647497758179, 2, [(2, 1), (293, 1), (305873, 1), (545358713, 1),
     (297159362677, 1)]⟩,
   ⟨341948486974166000522343609283189, 2, [(2, 2), (3, 3), (109, 1),
     (29047611873442575647497758179, 1)]⟩,
   ⟨115792089237316195423570985008687907852837564279074904382605163141518161494337, 7, [(2, 6),
     (3, 1), (149, 1), (631, 1), (107361793816595537, 1), (174723607534414371449, 1),
     (341948486974166000522343609283189, 1)]⟩]

theorem certified_of_mem {es : List Entry} (h : check [] es = true) {q : ℕ}
    (hq : q ∈ es.map Entry.p) : q.Prime := by
  obtain ⟨e, he, rfl⟩ := List.mem_map.mp hq
  exact certified_prime (fun q hq => absurd hq List.not_mem_nil) h he

theorem prime_p : p.Prime :=
  certified_of_mem (show check [] pCertificate = true by decide +kernel) (by decide +kernel)

theorem prime_n : n.Prime :=
  certified_of_mem (show check [] nCertificate = true by decide +kernel) (by decide +kernel)

instance : Fact p.Prime := ⟨prime_p⟩

instance : Fact n.Prime := ⟨prime_n⟩

/-! ## The points -/

def curve : WeierstrassCurve.Affine (ZMod p) := ⟨0, 0, 0, 0, 7⟩

abbrev Point := curve.Point

theorem equation_iff {x y : ZMod p} : curve.Equation x y ↔ y ^ 2 = x ^ 3 + 7 := by
  rw [WeierstrassCurve.Affine.equation_iff]
  simp [curve]

theorem negY_eq (x y : ZMod p) : curve.negY x y = -y := by
  simp [negY, curve]

theorem addX_eq (x₁ x₂ l : ZMod p) : curve.addX x₁ x₂ l = l ^ 2 - x₁ - x₂ := by
  simp [addX, curve]

theorem addY_eq (x₁ x₂ y₁ l : ZMod p) :
    curve.addY x₁ x₂ y₁ l = l * (x₁ - curve.addX x₁ x₂ l) - y₁ := by
  rw [addY, negY_eq, negAddY]
  ring

theorem two_ne_zero : (2 : ZMod p) ≠ 0 := by
  have hcast := Ecdsa.Curve.cast_ne_zero (n := p) (k := 2) (by decide)
  exact_mod_cast hcast

/-- `-7` is no cube. -/
theorem y_ne_zero {x y : ZMod p} (h : curve.Equation x y) : y ≠ 0 := by
  rintro rfl
  rw [equation_iff] at h
  have hcube : x ^ 3 = ((p - 7 : ℕ) : ZMod p) := by
    rw [Nat.cast_sub (by decide), ZMod.natCast_self]
    push_cast
    linear_combination -h
  have hx : x ≠ 0 := by
    rintro rfl
    have hseven := Ecdsa.Curve.cast_ne_zero (n := p) (k := p - 7) (by decide)
    exact hseven (by rw [← hcube]; ring)
  have hpower : (((p - 7 : ℕ) : ZMod p)) ^ ((p - 1) / 3) = 1 := by
    rw [← hcube, ← pow_mul, show 3 * ((p - 1) / 3) = p - 1 by decide +kernel]
    exact ZMod.pow_card_sub_one_eq_one hx
  rw [cast_pow_eq_one (by decide), ← powMod_eq (show (p - 1) / 3 < 2 ^ 256 by decide +kernel)]
    at hpower
  have hne : powMod p 256 (p - 7) ((p - 1) / 3) ≠ 1 := by decide +kernel
  exact hne hpower

theorem ne_neg_of_ne_zero {y : ZMod p} (h : y ≠ 0) : y ≠ -y := by
  intro heq
  have hdouble : 2 * y = 0 := by linear_combination heq
  rcases mul_eq_zero.mp hdouble with h2 | hy
  · exact two_ne_zero h2
  · exact h hy

theorem nonsingular_iff {x y : ZMod p} : curve.Nonsingular x y ↔ y ^ 2 = x ^ 3 + 7 := by
  rw [WeierstrassCurve.Affine.nonsingular_iff, equation_iff]
  refine ⟨fun h => h.1, fun h => ⟨h, .inr ?_⟩⟩
  have hy : y ≠ 0 := y_ne_zero (equation_iff.mpr h)
  simpa [curve] using ne_neg_of_ne_zero hy

/-- The generator. -/
def gx : ℕ := 0x79be667ef9dcbbac55a06295ce870b07029bfcdb2dce28d959f2815b16f81798

def gy : ℕ := 0x483ada7726a3c4655da4fbfc0e1108a8fd17b448a68554199c47d08ffb10d4b8

/-- An equation of the curve, from its coordinates as numbers. -/
theorem nonsingular_of_mod {x y : ℕ} (h : y ^ 2 % p = (x ^ 3 + 7) % p) :
    curve.Nonsingular (x : ZMod p) (y : ZMod p) := by
  rw [nonsingular_iff]
  have hcast := (ZMod.natCast_eq_natCast_iff' (y ^ 2) (x ^ 3 + 7) p).mpr h
  push_cast at hcast
  exact hcast

def G : Point := .some gx gy (nonsingular_of_mod (by decide +kernel))

/-! ## A ladder -/

def mul (a b : ℕ) : ℕ := a * b % p

def sub (a b : ℕ) : ℕ := (a + (p - b % p)) % p

/-- Jacobian coordinates. -/
structure Triple where
  x : ℕ
  y : ℕ
  z : ℕ
deriving DecidableEq

/-- The triple stands for the point. -/
def Represents (t : Triple) (q : Point) : Prop :=
  ∃ x y h, q = .some x y h ∧ (t.z : ZMod p) ≠ 0 ∧ (t.x : ZMod p) = x * t.z ^ 2 ∧
    (t.y : ZMod p) = y * t.z ^ 3

def double (t : Triple) : Triple :=
  let s := 4 * mul t.x (mul t.y t.y)
  let m := 3 * mul t.x t.x
  let x := sub (mul m m) (2 * s)
  ⟨x, sub (mul m (sub s x)) (8 * mul (mul t.y t.y) (mul t.y t.y)), mul (2 * t.y) t.z⟩

/-- The sum with the generator. -/
def addG (t : Triple) : Triple :=
  let zz := mul t.z t.z
  let h := sub (mul gx zz) t.x
  let r := sub (mul gy (mul zz t.z)) t.y
  let hh := mul h h
  let x := sub (sub (mul r r) (mul hh h)) (2 * mul t.x hh)
  ⟨x, sub (mul r (sub (mul t.x hh) x)) (mul t.y (mul hh h)), mul h t.z⟩

theorem cast_mul (a b : ℕ) : ((mul a b : ℕ) : ZMod p) = a * b := by
  rw [mul, ZMod.natCast_mod, Nat.cast_mul]

theorem cast_sub (a b : ℕ) : ((sub a b : ℕ) : ZMod p) = a - b := by
  have hle : b % p ≤ p := (Nat.mod_lt b (by decide)).le
  rw [sub, ZMod.natCast_mod, Nat.cast_add, Nat.cast_sub hle, ZMod.natCast_self, ZMod.natCast_mod]
  ring

theorem Represents.double {t : Triple} {q : Point} (h : Represents t q) :
    Represents (double t) (2 • q) := by
  obtain ⟨x, y, hxy, rfl, hz, htx, hty⟩ := h
  have hy : y ≠ 0 := y_ne_zero hxy.1
  have hne : y ≠ curve.negY x y := by
    rw [negY_eq]
    exact ne_neg_of_ne_zero hy
  have hslope : curve.slope x x y y * (2 * y) = 3 * x ^ 2 := by
    rw [slope_of_Y_ne rfl hne, negY_eq, sub_neg_eq_add, ← two_mul,
      div_mul_cancel₀ _ (mul_ne_zero two_ne_zero hy)]
    simp [curve]
  rw [two_nsmul, Point.add_self_of_Y_ne hne]
  refine ⟨_, _, _, rfl, ?_, ?_, ?_⟩
  · simp only [Secp256k1.double, cast_mul, Nat.cast_mul, Nat.cast_ofNat, hty]
    exact mul_ne_zero (mul_ne_zero two_ne_zero (mul_ne_zero hy (pow_ne_zero 3 hz))) hz
  · rw [addX_eq]
    generalize curve.slope x x y y = l at hslope
    simp only [Secp256k1.double, cast_mul, cast_sub, Nat.cast_mul, Nat.cast_ofNat, htx, hty]
    linear_combination -(t.z : ZMod p) ^ 8 * (l * (2 * y) + 3 * x ^ 2) * hslope
  · rw [addY_eq, addX_eq]
    generalize curve.slope x x y y = l at hslope
    simp only [Secp256k1.double, cast_mul, cast_sub, Nat.cast_mul, Nat.cast_ofNat, htx, hty]
    linear_combination -(t.z : ZMod p) ^ 12 * (4 * y ^ 2 * (x - (l ^ 2 - x - x)) -
      3 * x ^ 2 * (l * (2 * y) + 3 * x ^ 2)) * hslope

theorem Represents.addG {t : Triple} {q : Point} (h : Represents t q)
    (hz' : ((addG t).z : ZMod p) ≠ 0) : Represents (addG t) (q + G) := by
  obtain ⟨x, y, hxy, rfl, hz, htx, hty⟩ := h
  have hh : (Secp256k1.addG t).z = mul (sub (mul gx (mul t.z t.z)) t.x) t.z := rfl
  have hne : x ≠ gx := by
    rintro rfl
    refine hz' ?_
    rw [hh, cast_mul, cast_sub, cast_mul, cast_mul, htx]
    ring
  have hslope : curve.slope x gx y gy * (x - gx) = y - gy := by
    rw [slope_of_X_ne hne, div_mul_cancel₀ _ (sub_ne_zero.mpr hne)]
  rw [G, Point.add_of_X_ne hne]
  refine ⟨_, _, _, rfl, hz', ?_, ?_⟩
  · rw [addX_eq]
    generalize curve.slope x gx y gy = l at hslope
    simp only [Secp256k1.addG, cast_mul, cast_sub, Nat.cast_mul, Nat.cast_ofNat, htx, hty]
    generalize (gx : ZMod p) = x' at hslope
    generalize (gy : ZMod p) = y' at hslope
    linear_combination -(t.z : ZMod p) ^ 6 * (l * (x - x') + (y - y')) * hslope
  · rw [addY_eq, addX_eq]
    generalize curve.slope x gx y gy = l at hslope
    simp only [Secp256k1.addG, cast_mul, cast_sub, Nat.cast_mul, Nat.cast_ofNat, htx, hty]
    generalize (gx : ZMod p) = x' at hslope
    generalize (gy : ZMod p) = y' at hslope
    linear_combination (t.z : ZMod p) ^ 9 * ((x - x') ^ 2 * (2 * x + x') -
      ((l * (x - x')) ^ 2 + l * (x - x') * (y - y') + (y - y') ^ 2)) * hslope

/-- Double and add, from the highest bit on; `none` where a sum is degenerate. -/
def ladder : List Bool → Triple → Option Triple
  | [], t => some t
  | false :: bits, t => ladder bits (double t)
  | true :: bits, t =>
      let t' := addG (double t)
      if t'.z % p = 0 then none else ladder bits t'

def valueOf (bits : List Bool) (k : ℕ) : ℕ := bits.foldl (fun k b => 2 * k + b.toNat) k

theorem ladder_represents {bits : List Bool} {t t' : Triple} {k : ℕ} (h : Represents t (k • G))
    (hladder : ladder bits t = some t') : Represents t' (valueOf bits k • G) := by
  induction bits generalizing t k with
  | nil =>
      obtain rfl := Option.some.inj hladder
      exact h
  | cons b bits ih =>
      have hdouble : Represents (Secp256k1.double t) ((2 * k) • G) := by
        rw [mul_nsmul']
        exact h.double
      cases b with
      | false => exact ih hdouble hladder
      | true =>
          unfold ladder at hladder
          dsimp only at hladder
          split at hladder
          · cases hladder
          · rename_i hz
            have hcast : ((addG (Secp256k1.double t)).z : ZMod p) ≠ 0 := by
              rw [ne_eq, ZMod.natCast_eq_zero_iff]
              exact fun hdvd => hz (Nat.mod_eq_zero_of_dvd hdvd)
            have hadd := hdouble.addG hcast
            rw [← succ_nsmul] at hadd
            exact ih hadd hladder

/-- The bits of `n - 1` after the first. -/
def bits : List Bool := (List.range 255).map fun i => (n - 1).testBit (254 - i)

theorem valueOf_bits : valueOf bits 1 = n - 1 := by decide +kernel

theorem represents_G : Represents ⟨gx, gy, 1⟩ (1 • G) :=
  ⟨gx, gy, _, one_nsmul G, by simp, by simp, by simp⟩

/-- The ladder ends at the generator's negative. -/
theorem nsmul_G : n • G = 0 := by
  have hrun : ∃ t, ladder bits ⟨gx, gy, 1⟩ = some t ∧ t.x % p = gx * t.z ^ 2 % p ∧
      (t.y + gy * t.z ^ 3) % p = 0 := by
    refine ⟨(ladder bits ⟨gx, gy, 1⟩).getD ⟨0, 0, 0⟩, ?_⟩
    decide +kernel
  obtain ⟨t, hladder, htx, hty⟩ := hrun
  have ht := ladder_represents represents_G hladder
  rw [valueOf_bits] at ht
  obtain ⟨x, y, hxy, hq, hz, hx, hy⟩ := ht
  have hgx : x = gx := by
    have hcast := (ZMod.natCast_eq_natCast_iff' _ _ p).mpr htx
    push_cast at hcast
    rw [hx] at hcast
    exact mul_right_cancel₀ (pow_ne_zero 2 hz) hcast
  have hgy : y = -gy := by
    have hcast : ((t.y + gy * t.z ^ 3 : ℕ) : ZMod p) = 0 :=
      (ZMod.natCast_eq_zero_iff _ _).mpr (Nat.dvd_of_mod_eq_zero hty)
    push_cast at hcast
    rw [hy, ← add_mul] at hcast
    rcases mul_eq_zero.mp hcast with hsum | hzero
    · exact eq_neg_of_add_eq_zero_left hsum
    · exact absurd hzero (pow_ne_zero 3 hz)
  have hneg : (n - 1) • G = -G := by
    subst hgx hgy
    rw [hq, G, Point.neg_some]
    simp only [negY_eq]
  calc n • G = (n - 1 + 1) • G := by rw [Nat.sub_add_cancel (by decide)]
    _ = (n - 1) • G + G := succ_nsmul G (n - 1)
    _ = 0 := by rw [hneg, neg_add_cancel]

/-! ## The order of the group -/

theorem val_neg {y : ZMod p} (h : y ≠ 0) : (-y).val % 2 = 1 - y.val % 2 := by
  have hlt := y.val_lt
  have hodd : p % 2 = 1 := by decide
  have hne : y.val ≠ 0 := (ZMod.val_ne_zero y).mpr h
  rw [ZMod.neg_val, if_neg h]
  omega

def xOf : Point → ℕ
  | .zero => 0
  | .some x _ _ => x.val

def yOf : Point → ℕ
  | .zero => 0
  | .some _ y _ => y.val

/-- A point other than infinity is known from its abscissa and the parity of its ordinate. -/
theorem point_ext {a b : Point} (ha : a ≠ 0) (hb : b ≠ 0) (hx : xOf a = xOf b)
    (hy : yOf a % 2 = yOf b % 2) : a = b := by
  cases a with
  | zero => exact absurd rfl ha
  | some x y h =>
      cases b with
      | zero => exact absurd rfl hb
      | some x' y' h' =>
          obtain rfl : x = x' := ZMod.val_injective p hx
          rcases Point.X_eq_iff.mp (rfl : x = x) with heq | hneg
          · exact heq
          · exfalso
            rw [Point.neg_some, Point.some.injEq, negY_eq] at hneg
            have hpar := val_neg (y_ne_zero h'.1)
            rw [← hneg.2] at hpar
            have hy : y.val % 2 = y'.val % 2 := hy
            omega

/-- The abscissa and the parity. -/
def key : Point → Option (ZMod p × Bool)
  | .zero => none
  | .some x y _ => some (x, y.val % 2 = 1)

theorem key_injective : Function.Injective key := by
  intro a b h
  cases a with
  | zero =>
      cases b with
      | zero => rfl
      | some x' y' h' => cases h
  | some x y hxy =>
      cases b with
      | zero => cases h
      | some x' y' hxy' =>
          obtain ⟨rfl, hpar⟩ := Prod.mk.inj (Option.some.inj h)
          refine point_ext (Point.some_ne_zero hxy) (Point.some_ne_zero hxy') rfl ?_
          have hiff := decide_eq_decide.mp hpar
          show y.val % 2 = y'.val % 2
          omega

instance : Finite Point := Finite.of_injective key key_injective

theorem card_le : Nat.card Point ≤ 2 * p + 1 := by
  have hle := Nat.card_le_card_of_injective key key_injective
  have hbool : Nat.card Bool = 2 := by rw [Nat.card_eq_fintype_card, Fintype.card_bool]
  rwa [Finite.card_option, Nat.card_prod, Nat.card_zmod, hbool, mul_comm] at hle

theorem G_ne_zero : G ≠ 0 := Point.some_ne_zero _

theorem n_dvd_card : n ∣ Nat.card Point := by
  rw [← addOrderOf_eq_prime nsmul_G G_ne_zero]
  exact addOrderOf_dvd_natCard G

theorem not_two_dvd_card : ¬ 2 ∣ Nat.card Point := by
  intro hdvd
  obtain ⟨q, hq⟩ := exists_prime_addOrderOf_dvd_card' 2 hdvd
  have hdouble : 2 • q = 0 := hq ▸ addOrderOf_nsmul_eq_zero q
  cases q with
  | zero =>
      rw [show (Point.zero : Point) = 0 from rfl, addOrderOf_zero] at hq
      cases hq
  | some x y h =>
      have hy : y ≠ 0 := y_ne_zero h.1
      have hne : y ≠ curve.negY x y := by
        rw [negY_eq]
        exact ne_neg_of_ne_zero hy
      rw [two_nsmul, Point.add_self_of_Y_ne hne] at hdouble
      exact Point.some_ne_zero _ hdouble

theorem card_point : Nat.card Point = n := by
  obtain ⟨k, hk⟩ := n_dvd_card
  have hle := card_le
  have hodd := not_two_dvd_card
  have hbound : 2 * p + 1 < 3 * n := by decide
  have hpos : 0 < Nat.card Point := Nat.card_pos
  have hk3 : k < 3 := by
    by_contra hlarge
    have hmul : n * 3 ≤ n * k := Nat.mul_le_mul_left n (by omega)
    omega
  interval_cases k
  · omega
  · omega
  · exact absurd ⟨n, by omega⟩ hodd

theorem nsmul_eq_zero (q : Point) : n • q = 0 := by
  rw [← card_point]
  exact card_nsmul_eq_zero'

instance : Module (ZMod n) Point := AddCommGroup.zmodModule nsmul_eq_zero

/-- The points as a curve. -/
def points : Ecdsa.Curve n Point where
  g := G
  x := xOf
  y := yOf
  x_neg := fun q => by cases q <;> rfl
  y_neg := fun q hq => by
    cases q with
    | zero => exact absurd rfl hq
    | some x y h =>
        have hneg : yOf (-Point.some x y h) = (-y).val := by
          rw [Point.neg_some, yOf, negY_eq]
        rw [hneg]
        exact val_neg (y_ne_zero h.1)
  ext := fun _ _ hp hq hx hy => point_ext hp hq hx hy

end Strimz.Secp256k1
