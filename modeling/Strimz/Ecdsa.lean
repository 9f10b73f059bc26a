import Mathlib.Algebra.Field.ZMod
import Mathlib.Algebra.Module.Basic
import Mathlib.Tactic.FieldSimp
import Mathlib.Tactic.Module

/-!
# ECDSA over a group of prime order

A curve is a group of prime order `n` with a generator and the affine coordinates of its points.
`Valid` is what a verifier accepts, `Recovers` the key that recovery finds for one parity of the
nonce point's ordinate. Recovery finds the key of a signature exactly when the nonce point's
abscissa is `r` itself (`recovers_iff`), not `r` up to the order, and negating `s` swaps the
parities (`recovers_neg`).
-/

namespace Strimz.Ecdsa

/-- A group of order `n` with coordinates; the two points of one abscissa are each other's negatives
and differ in the parity of their ordinates. -/
structure Curve (n : ℕ) (P : Type*) [AddCommGroup P] [Module (ZMod n) P] where
  g : P
  x : P → ℕ
  y : P → ℕ
  x_neg : ∀ p, x (-p) = x p
  y_neg : ∀ p, p ≠ 0 → y (-p) % 2 = 1 - y p % 2
  ext : ∀ p q, p ≠ 0 → q ≠ 0 → x p = x q → y p % 2 = y q % 2 → p = q

namespace Curve

variable {n : ℕ} {P : Type*} [AddCommGroup P] [Module (ZMod n) P]

/-- The point that a verifier computes from a signature. -/
def nonce (c : Curve n P) (q : P) (z r s : ℕ) : P :=
  ((z : ZMod n) * (s : ZMod n)⁻¹) • c.g + ((r : ZMod n) * (s : ZMod n)⁻¹) • q

/-- `(r, s)` is a signature of `z` by the key `q`. -/
structure Valid (c : Curve n P) (q : P) (z r s : ℕ) : Prop where
  r_range : 0 < r ∧ r < n
  s_range : 0 < s ∧ s < n
  finite : c.nonce q z r s ≠ 0
  abscissa : c.x (c.nonce q z r s) % n = r

/-- Key recovery, from the point with abscissa `r` and an ordinate of parity `v`. -/
def Recovers (c : Curve n P) (z r s v : ℕ) (q : P) : Prop :=
  ∃ p, p ≠ 0 ∧ c.x p = r ∧ c.y p % 2 = v ∧
    q = (r : ZMod n)⁻¹ • ((s : ZMod n) • p - (z : ZMod n) • c.g)

/-- The other parity gives the point at infinity. -/
def OtherInfinite (c : Curve n P) (q : P) (z r : ℕ) : Prop :=
  (r : ZMod n) • q + (2 * (z : ZMod n)) • c.g = 0

variable {c : Curve n P} {q q' : P} {z r s v : ℕ}

theorem Recovers.unique (h : c.Recovers z r s v q) (h' : c.Recovers z r s v q') : q = q' := by
  obtain ⟨p, hp, hx, hy, rfl⟩ := h
  obtain ⟨p', hp', hx', hy', rfl⟩ := h'
  rw [c.ext p p' hp hp' (hx.trans hx'.symm) (hy.trans hy'.symm)]

section Prime

variable [Fact n.Prime]

theorem cast_ne_zero {k : ℕ} (h : 0 < k ∧ k < n) : (k : ZMod n) ≠ 0 := by
  intro hzero
  have hdvd := (ZMod.natCast_eq_zero_iff k n).mp hzero
  exact Nat.not_dvd_of_pos_of_lt h.1 h.2 hdvd

theorem recovers_iff (hr : 0 < r ∧ r < n) (hs : 0 < s ∧ s < n) :
    c.Recovers z r s v q ↔
      c.nonce q z r s ≠ 0 ∧ c.x (c.nonce q z r s) = r ∧ c.y (c.nonce q z r s) % 2 = v := by
  have hr₀ := cast_ne_zero hr
  have hs₀ := cast_ne_zero hs
  constructor
  · rintro ⟨p, hp, hx, hy, rfl⟩
    have hnonce : c.nonce ((r : ZMod n)⁻¹ • ((s : ZMod n) • p - (z : ZMod n) • c.g)) z r s = p := by
      unfold nonce
      match_scalars <;> field_simp
      ring
    rw [hnonce]
    exact ⟨hp, hx, hy⟩
  · rintro ⟨hp, hx, hy⟩
    refine ⟨_, hp, hx, hy, ?_⟩
    unfold nonce
    match_scalars <;> field_simp
    ring

theorem Valid.recovers (h : c.Valid q z r s) (hx : c.x (c.nonce q z r s) < n) :
    c.Recovers z r s (c.y (c.nonce q z r s) % 2) q := by
  have habscissa := h.abscissa
  rw [Nat.mod_eq_of_lt hx] at habscissa
  exact (recovers_iff h.r_range h.s_range).mpr ⟨h.finite, habscissa, rfl⟩

theorem Recovers.valid (h : c.Recovers z r s v q) (hr : 0 < r ∧ r < n) (hs : 0 < s ∧ s < n) :
    c.Valid q z r s ∧ c.x (c.nonce q z r s) < n := by
  obtain ⟨hfinite, hx, -⟩ := (recovers_iff hr hs).mp h
  refine ⟨⟨hr, hs, hfinite, ?_⟩, ?_⟩
  · rw [hx, Nat.mod_eq_of_lt hr.2]
  · rw [hx]
    exact hr.2

theorem cast_neg (hs : s ≤ n) : ((n - s : ℕ) : ZMod n) = -(s : ZMod n) := by
  rw [Nat.cast_sub hs, ZMod.natCast_self, zero_sub]

/-- With `s` negated the nonce point is. -/
theorem nonce_neg (hs : s ≤ n) : c.nonce q z r (n - s) = -c.nonce q z r s := by
  unfold nonce
  rw [cast_neg hs, inv_neg]
  module

theorem valid_neg (h : c.Valid q z r s) : c.Valid q z r (n - s) := by
  have hs := h.s_range
  have hnonce : c.nonce q z r (n - s) = -c.nonce q z r s := nonce_neg hs.2.le
  refine ⟨h.r_range, by omega, ?_, ?_⟩
  · rw [hnonce]
    exact neg_ne_zero.mpr h.finite
  · rw [hnonce, c.x_neg]
    exact h.abscissa

/-- The key that the other parity gives. -/
theorem Recovers.other (h : c.Recovers z r s v q) (hr : 0 < r ∧ r < n) :
    c.Recovers z r s (1 - v) (-(q + (2 * (z : ZMod n) * (r : ZMod n)⁻¹) • c.g)) := by
  have hr₀ := cast_ne_zero hr
  obtain ⟨p, hp, hx, hy, rfl⟩ := h
  refine ⟨-p, neg_ne_zero.mpr hp, (c.x_neg p).trans hx, ?_, ?_⟩
  · rw [c.y_neg p hp, hy]
  · match_scalars <;> field_simp
    ring

theorem otherInfinite_iff (hr : 0 < r ∧ r < n) :
    c.OtherInfinite q z r ↔ -(q + (2 * (z : ZMod n) * (r : ZMod n)⁻¹) • c.g) = 0 := by
  have hr₀ := cast_ne_zero hr
  have hscaled : (r : ZMod n) • q + (2 * (z : ZMod n)) • c.g =
      (r : ZMod n) • (q + (2 * (z : ZMod n) * (r : ZMod n)⁻¹) • c.g) := by
    match_scalars <;> field_simp
  unfold OtherInfinite
  rw [hscaled, neg_eq_zero, smul_eq_zero_iff_right hr₀]

end Prime

end Curve

end Strimz.Ecdsa
