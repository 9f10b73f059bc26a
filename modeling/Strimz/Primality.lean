import Mathlib.NumberTheory.LucasPrimality
import Mathlib.Data.Nat.Prime.Basic

/-!
# Certified primes

Lucas's criterion as a check that the kernel evaluates. A certificate lists numbers with a
generator of their units and the factors of their predecessor; each factor is small, and then
tried against every divisor, or certified before (`certified_prime`).
-/

namespace Strimz.Primality

/-! ## Powers -/

/-- `a ^ e % m` by repeated squaring, for exponents below `2 ^ bits`. -/
def powMod (m : ℕ) : ℕ → ℕ → ℕ → ℕ
  | 0, _, _ => 1 % m
  | bits + 1, a, e =>
      let square := powMod m bits (a * a % m) (e / 2)
      if e % 2 = 0 then square else a * square % m

theorem powMod_eq {m bits a e : ℕ} (h : e < 2 ^ bits) : powMod m bits a e = a ^ e % m := by
  induction bits generalizing a e with
  | zero =>
      obtain rfl : e = 0 := by
        rw [pow_zero] at h
        omega
      rw [pow_zero]
      rfl
  | succ bits ih =>
      have hhalf : e / 2 < 2 ^ bits := by
        rw [pow_succ] at h
        omega
      have hsquare : powMod m bits (a * a % m) (e / 2) = a ^ (2 * (e / 2)) % m := by
        rw [ih hhalf, pow_mul, ← Nat.pow_mod, pow_two]
      unfold powMod
      dsimp only
      rw [hsquare]
      split
      · rw [show 2 * (e / 2) = e by omega]
      · rw [Nat.mul_mod_mod, ← pow_succ', show 2 * (e / 2) + 1 = e by omega]

/-! ## Small primes -/

/-- No number below 256 divides `q` but 1 and `q`. -/
def isSmallPrime (q : ℕ) : Bool :=
  2 ≤ q && q < 65536 && (List.range 256).all fun m => m < 2 || q ≤ m || q % m != 0

theorem prime_of_small {q : ℕ} (h : isSmallPrime q = true) : q.Prime := by
  simp only [isSmallPrime, Bool.and_eq_true, Bool.or_eq_true, decide_eq_true_eq,
    List.all_eq_true, List.mem_range, bne_iff_ne] at h
  obtain ⟨⟨htwo, hbound⟩, htried⟩ := h
  refine Nat.prime_def_le_sqrt.mpr ⟨htwo, fun m hm hsqrt hdvd => ?_⟩
  have hsq : m * m ≤ q := Nat.le_sqrt.mp hsqrt
  have hsmall : m < 256 := by
    by_contra hlarge
    have hmul : 256 * 256 ≤ m * m := Nat.mul_le_mul (by omega) (by omega)
    omega
  have hlt : m < q := by
    have hdouble : m * 2 ≤ m * m := Nat.mul_le_mul_left m hm
    omega
  rcases htried m hsmall with (hone | hge) | hrest
  · omega
  · omega
  · exact hrest (Nat.mod_eq_zero_of_dvd hdvd)

/-! ## Certificates -/

structure Entry where
  p : ℕ
  generator : ℕ
  /-- The prime factors of `p - 1` and their exponents. -/
  factors : List (ℕ × ℕ)

def Entry.check (e : Entry) (certified : List ℕ) : Bool :=
  2 ≤ e.p && e.p ≤ 2 ^ 256 && (e.factors.map fun f => f.1 ^ f.2).prod == e.p - 1 &&
    powMod e.p 256 e.generator (e.p - 1) == 1 &&
    e.factors.all fun f => (isSmallPrime f.1 || certified.contains f.1) &&
      powMod e.p 256 e.generator ((e.p - 1) / f.1) != 1

def check : List ℕ → List Entry → Bool
  | _, [] => true
  | certified, e :: rest => e.check certified && check (e.p :: certified) rest

theorem cast_pow_eq_one {p : ℕ} (hp : 2 ≤ p) (a e : ℕ) :
    (a : ZMod p) ^ e = 1 ↔ a ^ e % p = 1 := by
  have hone : 1 % p = 1 := Nat.mod_eq_of_lt hp
  rw [← Nat.cast_pow, ← Nat.cast_one , ZMod.natCast_eq_natCast_iff', hone]

theorem Entry.prime {e : Entry} {certified : List ℕ} (hcertified : ∀ q ∈ certified, q.Prime)
    (h : e.check certified = true) : e.p.Prime := by
  simp only [Entry.check, Bool.and_eq_true, Bool.or_eq_true, decide_eq_true_eq, beq_iff_eq,
    bne_iff_ne, List.all_eq_true, List.contains_iff_mem] at h
  obtain ⟨⟨⟨⟨htwo, hbound⟩, hproduct⟩, horder⟩, hfactors⟩ := h
  have hlt : ∀ e' ≤ e.p - 1, e' < 2 ^ 256 := fun e' he' => by omega
  refine lucas_primality e.p e.generator ?_ fun q hq hdvd => ?_
  · rwa [cast_pow_eq_one htwo, ← powMod_eq (hlt _ le_rfl)]
  · rw [← hproduct] at hdvd
    obtain ⟨_, hmem, hdvd⟩ := (Prime.dvd_prod_iff hq.prime).mp hdvd
    obtain ⟨f, hf, rfl⟩ := List.mem_map.mp hmem
    obtain ⟨hprime, hpower⟩ := hfactors f hf
    have hfprime : f.1.Prime := by
      rcases hprime with hsmall | hmem
      · exact prime_of_small hsmall
      · exact hcertified f.1 hmem
    obtain rfl := (Nat.prime_dvd_prime_iff_eq hq hfprime).mp (hq.dvd_of_dvd_pow hdvd)
    rw [ne_eq, cast_pow_eq_one htwo, ← powMod_eq (hlt _ (Nat.div_le_self _ _))]
    exact hpower

/-- What a checked certificate lists is prime. -/
theorem certified_prime {certified : List ℕ} {es : List Entry}
    (hcertified : ∀ q ∈ certified, q.Prime) (h : check certified es = true) {e : Entry}
    (he : e ∈ es) : e.p.Prime := by
  induction es generalizing certified with
  | nil => cases he
  | cons e' es ih =>
      rw [check, Bool.and_eq_true] at h
      have hprime := Entry.prime hcertified h.1
      rcases List.mem_cons.mp he with rfl | he
      · exact hprime
      · refine ih (fun q hq => ?_) h.2 he
        rcases List.mem_cons.mp hq with rfl | hq
        · exact hprime
        · exact hcertified q hq

end Strimz.Primality
