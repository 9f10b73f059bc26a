import Mathlib.Tactic

/-!
# Billing periods on an anchor

Time is cut into periods of length `I` from an anchor `F`: the `k`-th one is
`[F + k * I, F + (k + 1) * I)`. A charge is a pair of the time it happened at
and the next due time it left. `Anchored F I ks cs n` says that the charges `cs`
pay for the periods `ks`, each within its period, that no period is paid for
twice, since `ks` increases, and that the `n`-th period is the next one due.

Two facts are all a billing engine needs: advancing to the period the current
time lies in keeps the property (`Anchored.append`), and no window of time holds
more than `(b - a) / I + 2` of the charges (`Anchored.count_le`).
-/

namespace Periods

variable {F I n : Nat} {ks : List Nat} {cs : List (Nat × Nat)}

/-- The charge `c` pays for the `k`-th period and leaves the next one due. -/
structure PaysFor (F I k : Nat) (c : Nat × Nat) : Prop where
  start_le : F + k * I ≤ c.1
  lt_next : c.1 < c.2
  next_eq : c.2 = F + (k + 1) * I

/-- The charges `cs` pay for the periods `ks`, in order and once each, and the
period after the last of them is due next. -/
structure Anchored (F I : Nat) (ks : List Nat) (cs : List (Nat × Nat)) (n : Nat) : Prop where
  pays : List.Forall₂ (PaysFor F I) ks cs
  increasing : ks.Pairwise (· < ·)
  below : ∀ k ∈ ks, k < n
  next_eq : n = ks.getLast?.elim 0 (· + 1)

theorem Anchored.nil (F I : Nat) : Anchored F I [] [] 0 :=
  ⟨.nil, .nil, by simp, rfl⟩

/-- Paying at time `t` for the period that `t` lies in: the due time plus as
many whole periods as have gone by. -/
theorem Anchored.append (h : Anchored F I ks cs n) (hI : 0 < I) {t : Nat}
    (ht : F + n * I ≤ t) :
    Anchored F I (ks ++ [n + (t - (F + n * I)) / I])
      (cs ++ [(t, F + n * I + (t - (F + n * I)) / I * I + I)])
      (n + (t - (F + n * I)) / I + 1) := by
  obtain ⟨q, hq⟩ : ∃ q, q = (t - (F + n * I)) / I := ⟨_, rfl⟩
  rw [← hq]
  have hle : q * I ≤ t - (F + n * I) := hq ▸ Nat.div_mul_le_self _ _
  have hlt : t - (F + n * I) < q * I + I := by
    rw [hq]
    exact Nat.lt_div_mul_add hI
  have hpays : PaysFor F I (n + q) (t, F + n * I + q * I + I) := by
    refine ⟨?_, ?_, ?_⟩
    · rw [Nat.add_mul]
      omega
    · show t < F + n * I + q * I + I
      omega
    · show F + n * I + q * I + I = F + (n + q + 1) * I
      ring
  refine ⟨List.rel_append h.pays (.cons hpays .nil), ?_, ?_, by simp⟩
  · refine List.pairwise_append.mpr ⟨h.increasing, List.pairwise_singleton _ _, ?_⟩
    intro k hk j hj
    rw [List.mem_singleton.mp hj]
    exact Nat.lt_of_lt_of_le (h.below k hk) (Nat.le_add_right n q)
  · intro k hk
    rcases List.mem_append.mp hk with hk | hk
    · exact Nat.lt_of_lt_of_le (h.below k hk) (by omega)
    · rw [List.mem_singleton.mp hk]
      exact Nat.lt_succ_self _

/-! ## Counting -/

/-- An increasing list between two bounds. -/
theorem length_le_of_increasing {lo hi : Nat} (h : ks.Pairwise (· < ·))
    (hlo : ∀ k ∈ ks, lo ≤ k) (hhi : ∀ k ∈ ks, k ≤ hi) : ks.length ≤ hi + 1 - lo := by
  induction ks generalizing lo with
  | nil => exact Nat.zero_le _
  | cons k ks ih =>
      obtain ⟨hk, hks⟩ := List.pairwise_cons.mp h
      have htail : ks.length ≤ hi + 1 - (k + 1) := ih hks (fun j hj => hk j hj)
        fun j hj => hhi j (List.mem_cons_of_mem _ hj)
      have h1 := hlo k List.mem_cons_self
      have h2 := hhi k List.mem_cons_self
      simp only [List.length_cons]
      omega

/-- The period a charge pays for is the one its time lies in. -/
theorem PaysFor.index_eq {k : Nat} {c : Nat × Nat} (h : PaysFor F I k c) (hI : 0 < I) :
    k = (c.1 - F) / I := by
  have h1 := h.start_le
  have h2 := h.lt_next
  rw [h.next_eq, Nat.add_mul, Nat.one_mul] at h2
  refine (Nat.div_eq_of_lt_le ?_ ?_).symm
  · omega
  · rw [Nat.add_mul, Nat.one_mul]
    omega

/-- The periods that the charges satisfying `p` pay for. -/
theorem exists_periods_of_filter (h : List.Forall₂ (PaysFor F I) ks cs) (p : Nat × Nat → Bool) :
    ∃ js : List Nat, js.Sublist ks ∧ js.length = (cs.filter p).length ∧
      ∀ j ∈ js, ∃ c, p c = true ∧ PaysFor F I j c := by
  induction h with
  | nil => exact ⟨[], .slnil, rfl, by simp⟩
  | @cons k c ks cs hc _ ih =>
      obtain ⟨js, hsub, hlen, hjs⟩ := ih
      by_cases hp : p c = true
      · refine ⟨k :: js, hsub.cons_cons k, ?_, ?_⟩
        · rw [List.filter_cons_of_pos hp, List.length_cons, List.length_cons, hlen]
        · exact List.forall_mem_cons.mpr ⟨⟨c, hp, hc⟩, hjs⟩
      · exact ⟨js, hsub.cons k, by rw [List.filter_cons_of_neg hp, hlen], hjs⟩

/-- At most `(b - a) / I + 2` charges happen between `a` and `b`. -/
theorem Anchored.count_le (h : Anchored F I ks cs n) (hI : 0 < I) (a b : Nat) :
    (cs.filter fun c => a ≤ c.1 ∧ c.1 ≤ b).length ≤ (b - a) / I + 2 := by
  obtain ⟨js, hsub, hlen, hjs⟩ :=
    exists_periods_of_filter h.pays fun c => decide (a ≤ c.1 ∧ c.1 ≤ b)
  rw [← hlen]
  have hwindow : ∀ j ∈ js, (a - F) / I ≤ j ∧ j ≤ (b - F) / I := by
    intro j hj
    obtain ⟨c, hc, hpays⟩ := hjs j hj
    rw [decide_eq_true_eq] at hc
    rw [hpays.index_eq hI]
    exact ⟨Nat.div_le_div_right (by omega), Nat.div_le_div_right (by omega)⟩
  have hcount := length_le_of_increasing (h.increasing.sublist hsub)
    (fun j hj => (hwindow j hj).1) fun j hj => (hwindow j hj).2
  have hspan : (b - F) / I ≤ (a - F) / I + (b - a) / I + 1 :=
    calc (b - F) / I ≤ (a - F + (b - a)) / I := Nat.div_le_div_right (by omega)
      _ ≤ (a - F) / I + (b - a) / I + 1 := Nat.add_div_le_div_add_div_add_one _ _ _
  exact hcount.trans (Nat.sub_le_of_le_add (by linarith))

end Periods
