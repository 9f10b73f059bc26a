import Mathlib.Tactic

/-!
# Runs of a labelled machine

A machine is a total step function `step : σ → ℓ → σ`; a run is a list of
labels. `exec` is the state a run ends in and `stateAt n` the state
before its `n`-th label, so temporal statements ("since", "in between")
are statements about indices.

Two rules carry the developments on top:

- **invariants** (`exec_invariant`, and `exec_timed` when the labels
  carry a clock that never runs backwards): what one step preserves, a
  run preserves;
- **rises** (`exists_rise`): a property that holds now and did not hold
  at the start has a latest moment at which it became true, and has held
  ever since.
-/

namespace Runs

variable {σ ℓ : Type} (step : σ → ℓ → σ)

/-- The state after a run. -/
def exec (s : σ) (ls : List ℓ) : σ := ls.foldl step s

/-- The state before the `n`-th label of a run (the last one past its end). -/
def stateAt (s : σ) (ls : List ℓ) (n : Nat) : σ := exec step s (ls.take n)

@[simp] theorem exec_nil (s : σ) : exec step s [] = s := rfl

@[simp] theorem exec_cons (s : σ) (l : ℓ) (ls : List ℓ) :
    exec step s (l :: ls) = exec step (step s l) ls := rfl

theorem exec_append (s : σ) (ls ms : List ℓ) :
    exec step s (ls ++ ms) = exec step (exec step s ls) ms :=
  List.foldl_append

@[simp] theorem stateAt_zero (s : σ) (ls : List ℓ) : stateAt step s ls 0 = s := rfl

theorem stateAt_length (s : σ) (ls : List ℓ) :
    stateAt step s ls ls.length = exec step s ls := by
  rw [stateAt, List.take_length]

theorem stateAt_succ (s : σ) {ls : List ℓ} {n : Nat} {l : ℓ} (hl : ls[n]? = some l) :
    stateAt step s ls (n + 1) = step (stateAt step s ls n) l := by
  rw [stateAt, List.take_add_one, hl, exec_append]
  rfl

/-- Past its end a run stands still. -/
theorem stateAt_of_none (s : σ) {ls : List ℓ} {n : Nat} (hl : ls[n]? = none) :
    stateAt step s ls (n + 1) = stateAt step s ls n := by
  have hlen : ls.length ≤ n := List.getElem?_eq_none_iff.mp hl
  rw [stateAt, stateAt, List.take_of_length_le (Nat.le_succ_of_le hlen),
    List.take_of_length_le hlen]

theorem stateAt_min (s : σ) (ls : List ℓ) (n : Nat) :
    stateAt step s ls n = stateAt step s ls (min n ls.length) := by
  rw [stateAt, stateAt, ← List.take_eq_take_min]

/-! ## Invariants -/

variable {step}

/-- What the steps from the `m`-th on preserve, each in its own state, holds from there on. -/
theorem stateAt_induct {P : σ → Prop} {s : σ} {ls : List ℓ} {m : Nat}
    (hm : P (stateAt step s ls m))
    (hstep : ∀ n l, m ≤ n → ls[n]? = some l → P (stateAt step s ls n) →
      P (step (stateAt step s ls n) l)) {n : Nat} (hmn : m ≤ n) : P (stateAt step s ls n) := by
  induction n, hmn using Nat.le_induction with
  | base => exact hm
  | succ n hmn ih =>
      cases hl : ls[n]? with
      | none => rwa [stateAt_of_none step s hl]
      | some l =>
          rw [stateAt_succ step s hl]
          exact hstep n l hmn hl ih

/-- What every step preserves holds at the end of every run. -/
theorem exec_invariant {P : σ → Prop} {s : σ} {ls : List ℓ} (h0 : P s)
    (hstep : ∀ s, ∀ l ∈ ls, P s → P (step s l)) : P (exec step s ls) := by
  induction ls generalizing s with
  | nil => exact h0
  | cons l ls ih =>
      exact ih (hstep s l List.mem_cons_self h0)
        fun s' l' hl' => hstep s' l' (List.mem_cons_of_mem _ hl')

/-- What every step preserves and holds at one moment holds at every later one. -/
theorem stateAt_invariant {P : σ → Prop} {s : σ} {ls : List ℓ} {m n : Nat} (hmn : m ≤ n)
    (hm : P (stateAt step s ls m)) (hstep : ∀ s, ∀ l ∈ ls, P s → P (step s l)) :
    P (stateAt step s ls n) := by
  obtain ⟨rest, hrest⟩ := List.take_prefix_take_left (l := ls) hmn
  rw [stateAt, ← hrest, exec_append]
  refine exec_invariant hm fun s' l hl => hstep s' l (List.mem_of_mem_take (i := n) ?_)
  rw [← hrest]
  exact List.mem_append_right _ hl

/-- A step that only moves the state along a preorder, run after run. -/
theorem exec_rel {R : σ → σ → Prop} (hrefl : ∀ s, R s s)
    (htrans : ∀ {a b c}, R a b → R b c → R a c) {ls : List ℓ}
    (hstep : ∀ s, ∀ l ∈ ls, R s (step s l)) (s : σ) : R s (exec step s ls) := by
  induction ls generalizing s with
  | nil => exact hrefl s
  | cons l ls ih =>
      exact htrans (hstep s l List.mem_cons_self)
        (ih (fun s' l' hl' => hstep s' l' (List.mem_cons_of_mem _ hl')) (step s l))

/-- The clock after a run that started at `t`. -/
def clock (time : ℓ → Nat) (t : Nat) (ls : List ℓ) : Nat :=
  ls.foldl (fun _ l => time l) t

/-- No label runs the clock backwards, from `t` on. -/
def Timed (time : ℓ → Nat) (t : Nat) (ls : List ℓ) : Prop :=
  (∀ l ∈ ls, t ≤ time l) ∧ ls.Pairwise fun a b => time a ≤ time b

section Timed

variable {time : ℓ → Nat} {t : Nat} {l : ℓ} {ls : List ℓ}

theorem timed_cons : Timed time t (l :: ls) ↔ t ≤ time l ∧ Timed time (time l) ls := by
  simp only [Timed, List.pairwise_cons, List.forall_mem_cons]
  constructor
  · rintro ⟨⟨ht, -⟩, hl, hls⟩
    exact ⟨ht, hl, hls⟩
  · rintro ⟨ht, hl, hls⟩
    exact ⟨⟨ht, fun l' hl' => Nat.le_trans ht (hl l' hl')⟩, hl, hls⟩

theorem Timed.take (h : Timed time t ls) (n : Nat) : Timed time t (ls.take n) :=
  ⟨fun l hl => h.1 l (List.mem_of_mem_take hl), h.2.sublist (List.take_sublist n ls)⟩

theorem Timed.le_of_lt (h : Timed time t ls) {i j : Nat} {a b : ℓ} (hij : i < j)
    (ha : ls[i]? = some a) (hb : ls[j]? = some b) : time a ≤ time b := by
  obtain ⟨hi, rfl⟩ := List.getElem?_eq_some_iff.mp ha
  obtain ⟨hj, rfl⟩ := List.getElem?_eq_some_iff.mp hb
  exact List.pairwise_iff_getElem.mp h.2 i j hi hj hij

/-- Before the `n`-th label the clock shows at most that label's time. -/
theorem Timed.clock_le (h : Timed time t ls) {n : Nat} {l : ℓ} (hl : ls[n]? = some l) :
    clock time t (ls.take n) ≤ time l := by
  induction ls generalizing t n with
  | nil => simp at hl
  | cons a ls ih =>
      rw [timed_cons] at h
      cases n with
      | zero =>
          obtain rfl : a = l := by simpa using hl
          exact h.1
      | succ n => exact ih h.2 (by simpa using hl)

/-- What every step preserves while the clock moves on holds at the end of
every timed run. -/
theorem exec_timed {P : Nat → σ → Prop} {s : σ} (h0 : P t s) (ht : Timed time t ls)
    (hstep : ∀ t s, ∀ l ∈ ls, t ≤ time l → P t s → P (time l) (step s l)) :
    P (clock time t ls) (exec step s ls) := by
  induction ls generalizing t s with
  | nil => exact h0
  | cons l ls ih =>
      rw [timed_cons] at ht
      exact ih (hstep t s l List.mem_cons_self ht.1 h0) ht.2
        fun t' s' l' hl' => hstep t' s' l' (List.mem_cons_of_mem _ hl')

end Timed

/-! ## Accounts -/

section Accounts

variable {α : Type}

/-- What the steps of a run hand out, in order. -/
def collect (step : σ → ℓ → σ) (f : σ → ℓ → List α) (s : σ) : List ℓ → List α
  | [] => []
  | l :: ls => f s l ++ collect step f (step s l) ls

/-- If every step balances a measure against what it hands out, the run does. -/
theorem exec_balance {M : Type} [AddCommMonoid M] {P : σ → Prop} {m : σ → M} {f : σ → ℓ → List α}
    {g e : α → M} {s : σ} {ls : List ℓ} (h0 : P s)
    (hstep : ∀ s, ∀ l ∈ ls, P s → P (step s l) ∧
      m (step s l) + ((f s l).map g).sum = m s + ((f s l).map e).sum) :
    m (exec step s ls) + ((collect step f s ls).map g).sum =
      m s + ((collect step f s ls).map e).sum := by
  induction ls generalizing s with
  | nil => rfl
  | cons l ls ih =>
      obtain ⟨hP, hl⟩ := hstep s l List.mem_cons_self h0
      have htail := ih hP fun s' l' hl' => hstep s' l' (List.mem_cons_of_mem _ hl')
      simp only [exec_cons, collect, List.map_append, List.sum_append]
      calc m (exec step (step s l) ls) + (((f s l).map g).sum +
              ((collect step f (step s l) ls).map g).sum)
          = m (exec step (step s l) ls) + ((collect step f (step s l) ls).map g).sum +
              ((f s l).map g).sum := by rw [add_comm ((f s l).map g).sum, ← add_assoc]
        _ = m (step s l) + ((f s l).map g).sum +
              ((collect step f (step s l) ls).map e).sum := by rw [htail, add_right_comm]
        _ = m s + (((f s l).map e).sum + ((collect step f (step s l) ls).map e).sum) := by
              rw [hl, add_assoc]

/-- What every step hands out has a property that the run's takings have. -/
theorem collect_forall {P : σ → Prop} {f : σ → ℓ → List α} {Q : α → Prop} {s : σ} {ls : List ℓ}
    (h0 : P s) (hstep : ∀ s, ∀ l ∈ ls, P s → P (step s l) ∧ ∀ a ∈ f s l, Q a) :
    ∀ a ∈ collect step f s ls, Q a := by
  induction ls generalizing s with
  | nil => exact fun a ha => absurd ha List.not_mem_nil
  | cons l ls ih =>
      obtain ⟨hP, hl⟩ := hstep s l List.mem_cons_self h0
      intro a ha
      rcases List.mem_append.mp ha with ha | ha
      · exact hl a ha
      · exact ih hP (fun s' l' hl' => hstep s' l' (List.mem_cons_of_mem _ hl')) a ha

end Accounts

/-! ## Rises -/

/-- If `P` holds at `n` and not at `0`, there is a latest moment at which it
became true, and it has held since. -/
theorem exists_rise {P : Nat → Prop} {n : Nat} (h0 : ¬ P 0) (hn : P n) :
    ∃ j < n, ¬ P j ∧ ∀ k, j < k → k ≤ n → P k := by
  induction n with
  | zero => exact absurd hn h0
  | succ n ih =>
      by_cases h : P n
      · obtain ⟨j, hj, hnot, hall⟩ := ih h
        refine ⟨j, Nat.lt_succ_of_lt hj, hnot, fun k hjk hk => ?_⟩
        rcases Nat.lt_or_eq_of_le hk with hlt | rfl
        · exact hall k hjk (Nat.le_of_lt_succ hlt)
        · exact hn
      · exact ⟨n, Nat.lt_succ_self n, h, fun k hjk hk => by
          obtain rfl : k = n + 1 := Nat.le_antisymm hk hjk
          exact hn⟩

end Runs
