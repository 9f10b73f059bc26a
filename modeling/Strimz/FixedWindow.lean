import Strimz.Runs

/-!
# Fixed-window counters

A counter that admits `limit` requests, and at least one, in a window that begins with the first
request after the last one ended. Requests come at times that never run backwards. What a counter
does depends on its bucket only while the bucket is live (`take_live`), so a store may drop dead
buckets; and in any stretch as long as a window it admits at most two windows' worth
(`served_window`).
-/

namespace FixedWindow

structure Bucket where
  count : Nat
  resetAt : Nat
deriving Repr, DecidableEq

/-- The bucket, if its window has not ended. -/
def live (now : Nat) (b : Option Bucket) : Option Bucket := b.filter fun b => now < b.resetAt

section Counter

variable (limit window : Nat)

/-- What one request does, and whether it is admitted. -/
def take (now : Nat) (b : Option Bucket) : Bucket × Bool :=
  match live now b with
  | none => (⟨1, now + window⟩, true)
  | some b => if limit ≤ b.count then (b, false) else (⟨b.count + 1, b.resetAt⟩, true)

/-- The times at which requests are admitted. -/
def served (b : Option Bucket) : List Nat → List Nat
  | [] => []
  | now :: times =>
      (if (take limit window now b).2 = true then [now] else []) ++
        served (some (take limit window now b).1) times

end Counter

variable {limit window t now : Nat} {b b' : Option Bucket} {times : List Nat}

/-! ## Live buckets -/

theorem live_eq_some {d : Bucket} : live now b = some d ↔ b = some d ∧ now < d.resetAt := by
  simp only [live, Option.filter_eq_some_iff, decide_eq_true_eq]

theorem live_some (d : Bucket) : live now (some d) = if now < d.resetAt then some d else none := by
  simp only [live, Option.filter_some, decide_eq_true_eq]

theorem live_live (h : t ≤ now) : live now (live t b) = live now b := by
  cases b with
  | none => rfl
  | some d =>
      rw [@live_some t d]
      split
      · rfl
      · rw [live_some, if_neg (by omega)]
        rfl

/-- Buckets that agree while they are live agree later. -/
theorem live_congr (h : live t b = live t b') (hle : t ≤ now) : live now b = live now b' := by
  rw [← live_live hle, h, live_live hle]

theorem take_live (h : live now b = live now b') :
    take limit window now b = take limit window now b' := by
  rw [take, take, h]

/-! ## One request -/

/-- A request finds a live bucket or starts one. -/
inductive Admits (limit window now : Nat) (b : Option Bucket) : Bucket × Bool → Prop
  | starts (h : live now b = none) : Admits limit window now b (⟨1, now + window⟩, true)
  | counts (d : Bucket) (h : b = some d) (hlive : now < d.resetAt) (hroom : d.count < limit) :
      Admits limit window now b (⟨d.count + 1, d.resetAt⟩, true)
  | refuses (d : Bucket) (h : b = some d) (hlive : now < d.resetAt) (hfull : limit ≤ d.count) :
      Admits limit window now b (d, false)

theorem take_cases (limit window now : Nat) (b : Option Bucket) :
    Admits limit window now b (take limit window now b) := by
  rw [take]
  cases h : live now b with
  | none => exact .starts h
  | some d =>
      obtain ⟨hb, hlive⟩ := live_eq_some.mp h
      by_cases hfull : limit ≤ d.count
      · simp only [if_pos hfull]
        exact .refuses d hb hlive hfull
      · simp only [if_neg hfull]
        exact .counts d hb hlive (Nat.not_le.mp hfull)

theorem take_refused (h : (take limit window now b).2 ≠ true) :
    some (take limit window now b).1 = b := by
  have hcases := take_cases limit window now b
  generalize take limit window now b = r at h hcases ⊢
  cases hcases with
  | starts => exact absurd rfl h
  | counts => exact absurd rfl h
  | refuses d hb => exact hb.symm

/-! ## Any stretch of one window's length -/

/-- How many times lie in the stretch from `t` that is as long as a window. -/
def within (window t : Nat) (times : List Nat) : Nat :=
  times.countP fun u => t ≤ u ∧ u < t + window

theorem within_append (us vs : List Nat) :
    within window t (us ++ vs) = within window t us + within window t vs := List.countP_append

/-- With `a` admitted in the stretch so far and the last request at `last`: a window that ends in
the stretch has all of `a`, and one that outlasts it has what the window before it left. -/
structure Within (limit window t last a : Nat) (b : Option Bucket) : Prop where
  total : a ≤ 2 * Nat.max 1 limit
  early : last < t → a = 0
  fresh : b = none → a = 0
  count : ∀ d, b = some d → d.count ≤ Nat.max 1 limit
  first : last < t + window → ∀ d, b = some d → d.resetAt < t + window → a ≤ d.count
  second : last < t + window → ∀ d, b = some d → t + window ≤ d.resetAt →
    a ≤ Nat.max 1 limit + d.count

/-- What is in the stretch of one more request. -/
theorem within_one (ok : Bool) : within window t (if ok = true then [now] else []) =
    if ok = true ∧ t ≤ now ∧ now < t + window then 1 else 0 := by
  cases ok with
  | false => rfl
  | true => simp [within, List.countP_cons]

theorem Within.take {last a : Nat} (h : Within limit window t last a b) (hle : last ≤ now) :
    Within limit window t now
      (a + within window t (if (take limit window now b).2 = true then [now] else []))
      (some (FixedWindow.take limit window now b).1) := by
  have hcases := take_cases limit window now b
  have hone : 1 ≤ Nat.max 1 limit := Nat.le_max_left 1 limit
  have hlimit : limit ≤ Nat.max 1 limit := Nat.le_max_right 1 limit
  have htotal := h.total
  have hearly := h.early
  rw [within_one]
  generalize FixedWindow.take limit window now b = r at hcases ⊢
  cases hcases with
  | starts hdead =>
      -- a window that has ended inside the stretch holds all of `a`
      have hended : now < t + window → a ≤ Nat.max 1 limit := by
        intro hnow
        cases b with
        | none => exact (h.fresh rfl).le.trans (Nat.zero_le _)
        | some d =>
            have hreset : d.resetAt ≤ now := by
              by_contra hlive
              rw [live_some, if_pos (Nat.not_le.mp hlive)] at hdead
              cases hdead
            exact (h.first (hle.trans_lt hnow) d rfl (hreset.trans_lt hnow)).trans (h.count d rfl)
      refine ⟨?_, ?_, fun hnone => absurd hnone (Option.some_ne_none _), ?_, ?_, ?_⟩
      · split <;> omega
      · intro hbefore
        rw [if_neg (by omega)]
        exact hearly (by omega)
      · rintro _ ⟨⟩
        exact hone
      · rintro hin _ ⟨⟩ hout
        dsimp only at hout ⊢
        rw [if_neg (by omega)]
        have := hearly (by omega)
        omega
      · rintro hin _ ⟨⟩ -
        dsimp only
        split <;> omega
  | counts d hb hlive hroom =>
      have hcount := h.count d hb
      have hfirst := fun hin => h.first hin d hb
      have hsecond := fun hin => h.second hin d hb
      refine ⟨?_, ?_, fun hnone => absurd hnone (Option.some_ne_none _), ?_, ?_, ?_⟩
      · split <;> omega
      · intro hbefore
        rw [if_neg (by omega)]
        exact hearly (by omega)
      · rintro _ ⟨⟩
        dsimp only
        omega
      · rintro hin _ ⟨⟩ hout
        dsimp only at hout ⊢
        have := hfirst (by omega) hout
        split <;> omega
      · rintro hin _ ⟨⟩ hout
        dsimp only at hout ⊢
        have := hsecond (by omega) hout
        split <;> omega
  | refuses d hb hlive hfull =>
      rw [if_neg (by simp), Nat.add_zero]
      refine ⟨htotal, fun hbefore => hearly (by omega),
        fun hnone => absurd hnone (Option.some_ne_none _), ?_, ?_, ?_⟩
      · rintro _ ⟨⟩
        exact h.count d hb
      · rintro hin _ ⟨⟩ hout
        dsimp only at hout ⊢
        exact h.first (by omega) d hb hout
      · rintro hin _ ⟨⟩ hout
        dsimp only at hout ⊢
        exact h.second (by omega) d hb hout

/-- Any stretch as long as a window sees at most two windows' worth. -/
theorem served_window (limit window t : Nat) {times : List Nat} (htimes : times.Pairwise (· ≤ ·)) :
    within window t (served limit window none times) ≤ 2 * Nat.max 1 limit := by
  have hrun : ∀ {times : List Nat} {last a : Nat} {b : Option Bucket},
      times.Pairwise (· ≤ ·) → (∀ u ∈ times, last ≤ u) → Within limit window t last a b →
        a + within window t (served limit window b times) ≤ 2 * Nat.max 1 limit := by
    intro times
    induction times with
    | nil => exact fun _ _ h => h.total
    | cons now times ih =>
        intro last a b hsorted hlast h
        rw [served, within_append, ← Nat.add_assoc]
        obtain ⟨hnow, hsorted⟩ := List.pairwise_cons.mp hsorted
        exact ih hsorted hnow (h.take (hlast now List.mem_cons_self))
  have h0 : Within limit window t 0 0 none := {
    total := Nat.zero_le _
    early := fun _ => rfl
    fresh := fun _ => rfl
    count := fun d hd => absurd hd.symm (Option.some_ne_none d)
    first := fun _ d hd => absurd hd.symm (Option.some_ne_none d)
    second := fun _ d hd => absurd hd.symm (Option.some_ne_none d) }
  simpa using hrun htimes (fun _ _ => Nat.zero_le _) h0

end FixedWindow
