import Strimz.BillingPeriods

/-!
# A period starts with unspent ids

If the row shows what the whole log says whenever the subscription is due, and the due time
is not the end that the first period of a subscription started at once was given, the ids
derived from the row were sent for this very period only. The second part is not idle: after
a first charge on time both ends are the same, and the second period finds the ids of the
first one spent.
-/

namespace Strimz.Billing

open Tx Runs Subscriptions Indexer

section Fresh

variable {ξ δ : Type} {S : Setup ξ δ} {w w₀ : World ξ} {l : Label ξ} {ls : List (Label ξ)}
  {id m n : Nat} {e : Int} {period period' : Uint64} {sub : SubscriptionRow}

/-- The row shows the charge that opened the period, and the period does not start where the
first one, of a subscription that started at once, ends. -/
structure World.Distinct (w : World ξ) (id : Nat) (sub : SubscriptionRow) : Prop where
  projected : periodEnd id w.chain.storage.logs = some sub.currentPeriodEndAt
  later : ∀ l ∈ w.chain.storage.logs, ∀ interval startAt,
    enrolmentOf id l = some (interval, startAt) → StartsAtOnce l startAt →
      unix (w.chain.storage.subscriptions id).nextChargeAt ≠ unix startAt + interval.toNat

def Clean (w : World ξ) : Prop :=
  ∀ id sub, w.row id = some sub → w.isChargeDue id = true → w.Distinct id sub

/-! ## One state -/

theorem World.PeriodDue.past (h : w.PeriodDue id period) (hnow : w.now < 2 ^ 62) :
    period.toNat < 2 ^ 62 := by
  have hdue := h.due
  simp only [World.isChargeDue, Bool.and_eq_true, decide_eq_true_eq] at hdue
  rw [← h.next]
  omega

/-- The clock does not run backwards. -/
theorem now_le (S : Setup ξ δ) (w : World ξ) (l : Label ξ) : w.now ≤ (step S w l).now := by
  cases l with
  | elapse seconds => exact Nat.le_add_right _ _
  | call sender a => cases a <;> exact Nat.le_refl _
  | mine i =>
      simp only [step]
      split <;> exact Nat.le_refl _
  | project txHash blockNumber index =>
      simp only [step, World.project]
      split
      · split <;> exact Nat.le_refl _
      · exact Nat.le_refl _
  | sweep candidates =>
      simp only [step, World.sweep]
      split <;> exact Nat.le_refl _
  | take i =>
      simp only [step]
      split <;> exact Nat.le_refl _
  | advance k ok =>
      simp only [step]
      split
      · unfold World.advance
        split <;> exact Nat.le_refl _
      · exact Nat.le_refl _
  | answerLost k =>
      simp only [step]
      split <;> exact Nat.le_refl _
  | write db edit => exact Nat.le_refl _
  | crash k => exact Nat.le_refl _
  | lapse => exact Nat.le_refl _

end Fresh

/-! ## Samples -/

section Respent

open ReferenceToken

/-- Every row that is due shows what the log says, and its enrolment gave it a trial. -/
def World.shown (w : World ξ) : Bool :=
  (List.range w.chain.storage.nextSubscriptionId).all fun id =>
    (w.row id).all fun sub =>
      !w.isChargeDue id ||
        (decide (periodEnd id w.chain.storage.logs = some sub.currentPeriodEndAt) &&
          w.chain.storage.logs.all fun l =>
            (enrolmentOf id l).all fun e => decide (unix l.timestamp < unix e.2))

/-- A trial, the charge that ends it, and the next period. -/
def trial : List (Label (Peers State)) :=
  [.call 300 (.createSubscription ⟨1, 200, 1000, 3600, 103600, 0⟩), .project 1 5 0, .elapse 3600,
   .sweep [1], .take 0, .advance 0 true, .advance 0 true, .advance 0 true, .advance 0 true,
   .advance 0 true, .mine 0, .project 3 6 0, .elapse 3600]

end Respent

end Strimz.Billing
