import Mathlib.Data.List.DropRight
import Strimz.DeadLetterSteps

/-!
# Failure accounting of charges

The logs of one subscription's charges and of the charges that were skipped, in chain
order, each possibly applied again right away. `Counts` says which skips are failures the
indexer counts, by the logs before them alone, and `Tally` ties the subscription's
counters, the attempts' rows and the outbox to the counted ones.
-/

namespace Strimz.Indexer

open Tx

inductive ChargeLogKind where
  | charged (amount feeAmount netAmount : Nat) (nextChargeAt : Uint64)
  | skipped (outcome : ChargeOutcomeCode)
deriving DecidableEq

/-- A `SubscriptionCharged` or `SubscriptionChargeSkipped` log with the time of its block. -/
structure ChargeLog where
  address : Address
  blockNumber : Nat
  txHash : Bytes32
  index : Nat
  time : Int
  attempt : Bytes32
  kind : ChargeLogKind
deriving DecidableEq

namespace ChargeLog

/-- The log as the indexer reads it, for a subscription. -/
def log (l : ChargeLog) (subscriptionId : Nat) : Log × Int :=
  (⟨l.address, l.blockNumber, l.txHash, l.index, .event (match l.kind with
    | .charged amount feeAmount netAmount nextChargeAt =>
        .subscriptionCharged subscriptionId l.attempt amount feeAmount netAmount nextChargeAt
    | .skipped outcome => .subscriptionChargeSkipped subscriptionId l.attempt outcome)⟩, l.time)

def isCharge (l : ChargeLog) : Bool :=
  match l.kind with
  | .charged .. => true
  | .skipped _ => false

/-- A skip that is a payment failure. -/
def isFailure (l : ChargeLog) : Bool :=
  match l.kind with
  | .charged .. => false
  | .skipped outcome => isPaymentFailure outcome

/-- A payment failure the indexer counts, after the logs `before`: its attempt id has not
been charged, no failure of the attempt is of the same block time, and neither is the log
the attempt id first appeared in. -/
def Counts (before : List ChargeLog) (l : ChargeLog) : Prop :=
  l.isFailure = true ∧
    (∀ l' ∈ before, l'.attempt = l.attempt → l'.isCharge = false) ∧
    (∀ l' ∈ before, l'.attempt = l.attempt → l'.isFailure = true → l'.time ≠ l.time) ∧
    ∀ l' ∈ before.find? (fun l' => l'.attempt = l.attempt), l'.time ≠ l.time

instance (before : List ChargeLog) (l : ChargeLog) : Decidable (Counts before l) :=
  inferInstanceAs (Decidable (_ ∧ _ ∧ _ ∧ _))

/-- The counted failures of some logs, after the logs `before`. -/
def counted (before : List ChargeLog) : List ChargeLog → List ChargeLog
  | [] => []
  | l :: logs => (if Counts before l then [l] else []) ++ counted (before ++ [l]) logs

theorem counted_append (before logs rest : List ChargeLog) :
    counted before (logs ++ rest) = counted before logs ++ counted (before ++ logs) rest := by
  induction logs generalizing before with
  | nil => simp [counted]
  | cons l logs ih => simp [counted, ih]

theorem counted_singleton (before : List ChargeLog) (l : ChargeLog) :
    counted before [l] = if Counts before l then [l] else [] := by
  simp [counted]

/-- The counted failures since the last successful charge. -/
def failuresSince (logs : List ChargeLog) : List ChargeLog :=
  counted (logs.rdropWhile fun l => !l.isCharge) (logs.rtakeWhile fun l => !l.isCharge)

theorem failuresSince_charge (logs : List ChargeLog) {l : ChargeLog} (h : l.isCharge = true) :
    failuresSince (logs ++ [l]) = [] := by
  simp [failuresSince, h, counted]

theorem failuresSince_skip (logs : List ChargeLog) {l : ChargeLog} (h : l.isCharge = false) :
    failuresSince (logs ++ [l]) =
      failuresSince logs ++ if Counts logs l then [l] else [] := by
  simp only [failuresSince, List.rdropWhile_concat, List.rtakeWhile_concat, h, Bool.not_false,
    if_true, counted_append, List.rdropWhile_append_rtakeWhile, counted_singleton]

theorem isFailure_of_charge {l : ChargeLog} (h : l.isCharge = true) : l.isFailure = false := by
  unfold isCharge at h
  unfold isFailure
  cases hkind : l.kind with
  | charged => rfl
  | skipped outcome =>
      rw [hkind] at h
      cases h

theorem not_counts_of_charge {before : List ChargeLog} {l : ChargeLog} (h : l.isCharge = true) :
    ¬ Counts before l := by
  rintro ⟨hfailure, -⟩
  rw [isFailure_of_charge h] at hfailure
  cases hfailure

/-- What the projector passes on for a skip. -/
def skipInput (l : ChargeLog) (subscriptionId : Nat) (outcome : ChargeOutcomeCode) :
    SubscriptionChargeSkippedInput :=
  ⟨subscriptionId, l.attempt, dbString outcome, isPaymentFailure outcome, l.time⟩

/-- What the projector passes on for a charge. -/
def chargeInput (p : Projector) (l : ChargeLog) (subscriptionId amount feeAmount netAmount : Nat)
    (nextChargeAt : Uint64) : SubscriptionChargedInput :=
  { onchainSubscriptionId := subscriptionId, chargeAttemptId := l.attempt, amount := amount,
    feeAmount := feeAmount, netAmount := netAmount, nextChargeAt := unix nextChargeAt,
    onchainTxHash := l.txHash, blockNumber := l.blockNumber, blockTimestamp := l.time,
    logIndex := l.index, mode := p.mode }

end ChargeLog

section Steps

variable {p : Projector} {db db' : Db} {subscriptionId : Nat} {l : ChargeLog}

theorem apply_skip_eq_ok {outcome : ChargeOutcomeCode} (hkind : l.kind = .skipped outcome) :
    p.apply (l.log subscriptionId).1 (l.log subscriptionId).2 db = .ok ((), db') ↔
      ∃ n, insertSubscriptionChargeSkip (l.skipInput subscriptionId outcome) db = .ok (n, db') := by
  have happly : p.apply (l.log subscriptionId).1 (l.log subscriptionId).2 = (do
      let _ ← insertSubscriptionChargeSkip (l.skipInput subscriptionId outcome)) := by
    simp only [ChargeLog.log, hkind]
    rfl
  rw [happly]
  exact drop_eq_ok

theorem apply_charge_eq_ok {amount feeAmount netAmount : Nat} {nextChargeAt : Uint64}
    (hkind : l.kind = .charged amount feeAmount netAmount nextChargeAt) :
    p.apply (l.log subscriptionId).1 (l.log subscriptionId).2 db = .ok ((), db') ↔
      ∃ n, insertSubscriptionCharge
        (l.chargeInput p subscriptionId amount feeAmount netAmount nextChargeAt) db =
          .ok (n, db') := by
  have happly : p.apply (l.log subscriptionId).1 (l.log subscriptionId).2 = (do
      let _ ← insertSubscriptionCharge
        (l.chargeInput p subscriptionId amount feeAmount netAmount nextChargeAt)) := by
    simp only [ChargeLog.log, hkind]
    rfl
  rw [happly]
  exact drop_eq_ok

end Steps

/-! ## The rows of the attempts -/

/-- `e` is the block time of the last log of an attempt that the indexer recorded, none of
them a charge. -/
structure LastFailure (before : List ChargeLog) (a : Bytes32) (e : Int) : Prop where
  first : ∃ l, before.find? (fun l => l.attempt = a) = some l ∧ l.time ≤ e ∧
    (l.time = e ∨ ∃ l' ∈ before, l'.attempt = a ∧ l'.isFailure = true ∧ l'.time = e)
  failures : ∀ l ∈ before, l.attempt = a → l.isFailure = true → l.time ≤ e
  uncharged : ∀ l ∈ before, l.attempt = a → l.isCharge = false

/-- The row of an attempt, by its logs. -/
inductive AttemptRow (before : List ChargeLog) (a : Bytes32) : Option SubscriptionChargeRow → Prop where
  | unseen (h : ∀ l ∈ before, l.attempt ≠ a) : AttemptRow before a none
  | failed {row : SubscriptionChargeRow} (hstatus : row.status = .failed) {e : Int}
      (htime : row.executedAt = some e) (h : LastFailure before a e) : AttemptRow before a (some row)
  | charged {row : SubscriptionChargeRow} (hstatus : row.status = .succeeded)
      (h : ∃ l ∈ before, l.attempt = a ∧ l.isCharge = true) : AttemptRow before a (some row)

section Rows

open ChargeLog

variable {before : List ChargeLog} {l : ChargeLog} {a : Bytes32} {row? : Option SubscriptionChargeRow}

/-- A log of another attempt. -/
theorem AttemptRow.other (h : AttemptRow before a row?) (hne : l.attempt ≠ a) :
    AttemptRow (before ++ [l]) a row? := by
  have hmem : ∀ l' ∈ before ++ [l], l'.attempt = a → l' ∈ before := by
    intro l' hl' ha
    rcases List.mem_append.mp hl' with hold | hnew
    · exact hold
    · exact absurd (List.mem_singleton.mp hnew ▸ ha) hne
  cases h with
  | unseen h => exact .unseen fun l' hl' ha => h l' (hmem l' hl' ha) ha
  | failed hstatus htime h =>
      refine .failed hstatus htime ⟨?_, fun l' hl' ha => h.failures l' (hmem l' hl' ha) ha,
        fun l' hl' ha => h.uncharged l' (hmem l' hl' ha) ha⟩
      obtain ⟨first, hfirst, hle, hlast⟩ := h.first
      refine ⟨first, by rw [List.find?_append, hfirst]; rfl, hle, hlast.imp_right ?_⟩
      rintro ⟨l', hl', hrest⟩
      exact ⟨l', List.mem_append_left _ hl', hrest⟩
  | charged hstatus h =>
      obtain ⟨l', hl', hrest⟩ := h
      exact .charged hstatus ⟨l', List.mem_append_left _ hl', hrest⟩

/-- A payment failure counts iff it opens its attempt's row or comes in a later block. -/
theorem AttemptRow.counts_iff (h : AttemptRow before l.attempt row?) (hfailure : l.isFailure = true)
    (htime : ∀ l' ∈ before, l'.time ≤ l.time) :
    Counts before l ↔ ∀ row ∈ row?, row.repeatsAt l.time = true := by
  cases h with
  | unseen h =>
      refine iff_of_true ⟨hfailure, fun l' hl' ha => absurd ha (h l' hl'),
        fun l' hl' ha => absurd ha (h l' hl'), fun l' hl' => ?_⟩ fun _ h => by cases h
      exact absurd (by simpa using List.find?_some hl') (h l' (List.mem_of_find?_eq_some hl'))
  | @failed row hstatus e htime' h =>
      obtain ⟨first, hfirst, hle, hlast⟩ := h.first
      have hmem := List.mem_of_find?_eq_some hfirst
      simp only [Option.mem_def, Option.some.injEq, forall_eq', SubscriptionChargeRow.repeatsAt,
        hstatus, htime', Option.any_some, decide_true, Bool.true_and, decide_eq_true_eq]
      constructor
      · rintro ⟨-, -, hfailures, hopens⟩
        have hne : e ≠ l.time := by
          rcases hlast with rfl | ⟨l', hl', ha, hl'f, rfl⟩
          · exact hopens first hfirst
          · exact hfailures l' hl' ha hl'f
        have hle : e ≤ l.time := by
          rcases hlast with rfl | ⟨l', hl', -, -, rfl⟩
          · exact htime first hmem
          · exact htime l' hl'
        omega
      · intro hlt
        refine ⟨hfailure, h.uncharged, fun l' hl' ha hl'f => ?_, fun l' hl' => ?_⟩
        · have := h.failures l' hl' ha hl'f
          omega
        · obtain rfl : first = l' := Option.some.inj (hfirst.symm.trans hl')
          omega
  | @charged row hstatus h =>
      obtain ⟨l', hl', ha, hcharge⟩ := h
      refine iff_of_false ?_ ?_
      · rintro ⟨-, huncharged, -⟩
        rw [huncharged l' hl' ha] at hcharge
        cases hcharge
      · simp [SubscriptionChargeRow.repeatsAt, hstatus]

/-- A charge. -/
theorem AttemptRow.charge (hcharge : l.isCharge = true) {row : SubscriptionChargeRow}
    (hstatus : row.status = .succeeded) :
    AttemptRow (before ++ [l]) l.attempt (some row) :=
  .charged hstatus ⟨l, List.mem_append_right _ List.mem_cons_self, rfl, hcharge⟩

/-- A skip that leaves the row as it is: not a payment failure, or one that does not count. -/
theorem AttemptRow.skip (h : AttemptRow before l.attempt row?) (hne : row? ≠ none)
    (hcharge : l.isCharge = false) (htime : ∀ l' ∈ before, l'.time ≤ l.time)
    (hskip : l.isFailure = true → ¬ Counts before l) :
    AttemptRow (before ++ [l]) l.attempt row? := by
  have hcounts := h.counts_iff
  cases h with
  | unseen h => exact absurd rfl hne
  | @failed row hstatus e htime' h =>
      obtain ⟨first, hfirst, hle, hlast⟩ := h.first
      refine .failed hstatus htime' ⟨⟨first, by rw [List.find?_append, hfirst]; rfl, hle,
        hlast.imp_right ?_⟩, fun l' hl' ha hl'f => ?_, fun l' hl' ha => ?_⟩
      · rintro ⟨l', hl', hrest⟩
        exact ⟨l', List.mem_append_left _ hl', hrest⟩
      · rcases List.mem_append.mp hl' with hold | hnew
        · exact h.failures l' hold ha hl'f
        · obtain rfl := List.mem_singleton.mp hnew
          have hnot := (hcounts hl'f htime).not.mp (hskip hl'f)
          simp only [Option.mem_def, Option.some.injEq, forall_eq', SubscriptionChargeRow.repeatsAt,
            hstatus, htime', Option.any_some, decide_true, Bool.true_and, decide_eq_true_eq,
            not_lt] at hnot
          exact hnot
      · rcases List.mem_append.mp hl' with hold | hnew
        · exact h.uncharged l' hold ha
        · exact List.mem_singleton.mp hnew ▸ hcharge
  | charged hstatus h =>
      obtain ⟨l', hl', hrest⟩ := h
      exact .charged hstatus ⟨l', List.mem_append_left _ hl', hrest⟩

/-- A skip that opens its attempt's row. -/
theorem AttemptRow.opened (h : AttemptRow before l.attempt none) (hcharge : l.isCharge = false)
    {row : SubscriptionChargeRow} (hstatus : row.status = .failed)
    (htime : row.executedAt = some l.time) : AttemptRow (before ++ [l]) l.attempt (some row) := by
  cases h with
  | unseen h =>
      have hmem : ∀ l' ∈ before ++ [l], l'.attempt = l.attempt → l' = l := by
        intro l' hl' ha
        rcases List.mem_append.mp hl' with hold | hnew
        · exact absurd ha (h l' hold)
        · exact List.mem_singleton.mp hnew
      have hfind : before.find? (fun l' => l'.attempt = l.attempt) = none := by
        simpa using h
      refine .failed hstatus htime ⟨⟨l, by simp [List.find?_append, hfind], le_rfl, Or.inl rfl⟩,
        fun l' hl' ha _ => (hmem l' hl' ha) ▸ le_rfl, fun l' hl' ha => (hmem l' hl' ha) ▸ hcharge⟩

/-- A payment failure that counts and repeats its attempt. -/
theorem AttemptRow.refailed {row row' : SubscriptionChargeRow}
    (h : AttemptRow before l.attempt (some row)) (hcounts : Counts before l)
    (hcharge : l.isCharge = false) (htime : ∀ l' ∈ before, l'.time ≤ l.time)
    (hstatus : row'.status = .failed) (htime' : row'.executedAt = some l.time) :
    AttemptRow (before ++ [l]) l.attempt (some row') := by
  cases h with
  | failed _ _ h =>
      obtain ⟨first, hfirst, -, -⟩ := h.first
      have hmem := List.mem_of_find?_eq_some hfirst
      refine .failed hstatus htime' ⟨⟨first, by rw [List.find?_append, hfirst]; rfl,
        htime first hmem, Or.inr ⟨l, List.mem_append_right _ List.mem_cons_self, rfl, hcounts.1,
          rfl⟩⟩, fun l' hl' _ _ => ?_, fun l' hl' ha => ?_⟩
      · rcases List.mem_append.mp hl' with hold | hnew
        · exact htime l' hold
        · exact List.mem_singleton.mp hnew ▸ le_rfl
      · rcases List.mem_append.mp hl' with hold | hnew
        · exact h.uncharged l' hold ha
        · exact List.mem_singleton.mp hnew ▸ hcharge
  | charged _ h =>
      obtain ⟨l', hl', ha, hl'c⟩ := h
      rw [hcounts.2.1 l' hl' ha] at hl'c
      cases hl'c

end Rows

/-! ## The counters, the outbox and the rows together -/

/-- `subscription.charge_failed` for an attempt of a subscription. -/
def WebhookEvent.reports (e : WebhookEvent) (id : Int) (a : Bytes32) : Bool :=
  e.type = .subscription_charge_failed && e.ref = .failedCharge id a

/-- The counters of a subscription that started out as `sub₀`. -/
structure Counters (sub₀ : SubscriptionRow) (before : List ChargeLog) (sub : SubscriptionRow) :
    Prop where
  retries : sub.status.retries = sub₀.status.retries
  allowed : sub₀.status.retries = true →
    sub.retryCount = (ChargeLog.failuresSince before).length ∧
      sub.nextRetryAt = (ChargeLog.failuresSince before).getLast?.map fun l =>
        l.time + retryBackoff (ChargeLog.failuresSince before).length
  barred : sub₀.status.retries = false →
    sub.status = sub₀.status ∧ sub.retryCount = 0 ∧ sub.nextRetryAt = none

/-- The database after the logs `before`, by what they count. -/
structure Tally (id : Int) (sub₀ : SubscriptionRow) (db₀ : Db) (before : List ChargeLog)
    (db : Db) : Prop where
  subscription : ∃ sub, db.subscriptions id = some sub ∧ Counters sub₀ before sub
  events : ∀ a, db.webhookEvents.countP (·.reports id a) =
    db₀.webhookEvents.countP (·.reports id a) +
      (ChargeLog.counted [] before).countP (·.attempt = a)
  rows : ∀ a, db₀.charges a = none → AttemptRow before a (db.charges a)

section Accounting

open ChargeLog Projector

variable {p : Projector} {db₀ db db' : Db} {subscriptionId : Nat} {l : ChargeLog}
  {before : List ChargeLog} {sub₀ sub : SubscriptionRow}

theorem Counters.charge (h : Counters sub₀ before sub) (hcharge : l.isCharge = true) (t : Int) :
    Counters sub₀ (before ++ [l]) (sub.bump t) := by
  have hstatus : sub.status.retries = false → (sub.bump t).status = sub.status := by
    intro hbarred
    have hactive : ¬ (sub.status = .at_risk ∨ sub.status = .trialing) := by
      rintro (hs | hs) <;> rw [hs] at hbarred <;> cases hbarred
    exact if_neg hactive
  have hretries : (sub.bump t).status.retries = sub.status.retries := by
    cases hs : sub.status <;> simp [SubscriptionRow.bump, hs, SubscriptionStatus.retries]
  refine ⟨hretries.trans h.retries, fun _ => ?_, fun hbarred => ⟨?_, rfl, rfl⟩⟩
  · rw [failuresSince_charge before hcharge]
    exact ⟨rfl, rfl⟩
  · exact (hstatus (h.retries.trans hbarred)).trans (h.barred hbarred).1

/-- A skip that does not count. -/
theorem Counters.skip (h : Counters sub₀ before sub) (hcharge : l.isCharge = false)
    (hcounts : ¬ Counts before l) : Counters sub₀ (before ++ [l]) sub := by
  have hsince : failuresSince (before ++ [l]) = failuresSince before := by
    rw [failuresSince_skip before hcharge, if_neg hcounts, List.append_nil]
  refine ⟨h.retries, ?_, h.barred⟩
  rw [hsince]
  exact h.allowed

/-- A skip that counts. -/
theorem Counters.fail (h : Counters sub₀ before sub) (hcharge : l.isCharge = false)
    (hcounts : Counts before l) (hretries : sub.status.retries = true) :
    Counters sub₀ (before ++ [l]) (sub.flag l.time) := by
  have hsince : failuresSince (before ++ [l]) = failuresSince before ++ [l] := by
    rw [failuresSince_skip before hcharge, if_pos hcounts]
  have hallowed := h.retries.symm.trans hretries
  obtain ⟨hcount, -⟩ := h.allowed hallowed
  refine ⟨hallowed.symm, fun _ => ?_, fun hbarred => absurd hallowed (by simp [hbarred])⟩
  rw [hsince]
  simp [SubscriptionRow.flag, hcount]

theorem Counters.fail_barred (h : Counters sub₀ before sub)
    (hretries : sub.status.retries = false) : Counters sub₀ (before ++ [l]) sub := by
  have hbarred := h.retries.symm.trans hretries
  exact ⟨h.retries, fun hallowed => absurd hallowed (by simp [hbarred]), h.barred⟩

theorem recordAttempt_other (in_ : SubscriptionChargedInput) (id : Int) (sub : SubscriptionRow)
    {a : Bytes32} (hne : a ≠ in_.chargeAttemptId) :
    (db.recordAttempt in_ id sub).charges a = db.charges a := by
  unfold Db.recordAttempt
  split
  · exact Function.update_of_ne hne _ _
  · split
    · exact Function.update_of_ne hne _ _
    · rfl

/-- After a charge the attempt's row has succeeded. -/
theorem recordAttempt_succeeded (in_ : SubscriptionChargedInput) (id : Int) (sub : SubscriptionRow)
    (h : AttemptRow before in_.chargeAttemptId (db.charges in_.chargeAttemptId)) :
    ∃ row, (db.recordAttempt in_ id sub).charges in_.chargeAttemptId = some row ∧
      row.status = .succeeded := by
  unfold Db.recordAttempt
  generalize hrow : db.charges in_.chargeAttemptId = row? at h
  cases h with
  | unseen => exact ⟨_, Function.update_self _ _ _, rfl⟩
  | failed hstatus =>
      simp only [hstatus, if_true]
      exact ⟨_, Function.update_self _ _ _, rfl⟩
  | @charged row hstatus =>
      simp only [hstatus, reduceCtorEq, if_false]
      exact ⟨row, hrow, hstatus⟩

/-- A projected charge keeps the tally. -/
theorem Tally.charge (h : Tally (int64 subscriptionId) sub₀ db₀ before db)
    (hcharge : l.isCharge = true)
    (happly : p.apply (l.log subscriptionId).1 (l.log subscriptionId).2 db = .ok ((), db')) :
    Tally (int64 subscriptionId) sub₀ db₀ (before ++ [l]) db' := by
  obtain ⟨amount, feeAmount, netAmount, nextChargeAt, hkind⟩ : ∃ amount feeAmount netAmount
      nextChargeAt, l.kind = .charged amount feeAmount netAmount nextChargeAt := by
    unfold isCharge at hcharge
    cases hkind : l.kind with
    | charged => exact ⟨_, _, _, _, rfl⟩
    | skipped =>
        rw [hkind] at hcharge
        cases hcharge
  obtain ⟨n, hok⟩ := (apply_charge_eq_ok hkind).mp happly
  obtain ⟨-, sub, merchant, merchantAddress, hsub, -, -, -, -, hcases⟩ :=
    insertSubscriptionCharge_eq_ok.mp hok
  set in_ := l.chargeInput p subscriptionId amount feeAmount netAmount nextChargeAt with hin
  -- both branches write the same to the tables the tally is about
  have hsubs : db'.subscriptions = Function.update db.subscriptions (int64 subscriptionId)
      (some (sub.bump in_.nextChargeAt)) := by
    rcases hcases with ⟨-, -, rfl⟩ | ⟨-, -, -, rfl⟩
    · rw [recordAttempt_frame]
      rfl
    · rw [recordCharge_frame]
      rfl
  have hcharges : db'.charges = (db.recordAttempt in_ (int64 subscriptionId) sub).charges := by
    rcases hcases with ⟨-, -, rfl⟩ | ⟨-, -, -, rfl⟩
    · rfl
    · rw [recordCharge_frame]
      rfl
  have hevents : ∀ a, db'.webhookEvents.countP (·.reports (int64 subscriptionId) a) =
      db.webhookEvents.countP (·.reports (int64 subscriptionId) a) := by
    intro a
    rcases hcases with ⟨-, -, rfl⟩ | ⟨-, -, -, rfl⟩
    · rw [recordAttempt_frame]
      rfl
    · rw [recordCharge_frame]
      simp [WebhookEvent.reports]
  refine ⟨⟨_, by rw [hsubs, Function.update_self], ?_⟩, fun a => ?_, fun a ha => ?_⟩
  · obtain ⟨sub', hsub', hcounters⟩ := h.subscription
    obtain rfl : sub' = sub := Option.some.inj (hsub'.symm.trans hsub)
    exact hcounters.charge hcharge _
  · rw [hevents a, h.events a, counted_append, List.nil_append, counted_singleton,
      if_neg (not_counts_of_charge hcharge), List.append_nil]
  · rw [hcharges]
    by_cases hattempt : l.attempt = a
    · have hbefore : AttemptRow before in_.chargeAttemptId (db.charges in_.chargeAttemptId) :=
        h.rows l.attempt (hattempt ▸ ha)
      obtain ⟨row, hrow, hstatus⟩ :=
        recordAttempt_succeeded in_ (int64 subscriptionId) sub hbefore
      subst hattempt
      exact hrow.symm ▸ AttemptRow.charge hcharge hstatus
    · rw [recordAttempt_other in_ _ sub (Ne.symm hattempt)]
      exact (h.rows a ha).other hattempt

theorem isFailure_of_skip {outcome : ChargeOutcomeCode} (hkind : l.kind = .skipped outcome) :
    l.isFailure = isPaymentFailure outcome := by
  rw [isFailure, hkind]

theorem isCharge_of_skip {outcome : ChargeOutcomeCode} (hkind : l.kind = .skipped outcome) :
    l.isCharge = false := by
  rw [isCharge, hkind]

/-- A projected skip that is new is a payment failure that counts, or opens its attempt. -/
theorem fresh_eq_some {outcome : ChargeOutcomeCode} (hkind : l.kind = .skipped outcome)
    (hrow : AttemptRow before l.attempt (db.charges l.attempt))
    (htime : ∀ l' ∈ before, l'.time ≤ l.time) {row : SubscriptionChargeRow}
    (hfresh : (l.skipInput subscriptionId outcome).fresh? db sub = some row) :
    AttemptRow (before ++ [l]) l.attempt (some row) ∧ (l.isFailure = true → Counts before l) := by
  have hcharge := isCharge_of_skip hkind
  have hfailure := isFailure_of_skip hkind
  have hcounts := hrow.counts_iff (l := l)
  unfold SubscriptionChargeSkippedInput.fresh? skipInput at hfresh
  generalize hrow? : db.charges l.attempt = row? at hrow hcounts hfresh
  cases row? with
  | none =>
      obtain rfl := Option.some.inj hfresh
      exact ⟨hrow.opened hcharge rfl rfl, fun hf => (hcounts hf htime).mpr fun _ h => by cases h⟩
  | some row₀ =>
      simp only at hfresh
      split at hfresh
      · rename_i hrepeats
        obtain rfl := Option.some.inj hfresh
        have hf := hfailure.trans hrepeats.1
        have hnew : Counts before l := (hcounts hf htime).mpr fun _ h => by
          obtain rfl := Option.some.inj h
          exact hrepeats.2
        have hstatus : row₀.status = .failed := by
          have := hrepeats.2
          simp only [SubscriptionChargeRow.repeatsAt, Bool.and_eq_true, decide_eq_true_eq] at this
          exact this.1
        exact ⟨hrow.refailed hnew hcharge htime hstatus rfl, fun _ => hnew⟩
      · cases hfresh

/-- A projected skip that is not new does not count. -/
theorem fresh_eq_none {outcome : ChargeOutcomeCode} (hkind : l.kind = .skipped outcome)
    (hrow : AttemptRow before l.attempt (db.charges l.attempt))
    (htime : ∀ l' ∈ before, l'.time ≤ l.time)
    (hfresh : (l.skipInput subscriptionId outcome).fresh? db sub = none) :
    AttemptRow (before ++ [l]) l.attempt (db.charges l.attempt) ∧ ¬ Counts before l := by
  have hcharge := isCharge_of_skip hkind
  have hfailure := isFailure_of_skip hkind
  have hcounts := hrow.counts_iff (l := l)
  have hskip := hrow.skip (l := l)
  unfold SubscriptionChargeSkippedInput.fresh? skipInput at hfresh
  generalize hrow? : db.charges l.attempt = row? at hrow hcounts hskip hfresh
  cases row? with
  | none => cases hfresh
  | some row₀ =>
      simp only [ite_eq_right_iff, reduceCtorEq, imp_false, not_and] at hfresh
      have hnot : ¬ Counts before l := fun hc =>
        hfresh (hfailure.symm.trans hc.1) ((hcounts hc.1 htime).mp hc row₀ rfl)
      exact ⟨hskip (Option.some_ne_none _) hcharge htime fun _ => hnot, hnot⟩

theorem recordFailure_frame (in_ : SubscriptionChargeSkippedInput) (sub : SubscriptionRow)
    (row : SubscriptionChargeRow) :
    (db.recordFailure in_ sub row).subscriptions =
        (if sub.status.retries = true then Function.update db.subscriptions
          (int64 in_.onchainSubscriptionId) (some (sub.flag in_.blockTimestamp))
        else db.subscriptions) ∧
      (db.recordFailure in_ sub row).charges =
        Function.update db.charges in_.chargeAttemptId (some row) ∧
      (db.recordFailure in_ sub row).webhookEvents = db.webhookEvents ++
        [⟨.subscription_charge_failed, "subscription.charge_failed", sub.merchantId, sub.mode,
          .failedCharge (int64 in_.onchainSubscriptionId) in_.chargeAttemptId⟩] := by
  unfold Db.recordFailure Db.flagAtRisk
  split
  · exact ⟨rfl, rfl, rfl⟩
  · exact ⟨rfl, rfl, rfl⟩

/-- A projected skip keeps the tally. -/
theorem Tally.skip (h : Tally (int64 subscriptionId) sub₀ db₀ before db)
    {outcome : ChargeOutcomeCode} (hkind : l.kind = .skipped outcome)
    (hopen : db₀.charges l.attempt = none) (htime : ∀ l' ∈ before, l'.time ≤ l.time)
    (happly : p.apply (l.log subscriptionId).1 (l.log subscriptionId).2 db = .ok ((), db')) :
    Tally (int64 subscriptionId) sub₀ db₀ (before ++ [l]) db' := by
  have hcharge := isCharge_of_skip hkind
  have hfailure := isFailure_of_skip hkind
  have hrow := h.rows l.attempt hopen
  have hattempt : (l.skipInput subscriptionId outcome).chargeAttemptId = l.attempt := rfl
  obtain ⟨n, hok⟩ := (apply_skip_eq_ok hkind).mp happly
  obtain ⟨-, -, sub, hsub, hcases⟩ := insertSubscriptionChargeSkip_eq_ok.mp hok
  have hsub : db.subscriptions (int64 subscriptionId) = some sub := hsub
  obtain ⟨sub', hsub', hcounters⟩ := h.subscription
  obtain rfl : sub' = sub := Option.some.inj (hsub'.symm.trans hsub)
  have hother : ∀ a, a ≠ l.attempt → db₀.charges a = none →
      AttemptRow (before ++ [l]) a (db.charges a) := fun a hne ha => (h.rows a ha).other (Ne.symm hne)
  have hcount : ∀ a, (counted [] (before ++ [l])).countP (·.attempt = a) =
      (counted [] before).countP (·.attempt = a) +
        (if Counts before l then [l] else []).countP (·.attempt = a) := by
    intro a
    rw [counted_append, List.nil_append, counted_singleton, List.countP_append]
  rcases hcases with ⟨hfresh, -, rfl⟩ | ⟨row, hfresh, -, -, ⟨hnone, rfl⟩ | ⟨hfail, -, rfl⟩⟩
  · -- replayed, or noise about an attempt that has its row
    obtain ⟨hrow', hnot⟩ := fresh_eq_none hkind hrow htime hfresh
    refine ⟨⟨sub', hsub, hcounters.skip hcharge hnot⟩, fun a => ?_, fun a ha => ?_⟩
    · rw [h.events a, hcount a, if_neg hnot, List.countP_nil, Nat.add_zero]
    · by_cases ha' : a = l.attempt
      · exact ha' ▸ hrow'
      · exact hother a ha' ha
  · -- not a payment failure: the attempt's row is opened and nothing else
    obtain ⟨hrow', -⟩ := fresh_eq_some hkind hrow htime hfresh
    have hnone : isPaymentFailure outcome = false := hnone
    have hnot : ¬ Counts before l := fun hc =>
      Bool.false_ne_true (hnone.symm.trans (hfailure.symm.trans hc.1))
    refine ⟨⟨sub', hsub, hcounters.skip hcharge hnot⟩, fun a => ?_, fun a ha => ?_⟩
    · rw [hcount a, if_neg hnot, List.countP_nil, Nat.add_zero]
      exact h.events a
    · by_cases ha' : a = l.attempt
      · rw [ha', Db.putCharge_charges, hattempt, Function.update_self]
        exact hrow'
      · rw [Db.putCharge_charges, hattempt, Function.update_of_ne ha']
        exact hother a ha' ha
  · -- a payment failure that counts
    obtain ⟨hrow', hcounts⟩ := fresh_eq_some hkind hrow htime hfresh
    have hcounts := hcounts (hfailure.trans hfail)
    obtain ⟨hsubs, hcharges, hevents⟩ := @recordFailure_frame db
      (l.skipInput subscriptionId outcome) sub' row
    refine ⟨?_, fun a => ?_, fun a ha => ?_⟩
    · by_cases hretries : sub'.status.retries = true
      · rw [if_pos hretries] at hsubs
        exact ⟨sub'.flag l.time, by rw [hsubs]; exact Function.update_self _ _ _,
          hcounters.fail hcharge hcounts hretries⟩
      · rw [if_neg hretries] at hsubs
        exact ⟨sub', hsubs ▸ hsub, hcounters.fail_barred (Bool.not_eq_true _ ▸ hretries)⟩
    · rw [hevents, hcount a, if_pos hcounts, List.countP_append, h.events a, Nat.add_assoc]
      congr 1
      simp [WebhookEvent.reports, skipInput, Nat.add_comm]
    · rw [hcharges]
      by_cases ha' : a = l.attempt
      · rw [ha', hattempt, Function.update_self]
        exact hrow'
      · rw [hattempt, Function.update_of_ne ha']
        exact hother a ha' ha

/-! ## Whole runs -/

/-- The subscription as it is enrolled, with nothing failed. -/
structure Enrolled (db₀ : Db) (id : Int) (sub₀ : SubscriptionRow) : Prop where
  row : db₀.subscriptions id = some sub₀
  retryCount : sub₀.retryCount = 0
  nextRetryAt : sub₀.nextRetryAt = none

theorem tally_start (h : Enrolled db₀ (int64 subscriptionId) sub₀) :
    Tally (int64 subscriptionId) sub₀ db₀ [] db₀ where
  subscription := ⟨sub₀, h.row, rfl, fun _ => ⟨h.retryCount, h.nextRetryAt⟩,
    fun _ => ⟨rfl, h.retryCount, h.nextRetryAt⟩⟩
  events := fun _ => rfl
  rows := fun _ ha => ha ▸ .unseen fun _ hl => absurd hl List.not_mem_nil

theorem tally_run (h : Enrolled db₀ (int64 subscriptionId) sub₀) {logs : List ChargeLog}
    (hopen : ∀ l ∈ logs, db₀.charges l.attempt = none)
    (hordered : logs.Pairwise fun a b => a.time ≤ b.time)
    (hrun : p.applyAll (logs.map (·.log subscriptionId)) db₀ = .ok ((), db)) :
    Tally (int64 subscriptionId) sub₀ db₀ logs db := by
  induction logs using List.reverseRecOn generalizing db with
  | nil =>
      obtain rfl := applyAll_nil_eq_ok.mp hrun
      exact tally_start h
  | append_singleton logs l ih =>
      rw [List.map_append, applyAll_append_eq_ok] at hrun
      obtain ⟨db₁, hold, hlast⟩ := hrun
      rw [List.pairwise_append] at hordered
      have htally := ih (fun l' hl' => hopen l' (List.mem_append_left _ hl')) hordered.1 hold
      obtain ⟨db₂, happly, hnil⟩ := applyAll_cons_eq_ok.mp hlast
      obtain rfl := applyAll_nil_eq_ok.mp hnil
      cases hkind : l.kind with
      | charged => exact htally.charge (by rw [isCharge, hkind]) happly
      | skipped outcome =>
          exact htally.skip hkind (hopen l (List.mem_append_right _ List.mem_cons_self))
            (fun l' hl' => hordered.2.2 l' hl' l List.mem_cons_self) happly

/-- Each log once, and again as often as it is re-applied. -/
def deliveries (logs : List (ChargeLog × Nat)) : List ChargeLog :=
  logs.flatMap fun l => List.replicate (l.2 + 1) l.1

theorem deliveries_ordered {logs : List (ChargeLog × Nat)}
    (h : logs.Pairwise fun a b => a.1.time ≤ b.1.time) :
    (deliveries logs).Pairwise fun a b => a.time ≤ b.time := by
  refine List.pairwise_flatMap.mpr ⟨fun l _ => ?_, h.imp fun hab x hx y hy => ?_⟩
  · exact List.pairwise_replicate.mpr (Or.inr le_rfl)
  · rw [(List.mem_replicate.mp hx).2, (List.mem_replicate.mp hy).2]
    exact hab

/-- Two histories that tell `Counts` the same. -/
def SameHistory (before before' : List ChargeLog) : Prop :=
  (∀ l, l ∈ before ↔ l ∈ before') ∧
    ∀ a, before.find? (fun l => l.attempt = a) = before'.find? (fun l => l.attempt = a)

theorem SameHistory.counts_iff {before' : List ChargeLog} (h : SameHistory before before') :
    Counts before l ↔ Counts before' l := by
  simp only [Counts, h.1, h.2]

theorem SameHistory.append {before' : List ChargeLog} (h : SameHistory before before') (n : Nat) :
    SameHistory (before ++ List.replicate (n + 1) l) (before' ++ [l]) := by
  refine ⟨fun l' => ?_, fun a => ?_⟩
  · rw [List.mem_append, List.mem_append, h.1, List.mem_replicate, List.mem_singleton]
    simp
  · rw [List.find?_append, List.find?_append, h.2]
    congr 1
    by_cases ha : l.attempt = a
    · simp [List.replicate_succ, ha]
    · simp [ha]

theorem sameHistory_deliveries (logs : List (ChargeLog × Nat)) :
    SameHistory (deliveries logs) (logs.map (·.1)) := by
  induction logs using List.reverseRecOn with
  | nil => exact ⟨fun _ => Iff.rfl, fun _ => rfl⟩
  | append_singleton logs l ih =>
      have hlast : deliveries (logs ++ [l]) = deliveries logs ++ List.replicate (l.2 + 1) l.1 := by
        simp [deliveries]
      rw [hlast, List.map_append]
      exact ih.append l.2

theorem not_counts_again (hmem : l ∈ before) : ¬ Counts before l := fun h =>
  h.2.2.1 l hmem rfl h.1 rfl

/-- Applying a log again counts nothing. -/
theorem counted_replicate (logs : List ChargeLog) (n : Nat) :
    counted logs (List.replicate (n + 1) l) = counted logs [l] := by
  induction n with
  | zero => rfl
  | succ n ih =>
      have hmem : l ∈ logs ++ List.replicate (n + 1) l := by simp
      rw [List.replicate_succ', counted_append, counted_singleton (logs ++ _),
        if_neg (not_counts_again hmem), List.append_nil, ih]

theorem failuresSince_replicate (logs : List ChargeLog) (n : Nat) :
    failuresSince (logs ++ List.replicate (n + 1) l) = failuresSince (logs ++ [l]) := by
  induction n with
  | zero => rfl
  | succ n ih =>
      have hmem : l ∈ logs ++ List.replicate (n + 1) l := by simp
      rw [List.replicate_succ', ← List.append_assoc]
      cases hcharge : l.isCharge with
      | true => rw [failuresSince_charge _ hcharge, failuresSince_charge _ hcharge]
      | false =>
          rw [failuresSince_skip _ hcharge, if_neg (not_counts_again hmem), List.append_nil, ih]

theorem counted_deliveries (logs : List (ChargeLog × Nat)) :
    counted [] (deliveries logs) = counted [] (logs.map (·.1)) := by
  induction logs using List.reverseRecOn with
  | nil => rfl
  | append_singleton logs l ih =>
      have hlast : deliveries (logs ++ [l]) = deliveries logs ++ List.replicate (l.2 + 1) l.1 := by
        simp [deliveries]
      rw [hlast, List.map_append, counted_append, counted_append, ih, List.nil_append,
        counted_replicate, counted_singleton, List.map_singleton, counted_singleton,
        List.nil_append]
      simp only [(sameHistory_deliveries logs).counts_iff]

theorem failuresSince_deliveries (logs : List (ChargeLog × Nat)) :
    failuresSince (deliveries logs) = failuresSince (logs.map (·.1)) := by
  induction logs using List.reverseRecOn with
  | nil => rfl
  | append_singleton logs l ih =>
      have hlast : deliveries (logs ++ [l]) = deliveries logs ++ List.replicate (l.2 + 1) l.1 := by
        simp [deliveries]
      rw [hlast, List.map_append, failuresSince_replicate, List.map_singleton]
      cases hcharge : l.1.isCharge with
      | true => rw [failuresSince_charge _ hcharge, failuresSince_charge _ hcharge]
      | false =>
          rw [failuresSince_skip _ hcharge, failuresSince_skip _ hcharge, ih]
          simp only [(sameHistory_deliveries logs).counts_iff]

/-- A log about a subscription leaves an ended one ended. -/
theorem apply_ended (hsub : db.subscriptions (int64 subscriptionId) = some sub)
    (hended : sub.status = .cancelled ∨ sub.status = .lapsed)
    (happly : p.apply (l.log subscriptionId).1 (l.log subscriptionId).2 db = .ok ((), db')) :
    ∃ sub', db'.subscriptions (int64 subscriptionId) = some sub' ∧ sub'.status = sub.status := by
  have hbump : ∀ t, (sub.bump t).status = sub.status := by
    intro t
    have hactive : ¬ (sub.status = .at_risk ∨ sub.status = .trialing) := by
      rcases hended with h | h <;> rw [h] <;> decide
    exact if_neg hactive
  have hretries : ¬ sub.status.retries = true := by
    rcases hended with h | h <;> rw [h] <;> decide
  cases hkind : l.kind with
  | charged amount feeAmount netAmount nextChargeAt =>
      obtain ⟨n, hok⟩ := (apply_charge_eq_ok hkind).mp happly
      obtain ⟨-, sub', m, addr, hsub', -, -, -, -, hcases⟩ := insertSubscriptionCharge_eq_ok.mp hok
      obtain rfl : sub = sub' := Option.some.inj (hsub.symm.trans hsub')
      rcases hcases with ⟨-, -, rfl⟩ | ⟨-, -, -, rfl⟩
      · exact ⟨_, Function.update_self _ _ _, hbump _⟩
      · rw [recordCharge_frame]
        exact ⟨_, Function.update_self _ _ _, hbump _⟩
  | skipped outcome =>
      obtain ⟨n, hok⟩ := (apply_skip_eq_ok hkind).mp happly
      obtain ⟨-, -, sub', hsub', hcases⟩ := insertSubscriptionChargeSkip_eq_ok.mp hok
      obtain rfl : sub = sub' := Option.some.inj (hsub.symm.trans hsub')
      rcases hcases with ⟨-, -, rfl⟩ | ⟨row, -, -, -, ⟨-, rfl⟩ | ⟨-, -, rfl⟩⟩
      · exact ⟨sub, hsub, rfl⟩
      · exact ⟨sub, hsub, rfl⟩
      · obtain ⟨hsubs, -, -⟩ := @recordFailure_frame db
          (l.skipInput subscriptionId outcome) sub row
        rw [hsubs, if_neg hretries]
        exact ⟨sub, hsub, rfl⟩

/-- A skip that is not a payment failure. -/
theorem apply_noise {outcome : ChargeOutcomeCode} (hkind : l.kind = .skipped outcome)
    (hnoise : isPaymentFailure outcome = false)
    (happly : p.apply (l.log subscriptionId).1 (l.log subscriptionId).2 db = .ok ((), db')) :
    db'.subscriptions = db.subscriptions ∧ db'.webhookEvents = db.webhookEvents := by
  obtain ⟨n, hok⟩ := (apply_skip_eq_ok hkind).mp happly
  obtain ⟨-, -, sub, -, ⟨-, -, rfl⟩ | ⟨row, -, -, -, ⟨-, rfl⟩ | ⟨hfail, -⟩⟩⟩ :=
    insertSubscriptionChargeSkip_eq_ok.mp hok
  · exact ⟨rfl, rfl⟩
  · exact ⟨rfl, rfl⟩
  · exact absurd (hnoise.symm.trans hfail) Bool.false_ne_true

/-- A skip of an attempt that has succeeded. -/
theorem apply_skip_succeeded {outcome : ChargeOutcomeCode} (hkind : l.kind = .skipped outcome)
    {row : SubscriptionChargeRow} (hrow : db.charges l.attempt = some row)
    (hstatus : row.status = .succeeded)
    (happly : p.apply (l.log subscriptionId).1 (l.log subscriptionId).2 db = .ok ((), db')) :
    db' = db := by
  have hfresh : ∀ sub, (l.skipInput subscriptionId outcome).fresh? db sub = none := by
    intro sub
    have hrow : db.charges (l.skipInput subscriptionId outcome).chargeAttemptId = some row := hrow
    simp [SubscriptionChargeSkippedInput.fresh?, hrow, SubscriptionChargeRow.repeatsAt, hstatus]
  obtain ⟨n, hok⟩ := (apply_skip_eq_ok hkind).mp happly
  obtain ⟨-, -, sub, -, ⟨-, -, rfl⟩ | ⟨row', hsome, -⟩⟩ := insertSubscriptionChargeSkip_eq_ok.mp hok
  · rfl
  · rw [hfresh sub] at hsome
    cases hsome

/-- A run of a subscription's charge logs from its enrolment, each log applied once and again
right away any number of times. -/
structure ChargeRun (p : Projector) (subscriptionId : Nat) (sub₀ : SubscriptionRow) (db₀ : Db)
    (logs : List (ChargeLog × Nat)) (db : Db) : Prop where
  enrolled : Enrolled db₀ (int64 subscriptionId) sub₀
  unseen : ∀ l ∈ logs, db₀.charges l.1.attempt = none
  ordered : logs.Pairwise fun a b => a.1.time ≤ b.1.time
  projected : p.applyAll ((deliveries logs).map (·.log subscriptionId)) db₀ = .ok ((), db)

/-- What the projections of charges and skips keep in step. -/
structure FailuresAccounted (p : Projector) (subscriptionId : Nat) : Prop where
  /-- The counters are those of the counted failures since the last charge, and every counted
  failure is reported once. -/
  counters : ∀ sub₀ db₀ logs db, ChargeRun p subscriptionId sub₀ db₀ logs db →
    ∃ sub, db.subscriptions (int64 subscriptionId) = some sub ∧
      Counters sub₀ (logs.map (·.1)) sub ∧
      ∀ a, db.webhookEvents.countP (·.reports (int64 subscriptionId) a) =
        db₀.webhookEvents.countP (·.reports (int64 subscriptionId) a) +
          (counted [] (logs.map (·.1))).countP (·.attempt = a)
  /-- A skip that is not a payment failure touches neither the subscriptions nor the outbox. -/
  noise : ∀ db db' (l : ChargeLog) outcome, l.kind = .skipped outcome → isPaymentFailure outcome = false →
    p.apply (l.log subscriptionId).1 (l.log subscriptionId).2 db = .ok ((), db') →
    db'.subscriptions = db.subscriptions ∧ db'.webhookEvents = db.webhookEvents
  /-- A skip of an attempt that succeeded changes nothing. -/
  succeeded : ∀ db db' (l : ChargeLog) outcome row, l.kind = .skipped outcome →
    db.charges l.attempt = some row → row.status = .succeeded →
    p.apply (l.log subscriptionId).1 (l.log subscriptionId).2 db = .ok ((), db') → db' = db
  /-- A cancelled or lapsed subscription stays so. -/
  ended : ∀ db db' (l : ChargeLog) sub, db.subscriptions (int64 subscriptionId) = some sub →
    sub.status = .cancelled ∨ sub.status = .lapsed →
    p.apply (l.log subscriptionId).1 (l.log subscriptionId).2 db = .ok ((), db') →
    ∃ sub', db'.subscriptions (int64 subscriptionId) = some sub' ∧ sub'.status = sub.status

/-- Failures of charges are accounted for. -/
theorem failures_accounted (p : Projector) (subscriptionId : Nat) :
    FailuresAccounted p subscriptionId where
  counters := by
    intro sub₀ db₀ logs db hrun
    have hmem : ∀ l ∈ deliveries logs, ∃ l' ∈ logs, l'.1 = l := by
      intro l hl
      obtain ⟨l', hl', heq⟩ := List.mem_map.mp (((sameHistory_deliveries logs).1 l).mp hl)
      exact ⟨l', hl', heq⟩
    have htally : Tally (int64 subscriptionId) sub₀ db₀ (deliveries logs) db :=
      tally_run hrun.enrolled (fun l hl => by
        obtain ⟨l', hl', rfl⟩ := hmem l hl
        exact hrun.unseen l' hl')
      (deliveries_ordered hrun.ordered) hrun.projected
    obtain ⟨sub, hsub, hcounters⟩ := htally.subscription
    refine ⟨sub, hsub, ⟨hcounters.retries, ?_, hcounters.barred⟩, fun a => ?_⟩
    · rw [← failuresSince_deliveries]
      exact hcounters.allowed
    · rw [← counted_deliveries]
      exact htally.events a
  noise := fun _ _ _ _ hkind hnoise happly => apply_noise hkind hnoise happly
  succeeded := fun _ _ _ _ _ hkind hrow hstatus happly =>
    apply_skip_succeeded hkind hrow hstatus happly
  ended := fun _ _ _ _ hsub hended happly => apply_ended hsub hended happly

/-- The payment failures since the last charge, by attempt id and block time alone. -/
def distinctFailures (logs : List ChargeLog) : Nat :=
  ((((logs.rtakeWhile fun l => !l.isCharge).filter (·.isFailure)).map
    fun l => (l.attempt, l.time)).dedup).length

/-- Attempt id and block time alone do not tell which failures count: one that follows a skip of
the same attempt in the same block is taken for a replay of it, here after a skip because the
token was not allowed. -/
theorem retryCount_ne_distinctFailures :
    ¬ ∀ p subscriptionId sub₀ db₀ logs db, ChargeRun p subscriptionId sub₀ db₀ logs db →
      sub₀.status.retries = true → ∀ sub, db.subscriptions (int64 subscriptionId) = some sub →
        sub.retryCount = distinctFailures (logs.map (·.1)) := by
  intro hclaim
  let p : Projector := ⟨.test, fun _ => none, 1, fun _ => none, fun _ => none⟩
  let sub₀ : SubscriptionRow :=
    ⟨0, [7], ⟨[7], 10, .usdc, .monthly, 1⟩, .active, 3, .usdc, 10, .monthly, 1, none, 0, 100, 100,
      48, 0, none, none, none, .test⟩
  let db₀ : Db := { Db.empty with subscriptions := fun i => if i = 1 then some sub₀ else none }
  let notAllowed : ChargeLog := ⟨0, 10, 0, 0, 1000, 5, .skipped 11⟩
  let noFunds : ChargeLog := ⟨0, 10, 1, 1, 1000, 5, .skipped 2⟩
  have hcount : ((p.applyAll ([notAllowed, noFunds].map (·.log 1)) db₀).toOption.bind fun r =>
      (r.2.subscriptions 1).map (·.retryCount)) = some 0 := by decide
  cases hrun : p.applyAll ([notAllowed, noFunds].map (·.log 1)) db₀ with
  | error e =>
      rw [hrun] at hcount
      cases hcount
  | ok r =>
      obtain ⟨⟨⟩, db⟩ := r
      rw [hrun] at hcount
      obtain ⟨sub, hsub, hzero⟩ := Option.map_eq_some_iff.mp hcount
      have := hclaim p 1 sub₀ db₀ [(notAllowed, 0), (noFunds, 0)] db
        ⟨⟨by decide, rfl, rfl⟩, fun _ _ => rfl, by simp [notAllowed, noFunds], hrun⟩ rfl sub hsub
      rw [hzero] at this
      exact absurd this (by decide)

end Accounting

end Strimz.Indexer
