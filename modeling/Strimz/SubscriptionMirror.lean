import Strimz.BillingRows
import Strimz.DeadLetterSteps
import Strimz.SubscriptionLogs

/-!
# Subscriptions in the indexer's tables

What the indexer's tables are to show of the subscriptions contract (`Mirrors`): for every
subscription its due time, the period it has paid for, whether it is cancelled and how it is
doing; for every charge one attempt that succeeded with the period it paid for, one Transaction
and one event. The contract's log is applied by the indexer's own batch loop, parked logs
included, from a database that knows the merchants and no subscription.
-/

namespace Strimz.SubscriptionMirror

open Tx Subscriptions Indexer

/-! ## The stream -/

/-- Where a log stands on the chain. -/
structure Place where
  blockNumber : Nat
  txHash : Bytes32
  index : Nat
deriving Repr, DecidableEq

def Place.key (q : Place) : TxKey := ⟨q.txHash, q.index⟩

/-- The indexer, the contract's address, and the places of its logs. -/
structure Setup where
  projector : Projector
  address : Address
  places : Nat → Place

variable (S : Setup)

/-- The `n`-th log of the contract, with the time of its block. -/
def Setup.entry (n : Nat) (l : Subscriptions.Log) : Indexer.Log × Int :=
  (⟨S.address, (S.places n).blockNumber, (S.places n).txHash, (S.places n).index,
    Billing.decode l.event⟩, unix l.timestamp)

def Setup.stream (logs : List Subscriptions.Log) : List (Indexer.Log × Int) := logs.mapIdx S.entry

/-! ## What a row shows -/

/-- What a payment failure adds to, and a charge clears. -/
def countFailure (id n : Nat) (l : Subscriptions.Log) : Nat :=
  match l.event with
  | .subscriptionCharged i _ _ _ _ _ => if i = id then 0 else n
  | .subscriptionChargeSkipped i _ outcome =>
      if i = id ∧ isPaymentFailure (Billing.outcomeCode outcome) = true then n + 1 else n
  | _ => n

/-- The payment failures since the last charge. -/
def failures (id : Nat) (logs : List Subscriptions.Log) : Nat := logs.foldl (countFailure id) 0

def charges (id : Nat) (logs : List Subscriptions.Log) : List (Nat × Nat) :=
  logs.filterMap (chargeOf id)

/-- The block that enrolled a subscription, and when its first charge was due. -/
structure Enrolment where
  enrolledAt : Uint64
  startAt : Uint64

def Enrolment.Logged (e : Enrolment) (id : Nat) (logs : List Subscriptions.Log) : Prop :=
  ∃ l ∈ logs, l.timestamp = e.enrolledAt ∧ ∃ interval, enrolmentOf id l = some (interval, e.startAt)

/-- The first charge is due after the block. -/
def Enrolment.trial (e : Enrolment) : Bool := unix e.enrolledAt < unix e.startAt

/-- The period a row is to show: the one the last charge paid for, and before the first charge
the trial, or the first interval. -/
def Enrolment.period (e : Enrolment) (interval : Uint32) (charges : List (Nat × Nat)) : Int × Int :=
  match charges.getLast? with
  | some (_, next) => (next - interval.toNat, next)
  | none =>
      if e.trial then (unix e.enrolledAt, unix e.startAt)
      else (unix e.startAt, unix e.startAt + interval.toNat)

def Enrolment.status (e : Enrolment) (cancelled : Bool) (retryCount : Nat)
    (charges : List (Nat × Nat)) : SubscriptionStatus :=
  if cancelled then .cancelled
  else if 0 < retryCount then .at_risk
  else if e.trial && charges.isEmpty then .trialing
  else .active

/-- A row shows the subscription the contract has, and what its log says of it. -/
structure ShowsSubscription (db₀ : Db) (b : Book) (id : Nat) (row : SubscriptionRow) : Prop where
  merchant : ∃ m address, db₀.merchantByOnchain (b.subscriptions id).merchantId = some m ∧
    m.payoutAddress = some address ∧ row.merchantId = m.id
  payer : row.payerAddress = (b.subscriptions id).payer
  amount : row.amount = (b.subscriptions id).amount.toNat
  currency : S.projector.tokens (b.subscriptions id).token = some row.currency
  due : row.nextChargeAt = unix (b.subscriptions id).nextChargeAt
  enrolment : ∃ e : Enrolment, e.Logged id b.logs ∧
    (row.currentPeriodStartAt, row.currentPeriodEndAt) =
      e.period (b.subscriptions id).interval (charges id b.logs) ∧
    row.status = e.status (b.subscriptions id).cancelled row.retryCount (charges id b.logs)
  /-- So a charge clears both. -/
  retries : row.retryCount ≤ failures id b.logs ∧ (row.retryCount = 0 → row.nextRetryAt = none)

/-! ## What the ledger shows -/

/-- A charge the log reports. -/
structure Settled where
  id : Nat
  attempt : Bytes32
  amount : Uint256
  feeAmount : Uint256
  netAmount : Uint256
  nextChargeAt : Uint64

def settledOf (l : Subscriptions.Log) : Option Settled :=
  match l.event with
  | .subscriptionCharged id attempt amount feeAmount netAmount nextChargeAt =>
      some ⟨id, attempt, amount, feeAmount, netAmount, nextChargeAt⟩
  | _ => none

/-- The subscription a log hands out. -/
def createdOf (l : Subscriptions.Log) : Option Nat :=
  match l.event with
  | .subscriptionCreated id _ _ _ _ _ _ => some id
  | _ => none

/-- The attempt of a charge succeeded with the period it paid for, and its Transaction is the
one at its place. -/
structure ShowsCharge (db : Db) (q : Place) (t : Uint64) (sub : Subscription) (x : Settled) :
    Prop where
  charge : ∃ row, db.charges x.attempt = some row ∧ row.status = .succeeded ∧
    row.periodStartAt = unix x.nextChargeAt - sub.interval.toNat ∧
    row.periodEndAt = unix x.nextChargeAt ∧ row.amount = x.amount.toNat
  transaction : ∃ tx, db.transactions q.key = some tx ∧ tx.kind = .subscription_charge ∧
    tx.status = .confirmed ∧ tx.subscriptionId = some (x.id : Int) ∧
    tx.subscriptionChargeId = some x.attempt ∧ tx.amount = x.amount.toNat ∧
    tx.feeAmount = x.feeAmount.toNat ∧ tx.netAmount = x.netAmount.toNat ∧
    tx.payerAddress = sub.payer ∧ tx.blockNumber = q.blockNumber ∧ tx.blockTimestamp = unix t
  payment : db.chargePayments x.attempt = some q.key

/-- The events of a type, by what they are about. -/
def refsOf (type : WebhookEventName) (db : Db) : List EventRef :=
  (db.webhookEvents.filter fun e => e.type = type).map (·.ref)

def Setup.chargedRef (n : Nat) (l : Subscriptions.Log) : List EventRef :=
  ((settledOf l).map fun x => .charge x.id x.attempt (S.places n).key).toList

def createdRef (l : Subscriptions.Log) : List EventRef :=
  ((createdOf l).map fun id => .subscription id).toList

/-- The tables after the contract's log so far: `db₀` is what they began as. -/
structure Mirrors (db₀ : Db) (b : Book) (db : Db) : Prop where
  rows : ∀ id, 1 ≤ id → id < b.nextSubscriptionId →
    ∃ row, db.subscriptions (id : Int) = some row ∧ ShowsSubscription S db₀ b id row
  noOtherRows : ∀ i, db.subscriptions i ≠ none →
    ∃ id : Nat, 1 ≤ id ∧ id < b.nextSubscriptionId ∧ i = id
  charges : ∀ n l, b.logs[n]? = some l → ∀ x, settledOf l = some x →
    ShowsCharge db (S.places n) l.timestamp (b.subscriptions x.id) x
  noOtherCharges : ∀ a row, db.charges a = some row → row.status ≠ .failed →
    ∃ l ∈ b.logs, ∃ x, settledOf l = some x ∧ x.attempt = a
  noOtherTransactions : ∀ k, db.transactions k ≠ db₀.transactions k →
    ∃ n l, b.logs[n]? = some l ∧ settledOf l ≠ none ∧ k = (S.places n).key
  chargedEvents : refsOf .subscription_charged db =
    refsOf .subscription_charged db₀ ++ (b.logs.mapIdx S.chargedRef).flatten
  createdEvents : refsOf .subscription_created db =
    refsOf .subscription_created db₀ ++ b.logs.flatMap createdRef

/-! ## The runs it is about -/

/-- More than `2 ^ 32` seconds and a day before PostgreSQL's last timestamp, which leaves room
for an interval and a retry. -/
def LATEST_TIME : Nat := 9220000000000

/-- No subscription is known, the logs are new, and merchant ids are unique. -/
structure Setup.Fresh (db₀ : Db) : Prop where
  subscriptions : ∀ i, db₀.subscriptions i = none
  charges : ∀ a, db₀.charges a = none
  chargePayments : ∀ a, db₀.chargePayments a = none
  transactions : ∀ n, db₀.transactions (S.places n).key = none
  enrolments : ∀ n, db₀.enrolments (S.places n).txHash = none
  merchants : (db₀.merchants.map (·.id)).Nodup
  places : ∀ n n', (S.places n).key = (S.places n').key → n = n'

def Dated (logs : List Subscriptions.Log) : Prop :=
  ∀ l ∈ logs, l.timestamp.toNat ≤ LATEST_TIME

/-- What the log must be for the tables to hold it: the merchant of every enrolment is linked
and has a payout address, its token is known, and no two enrolments share a transaction; ids and
start times fit their columns. -/
structure Setup.Holds (db₀ : Db) (logs : List Subscriptions.Log) : Prop where
  few : logs.length ≤ MAX_INT4
  enrolled : ∀ l ∈ logs, ∀ id merchantId payer token amount interval startAt,
    l.event = .subscriptionCreated id merchantId payer token amount interval startAt →
    startAt.toNat ≤ LATEST_TIME ∧ merchantId ≤ MAX_INT4 ∧ S.projector.tokens token ≠ none ∧
      ∃ m, db₀.merchantByOnchain merchantId = some m ∧ m.payoutAddress ≠ none
  apart : ∀ n n' l l', logs[n]? = some l → logs[n']? = some l' → createdOf l ≠ none →
    createdOf l' ≠ none → (S.places n).txHash = (S.places n').txHash → n = n'
  skipped : ∀ l ∈ logs, ∀ id attempt outcome,
    l.event = .subscriptionChargeSkipped id attempt outcome → id ≤ MAX_INT4

end Strimz.SubscriptionMirror
