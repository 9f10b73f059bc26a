import Strimz.IndexerEvents

/-!
# The indexer's database

The tables the projections read and write (`packages/db/prisma/schema`). A row is found
by its natural key: a table whose rows the indexer inserts is a partial function from the
unique key it conflicts on, and the other unique keys of such a table are functions of
their own (`enrolments`, `sessionPayments`, `chargePayments`), which is what the unique
indexes are. Tables the indexer only updates, by columns that need not be unique, are
lists. A generated row id is represented by the row's key; columns that only ever hold
`NOW()` and columns no projection reads or writes are left out.
-/

namespace Strimz.Indexer

open Tx

/-- Ids the API hands out, as text. -/
abbrev RowId := Bytes

/-! ## Rows -/

inductive MerchantStatus where
  | active
  | suspended
  | closed
deriving Repr, DecidableEq

structure MerchantRow where
  id : RowId
  onchainMerchantId : Option Int
  onchainRegistrationTxHash : Option Bytes32
  onchainFeeBps : Option Uint16
  onchainMaxFeeBps : Option Uint16
  onchainFeeTxHash : Option Bytes32
  onchainFeeChangedAt : Option Int
  /-- `none` also for the empty string, as `COALESCE` reads it. -/
  payoutAddress : Option Address
  status : MerchantStatus
deriving Repr, DecidableEq

inductive PaymentSessionStatus where
  | created
  | awaiting_payment
  | submitted
  | confirmed
  | failed
  | expired
  | cancelled
deriving Repr, DecidableEq

structure PaymentSessionRow where
  merchantId : RowId
  amount : String
  currency : Currency
  mode : Mode
  status : PaymentSessionStatus
  onchainTxHash : Option Bytes32
  payerWalletAddress : Option Address
deriving Repr, DecidableEq

inductive InvoiceStatus where
  | draft
  | sent
  | paid
  | overdue
  | void
deriving Repr, DecidableEq

structure InvoiceRow where
  id : RowId
  status : InvoiceStatus
deriving Repr, DecidableEq

/-- The columns `findOrCreatePlan` matches on. -/
structure PlanKey where
  merchantId : RowId
  amount : Nat
  currency : Currency
  interval : SubscriptionInterval
  intervalCount : Nat
deriving Repr, DecidableEq

inductive SubscriptionStatus where
  | trialing
  | active
  | at_risk
  | paused
  | cancelled
  | lapsed
deriving Repr, DecidableEq

/-- What `MarkSubscriptionCancelled` writes as the reason. -/
structure OnchainCancel where
  by_ : Address
  txHash : Bytes32
deriving Repr, DecidableEq

/-- A cancellation reason: the indexer's own, or text the API wrote. -/
inductive CancellationReason where
  | onchain (cancel : OnchainCancel)
  | text (s : String)
deriving Repr, DecidableEq

structure SubscriptionRow where
  enrolmentTxHash : Bytes32
  merchantId : RowId
  plan : PlanKey
  status : SubscriptionStatus
  payerAddress : Address
  currency : Currency
  amount : Nat
  interval : SubscriptionInterval
  intervalCount : Nat
  trialEndsAt : Option Int
  currentPeriodStartAt : Int
  currentPeriodEndAt : Int
  nextChargeAt : Int
  gracePeriodHours : Nat
  retryCount : Nat
  nextRetryAt : Option Int
  cancelledAt : Option Int
  cancellationReason : Option CancellationReason
  mode : Mode
deriving Repr, DecidableEq

inductive SubscriptionChargeStatus where
  | pending
  | in_flight
  | succeeded
  | failed
  | retrying
  | abandoned
deriving Repr, DecidableEq

structure SubscriptionChargeRow where
  subscriptionId : Int
  merchantId : RowId
  periodStartAt : Int
  periodEndAt : Int
  amount : Nat
  currency : Currency
  status : SubscriptionChargeStatus
  outcome : Option SubscriptionChargeOutcome
  attemptNumber : Nat
  scheduledAt : Int
  executedAt : Option Int
  onchainTxHash : Option Bytes32
deriving Repr, DecidableEq

inductive TransactionKind where
  | one_shot
  | subscription_charge
  | refund
  | invoice_payment
  | storefront_purchase
deriving Repr, DecidableEq

inductive TransactionStatus where
  | pending
  | confirmed
  | failed
deriving Repr, DecidableEq

/-- The unique key `(onchainTxHash, logIndex)`. -/
structure TxKey where
  onchainTxHash : Bytes32
  logIndex : Nat
deriving Repr, DecidableEq

structure TransactionRow where
  merchantId : RowId
  kind : TransactionKind
  status : TransactionStatus
  sessionId : Option RowId
  subscriptionId : Option Int
  subscriptionChargeId : Option Bytes32
  amount : Nat
  feeAmount : Nat
  netAmount : Nat
  currency : Currency
  payerAddress : Address
  merchantAddress : Option Address
  blockNumber : Nat
  blockTimestamp : Int
  mode : Mode
deriving Repr, DecidableEq

inductive AgentJobStatus where
  | proposed
  | accepted
  | funded
  | in_progress
  | delivered
  | approved
  | completed
  | disputed
  | cancelled
  | resolved
  | reclaimed
deriving Repr, DecidableEq

structure AgentJobRow where
  id : RowId
  merchantId : RowId
  onchainJobId : Option Int
  vendorAddress : Address
  status : AgentJobStatus
  deliverableHash : Option Bytes32
  escrowTxHash : Option Bytes32
  releaseTxHash : Option Bytes32
  completedAt : Option Int
deriving Repr, DecidableEq

inductive RefundStatus where
  | pending
  | awaiting_signature
  | submitted
  | completed
  | failed
  | cancelled
deriving Repr, DecidableEq

structure RefundRow where
  id : RowId
  merchantId : RowId
  refundTxHash : Option String
  status : RefundStatus
  mode : Mode
  completedAt : Option Int
deriving Repr, DecidableEq

/-! ## Outbox and audit rows -/

inductive WebhookEventName where
  | payment_completed
  | invoice_paid
  | subscription_created
  | subscription_charged
  | subscription_charge_failed
  | refund_completed
deriving Repr, DecidableEq

/-- The ids an outbox event carries. -/
inductive EventRef where
  | payment (sessionId : RowId) (transactionId : TxKey)
  | invoice (invoiceId : RowId) (transactionId : TxKey)
  | subscription (subscriptionId : Int)
  | charge (subscriptionId : Int) (chargeId : Bytes32) (transactionId : TxKey)
  | failedCharge (subscriptionId : Int) (chargeId : Bytes32)
  | refund (refundId : RowId)
deriving Repr, DecidableEq

structure WebhookEvent where
  type : WebhookEventName
  kind : String
  merchantId : RowId
  mode : Mode
  ref : EventRef
deriving Repr, DecidableEq

inductive AuditCategory where
  | merchant
  | payment
  | subscription
  | agent
  | admin
deriving Repr, DecidableEq

inductive TargetId where
  | row (id : RowId)
  | subscription (id : Int)
  | onchain (id : Nat)
  | address (a : Address)
deriving Repr, DecidableEq

/-- A metadata value. `raw` is a string straight from a log; nested objects are spelt
with dotted keys. -/
inductive Json where
  | string (s : String)
  | strings (xs : List String)
  | raw (b : Bytes)
  | row (id : RowId)
  | address (a : Address)
  | hash (h : Bytes32)
  | hex (data : Bytes)
  | number (n : Int)
  | decimal (n : Int)
  | time (t : Int)
deriving Repr, DecidableEq

abbrev Metadata := List (String × Json)

structure AuditEntry where
  category : AuditCategory
  action : String
  targetType : String
  targetId : TargetId
  metadata : Metadata
deriving Repr, DecidableEq

/-- `OnchainLogRef.auditID` -/
structure AuditId where
  chainId : Nat
  txHash : Bytes32
  logIndex : Nat
deriving Repr, DecidableEq

/-- `id = none` is a row with a generated id. -/
structure AuditLogRow where
  id : Option AuditId
  merchantId : Option RowId
  entry : AuditEntry
deriving Repr, DecidableEq

/-! ## Errors -/

/-- The errors that wrap `ErrUnresolvable`, with what their texts name. -/
inductive Unresolvable where
  | decode (address : Address) (txHash : Bytes32) (index : Nat)
  | unknownToken (token : Address)
  | paymentUnlinkedMerchant (txHash : Bytes32) (merchantId : Nat)
  | createdUnlinkedMerchant (subscriptionId merchantId : Nat)
  | unknownSubscription (event : String) (subscriptionId : Nat)
  | unknownJob (action : String) (jobId : Nat)
  | feeAccruedUnlinkedMerchant (txHash : Bytes32) (merchantId : Nat)
deriving Repr, DecidableEq

/-- Every other error a projection can end in while the database is up. -/
inductive Fault where
  | int4OutOfRange
  | timestampOutOfRange
  | nulCharacter
  | valueTooLong
  | uniqueViolation (columns : String)
  | noBlockTimestamp
  | noPayoutAddress
deriving Repr, DecidableEq

inductive ApplyError where
  | unresolvable (reason : Unresolvable)
  | fault (f : Fault)
deriving Repr, DecidableEq

/-! ## The database -/

structure DeadLetter where
  log : Log
  blockTimestamp : Int
  reason : Unresolvable
  attempts : Nat
  resolved : Bool
deriving Repr, DecidableEq

/-- `strimzCore` is the stream's key, `contract` a per-contract cursor's. -/
inductive CursorKey where
  | strimzCore
  | contract (address : Address)
deriving Repr, DecidableEq

structure Checkpoint where
  lastProcessedBlock : Nat
  lastBlockHash : Option Bytes32
deriving Repr, DecidableEq

/-- Dead letters and cursors are those of the indexer's own chain. -/
structure Db where
  merchants : List MerchantRow
  sessions : RowId → Option PaymentSessionRow
  /-- By `sessionId`, which is unique. -/
  invoices : RowId → Option InvoiceRow
  /-- Whether an active plan has these attributes. -/
  plans : PlanKey → Bool
  customers : RowId → Address → Bool
  /-- By `onchainSubscriptionId`. -/
  subscriptions : Int → Option SubscriptionRow
  /-- The unique index on `enrolmentTxHash`. -/
  enrolments : Bytes32 → Option Int
  /-- By `chargeAttemptId`. -/
  charges : Bytes32 → Option SubscriptionChargeRow
  transactions : TxKey → Option TransactionRow
  /-- The unique index on `Transaction.sessionId`. -/
  sessionPayments : RowId → Option TxKey
  /-- The unique index on `Transaction.subscriptionChargeId`. -/
  chargePayments : Bytes32 → Option TxKey
  agentJobs : List AgentJobRow
  refunds : List RefundRow
  webhookEvents : List WebhookEvent
  auditLogs : List AuditLogRow
  contractAlerts : AuditId → Bool
  merchantSecurityAlerts : AuditId → Option RowId
  deadLetters : List DeadLetter
  cursors : CursorKey → Option Checkpoint

/-- What the migrations leave. -/
def Db.empty : Db where
  merchants := []
  sessions := fun _ => none
  invoices := fun _ => none
  plans := fun _ => false
  customers := fun _ _ => false
  subscriptions := fun _ => none
  enrolments := fun _ => none
  charges := fun _ => none
  transactions := fun _ => none
  sessionPayments := fun _ => none
  chargePayments := fun _ => none
  agentJobs := []
  refunds := []
  webhookEvents := []
  auditLogs := []
  contractAlerts := fun _ => false
  merchantSecurityAlerts := fun _ => none
  deadLetters := []
  cursors := fun _ => none

/-- A statement, or a function of statements, inside the batch's transaction. -/
abbrev Projection (α : Type) := Tx ApplyError Db α

/-! ## Parameters -/

/-- `big.Int.Int64`, which keeps the low 64 bits. -/
def int64 (n : Nat) : Int := (BitVec.ofNat 64 n).toInt

/-- The largest value of an `integer` column. -/
def MAX_INT4 : Nat := 2147483647

/-- An id bound to an `integer` column. -/
def int4Param (n : Nat) : Projection Int := do
  revertIf (int64 n < -2147483648 ∨ MAX_INT4 < int64 n) (.fault .int4OutOfRange)
  return int64 n

/-- 24 November 4714 BC. -/
def MIN_TIMESTAMP : Int := -210866803200
/-- 1 January 294277. -/
def END_TIMESTAMP : Int := 9224318016000

def timestampParam (t : Int) : Projection Unit :=
  revertIf (t < MIN_TIMESTAMP ∨ END_TIMESTAMP ≤ t) (.fault .timestampOutOfRange)

/-- `time.Unix(int64(t), 0)` -/
def unix (t : Uint64) : Int := t.toInt

/-- Whether `json.Marshal` leaves an escaped U+0000 in the value. -/
def Json.hasNul : Json → Bool
  | .raw b => b.contains 0
  | _ => false

def jsonbParam (metadata : Metadata) : Projection Unit :=
  revertIf (metadata.any fun field => field.2.hasNul) (.fault .nulCharacter)

/-- Only `onchain:<id>` can outgrow its `varchar(64)`. -/
def TargetId.tooLong : TargetId → Bool
  | .onchain id => 10 ^ 56 ≤ id
  | _ => false

def targetParam (target : TargetId) : Projection Unit :=
  revertIf target.tooLong (.fault .valueTooLong)

/-! ## Writes -/

@[simps]
def Db.putSession (db : Db) (id : RowId) (row : PaymentSessionRow) : Db :=
  { db with sessions := Function.update db.sessions id (some row) }

@[simps]
def Db.putInvoice (db : Db) (sessionId : RowId) (row : InvoiceRow) : Db :=
  { db with invoices := Function.update db.invoices sessionId (some row) }

@[simps]
def Db.putPlan (db : Db) (key : PlanKey) : Db :=
  { db with plans := Function.update db.plans key true }

@[simps]
def Db.putCustomer (db : Db) (merchantId : RowId) (wallet : Address) : Db :=
  let row := Function.update (db.customers merchantId) wallet true
  { db with customers := Function.update db.customers merchantId row }

@[simps]
def Db.putSubscription (db : Db) (id : Int) (row : SubscriptionRow) : Db :=
  { db with subscriptions := Function.update db.subscriptions id (some row) }

@[simps]
def Db.putEnrolment (db : Db) (txHash : Bytes32) (id : Int) : Db :=
  { db with enrolments := Function.update db.enrolments txHash (some id) }

@[simps]
def Db.putCharge (db : Db) (chargeAttemptId : Bytes32) (row : SubscriptionChargeRow) : Db :=
  { db with charges := Function.update db.charges chargeAttemptId (some row) }

@[simps]
def Db.putTransaction (db : Db) (key : TxKey) (row : TransactionRow) : Db :=
  { db with transactions := Function.update db.transactions key (some row) }

@[simps]
def Db.putSessionPayment (db : Db) (sessionId : RowId) (key : TxKey) : Db :=
  { db with sessionPayments := Function.update db.sessionPayments sessionId (some key) }

@[simps]
def Db.putChargePayment (db : Db) (chargeAttemptId : Bytes32) (key : TxKey) : Db :=
  { db with chargePayments := Function.update db.chargePayments chargeAttemptId (some key) }

@[simps]
def Db.mapMerchants (db : Db) (f : MerchantRow → MerchantRow) : Db :=
  { db with merchants := db.merchants.map f }

@[simps]
def Db.mapAgentJobs (db : Db) (f : AgentJobRow → AgentJobRow) : Db :=
  { db with agentJobs := db.agentJobs.map f }

@[simps]
def Db.mapRefunds (db : Db) (f : RefundRow → RefundRow) : Db :=
  { db with refunds := db.refunds.map f }

@[simps]
def Db.emit (db : Db) (e : WebhookEvent) : Db :=
  { db with webhookEvents := db.webhookEvents ++ [e] }

@[simps]
def Db.audit (db : Db) (row : AuditLogRow) : Db :=
  { db with auditLogs := db.auditLogs ++ [row] }

@[simps]
def Db.alert (db : Db) (id : AuditId) : Db :=
  { db with contractAlerts := Function.update db.contractAlerts id true }

@[simps]
def Db.alertMerchant (db : Db) (id : AuditId) (merchantId : RowId) : Db :=
  { db with merchantSecurityAlerts :=
      Function.update db.merchantSecurityAlerts id (some merchantId) }

end Strimz.Indexer
