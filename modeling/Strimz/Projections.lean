import Strimz.Database

/-!
# The store's projections

The write methods of `store/projections.go`, `store/onchain_audit.go` and
`store/helpers.go`, statement by statement. A row count is the method's result;
`pgx.ErrNoRows` is `none`. Parameters are checked where the statement that binds them
runs, and an `UPDATE` whose `WHERE` is not a unique key maps over the table.
-/

namespace Strimz.Indexer

open Tx

/-! ## Lookups and shared statements -/

def Db.merchantByOnchain (db : Db) (id : Int) : Option MerchantRow :=
  db.merchants.find? fun m => m.onchainMerchantId = some id

def Db.merchantById (db : Db) (id : RowId) : Option MerchantRow :=
  db.merchants.find? fun m => m.id = id

def lookupMerchantByOnchain (onchainId : Nat) : Projection (Option MerchantRow) := do
  let id ← int4Param onchainId
  let db ← get
  return db.merchantByOnchain id

/-- What the three writers of audit rows with generated ids share. -/
def insertAudit (merchantId : Option RowId) (e : AuditEntry) : Projection Unit := do
  targetParam e.targetId
  jsonbParam e.metadata
  modify (·.audit ⟨none, merchantId, e⟩)

def appendAudit (e : AuditEntry) : Projection Unit := insertAudit none e

def appendAuditWithMerchant (merchantId : RowId) (e : AuditEntry) : Projection Unit :=
  insertAudit (some merchantId) e

def insertAuditInTx (merchantId : RowId) (e : AuditEntry) : Projection Unit :=
  insertAudit (some merchantId) e

def insertOutboxEvent (type : WebhookEventName) (kind : String) (merchantId : RowId)
    (mode : Mode) (ref : EventRef) : Projection Unit :=
  modify (·.emit ⟨type, kind, merchantId, mode, ref⟩)

/-- The `Transaction` insert with its two unique indexes. -/
def Db.insertTransaction (db : Db) (key : TxKey) (row : TransactionRow) : Db :=
  let db := db.putTransaction key row
  let db := match row.sessionId with
    | some sessionId => db.putSessionPayment sessionId key
    | none => db
  match row.subscriptionChargeId with
    | some chargeId => db.putChargePayment chargeId key
    | none => db

/-- `INSERT INTO "Transaction" … ON CONFLICT ("onchainTxHash", "logIndex") DO NOTHING`:
whether a row went in. -/
def insertTransaction (key : TxKey) (row : TransactionRow) : Projection Bool := do
  timestampParam row.blockTimestamp
  let db ← get
  if (db.transactions key).isSome then return false
  else do
    revertIf (row.sessionId.any fun id => (db.sessionPayments id).isSome)
      (.fault (.uniqueViolation "sessionId"))
    revertIf (row.subscriptionChargeId.any fun id => (db.chargePayments id).isSome)
      (.fault (.uniqueViolation "subscriptionChargeId"))
    modify (·.insertTransaction key row)
    return true

/-! ## Merchant registry -/

structure OnchainFee where
  feeBps : Uint16
  maxFeeBps : Uint16
  txHash : Bytes32
  at_ : Int

/-- The `WHERE` of `LinkOnchainMerchant`. -/
def MerchantRow.linksTo (m : MerchantRow) (id : Int) (registrationTxHash : Bytes32) : Bool :=
  (m.onchainRegistrationTxHash = some registrationTxHash &&
      (m.onchainMerchantId = none || m.onchainMerchantId = some id)) ||
    m.onchainMerchantId = some id

def MerchantRow.link (m : MerchantRow) (id : Int) (fee : OnchainFee) : MerchantRow :=
  { m with onchainMerchantId := some id, onchainFeeBps := some fee.feeBps,
           onchainMaxFeeBps := some fee.maxFeeBps, onchainFeeTxHash := some fee.txHash,
           onchainFeeChangedAt := some fee.at_ }

def linkOnchainMerchant (onchainId : Nat) (registrationTxHash : Bytes32) (fee : OnchainFee) :
    Projection Nat := do
  let id ← int4Param onchainId
  timestampParam fee.at_
  let db ← get
  let matched := db.merchants.countP fun m => m.linksTo id registrationTxHash
  revertIf (1 < matched) (.fault (.uniqueViolation "onchainMerchantId"))
  modify (·.mapMerchants fun m =>
    if m.linksTo id registrationTxHash then m.link id fee else m)
  return matched

/-- What the four updates by `onchainMerchantId` share. -/
def updateMerchant (onchainId : Nat) (set : MerchantRow → MerchantRow) : Projection Nat := do
  let id ← int4Param onchainId
  let db ← get
  modify (·.mapMerchants fun m => if m.onchainMerchantId = some id then set m else m)
  return db.merchants.countP fun m => m.onchainMerchantId = some id

def setMerchantOnchainFeeBps (onchainId : Nat) (feeBps : Uint16) (txHash : Bytes32) (at_ : Int) :
    Projection Nat := do
  timestampParam at_
  updateMerchant onchainId fun m =>
    { m with onchainFeeBps := some feeBps, onchainFeeTxHash := some txHash,
             onchainFeeChangedAt := some at_ }

def setMerchantOnchainMaxFeeBps (onchainId : Nat) (maxFeeBps : Uint16) (txHash : Bytes32)
    (at_ : Int) : Projection Nat := do
  timestampParam at_
  updateMerchant onchainId fun m =>
    { m with onchainMaxFeeBps := some maxFeeBps, onchainFeeTxHash := some txHash,
             onchainFeeChangedAt := some at_ }

def updateMerchantPayoutAddress (onchainId : Nat) (newPayoutAddress : Address) : Projection Nat :=
  updateMerchant onchainId fun m => { m with payoutAddress := some newPayoutAddress }

def setMerchantActive (onchainId : Nat) (active : Bool) : Projection Nat :=
  updateMerchant onchainId fun m =>
    { m with status := if active then .active else .suspended }

def logMerchantFeeBpsChange (onchainId : Nat) (newFeeBps : Uint16) (txHash : Bytes32) :
    Projection Unit :=
  appendAudit
    { category := .merchant, action := "merchant.fee_bps_changed_onchain",
      targetType := "Merchant", targetId := .onchain onchainId,
      metadata := [("newFeeBps", .number newFeeBps.toNat), ("transactionHash", .hash txHash)] }

/-! ## Payments (one-shot) -/

structure OneShotTxInput where
  merchantOnchainId : Nat
  payerAddress : Address
  amount : Nat
  feeAmount : Nat
  netAmount : Nat
  currency : Currency
  sessionRef : Bytes
  onchainTxHash : Bytes32
  blockNumber : Nat
  blockTimestamp : Int
  logIndex : Nat
  mode : Mode

def OneShotTxInput.key (in_ : OneShotTxInput) : TxKey := ⟨in_.onchainTxHash, in_.logIndex⟩

/-- The digits of `big.Int.SetString(s, 10)`. -/
def digits? (ds : List Char) : Option Nat :=
  if ds ≠ [] ∧ ds.all Char.isDigit then
    some (ds.foldl (fun n c => 10 * n + (c.toNat - '0'.toNat)) 0)
  else none

/-- `new(big.Int).SetString(s, 10)` -/
def bigInt? (s : String) : Option Int :=
  match s.toList with
  | '-' :: ds => (digits? ds).map fun n => -(n : Int)
  | '+' :: ds => (digits? ds).map fun n => (n : Int)
  | ds => (digits? ds).map fun n => (n : Int)

/-- `sameAmount`; the log's side is its own decimal. -/
def sameAmount (a : String) (b : Nat) : Bool := bigInt? a = some (b : Int)

def PaymentSessionRow.mismatches (p : PaymentSessionRow) (hasTransaction : Bool)
    (paidMerchantId : RowId) (in_ : OneShotTxInput) : List String :=
  (if p.merchantId ≠ paidMerchantId then ["merchant"] else []) ++
  (if sameAmount p.amount in_.amount = false then ["amount"] else []) ++
  (if p.currency ≠ in_.currency then ["currency"] else []) ++
  (if p.mode ≠ in_.mode then ["mode"] else []) ++
  (if p.status = .confirmed ∨ hasTransaction = true then ["already_paid"] else [])

def Currency.symbol : Currency → String
  | .usdc => "USDC"
  | .eurc => "EURC"

def Mode.text : Mode → String
  | .test => "test"
  | .live => "live"

def PaymentSessionStatus.text : PaymentSessionStatus → String
  | .created => "created"
  | .awaiting_payment => "awaiting_payment"
  | .submitted => "submitted"
  | .confirmed => "confirmed"
  | .failed => "failed"
  | .expired => "expired"
  | .cancelled => "cancelled"

def sessionMismatchAudit (sessionId : RowId) (session : PaymentSessionRow)
    (mismatches : List String) (merchantId : RowId) (in_ : OneShotTxInput) : AuditEntry where
  category := .payment
  action := "payment.session_mismatch"
  targetType := "PaymentSession"
  targetId := .row sessionId
  metadata :=
    [("reasons", .strings mismatches), ("transactionId.hash", .hash in_.onchainTxHash),
     ("transactionId.logIndex", .number in_.logIndex),
     ("transactionHash", .hash in_.onchainTxHash),
     ("paid.merchantId", .row merchantId), ("paid.amount", .decimal in_.amount),
     ("paid.currency", .string in_.currency.symbol), ("paid.mode", .string in_.mode.text),
     ("session.merchantId", .row session.merchantId), ("session.amount", .string session.amount),
     ("session.currency", .string session.currency.symbol),
     ("session.mode", .string session.mode.text), ("session.status", .string session.status.text)]

def oneShotTransaction (in_ : OneShotTxInput) (merchant : MerchantRow)
    (sessionId : Option RowId) : TransactionRow where
  merchantId := merchant.id
  kind := .one_shot
  status := .confirmed
  sessionId := sessionId
  subscriptionId := none
  subscriptionChargeId := none
  amount := in_.amount
  feeAmount := in_.feeAmount
  netAmount := in_.netAmount
  currency := in_.currency
  payerAddress := in_.payerAddress
  merchantAddress := merchant.payoutAddress
  blockNumber := in_.blockNumber
  blockTimestamp := in_.blockTimestamp
  mode := in_.mode

/-- `UPDATE "PaymentSession" … WHERE id = $1 AND status != 'confirmed'` -/
def confirmSession (sessionId : RowId) (in_ : OneShotTxInput) : Projection Unit := do
  let db ← get
  match db.sessions sessionId with
  | none => pure ()
  | some row =>
      if row.status = .confirmed then pure ()
      else modify (·.putSession sessionId
        { row with status := .confirmed, onchainTxHash := some in_.onchainTxHash,
                   payerWalletAddress := some in_.payerAddress })

/-- `UPDATE "Invoice" … RETURNING id`, and `invoice.paid` on the transition. -/
def payInvoice (sessionId : RowId) (merchantId : RowId) (in_ : OneShotTxInput) :
    Projection Unit := do
  let db ← get
  match db.invoices sessionId with
  | none => pure ()
  | some invoice =>
      if invoice.status = .paid ∨ invoice.status = .void then pure ()
      else do
        modify (·.putInvoice sessionId { invoice with status := .paid })
        insertOutboxEvent .invoice_paid "invoice.paid" merchantId in_.mode
          (.invoice invoice.id in_.key)

/-- The last statements of `InsertOneShotTransaction`, for a payment that settles. -/
def settleSession (sessionId : RowId) (merchantId : RowId) (in_ : OneShotTxInput) :
    Projection Unit := do
  confirmSession sessionId in_
  insertOutboxEvent .payment_completed "payment.completed" merchantId in_.mode
    (.payment sessionId in_.key)
  payInvoice sessionId merchantId in_

def insertOneShotTransaction (in_ : OneShotTxInput) : Projection Nat := do
  let db ← get
  let session := if in_.sessionRef = [] then none else db.sessions in_.sessionRef
  match ← lookupMerchantByOnchain in_.merchantOnchainId with
  | none => throw (.unresolvable
      (.paymentUnlinkedMerchant in_.onchainTxHash in_.merchantOnchainId))
  | some merchant =>
      let hasTransaction := (db.sessionPayments in_.sessionRef).isSome
      let mismatches := match session with
        | none => []
        | some row => row.mismatches hasTransaction merchant.id in_
      let settles := session.isSome ∧ mismatches = []
      let sessionId := if settles then some in_.sessionRef else none
      let inserted ← insertTransaction in_.key (oneShotTransaction in_ merchant sessionId)
      if inserted = false then return 0
      else do
        match session with
        | none => pure ()
        | some row =>
            if mismatches = [] then settleSession in_.sessionRef merchant.id in_
            else
              insertAuditInTx merchant.id
                (sessionMismatchAudit in_.sessionRef row mismatches merchant.id in_)
        return 1

/-! ## Subscriptions -/

structure SubscriptionCreatedInput where
  onchainSubscriptionId : Nat
  merchantOnchainId : Nat
  payerAddress : Address
  currency : Currency
  amount : Nat
  interval : SubscriptionInterval
  intervalCount : Nat
  startAt : Int
  blockTimestamp : Int
  currentPeriodEndAt : Int
  nextChargeAt : Int
  onchainTxHash : Bytes32
  mode : Mode

/-- Go's zero `time.Time`. -/
def ZERO_TIME : Int := -62135596800

def upsertCustomer (merchantId : RowId) (wallet : Address) : Projection Unit :=
  modify (·.putCustomer merchantId wallet)

def findOrCreatePlan (key : PlanKey) : Projection Unit := do
  let db ← get
  if db.plans key = true then pure () else modify (·.putPlan key)

/-- A start after the block opens a trial that runs until it. -/
def SubscriptionCreatedInput.trial (in_ : SubscriptionCreatedInput) : Bool :=
  in_.blockTimestamp < in_.startAt

def SubscriptionCreatedInput.planKey (in_ : SubscriptionCreatedInput) (merchantId : RowId) :
    PlanKey :=
  ⟨merchantId, in_.amount, in_.currency, in_.interval, in_.intervalCount⟩

def createdSubscription (in_ : SubscriptionCreatedInput) (merchantId : RowId) :
    SubscriptionRow where
  enrolmentTxHash := in_.onchainTxHash
  merchantId := merchantId
  plan := in_.planKey merchantId
  status := if in_.trial then .trialing else .active
  payerAddress := in_.payerAddress
  currency := in_.currency
  amount := in_.amount
  interval := in_.interval
  intervalCount := in_.intervalCount
  trialEndsAt := if in_.trial then some in_.startAt else none
  currentPeriodStartAt := if in_.trial then in_.blockTimestamp else in_.startAt
  currentPeriodEndAt := if in_.trial then in_.startAt else in_.currentPeriodEndAt
  nextChargeAt := in_.nextChargeAt
  gracePeriodHours := 48
  retryCount := 0
  nextRetryAt := none
  cancelledAt := none
  cancellationReason := none
  mode := in_.mode

/-- `INSERT INTO "Subscription" … ON CONFLICT ("onchainSubscriptionId") DO NOTHING`. -/
def insertSubscription (onchainId : Nat) (row : SubscriptionRow) : Projection Bool := do
  let id ← int4Param onchainId
  timestampParam row.currentPeriodStartAt
  timestampParam row.currentPeriodEndAt
  timestampParam row.nextChargeAt
  let db ← get
  if (db.subscriptions id).isSome then return false
  else do
    revertIf ((db.enrolments row.enrolmentTxHash).isSome)
      (.fault (.uniqueViolation "enrolmentTxHash"))
    modify fun db => (db.putSubscription id row).putEnrolment row.enrolmentTxHash id
    return true

def upsertSubscriptionFromOnchain (in_ : SubscriptionCreatedInput) : Projection Nat := do
  revertIf (in_.blockTimestamp = ZERO_TIME) (.fault .noBlockTimestamp)
  match ← lookupMerchantByOnchain in_.merchantOnchainId with
  | none => throw (.unresolvable
      (.createdUnlinkedMerchant in_.onchainSubscriptionId in_.merchantOnchainId))
  | some merchant =>
      upsertCustomer merchant.id in_.payerAddress
      findOrCreatePlan (in_.planKey merchant.id)
      let inserted ← insertSubscription in_.onchainSubscriptionId
        (createdSubscription in_ merchant.id)
      if inserted = false then return 0
      else do
        insertOutboxEvent .subscription_created "subscription.created" merchant.id in_.mode
          (.subscription (int64 in_.onchainSubscriptionId))
        return 1

structure SubscriptionChargedInput where
  onchainSubscriptionId : Nat
  chargeAttemptId : Bytes32
  amount : Nat
  feeAmount : Nat
  netAmount : Nat
  nextChargeAt : Int
  onchainTxHash : Bytes32
  blockNumber : Nat
  blockTimestamp : Int
  logIndex : Nat
  mode : Mode

def SubscriptionChargedInput.key (in_ : SubscriptionChargedInput) : TxKey :=
  ⟨in_.onchainTxHash, in_.logIndex⟩

/-- The row `InsertSubscriptionCharge` inserts. -/
def chargedRow (in_ : SubscriptionChargedInput) (subscriptionId : Int) (sub : SubscriptionRow) :
    SubscriptionChargeRow where
  subscriptionId := subscriptionId
  merchantId := sub.merchantId
  periodStartAt := sub.nextChargeAt
  periodEndAt := in_.nextChargeAt
  amount := in_.amount
  currency := sub.currency
  status := .succeeded
  outcome := some .charged
  attemptNumber := 1
  scheduledAt := in_.blockTimestamp
  executedAt := some in_.blockTimestamp
  onchainTxHash := some in_.onchainTxHash

/-- Its `ON CONFLICT ("chargeAttemptId") DO UPDATE`, of a row that failed. -/
def upgradedRow (in_ : SubscriptionChargedInput) (sub : SubscriptionRow)
    (row : SubscriptionChargeRow) : SubscriptionChargeRow :=
  { row with status := .succeeded, outcome := some .charged, periodStartAt := sub.nextChargeAt,
             periodEndAt := in_.nextChargeAt, amount := in_.amount,
             executedAt := some in_.blockTimestamp, onchainTxHash := some in_.onchainTxHash }

def upsertCharge (in_ : SubscriptionChargedInput) (subscriptionId : Int) (sub : SubscriptionRow) :
    Projection Unit := do
  timestampParam in_.nextChargeAt
  timestampParam in_.blockTimestamp
  let db ← get
  match db.charges in_.chargeAttemptId with
  | none => modify (·.putCharge in_.chargeAttemptId (chargedRow in_ subscriptionId sub))
  | some row =>
      if row.status = .failed then
        modify (·.putCharge in_.chargeAttemptId (upgradedRow in_ sub row))
      else pure ()

def chargeTransaction (in_ : SubscriptionChargedInput) (subscriptionId : Int)
    (sub : SubscriptionRow) (merchantAddress : Address) : TransactionRow where
  merchantId := sub.merchantId
  kind := .subscription_charge
  status := .confirmed
  sessionId := none
  subscriptionId := some subscriptionId
  subscriptionChargeId := some in_.chargeAttemptId
  amount := in_.amount
  feeAmount := in_.feeAmount
  netAmount := in_.netAmount
  currency := sub.currency
  payerAddress := sub.payerAddress
  merchantAddress := some merchantAddress
  blockNumber := in_.blockNumber
  blockTimestamp := in_.blockTimestamp
  mode := in_.mode

/-- The period bump: the paid period starts where the charge was due. -/
def SubscriptionRow.bump (sub : SubscriptionRow) (nextChargeAt : Int) : SubscriptionRow :=
  { sub with currentPeriodStartAt := sub.nextChargeAt, currentPeriodEndAt := nextChargeAt,
             nextChargeAt := nextChargeAt, retryCount := 0, nextRetryAt := none,
             status := if sub.status = .at_risk ∨ sub.status = .trialing then .active
                       else sub.status }

/-- The subscription with its merchant, by `JOIN`. -/
def Db.subscriptionAndMerchant (db : Db) (id : Int) : Option (SubscriptionRow × MerchantRow) := do
  let sub ← db.subscriptions id
  let merchant ← db.merchantById sub.merchantId
  return (sub, merchant)

def insertSubscriptionCharge (in_ : SubscriptionChargedInput) : Projection Nat := do
  let id ← int4Param in_.onchainSubscriptionId
  let db ← get
  match db.subscriptionAndMerchant id with
  | none => throw (.unresolvable
      (.unknownSubscription "SubscriptionCharged" in_.onchainSubscriptionId))
  | some (sub, merchant) =>
      match merchant.payoutAddress with
      | none => throw (.fault .noPayoutAddress)
      | some merchantAddress =>
          upsertCharge in_ id sub
          let isNewTx ← insertTransaction in_.key (chargeTransaction in_ id sub merchantAddress)
          modify (·.putSubscription id (sub.bump in_.nextChargeAt))
          if isNewTx = false then return 0
          else do
            insertOutboxEvent .subscription_charged "subscription.charged" sub.merchantId in_.mode
              (.charge id in_.chargeAttemptId in_.key)
            return 1

structure SubscriptionPeriodsSkippedInput where
  onchainSubscriptionId : Nat
  periodsSkipped : Nat
  paidPeriodStart : Int
  onchainTxHash : Bytes32

def periodsSkippedAudit (in_ : SubscriptionPeriodsSkippedInput) (subscriptionId : Int) :
    AuditEntry where
  category := .subscription
  action := "subscription.periods_skipped"
  targetType := "Subscription"
  targetId := .subscription subscriptionId
  metadata :=
    [("periodsSkipped", .number in_.periodsSkipped),
     ("paidPeriodStart", .time in_.paidPeriodStart), ("txHash", .hash in_.onchainTxHash)]

def recordSubscriptionPeriodsSkipped (in_ : SubscriptionPeriodsSkippedInput) :
    Projection Nat := do
  let id ← int4Param in_.onchainSubscriptionId
  timestampParam in_.paidPeriodStart
  let db ← get
  match db.subscriptions id with
  | none => throw (.unresolvable
      (.unknownSubscription "SubscriptionPeriodsSkipped" in_.onchainSubscriptionId))
  | some sub =>
      modify (·.putSubscription id { sub with nextChargeAt := in_.paidPeriodStart })
      insertAuditInTx sub.merchantId (periodsSkippedAudit in_ id)
      return 1

structure SubscriptionChargeSkippedInput where
  onchainSubscriptionId : Nat
  chargeAttemptId : Bytes32
  outcome : SubscriptionChargeOutcome
  isPaymentFailure : Bool
  blockTimestamp : Int

def skippedRow (in_ : SubscriptionChargeSkippedInput) (subscriptionId : Int)
    (sub : SubscriptionRow) : SubscriptionChargeRow where
  subscriptionId := subscriptionId
  merchantId := sub.merchantId
  periodStartAt := sub.currentPeriodStartAt
  periodEndAt := sub.currentPeriodEndAt
  amount := sub.amount
  currency := sub.currency
  status := .failed
  outcome := some in_.outcome
  attemptNumber := 1
  scheduledAt := in_.blockTimestamp
  executedAt := some in_.blockTimestamp
  onchainTxHash := none

/-- The `WHERE` of the repeat: the row failed in an earlier block. -/
def SubscriptionChargeRow.repeatsAt (row : SubscriptionChargeRow) (t : Int) : Bool :=
  row.status = .failed && row.executedAt.any fun executedAt => executedAt < t

/-- Inserts the attempt, or repeats a failed one: whether this is a failure not seen yet. -/
def upsertSkip (in_ : SubscriptionChargeSkippedInput) (subscriptionId : Int)
    (sub : SubscriptionRow) : Projection Bool := do
  timestampParam in_.blockTimestamp
  let db ← get
  match db.charges in_.chargeAttemptId with
  | none => do
      modify (·.putCharge in_.chargeAttemptId (skippedRow in_ subscriptionId sub))
      return true
  | some row =>
      if in_.isPaymentFailure = true ∧ row.repeatsAt in_.blockTimestamp = true then do
        revertIf (MAX_INT4 ≤ row.attemptNumber) (.fault .int4OutOfRange)
        modify (·.putCharge in_.chargeAttemptId
          { row with outcome := some in_.outcome, executedAt := some in_.blockTimestamp,
                     attemptNumber := row.attemptNumber + 1 })
        return true
      else return false

/-- The escalating backoff, in seconds. -/
def retryBackoff (retryCount : Nat) : Int :=
  if retryCount ≤ 1 then 900
  else if retryCount = 2 then 3600
  else if retryCount = 3 then 10800
  else if retryCount = 4 then 21600
  else if retryCount = 5 then 43200
  else 86400

def SubscriptionStatus.retries : SubscriptionStatus → Bool
  | .trialing | .active | .at_risk => true
  | .paused | .cancelled | .lapsed => false

def SubscriptionRow.flag (sub : SubscriptionRow) (t : Int) : SubscriptionRow :=
  { sub with status := .at_risk, retryCount := sub.retryCount + 1,
             nextRetryAt := some (t + retryBackoff (sub.retryCount + 1)) }

/-- `UPDATE "Subscription" SET status = 'at_risk' …` -/
def flagAtRisk (id : Int) (sub : SubscriptionRow) (t : Int) : Projection Unit :=
  if sub.status.retries = true then do
    revertIf (MAX_INT4 ≤ sub.retryCount) (.fault .int4OutOfRange)
    timestampParam (t + retryBackoff (sub.retryCount + 1))
    modify (·.putSubscription id (sub.flag t))
  else pure ()

def insertSubscriptionChargeSkip (in_ : SubscriptionChargeSkippedInput) : Projection Nat := do
  let id ← int4Param in_.onchainSubscriptionId
  let db ← get
  match db.subscriptions id with
  | none => throw (.unresolvable
      (.unknownSubscription "SubscriptionChargeSkipped" in_.onchainSubscriptionId))
  | some sub =>
      let isNewFailure ← upsertSkip in_ id sub
      if isNewFailure = false then return 0
      else if in_.isPaymentFailure = false then return 1
      else do
        insertOutboxEvent .subscription_charge_failed "subscription.charge_failed"
          sub.merchantId sub.mode (.failedCharge id in_.chargeAttemptId)
        flagAtRisk id sub in_.blockTimestamp
        return 1

def SubscriptionRow.cancel (sub : SubscriptionRow) (by_ : Address) (txHash : Bytes32) (t : Int) :
    SubscriptionRow :=
  { sub with status := .cancelled, cancelledAt := some (sub.cancelledAt.getD t),
             cancellationReason :=
               some (sub.cancellationReason.getD (.onchain ⟨by_, txHash⟩)) }

def markSubscriptionCancelled (onchainSubId : Nat) (by_ : Address) (txHash : Bytes32)
    (blockTimestamp : Int) : Projection Nat := do
  let id ← int4Param onchainSubId
  timestampParam blockTimestamp
  let db ← get
  match db.subscriptions id with
  | none => throw (.unresolvable (.unknownSubscription "SubscriptionCancelled" onchainSubId))
  | some sub =>
      if sub.status = .cancelled ∨ sub.status = .lapsed then return 0
      else do
        modify (·.putSubscription id (sub.cancel by_ txHash blockTimestamp))
        return 1

/-! ## Refunds -/

/-- `common.Hash.Hex`: 64 digits in lower case. -/
def hashText (h : Bytes32) : String :=
  String.ofList ('0' :: 'x' :: (List.range 64).map fun i =>
    Nat.digitChar (h.toNat / 16 ^ (63 - i) % 16))

def RefundRow.completes (r : RefundRow) (refundTxHash : String) : Bool :=
  r.refundTxHash = some refundTxHash && r.status = .submitted

def completeRefundByTxHash (refundTxHash : String) (blockTimestamp : Int) : Projection Nat := do
  timestampParam blockTimestamp
  let db ← get
  match db.refunds.find? fun r => r.completes refundTxHash with
  | none => return 0
  | some refund =>
      modify (·.mapRefunds fun r =>
        if r.completes refundTxHash then
          { r with status := .completed, completedAt := some blockTimestamp }
        else r)
      insertOutboxEvent .refund_completed "refund.completed" refund.merchantId refund.mode
        (.refund refund.id)
      return 1

/-! ## Agent jobs -/

def AgentJobRow.linksTo (j : AgentJobRow) (escrowTxHash : Bytes32) (vendor : Address) : Bool :=
  j.escrowTxHash = some escrowTxHash && j.vendorAddress = vendor && j.onchainJobId = none

def linkAgentJobOnchain (onchainJobId : Nat) (vendor : Address) (escrowTxHash : Bytes32) :
    Projection Nat := do
  let id ← int4Param onchainJobId
  let db ← get
  let matched := db.agentJobs.countP fun j => j.linksTo escrowTxHash vendor
  revertIf (1 < matched ∨ matched = 1 ∧ db.agentJobs.any fun j => j.onchainJobId = some id)
    (.fault (.uniqueViolation "onchainJobId"))
  modify (·.mapAgentJobs fun j =>
    if j.linksTo escrowTxHash vendor then
      { j with onchainJobId := some id, status := .in_progress }
    else j)
  return matched

structure AgentJobStatusInput where
  onchainJobId : Nat
  newStatus : AgentJobStatus
  deliverableHash : Option Bytes32
  releaseTxHash : Option Bytes32
  blockTimestamp : Int
  completedAt : Bool

def AgentJobRow.moveTo (j : AgentJobRow) (in_ : AgentJobStatusInput) : AgentJobRow :=
  { j with status := in_.newStatus, deliverableHash := in_.deliverableHash <|> j.deliverableHash,
           releaseTxHash := in_.releaseTxHash <|> j.releaseTxHash,
           completedAt := if in_.completedAt then some (j.completedAt.getD in_.blockTimestamp)
                          else j.completedAt }

def setAgentJobStatus (in_ : AgentJobStatusInput) : Projection Nat := do
  let id ← int4Param in_.onchainJobId
  timestampParam in_.blockTimestamp
  let db ← get
  modify (·.mapAgentJobs fun j =>
    if j.onchainJobId = some id ∧ j.status ≠ in_.newStatus then j.moveTo in_ else j)
  return db.agentJobs.countP fun j => j.onchainJobId = some id ∧ j.status ≠ in_.newStatus

def Db.jobByOnchain (db : Db) (id : Int) : Option AgentJobRow :=
  db.agentJobs.find? fun j => j.onchainJobId = some id

def logAgentJobEvent (onchainJobId : Nat) (action : String) (metadata : Metadata) :
    Projection Unit := do
  let id ← int4Param onchainJobId
  let db ← get
  match db.jobByOnchain id with
  | none => throw (.unresolvable (.unknownJob action onchainJobId))
  | some job =>
      appendAuditWithMerchant job.merchantId
        { category := .agent, action := action, targetType := "AgentJob",
          targetId := .row job.id,
          metadata := metadata ++ [("onchainJobId", .decimal onchainJobId)] }

/-! ## Fee accruals -/

def logFeeAccrued (onchainMerchantId : Nat) (token : Address) (amount : Nat) (txHash : Bytes32) :
    Projection Unit := do
  match ← lookupMerchantByOnchain onchainMerchantId with
  | none => throw (.unresolvable (.feeAccruedUnlinkedMerchant txHash onchainMerchantId))
  | some merchant =>
      appendAuditWithMerchant merchant.id
        { category := .agent, action := "fees.accrued", targetType := "Merchant",
          targetId := .row merchant.id,
          metadata := [("token", .address token), ("amount", .decimal amount),
                       ("transactionHash", .hash txHash)] }

/-! ## Audit rows keyed by their log -/

structure OnchainLogRef where
  chainId : Nat
  txHash : Bytes32
  logIndex : Nat
  blockNumber : Nat

def OnchainLogRef.auditId (r : OnchainLogRef) : AuditId := ⟨r.chainId, r.txHash, r.logIndex⟩

def OnchainLogRef.metadata (r : OnchainLogRef) (extra : Metadata) : Metadata :=
  extra ++ [("transactionHash", .hash r.txHash), ("logIndex", .number r.logIndex),
            ("blockNumber", .number r.blockNumber)]

def Db.hasAudit (db : Db) (id : AuditId) : Bool := db.auditLogs.any fun row => row.id = some id

/-- `INSERT INTO "AuditLog" … ON CONFLICT (id) DO NOTHING` -/
def insertOnchainAudit (id : AuditId) (merchantId : Option RowId) (e : AuditEntry) :
    Projection Unit := do
  targetParam e.targetId
  jsonbParam e.metadata
  let db ← get
  if db.hasAudit id = true then pure ()
  else modify (·.audit ⟨some id, merchantId, e⟩)

/-- `INSERT INTO "ContractAlert" … ON CONFLICT ("auditLogId") DO NOTHING` -/
def insertContractAlert (id : AuditId) : Projection Unit := modify (·.alert id)

/-- `INSERT INTO "MerchantSecurityAlert" … ON CONFLICT ("auditLogId") DO NOTHING` -/
def insertMerchantSecurityAlert (id : AuditId) (merchantId : RowId) : Projection Unit := do
  let db ← get
  if (db.merchantSecurityAlerts id).isSome then pure ()
  else modify (·.alertMerchant id merchantId)

structure MerchantGovernanceInput where
  log : OnchainLogRef
  onchainMerchantId : Nat
  action : String
  metadata : Metadata
  alert : Bool

def MerchantGovernanceInput.entry (in_ : MerchantGovernanceInput)
    (merchant : Option MerchantRow) : AuditEntry where
  category := .merchant
  action := in_.action
  targetType := "Merchant"
  targetId := match merchant with
    | some m => .row m.id
    | none => .onchain in_.onchainMerchantId
  metadata := in_.log.metadata in_.metadata ++
    [("onchainMerchantId", .decimal in_.onchainMerchantId)]

def logMerchantGovernance (in_ : MerchantGovernanceInput) : Projection Unit := do
  let merchant ← lookupMerchantByOnchain in_.onchainMerchantId
  insertOnchainAudit in_.log.auditId (merchant.map (·.id)) (in_.entry merchant)
  if in_.alert = false then pure ()
  else do
    insertContractAlert in_.log.auditId
    match merchant with
    | none => pure ()
    | some m => insertMerchantSecurityAlert in_.log.auditId m.id

structure ContractOperationInput where
  log : OnchainLogRef
  contract : Address
  action : String
  metadata : Metadata
  alert : Bool

def logContractOperation (in_ : ContractOperationInput) : Projection Unit := do
  insertOnchainAudit in_.log.auditId none
    { category := .admin, action := in_.action, targetType := "Contract",
      targetId := .address in_.contract, metadata := in_.log.metadata in_.metadata }
  if in_.alert = false then pure () else insertContractAlert in_.log.auditId

structure AgentRegistryInput where
  log : OnchainLogRef
  agent : Address
  action : String
  metadata : Metadata

def logAgentRegistryEvent (in_ : AgentRegistryInput) : Projection Unit :=
  insertOnchainAudit in_.log.auditId none
    { category := .agent, action := in_.action, targetType := "Agent",
      targetId := .address in_.agent, metadata := in_.log.metadata in_.metadata }

end Strimz.Indexer
