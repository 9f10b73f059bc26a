import Strimz.Projector

/-!
# What a projection does

One inversion lemma per store method: a call succeeded iff its guards held, and then the
database is exactly the given one. Nothing else unfolds a store method.
-/

namespace Strimz.Indexer

open Tx

variable {db db' : Db}

/-! ## Parameters and shared statements -/

/-- The id fits its column. -/
def Int4 (n : Nat) : Prop := -2147483648 ≤ int64 n ∧ int64 n ≤ MAX_INT4

instance (n : Nat) : Decidable (Int4 n) :=
  inferInstanceAs (Decidable (_ ∧ _))

theorem int64_of_lt {n : Nat} (h : n < 2 ^ 63) : int64 n = n := by
  rw [int64, BitVec.toInt_eq_toNat_of_lt (by rw [BitVec.toNat_ofNat]; omega), BitVec.toNat_ofNat]
  omega

/-- PostgreSQL can hold the timestamp. -/
def IsDate (t : Int) : Prop := MIN_TIMESTAMP ≤ t ∧ t < END_TIMESTAMP

instance (t : Int) : Decidable (IsDate t) :=
  inferInstanceAs (Decidable (_ ∧ _))

def NulFree (metadata : Metadata) : Prop := ∀ field ∈ metadata, field.2.hasNul = false

instance (metadata : Metadata) : Decidable (NulFree metadata) :=
  inferInstanceAs (Decidable (∀ _ ∈ _, _))

theorem nulFree_nil : NulFree [] := fun _ h => absurd h List.not_mem_nil

theorem nulFree_cons {field : String × Json} {metadata : Metadata} :
    NulFree (field :: metadata) ↔ field.2.hasNul = false ∧ NulFree metadata :=
  List.forall_mem_cons

theorem nulFree_append {a b : Metadata} : NulFree (a ++ b) ↔ NulFree a ∧ NulFree b :=
  List.forall_mem_append

theorem int4Param_eq_ok {n : Nat} {r : Int × Db} :
    int4Param n db = .ok r ↔ Int4 n ∧ r = (int64 n, db) := by
  simp only [int4Param, Int4, bind_eq_ok, revertIf_eq_ok, pure_eq_ok, Prod.mk.injEq, existsAndEq,
    exists_const, and_true, not_or, not_lt]

theorem timestampParam_eq_ok {t : Int} {r : Unit × Db} :
    timestampParam t db = .ok r ↔ IsDate t ∧ r = ((), db) := by
  simp only [timestampParam, IsDate, revertIf_eq_ok, not_or, not_lt, not_le]

theorem jsonbParam_eq_ok {metadata : Metadata} {r : Unit × Db} :
    jsonbParam metadata db = .ok r ↔ NulFree metadata ∧ r = ((), db) := by
  simp only [jsonbParam, NulFree, revertIf_eq_ok, List.any_eq_true, not_exists, not_and,
    Bool.not_eq_true]

theorem targetParam_eq_ok {target : TargetId} {r : Unit × Db} :
    targetParam target db = .ok r ↔ target.tooLong = false ∧ r = ((), db) := by
  simp only [targetParam, revertIf_eq_ok, Bool.not_eq_true]

theorem lookupMerchantByOnchain_eq_ok {n : Nat} {r : Option MerchantRow × Db} :
    lookupMerchantByOnchain n db = .ok r ↔
      Int4 n ∧ r = (db.merchantByOnchain (int64 n), db) := by
  simp only [lookupMerchantByOnchain, bind_eq_ok, int4Param_eq_ok, get_eq_ok, pure_eq_ok,
    Prod.mk.injEq, existsAndEq, and_true, true_and]

theorem insertAudit_eq_ok {merchantId : Option RowId} {e : AuditEntry} {r : Unit × Db} :
    insertAudit merchantId e db = .ok r ↔
      e.targetId.tooLong = false ∧ NulFree e.metadata ∧
        r = ((), db.audit ⟨none, merchantId, e⟩) := by
  simp only [insertAudit, bind_eq_ok, targetParam_eq_ok, jsonbParam_eq_ok, modify_eq_ok,
    Prod.mk.injEq, existsAndEq, exists_const, and_true, true_and]

theorem insertOutboxEvent_eq_ok {type : WebhookEventName} {kind : String} {merchantId : RowId}
    {mode : Mode} {ref : EventRef} {r : Unit × Db} :
    insertOutboxEvent type kind merchantId mode ref db = .ok r ↔
      r = ((), db.emit ⟨type, kind, merchantId, mode, ref⟩) :=
  modify_eq_ok

/-- The unique indexes let the row in. -/
def Db.Admits (db : Db) (row : TransactionRow) : Prop :=
  (∀ id, row.sessionId = some id → db.sessionPayments id = none) ∧
    ∀ id, row.subscriptionChargeId = some id → db.chargePayments id = none

theorem insertTransaction_eq_ok {key : TxKey} {row : TransactionRow} {r : Bool × Db} :
    insertTransaction key row db = .ok r ↔
      IsDate row.blockTimestamp ∧
        (db.transactions key ≠ none ∧ r = (false, db) ∨
          db.transactions key = none ∧ db.Admits row ∧
            r = (true, db.insertTransaction key row)) := by
  simp only [insertTransaction, bind_eq_ok, timestampParam_eq_ok, get_eq_ok, ite_eq_ok,
    revertIf_eq_ok, pure_eq_ok, modify_eq_ok, Prod.mk.injEq, existsAndEq, exists_const,
    true_and, Option.isSome_iff_ne_none, ne_eq, not_not, Db.Admits, Option.any_eq_true,
    not_exists, not_and, and_assoc]

/-! ## Payments -/

/-- The session the payment names. -/
def OneShotTxInput.session? (in_ : OneShotTxInput) (db : Db) : Option PaymentSessionRow :=
  if in_.sessionRef = [] then none else db.sessions in_.sessionRef

/-- Why the payment does not settle the session; empty if it does. -/
def OneShotTxInput.mismatches (in_ : OneShotTxInput) (db : Db) (merchantId : RowId)
    (session : PaymentSessionRow) : List String :=
  session.mismatches (db.sessionPayments in_.sessionRef).isSome merchantId in_

/-- The invoice behind a settled session, and its event. -/
def Db.settleInvoice (db : Db) (sessionId merchantId : RowId) (in_ : OneShotTxInput) : Db :=
  match db.invoices sessionId with
  | none => db
  | some invoice =>
      if invoice.status = .paid ∨ invoice.status = .void then db
      else (db.putInvoice sessionId { invoice with status := .paid }).emit
        ⟨.invoice_paid, "invoice.paid", merchantId, in_.mode, .invoice invoice.id in_.key⟩

def PaymentSessionRow.confirm (session : PaymentSessionRow) (in_ : OneShotTxInput) :
    PaymentSessionRow :=
  { session with status := .confirmed, onchainTxHash := some in_.onchainTxHash,
                 payerWalletAddress := some in_.payerAddress }

/-- What settling a session writes. -/
def Db.settle (db : Db) (session : PaymentSessionRow) (merchantId : RowId)
    (in_ : OneShotTxInput) : Db :=
  ((db.putSession in_.sessionRef (session.confirm in_)).emit
    ⟨.payment_completed, "payment.completed", merchantId, in_.mode,
      .payment in_.sessionRef in_.key⟩).settleInvoice in_.sessionRef merchantId in_

theorem payInvoice_eq_ok {sessionId merchantId : RowId} {in_ : OneShotTxInput} {r : Unit × Db} :
    payInvoice sessionId merchantId in_ db = .ok r ↔
      r = ((), db.settleInvoice sessionId merchantId in_) := by
  simp only [payInvoice, Db.settleInvoice, bind_eq_ok, get_eq_ok, Prod.mk.injEq, existsAndEq,
    true_and]
  cases db.invoices sessionId with
  | none => simp only [pure_eq_ok]
  | some invoice =>
      by_cases h : invoice.status = .paid ∨ invoice.status = .void
      · simp only [h, if_true, pure_eq_ok]
      · simp only [h, if_false, bind_eq_ok, modify_eq_ok, insertOutboxEvent_eq_ok, Prod.mk.injEq,
          existsAndEq, exists_const, true_and]

theorem settleSession_eq_ok {session : PaymentSessionRow} {merchantId : RowId}
    {in_ : OneShotTxInput} {r : Unit × Db} (hsession : db.sessions in_.sessionRef = some session)
    (hstatus : session.status ≠ .confirmed) :
    settleSession in_.sessionRef merchantId in_ db = .ok r ↔
      r = ((), db.settle session merchantId in_) := by
  simp only [settleSession, confirmSession, Db.settle, PaymentSessionRow.confirm, bind_eq_ok,
    get_eq_ok, hsession, hstatus, if_false, modify_eq_ok, insertOutboxEvent_eq_ok, payInvoice_eq_ok,
    Prod.mk.injEq, existsAndEq, exists_const, true_and]

/-- What a payment that goes in writes, by what its reference names. -/
def Db.recordOneShot (db : Db) (in_ : OneShotTxInput) (merchant : MerchantRow) : Db :=
  match in_.session? db with
  | none => db.insertTransaction in_.key (oneShotTransaction in_ merchant none)
  | some session =>
      if in_.mismatches db merchant.id session = [] then
        (db.insertTransaction in_.key
          (oneShotTransaction in_ merchant (some in_.sessionRef))).settle session merchant.id in_
      else
        (db.insertTransaction in_.key (oneShotTransaction in_ merchant none)).audit
          ⟨none, some merchant.id, sessionMismatchAudit in_.sessionRef session
            (in_.mismatches db merchant.id session) merchant.id in_⟩

theorem mismatches_eq_nil {p : PaymentSessionRow} {hasTransaction : Bool} {merchantId : RowId}
    {in_ : OneShotTxInput} :
    p.mismatches hasTransaction merchantId in_ = [] ↔
      p.merchantId = merchantId ∧ sameAmount p.amount in_.amount = true ∧
        p.currency = in_.currency ∧ p.mode = in_.mode ∧ p.status ≠ .confirmed ∧
        hasTransaction = false := by
  simp only [PaymentSessionRow.mismatches, List.append_eq_nil_iff, ite_eq_right_iff,
    List.cons_ne_nil, imp_false, not_not, ne_eq, Bool.not_eq_false, not_or, Bool.not_eq_true,
    and_assoc]

theorem sessionMismatchAudit_nulFree (sessionId : RowId) (session : PaymentSessionRow)
    (mismatches : List String) (merchantId : RowId) (in_ : OneShotTxInput) :
    NulFree (sessionMismatchAudit sessionId session mismatches merchantId in_).metadata := by
  simp [NulFree, sessionMismatchAudit, Json.hasNul]

theorem sessionMismatchAudit_tooLong (sessionId : RowId) (session : PaymentSessionRow)
    (mismatches : List String) (merchantId : RowId) (in_ : OneShotTxInput) :
    (sessionMismatchAudit sessionId session mismatches merchantId in_).targetId.tooLong = false :=
  rfl

theorem OneShotTxInput.sessions_of_session? {in_ : OneShotTxInput} {session : PaymentSessionRow}
    (h : in_.session? db = some session) : db.sessions in_.sessionRef = some session := by
  unfold OneShotTxInput.session? at h
  split at h
  · cases h
  · exact h

/-- Only the Transaction's own tables change. -/
theorem insertTransaction_frame (key : TxKey) (row : TransactionRow) :
    db.insertTransaction key row =
      { db with transactions := Function.update db.transactions key (some row),
                sessionPayments := (db.insertTransaction key row).sessionPayments,
                chargePayments := (db.insertTransaction key row).chargePayments } := by
  unfold Db.insertTransaction
  cases row.sessionId <;> cases row.subscriptionChargeId <;> rfl

@[simp] theorem insertTransaction_sessions (key : TxKey) (row : TransactionRow) :
    (db.insertTransaction key row).sessions = db.sessions := by
  rw [insertTransaction_frame]

theorem admits_direct (in_ : OneShotTxInput) (merchant : MerchantRow) :
    db.Admits (oneShotTransaction in_ merchant none) := by
  simp [Db.Admits, oneShotTransaction]

theorem admits_settling {in_ : OneShotTxInput} (merchant : MerchantRow)
    (h : db.sessionPayments in_.sessionRef = none) :
    db.Admits (oneShotTransaction in_ merchant (some in_.sessionRef)) := by
  simp [Db.Admits, oneShotTransaction, h]

theorem insertOneShotTransaction_eq_ok {in_ : OneShotTxInput} {n : Nat} :
    insertOneShotTransaction in_ db = .ok (n, db') ↔
      Int4 in_.merchantOnchainId ∧ IsDate in_.blockTimestamp ∧
        ∃ merchant, db.merchantByOnchain (int64 in_.merchantOnchainId) = some merchant ∧
          (db.transactions in_.key ≠ none ∧ n = 0 ∧ db' = db ∨
            db.transactions in_.key = none ∧ n = 1 ∧ db' = db.recordOneShot in_ merchant) := by
  have hs : (if in_.sessionRef = [] then none else db.sessions in_.sessionRef) =
    in_.session? db := rfl
  simp only [insertOneShotTransaction, bind_eq_ok, get_eq_ok, lookupMerchantByOnchain_eq_ok,
    Prod.mk.injEq, existsAndEq, true_and, and_true, hs]
  cases hm : db.merchantByOnchain (int64 in_.merchantOnchainId) with
  | none => simp [throw_eq_ok]
  | some merchant =>
      have hdate : ∀ ref, (oneShotTransaction in_ merchant ref).blockTimestamp =
        in_.blockTimestamp := fun _ => rfl
      by_cases hnew : db.transactions in_.key = none
      · cases hsession : in_.session? db with
        | none =>
            simp [bind_eq_ok, insertTransaction_eq_ok, pure_eq_ok, ite_eq_ok, hnew, admits_direct,
              Db.recordOneShot, hsession, hdate]
        | some session =>
            have hrow := OneShotTxInput.sessions_of_session? hsession
            by_cases hmatch : in_.mismatches db merchant.id session = []
            · obtain ⟨-, -, -, -, hstatus, hpaid⟩ := mismatches_eq_nil.mp hmatch
              have hadmits := @admits_settling db in_ merchant (by simpa using hpaid)
              have hrow' : (db.insertTransaction in_.key (oneShotTransaction in_ merchant
                (some in_.sessionRef))).sessions in_.sessionRef = some session := by
                rw [insertTransaction_sessions, hrow]
              unfold OneShotTxInput.mismatches at hmatch
              simp [-bind_pure_comp, bind_eq_ok, insertTransaction_eq_ok, pure_eq_ok, ite_eq_ok,
                hnew, Db.recordOneShot, OneShotTxInput.mismatches, hsession, hmatch, hadmits, hdate,
                settleSession_eq_ok hrow' hstatus]
              exact fun _ _ => and_comm
            · unfold OneShotTxInput.mismatches at hmatch
              simp [-bind_pure_comp, bind_eq_ok, insertTransaction_eq_ok, pure_eq_ok, ite_eq_ok,
                hnew, Db.recordOneShot, OneShotTxInput.mismatches, hsession, hmatch, admits_direct,
                hdate, insertAuditInTx, insertAudit_eq_ok, sessionMismatchAudit_nulFree,
                sessionMismatchAudit_tooLong]
      · simp [bind_eq_ok, insertTransaction_eq_ok, ite_eq_ok, pure_eq_ok, hnew, hdate]

/-! ## Subscriptions -/

/-- The dates the insert of a subscription binds. -/
def SubscriptionRow.Dated (sub : SubscriptionRow) : Prop :=
  IsDate sub.currentPeriodStartAt ∧ IsDate sub.currentPeriodEndAt ∧ IsDate sub.nextChargeAt

/-- The customer and the plan behind a subscription. -/
def Db.enrolPayer (db : Db) (in_ : SubscriptionCreatedInput) (merchantId : RowId) : Db :=
  (db.putCustomer merchantId in_.payerAddress).putPlan (in_.planKey merchantId)

/-- What a subscription seen for the first time writes. -/
def Db.createSubscription (db : Db) (in_ : SubscriptionCreatedInput) (merchantId : RowId) : Db :=
  (((db.enrolPayer in_ merchantId).putSubscription (int64 in_.onchainSubscriptionId)
      (createdSubscription in_ merchantId)).putEnrolment in_.onchainTxHash
      (int64 in_.onchainSubscriptionId)).emit
    ⟨.subscription_created, "subscription.created", merchantId, in_.mode,
      .subscription (int64 in_.onchainSubscriptionId)⟩

theorem putPlan_of_mem {key : PlanKey} (h : db.plans key = true) : db.putPlan key = db := by
  unfold Db.putPlan
  rw [← h, Function.update_eq_self]

theorem findOrCreatePlan_eq_ok {key : PlanKey} {r : Unit × Db} :
    findOrCreatePlan key db = .ok r ↔ r = ((), db.putPlan key) := by
  simp only [findOrCreatePlan, bind_eq_ok, get_eq_ok, Prod.mk.injEq, existsAndEq, true_and]
  by_cases h : db.plans key = true
  · simp only [h, if_true, pure_eq_ok, putPlan_of_mem h]
  · rw [if_neg h, modify_eq_ok]

theorem insertSubscription_eq_ok {n : Nat} {row : SubscriptionRow} {b : Bool} :
    insertSubscription n row db = .ok (b, db') ↔
      Int4 n ∧ row.Dated ∧
        (db.subscriptions (int64 n) ≠ none ∧ b = false ∧ db' = db ∨
          db.subscriptions (int64 n) = none ∧ db.enrolments row.enrolmentTxHash = none ∧ b = true ∧
            db' = (db.putSubscription (int64 n) row).putEnrolment row.enrolmentTxHash (int64 n)) := by
  simp only [insertSubscription, SubscriptionRow.Dated, bind_eq_ok, int4Param_eq_ok,
    timestampParam_eq_ok, get_eq_ok, ite_eq_ok, revertIf_eq_ok, pure_eq_ok, modify_eq_ok,
    Prod.mk.injEq, existsAndEq, exists_const, true_and, Option.isSome_iff_ne_none, ne_eq, not_not,
    and_assoc]

theorem upsertSubscriptionFromOnchain_eq_ok {in_ : SubscriptionCreatedInput} {n : Nat} :
    upsertSubscriptionFromOnchain in_ db = .ok (n, db') ↔
      in_.blockTimestamp ≠ ZERO_TIME ∧ Int4 in_.merchantOnchainId ∧
        ∃ merchant, db.merchantByOnchain (int64 in_.merchantOnchainId) = some merchant ∧
          Int4 in_.onchainSubscriptionId ∧ (createdSubscription in_ merchant.id).Dated ∧
            (db.subscriptions (int64 in_.onchainSubscriptionId) ≠ none ∧ n = 0 ∧
                db' = db.enrolPayer in_ merchant.id ∨
              db.subscriptions (int64 in_.onchainSubscriptionId) = none ∧
                db.enrolments in_.onchainTxHash = none ∧ n = 1 ∧
                db' = db.createSubscription in_ merchant.id) := by
  have hsubs : ∀ m, (db.enrolPayer in_ m).subscriptions = db.subscriptions := fun _ => rfl
  have henrol : ∀ m, (db.enrolPayer in_ m).enrolments = db.enrolments := fun _ => rfl
  have htx : ∀ m, (createdSubscription in_ m).enrolmentTxHash = in_.onchainTxHash := fun _ => rfl
  simp only [upsertSubscriptionFromOnchain, upsertCustomer, bind_eq_ok, revertIf_eq_ok,
    lookupMerchantByOnchain_eq_ok, Prod.mk.injEq, existsAndEq, exists_const, and_true, true_and,
    ne_eq]
  cases hm : db.merchantByOnchain (int64 in_.merchantOnchainId) with
  | none => simp only [throw_eq_ok, reduceCtorEq, false_and, exists_false, and_false]
  | some merchant =>
      have hpayer : (db.putCustomer merchant.id in_.payerAddress).putPlan
        (in_.planKey merchant.id) = db.enrolPayer in_ merchant.id := rfl
      simp only [bind_eq_ok, modify_eq_ok, findOrCreatePlan_eq_ok, insertSubscription_eq_ok,
        ite_eq_ok, pure_eq_ok, insertOutboxEvent_eq_ok, Prod.mk.injEq, existsAndEq, true_and,
        Option.some.injEq, exists_eq_left', hpayer, hsubs, henrol, htx, Db.createSubscription]
      by_cases hnew : db.subscriptions (int64 in_.onchainSubscriptionId) = none
      · simp [hnew, and_assoc]
      · simp [hnew, and_assoc]

/-- The attempt's row, inserted or taken over from a failure. -/
def Db.recordAttempt (db : Db) (in_ : SubscriptionChargedInput) (id : Int)
    (sub : SubscriptionRow) : Db :=
  match db.charges in_.chargeAttemptId with
  | none => db.putCharge in_.chargeAttemptId (chargedRow in_ id sub)
  | some row =>
      if row.status = .failed then db.putCharge in_.chargeAttemptId (upgradedRow in_ sub row)
      else db

/-- What a charge seen for the first time writes besides the period. -/
def Db.recordCharge (db : Db) (in_ : SubscriptionChargedInput) (id : Int) (sub : SubscriptionRow)
    (merchantAddress : Address) : Db :=
  (((db.recordAttempt in_ id sub).insertTransaction in_.key
      (chargeTransaction in_ id sub merchantAddress)).putSubscription id
      (sub.bump in_.nextChargeAt)).emit
    ⟨.subscription_charged, "subscription.charged", sub.merchantId, in_.mode,
      .charge id in_.chargeAttemptId in_.key⟩

theorem upsertCharge_eq_ok {in_ : SubscriptionChargedInput} {id : Int} {sub : SubscriptionRow}
    {r : Unit × Db} :
    upsertCharge in_ id sub db = .ok r ↔
      IsDate in_.nextChargeAt ∧ IsDate in_.blockTimestamp ∧ r = ((), db.recordAttempt in_ id sub) := by
  simp only [upsertCharge, Db.recordAttempt, bind_eq_ok, timestampParam_eq_ok, get_eq_ok,
    Prod.mk.injEq, existsAndEq, exists_const, true_and, and_assoc]
  cases db.charges in_.chargeAttemptId with
  | none => simp only [modify_eq_ok]
  | some row =>
      by_cases h : row.status = .failed
      · simp only [h, if_true, modify_eq_ok]
      · simp only [h, if_false, pure_eq_ok]

theorem subscriptionAndMerchant_eq_some {id : Int} {sub : SubscriptionRow} {m : MerchantRow} :
    db.subscriptionAndMerchant id = some (sub, m) ↔
      db.subscriptions id = some sub ∧ db.merchantById sub.merchantId = some m := by
  simp [Db.subscriptionAndMerchant, Option.bind_eq_some_iff]

/-- Only the attempt's row changes. -/
theorem recordAttempt_frame (in_ : SubscriptionChargedInput) (id : Int) (sub : SubscriptionRow) :
    db.recordAttempt in_ id sub =
      { db with charges := (db.recordAttempt in_ id sub).charges } := by
  unfold Db.recordAttempt
  split
  · rfl
  · split <;> rfl

@[simp] theorem recordAttempt_transactions (in_ : SubscriptionChargedInput) (id : Int)
    (sub : SubscriptionRow) : (db.recordAttempt in_ id sub).transactions = db.transactions := by
  rw [recordAttempt_frame]

@[simp] theorem recordAttempt_chargePayments (in_ : SubscriptionChargedInput) (id : Int)
    (sub : SubscriptionRow) : (db.recordAttempt in_ id sub).chargePayments = db.chargePayments := by
  rw [recordAttempt_frame]

theorem admits_charge {in_ : SubscriptionChargedInput} {id : Int} {sub : SubscriptionRow}
    {merchantAddress : Address} :
    db.Admits (chargeTransaction in_ id sub merchantAddress) ↔
      db.chargePayments in_.chargeAttemptId = none := by
  simp [Db.Admits, chargeTransaction]

theorem insertSubscriptionCharge_eq_ok {in_ : SubscriptionChargedInput} {n : Nat} :
    insertSubscriptionCharge in_ db = .ok (n, db') ↔
      Int4 in_.onchainSubscriptionId ∧ ∃ sub merchant merchantAddress,
        db.subscriptions (int64 in_.onchainSubscriptionId) = some sub ∧
        db.merchantById sub.merchantId = some merchant ∧
        merchant.payoutAddress = some merchantAddress ∧
        IsDate in_.nextChargeAt ∧ IsDate in_.blockTimestamp ∧
          (db.transactions in_.key ≠ none ∧ n = 0 ∧
              db' = (db.recordAttempt in_ (int64 in_.onchainSubscriptionId) sub).putSubscription
                (int64 in_.onchainSubscriptionId) (sub.bump in_.nextChargeAt) ∨
            db.transactions in_.key = none ∧ db.chargePayments in_.chargeAttemptId = none ∧ n = 1 ∧
              db' = db.recordCharge in_ (int64 in_.onchainSubscriptionId) sub merchantAddress) := by
  have hdate : ∀ id sub a, (chargeTransaction in_ id sub a).blockTimestamp = in_.blockTimestamp :=
    fun _ _ _ => rfl
  simp only [insertSubscriptionCharge, bind_eq_ok, int4Param_eq_ok, get_eq_ok, Prod.mk.injEq,
    existsAndEq, true_and, and_true]
  cases hsub : db.subscriptions (int64 in_.onchainSubscriptionId) with
  | none => simp [Db.subscriptionAndMerchant, hsub, throw_eq_ok]
  | some sub =>
      cases hmerchant : db.merchantById sub.merchantId with
      | none => simp [Db.subscriptionAndMerchant, hsub, hmerchant, throw_eq_ok]
      | some merchant =>
          have hjoin := subscriptionAndMerchant_eq_some.mpr ⟨hsub, hmerchant⟩
          cases hpayout : merchant.payoutAddress with
          | none => simp [hjoin, hmerchant, hpayout, throw_eq_ok]
          | some merchantAddress =>
              by_cases hnew : db.transactions in_.key = none
              · simp [-bind_pure_comp, hjoin, hmerchant, hpayout, hnew, hdate, bind_eq_ok,
                  upsertCharge_eq_ok, insertTransaction_eq_ok, admits_charge, modify_eq_ok, ite_eq_ok, pure_eq_ok,
                  insertOutboxEvent_eq_ok, Db.recordCharge, and_assoc]
              · simp [-bind_pure_comp, hjoin, hmerchant, hpayout, hnew, hdate, bind_eq_ok,
                  upsertCharge_eq_ok, insertTransaction_eq_ok, modify_eq_ok, ite_eq_ok, pure_eq_ok, and_assoc]

def SubscriptionRow.skipTo (sub : SubscriptionRow) (paidPeriodStart : Int) : SubscriptionRow :=
  { sub with nextChargeAt := paidPeriodStart }

theorem periodsSkippedAudit_nulFree (in_ : SubscriptionPeriodsSkippedInput) (id : Int) :
    NulFree (periodsSkippedAudit in_ id).metadata := by
  simp [NulFree, periodsSkippedAudit, Json.hasNul]

theorem recordSubscriptionPeriodsSkipped_eq_ok {in_ : SubscriptionPeriodsSkippedInput} {n : Nat} :
    recordSubscriptionPeriodsSkipped in_ db = .ok (n, db') ↔
      Int4 in_.onchainSubscriptionId ∧ IsDate in_.paidPeriodStart ∧
        ∃ sub, db.subscriptions (int64 in_.onchainSubscriptionId) = some sub ∧ n = 1 ∧
          db' = (db.putSubscription (int64 in_.onchainSubscriptionId)
            (sub.skipTo in_.paidPeriodStart)).audit ⟨none, some sub.merchantId,
              periodsSkippedAudit in_ (int64 in_.onchainSubscriptionId)⟩ := by
  simp only [recordSubscriptionPeriodsSkipped, bind_eq_ok, int4Param_eq_ok, timestampParam_eq_ok,
    get_eq_ok, Prod.mk.injEq, existsAndEq, exists_const, true_and, and_true]
  cases hsub : db.subscriptions (int64 in_.onchainSubscriptionId) with
  | none => simp [throw_eq_ok]
  | some sub =>
      have htarget : (periodsSkippedAudit in_ (int64 in_.onchainSubscriptionId)).targetId.tooLong =
        false := rfl
      simp [-bind_pure_comp, bind_eq_ok, modify_eq_ok, insertAuditInTx, insertAudit_eq_ok, htarget,
        periodsSkippedAudit_nulFree, pure_eq_ok, SubscriptionRow.skipTo]

/-- What a repeated failure makes of its row. -/
def SubscriptionChargeRow.refail (row : SubscriptionChargeRow)
    (in_ : SubscriptionChargeSkippedInput) : SubscriptionChargeRow :=
  { row with outcome := some in_.outcome, executedAt := some in_.blockTimestamp,
             attemptNumber := row.attemptNumber + 1 }

/-- The row the skip leaves, if it is one not seen yet. -/
def SubscriptionChargeSkippedInput.fresh? (in_ : SubscriptionChargeSkippedInput) (db : Db)
    (sub : SubscriptionRow) : Option SubscriptionChargeRow :=
  match db.charges in_.chargeAttemptId with
  | none => some (skippedRow in_ (int64 in_.onchainSubscriptionId) sub)
  | some row =>
      if in_.isPaymentFailure = true ∧ row.repeatsAt in_.blockTimestamp = true then
        some (row.refail in_)
      else none

/-- The columns a failure raises have room. -/
def SubscriptionRow.Flaggable (sub : SubscriptionRow) (t : Int) : Prop :=
  sub.status.retries = true →
    sub.retryCount < MAX_INT4 ∧ IsDate (t + retryBackoff (sub.retryCount + 1))

def Db.flagAtRisk (db : Db) (id : Int) (sub : SubscriptionRow) (t : Int) : Db :=
  if sub.status.retries = true then db.putSubscription id (sub.flag t) else db

/-- What a payment failure not seen yet writes. -/
def Db.recordFailure (db : Db) (in_ : SubscriptionChargeSkippedInput) (sub : SubscriptionRow)
    (row : SubscriptionChargeRow) : Db :=
  ((db.putCharge in_.chargeAttemptId row).emit
    ⟨.subscription_charge_failed, "subscription.charge_failed", sub.merchantId, sub.mode,
      .failedCharge (int64 in_.onchainSubscriptionId) in_.chargeAttemptId⟩).flagAtRisk
    (int64 in_.onchainSubscriptionId) sub in_.blockTimestamp

theorem upsertSkip_eq_ok {in_ : SubscriptionChargeSkippedInput} {sub : SubscriptionRow} {b : Bool} :
    upsertSkip in_ (int64 in_.onchainSubscriptionId) sub db = .ok (b, db') ↔
      IsDate in_.blockTimestamp ∧
        (in_.fresh? db sub = none ∧ b = false ∧ db' = db ∨
          ∃ row, in_.fresh? db sub = some row ∧ row.attemptNumber ≤ MAX_INT4 ∧ b = true ∧
            db' = db.putCharge in_.chargeAttemptId row) := by
  simp only [upsertSkip, SubscriptionChargeSkippedInput.fresh?, bind_eq_ok, timestampParam_eq_ok,
    get_eq_ok, Prod.mk.injEq, existsAndEq, exists_const, true_and, and_assoc]
  cases hrow : db.charges in_.chargeAttemptId with
  | none =>
      have hone : (skippedRow in_ (int64 in_.onchainSubscriptionId) sub).attemptNumber ≤ MAX_INT4 := by
        simp [skippedRow, MAX_INT4]
      simp [-bind_pure_comp, bind_eq_ok, modify_eq_ok, pure_eq_ok, hone, and_comm]
  | some row =>
      by_cases h : in_.isPaymentFailure = true ∧ row.repeatsAt in_.blockTimestamp = true
      · simp [-bind_pure_comp, h, bind_eq_ok, revertIf_eq_ok, modify_eq_ok, pure_eq_ok,
          SubscriptionChargeRow.refail, and_comm]
      · simp only [h, if_false, pure_eq_ok]
        simp

theorem flagAtRisk_eq_ok {id : Int} {sub : SubscriptionRow} {t : Int} {r : Unit × Db} :
    flagAtRisk id sub t db = .ok r ↔ sub.Flaggable t ∧ r = ((), db.flagAtRisk id sub t) := by
  unfold flagAtRisk SubscriptionRow.Flaggable Db.flagAtRisk
  by_cases h : sub.status.retries = true
  · simp [h, bind_eq_ok, revertIf_eq_ok, timestampParam_eq_ok, modify_eq_ok, and_assoc]
  · simp [h, pure_eq_ok]

theorem insertSubscriptionChargeSkip_eq_ok {in_ : SubscriptionChargeSkippedInput} {n : Nat} :
    insertSubscriptionChargeSkip in_ db = .ok (n, db') ↔
      Int4 in_.onchainSubscriptionId ∧ IsDate in_.blockTimestamp ∧
        ∃ sub, db.subscriptions (int64 in_.onchainSubscriptionId) = some sub ∧
          (in_.fresh? db sub = none ∧ n = 0 ∧ db' = db ∨
            ∃ row, in_.fresh? db sub = some row ∧ row.attemptNumber ≤ MAX_INT4 ∧ n = 1 ∧
              (in_.isPaymentFailure = false ∧ db' = db.putCharge in_.chargeAttemptId row ∨
                in_.isPaymentFailure = true ∧ sub.Flaggable in_.blockTimestamp ∧
                  db' = db.recordFailure in_ sub row)) := by
  simp only [insertSubscriptionChargeSkip, bind_eq_ok, int4Param_eq_ok, get_eq_ok, Prod.mk.injEq,
    existsAndEq, true_and, and_true]
  cases hsub : db.subscriptions (int64 in_.onchainSubscriptionId) with
  | none => simp [throw_eq_ok]
  | some sub =>
      simp only [bind_eq_ok, upsertSkip_eq_ok]
      cases hfresh : in_.fresh? db sub with
      | none => simp [hfresh, pure_eq_ok]
      | some row =>
          cases hfail : in_.isPaymentFailure with
          | false =>
              simp [hfresh, pure_eq_ok, and_assoc]
          | true =>
              simp [-bind_pure_comp, hfresh, bind_eq_ok, ite_eq_ok, pure_eq_ok,
                insertOutboxEvent_eq_ok, flagAtRisk_eq_ok, Db.recordFailure, and_assoc, and_comm]

theorem markSubscriptionCancelled_eq_ok {subId : Nat} {by_ : Address} {txHash : Bytes32} {t : Int}
    {n : Nat} :
    markSubscriptionCancelled subId by_ txHash t db = .ok (n, db') ↔
      Int4 subId ∧ IsDate t ∧ ∃ sub, db.subscriptions (int64 subId) = some sub ∧
        ((sub.status = .cancelled ∨ sub.status = .lapsed) ∧ n = 0 ∧ db' = db ∨
          ¬ (sub.status = .cancelled ∨ sub.status = .lapsed) ∧ n = 1 ∧
            db' = db.putSubscription (int64 subId) (sub.cancel by_ txHash t)) := by
  simp only [markSubscriptionCancelled, bind_eq_ok, int4Param_eq_ok, timestampParam_eq_ok,
    get_eq_ok, Prod.mk.injEq, existsAndEq, exists_const, true_and, and_true]
  cases hsub : db.subscriptions (int64 subId) with
  | none => simp [throw_eq_ok]
  | some sub =>
      simp only [ite_eq_ok, bind_eq_ok, modify_eq_ok, pure_eq_ok, Prod.mk.injEq, existsAndEq,
        exists_const, true_and, Option.some.injEq, exists_eq_left']

/-- A charge seen for the first time touches the subscription, its attempt, the Transaction's
tables and the outbox. -/
theorem recordCharge_frame (in_ : SubscriptionChargedInput) (id : Int) (sub : SubscriptionRow)
    (merchantAddress : Address) :
    db.recordCharge in_ id sub merchantAddress =
      { db with
        charges := (db.recordAttempt in_ id sub).charges
        subscriptions := Function.update db.subscriptions id (some (sub.bump in_.nextChargeAt))
        transactions := Function.update db.transactions in_.key
          (some (chargeTransaction in_ id sub merchantAddress))
        chargePayments := Function.update db.chargePayments in_.chargeAttemptId (some in_.key)
        webhookEvents := db.webhookEvents ++ [⟨.subscription_charged, "subscription.charged",
          sub.merchantId, in_.mode, .charge id in_.chargeAttemptId in_.key⟩] } := by
  rw [Db.recordCharge, recordAttempt_frame]
  rfl

/-! ## Merchants -/

/-- What linking writes. -/
def Db.linkMerchants (db : Db) (id : Int) (txHash : Bytes32) (fee : OnchainFee) : Db :=
  db.mapMerchants fun m => if m.linksTo id txHash then m.link id fee else m

theorem linkOnchainMerchant_eq_ok {onchainId : Nat} {txHash : Bytes32} {fee : OnchainFee}
    {r : Nat × Db} :
    linkOnchainMerchant onchainId txHash fee db = .ok r ↔
      Int4 onchainId ∧ IsDate fee.at_ ∧
        (db.merchants.countP fun m => m.linksTo (int64 onchainId) txHash) ≤ 1 ∧
          r = (db.merchants.countP fun m => m.linksTo (int64 onchainId) txHash,
            db.linkMerchants (int64 onchainId) txHash fee) := by
  simp only [linkOnchainMerchant, Db.linkMerchants, bind_eq_ok, int4Param_eq_ok,
    timestampParam_eq_ok, get_eq_ok, revertIf_eq_ok, modify_eq_ok, pure_eq_ok, Prod.mk.injEq,
    existsAndEq, exists_const, true_and, and_true, not_lt]

/-- What an update by `onchainMerchantId` writes. -/
def Db.setMerchants (db : Db) (id : Int) (set : MerchantRow → MerchantRow) : Db :=
  db.mapMerchants fun m => if m.onchainMerchantId = some id then set m else m

theorem updateMerchant_eq_ok {onchainId : Nat} {set : MerchantRow → MerchantRow} {r : Nat × Db} :
    updateMerchant onchainId set db = .ok r ↔
      Int4 onchainId ∧
        r = (db.merchants.countP fun m => m.onchainMerchantId = some (int64 onchainId),
          db.setMerchants (int64 onchainId) set) := by
  simp only [updateMerchant, Db.setMerchants, bind_eq_ok, int4Param_eq_ok, get_eq_ok, modify_eq_ok,
    pure_eq_ok, Prod.mk.injEq, existsAndEq, exists_const, true_and, and_true]

theorem setMerchantOnchainFeeBps_eq_ok {onchainId : Nat} {feeBps : Uint16} {txHash : Bytes32}
    {at_ : Int} {r : Nat × Db} :
    setMerchantOnchainFeeBps onchainId feeBps txHash at_ db = .ok r ↔
      (IsDate at_ ∧ Int4 onchainId) ∧
        r = (db.merchants.countP fun m => m.onchainMerchantId = some (int64 onchainId),
          db.setMerchants (int64 onchainId) fun m =>
            { m with onchainFeeBps := some feeBps, onchainFeeTxHash := some txHash,
                     onchainFeeChangedAt := some at_ }) := by
  simp only [setMerchantOnchainFeeBps, bind_eq_ok, timestampParam_eq_ok, updateMerchant_eq_ok,
    Prod.mk.injEq, existsAndEq, exists_const, true_and, and_assoc]

theorem setMerchantOnchainMaxFeeBps_eq_ok {onchainId : Nat} {maxFeeBps : Uint16}
    {txHash : Bytes32} {at_ : Int} {r : Nat × Db} :
    setMerchantOnchainMaxFeeBps onchainId maxFeeBps txHash at_ db = .ok r ↔
      (IsDate at_ ∧ Int4 onchainId) ∧
        r = (db.merchants.countP fun m => m.onchainMerchantId = some (int64 onchainId),
          db.setMerchants (int64 onchainId) fun m =>
            { m with onchainMaxFeeBps := some maxFeeBps, onchainFeeTxHash := some txHash,
                     onchainFeeChangedAt := some at_ }) := by
  simp only [setMerchantOnchainMaxFeeBps, bind_eq_ok, timestampParam_eq_ok, updateMerchant_eq_ok,
    Prod.mk.injEq, existsAndEq, exists_const, true_and, and_assoc]

/-! ## Refunds -/

/-- What a refund seen on chain writes. -/
def Db.completeRefund (db : Db) (refundTxHash : String) (t : Int) (refund : RefundRow) : Db :=
  (db.mapRefunds fun r => if r.completes refundTxHash then
      { r with status := .completed, completedAt := some t } else r).emit
    ⟨.refund_completed, "refund.completed", refund.merchantId, refund.mode, .refund refund.id⟩

theorem completeRefundByTxHash_eq_ok {refundTxHash : String} {t : Int} {n : Nat} :
    completeRefundByTxHash refundTxHash t db = .ok (n, db') ↔
      IsDate t ∧
        ((db.refunds.find? fun r => r.completes refundTxHash) = none ∧ n = 0 ∧ db' = db ∨
          ∃ refund, (db.refunds.find? fun r => r.completes refundTxHash) = some refund ∧ n = 1 ∧
            db' = db.completeRefund refundTxHash t refund) := by
  simp only [completeRefundByTxHash, bind_eq_ok, timestampParam_eq_ok, get_eq_ok, Prod.mk.injEq,
    existsAndEq, exists_const, true_and]
  cases hfind : db.refunds.find? fun r => r.completes refundTxHash with
  | none => simp [pure_eq_ok]
  | some refund =>
      simp [-bind_pure_comp, bind_eq_ok, modify_eq_ok, insertOutboxEvent_eq_ok, pure_eq_ok,
        Db.completeRefund, and_comm]

/-! ## Agent jobs -/

def AgentJobRow.link (j : AgentJobRow) (id : Int) : AgentJobRow :=
  { j with onchainJobId := some id, status := .in_progress }

/-- What linking writes. -/
def Db.linkJobs (db : Db) (id : Int) (vendor : Address) (escrowTxHash : Bytes32) : Db :=
  db.mapAgentJobs fun j => if j.linksTo escrowTxHash vendor then j.link id else j

/-- The unique index on `onchainJobId` lets the link in. -/
def Db.LinksJob (db : Db) (id : Int) (vendor : Address) (escrowTxHash : Bytes32) : Prop :=
  (db.agentJobs.countP fun j => j.linksTo escrowTxHash vendor) = 0 ∨
    (db.agentJobs.countP fun j => j.linksTo escrowTxHash vendor) = 1 ∧
      ∀ j ∈ db.agentJobs, j.onchainJobId ≠ some id

/-- The guard of the link, as the source computes it. -/
theorem linksJob_iff {id : Int} {vendor : Address} {escrowTxHash : Bytes32} :
    ¬ (1 < (db.agentJobs.countP fun j => j.linksTo escrowTxHash vendor) ∨
      (db.agentJobs.countP fun j => j.linksTo escrowTxHash vendor) = 1 ∧
        db.agentJobs.any (fun j => j.onchainJobId = some id) = true) ↔
      db.LinksJob id vendor escrowTxHash := by
  simp only [Db.LinksJob, List.any_eq_true, decide_eq_true_eq, ne_eq]
  push Not
  generalize (db.agentJobs.countP fun j => j.linksTo escrowTxHash vendor) = n
  constructor
  · rintro ⟨hle, hone⟩
    rcases Nat.le_one_iff_eq_zero_or_eq_one.mp hle with h | h
    · exact Or.inl h
    · exact Or.inr ⟨h, hone h⟩
  · rintro (h | ⟨h, hfree⟩)
    · exact ⟨by omega, fun h' => by omega⟩
    · exact ⟨by omega, fun _ => hfree⟩

theorem linkAgentJobOnchain_eq_ok {onchainJobId : Nat} {vendor : Address} {escrowTxHash : Bytes32}
    {r : Nat × Db} :
    linkAgentJobOnchain onchainJobId vendor escrowTxHash db = .ok r ↔
      Int4 onchainJobId ∧ db.LinksJob (int64 onchainJobId) vendor escrowTxHash ∧
        r = (db.agentJobs.countP fun j => j.linksTo escrowTxHash vendor,
          db.linkJobs (int64 onchainJobId) vendor escrowTxHash) := by
  simp only [linkAgentJobOnchain, Db.linkJobs, AgentJobRow.link, bind_eq_ok, int4Param_eq_ok,
    get_eq_ok, revertIf_eq_ok, modify_eq_ok, pure_eq_ok, Prod.mk.injEq, existsAndEq, exists_const,
    true_and, and_true, linksJob_iff]

/-- What a status event writes to the jobs. -/
def Db.moveJobs (db : Db) (in_ : AgentJobStatusInput) : Db :=
  db.mapAgentJobs fun j =>
    if j.onchainJobId = some (int64 in_.onchainJobId) ∧ j.status ≠ in_.newStatus then j.moveTo in_
    else j

theorem setAgentJobStatus_eq_ok {in_ : AgentJobStatusInput} {n : Nat} :
    setAgentJobStatus in_ db = .ok (n, db') ↔
      Int4 in_.onchainJobId ∧ IsDate in_.blockTimestamp ∧
        n = (db.agentJobs.countP fun j =>
          j.onchainJobId = some (int64 in_.onchainJobId) ∧ j.status ≠ in_.newStatus) ∧
        db' = db.moveJobs in_ := by
  simp only [setAgentJobStatus, Db.moveJobs, bind_eq_ok, int4Param_eq_ok, timestampParam_eq_ok,
    get_eq_ok, modify_eq_ok, pure_eq_ok, Prod.mk.injEq, existsAndEq, exists_const, true_and,
    and_true]

def jobAudit (job : AgentJobRow) (onchainJobId : Nat) (action : String) (metadata : Metadata) :
    AuditLogRow :=
  ⟨none, some job.merchantId,
    { category := .agent, action := action, targetType := "AgentJob", targetId := .row job.id,
      metadata := metadata ++ [("onchainJobId", .decimal onchainJobId)] }⟩

theorem logAgentJobEvent_eq_ok {onchainJobId : Nat} {action : String} {metadata : Metadata}
    {r : Unit × Db} :
    logAgentJobEvent onchainJobId action metadata db = .ok r ↔
      Int4 onchainJobId ∧ ∃ job, db.jobByOnchain (int64 onchainJobId) = some job ∧
        NulFree metadata ∧ r = ((), db.audit (jobAudit job onchainJobId action metadata)) := by
  simp only [logAgentJobEvent, bind_eq_ok, int4Param_eq_ok, get_eq_ok, Prod.mk.injEq, existsAndEq,
    true_and, and_true]
  cases hjob : db.jobByOnchain (int64 onchainJobId) with
  | none => simp [throw_eq_ok]
  | some job =>
      have htarget : (TargetId.row job.id).tooLong = false := rfl
      simp [appendAuditWithMerchant, insertAudit_eq_ok, jobAudit, htarget, nulFree_append,
        nulFree_cons, nulFree_nil, Json.hasNul]

/-! ## Audit rows -/

theorem logMerchantFeeBpsChange_eq_ok {onchainId : Nat} {newFeeBps : Uint16} {txHash : Bytes32}
    {r : Unit × Db} :
    logMerchantFeeBpsChange onchainId newFeeBps txHash db = .ok r ↔
      (TargetId.onchain onchainId).tooLong = false ∧
        r = ((), db.audit ⟨none, none,
          { category := .merchant, action := "merchant.fee_bps_changed_onchain",
            targetType := "Merchant", targetId := .onchain onchainId,
            metadata := [("newFeeBps", .number newFeeBps.toNat),
                         ("transactionHash", .hash txHash)] }⟩) := by
  simp [logMerchantFeeBpsChange, appendAudit, insertAudit_eq_ok, nulFree_cons, nulFree_nil,
    Json.hasNul]

theorem logFeeAccrued_eq_ok {onchainId : Nat} {token : Address} {amount : Nat} {txHash : Bytes32}
    {r : Unit × Db} :
    logFeeAccrued onchainId token amount txHash db = .ok r ↔
      Int4 onchainId ∧ ∃ merchant, db.merchantByOnchain (int64 onchainId) = some merchant ∧
        r = ((), db.audit ⟨none, some merchant.id,
          { category := .agent, action := "fees.accrued", targetType := "Merchant",
            targetId := .row merchant.id,
            metadata := [("token", .address token), ("amount", .decimal amount),
                         ("transactionHash", .hash txHash)] }⟩) := by
  simp only [logFeeAccrued, bind_eq_ok, lookupMerchantByOnchain_eq_ok, Prod.mk.injEq, existsAndEq,
    and_true]
  cases hm : db.merchantByOnchain (int64 onchainId) with
  | none => simp [throw_eq_ok]
  | some merchant =>
      have htarget : (TargetId.row merchant.id).tooLong = false := rfl
      simp [appendAuditWithMerchant, insertAudit_eq_ok, htarget, nulFree_cons, nulFree_nil,
        Json.hasNul]

/-- A row keyed by its log goes in once. -/
def Db.auditOnce (db : Db) (id : AuditId) (merchantId : Option RowId) (e : AuditEntry) : Db :=
  if db.hasAudit id = true then db else db.audit ⟨some id, merchantId, e⟩

def Db.alertMerchantOnce (db : Db) (id : AuditId) (merchantId : RowId) : Db :=
  if (db.merchantSecurityAlerts id).isSome then db else db.alertMerchant id merchantId

theorem insertOnchainAudit_eq_ok {id : AuditId} {merchantId : Option RowId} {e : AuditEntry}
    {r : Unit × Db} :
    insertOnchainAudit id merchantId e db = .ok r ↔
      e.targetId.tooLong = false ∧ NulFree e.metadata ∧ r = ((), db.auditOnce id merchantId e) := by
  simp only [insertOnchainAudit, Db.auditOnce, bind_eq_ok, targetParam_eq_ok, jsonbParam_eq_ok,
    get_eq_ok, Prod.mk.injEq, existsAndEq, exists_const, true_and]
  by_cases h : db.hasAudit id = true
  · simp [h, pure_eq_ok]
  · simp [h, modify_eq_ok]

theorem insertMerchantSecurityAlert_eq_ok {id : AuditId} {merchantId : RowId} {r : Unit × Db} :
    insertMerchantSecurityAlert id merchantId db = .ok r ↔
      r = ((), db.alertMerchantOnce id merchantId) := by
  simp only [insertMerchantSecurityAlert, Db.alertMerchantOnce, bind_eq_ok, get_eq_ok,
    Prod.mk.injEq, existsAndEq, true_and]
  by_cases h : (db.merchantSecurityAlerts id).isSome = true
  · simp only [h, if_true, pure_eq_ok]
  · rw [if_neg h, if_neg h, modify_eq_ok]

theorem nulFree_logMetadata {log : OnchainLogRef} {extra : Metadata} :
    NulFree (log.metadata extra) ↔ NulFree extra := by
  simp [OnchainLogRef.metadata, nulFree_append, nulFree_cons, nulFree_nil, Json.hasNul]

/-- The merchant of a governance event, if it is linked. -/
def MerchantGovernanceInput.merchant? (in_ : MerchantGovernanceInput) (db : Db) :
    Option MerchantRow :=
  db.merchantByOnchain (int64 in_.onchainMerchantId)

/-- What a governance event writes. -/
def Db.recordGovernance (db : Db) (in_ : MerchantGovernanceInput) : Db :=
  let audited := db.auditOnce in_.log.auditId ((in_.merchant? db).map (·.id))
    (in_.entry (in_.merchant? db))
  if in_.alert = false then audited
  else match in_.merchant? db with
    | none => audited.alert in_.log.auditId
    | some m => (audited.alert in_.log.auditId).alertMerchantOnce in_.log.auditId m.id

theorem logMerchantGovernance_eq_ok {in_ : MerchantGovernanceInput} {r : Unit × Db} :
    logMerchantGovernance in_ db = .ok r ↔
      Int4 in_.onchainMerchantId ∧ (in_.entry (in_.merchant? db)).targetId.tooLong = false ∧
        NulFree in_.metadata ∧ r = ((), db.recordGovernance in_) := by
  have hnul : ∀ m, NulFree (in_.entry m).metadata ↔ NulFree in_.metadata := fun m => by
    simp [MerchantGovernanceInput.entry, nulFree_append, nulFree_logMetadata, nulFree_cons,
      nulFree_nil, Json.hasNul]
  simp only [logMerchantGovernance, bind_eq_ok, lookupMerchantByOnchain_eq_ok,
    insertOnchainAudit_eq_ok, Prod.mk.injEq, existsAndEq, exists_const, true_and, and_true, hnul,
    Db.recordGovernance, MerchantGovernanceInput.merchant?]
  cases halert : in_.alert with
  | false => simp [pure_eq_ok, and_assoc]
  | true =>
      cases hm : db.merchantByOnchain (int64 in_.onchainMerchantId) with
      | none => simp [insertContractAlert, modify_eq_ok, and_assoc]
      | some m =>
          simp [bind_eq_ok, insertContractAlert, modify_eq_ok, insertMerchantSecurityAlert_eq_ok,
            and_assoc]

/-- What an event of a contract writes. -/
def Db.recordOperation (db : Db) (in_ : ContractOperationInput) : Db :=
  let audited := db.auditOnce in_.log.auditId none
    { category := .admin, action := in_.action, targetType := "Contract",
      targetId := .address in_.contract, metadata := in_.log.metadata in_.metadata }
  if in_.alert = false then audited else audited.alert in_.log.auditId

theorem logContractOperation_eq_ok {in_ : ContractOperationInput} {r : Unit × Db} :
    logContractOperation in_ db = .ok r ↔
      NulFree in_.metadata ∧ r = ((), db.recordOperation in_) := by
  have htarget : (TargetId.address in_.contract).tooLong = false := rfl
  simp only [logContractOperation, bind_eq_ok, insertOnchainAudit_eq_ok, nulFree_logMetadata,
    htarget, Prod.mk.injEq, existsAndEq, exists_const, true_and, Db.recordOperation]
  cases in_.alert with
  | false => simp [pure_eq_ok]
  | true => simp [insertContractAlert, modify_eq_ok]

theorem logAgentRegistryEvent_eq_ok {in_ : AgentRegistryInput} {r : Unit × Db} :
    logAgentRegistryEvent in_ db = .ok r ↔
      NulFree in_.metadata ∧ r = ((), db.auditOnce in_.log.auditId none
        { category := .agent, action := in_.action, targetType := "Agent",
          targetId := .address in_.agent, metadata := in_.log.metadata in_.metadata }) := by
  have htarget : (TargetId.address in_.agent).tooLong = false := rfl
  simp only [logAgentRegistryEvent, insertOnchainAudit_eq_ok, nulFree_logMetadata, htarget,
    true_and]

end Strimz.Indexer
