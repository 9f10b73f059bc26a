import Strimz.DeadLetterSteps

/-!
# When a projection fails for good

An unresolvable error is parked; every other one, a `Fault`, fails the batch. For each
store method, the exact condition on its arguments and the database under which it ends
in no fault (`Safe`), by the rules of `Tx.Avoids`. A `_bind` lemma is the rule of a
statement that more statements follow.
-/

namespace Strimz.Indexer

open Tx

def ApplyError.IsFault : ApplyError → Prop
  | .fault _ => True
  | .unresolvable _ => False

/-- Whatever it ends in, it is not a fault. -/
abbrev Safe {α : Type} (m : Projection α) (db : Db) : Prop := Avoids ApplyError.IsFault m db

variable {db : Db} {β : Type}

theorem safe_fault {f : Fault} : Safe (throw (.fault f) : Projection β) db ↔ False := by
  simp [Safe, avoids_throw, ApplyError.IsFault]

theorem safe_unresolvable {r : Unresolvable} : Safe (throw (.unresolvable r) : Projection β) db :=
  avoids_throw.mpr id

theorem safe_bind {α : Type} {x : Projection α} {k : α → Projection β} :
    Safe (x >>= k) db ↔ Safe x db ∧ ∀ a db', x db = .ok (a, db') → Safe (k a) db' :=
  avoids_bind

theorem safe_bind_of {α : Type} {x : Projection α} {k : α → Projection β} {G : Prop} {a : α}
    {db' : Db} (hsafe : Safe x db ↔ G) (hok : ∀ r, x db = .ok r ↔ G ∧ r = (a, db')) :
    Safe (x >>= k) db ↔ G ∧ Safe (k a) db' :=
  avoids_bind_of hsafe hok

theorem safe_revertIf {c : Prop} [Decidable c] {f : Fault} :
    Safe (revertIf c (.fault f)) db ↔ ¬ c := by
  simp [Safe, avoids_revertIf, ApplyError.IsFault]

theorem safe_revertIf_bind {c : Prop} [Decidable c] {f : Fault} {k : Unit → Projection β} :
    Safe (revertIf c (.fault f) >>= k) db ↔ ¬ c ∧ Safe (k ()) db :=
  safe_bind_of safe_revertIf fun _ => revertIf_eq_ok

/-- What follows can not fault, so only the first line counts. -/
theorem safe_bind_of_rest {α : Type} {x : Projection α} {k : α → Projection β}
    (hrest : ∀ a db', Safe (k a) db') : Safe (x >>= k) db ↔ Safe x db := by
  rw [safe_bind]
  exact and_iff_left fun a db' _ => hrest a db'

/-! ## Parameters and shared statements -/

theorem safe_timestampParam {t : Int} : Safe (timestampParam t) db ↔ IsDate t := by
  simp only [timestampParam, safe_revertIf, IsDate, not_or, not_lt, not_le]

theorem safe_timestampParam_bind {t : Int} {k : Unit → Projection β} :
    Safe (timestampParam t >>= k) db ↔ IsDate t ∧ Safe (k ()) db :=
  safe_bind_of safe_timestampParam fun _ => timestampParam_eq_ok

theorem safe_jsonbParam {metadata : Metadata} :
    Safe (jsonbParam metadata) db ↔ NulFree metadata := by
  simp only [jsonbParam, safe_revertIf, NulFree, List.any_eq_true, not_exists, not_and,
    Bool.not_eq_true]

theorem safe_jsonbParam_bind {metadata : Metadata} {k : Unit → Projection β} :
    Safe (jsonbParam metadata >>= k) db ↔ NulFree metadata ∧ Safe (k ()) db :=
  safe_bind_of safe_jsonbParam fun _ => jsonbParam_eq_ok

theorem safe_targetParam {target : TargetId} :
    Safe (targetParam target) db ↔ target.tooLong = false := by
  simp only [targetParam, safe_revertIf, Bool.not_eq_true]

theorem safe_targetParam_bind {target : TargetId} {k : Unit → Projection β} :
    Safe (targetParam target >>= k) db ↔ target.tooLong = false ∧ Safe (k ()) db :=
  safe_bind_of safe_targetParam fun _ => targetParam_eq_ok

theorem safe_int4Param {n : Nat} : Safe (int4Param n) db ↔ Int4 n := by
  simp only [int4Param, safe_revertIf_bind, avoids_pure, and_true, Int4, not_or, not_lt]

theorem safe_int4Param_bind {n : Nat} {k : Int → Projection β} :
    Safe (int4Param n >>= k) db ↔ Int4 n ∧ Safe (k (int64 n)) db :=
  safe_bind_of safe_int4Param fun _ => int4Param_eq_ok

theorem safe_lookupMerchantByOnchain {n : Nat} :
    Safe (lookupMerchantByOnchain n) db ↔ Int4 n := by
  simp only [lookupMerchantByOnchain, safe_int4Param_bind, avoids_get_bind, avoids_pure, and_true]

theorem safe_lookup_bind {n : Nat} {k : Option MerchantRow → Projection β} :
    Safe (lookupMerchantByOnchain n >>= k) db ↔
      Int4 n ∧ Safe (k (db.merchantByOnchain (int64 n))) db :=
  safe_bind_of safe_lookupMerchantByOnchain fun _ => lookupMerchantByOnchain_eq_ok

theorem safe_insertAudit {merchantId : Option RowId} {e : AuditEntry} :
    Safe (insertAudit merchantId e) db ↔ e.targetId.tooLong = false ∧ NulFree e.metadata := by
  simp only [insertAudit, safe_targetParam_bind, safe_jsonbParam_bind, avoids_modify, and_true]

theorem safe_insertTransaction {key : TxKey} {row : TransactionRow} :
    Safe (insertTransaction key row) db ↔
      IsDate row.blockTimestamp ∧ (db.transactions key = none → db.Admits row) := by
  simp only [insertTransaction, safe_timestampParam_bind, avoids_get_bind, avoids_ite, avoids_pure,
    safe_revertIf_bind, avoids_modify_bind, and_true, implies_true, true_and,
    Option.isSome_iff_ne_none, ne_eq, not_not, Db.Admits, Option.any_eq_true, not_exists, not_and]

/-! ## Merchants -/

theorem safe_linkOnchainMerchant {onchainId : Nat} {txHash : Bytes32} {fee : OnchainFee} :
    Safe (linkOnchainMerchant onchainId txHash fee) db ↔
      Int4 onchainId ∧ IsDate fee.at_ ∧
        (db.merchants.countP fun m => m.linksTo (int64 onchainId) txHash) ≤ 1 := by
  simp only [linkOnchainMerchant, safe_int4Param_bind, safe_timestampParam_bind, avoids_get_bind,
    safe_revertIf_bind, avoids_modify_bind, avoids_pure, and_true, not_lt]

theorem safe_updateMerchant {onchainId : Nat} {set : MerchantRow → MerchantRow} :
    Safe (updateMerchant onchainId set) db ↔ Int4 onchainId := by
  simp only [updateMerchant, safe_int4Param_bind, avoids_get_bind, avoids_modify_bind, avoids_pure,
    and_true]

theorem safe_setMerchantOnchainFeeBps {onchainId : Nat} {feeBps : Uint16} {txHash : Bytes32}
    {at_ : Int} :
    Safe (setMerchantOnchainFeeBps onchainId feeBps txHash at_) db ↔
      IsDate at_ ∧ Int4 onchainId := by
  rw [setMerchantOnchainFeeBps, safe_timestampParam_bind, safe_updateMerchant]

theorem safe_setMerchantOnchainMaxFeeBps {onchainId : Nat} {maxFeeBps : Uint16} {txHash : Bytes32}
    {at_ : Int} :
    Safe (setMerchantOnchainMaxFeeBps onchainId maxFeeBps txHash at_) db ↔
      IsDate at_ ∧ Int4 onchainId := by
  rw [setMerchantOnchainMaxFeeBps, safe_timestampParam_bind, safe_updateMerchant]

theorem safe_logMerchantFeeBpsChange {onchainId : Nat} {newFeeBps : Uint16} {txHash : Bytes32} :
    Safe (logMerchantFeeBpsChange onchainId newFeeBps txHash) db ↔
      (TargetId.onchain onchainId).tooLong = false := by
  simp [logMerchantFeeBpsChange, appendAudit, safe_insertAudit, nulFree_cons, nulFree_nil,
    Json.hasNul]

/-! ## Payments -/

theorem safe_settleSession {sessionId merchantId : RowId} {in_ : OneShotTxInput} :
    Safe (settleSession sessionId merchantId in_) db := by
  have hconfirm : ∀ db, Safe (confirmSession sessionId in_) db := by
    intro db
    rw [confirmSession, Safe, avoids_get_bind]
    cases db.sessions sessionId with
    | none => exact avoids_pure
    | some row =>
        simp only [avoids_ite, avoids_pure, avoids_modify, implies_true, and_self]
  have hpay : ∀ db, Safe (payInvoice sessionId merchantId in_) db := by
    intro db
    rw [payInvoice, Safe, avoids_get_bind]
    cases db.invoices sessionId with
    | none => exact avoids_pure
    | some invoice =>
        simp only [avoids_ite, avoids_pure, avoids_modify_bind, insertOutboxEvent, avoids_modify,
          implies_true, and_self]
  rw [settleSession, safe_bind_of_rest]
  · exact hconfirm db
  · intro _ db'
    rw [insertOutboxEvent, Safe, avoids_modify_bind]
    exact hpay _

theorem safe_insertOneShotTransaction {in_ : OneShotTxInput} (hdate : IsDate in_.blockTimestamp) :
    Safe (insertOneShotTransaction in_) db ↔ Int4 in_.merchantOnchainId := by
  have hs : (if in_.sessionRef = [] then none else db.sessions in_.sessionRef) =
    in_.session? db := rfl
  simp only [insertOneShotTransaction, avoids_get_bind, safe_lookup_bind, hs]
  refine and_iff_left ?_
  cases db.merchantByOnchain (int64 in_.merchantOnchainId) with
  | none => exact safe_unresolvable
  | some merchant =>
      dsimp only
      rw [safe_bind_of_rest]
      · rw [safe_insertTransaction]
        refine ⟨hdate, fun _ => ?_⟩
        cases hsession : in_.session? db with
        | none => exact admits_direct in_ merchant
        | some session =>
            by_cases hmatch : session.mismatches (db.sessionPayments in_.sessionRef).isSome
              merchant.id in_ = []
            · have hpaid := (mismatches_eq_nil.mp hmatch).2.2.2.2.2
              rw [if_pos ⟨rfl, hmatch⟩]
              exact admits_settling merchant (by simpa using hpaid)
            · rw [if_neg fun h => hmatch h.2]
              exact admits_direct in_ merchant
      · intro inserted db'
        rw [Safe, avoids_ite]
        refine ⟨fun _ => avoids_pure, fun _ => ?_⟩
        cases in_.session? db with
        | none => exact avoids_pure
        | some session =>
            rw [avoids_ite]
            refine ⟨fun _ => ?_, fun _ => ?_⟩
            · exact (safe_bind_of_rest fun _ _ => avoids_pure).mpr safe_settleSession
            · refine (safe_bind_of_rest fun _ _ => avoids_pure).mpr ?_
              rw [insertAuditInTx, safe_insertAudit]
              exact ⟨rfl, sessionMismatchAudit_nulFree _ _ _ _ _⟩

/-! ## Subscriptions -/

theorem safe_insertSubscription {n : Nat} {row : SubscriptionRow} :
    Safe (insertSubscription n row) db ↔
      Int4 n ∧ row.Dated ∧
        (db.subscriptions (int64 n) = none → db.enrolments row.enrolmentTxHash = none) := by
  simp only [insertSubscription, SubscriptionRow.Dated, safe_int4Param_bind,
    safe_timestampParam_bind, avoids_get_bind, avoids_ite, avoids_pure, safe_revertIf_bind,
    avoids_modify_bind, and_true, implies_true, true_and, Option.isSome_iff_ne_none, ne_eq,
    not_not, and_assoc]

theorem safe_findOrCreatePlan_bind {key : PlanKey} {k : Unit → Projection β} :
    Safe (findOrCreatePlan key >>= k) db ↔ Safe (k ()) (db.putPlan key) := by
  have hsafe : Safe (findOrCreatePlan key) db := by
    simp only [findOrCreatePlan, Safe, avoids_get_bind, avoids_ite, avoids_pure, avoids_modify,
      implies_true, and_self]
  rw [Safe, avoids_bind_of (G := True) (iff_true_intro hsafe) fun r => by
    rw [findOrCreatePlan_eq_ok, true_and], true_and]

theorem safe_upsertSubscriptionFromOnchain {in_ : SubscriptionCreatedInput} :
    Safe (upsertSubscriptionFromOnchain in_) db ↔
      in_.blockTimestamp ≠ ZERO_TIME ∧ Int4 in_.merchantOnchainId ∧
        ∀ merchant, db.merchantByOnchain (int64 in_.merchantOnchainId) = some merchant →
          Int4 in_.onchainSubscriptionId ∧ (createdSubscription in_ merchant.id).Dated ∧
            (db.subscriptions (int64 in_.onchainSubscriptionId) = none →
              db.enrolments in_.onchainTxHash = none) := by
  simp only [upsertSubscriptionFromOnchain, safe_revertIf_bind, safe_lookup_bind, ne_eq]
  refine and_congr_right fun _ => and_congr_right fun _ => ?_
  cases db.merchantByOnchain (int64 in_.merchantOnchainId) with
  | none => simp [safe_unresolvable]
  | some merchant =>
      have hinserted : ∀ db, Safe (insertSubscription in_.onchainSubscriptionId
          (createdSubscription in_ merchant.id) >>= fun inserted =>
            if inserted = false then return 0
            else do
              insertOutboxEvent .subscription_created "subscription.created" merchant.id in_.mode
                (.subscription (int64 in_.onchainSubscriptionId))
              return 1) db ↔
          Safe (insertSubscription in_.onchainSubscriptionId
            (createdSubscription in_ merchant.id)) db := by
        refine fun db => safe_bind_of_rest fun inserted db' => ?_
        simp only [Safe, avoids_ite, avoids_pure, insertOutboxEvent, avoids_modify_bind,
          implies_true, and_self]
      simp only [upsertCustomer, avoids_modify_bind, safe_findOrCreatePlan_bind, hinserted,
        safe_insertSubscription, Option.some.injEq, forall_eq']
      exact Iff.rfl

theorem safe_upsertCharge {in_ : SubscriptionChargedInput} {id : Int} {sub : SubscriptionRow} :
    Safe (upsertCharge in_ id sub) db ↔ IsDate in_.nextChargeAt ∧ IsDate in_.blockTimestamp := by
  simp only [upsertCharge, safe_timestampParam_bind, avoids_get_bind]
  refine and_congr_right fun _ => and_iff_left ?_
  cases db.charges in_.chargeAttemptId with
  | none => exact avoids_modify
  | some row => simp only [avoids_ite, avoids_pure, avoids_modify, implies_true, and_self]

theorem safe_upsertCharge_bind {in_ : SubscriptionChargedInput} {id : Int} {sub : SubscriptionRow}
    {k : Unit → Projection β} :
    Safe (upsertCharge in_ id sub >>= k) db ↔
      (IsDate in_.nextChargeAt ∧ IsDate in_.blockTimestamp) ∧
        Safe (k ()) (db.recordAttempt in_ id sub) :=
  safe_bind_of safe_upsertCharge fun _ => by rw [upsertCharge_eq_ok, and_assoc]

theorem safe_insertSubscriptionCharge {in_ : SubscriptionChargedInput}
    (hdate : IsDate in_.blockTimestamp) :
    Safe (insertSubscriptionCharge in_) db ↔
      Int4 in_.onchainSubscriptionId ∧
        ∀ sub, db.subscriptions (int64 in_.onchainSubscriptionId) = some sub →
          ∀ merchant, db.merchantById sub.merchantId = some merchant →
            merchant.payoutAddress ≠ none ∧ IsDate in_.nextChargeAt ∧
              (db.transactions in_.key = none → db.chargePayments in_.chargeAttemptId = none) := by
  have hrow : ∀ id sub a, (chargeTransaction in_ id sub a).blockTimestamp = in_.blockTimestamp :=
    fun _ _ _ => rfl
  simp only [insertSubscriptionCharge, safe_int4Param_bind, avoids_get_bind]
  refine and_congr_right fun _ => ?_
  cases hsub : db.subscriptions (int64 in_.onchainSubscriptionId) with
  | none => simp [Db.subscriptionAndMerchant, hsub, safe_unresolvable]
  | some sub =>
      cases hmerchant : db.merchantById sub.merchantId with
      | none => simp [Db.subscriptionAndMerchant, hsub, hmerchant, safe_unresolvable]
      | some merchant =>
          rw [subscriptionAndMerchant_eq_some.mpr ⟨hsub, hmerchant⟩]
          cases hpayout : merchant.payoutAddress with
          | none => simp [hpayout, hmerchant, safe_fault]
          | some merchantAddress =>
              simp only [hpayout, safe_upsertCharge_bind]
              rw [safe_bind_of_rest]
              · simp [safe_insertTransaction, admits_charge, hdate, hrow, hmerchant, hpayout]
              · intro isNewTx db'
                simp only [Safe, avoids_modify_bind, avoids_ite, avoids_pure, insertOutboxEvent,
                  implies_true, and_self]

theorem safe_recordSubscriptionPeriodsSkipped {in_ : SubscriptionPeriodsSkippedInput} :
    Safe (recordSubscriptionPeriodsSkipped in_) db ↔
      Int4 in_.onchainSubscriptionId ∧ IsDate in_.paidPeriodStart := by
  simp only [recordSubscriptionPeriodsSkipped, safe_int4Param_bind, safe_timestampParam_bind,
    avoids_get_bind]
  refine and_congr_right fun _ => and_iff_left ?_
  cases db.subscriptions (int64 in_.onchainSubscriptionId) with
  | none => exact safe_unresolvable
  | some sub =>
      refine avoids_modify_bind.mpr ((safe_bind_of_rest fun _ _ => avoids_pure).mpr ?_)
      rw [insertAuditInTx, safe_insertAudit]
      exact ⟨rfl, periodsSkippedAudit_nulFree _ _⟩

theorem safe_upsertSkip {in_ : SubscriptionChargeSkippedInput} {sub : SubscriptionRow} :
    Safe (upsertSkip in_ (int64 in_.onchainSubscriptionId) sub) db ↔
      IsDate in_.blockTimestamp ∧
        ∀ row, in_.fresh? db sub = some row → row.attemptNumber ≤ MAX_INT4 := by
  simp only [upsertSkip, SubscriptionChargeSkippedInput.fresh?, safe_timestampParam_bind,
    avoids_get_bind]
  refine and_congr_right fun _ => ?_
  cases db.charges in_.chargeAttemptId with
  | none =>
      simp [-bind_pure_comp, avoids_modify_bind, avoids_pure, skippedRow, MAX_INT4]
  | some row =>
      by_cases h : in_.isPaymentFailure = true ∧ row.repeatsAt in_.blockTimestamp = true
      · simp [-bind_pure_comp, h, safe_revertIf_bind, avoids_modify_bind, avoids_pure,
          SubscriptionChargeRow.refail]
      · simp only [h, if_false, avoids_pure]
        simp

theorem safe_flagAtRisk {id : Int} {sub : SubscriptionRow} {t : Int} :
    Safe (flagAtRisk id sub t) db ↔ sub.Flaggable t := by
  simp only [flagAtRisk, SubscriptionRow.Flaggable, Safe, avoids_ite, avoids_pure, implies_true,
    and_true]
  simp only [safe_revertIf_bind, safe_timestampParam_bind, avoids_modify, and_true, not_le]

theorem safe_insertSubscriptionChargeSkip {in_ : SubscriptionChargeSkippedInput}
    (hdate : IsDate in_.blockTimestamp) :
    Safe (insertSubscriptionChargeSkip in_) db ↔
      Int4 in_.onchainSubscriptionId ∧
        ∀ sub, db.subscriptions (int64 in_.onchainSubscriptionId) = some sub →
          ∀ row, in_.fresh? db sub = some row → row.attemptNumber ≤ MAX_INT4 ∧
            (in_.isPaymentFailure = true → sub.Flaggable in_.blockTimestamp) := by
  simp only [insertSubscriptionChargeSkip, safe_int4Param_bind, avoids_get_bind]
  refine and_congr_right fun _ => ?_
  cases hsub : db.subscriptions (int64 in_.onchainSubscriptionId) with
  | none => simp [safe_unresolvable]
  | some sub =>
      dsimp only
      cases hfresh : in_.fresh? db sub with
      | none =>
          have hok : ∀ r, upsertSkip in_ (int64 in_.onchainSubscriptionId) sub db = .ok r ↔
              True ∧ r = (false, db) := by
            rintro ⟨b, db'⟩
            simp [upsertSkip_eq_ok, hfresh, hdate]
          have hsafe : Safe (upsertSkip in_ (int64 in_.onchainSubscriptionId) sub) db :=
            safe_upsertSkip.mpr ⟨hdate, by simp [hfresh]⟩
          refine (safe_bind_of (iff_true_intro hsafe) hok).trans ?_
          simp [avoids_pure, hfresh]
      | some row =>
          have hsafe : Safe (upsertSkip in_ (int64 in_.onchainSubscriptionId) sub) db ↔
              row.attemptNumber ≤ MAX_INT4 := safe_upsertSkip.trans (by simp [hdate, hfresh])
          have hok : ∀ r, upsertSkip in_ (int64 in_.onchainSubscriptionId) sub db = .ok r ↔
              row.attemptNumber ≤ MAX_INT4 ∧ r = (true, db.putCharge in_.chargeAttemptId row) := by
            rintro ⟨b, db'⟩
            simp [upsertSkip_eq_ok, hfresh, hdate]
          refine (safe_bind_of hsafe hok).trans ?_
          cases hfail : in_.isPaymentFailure with
          | false => simp [avoids_pure, hfresh]
          | true =>
              simp [-bind_pure_comp, hfresh, insertOutboxEvent, avoids_modify_bind,
                safe_bind_of_rest fun _ _ => avoids_pure, safe_flagAtRisk]

theorem safe_markSubscriptionCancelled {subId : Nat} {by_ : Address} {txHash : Bytes32} {t : Int}
    (hdate : IsDate t) :
    Safe (markSubscriptionCancelled subId by_ txHash t) db ↔ Int4 subId := by
  simp only [markSubscriptionCancelled, safe_int4Param_bind, safe_timestampParam_bind,
    avoids_get_bind]
  refine and_iff_left ⟨hdate, ?_⟩
  cases db.subscriptions (int64 subId) with
  | none => exact safe_unresolvable
  | some sub =>
      simp only [avoids_ite, avoids_pure, avoids_modify_bind, implies_true, and_self]

/-! ## Refunds, jobs and fees -/

theorem safe_completeRefundByTxHash {refundTxHash : String} {t : Int} :
    Safe (completeRefundByTxHash refundTxHash t) db ↔ IsDate t := by
  simp only [completeRefundByTxHash, safe_timestampParam_bind, avoids_get_bind]
  refine and_iff_left ?_
  cases db.refunds.find? fun r => r.completes refundTxHash with
  | none => exact avoids_pure
  | some refund =>
      simp only [avoids_modify_bind, insertOutboxEvent, avoids_pure]

theorem safe_linkAgentJobOnchain {onchainJobId : Nat} {vendor : Address} {escrowTxHash : Bytes32} :
    Safe (linkAgentJobOnchain onchainJobId vendor escrowTxHash) db ↔
      Int4 onchainJobId ∧ db.LinksJob (int64 onchainJobId) vendor escrowTxHash := by
  simp only [linkAgentJobOnchain, safe_int4Param_bind, avoids_get_bind, safe_revertIf_bind,
    avoids_modify_bind, avoids_pure, and_true, linksJob_iff]

theorem safe_setAgentJobStatus {in_ : AgentJobStatusInput} :
    Safe (setAgentJobStatus in_) db ↔ Int4 in_.onchainJobId ∧ IsDate in_.blockTimestamp := by
  simp only [setAgentJobStatus, safe_int4Param_bind, safe_timestampParam_bind, avoids_get_bind,
    avoids_modify_bind, avoids_pure, and_true]

theorem safe_logAgentJobEvent {onchainJobId : Nat} {action : String} {metadata : Metadata} :
    Safe (logAgentJobEvent onchainJobId action metadata) db ↔
      Int4 onchainJobId ∧
        ((db.jobByOnchain (int64 onchainJobId)).isSome → NulFree metadata) := by
  simp only [logAgentJobEvent, safe_int4Param_bind, avoids_get_bind]
  refine and_congr_right fun _ => ?_
  cases db.jobByOnchain (int64 onchainJobId) with
  | none => simp [safe_unresolvable]
  | some job =>
      simp [appendAuditWithMerchant, safe_insertAudit, nulFree_append, nulFree_cons, nulFree_nil,
        Json.hasNul, TargetId.tooLong]

theorem safe_logFeeAccrued {onchainId : Nat} {token : Address} {amount : Nat} {txHash : Bytes32} :
    Safe (logFeeAccrued onchainId token amount txHash) db ↔ Int4 onchainId := by
  simp only [logFeeAccrued, safe_lookup_bind]
  refine and_iff_left ?_
  cases db.merchantByOnchain (int64 onchainId) with
  | none => exact safe_unresolvable
  | some merchant =>
      simp [appendAuditWithMerchant, safe_insertAudit, nulFree_cons, nulFree_nil, Json.hasNul,
        TargetId.tooLong]

/-! ## Audit rows keyed by their log -/

theorem safe_insertOnchainAudit {id : AuditId} {merchantId : Option RowId} {e : AuditEntry} :
    Safe (insertOnchainAudit id merchantId e) db ↔
      e.targetId.tooLong = false ∧ NulFree e.metadata := by
  simp only [insertOnchainAudit, safe_targetParam_bind, safe_jsonbParam_bind, avoids_get_bind,
    avoids_ite, avoids_pure, avoids_modify, implies_true, and_self, and_true]

theorem safe_insertMerchantSecurityAlert {id : AuditId} {merchantId : RowId} :
    Safe (insertMerchantSecurityAlert id merchantId) db := by
  simp only [insertMerchantSecurityAlert, Safe, avoids_get_bind, avoids_ite, avoids_pure,
    avoids_modify, implies_true, and_self]

/-- An unlinked merchant is named by its on-chain id, which its column may not hold. -/
theorem safe_logMerchantGovernance {in_ : MerchantGovernanceInput} :
    Safe (logMerchantGovernance in_) db ↔
      Int4 in_.onchainMerchantId ∧ (in_.entry (in_.merchant? db)).targetId.tooLong = false ∧
        NulFree in_.metadata := by
  have hnul : ∀ m, NulFree (in_.entry m).metadata ↔ NulFree in_.metadata := fun m => by
    simp [MerchantGovernanceInput.entry, nulFree_append, nulFree_logMetadata, nulFree_cons,
      nulFree_nil, Json.hasNul]
  simp only [logMerchantGovernance, safe_lookup_bind, MerchantGovernanceInput.merchant?]
  refine and_congr_right fun _ => ?_
  rw [safe_bind_of_rest, safe_insertOnchainAudit, hnul]
  intro _ db'
  simp only [Safe, avoids_ite, avoids_pure, insertContractAlert, avoids_modify_bind, implies_true,
    true_and]
  cases db.merchantByOnchain (int64 in_.onchainMerchantId) with
  | none => exact fun _ => avoids_pure
  | some m => exact fun _ => safe_insertMerchantSecurityAlert

theorem safe_logContractOperation {in_ : ContractOperationInput} :
    Safe (logContractOperation in_) db ↔ NulFree in_.metadata := by
  rw [logContractOperation, safe_bind_of_rest]
  · rw [safe_insertOnchainAudit, nulFree_logMetadata]
    exact and_iff_right rfl
  · intro _ db'
    simp only [Safe, avoids_ite, avoids_pure, insertContractAlert, avoids_modify, implies_true,
      and_self]

theorem safe_logAgentRegistryEvent {in_ : AgentRegistryInput} :
    Safe (logAgentRegistryEvent in_) db ↔ NulFree in_.metadata := by
  rw [logAgentRegistryEvent, safe_insertOnchainAudit, nulFree_logMetadata]
  exact and_iff_right rfl

/-! ## The dispatch -/

theorem safe_drop {α : Type} {m : Projection α} : Safe (m >>= fun _ => pure ()) db ↔ Safe m db :=
  safe_bind_of_rest fun _ _ => avoids_pure

namespace Projector

variable {p : Projector} {lg : Log} {t : Int}

theorem safe_tokenSymbol_bind {token : Address} {k : Currency → Projection β} :
    Safe (p.tokenSymbol token >>= k) db ↔
      ∀ currency, p.tokens token = some currency → Safe (k currency) db := by
  unfold tokenSymbol
  cases htoken : p.tokens token with
  | none =>
      refine iff_of_true ?_ (by simp)
      rw [safe_bind]
      exact ⟨safe_unresolvable, fun _ _ h => by simp [throw_eq_ok] at h⟩
  | some currency =>
      rw [Safe, avoids_bind_of (G := True) (iff_true_intro avoids_pure) fun r => by
        rw [pure_eq_ok, true_and], true_and]
      simp

@[simp] theorem roleName_hasNul (role : Bytes32) : (p.roleName role).hasNul = false := by
  unfold roleName
  cases p.roleNames role <;> rfl

theorem nulFree_withContractName {metadata : Metadata} :
    NulFree (p.withContractName lg metadata) ↔ NulFree metadata := by
  unfold withContractName
  cases p.contractNames lg.address with
  | none => rfl
  | some name => simp [nulFree_append, nulFree_cons, nulFree_nil, Json.hasNul]

theorem safe_governance {alert : Bool} {merchantId : Nat} {action : String} {metadata : Metadata} :
    Safe (logMerchantGovernance ⟨p.logRef lg, merchantId, action, metadata, alert⟩) db ↔
      Int4 merchantId ∧
        (db.merchantByOnchain (int64 merchantId) = none →
          (TargetId.onchain merchantId).tooLong = false) ∧ NulFree metadata := by
  rw [safe_logMerchantGovernance]
  refine and_congr_right fun _ => and_congr_left fun _ => ?_
  simp only [MerchantGovernanceInput.entry, MerchantGovernanceInput.merchant?]
  cases db.merchantByOnchain (int64 merchantId) with
  | none => simp
  | some m => simp [TargetId.tooLong]

theorem safe_operation {alert : Bool} {action : String} {metadata : Metadata} :
    Safe (Indexer.logContractOperation
      ⟨p.logRef lg, lg.address, action, p.withContractName lg metadata, alert⟩) db ↔
      NulFree metadata := by
  rw [safe_logContractOperation, nulFree_withContractName]

theorem safe_agentRegistry {agent : Address} {action : String} {metadata : Metadata} :
    Safe (p.logAgentRegistry lg agent action metadata) db ↔ NulFree metadata := by
  rw [logAgentRegistry, safe_logAgentRegistryEvent, nulFree_withContractName]

/-- A status event binds nothing of its own but a reason, and that only if the job is known. -/
theorem safe_applyJob {in_ : AgentJobStatusInput} {action : String} {metadata : Metadata}
    (hdate : IsDate in_.blockTimestamp) :
    Safe (applyJob in_ action metadata) db ↔
      Int4 in_.onchainJobId ∧
        ((db.jobByOnchain (int64 in_.onchainJobId)).isSome → NulFree metadata) := by
  have hjob : ((db.moveJobs in_).jobByOnchain (int64 in_.onchainJobId)).isSome =
      (db.jobByOnchain (int64 in_.onchainJobId)).isSome := by
    have hcomp : (fun j : AgentJobRow => decide (j.onchainJobId = some (int64 in_.onchainJobId))) ∘
        (fun j => if j.onchainJobId = some (int64 in_.onchainJobId) ∧ j.status ≠ in_.newStatus then
          j.moveTo in_ else j) =
        fun j => decide (j.onchainJobId = some (int64 in_.onchainJobId)) := by
      funext j
      simp only [Function.comp_apply]
      split <;> rfl
    simp only [Db.jobByOnchain, Db.moveJobs, Db.mapAgentJobs_agentJobs, List.find?_map, hcomp,
      Option.isSome_map]
  have hlogged : Safe (logAgentJobEvent in_.onchainJobId action metadata) (db.moveJobs in_) ↔
      Int4 in_.onchainJobId ∧
        ((db.jobByOnchain (int64 in_.onchainJobId)).isSome → NulFree metadata) := by
    rw [safe_logAgentJobEvent, hjob]
  rw [applyJob, safe_bind, safe_setAgentJobStatus, ← hlogged]
  constructor
  · rintro ⟨⟨hid, -⟩, h⟩
    exact h _ _ (setAgentJobStatus_eq_ok.mpr ⟨hid, hdate, rfl, rfl⟩)
  · refine fun h => ⟨⟨(hlogged.mp h).1, hdate⟩, fun n db' hok => ?_⟩
    obtain ⟨-, -, -, rfl⟩ := setAgentJobStatus_eq_ok.mp hok
    exact h

end Projector

end Strimz.Indexer
