import Strimz.ProjectionSteps

/-!
# What no projection touches

The dead letters and the cursors are the runner's own: no projection reads or writes them.
-/

namespace Strimz.Indexer

open Tx

def Db.queue (db : Db) : List DeadLetter × (CursorKey → Option Checkpoint) :=
  (db.deadLetters, db.cursors)

theorem keeps_int4Param {n : Nat} : Keeps Db.queue (int4Param n) :=
  keeps_bind keeps_revertIf fun _ => keeps_pure

theorem keeps_timestampParam {t : Int} : Keeps Db.queue (timestampParam t) := keeps_revertIf

theorem keeps_lookupMerchantByOnchain {n : Nat} : Keeps Db.queue (lookupMerchantByOnchain n) :=
  keeps_bind keeps_int4Param fun _ => keeps_bind keeps_get fun _ => keeps_pure

theorem keeps_insertAudit {merchantId : Option RowId} {e : AuditEntry} :
    Keeps Db.queue (insertAudit merchantId e) :=
  keeps_bind keeps_revertIf fun _ => keeps_bind keeps_revertIf fun _ => keeps_modify fun _ => rfl

theorem keeps_insertOutboxEvent {type : WebhookEventName} {kind : String} {merchantId : RowId}
    {mode : Mode} {ref : EventRef} :
    Keeps Db.queue (insertOutboxEvent type kind merchantId mode ref) :=
  keeps_modify fun _ => rfl

theorem keeps_insertTransaction {key : TxKey} {row : TransactionRow} :
    Keeps Db.queue (insertTransaction key row) :=
  keeps_bind keeps_timestampParam fun _ => keeps_bind keeps_get fun _ =>
    keeps_ite keeps_pure (keeps_bind keeps_revertIf fun _ => keeps_bind keeps_revertIf fun _ =>
      keeps_bind (keeps_modify fun db => by rw [insertTransaction_frame]; rfl) fun _ => keeps_pure)

theorem keeps_updateMerchant {onchainId : Nat} {set : MerchantRow → MerchantRow} :
    Keeps Db.queue (updateMerchant onchainId set) :=
  keeps_bind keeps_int4Param fun _ => keeps_bind keeps_get fun _ =>
    keeps_bind (keeps_modify fun _ => rfl) fun _ => keeps_pure

theorem keeps_linkOnchainMerchant {onchainId : Nat} {txHash : Bytes32} {fee : OnchainFee} :
    Keeps Db.queue (linkOnchainMerchant onchainId txHash fee) :=
  keeps_bind keeps_int4Param fun _ => keeps_bind keeps_timestampParam fun _ =>
    keeps_bind keeps_get fun _ => keeps_bind keeps_revertIf fun _ =>
      keeps_bind (keeps_modify fun _ => rfl) fun _ => keeps_pure

theorem keeps_settleSession {sessionId merchantId : RowId} {in_ : OneShotTxInput} :
    Keeps Db.queue (settleSession sessionId merchantId in_) := by
  refine keeps_bind (keeps_bind keeps_get fun db => ?_) fun _ =>
    keeps_bind keeps_insertOutboxEvent fun _ => keeps_bind keeps_get fun db => ?_
  · cases db.sessions sessionId with
    | none => exact keeps_pure
    | some row => exact keeps_ite keeps_pure (keeps_modify fun _ => rfl)
  · cases db.invoices sessionId with
    | none => exact keeps_pure
    | some invoice =>
        exact keeps_ite keeps_pure
          (keeps_bind (keeps_modify fun _ => rfl) fun _ => keeps_insertOutboxEvent)

theorem keeps_insertOneShotTransaction {in_ : OneShotTxInput} :
    Keeps Db.queue (insertOneShotTransaction in_) := by
  refine keeps_bind keeps_get fun db => keeps_bind keeps_lookupMerchantByOnchain fun m => ?_
  cases m with
  | none => exact keeps_throw
  | some merchant =>
      refine keeps_bind keeps_insertTransaction fun inserted => keeps_ite keeps_pure ?_
      dsimp only
      split
      · exact keeps_pure
      · exact keeps_ite (keeps_bind keeps_settleSession fun _ => keeps_pure)
          (keeps_bind keeps_insertAudit fun _ => keeps_pure)

theorem keeps_upsertSubscriptionFromOnchain {in_ : SubscriptionCreatedInput} :
    Keeps Db.queue (upsertSubscriptionFromOnchain in_) := by
  refine keeps_bind keeps_revertIf fun _ => keeps_bind keeps_lookupMerchantByOnchain fun m => ?_
  cases m with
  | none => exact keeps_throw
  | some merchant =>
      refine keeps_bind (keeps_modify fun _ => rfl) fun _ => keeps_bind ?_ fun _ =>
        keeps_bind ?_ fun _ => keeps_ite keeps_pure
          (keeps_bind keeps_insertOutboxEvent fun _ => keeps_pure)
      · exact keeps_bind keeps_get fun _ => keeps_ite keeps_pure (keeps_modify fun _ => rfl)
      · exact keeps_bind keeps_int4Param fun _ => keeps_bind keeps_timestampParam fun _ =>
          keeps_bind keeps_timestampParam fun _ => keeps_bind keeps_timestampParam fun _ =>
            keeps_bind keeps_get fun _ => keeps_ite keeps_pure
              (keeps_bind keeps_revertIf fun _ =>
                keeps_bind (keeps_modify fun _ => rfl) fun _ => keeps_pure)

theorem keeps_insertSubscriptionCharge {in_ : SubscriptionChargedInput} :
    Keeps Db.queue (insertSubscriptionCharge in_) := by
  refine keeps_bind keeps_int4Param fun _ => keeps_bind keeps_get fun db => ?_
  split
  · exact keeps_throw
  · split
    · exact keeps_throw
    · refine keeps_bind ?_ fun _ => keeps_bind keeps_insertTransaction fun _ =>
        keeps_bind (keeps_modify fun _ => rfl) fun _ => keeps_ite keeps_pure
          (keeps_bind keeps_insertOutboxEvent fun _ => keeps_pure)
      refine keeps_bind keeps_timestampParam fun _ => keeps_bind keeps_timestampParam fun _ =>
        keeps_bind keeps_get fun _ => ?_
      split
      · exact keeps_modify fun _ => rfl
      · exact keeps_ite (keeps_modify fun _ => rfl) keeps_pure

theorem keeps_recordSubscriptionPeriodsSkipped {in_ : SubscriptionPeriodsSkippedInput} :
    Keeps Db.queue (recordSubscriptionPeriodsSkipped in_) := by
  refine keeps_bind keeps_int4Param fun _ => keeps_bind keeps_timestampParam fun _ =>
    keeps_bind keeps_get fun db => ?_
  split
  · exact keeps_throw
  · exact keeps_bind (keeps_modify fun _ => rfl) fun _ =>
      keeps_bind keeps_insertAudit fun _ => keeps_pure

theorem keeps_insertSubscriptionChargeSkip {in_ : SubscriptionChargeSkippedInput} :
    Keeps Db.queue (insertSubscriptionChargeSkip in_) := by
  refine keeps_bind keeps_int4Param fun _ => keeps_bind keeps_get fun db => ?_
  split
  · exact keeps_throw
  · refine keeps_bind (keeps_bind keeps_timestampParam fun _ => keeps_bind keeps_get fun _ => ?_)
      fun _ => keeps_ite keeps_pure (keeps_ite keeps_pure
        (keeps_bind keeps_insertOutboxEvent fun _ => keeps_bind ?_ fun _ => keeps_pure))
    · split
      · exact keeps_bind (keeps_modify fun _ => rfl) fun _ => keeps_pure
      · exact keeps_ite (keeps_bind keeps_revertIf fun _ =>
          keeps_bind (keeps_modify fun _ => rfl) fun _ => keeps_pure) keeps_pure
    · exact keeps_ite (keeps_bind keeps_revertIf fun _ => keeps_bind keeps_timestampParam fun _ =>
        keeps_modify fun _ => rfl) keeps_pure

theorem keeps_markSubscriptionCancelled {subId : Nat} {by_ : Address} {txHash : Bytes32} {t : Int} :
    Keeps Db.queue (markSubscriptionCancelled subId by_ txHash t) := by
  refine keeps_bind keeps_int4Param fun _ => keeps_bind keeps_timestampParam fun _ =>
    keeps_bind keeps_get fun db => ?_
  split
  · exact keeps_throw
  · exact keeps_ite keeps_pure (keeps_bind (keeps_modify fun _ => rfl) fun _ => keeps_pure)

theorem keeps_completeRefundByTxHash {refundTxHash : String} {t : Int} :
    Keeps Db.queue (completeRefundByTxHash refundTxHash t) := by
  refine keeps_bind keeps_timestampParam fun _ => keeps_bind keeps_get fun db => ?_
  split
  · exact keeps_pure
  · exact keeps_bind (keeps_modify fun _ => rfl) fun _ =>
      keeps_bind keeps_insertOutboxEvent fun _ => keeps_pure

theorem keeps_linkAgentJobOnchain {jobId : Nat} {vendor : Address} {txHash : Bytes32} :
    Keeps Db.queue (linkAgentJobOnchain jobId vendor txHash) :=
  keeps_bind keeps_int4Param fun _ => keeps_bind keeps_get fun _ =>
    keeps_bind keeps_revertIf fun _ => keeps_bind (keeps_modify fun _ => rfl) fun _ => keeps_pure

theorem keeps_logAgentJobEvent {jobId : Nat} {action : String} {metadata : Metadata} :
    Keeps Db.queue (logAgentJobEvent jobId action metadata) := by
  refine keeps_bind keeps_int4Param fun _ => keeps_bind keeps_get fun db => ?_
  split
  · exact keeps_throw
  · exact keeps_insertAudit

theorem keeps_applyJob {in_ : AgentJobStatusInput} {action : String} {metadata : Metadata} :
    Keeps Db.queue (Projector.applyJob in_ action metadata) :=
  keeps_bind (keeps_bind keeps_int4Param fun _ => keeps_bind keeps_timestampParam fun _ =>
    keeps_bind keeps_get fun _ => keeps_bind (keeps_modify fun _ => rfl) fun _ => keeps_pure)
    fun _ => keeps_logAgentJobEvent

theorem keeps_logFeeAccrued {onchainId : Nat} {token : Address} {amount : Nat} {txHash : Bytes32} :
    Keeps Db.queue (logFeeAccrued onchainId token amount txHash) := by
  refine keeps_bind keeps_lookupMerchantByOnchain fun m => ?_
  cases m with
  | none => exact keeps_throw
  | some merchant => exact keeps_insertAudit

theorem keeps_insertOnchainAudit {id : AuditId} {merchantId : Option RowId} {e : AuditEntry} :
    Keeps Db.queue (insertOnchainAudit id merchantId e) :=
  keeps_bind keeps_revertIf fun _ => keeps_bind keeps_revertIf fun _ => keeps_bind keeps_get
    fun _ => keeps_ite keeps_pure (keeps_modify fun _ => rfl)

theorem keeps_logMerchantGovernance {in_ : MerchantGovernanceInput} :
    Keeps Db.queue (logMerchantGovernance in_) := by
  refine keeps_bind keeps_lookupMerchantByOnchain fun m => keeps_bind keeps_insertOnchainAudit
    fun _ => keeps_ite keeps_pure (keeps_bind (keeps_modify fun _ => rfl) fun _ => ?_)
  cases m with
  | none => exact keeps_pure
  | some m => exact keeps_bind keeps_get fun _ => keeps_ite keeps_pure (keeps_modify fun _ => rfl)

theorem keeps_logContractOperation {in_ : ContractOperationInput} :
    Keeps Db.queue (logContractOperation in_) :=
  keeps_bind keeps_insertOnchainAudit fun _ => keeps_ite keeps_pure (keeps_modify fun _ => rfl)

namespace Projector

variable {p : Projector} {lg : Log} {t : Int}

theorem keeps_tokenSymbol {token : Address} : Keeps Db.queue (p.tokenSymbol token) := by
  unfold tokenSymbol
  split
  · exact keeps_pure
  · exact keeps_throw

theorem keeps_apply : Keeps Db.queue (p.apply lg t) := by
  unfold apply
  split
  · exact keeps_throw
  · exact keeps_pure
  · rename_i payload _
    cases payload with
    | merchantRegistered => exact keeps_bind keeps_linkOnchainMerchant fun _ => keeps_pure
    | merchantPayoutAddressUpdated => exact keeps_bind keeps_updateMerchant fun _ => keeps_pure
    | merchantActiveSet => exact keeps_bind keeps_updateMerchant fun _ => keeps_pure
    | merchantFeeBpsUpdated =>
        exact keeps_bind (keeps_bind keeps_timestampParam fun _ => keeps_updateMerchant) fun _ =>
          keeps_insertAudit
    | merchantMaxFeeBpsLowered =>
        exact keeps_bind (keeps_bind keeps_timestampParam fun _ => keeps_updateMerchant) fun _ =>
          keeps_logMerchantGovernance
    | merchantOwnershipTransferInitiated | merchantOwnershipTransferAccepted
    | merchantOwnershipTransferCancelled | merchantPayoutChangeInitiated
    | merchantPayoutChangeCancelled => exact keeps_logMerchantGovernance
    | paymentExecuted =>
        exact keeps_bind keeps_tokenSymbol fun _ =>
          keeps_bind keeps_insertOneShotTransaction fun _ => keeps_pure
    | subscriptionCreated =>
        exact keeps_bind keeps_tokenSymbol fun _ =>
          keeps_bind keeps_upsertSubscriptionFromOnchain fun _ => keeps_pure
    | subscriptionCharged => exact keeps_bind keeps_insertSubscriptionCharge fun _ => keeps_pure
    | subscriptionPeriodsSkipped =>
        exact keeps_bind keeps_recordSubscriptionPeriodsSkipped fun _ => keeps_pure
    | subscriptionChargeSkipped =>
        exact keeps_bind keeps_insertSubscriptionChargeSkip fun _ => keeps_pure
    | subscriptionCancelled => exact keeps_bind keeps_markSubscriptionCancelled fun _ => keeps_pure
    | erc20Transfer => exact keeps_bind keeps_completeRefundByTxHash fun _ => keeps_pure
    | jobCreated => exact keeps_bind keeps_linkAgentJobOnchain fun _ => keeps_logAgentJobEvent
    | jobRefunded => exact keeps_logAgentJobEvent
    | jobFunded | jobStarted | jobDelivered | jobApproved | jobReleased | jobDisputed
    | jobCancelled | jobResolved | jobReclaimed => exact keeps_applyJob
    | feeAccrued => exact keeps_logFeeAccrued
    | agentRegistered | agentCredentialRotated | agentReputationAdjusted | agentDeactivated
    | agentActivated => exact keeps_insertOnchainAudit
    | _ => exact keeps_logContractOperation

end Projector

end Strimz.Indexer
