import Strimz.KeptRows

/-!
# Projecting a log again

A dead letter is retried, and a batch that failed is read again: a log can meet a database
that has it already, however much later. It then goes through, and the rows a replay can still
rewrite are those of `Payload.rewrites`; every other table stays as it is.
-/

namespace Strimz.Indexer

open Tx

variable {db db₁ db₂ : Db} {n : Nat}

/-! ## The store methods, again -/

theorem transactions_recordOneShot (in_ : OneShotTxInput) (merchant : MerchantRow) :
    (db.recordOneShot in_ merchant).transactions in_.key ≠ none := by
  have hinserted : ∀ row, (db.insertTransaction in_.key row).transactions in_.key ≠ none := by
    intro row
    rw [insertTransaction_frame]
    simp
  unfold Db.recordOneShot
  split
  · exact hinserted _
  · split
    · exact kept_settle.transactions.present (hinserted _)
    · exact kept_audit.transactions.present (hinserted _)

theorem again_insertOneShotTransaction {in_ : OneShotTxInput}
    (h : insertOneShotTransaction in_ db = .ok (n, db₁)) (hk : Kept db₁ db₂) :
    insertOneShotTransaction in_ db₂ = .ok (0, db₂) := by
  have hkept := (kept_insertOneShotTransaction h).trans hk
  obtain ⟨hid, hdate, merchant, hmerchant, hcase⟩ := insertOneShotTransaction_eq_ok.mp h
  obtain ⟨merchant', hmerchant', -⟩ := hkept.merchants.linked _ _ hmerchant
  have hpresent : db₁.transactions in_.key ≠ none := by
    rcases hcase with ⟨hold, -, rfl⟩ | ⟨-, -, rfl⟩
    · exact hold
    · exact transactions_recordOneShot in_ merchant
  exact insertOneShotTransaction_eq_ok.mpr
    ⟨hid, hdate, merchant', hmerchant', Or.inl ⟨hk.transactions.present hpresent, rfl, rfl⟩⟩

theorem putCustomer_of_mem {rid : RowId} {wallet : Address} (h : db.customers rid wallet = true) :
    db.putCustomer rid wallet = db := by
  unfold Db.putCustomer
  dsimp only
  rw [← h, Function.update_eq_self, Function.update_eq_self]

theorem again_upsertSubscriptionFromOnchain {in_ : SubscriptionCreatedInput}
    (h : upsertSubscriptionFromOnchain in_ db = .ok (n, db₁)) (hk : Kept db₁ db₂) :
    upsertSubscriptionFromOnchain in_ db₂ = .ok (0, db₂) := by
  have hkept := (kept_upsertSubscriptionFromOnchain h).trans hk
  obtain ⟨hzero, hid, merchant, hmerchant, hsid, hdated, hcase⟩ :=
    upsertSubscriptionFromOnchain_eq_ok.mp h
  obtain ⟨merchant', hmerchant', hsame⟩ := hkept.merchants.linked _ _ hmerchant
  have hseen : db₁.customers merchant.id in_.payerAddress = true ∧
      db₁.plans (in_.planKey merchant.id) = true ∧
      db₁.subscriptions (int64 in_.onchainSubscriptionId) ≠ none := by
    rcases hcase with ⟨hold, -, rfl⟩ | ⟨-, -, -, rfl⟩
    · exact ⟨by simp [Db.enrolPayer], by simp [Db.enrolPayer], hold⟩
    · exact ⟨by simp [Db.createSubscription, Db.enrolPayer],
        by simp [Db.createSubscription, Db.enrolPayer], by simp [Db.createSubscription]⟩
  have henrolled : db₂.enrolPayer in_ merchant.id = db₂ := by
    unfold Db.enrolPayer
    rw [putCustomer_of_mem (hk.customers _ _ hseen.1), putPlan_of_mem (hk.plans _ hseen.2.1)]
  refine upsertSubscriptionFromOnchain_eq_ok.mpr ⟨hzero, hid, merchant', hmerchant', hsid, ?_,
    Or.inl ⟨hk.subscriptions.present hseen.2.2, rfl, ?_⟩⟩
  · rwa [hsame]
  · rw [hsame, henrolled]

/-- After a charge its attempt has a row that did not fail. -/
theorem charges_recordAttempt (in_ : SubscriptionChargedInput) (id : Int) (sub : SubscriptionRow) :
    ∃ row, (db.recordAttempt in_ id sub).charges in_.chargeAttemptId = some row ∧
      row.status ≠ .failed := by
  unfold Db.recordAttempt
  split
  · exact ⟨_, Function.update_self .., by simp [chargedRow]⟩
  · rename_i row hrow
    split
    · exact ⟨_, Function.update_self .., by simp [upgradedRow]⟩
    · rename_i hok
      exact ⟨row, hrow, hok⟩

theorem recordAttempt_of_settled {in_ : SubscriptionChargedInput} {id : Int} {sub : SubscriptionRow}
    {row : SubscriptionChargeRow} (hrow : db.charges in_.chargeAttemptId = some row)
    (hok : row.status ≠ .failed) : db.recordAttempt in_ id sub = db := by
  unfold Db.recordAttempt
  rw [hrow]
  exact if_neg hok

theorem again_insertSubscriptionCharge {in_ : SubscriptionChargedInput}
    (h : insertSubscriptionCharge in_ db = .ok (n, db₁)) (hk : Kept db₁ db₂) :
    ∃ row, insertSubscriptionCharge in_ db₂ =
      .ok (0, db₂.putSubscription (int64 in_.onchainSubscriptionId) row) := by
  have hkept := (kept_insertSubscriptionCharge h).trans hk
  obtain ⟨hid, sub, merchant, merchantAddress, hsub, hmerchant, hpayout, hnext, hdate, hcase⟩ :=
    insertSubscriptionCharge_eq_ok.mp h
  obtain ⟨sub', hsub', hlater⟩ := hkept.subscriptions _ _ hsub
  obtain ⟨merchant', hmerchant', hpaid⟩ := hkept.merchants.paid _ _ hmerchant
  obtain ⟨merchantAddress', hpayout'⟩ :=
    Option.ne_none_iff_exists'.mp (hpaid (by simp [hpayout]))
  obtain ⟨row, hrow, hok⟩ := @charges_recordAttempt db in_ (int64 in_.onchainSubscriptionId) sub
  have hseen : db₁.transactions in_.key ≠ none ∧
      db₁.charges in_.chargeAttemptId = some row := by
    rcases hcase with ⟨hold, -, rfl⟩ | ⟨-, -, -, rfl⟩
    · exact ⟨by simpa using hold, hrow⟩
    · rw [recordCharge_frame]
      exact ⟨by simp, hrow⟩
  obtain ⟨row', hrow', hlater'⟩ := hk.charges _ _ hseen.2
  refine ⟨sub'.bump in_.nextChargeAt, insertSubscriptionCharge_eq_ok.mpr
    ⟨hid, sub', merchant', merchantAddress', hsub', hlater.merchant ▸ hmerchant', hpayout', hnext,
      hdate, Or.inl ⟨hk.transactions.present hseen.1, rfl, ?_⟩⟩⟩
  rw [recordAttempt_of_settled hrow' (hlater'.settled hok)]

theorem again_recordSubscriptionPeriodsSkipped {in_ : SubscriptionPeriodsSkippedInput}
    (h : recordSubscriptionPeriodsSkipped in_ db = .ok (n, db₁)) (hk : Kept db₁ db₂) :
    ∃ row entry, recordSubscriptionPeriodsSkipped in_ db₂ =
      .ok (1, (db₂.putSubscription (int64 in_.onchainSubscriptionId) row).audit entry) := by
  have hkept := (kept_recordSubscriptionPeriodsSkipped h).trans hk
  obtain ⟨hid, hdate, sub, hsub, -⟩ := recordSubscriptionPeriodsSkipped_eq_ok.mp h
  obtain ⟨sub', hsub', -⟩ := hkept.subscriptions _ _ hsub
  exact ⟨_, _, recordSubscriptionPeriodsSkipped_eq_ok.mpr ⟨hid, hdate, sub', hsub', rfl, rfl⟩⟩

/-- The attempt has a row, and the block is not later than the failure it holds. -/
def SubscriptionChargeSkippedInput.Seen (in_ : SubscriptionChargeSkippedInput) (db : Db) : Prop :=
  ∃ row, db.charges in_.chargeAttemptId = some row ∧
    (in_.isPaymentFailure = true → row.repeatsAt in_.blockTimestamp = false)

theorem fresh?_eq_none {in_ : SubscriptionChargeSkippedInput} {sub : SubscriptionRow} :
    in_.fresh? db sub = none ↔ in_.Seen db := by
  unfold SubscriptionChargeSkippedInput.fresh? SubscriptionChargeSkippedInput.Seen
  cases db.charges in_.chargeAttemptId with
  | none => simp
  | some row => simp

theorem seen_putCharge {in_ : SubscriptionChargeSkippedInput} {sub : SubscriptionRow}
    {row : SubscriptionChargeRow} (h : in_.fresh? db sub = some row) :
    in_.Seen (db.putCharge in_.chargeAttemptId row) := by
  refine ⟨row, Function.update_self .., fun _ => ?_⟩
  unfold SubscriptionChargeSkippedInput.fresh? at h
  split at h
  · cases h
    simp [SubscriptionChargeRow.repeatsAt, skippedRow]
  · split at h
    · cases h
      simp [SubscriptionChargeRow.repeatsAt, SubscriptionChargeRow.refail]
    · cases h

theorem again_insertSubscriptionChargeSkip {in_ : SubscriptionChargeSkippedInput}
    (h : insertSubscriptionChargeSkip in_ db = .ok (n, db₁)) (hk : Kept db₁ db₂) :
    insertSubscriptionChargeSkip in_ db₂ = .ok (0, db₂) := by
  have hkept := (kept_insertSubscriptionChargeSkip h).trans hk
  obtain ⟨hid, hdate, sub, hsub, hcase⟩ := insertSubscriptionChargeSkip_eq_ok.mp h
  obtain ⟨sub', hsub', -⟩ := hkept.subscriptions _ _ hsub
  have hseen : in_.Seen db₁ := by
    rcases hcase with ⟨hold, -, rfl⟩ | ⟨row, hrow, -, -, ⟨-, rfl⟩ | ⟨-, -, rfl⟩⟩
    · exact fresh?_eq_none.mp hold
    · exact seen_putCharge hrow
    · unfold Db.recordFailure Db.flagAtRisk
      split <;> exact seen_putCharge hrow
  obtain ⟨row, hrow, hrepeat⟩ := hseen
  obtain ⟨row', hrow', hlater⟩ := hk.charges _ _ hrow
  exact insertSubscriptionChargeSkip_eq_ok.mpr ⟨hid, hdate, sub', hsub',
    Or.inl ⟨fresh?_eq_none.mpr ⟨row', hrow', fun hf => hlater.seen _ (hrepeat hf)⟩, rfl, rfl⟩⟩

theorem again_markSubscriptionCancelled {subId : Nat} {by_ : Address} {txHash : Bytes32} {t : Int}
    (h : markSubscriptionCancelled subId by_ txHash t db = .ok (n, db₁)) (hk : Kept db₁ db₂) :
    markSubscriptionCancelled subId by_ txHash t db₂ = .ok (0, db₂) := by
  obtain ⟨hid, hdate, sub, hsub, hcase⟩ := markSubscriptionCancelled_eq_ok.mp h
  have hended : ∃ sub₁, db₁.subscriptions (int64 subId) = some sub₁ ∧ sub₁.status.ended = true := by
    rcases hcase with ⟨hended, -, rfl⟩ | ⟨-, -, rfl⟩
    · exact ⟨sub, hsub, SubscriptionStatus.ended_iff.mpr hended⟩
    · exact ⟨sub.cancel by_ txHash t, Function.update_self .., rfl⟩
  obtain ⟨sub₁, hsub₁, hended⟩ := hended
  obtain ⟨sub₂, hsub₂, hlater⟩ := hk.subscriptions _ _ hsub₁
  exact markSubscriptionCancelled_eq_ok.mpr ⟨hid, hdate, sub₂, hsub₂,
    Or.inl ⟨SubscriptionStatus.ended_iff.mp (hlater.ended hended), rfl, rfl⟩⟩

theorem again_completeRefundByTxHash {txHash : String} {t : Int}
    (h : completeRefundByTxHash txHash t db = .ok (n, db₁)) (hk : Kept db₁ db₂) :
    completeRefundByTxHash txHash t db₂ = .ok (0, db₂) := by
  obtain ⟨hdate, hcase⟩ := completeRefundByTxHash_eq_ok.mp h
  have hnone : ∀ r ∈ db₁.refunds, r.completes txHash = false := by
    rcases hcase with ⟨hold, -, rfl⟩ | ⟨refund, -, -, rfl⟩
    · exact fun r hr => Bool.eq_false_iff.mpr (List.find?_eq_none.mp hold r hr)
    · intro r hr
      obtain ⟨r₀, -, rfl⟩ := List.mem_map.mp hr
      split
      · simp [RefundRow.completes]
      · rename_i hc
        exact Bool.eq_false_iff.mpr hc
  exact completeRefundByTxHash_eq_ok.mpr ⟨hdate, Or.inl ⟨List.find?_eq_none.mpr fun r hr =>
    Bool.eq_false_iff.mp (hk.refunds txHash hnone r hr), rfl, rfl⟩⟩

theorem again_linkOnchainMerchant {id : Nat} {txHash : Bytes32} {fee : OnchainFee}
    (h : linkOnchainMerchant id txHash fee db = .ok (n, db₁)) (hk : Kept db₁ db₂) :
    ∃ n f, linkOnchainMerchant id txHash fee db₂ = .ok (n, db₂.mapMerchants f) := by
  obtain ⟨hid, hdate, hone, hr⟩ := linkOnchainMerchant_eq_ok.mp h
  obtain ⟨-, rfl⟩ := Prod.mk.inj hr
  have hregistered : ∀ m ∈ (db.linkMerchants (int64 id) txHash fee).merchants,
      m.onchainRegistrationTxHash = some txHash → m.onchainMerchantId ≠ none := by
    intro m hm hhash
    obtain ⟨m₀, -, rfl⟩ := List.mem_map.mp hm
    by_cases hlinks : m₀.linksTo (int64 id) txHash = true
    · simp [hlinks, MerchantRow.link]
    · simp only [hlinks, Bool.false_eq_true, if_false] at hhash ⊢
      intro hnone
      exact hlinks (by simp [MerchantRow.linksTo, hhash, hnone])
  have hunique : ((db.linkMerchants (int64 id) txHash fee).merchants.countP fun m =>
      m.onchainMerchantId = some (int64 id)) ≤ 1 := by
    unfold Db.linkMerchants
    rw [Db.mapMerchants_merchants, List.countP_map]
    simpa only [Function.comp_def, MerchantRow.link_onchain, Bool.decide_eq_true] using hone
  have hsame : (db₂.merchants.countP fun m => m.linksTo (int64 id) txHash) =
      db₂.merchants.countP fun m => m.onchainMerchantId = some (int64 id) := by
    refine List.countP_congr fun m hm => ?_
    have hset := hk.merchants.registered txHash hregistered m hm
    simp only [MerchantRow.linksTo, Bool.or_eq_true, Bool.and_eq_true, decide_eq_true_eq]
    refine ⟨fun hl => ?_, Or.inr⟩
    rcases hl with ⟨hhash, ho⟩ | ho
    · exact ho.resolve_left (hset hhash)
    · exact ho
  exact ⟨_, _, linkOnchainMerchant_eq_ok.mpr
    ⟨hid, hdate, hsame ▸ hk.merchants.unique _ hunique, rfl⟩⟩

theorem again_setMerchantOnchainFeeBps {id : Nat} {feeBps : Uint16} {txHash : Bytes32} {t : Int}
    (h : setMerchantOnchainFeeBps id feeBps txHash t db = .ok (n, db₁)) :
    ∃ n f, setMerchantOnchainFeeBps id feeBps txHash t db₂ = .ok (n, db₂.mapMerchants f) :=
  ⟨_, _, setMerchantOnchainFeeBps_eq_ok.mpr ⟨(setMerchantOnchainFeeBps_eq_ok.mp h).1, rfl⟩⟩

theorem again_setMerchantOnchainMaxFeeBps {id : Nat} {maxFeeBps : Uint16} {txHash : Bytes32}
    {t : Int} (h : setMerchantOnchainMaxFeeBps id maxFeeBps txHash t db = .ok (n, db₁)) :
    ∃ n f, setMerchantOnchainMaxFeeBps id maxFeeBps txHash t db₂ = .ok (n, db₂.mapMerchants f) :=
  ⟨_, _, setMerchantOnchainMaxFeeBps_eq_ok.mpr ⟨(setMerchantOnchainMaxFeeBps_eq_ok.mp h).1, rfl⟩⟩

theorem again_updateMerchant {id : Nat} {set : MerchantRow → MerchantRow}
    (h : updateMerchant id set db = .ok (n, db₁)) :
    ∃ n f, updateMerchant id set db₂ = .ok (n, db₂.mapMerchants f) :=
  ⟨_, _, updateMerchant_eq_ok.mpr ⟨(updateMerchant_eq_ok.mp h).1, rfl⟩⟩

theorem mapAgentJobs_of_missed {txHash : Bytes32} {vendor : Address} {id : Int}
    (h : ∀ j ∈ db.agentJobs, j.linksTo txHash vendor = false) : db.linkJobs id vendor txHash = db := by
  have hmap : (db.agentJobs.map fun j =>
      if j.linksTo txHash vendor then j.link id else j) = db.agentJobs := by
    refine (List.map_congr_left fun j hj => ?_).trans (List.map_id _)
    simp [h j hj]
  unfold Db.linkJobs Db.mapAgentJobs
  rw [hmap]

theorem again_linkAgentJobOnchain {id : Nat} {vendor : Address} {txHash : Bytes32}
    (h : linkAgentJobOnchain id vendor txHash db = .ok (n, db₁)) (hk : Kept db₁ db₂) :
    linkAgentJobOnchain id vendor txHash db₂ = .ok (0, db₂) := by
  obtain ⟨hid, hlinks, hr⟩ := linkAgentJobOnchain_eq_ok.mp h
  obtain ⟨-, rfl⟩ := Prod.mk.inj hr
  have hmissed : ∀ j ∈ (db.linkJobs (int64 id) vendor txHash).agentJobs,
      j.linksTo txHash vendor = false := by
    intro j hj
    obtain ⟨j₀, -, rfl⟩ := List.mem_map.mp hj
    split
    · simp [AgentJobRow.linksTo, AgentJobRow.link]
    · rename_i hl
      exact Bool.eq_false_iff.mpr hl
  have hnone := hk.agentJobs.missed txHash vendor hmissed
  have hzero : (db₂.agentJobs.countP fun j => j.linksTo txHash vendor) = 0 :=
    List.countP_eq_zero.mpr fun j hj => Bool.eq_false_iff.mp (hnone j hj)
  refine linkAgentJobOnchain_eq_ok.mpr ⟨hid, Or.inl hzero, ?_⟩
  rw [hzero, mapAgentJobs_of_missed hnone]

theorem again_setAgentJobStatus {in_ : AgentJobStatusInput}
    (h : setAgentJobStatus in_ db = .ok (n, db₁)) :
    ∃ n f, setAgentJobStatus in_ db₂ = .ok (n, db₂.mapAgentJobs f) := by
  obtain ⟨hid, hdate, -⟩ := setAgentJobStatus_eq_ok.mp h
  exact ⟨_, _, setAgentJobStatus_eq_ok.mpr ⟨hid, hdate, rfl, rfl⟩⟩

theorem again_logAgentJobEvent {id : Nat} {action : String} {metadata : Metadata}
    (h : logAgentJobEvent id action metadata db = .ok ((), db₁)) (hk : Kept db db₂) :
    ∃ row, logAgentJobEvent id action metadata db₂ = .ok ((), db₂.audit row) := by
  obtain ⟨hid, job, hjob, hnul, -⟩ := logAgentJobEvent_eq_ok.mp h
  have hheld : job.onchainJobId = some (int64 id) := by simpa using List.find?_some hjob
  obtain ⟨j, hj, hjid⟩ :=
    hk.agentJobs.linked _ ⟨job, List.mem_of_find?_eq_some hjob, hheld⟩
  obtain ⟨job', hjob'⟩ : ∃ job', db₂.jobByOnchain (int64 id) = some job' :=
    Option.isSome_iff_exists.mp (List.find?_isSome.mpr ⟨j, hj, by simpa using hjid⟩)
  exact ⟨_, logAgentJobEvent_eq_ok.mpr ⟨hid, job', hjob', hnul, rfl⟩⟩

theorem again_logMerchantFeeBpsChange {id : Nat} {feeBps : Uint16} {txHash : Bytes32}
    (h : logMerchantFeeBpsChange id feeBps txHash db = .ok ((), db₁)) :
    ∃ row, logMerchantFeeBpsChange id feeBps txHash db₂ = .ok ((), db₂.audit row) :=
  ⟨_, logMerchantFeeBpsChange_eq_ok.mpr ⟨(logMerchantFeeBpsChange_eq_ok.mp h).1, rfl⟩⟩

theorem again_logFeeAccrued {id : Nat} {token : Address} {amount : Nat} {txHash : Bytes32}
    (h : logFeeAccrued id token amount txHash db = .ok ((), db₁)) (hk : Kept db db₂) :
    ∃ row, logFeeAccrued id token amount txHash db₂ = .ok ((), db₂.audit row) := by
  obtain ⟨hid, merchant, hmerchant, -⟩ := logFeeAccrued_eq_ok.mp h
  obtain ⟨merchant', hmerchant', -⟩ := hk.merchants.linked _ _ hmerchant
  exact ⟨_, logFeeAccrued_eq_ok.mpr ⟨hid, merchant', hmerchant', rfl⟩⟩

/-! ## The audit rows keyed by their log -/

theorem hasAudit_auditOnce (id : AuditId) (rid : Option RowId) (e : AuditEntry) :
    (db.auditOnce id rid e).hasAudit id = true := by
  unfold Db.auditOnce
  split
  · assumption
  · simp [Db.hasAudit]

theorem Kept.hasAudit (hk : Kept db₁ db₂) {id : AuditId} (h : db₁.hasAudit id = true) :
    db₂.hasAudit id = true := by
  unfold Db.hasAudit at h ⊢
  obtain ⟨row, hrow, hid⟩ := List.any_eq_true.mp h
  exact List.any_eq_true.mpr ⟨row, hk.auditLogs.subset hrow, hid⟩

theorem auditOnce_of_mem {id : AuditId} {rid : Option RowId} {e : AuditEntry}
    (h : db.hasAudit id = true) : db.auditOnce id rid e = db := if_pos h

theorem alert_of_mem {id : AuditId} (h : db.contractAlerts id = true) : db.alert id = db := by
  unfold Db.alert
  rw [← h, Function.update_eq_self]

theorem again_logAgentRegistryEvent {in_ : AgentRegistryInput}
    (h : logAgentRegistryEvent in_ db = .ok ((), db₁)) (hk : Kept db₁ db₂) :
    logAgentRegistryEvent in_ db₂ = .ok ((), db₂) := by
  obtain ⟨hnul, hr⟩ := logAgentRegistryEvent_eq_ok.mp h
  obtain ⟨-, rfl⟩ := Prod.mk.inj hr
  refine logAgentRegistryEvent_eq_ok.mpr ⟨hnul, ?_⟩
  rw [auditOnce_of_mem (hk.hasAudit (hasAudit_auditOnce ..))]

theorem again_logContractOperation {in_ : ContractOperationInput}
    (h : logContractOperation in_ db = .ok ((), db₁)) (hk : Kept db₁ db₂) :
    logContractOperation in_ db₂ = .ok ((), db₂) := by
  obtain ⟨hnul, hr⟩ := logContractOperation_eq_ok.mp h
  obtain ⟨-, rfl⟩ := Prod.mk.inj hr
  refine logContractOperation_eq_ok.mpr ⟨hnul, ?_⟩
  unfold Db.recordOperation at hk ⊢
  dsimp only at hk ⊢
  by_cases halert : in_.alert = false
  · rw [if_pos halert] at hk ⊢
    rw [auditOnce_of_mem (hk.hasAudit (hasAudit_auditOnce ..))]
  · rw [if_neg halert] at hk ⊢
    rw [auditOnce_of_mem ((kept_alert.trans hk).hasAudit (hasAudit_auditOnce ..)),
      alert_of_mem (hk.contractAlerts _ (by simp))]

/-- What a governance event leaves in the tables keyed by its log. -/
theorem recordGovernance_leaves (in_ : MerchantGovernanceInput) :
    (db.recordGovernance in_).hasAudit in_.log.auditId = true ∧
      (in_.alert = true → (db.recordGovernance in_).contractAlerts in_.log.auditId = true) := by
  unfold Db.recordGovernance
  dsimp only
  have haudit := fun rid e => @hasAudit_auditOnce db in_.log.auditId rid e
  split
  · rename_i hquiet
    exact ⟨haudit _ _, fun h => by rw [hquiet] at h; cases h⟩
  · split
    · exact ⟨kept_alert.hasAudit (haudit _ _), fun _ => by simp⟩
    · exact ⟨(kept_alert.trans kept_alertMerchantOnce).hasAudit (haudit _ _),
        fun _ => kept_alertMerchantOnce.contractAlerts _ (by simp)⟩

theorem recordGovernance_again {in_ : MerchantGovernanceInput}
    (haudit : db.hasAudit in_.log.auditId = true)
    (halert : in_.alert = true → db.contractAlerts in_.log.auditId = true) :
    ∃ alerts, db.recordGovernance in_ = { db with merchantSecurityAlerts := alerts } ∧
      (in_.alert = false → alerts = db.merchantSecurityAlerts) := by
  unfold Db.recordGovernance
  dsimp only
  rw [auditOnce_of_mem haudit]
  by_cases hquiet : in_.alert = false
  · rw [if_pos hquiet]
    exact ⟨_, rfl, fun _ => rfl⟩
  · rw [if_neg hquiet, alert_of_mem (halert (by simpa using hquiet))]
    split
    · exact ⟨_, rfl, fun _ => rfl⟩
    · unfold Db.alertMerchantOnce
      split
      · exact ⟨_, rfl, fun _ => rfl⟩
      · exact ⟨_, rfl, fun h => absurd h hquiet⟩

theorem again_logMerchantGovernance {in_ : MerchantGovernanceInput}
    (h : logMerchantGovernance in_ db = .ok ((), db₁)) (hk : Kept db₁ db₂) :
    ∃ alerts, logMerchantGovernance in_ db₂ =
        .ok ((), { db₂ with merchantSecurityAlerts := alerts }) ∧
      (in_.alert = false → alerts = db₂.merchantSecurityAlerts) := by
  have hkept := (kept_logMerchantGovernance h).trans hk
  obtain ⟨hid, hlong, hnul, hr⟩ := logMerchantGovernance_eq_ok.mp h
  obtain ⟨-, rfl⟩ := Prod.mk.inj hr
  obtain ⟨haudit, halert⟩ := @recordGovernance_leaves db in_
  obtain ⟨alerts, hagain, hquiet⟩ := recordGovernance_again (hk.hasAudit haudit)
    fun h => hk.contractAlerts _ (halert h)
  refine ⟨alerts, logMerchantGovernance_eq_ok.mpr ⟨hid, ?_, hnul, hagain ▸ rfl⟩, hquiet⟩
  -- a merchant found later only shortens the target
  cases hm : in_.merchant? db₂ with
  | some m => rfl
  | none =>
      cases hm₀ : in_.merchant? db with
      | none => rwa [hm₀] at hlong
      | some m₀ =>
          obtain ⟨m', hm', -⟩ := hkept.merchants.linked _ _ hm₀
          exact absurd (hm.symm.trans hm') (Option.some_ne_none m').symm

/-! ## One log again -/

/-- The tables a projection can write over again. -/
inductive Rewritable where
  | merchants
  | subscriptions
  | agentJobs
  | auditLogs
  | merchantSecurityAlerts
deriving Repr, DecidableEq

/-- What a replay of the event can still rewrite. -/
def Payload.rewrites : Payload → List Rewritable
  | .merchantRegistered .. | .merchantPayoutAddressUpdated .. | .merchantActiveSet ..
  | .merchantMaxFeeBpsLowered .. => [.merchants]
  | .merchantFeeBpsUpdated .. => [.merchants, .auditLogs]
  | .merchantOwnershipTransferInitiated .. | .merchantPayoutChangeInitiated .. =>
      [.merchantSecurityAlerts]
  | .subscriptionCharged .. => [.subscriptions]
  | .subscriptionPeriodsSkipped .. => [.subscriptions, .auditLogs]
  | .jobCreated .. | .jobRefunded .. | .feeAccrued .. => [.auditLogs]
  | .jobFunded .. | .jobStarted .. | .jobDelivered .. | .jobApproved .. | .jobReleased ..
  | .jobDisputed .. | .jobCancelled .. | .jobResolved .. | .jobReclaimed .. =>
      [.agentJobs, .auditLogs]
  | _ => []

def Log.rewrites (lg : Log) : List Rewritable :=
  match lg.decoded with
  | .event payload => payload.rewrites
  | .malformed | .notSubscribed => []

/-- Nothing differs outside the given tables. -/
structure SameBut (ts : List Rewritable) (db db' : Db) : Prop where
  rest : ∃ merchants subscriptions agentJobs auditLogs merchantSecurityAlerts,
    db' = { db with merchants := merchants, subscriptions := subscriptions,
                    agentJobs := agentJobs, auditLogs := auditLogs,
                    merchantSecurityAlerts := merchantSecurityAlerts }
  merchants : Rewritable.merchants ∉ ts → db'.merchants = db.merchants
  subscriptions : Rewritable.subscriptions ∉ ts → db'.subscriptions = db.subscriptions
  agentJobs : Rewritable.agentJobs ∉ ts → db'.agentJobs = db.agentJobs
  auditLogs : Rewritable.auditLogs ∉ ts → db'.auditLogs = db.auditLogs
  merchantSecurityAlerts :
    Rewritable.merchantSecurityAlerts ∉ ts → db'.merchantSecurityAlerts = db.merchantSecurityAlerts

namespace SameBut

variable {db' db'' : Db} {ts ts' : List Rewritable}

theorem refl (ts : List Rewritable) (db : Db) : SameBut ts db db :=
  ⟨⟨_, _, _, _, _, rfl⟩, fun _ => rfl, fun _ => rfl, fun _ => rfl, fun _ => rfl, fun _ => rfl⟩

theorem trans (h : SameBut ts db db') (h' : SameBut ts' db' db'') :
    SameBut (ts ++ ts') db db'' := by
  obtain ⟨⟨_, _, _, _, _, rfl⟩, h₁, h₂, h₃, h₄, h₅⟩ := h
  obtain ⟨⟨_, _, _, _, _, rfl⟩, h₁', h₂', h₃', h₄', h₅'⟩ := h'
  refine ⟨⟨_, _, _, _, _, rfl⟩, fun hn => ?_, fun hn => ?_, fun hn => ?_, fun hn => ?_, fun hn => ?_⟩
    <;> rw [List.mem_append, not_or] at hn
  · exact (h₁' hn.2).trans (h₁ hn.1)
  · exact (h₂' hn.2).trans (h₂ hn.1)
  · exact (h₃' hn.2).trans (h₃ hn.1)
  · exact (h₄' hn.2).trans (h₄ hn.1)
  · exact (h₅' hn.2).trans (h₅ hn.1)

theorem mapMerchants (f : MerchantRow → MerchantRow) :
    SameBut [.merchants] db (db.mapMerchants f) :=
  { refl [.merchants] db with
    rest := ⟨_, _, _, _, _, rfl⟩, merchants := fun h => absurd (List.mem_singleton_self _) h }

theorem putSubscription (id : Int) (row : SubscriptionRow) :
    SameBut [.subscriptions] db (db.putSubscription id row) :=
  { refl [.subscriptions] db with
    rest := ⟨_, _, _, _, _, rfl⟩, subscriptions := fun h => absurd (List.mem_singleton_self _) h }

theorem mapAgentJobs (f : AgentJobRow → AgentJobRow) :
    SameBut [.agentJobs] db (db.mapAgentJobs f) :=
  { refl [.agentJobs] db with
    rest := ⟨_, _, _, _, _, rfl⟩, agentJobs := fun h => absurd (List.mem_singleton_self _) h }

theorem audit (row : AuditLogRow) : SameBut [.auditLogs] db (db.audit row) :=
  { refl [.auditLogs] db with
    rest := ⟨_, _, _, _, _, rfl⟩, auditLogs := fun h => absurd (List.mem_singleton_self _) h }

theorem alerts (alerts : AuditId → Option RowId) :
    SameBut [.merchantSecurityAlerts] db { db with merchantSecurityAlerts := alerts } :=
  { refl [.merchantSecurityAlerts] db with
    rest := ⟨_, _, _, _, _, rfl⟩,
    merchantSecurityAlerts := fun h => absurd (List.mem_singleton_self _) h }

end SameBut

namespace Projector

variable {p : Projector} {lg : Log} {t : Int} {in_ : MerchantGovernanceInput}

theorem again_quietGovernance (hquiet : in_.alert = false)
    (h : logMerchantGovernance in_ db = .ok ((), db₁)) (hk : Kept db₁ db₂) :
    logMerchantGovernance in_ db₂ = .ok ((), db₂) := by
  obtain ⟨alerts, hagain, hsame⟩ := again_logMerchantGovernance h hk
  rw [hagain, hsame hquiet]

theorem again_applyJob {in_ : AgentJobStatusInput} {action : String} {metadata : Metadata}
    (h : applyJob in_ action metadata db = .ok ((), db₁)) (hk : Kept db₁ db₂) :
    ∃ db₃, applyJob in_ action metadata db₂ = .ok ((), db₃) ∧
      SameBut [.agentJobs, .auditLogs] db₂ db₃ := by
  obtain ⟨n, dbm, hset, hlog⟩ := bind_eq_ok.mp h
  obtain ⟨n', f, hset'⟩ := @again_setAgentJobStatus _ _ db₂ _ _ hset
  obtain ⟨row, hlog'⟩ := again_logAgentJobEvent hlog
    (((kept_logAgentJobEvent hlog).trans hk).trans (kept_setAgentJobStatus hset'))
  exact ⟨_, bind_eq_ok.mpr ⟨n', _, hset', hlog'⟩, (SameBut.mapAgentJobs f).trans (.audit row)⟩

/-- A projected event goes through again, and rewrites what `rewrites` says at most. -/
theorem project_again {payload : Payload} (h : p.project lg t payload db = .ok ((), db₁))
    (hk : Kept db₁ db₂) :
    ∃ db₃, p.project lg t payload db₂ = .ok ((), db₃) ∧ SameBut payload.rewrites db₂ db₃ := by
  cases payload with
  | merchantRegistered =>
      obtain ⟨n, h⟩ := drop_eq_ok.mp h
      obtain ⟨n', f, hagain⟩ := again_linkOnchainMerchant h hk
      exact ⟨_, drop_eq_ok.mpr ⟨n', hagain⟩, .mapMerchants f⟩
  | merchantPayoutAddressUpdated =>
      obtain ⟨n, h⟩ := drop_eq_ok.mp h
      obtain ⟨n', f, hagain⟩ := @again_updateMerchant _ _ db₂ _ _ _ h
      exact ⟨_, drop_eq_ok.mpr ⟨n', hagain⟩, .mapMerchants f⟩
  | merchantActiveSet =>
      obtain ⟨n, h⟩ := drop_eq_ok.mp h
      obtain ⟨n', f, hagain⟩ := @again_updateMerchant _ _ db₂ _ _ _ h
      exact ⟨_, drop_eq_ok.mpr ⟨n', hagain⟩, .mapMerchants f⟩
  | merchantFeeBpsUpdated =>
      obtain ⟨n, dbm, hset, hlog⟩ := bind_eq_ok.mp h
      obtain ⟨n', f, hset'⟩ := @again_setMerchantOnchainFeeBps _ _ db₂ _ _ _ _ _ hset
      obtain ⟨row, hlog'⟩ := @again_logMerchantFeeBpsChange _ _ (db₂.mapMerchants f) _ _ _ hlog
      exact ⟨_, bind_eq_ok.mpr ⟨n', _, hset', hlog'⟩, (SameBut.mapMerchants f).trans (.audit row)⟩
  | merchantMaxFeeBpsLowered =>
      obtain ⟨n, dbm, hset, hlog⟩ := bind_eq_ok.mp h
      obtain ⟨n', f, hset'⟩ := @again_setMerchantOnchainMaxFeeBps _ _ db₂ _ _ _ _ _ hset
      have hlog' := again_quietGovernance rfl hlog
        (hk.trans (kept_setMerchantOnchainMaxFeeBps hset'))
      exact ⟨_, bind_eq_ok.mpr ⟨n', _, hset', hlog'⟩, .mapMerchants f⟩
  | merchantOwnershipTransferInitiated | merchantPayoutChangeInitiated =>
      obtain ⟨alerts, hagain, -⟩ := again_logMerchantGovernance h hk
      exact ⟨_, hagain, .alerts alerts⟩
  | merchantOwnershipTransferAccepted | merchantOwnershipTransferCancelled
  | merchantPayoutChangeCancelled => exact ⟨_, again_quietGovernance rfl h hk, .refl _ _⟩
  | paymentExecuted =>
      obtain ⟨currency, hcurrency, h⟩ := Billing.tokenSymbol_bind_eq_ok.mp h
      obtain ⟨n, h⟩ := drop_eq_ok.mp h
      exact ⟨_, Billing.tokenSymbol_bind_eq_ok.mpr ⟨currency, hcurrency,
        drop_eq_ok.mpr ⟨0, again_insertOneShotTransaction h hk⟩⟩, .refl _ _⟩
  | subscriptionCreated =>
      obtain ⟨currency, hcurrency, h⟩ := Billing.tokenSymbol_bind_eq_ok.mp h
      obtain ⟨n, h⟩ := drop_eq_ok.mp h
      exact ⟨_, Billing.tokenSymbol_bind_eq_ok.mpr ⟨currency, hcurrency,
        drop_eq_ok.mpr ⟨0, again_upsertSubscriptionFromOnchain h hk⟩⟩, .refl _ _⟩
  | subscriptionCharged =>
      obtain ⟨n, h⟩ := drop_eq_ok.mp h
      obtain ⟨row, hagain⟩ := again_insertSubscriptionCharge h hk
      exact ⟨_, drop_eq_ok.mpr ⟨0, hagain⟩, .putSubscription _ row⟩
  | subscriptionPeriodsSkipped =>
      obtain ⟨n, h⟩ := drop_eq_ok.mp h
      obtain ⟨row, entry, hagain⟩ := again_recordSubscriptionPeriodsSkipped h hk
      exact ⟨_, drop_eq_ok.mpr ⟨1, hagain⟩, (SameBut.putSubscription _ row).trans (.audit entry)⟩
  | subscriptionChargeSkipped =>
      obtain ⟨n, h⟩ := drop_eq_ok.mp h
      exact ⟨_, drop_eq_ok.mpr ⟨0, again_insertSubscriptionChargeSkip h hk⟩, .refl _ _⟩
  | subscriptionCancelled =>
      obtain ⟨n, h⟩ := drop_eq_ok.mp h
      exact ⟨_, drop_eq_ok.mpr ⟨0, again_markSubscriptionCancelled h hk⟩, .refl _ _⟩
  | erc20Transfer =>
      obtain ⟨n, h⟩ := drop_eq_ok.mp h
      exact ⟨_, drop_eq_ok.mpr ⟨0, again_completeRefundByTxHash h hk⟩, .refl _ _⟩
  | jobCreated =>
      obtain ⟨n, dbm, hlink, hlog⟩ := bind_eq_ok.mp h
      obtain ⟨row, hlog'⟩ := again_logAgentJobEvent hlog ((kept_logAgentJobEvent hlog).trans hk)
      have hlink' := again_linkAgentJobOnchain hlink ((kept_logAgentJobEvent hlog).trans hk)
      exact ⟨_, bind_eq_ok.mpr ⟨0, _, hlink', hlog'⟩, .audit row⟩
  | jobRefunded =>
      obtain ⟨row, hagain⟩ := again_logAgentJobEvent h ((kept_logAgentJobEvent h).trans hk)
      exact ⟨_, hagain, .audit row⟩
  | jobFunded | jobStarted | jobDelivered | jobApproved | jobReleased | jobDisputed
  | jobCancelled | jobResolved | jobReclaimed => exact again_applyJob h hk
  | feeAccrued =>
      obtain ⟨row, hagain⟩ := again_logFeeAccrued h ((kept_logFeeAccrued h).trans hk)
      exact ⟨_, hagain, .audit row⟩
  | agentRegistered | agentCredentialRotated | agentReputationAdjusted | agentDeactivated
  | agentActivated => exact ⟨_, again_logAgentRegistryEvent h hk, .refl _ _⟩
  | _ => exact ⟨_, Indexer.again_logContractOperation h hk, .refl _ _⟩

theorem apply_again (h : p.apply lg t db = .ok ((), db₁)) (hk : Kept db₁ db₂) :
    ∃ db₃, p.apply lg t db₂ = .ok ((), db₃) ∧ SameBut lg.rewrites db₂ db₃ := by
  unfold apply Log.rewrites at *
  cases hd : lg.decoded with
  | malformed =>
      rw [hd] at h
      cases throw_eq_ok.mp h
  | notSubscribed => exact ⟨db₂, rfl, .refl _ _⟩
  | event payload =>
      rw [hd] at h
      exact project_again h hk

end Projector

end Strimz.Indexer
