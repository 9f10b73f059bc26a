import Strimz.ProjectionFaults
import Strimz.Stream

/-!
# Which logs stall the stream

A log stalls its batch if it neither projects nor parks, and every later attempt at the
batch meets it again. `Storable` is the exact condition on a log and the database under
which it does not: every id fits its column, every date PostgreSQL can hold, every string
is free of U+0000, and no unique index but the one the statement names is hit.
-/

namespace Strimz.Indexer

open Tx

variable {db : Db}

/-- No U+0000 in the bytes of a string. -/
def NulFreeText (b : Bytes) : Prop := (0 : UInt8) ∉ b

instance (b : Bytes) : Decidable (NulFreeText b) := inferInstanceAs (Decidable (¬ _))

namespace Projector

/-- A governance event of a merchant no row is linked to is filed under the id itself. -/
def StorableMerchant (db : Db) (merchantId : Nat) : Prop :=
  Int4 merchantId ∧
    (db.merchantByOnchain (int64 merchantId) = none → (TargetId.onchain merchantId).tooLong = false)

/-- What the log of an event asks of the database it is projected into. -/
def Storable (p : Projector) (lg : Log) (t : Int) (db : Db) : Payload → Prop
  | .merchantRegistered merchantId _ _ _ _ =>
      Int4 merchantId ∧ (db.merchants.countP fun m => m.linksTo (int64 merchantId) lg.txHash) ≤ 1
  | .merchantPayoutAddressUpdated merchantId _ | .merchantActiveSet merchantId _
  | .feeAccrued _ merchantId _ => Int4 merchantId
  | .merchantFeeBpsUpdated merchantId _ =>
      Int4 merchantId ∧ (TargetId.onchain merchantId).tooLong = false
  | .merchantOwnershipTransferInitiated merchantId _ _
  | .merchantOwnershipTransferAccepted merchantId _ _
  | .merchantOwnershipTransferCancelled merchantId | .merchantPayoutChangeInitiated merchantId _ _
  | .merchantPayoutChangeCancelled merchantId | .merchantMaxFeeBpsLowered merchantId _ =>
      StorableMerchant db merchantId
  | .paymentExecuted merchantId _ token _ _ _ _ => (p.tokens token).isSome → Int4 merchantId
  | .subscriptionCreated subscriptionId merchantId _ token _ intervalSecs startAt =>
      (p.tokens token).isSome → t ≠ ZERO_TIME ∧ Int4 merchantId ∧
        ((db.merchantByOnchain (int64 merchantId)).isSome → Int4 subscriptionId ∧
          IsDate (unix startAt) ∧
          (unix startAt ≤ t → IsDate (unix startAt + intervalSecs.toNat)) ∧
          (db.subscriptions (int64 subscriptionId) = none → db.enrolments lg.txHash = none))
  | .subscriptionCharged subscriptionId chargeAttemptId _ _ _ nextChargeAt =>
      Int4 subscriptionId ∧ ∀ sub, db.subscriptions (int64 subscriptionId) = some sub →
        ∀ merchant, db.merchantById sub.merchantId = some merchant →
          merchant.payoutAddress ≠ none ∧ IsDate (unix nextChargeAt) ∧
            (db.transactions lg.key = none → db.chargePayments chargeAttemptId = none)
  | .subscriptionPeriodsSkipped subscriptionId _ paidPeriodStart =>
      Int4 subscriptionId ∧ IsDate (unix paidPeriodStart)
  | .subscriptionChargeSkipped subscriptionId chargeAttemptId outcome =>
      Int4 subscriptionId ∧ ∀ sub, db.subscriptions (int64 subscriptionId) = some sub →
        ∀ row, SubscriptionChargeSkippedInput.fresh? ⟨subscriptionId, chargeAttemptId,
            dbString outcome, isPaymentFailure outcome, t⟩ db sub = some row →
          row.attemptNumber ≤ MAX_INT4 ∧ (isPaymentFailure outcome = true → sub.Flaggable t)
  | .subscriptionCancelled subscriptionId _ => Int4 subscriptionId
  | .jobCreated jobId _ vendor _ _ => Int4 jobId ∧ db.LinksJob (int64 jobId) vendor lg.txHash
  | .jobFunded jobId _ | .jobStarted jobId | .jobDelivered jobId _ | .jobApproved jobId _
  | .jobReleased jobId _ _ | .jobRefunded jobId _ _ | .jobResolved jobId _ _ _
  | .jobReclaimed jobId _ _ _ => Int4 jobId
  | .jobDisputed jobId _ reason | .jobCancelled jobId reason =>
      Int4 jobId ∧ ((db.jobByOnchain (int64 jobId)).isSome → NulFreeText reason)
  | .agentRegistered _ _ _ name version => NulFreeText name ∧ NulFreeText version
  | .dependencyUpdated name _ => NulFreeText name
  | _ => True

variable {p : Projector} {lg : Log} {t : Int}

theorem merchantByOnchain_setMerchants {id id' : Int} {set : MerchantRow → MerchantRow}
    (hset : ∀ m, (set m).onchainMerchantId = m.onchainMerchantId) :
    (db.setMerchants id set).merchantByOnchain id' = none ↔ db.merchantByOnchain id' = none := by
  simp only [Db.merchantByOnchain, Db.setMerchants, Db.mapMerchants_merchants,
    List.find?_eq_none, List.mem_map, forall_exists_index, and_imp, forall_apply_eq_imp_iff₂,
    decide_eq_true_eq]
  refine forall₂_congr fun m _ => not_congr ?_
  split
  · rw [hset]
  · rfl

/-- The dates of an enrolment: a trial ends where its first period starts. -/
theorem dated_created {in_ : SubscriptionCreatedInput} {merchantId : RowId}
    (hdate : IsDate in_.blockTimestamp) (hnext : in_.nextChargeAt = in_.startAt) :
    (createdSubscription in_ merchantId).Dated ↔
      IsDate in_.startAt ∧ (in_.startAt ≤ in_.blockTimestamp → IsDate in_.currentPeriodEndAt) := by
  unfold SubscriptionRow.Dated createdSubscription SubscriptionCreatedInput.trial
  rw [hnext]
  by_cases h : in_.blockTimestamp < in_.startAt
  · simp [h, hdate]
  · simp [h, not_lt.mp h]
    tauto

theorem nulFree_role {role : Bytes32} {account sender : Address} :
    NulFree [("role", .hash role), ("roleName", p.roleName role), ("account", .address account),
      ("sender", .address sender)] := by
  simp only [nulFree_cons, roleName_hasNul]
  exact ⟨rfl, trivial, rfl, rfl, nulFree_nil⟩

theorem nulFree_roleAdmin {role previous next : Bytes32} :
    NulFree [("role", .hash role), ("roleName", p.roleName role),
      ("previousAdminRole", .hash previous), ("previousAdminRoleName", p.roleName previous),
      ("newAdminRole", .hash next), ("newAdminRoleName", p.roleName next)] := by
  simp only [nulFree_cons, roleName_hasNul]
  exact ⟨rfl, trivial, rfl, trivial, rfl, trivial, nulFree_nil⟩

theorem safe_project (hdate : IsDate t) {payload : Payload} :
    Safe (p.project lg t payload) db ↔ p.Storable lg t db payload := by
  cases payload with
  | subscriptionCreated subscriptionId merchantId payer token amount intervalSecs startAt =>
      simp only [project, Storable, safe_tokenSymbol_bind, safe_drop,
        safe_upsertSubscriptionFromOnchain]
      cases p.tokens token with
      | none => simp
      | some currency =>
          cases db.merchantByOnchain (int64 merchantId) with
          | none => simp
          | some merchant =>
              simp only [ne_eq, Option.some.injEq, forall_eq', Option.isSome_some, forall_const]
              refine and_congr_right fun _ => and_congr_right fun _ => and_congr_right fun _ => ?_
              rw [dated_created hdate rfl, and_assoc]
  | merchantMaxFeeBpsLowered merchantId newMaxFeeBps =>
      rw [project, safe_bind_of safe_setMerchantOnchainMaxFeeBps fun _ =>
        setMerchantOnchainMaxFeeBps_eq_ok, logGovernance, safe_governance,
        merchantByOnchain_setMerchants]
      · simp [Storable, StorableMerchant, hdate, nulFree_cons, nulFree_nil, Json.hasNul]
      · exact fun _ => rfl
  | merchantFeeBpsUpdated merchantId newFeeBps =>
      rw [project, safe_bind_of safe_setMerchantOnchainFeeBps fun _ =>
        setMerchantOnchainFeeBps_eq_ok, safe_logMerchantFeeBpsChange]
      simp [Storable, hdate]
  | paymentExecuted merchantId payer token amount feeAmount netAmount ref =>
      simp only [project, Storable, safe_tokenSymbol_bind, safe_drop]
      cases p.tokens token with
      | none => simp
      | some currency => simp [safe_insertOneShotTransaction, hdate]
  | jobCreated jobId client vendor token amount =>
      rw [project, safe_bind_of safe_linkAgentJobOnchain fun _ => by
        rw [linkAgentJobOnchain_eq_ok, and_assoc], safe_logAgentJobEvent]
      simp +contextual [Storable, nulFree_cons, nulFree_nil, Json.hasNul]
  | roleGranted role account sender | roleRevoked role account sender =>
      simp [project, Storable, applyRole, logAdminEvent, safe_operation, nulFree_role]
  | roleAdminChanged role previous next =>
      simp [project, Storable, logAdminEvent, safe_operation, nulFree_roleAdmin]
  | _ =>
      simp [-bind_pure_comp, project, Storable, StorableMerchant, safe_drop,
        safe_linkOnchainMerchant, hdate, updateMerchantPayoutAddress, setMerchantActive,
        safe_updateMerchant, alertGovernance, logGovernance, safe_governance, nulFree_cons,
        nulFree_nil, Json.hasNul, safe_insertSubscriptionCharge, SubscriptionChargedInput.key,
        Log.key, safe_recordSubscriptionPeriodsSkipped, safe_insertSubscriptionChargeSkip,
        safe_markSubscriptionCancelled, safe_completeRefundByTxHash, safe_applyJob,
        safe_logAgentJobEvent, safe_logFeeAccrued, logAdminEvent, logContractOperation,
        safe_operation, safe_agentRegistry, NulFreeText]

/-- A log that does not decode to an event asks nothing. -/
def StorableLog (p : Projector) (lg : Log) (t : Int) (db : Db) : Prop :=
  ∀ payload, lg.decoded = .event payload → p.Storable lg t db payload

theorem safe_apply (hdate : IsDate t) : Safe (p.apply lg t) db ↔ p.StorableLog lg t db := by
  unfold apply StorableLog
  cases lg.decoded with
  | event payload => simp [safe_project hdate]
  | notSubscribed => simp [avoids_pure]
  | malformed => simp [safe_unresolvable]

/-- What does not fault is projected or parked. -/
theorem applyOrPark_ok_iff_safe (hdate : IsDate t) :
    (∃ db', p.applyOrPark lg t db = .ok ((), db')) ↔ Safe (p.apply lg t) db := by
  simp only [applyOrPark_eq_ok, Safe, Avoids]
  cases p.apply lg t db with
  | ok r => exact iff_of_true ⟨r.2, Or.inl rfl⟩ (by simp)
  | error e =>
      cases e with
      | fault f => simp [ApplyError.IsFault]
      | unresolvable reason => simp [ApplyError.IsFault, hdate]

/-- Every log of a batch is storable in the state that the ones before it leave. -/
def AllStorable (p : Projector) : List (Log × Int) → Db → Prop
  | [], _ => True
  | l :: logs, db => p.StorableLog l.1 l.2 db ∧ p.AllStorable logs (commit (p.applyOrPark l.1 l.2) db)

theorem applyLogs_ok_iff {logs : List (Log × Int)} (hdates : ∀ l ∈ logs, IsDate l.2) :
    (∃ db', p.applyLogs logs db = .ok ((), db')) ↔ p.AllStorable logs db := by
  induction logs generalizing db with
  | nil => exact iff_of_true ⟨db, rfl⟩ trivial
  | cons l logs ih =>
      have hl : IsDate l.2 := hdates l List.mem_cons_self
      have hrest : ∀ l ∈ logs, IsDate l.2 := fun l h => hdates l (List.mem_cons_of_mem _ h)
      rw [AllStorable, ← safe_apply hl, ← applyOrPark_ok_iff_safe hl, ← ih hrest]
      simp only [applyLogs, bind_eq_ok]
      constructor
      · rintro ⟨db', ⟨⟩, db₁, hfirst, hlogs⟩
        rw [commit_of_ok hfirst]
        exact ⟨⟨db₁, hfirst⟩, db', hlogs⟩
      · rintro ⟨⟨db₁, hfirst⟩, db', hlogs⟩
        rw [commit_of_ok hfirst] at hlogs
        exact ⟨db', (), db₁, hfirst, hlogs⟩

theorem batchTx_eq_ok {key : CursorKey} {logs : List (Log × Int)} {cp : Checkpoint} {db' : Db} :
    batchTx p key logs cp db = .ok ((), db') ↔
      ∃ db₁, p.applyLogs logs db = .ok ((), db₁) ∧ db' = db₁.putCheckpoint key cp := by
  simp only [batchTx, saveCheckpoint, bind_eq_ok, modify_eq_ok, Prod.mk.injEq, true_and]
  exact ⟨fun ⟨_, db₁, h⟩ => ⟨db₁, h⟩, fun ⟨db₁, h⟩ => ⟨(), db₁, h⟩⟩

/-- A log is projected or parked iff it is storable, and a batch commits and moves its cursor
iff each of its logs is when its turn comes. -/
theorem projected_or_parked_iff_storable (p : Projector) :
    (∀ lg t db, IsDate t →
      ((∃ db', p.applyOrPark lg t db = .ok ((), db')) ↔ p.StorableLog lg t db)) ∧
    ∀ key logs cp db, (∀ l ∈ logs, IsDate l.2) →
      ((∃ db', batchTx p key logs cp db = .ok ((), db') ∧ db'.checkpoint key = cp) ↔
        p.AllStorable logs db) := by
  refine ⟨fun lg t db hdate => (applyOrPark_ok_iff_safe hdate).trans (safe_apply hdate),
    fun key logs cp db hdates => ?_⟩
  rw [← applyLogs_ok_iff hdates]
  constructor
  · rintro ⟨db', hok, -⟩
    obtain ⟨db₁, hlogs, -⟩ := batchTx_eq_ok.mp hok
    exact ⟨db₁, hlogs⟩
  · rintro ⟨db₁, hlogs⟩
    refine ⟨_, batchTx_eq_ok.mpr ⟨db₁, hlogs, rfl⟩, ?_⟩
    simp [Db.checkpoint]

/-! ## A name with U+0000 -/

/-- Anyone may register themselves, under any name. -/
def nulRegistration : Log where
  address := 9
  blockNumber := 12
  txHash := 0xaa
  index := 0
  decoded := .event (.agentRegistered 7 7 0x01 [0x62, 0x6f, 0x74, 0x00] [0x31])

def deployedProjector : Projector :=
  ⟨.live, fun token => if token = 5 then some .usdc else none, 5042, fun _ => none, fun _ => none⟩

/-- The registration is neither projected nor parked, whatever the database holds, and so no
batch with it commits. -/
theorem nulRegistration_stalls :
    (¬ ∀ lg t db, IsDate t → ∃ db', deployedProjector.applyOrPark lg t db = .ok ((), db')) ∧
      ∀ db db', batchTx deployedProjector .strimzCore [(nulRegistration, 1700000000)]
        ⟨12, some 0xbb⟩ db ≠ .ok ((), db') := by
  have hstalls : ∀ db, ¬ deployedProjector.StorableLog nulRegistration 1700000000 db :=
    fun db h => absurd (h _ rfl) (by simp [Storable, NulFreeText])
  constructor
  · intro hclaim
    have hdate : IsDate 1700000000 := by decide
    exact hstalls Db.empty ((safe_apply hdate).mp
      ((applyOrPark_ok_iff_safe hdate).mp (hclaim _ _ _ hdate)))
  · intro db db' hok
    obtain ⟨db₁, hlogs, -⟩ := batchTx_eq_ok.mp hok
    exact hstalls db ((applyLogs_ok_iff (by simp; decide)).mp ⟨db₁, hlogs⟩).1

theorem projected_or_parked_iff_storable_nulRegistration :
    (¬ ∃ db', deployedProjector.applyOrPark nulRegistration 1700000000 Db.empty = .ok ((), db')) ∧
      ∃ db', batchTx deployedProjector .strimzCore [] ⟨12, some 0xbb⟩ Db.empty = .ok ((), db') ∧
        db'.checkpoint .strimzCore = ⟨12, some 0xbb⟩ := by
  have hiff := projected_or_parked_iff_storable deployedProjector
  refine ⟨fun h => ?_, (hiff.2 .strimzCore [] ⟨12, some 0xbb⟩ Db.empty (by simp)).mpr trivial⟩
  have hstorable := (hiff.1 nulRegistration 1700000000 Db.empty (by decide)).mp h
  exact absurd (hstorable _ rfl) (by simp [Storable, NulFreeText])

end Projector

end Strimz.Indexer
