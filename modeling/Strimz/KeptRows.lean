import Strimz.BillingRows

/-!
# What the indexer never takes back

A projection removes no row, and some columns only move one way: a charge that did not fail
does not fail later, an ended subscription stays ended, a merchant keeps its on-chain id.
`Kept db db'` collects these facts, one field a table; it is a preorder that every
projection respects (`apply_kept`).
-/

namespace Strimz.Indexer

open Tx

/-! ## Tables by key -/

/-- The rows of a table stay, and each moves along `R`. -/
def Onward {κ ρ : Type} (R : ρ → ρ → Prop) (t t' : κ → Option ρ) : Prop :=
  ∀ k r, t k = some r → ∃ r', t' k = some r' ∧ R r r'

namespace Onward

variable {κ ρ : Type} {R : ρ → ρ → Prop} {t t' t'' : κ → Option ρ}

theorem refl (h : ∀ r, R r r) : Onward R t t := fun _ r hr => ⟨r, hr, h r⟩

theorem trans (h : ∀ a b c, R a b → R b c → R a c) (h₁ : Onward R t t') (h₂ : Onward R t' t'') :
    Onward R t t'' := by
  intro k r hr
  obtain ⟨r', hr', hR⟩ := h₁ k r hr
  obtain ⟨r'', hr'', hR'⟩ := h₂ k r' hr'
  exact ⟨r'', hr'', h _ _ _ hR hR'⟩

/-- Writing one row, along `R` where there was one. -/
theorem update [DecidableEq κ] {k : κ} {r : ρ} (h : ∀ r, R r r) (hrow : ∀ r₀, t k = some r₀ → R r₀ r) :
    Onward R t (Function.update t k (some r)) := by
  intro k' r₀ h₀
  by_cases hk : k' = k
  · subst hk
    exact ⟨r, Function.update_self .., hrow r₀ h₀⟩
  · exact ⟨r₀, by rw [Function.update_of_ne hk, h₀], h r₀⟩

theorem present (h : Onward R t t') {k : κ} (hk : t k ≠ none) : t' k ≠ none := by
  obtain ⟨r, hr⟩ := Option.ne_none_iff_exists'.mp hk
  obtain ⟨r', hr', -⟩ := h k r hr
  simp [hr']

end Onward

/-! ## The rows -/

def SubscriptionStatus.ended : SubscriptionStatus → Bool
  | .cancelled | .lapsed => true
  | .trialing | .active | .at_risk | .paused => false

theorem SubscriptionStatus.ended_iff {s : SubscriptionStatus} :
    s.ended = true ↔ s = .cancelled ∨ s = .lapsed := by
  cases s <;> simp [SubscriptionStatus.ended]

/-- A subscription keeps its merchant, and its end. -/
structure SubscriptionRow.Later (sub sub' : SubscriptionRow) : Prop where
  merchant : sub'.merchantId = sub.merchantId
  ended : sub.status.ended = true → sub'.status.ended = true

/-- A charge that did not fail never will, and no attempt becomes a repeat of an old block. -/
structure SubscriptionChargeRow.Later (row row' : SubscriptionChargeRow) : Prop where
  settled : row.status ≠ .failed → row'.status ≠ .failed
  seen : ∀ t, row.repeatsAt t = false → row'.repeatsAt t = false

/-- What lookups among the merchants keep finding. -/
structure KeptMerchants (ms ms' : List MerchantRow) : Prop where
  linked : ∀ id m, (ms.find? fun m => m.onchainMerchantId = some id) = some m →
    ∃ m', (ms'.find? fun m => m.onchainMerchantId = some id) = some m' ∧ m'.id = m.id
  paid : ∀ rid m, (ms.find? fun m => m.id = rid) = some m →
    ∃ m', (ms'.find? fun m => m.id = rid) = some m' ∧
      (m.payoutAddress ≠ none → m'.payoutAddress ≠ none)
  registered : ∀ txHash, (∀ m ∈ ms, m.onchainRegistrationTxHash = some txHash →
    m.onchainMerchantId ≠ none) → ∀ m ∈ ms', m.onchainRegistrationTxHash = some txHash →
      m.onchainMerchantId ≠ none
  unique : ∀ id, (ms.countP fun m => m.onchainMerchantId = some id) ≤ 1 →
    (ms'.countP fun m => m.onchainMerchantId = some id) ≤ 1

/-- A linked job stays linked, and a job once missed by a link stays missed. -/
structure KeptJobs (js js' : List AgentJobRow) : Prop where
  linked : ∀ id, (∃ j ∈ js, j.onchainJobId = some id) → ∃ j ∈ js', j.onchainJobId = some id
  missed : ∀ txHash vendor, (∀ j ∈ js, j.linksTo txHash vendor = false) →
    ∀ j ∈ js', j.linksTo txHash vendor = false

/-- No refund goes back to being submitted. -/
def KeptRefunds (rs rs' : List RefundRow) : Prop :=
  ∀ txHash, (∀ r ∈ rs, r.completes txHash = false) → ∀ r ∈ rs', r.completes txHash = false

structure Kept (db db' : Db) : Prop where
  merchants : KeptMerchants db.merchants db'.merchants
  plans : ∀ key, db.plans key = true → db'.plans key = true
  customers : ∀ rid wallet, db.customers rid wallet = true → db'.customers rid wallet = true
  subscriptions : Onward SubscriptionRow.Later db.subscriptions db'.subscriptions
  charges : Onward SubscriptionChargeRow.Later db.charges db'.charges
  transactions : Onward (· = ·) db.transactions db'.transactions
  agentJobs : KeptJobs db.agentJobs db'.agentJobs
  refunds : KeptRefunds db.refunds db'.refunds
  auditLogs : db.auditLogs <+: db'.auditLogs
  contractAlerts : ∀ id, db.contractAlerts id = true → db'.contractAlerts id = true
  merchantSecurityAlerts : Onward (· = ·) db.merchantSecurityAlerts db'.merchantSecurityAlerts

/-! ## A preorder -/

theorem SubscriptionRow.Later.refl (sub : SubscriptionRow) : sub.Later sub := ⟨rfl, id⟩

theorem SubscriptionChargeRow.Later.refl (row : SubscriptionChargeRow) : row.Later row :=
  ⟨id, fun _ => id⟩

theorem KeptMerchants.refl (ms : List MerchantRow) : KeptMerchants ms ms :=
  ⟨fun _ m h => ⟨m, h, rfl⟩, fun _ m h => ⟨m, h, id⟩, fun _ => id, fun _ => id⟩

theorem KeptMerchants.trans {ms ms' ms'' : List MerchantRow} (h₁ : KeptMerchants ms ms')
    (h₂ : KeptMerchants ms' ms'') : KeptMerchants ms ms'' where
  linked id m hm := by
    obtain ⟨m', hm', heq⟩ := h₁.linked id m hm
    obtain ⟨m'', hm'', heq'⟩ := h₂.linked id m' hm'
    exact ⟨m'', hm'', heq'.trans heq⟩
  paid rid m hm := by
    obtain ⟨m', hm', hpaid⟩ := h₁.paid rid m hm
    obtain ⟨m'', hm'', hpaid'⟩ := h₂.paid rid m' hm'
    exact ⟨m'', hm'', hpaid' ∘ hpaid⟩
  registered txHash h := h₂.registered txHash (h₁.registered txHash h)
  unique id h := h₂.unique id (h₁.unique id h)

theorem Kept.refl (db : Db) : Kept db db where
  merchants := .refl _
  plans _ := id
  customers _ _ := id
  subscriptions := .refl .refl
  charges := .refl .refl
  transactions := .refl fun _ => rfl
  agentJobs := ⟨fun _ => id, fun _ _ => id⟩
  refunds _ := id
  auditLogs := List.prefix_refl _
  contractAlerts _ := id
  merchantSecurityAlerts := .refl fun _ => rfl

theorem Kept.trans {db db' db'' : Db} (h₁ : Kept db db') (h₂ : Kept db' db'') : Kept db db'' where
  merchants := h₁.merchants.trans h₂.merchants
  plans key h := h₂.plans key (h₁.plans key h)
  customers rid wallet h := h₂.customers rid wallet (h₁.customers rid wallet h)
  subscriptions := h₁.subscriptions.trans (fun _ _ _ h h' =>
    ⟨h'.merchant.trans h.merchant, h'.ended ∘ h.ended⟩) h₂.subscriptions
  charges := h₁.charges.trans (fun _ _ _ h h' =>
    ⟨h'.settled ∘ h.settled, fun t => h'.seen t ∘ h.seen t⟩) h₂.charges
  transactions := h₁.transactions.trans (fun _ _ _ h h' => h.trans h') h₂.transactions
  agentJobs :=
    ⟨fun id h => h₂.agentJobs.linked id (h₁.agentJobs.linked id h),
      fun txHash vendor h => h₂.agentJobs.missed txHash vendor (h₁.agentJobs.missed txHash vendor h)⟩
  refunds txHash h := h₂.refunds txHash (h₁.refunds txHash h)
  auditLogs := h₁.auditLogs.trans h₂.auditLogs
  contractAlerts id h := h₂.contractAlerts id (h₁.contractAlerts id h)
  merchantSecurityAlerts :=
    h₁.merchantSecurityAlerts.trans (fun _ _ _ h h' => h.trans h') h₂.merchantSecurityAlerts

/-! ## The writes -/

section Writes

variable {db : Db}

theorem kept_putPlan {key : PlanKey} : Kept db (db.putPlan key) :=
  { Kept.refl db with
    plans := fun k h => by
      by_cases hk : k = key
      · subst hk
        exact Function.update_self ..
      · exact (Function.update_of_ne hk ..).trans h }

theorem kept_putCustomer {rid : RowId} {wallet : Address} : Kept db (db.putCustomer rid wallet) :=
  { Kept.refl db with
    customers := fun r w h => by
      by_cases hr : r = rid
      · subst hr
        rw [Db.putCustomer_customers, Function.update_self]
        by_cases hw : w = wallet
        · subst hw
          exact Function.update_self ..
        · exact (Function.update_of_ne hw ..).trans h
      · rw [Db.putCustomer_customers, Function.update_of_ne hr, h] }

theorem kept_putSubscription {id : Int} {row : SubscriptionRow}
    (h : ∀ sub, db.subscriptions id = some sub → sub.Later row) :
    Kept db (db.putSubscription id row) :=
  { Kept.refl db with subscriptions := .update .refl h }

theorem kept_putCharge {id : Bytes32} {row : SubscriptionChargeRow}
    (h : ∀ r, db.charges id = some r → r.Later row) : Kept db (db.putCharge id row) :=
  { Kept.refl db with charges := .update .refl h }

theorem kept_insertTransaction {key : TxKey} {row : TransactionRow}
    (h : db.transactions key = none) : Kept db (db.insertTransaction key row) := by
  rw [insertTransaction_frame]
  exact { Kept.refl db with
    transactions := .update (fun _ => rfl) fun r hr => by rw [h] at hr; cases hr }

theorem kept_emit {e : WebhookEvent} : Kept db (db.emit e) := { Kept.refl db with }

theorem kept_putSession {id : RowId} {row : PaymentSessionRow} : Kept db (db.putSession id row) :=
  { Kept.refl db with }

theorem kept_putInvoice {id : RowId} {row : InvoiceRow} : Kept db (db.putInvoice id row) :=
  { Kept.refl db with }

theorem kept_putEnrolment {txHash : Bytes32} {id : Int} : Kept db (db.putEnrolment txHash id) :=
  { Kept.refl db with }

theorem kept_audit {row : AuditLogRow} : Kept db (db.audit row) :=
  { Kept.refl db with auditLogs := List.prefix_append .. }

theorem kept_alert {id : AuditId} : Kept db (db.alert id) :=
  { Kept.refl db with
    contractAlerts := fun k h => by
      by_cases hk : k = id
      · subst hk
        exact Function.update_self ..
      · exact (Function.update_of_ne hk ..).trans h }

theorem kept_auditOnce {id : AuditId} {rid : Option RowId} {e : AuditEntry} :
    Kept db (db.auditOnce id rid e) := by
  unfold Db.auditOnce
  split
  · exact .refl db
  · exact kept_audit

theorem kept_alertMerchantOnce {id : AuditId} {rid : RowId} :
    Kept db (db.alertMerchantOnce id rid) := by
  unfold Db.alertMerchantOnce
  split
  · exact .refl db
  · rename_i h
    refine { Kept.refl db with merchantSecurityAlerts := .update (fun _ => rfl) fun r hr => ?_ }
    simp [hr] at h

theorem kept_mapRefunds {f : RefundRow → RefundRow}
    (h : ∀ r txHash, (f r).completes txHash = true → r.completes txHash = true) :
    Kept db (db.mapRefunds f) :=
  { Kept.refl db with
    refunds := fun txHash hnone r hr => by
      obtain ⟨r₀, h₀, rfl⟩ := List.mem_map.mp hr
      exact Bool.eq_false_iff.mpr fun hc => Bool.eq_false_iff.mp (hnone r₀ h₀) (h r₀ txHash hc) }

theorem kept_mapAgentJobs {f : AgentJobRow → AgentJobRow}
    (hlinked : ∀ j id, j.onchainJobId = some id → (f j).onchainJobId = some id)
    (hmissed : ∀ j txHash vendor, (f j).linksTo txHash vendor = true →
      j.linksTo txHash vendor = true) : Kept db (db.mapAgentJobs f) :=
  { Kept.refl db with
    agentJobs :=
      ⟨fun id ⟨j, hj, hid⟩ => ⟨f j, List.mem_map_of_mem hj, hlinked j id hid⟩,
        fun txHash vendor hnone j hj => by
          obtain ⟨j₀, h₀, rfl⟩ := List.mem_map.mp hj
          exact Bool.eq_false_iff.mpr fun hc =>
            Bool.eq_false_iff.mp (hnone j₀ h₀) (hmissed j₀ txHash vendor hc)⟩ }

theorem find?_map_of_iff {ms : List MerchantRow} {f : MerchantRow → MerchantRow}
    {p q : MerchantRow → Bool} (h : ∀ m ∈ ms, p (f m) = q m) :
    (ms.map f).find? p = (ms.find? q).map f := by
  rw [List.find?_map]
  congr 1
  exact List.find?_congr fun m hm => h m hm

/-- An update of rows that leaves ids and payouts, and links an on-chain id at most once. -/
theorem kept_mapMerchants {f : MerchantRow → MerchantRow} (hid : ∀ m, (f m).id = m.id)
    (hhash : ∀ m, (f m).onchainRegistrationTxHash = m.onchainRegistrationTxHash)
    (hpaid : ∀ m, m.payoutAddress ≠ none → (f m).payoutAddress ≠ none)
    (hnone : ∀ m, m.onchainMerchantId ≠ none → (f m).onchainMerchantId ≠ none)
    (hlink : ∀ id, (∀ m ∈ db.merchants,
        (f m).onchainMerchantId = some id ↔ m.onchainMerchantId = some id) ∨
      (∀ m ∈ db.merchants, m.onchainMerchantId ≠ some id) ∧
        (db.merchants.countP fun m => (f m).onchainMerchantId = some id) ≤ 1) :
    Kept db (db.mapMerchants f) :=
  { Kept.refl db with
    merchants :=
      { linked := fun id m hm => by
          rcases hlink id with hsame | ⟨hfree, -⟩
          · refine ⟨f m, ?_, hid m⟩
            rw [Db.mapMerchants_merchants, find?_map_of_iff (q := fun m =>
              m.onchainMerchantId = some id) fun m hm => by simp [hsame m hm], hm]
            rfl
          · have hheld : m.onchainMerchantId = some id := by simpa using List.find?_some hm
            exact absurd hheld (hfree m (List.mem_of_find?_eq_some hm))
        paid := fun rid m hm => by
          refine ⟨f m, ?_, hpaid m⟩
          rw [Db.mapMerchants_merchants, find?_map_of_iff (q := fun m => m.id = rid)
            fun m _ => by rw [hid m], hm]
          rfl
        registered := fun txHash h m hm hhm => by
          obtain ⟨m₀, h₀, rfl⟩ := List.mem_map.mp hm
          exact hnone m₀ (h m₀ h₀ (hhash m₀ ▸ hhm))
        unique := fun id h => by
          rw [Db.mapMerchants_merchants, List.countP_map]
          rcases hlink id with hsame | ⟨-, hone⟩
          · refine (List.countP_congr fun m hm => ?_).trans_le h
            simp [hsame m hm]
          · exact hone } }

end Writes

/-! ## The store methods -/

section Methods

variable {db db' : Db} {n : Nat}

theorem SubscriptionRow.Later.bump (sub : SubscriptionRow) (t : Int) : sub.Later (sub.bump t) where
  merchant := rfl
  ended h := by
    have hnot : ¬ (sub.status = .at_risk ∨ sub.status = .trialing) := by
      rintro (h' | h') <;> simp [h', SubscriptionStatus.ended] at h
    rw [SubscriptionRow.bump, if_neg hnot, h]

theorem SubscriptionRow.Later.flag {sub : SubscriptionRow} (t : Int)
    (h : sub.status.retries = true) : sub.Later (sub.flag t) where
  merchant := rfl
  ended hended := by
    cases hs : sub.status <;> rw [hs] at h hended <;> cases h <;> cases hended

theorem SubscriptionChargeRow.Later.succeeded {row row' : SubscriptionChargeRow}
    (h : row'.status = .succeeded) : row.Later row' where
  settled _ hfailed := by
    rw [h] at hfailed
    cases hfailed
  seen t _ := by simp [SubscriptionChargeRow.repeatsAt, h]

/-- A repeat is of a later block, so what the row has seen it has still seen. -/
theorem SubscriptionChargeRow.Later.refail {row : SubscriptionChargeRow}
    {in_ : SubscriptionChargeSkippedInput} (h : row.repeatsAt in_.blockTimestamp = true) :
    row.Later (row.refail in_) where
  settled hok := by
    simp only [SubscriptionChargeRow.repeatsAt, Bool.and_eq_true, decide_eq_true_eq] at h
    exact absurd h.1 hok
  seen t hseen := by
    simp only [SubscriptionChargeRow.repeatsAt, Bool.and_eq_true, decide_eq_true_eq,
      Option.any_eq_true] at h
    obtain ⟨hfailed, executedAt, hexec, hlt⟩ := h
    simp only [SubscriptionChargeRow.repeatsAt, hfailed, hexec, decide_true, Bool.true_and,
      Option.any_some, decide_eq_false_iff_not, not_lt, SubscriptionChargeRow.refail] at hseen ⊢
    omega

theorem kept_settle {session : PaymentSessionRow} {rid : RowId} {in_ : OneShotTxInput} :
    Kept db (db.settle session rid in_) := by
  unfold Db.settle Db.settleInvoice
  split
  · exact kept_putSession.trans kept_emit
  · split
    · exact kept_putSession.trans kept_emit
    · exact (kept_putSession.trans kept_emit).trans (kept_putInvoice.trans kept_emit)

theorem kept_insertOneShotTransaction {in_ : OneShotTxInput}
    (h : insertOneShotTransaction in_ db = .ok (n, db')) : Kept db db' := by
  obtain ⟨-, -, merchant, -, ⟨-, -, rfl⟩ | ⟨hnew, -, rfl⟩⟩ := insertOneShotTransaction_eq_ok.mp h
  · exact .refl _
  · unfold Db.recordOneShot
    split
    · exact kept_insertTransaction hnew
    · split
      · exact (kept_insertTransaction hnew).trans kept_settle
      · exact (kept_insertTransaction hnew).trans kept_audit

theorem kept_upsertSubscriptionFromOnchain {in_ : SubscriptionCreatedInput}
    (h : upsertSubscriptionFromOnchain in_ db = .ok (n, db')) : Kept db db' := by
  obtain ⟨-, -, merchant, -, -, -, ⟨-, -, rfl⟩ | ⟨hnew, -, -, rfl⟩⟩ :=
    upsertSubscriptionFromOnchain_eq_ok.mp h
  · exact kept_putCustomer.trans kept_putPlan
  · refine (kept_putCustomer.trans kept_putPlan).trans
      (((kept_putSubscription fun sub hsub => ?_).trans kept_putEnrolment).trans kept_emit)
    exact absurd (hnew.symm.trans hsub) (Option.some_ne_none sub).symm

theorem kept_recordAttempt {in_ : SubscriptionChargedInput} {id : Int} {sub : SubscriptionRow} :
    Kept db (db.recordAttempt in_ id sub) := by
  unfold Db.recordAttempt
  split
  · rename_i hnone
    exact kept_putCharge fun r hr => by rw [hnone] at hr; cases hr
  · split
    · exact kept_putCharge fun r _ => .succeeded rfl
    · exact .refl _

theorem kept_insertSubscriptionCharge {in_ : SubscriptionChargedInput}
    (h : insertSubscriptionCharge in_ db = .ok (n, db')) : Kept db db' := by
  obtain ⟨-, sub, merchant, merchantAddress, hsub, -, -, -, -, hcase⟩ :=
    insertSubscriptionCharge_eq_ok.mp h
  have hrow : ∀ s, db.subscriptions (int64 in_.onchainSubscriptionId) = some s →
      s.Later (sub.bump in_.nextChargeAt) := fun s hs => by
    rw [hsub, Option.some.injEq] at hs
    exact hs ▸ .bump sub _
  rcases hcase with ⟨-, -, rfl⟩ | ⟨hnew, -, -, rfl⟩
  · refine kept_recordAttempt.trans (kept_putSubscription ?_)
    rwa [recordAttempt_frame]
  · refine ((kept_recordAttempt.trans (kept_insertTransaction ?_)).trans
      (kept_putSubscription ?_)).trans kept_emit
    · rw [recordAttempt_transactions, hnew]
    · rwa [insertTransaction_frame, recordAttempt_frame]

theorem kept_recordSubscriptionPeriodsSkipped {in_ : SubscriptionPeriodsSkippedInput}
    (h : recordSubscriptionPeriodsSkipped in_ db = .ok (n, db')) : Kept db db' := by
  obtain ⟨-, -, sub, hsub, -, rfl⟩ := recordSubscriptionPeriodsSkipped_eq_ok.mp h
  refine (kept_putSubscription fun s hs => ?_).trans kept_audit
  rw [hsub, Option.some.injEq] at hs
  exact hs ▸ ⟨rfl, id⟩

/-- The row of a skip not seen yet follows on the one there was. -/
theorem later_fresh {in_ : SubscriptionChargeSkippedInput} {sub : SubscriptionRow}
    {row r : SubscriptionChargeRow} (h : in_.fresh? db sub = some row)
    (hr : db.charges in_.chargeAttemptId = some r) : r.Later row := by
  unfold SubscriptionChargeSkippedInput.fresh? at h
  simp only [hr] at h
  split at h
  · rename_i hcond
    cases h
    exact .refail hcond.2
  · cases h

theorem kept_insertSubscriptionChargeSkip {in_ : SubscriptionChargeSkippedInput}
    (h : insertSubscriptionChargeSkip in_ db = .ok (n, db')) : Kept db db' := by
  obtain ⟨-, -, sub, hsub, ⟨-, -, rfl⟩ | ⟨row, hrow, -, -, hcase⟩⟩ :=
    insertSubscriptionChargeSkip_eq_ok.mp h
  · exact .refl _
  · have hcharge : Kept db (db.putCharge in_.chargeAttemptId row) :=
      kept_putCharge fun r hr => later_fresh hrow hr
    rcases hcase with ⟨-, rfl⟩ | ⟨-, -, rfl⟩
    · exact hcharge
    · unfold Db.recordFailure Db.flagAtRisk
      split
      · rename_i hretries
        refine (hcharge.trans kept_emit).trans (kept_putSubscription fun s hs => ?_)
        rw [show s = sub from Option.some.inj (hs.symm.trans hsub)]
        exact .flag _ hretries
      · exact hcharge.trans kept_emit

theorem kept_markSubscriptionCancelled {subId : Nat} {by_ : Address} {txHash : Bytes32} {t : Int}
    (h : markSubscriptionCancelled subId by_ txHash t db = .ok (n, db')) : Kept db db' := by
  obtain ⟨-, -, sub, hsub, ⟨-, -, rfl⟩ | ⟨-, -, rfl⟩⟩ := markSubscriptionCancelled_eq_ok.mp h
  · exact .refl _
  · refine kept_putSubscription fun s hs => ?_
    rw [show s = sub from Option.some.inj (hs.symm.trans hsub)]
    exact ⟨rfl, fun _ => rfl⟩

theorem kept_completeRefundByTxHash {txHash : String} {t : Int}
    (h : completeRefundByTxHash txHash t db = .ok (n, db')) : Kept db db' := by
  obtain ⟨-, ⟨-, -, rfl⟩ | ⟨refund, -, -, rfl⟩⟩ := completeRefundByTxHash_eq_ok.mp h
  · exact .refl _
  · refine (kept_mapRefunds fun r other hc => ?_).trans kept_emit
    split at hc
    · simp [RefundRow.completes] at hc
    · exact hc

/-- Where a merchant has the id already, linking it again finds that one only. -/
theorem held_of_linksTo {ms : List MerchantRow} {id : Int} {txHash : Bytes32}
    (hone : (ms.countP fun m => m.linksTo id txHash) ≤ 1) {m₀ : MerchantRow} (h₀ : m₀ ∈ ms)
    (hheld : m₀.onchainMerchantId = some id) {m : MerchantRow} (hm : m ∈ ms)
    (hlinks : m.linksTo id txHash = true) : m.onchainMerchantId = some id := by
  by_contra hfree
  have hsplit := List.countP_eq_countP_filter_add ms (fun m => m.linksTo id txHash)
    fun m => m.onchainMerchantId = some id
  have hin : 0 < (ms.filter fun m => m.onchainMerchantId = some id).countP
      fun m => m.linksTo id txHash :=
    List.countP_pos_iff.mpr ⟨m₀, List.mem_filter.mpr ⟨h₀, by simpa using hheld⟩, by
      simp [MerchantRow.linksTo, hheld]⟩
  have hout : 0 < (ms.filter fun m => !decide (m.onchainMerchantId = some id)).countP
      fun m => m.linksTo id txHash :=
    List.countP_pos_iff.mpr ⟨m, List.mem_filter.mpr ⟨hm, by simpa using hfree⟩, hlinks⟩
  omega

theorem MerchantRow.link_onchain {m : MerchantRow} {id : Int} {txHash : Bytes32} {fee : OnchainFee} :
    (if m.linksTo id txHash then m.link id fee else m).onchainMerchantId = some id ↔
      m.linksTo id txHash = true := by
  by_cases hm : m.linksTo id txHash = true
  · simp [hm, MerchantRow.link]
  · simp only [hm, Bool.false_eq_true, if_false, iff_false]
    exact fun h => hm (by simp [MerchantRow.linksTo, h])

theorem MerchantRow.link_onchain_ne {m : MerchantRow} {id id' : Int} {txHash : Bytes32}
    {fee : OnchainFee} (hne : id' ≠ id) :
    (if m.linksTo id txHash then m.link id fee else m).onchainMerchantId = some id' ↔
      m.onchainMerchantId = some id' := by
  by_cases hm : m.linksTo id txHash = true
  · have hlinked : m.onchainMerchantId ≠ some id' := by
      intro h
      simp [MerchantRow.linksTo, h, hne] at hm
    simp [hm, MerchantRow.link, hlinked, Ne.symm hne]
  · simp [hm]

theorem kept_linkOnchainMerchant {id : Nat} {txHash : Bytes32} {fee : OnchainFee}
    (h : linkOnchainMerchant id txHash fee db = .ok (n, db')) : Kept db db' := by
  obtain ⟨-, -, hone, hr⟩ := linkOnchainMerchant_eq_ok.mp h
  obtain ⟨-, rfl⟩ := Prod.mk.inj hr
  refine kept_mapMerchants (fun m => ?_) (fun m => ?_) (fun m hm => ?_) (fun m hm => ?_) fun id' => ?_
  · split <;> rfl
  · split <;> rfl
  · split <;> exact hm
  · split
    · exact Option.some_ne_none _
    · exact hm
  · by_cases hid : id' = int64 id
    · subst hid
      by_cases hheld : ∃ m ∈ db.merchants, m.onchainMerchantId = some (int64 id)
      · obtain ⟨m₀, h₀, hheld⟩ := hheld
        refine Or.inl fun m hm => MerchantRow.link_onchain.trans
          ⟨held_of_linksTo hone h₀ hheld hm, fun h => by simp [MerchantRow.linksTo, h]⟩
      · push Not at hheld
        refine Or.inr ⟨hheld, ?_⟩
        simpa only [MerchantRow.link_onchain, Bool.decide_eq_true] using hone
    · exact Or.inl fun m _ => MerchantRow.link_onchain_ne hid

theorem kept_setMerchants {id : Int} {set : MerchantRow → MerchantRow}
    (hid : ∀ m, (set m).id = m.id)
    (hhash : ∀ m, (set m).onchainRegistrationTxHash = m.onchainRegistrationTxHash)
    (honchain : ∀ m, (set m).onchainMerchantId = m.onchainMerchantId)
    (hpaid : ∀ m, m.payoutAddress ≠ none → (set m).payoutAddress ≠ none) :
    Kept db (db.setMerchants id set) := by
  refine kept_mapMerchants (fun m => ?_) (fun m => ?_) (fun m hm => ?_) (fun m hm => ?_)
    fun id' => Or.inl fun m _ => ?_
  · split
    · exact hid m
    · rfl
  · split
    · exact hhash m
    · rfl
  · split
    · exact hpaid m hm
    · exact hm
  · split
    · rwa [honchain]
    · exact hm
  · split
    · rw [honchain]
    · rfl

theorem kept_setMerchantOnchainFeeBps {id : Nat} {feeBps : Uint16} {txHash : Bytes32} {t : Int}
    (h : setMerchantOnchainFeeBps id feeBps txHash t db = .ok (n, db')) : Kept db db' := by
  obtain ⟨-, hr⟩ := setMerchantOnchainFeeBps_eq_ok.mp h
  obtain ⟨-, rfl⟩ := Prod.mk.inj hr
  exact kept_setMerchants (fun _ => rfl) (fun _ => rfl) (fun _ => rfl) fun _ h => h

theorem kept_setMerchantOnchainMaxFeeBps {id : Nat} {maxFeeBps : Uint16} {txHash : Bytes32}
    {t : Int} (h : setMerchantOnchainMaxFeeBps id maxFeeBps txHash t db = .ok (n, db')) :
    Kept db db' := by
  obtain ⟨-, hr⟩ := setMerchantOnchainMaxFeeBps_eq_ok.mp h
  obtain ⟨-, rfl⟩ := Prod.mk.inj hr
  exact kept_setMerchants (fun _ => rfl) (fun _ => rfl) (fun _ => rfl) fun _ h => h

theorem kept_updateMerchantPayoutAddress {id : Nat} {payout : Address}
    (h : updateMerchantPayoutAddress id payout db = .ok (n, db')) : Kept db db' := by
  obtain ⟨-, hr⟩ := updateMerchant_eq_ok.mp h
  obtain ⟨-, rfl⟩ := Prod.mk.inj hr
  exact kept_setMerchants (fun _ => rfl) (fun _ => rfl) (fun _ => rfl) fun _ _ =>
    Option.some_ne_none _

theorem kept_setMerchantActive {id : Nat} {active : Bool}
    (h : setMerchantActive id active db = .ok (n, db')) : Kept db db' := by
  obtain ⟨-, hr⟩ := updateMerchant_eq_ok.mp h
  obtain ⟨-, rfl⟩ := Prod.mk.inj hr
  exact kept_setMerchants (fun _ => rfl) (fun _ => rfl) (fun _ => rfl) fun _ h => h

theorem kept_linkAgentJobOnchain {id : Nat} {vendor : Address} {txHash : Bytes32}
    (h : linkAgentJobOnchain id vendor txHash db = .ok (n, db')) : Kept db db' := by
  obtain ⟨-, -, hr⟩ := linkAgentJobOnchain_eq_ok.mp h
  obtain ⟨-, rfl⟩ := Prod.mk.inj hr
  refine kept_mapAgentJobs (fun j other hj => ?_) fun j other vendor' hj => ?_
  · split
    · rename_i hlinks
      simp [AgentJobRow.linksTo, hj] at hlinks
    · exact hj
  · split at hj
    · simp [AgentJobRow.linksTo, AgentJobRow.link] at hj
    · exact hj

theorem kept_setAgentJobStatus {in_ : AgentJobStatusInput}
    (h : setAgentJobStatus in_ db = .ok (n, db')) : Kept db db' := by
  obtain ⟨-, -, -, rfl⟩ := setAgentJobStatus_eq_ok.mp h
  refine kept_mapAgentJobs (fun j other hj => ?_) fun j other vendor' hj => ?_
  · split <;> exact hj
  · split at hj <;> exact hj

theorem kept_logAgentJobEvent {id : Nat} {action : String} {metadata : Metadata}
    (h : logAgentJobEvent id action metadata db = .ok ((), db')) : Kept db db' := by
  obtain ⟨-, job, -, -, hr⟩ := logAgentJobEvent_eq_ok.mp h
  obtain ⟨-, rfl⟩ := Prod.mk.inj hr
  exact kept_audit

theorem kept_logMerchantFeeBpsChange {id : Nat} {feeBps : Uint16} {txHash : Bytes32}
    (h : logMerchantFeeBpsChange id feeBps txHash db = .ok ((), db')) : Kept db db' := by
  obtain ⟨-, hr⟩ := logMerchantFeeBpsChange_eq_ok.mp h
  obtain ⟨-, rfl⟩ := Prod.mk.inj hr
  exact kept_audit

theorem kept_logFeeAccrued {id : Nat} {token : Address} {amount : Nat} {txHash : Bytes32}
    (h : logFeeAccrued id token amount txHash db = .ok ((), db')) : Kept db db' := by
  obtain ⟨-, merchant, -, hr⟩ := logFeeAccrued_eq_ok.mp h
  obtain ⟨-, rfl⟩ := Prod.mk.inj hr
  exact kept_audit

theorem kept_logMerchantGovernance {in_ : MerchantGovernanceInput}
    (h : logMerchantGovernance in_ db = .ok ((), db')) : Kept db db' := by
  obtain ⟨-, -, -, hr⟩ := logMerchantGovernance_eq_ok.mp h
  obtain ⟨-, rfl⟩ := Prod.mk.inj hr
  unfold Db.recordGovernance
  dsimp only
  split
  · exact kept_auditOnce
  · split
    · exact kept_auditOnce.trans kept_alert
    · exact (kept_auditOnce.trans kept_alert).trans kept_alertMerchantOnce

theorem kept_logContractOperation {in_ : ContractOperationInput}
    (h : logContractOperation in_ db = .ok ((), db')) : Kept db db' := by
  obtain ⟨-, hr⟩ := logContractOperation_eq_ok.mp h
  obtain ⟨-, rfl⟩ := Prod.mk.inj hr
  unfold Db.recordOperation
  dsimp only
  split
  · exact kept_auditOnce
  · exact kept_auditOnce.trans kept_alert

theorem kept_logAgentRegistryEvent {in_ : AgentRegistryInput}
    (h : logAgentRegistryEvent in_ db = .ok ((), db')) : Kept db db' := by
  obtain ⟨-, hr⟩ := logAgentRegistryEvent_eq_ok.mp h
  obtain ⟨-, rfl⟩ := Prod.mk.inj hr
  exact kept_auditOnce

end Methods

/-! ## The projector -/

namespace Projector

variable {p : Projector} {lg : Log} {t : Int} {db db' : Db}

theorem kept_applyJob {in_ : AgentJobStatusInput} {action : String} {metadata : Metadata}
    (h : applyJob in_ action metadata db = .ok ((), db')) : Kept db db' := by
  obtain ⟨n, db₁, hset, hlog⟩ := bind_eq_ok.mp h
  exact (kept_setAgentJobStatus hset).trans (kept_logAgentJobEvent hlog)

/-- No projection takes a row back. -/
theorem project_kept {payload : Payload} (h : p.project lg t payload db = .ok ((), db')) :
    Kept db db' := by
  cases payload with
  | merchantRegistered =>
      obtain ⟨n, h⟩ := drop_eq_ok.mp h
      exact kept_linkOnchainMerchant h
  | merchantPayoutAddressUpdated =>
      obtain ⟨n, h⟩ := drop_eq_ok.mp h
      exact kept_updateMerchantPayoutAddress h
  | merchantActiveSet =>
      obtain ⟨n, h⟩ := drop_eq_ok.mp h
      exact kept_setMerchantActive h
  | merchantFeeBpsUpdated =>
      obtain ⟨n, db₁, hset, hlog⟩ := bind_eq_ok.mp h
      exact (kept_setMerchantOnchainFeeBps hset).trans (kept_logMerchantFeeBpsChange hlog)
  | merchantMaxFeeBpsLowered =>
      obtain ⟨n, db₁, hset, hlog⟩ := bind_eq_ok.mp h
      exact (kept_setMerchantOnchainMaxFeeBps hset).trans (kept_logMerchantGovernance hlog)
  | merchantOwnershipTransferInitiated | merchantOwnershipTransferAccepted
  | merchantOwnershipTransferCancelled | merchantPayoutChangeInitiated
  | merchantPayoutChangeCancelled => exact kept_logMerchantGovernance h
  | paymentExecuted =>
      obtain ⟨currency, -, h⟩ := Billing.tokenSymbol_bind_eq_ok.mp h
      obtain ⟨n, h⟩ := drop_eq_ok.mp h
      exact kept_insertOneShotTransaction h
  | subscriptionCreated =>
      obtain ⟨currency, -, h⟩ := Billing.tokenSymbol_bind_eq_ok.mp h
      obtain ⟨n, h⟩ := drop_eq_ok.mp h
      exact kept_upsertSubscriptionFromOnchain h
  | subscriptionCharged =>
      obtain ⟨n, h⟩ := drop_eq_ok.mp h
      exact kept_insertSubscriptionCharge h
  | subscriptionPeriodsSkipped =>
      obtain ⟨n, h⟩ := drop_eq_ok.mp h
      exact kept_recordSubscriptionPeriodsSkipped h
  | subscriptionChargeSkipped =>
      obtain ⟨n, h⟩ := drop_eq_ok.mp h
      exact kept_insertSubscriptionChargeSkip h
  | subscriptionCancelled =>
      obtain ⟨n, h⟩ := drop_eq_ok.mp h
      exact kept_markSubscriptionCancelled h
  | erc20Transfer =>
      obtain ⟨n, h⟩ := drop_eq_ok.mp h
      exact kept_completeRefundByTxHash h
  | jobCreated =>
      obtain ⟨n, db₁, hlink, hlog⟩ := bind_eq_ok.mp h
      exact (kept_linkAgentJobOnchain hlink).trans (kept_logAgentJobEvent hlog)
  | jobRefunded => exact kept_logAgentJobEvent h
  | jobFunded | jobStarted | jobDelivered | jobApproved | jobReleased | jobDisputed
  | jobCancelled | jobResolved | jobReclaimed => exact kept_applyJob h
  | feeAccrued => exact kept_logFeeAccrued h
  | agentRegistered | agentCredentialRotated | agentReputationAdjusted | agentDeactivated
  | agentActivated => exact kept_logAgentRegistryEvent h
  | _ => exact Indexer.kept_logContractOperation h

theorem apply_kept (h : p.apply lg t db = .ok ((), db')) : Kept db db' := by
  unfold apply at h
  cases hd : lg.decoded with
  | malformed =>
      rw [hd] at h
      cases throw_eq_ok.mp h
  | notSubscribed =>
      rw [hd] at h
      obtain ⟨-, rfl⟩ := Prod.mk.inj (pure_eq_ok.mp h)
      exact .refl _
  | event payload =>
      rw [hd] at h
      exact project_kept h

end Projector

end Strimz.Indexer
