import Strimz.MirroredRows
import Strimz.ProjectionFaults

/-!
# What each log leaves

Every kind of log the subscriptions contract emits projects, or is parked, and the tables go on
mirroring the book.
-/

namespace Strimz.SubscriptionMirror

open Tx Subscriptions Indexer

variable {S : Setup} {db₀ db db' : Db} {b b' : Book} {l : Subscriptions.Log} {id i : Nat}
  {row row' : SubscriptionRow} {a : Bytes32} {t : Uint64}

/-- The batch loop gets past the log. -/
def Setup.Projects (S : Setup) (n : Nat) (l : Subscriptions.Log) (db db' : Db) : Prop :=
  S.projector.applyOrPark (S.entry n l).1 (S.entry n l).2 db = .ok ((), db')

theorem Setup.Projects.of_apply {n : Nat}
    (h : S.projector.apply (S.entry n l).1 (S.entry n l).2 db = .ok ((), db')) :
    S.Projects n l db db' := Projector.applyOrPark_eq_ok.mpr (.inl h)

/-! ## Numbers that fit -/

theorem unix_of_le (h : t.toNat ≤ LATEST_TIME) : unix t = t.toNat :=
  unix_of_lt (Nat.lt_of_le_of_lt h (by decide))

theorem isDate_of_le {n : Int} (h₀ : 0 ≤ n) (h : n ≤ LATEST_TIME + 4310000000) : IsDate n := by
  unfold IsDate MIN_TIMESTAMP END_TIMESTAMP
  unfold LATEST_TIME at h
  omega

theorem isDate_unix (h : t.toNat ≤ LATEST_TIME) : IsDate (unix t) := by
  rw [unix_of_le h]
  exact isDate_of_le (by omega) (by omega)

theorem int64_small (h : id ≤ MAX_INT4) : int64 id = id := by
  unfold MAX_INT4 at h
  exact int64_of_lt (by omega)

theorem int4_small (h : id ≤ MAX_INT4) : Int4 id := by
  rw [Int4, int64_small h]
  unfold MAX_INT4 at h ⊢
  omega

/-- Ids handed out are no more than the logs. -/
theorem Inv.id_le (inv : Inv S db₀ b db) (hid : id < b.nextSubscriptionId)
    (hfew : b.logs.length ≤ MAX_INT4) : id ≤ MAX_INT4 := by
  have := inv.few
  omega

/-! ## Logs that leave the rows alone -/

theorem Inv.idle (inv : Inv S db₀ b db) (hlogs : b'.logs = b.logs ++ [l])
    (hsettled : settledOf l = none) (hcreated : createdOf l = none)
    (hcharge : ∀ id, chargeOf id l = none) (hfail : ∀ id n, n ≤ countFailure id n l)
    (hnext : b'.nextSubscriptionId = b.nextSubscriptionId)
    (hsubs : b'.subscriptions = b.subscriptions)
    (hused : ∀ a, b.usedAttempts a = true → b'.usedAttempts a = true)
    (hledger : SameLedger db db') (hattempts : Attempts (b.logs.length + 1) db db')
    (hrows : db'.subscriptions = db.subscriptions) : Inv S db₀ b' db' := by
  refine inv.uncharged hlogs hsettled hcreated hnext (fun id => by rw [hsubs]; exact ⟨rfl, rfl⟩)
    hused hledger hattempts (fun id h1 h2 => ?_) fun i hi => hrows ▸ hi
  obtain ⟨row, hrow, hshows⟩ := inv.rows id h1 h2
  exact ⟨row, hrows ▸ hrow, hshows.carry (congrFun hsubs id) hlogs (hcharge id) (hfail id)⟩

theorem recordOperation_frame (in_ : ContractOperationInput) :
    ∃ audits alerts, db.recordOperation in_ =
      { db with auditLogs := audits, contractAlerts := alerts } := by
  unfold Db.recordOperation Db.auditOnce
  dsimp only
  split <;> split <;> exact ⟨_, _, rfl⟩

theorem Inv.config {e : Subscriptions.Event} (inv : Inv S db₀ b db) (he : e.Config) :
    ∃ db', S.Projects b.logs.length ⟨t, e⟩ db db' ∧ Inv S db₀ (b.log ⟨t, e⟩) db' := by
  have hidle : ∀ {db'}, SameLedger db db' → db'.charges = db.charges →
      db'.subscriptions = db.subscriptions → Inv S db₀ (b.log ⟨t, e⟩) db' := by
    intro db' hledger hcharges hsubs
    have hquiet : settledOf ⟨t, e⟩ = none ∧ createdOf ⟨t, e⟩ = none ∧
        (∀ id, chargeOf id ⟨t, e⟩ = none) ∧ ∀ id n, countFailure id n ⟨t, e⟩ = n := by
      cases e with
      | tokensRescued token to_ amount by_ => exact ⟨rfl, rfl, fun _ => rfl, fun _ _ => rfl⟩
      | dependencyUpdated name v => exact ⟨rfl, rfl, fun _ => rfl, fun _ _ => rfl⟩
      | _ => exact he.elim
    obtain ⟨h1, h2, h3, h4⟩ := hquiet
    exact inv.idle rfl h1 h2 h3 (fun id n => (h4 id n).ge) rfl rfl (fun _ h => h) hledger
      (fun a => .inl (congrFun hcharges a)) hsubs
  cases e with
  | tokensRescued token to_ amount by_ =>
      exact ⟨db, .of_apply (by exact pure_eq_ok.mpr rfl), hidle ⟨rfl, rfl, rfl, rfl, rfl, rfl⟩ rfl rfl⟩
  | dependencyUpdated name v =>
      set n := b.logs.length
      set lg := (S.entry n ⟨t, .dependencyUpdated name v⟩).1
      have hnul : NulFree (S.projector.withContractName lg
          [("name", .raw name.toUTF8.toList), ("newAddress", .address v)]) := by
        rw [Projector.nulFree_withContractName, nulFree_cons, nulFree_cons]
        refine ⟨?_, rfl, nulFree_nil⟩
        rcases he with rfl | rfl | rfl <;> decide +kernel
      have happly : S.projector.apply lg (unix t) db = .ok ((), db.recordOperation
          ⟨S.projector.logRef lg, lg.address, "contract.dependency_updated",
            S.projector.withContractName lg
              [("name", .raw name.toUTF8.toList), ("newAddress", .address v)], false⟩) :=
        logContractOperation_eq_ok.mpr ⟨hnul, rfl⟩
      obtain ⟨audits, alerts, hframe⟩ := @recordOperation_frame db
        ⟨S.projector.logRef lg, lg.address, "contract.dependency_updated",
          S.projector.withContractName lg
            [("name", .raw name.toUTF8.toList), ("newAddress", .address v)], false⟩
      rw [hframe] at happly
      exact ⟨_, .of_apply happly, hidle ⟨rfl, rfl, rfl, rfl, rfl, rfl⟩ rfl rfl⟩
  | _ => exact he.elim

/-! ## Logs about one subscription -/

/-- A log that neither enrols nor charges, about one subscription that was handed out. -/
theorem Inv.oneRow (inv : Inv S db₀ b db) (hlogs : b'.logs = b.logs ++ [l])
    (hsettled : settledOf l = none) (hcreated : createdOf l = none)
    (hother : ∀ i ≠ id, chargeOf i l = none ∧ ∀ n, n ≤ countFailure i n l)
    (hnext : b'.nextSubscriptionId = b.nextSubscriptionId)
    (hsubs : ∀ i ≠ id, b'.subscriptions i = b.subscriptions i)
    (hsub : (b'.subscriptions id).payer = (b.subscriptions id).payer ∧
      (b'.subscriptions id).interval = (b.subscriptions id).interval)
    (hused : ∀ a, b.usedAttempts a = true → b'.usedAttempts a = true)
    (hledger : SameLedger db db') (hattempts : Attempts (b.logs.length + 1) db db')
    (h1 : 1 ≤ id) (h2 : id < b.nextSubscriptionId)
    (hrow : ∃ row, db'.subscriptions (id : Int) = some row ∧ ShowsSubscription S db₀ b' id row)
    (hrows : ∀ i ≠ (id : Int), db'.subscriptions i = db.subscriptions i) : Inv S db₀ b' db' := by
  refine inv.uncharged hlogs hsettled hcreated hnext (fun i => ?_) hused hledger hattempts
    (fun i hi1 hi2 => ?_) fun i hi => ?_
  · by_cases hi : i = id
    · exact hi ▸ hsub
    · rw [hsubs i hi]
      exact ⟨rfl, rfl⟩
  · by_cases hi : i = id
    · exact hi ▸ hrow
    · obtain ⟨row, hrow, hshows⟩ := inv.rows i hi1 hi2
      obtain ⟨hcharge, hfail⟩ := hother i hi
      exact ⟨row, by rw [hrows i (by omega), hrow], hshows.carry (hsubs i hi) hlogs hcharge hfail⟩
  · by_cases hid : i = id
    · obtain ⟨row, hrow, -⟩ := inv.rows id h1 h2
      rw [hid, hrow]
      exact Option.some_ne_none row
    · rwa [hrows i hid] at hi

/-- What no log changes of a subscription and its row. -/
structure SameTerms (sub sub' : Subscription) (row row' : SubscriptionRow) : Prop where
  merchantId : sub'.merchantId = sub.merchantId ∧ row'.merchantId = row.merchantId
  payer : sub'.payer = sub.payer ∧ row'.payerAddress = row.payerAddress
  amount : sub'.amount = sub.amount ∧ row'.amount = row.amount
  currency : sub'.token = sub.token ∧ row'.currency = row.currency

/-- The subscription and its row move on together. -/
theorem ShowsSubscription.move {sub' : Subscription} (h : ShowsSubscription S db₀ b id row)
    (hsub : b'.subscriptions id = sub')
    (hterms : SameTerms (b.subscriptions id) sub' row row')
    (hdue : row'.nextChargeAt = unix sub'.nextChargeAt)
    (henrolment : ∃ e : Enrolment, e.Logged id b'.logs ∧
      (row'.currentPeriodStartAt, row'.currentPeriodEndAt) =
        e.period sub'.interval (charges id b'.logs) ∧
      row'.status = e.status sub'.cancelled row'.retryCount (charges id b'.logs))
    (hretries : row'.retryCount ≤ failures id b'.logs ∧
      (row'.retryCount = 0 → row'.nextRetryAt = none)) : ShowsSubscription S db₀ b' id row' where
  merchant := by
    rw [hsub, hterms.merchantId.1, hterms.merchantId.2]
    exact h.merchant
  payer := by
    rw [hsub, hterms.payer.1, hterms.payer.2]
    exact h.payer
  amount := by
    rw [hsub, hterms.amount.1, hterms.amount.2]
    exact h.amount
  currency := by
    rw [hsub, hterms.currency.1, hterms.currency.2]
    exact h.currency
  due := by rw [hsub, hdue]
  enrolment := by
    rw [hsub]
    exact henrolment
  retries := hretries

theorem Enrolment.status_ne (e : Enrolment) (n : Nat) (cs : List (Nat × Nat)) :
    ¬ (e.status false n cs = .cancelled ∨ e.status false n cs = .lapsed) := by
  unfold Enrolment.status
  rw [if_neg Bool.false_ne_true]
  split
  · decide
  · split <;> decide

theorem Inv.cancelled {by_ : Address} (inv : Inv S db₀ b db)
    (hfew : b.logs.length ≤ MAX_INT4) (ht : t.toNat ≤ LATEST_TIME)
    (hknown : (b.subscriptions id).payer ≠ 0) (hlive : (b.subscriptions id).cancelled = false) :
    ∃ db', S.Projects b.logs.length ⟨t, .subscriptionCancelled id by_⟩ db db' ∧
      Inv S db₀ ((b.putSubscription id { b.subscriptions id with cancelled := true }).log
        ⟨t, .subscriptionCancelled id by_⟩) db' := by
  obtain ⟨h1, h2⟩ := inv.unborn id hknown
  have hid := inv.id_le h2 hfew
  obtain ⟨row, hrow, hshows⟩ := inv.rows id h1 h2
  obtain ⟨e, hlogged, hperiod, hstatus⟩ := hshows.enrolment
  rw [hlive] at hstatus
  have happly : markSubscriptionCancelled id by_ (S.places b.logs.length).txHash (unix t) db =
      .ok (1, db.putSubscription id (row.cancel by_ (S.places b.logs.length).txHash (unix t))) := by
    refine markSubscriptionCancelled_eq_ok.mpr ⟨int4_small hid, isDate_unix ht, row, ?_,
      .inr ⟨hstatus ▸ e.status_ne _ _, rfl, ?_⟩⟩
    · rw [int64_small hid, hrow]
    · rw [int64_small hid]
  refine ⟨_, .of_apply (drop_eq_ok.mpr ⟨1, happly⟩), ?_⟩
  refine inv.oneRow (l := ⟨t, .subscriptionCancelled id by_⟩) rfl rfl rfl
    (fun _ _ => ⟨rfl, fun _ => Nat.le_refl _⟩) rfl (fun i hi => Function.update_of_ne hi _ _)
    (by simp) (fun _ h => h) ⟨rfl, rfl, rfl, rfl, rfl, rfl⟩ (fun _ => .inl rfl) h1 h2 ?_
    fun i hi => Function.update_of_ne hi _ _
  refine ⟨_, Function.update_self _ _ _, hshows.move (Function.update_self _ _ _)
    ⟨⟨rfl, rfl⟩, ⟨rfl, rfl⟩, ⟨rfl, rfl⟩, ⟨rfl, rfl⟩⟩ hshows.due ?_ ?_⟩
  · refine ⟨e, hlogged.mono (List.subset_append_left _ _), ?_, rfl⟩
    rw [Book.log_logs, charges_concat]
    exact hperiod.trans (by simp [chargeOf])
  · rw [Book.log_logs, failures_concat]
    exact hshows.retries

/-! ## Skips -/

/-- A row the skip inserts or repeats has failed, and so had the one before it. -/
theorem fresh?_eq_some {in_ : SubscriptionChargeSkippedInput} {r : SubscriptionChargeRow} {n : Nat}
    (hattempts : ∀ a r, db.charges a = some r → r.attemptNumber ≤ n)
    (h : in_.fresh? db row = some r) :
    (∀ r₀, db.charges in_.chargeAttemptId = some r₀ → r₀.status = .failed) ∧
      r.status = .failed ∧ r.attemptNumber ≤ n + 1 := by
  unfold SubscriptionChargeSkippedInput.fresh? at h
  cases hold : db.charges in_.chargeAttemptId with
  | none =>
      rw [hold] at h
      obtain rfl := Option.some.inj h
      exact ⟨fun r₀ h₀ => (by cases h₀), rfl, Nat.le_add_left 1 n⟩
  | some r₀ =>
      rw [hold] at h
      dsimp only at h
      split at h
      next hrepeats =>
        obtain rfl := Option.some.inj h
        have hfailed : r₀.status = .failed := by
          obtain ⟨-, hrepeats⟩ := hrepeats
          simp only [SubscriptionChargeRow.repeatsAt, Bool.and_eq_true, decide_eq_true_eq] at hrepeats
          exact hrepeats.1
        refine ⟨fun r₁ h₁ => ?_, hfailed, ?_⟩
        · rw [← Option.some.inj h₁]
          exact hfailed
        · exact Nat.succ_le_succ (hattempts _ _ hold)
      next => cases h

theorem attempts_put {r : SubscriptionChargeRow} {n : Nat}
    (hold : ∀ r₀, db.charges a = some r₀ → r₀.status = .failed) (hr : r.status = .failed)
    (hn : r.attemptNumber ≤ n) (hdb : db'.charges = Function.update db.charges a (some r)) :
    Attempts n db db' := by
  intro a'
  rw [hdb]
  by_cases ha : a' = a
  · subst ha
    exact .inr ⟨hold, r, Function.update_self _ _ _, hr, hn⟩
  · exact .inl (Function.update_of_ne ha _ _)

theorem bind_of_ok {α β : Type} {m : Projection α} {k : α → Projection β} {v : α}
    (h : m db = .ok (v, db')) : (m >>= k) db = k v db' := by
  show (m db >>= fun r => k r.1 r.2) = _
  rw [h]
  rfl

theorem drop_of_error {α : Type} {m : Projection α} {e : ApplyError} (h : m db = .error e) :
    (m >>= fun _ => pure ()) db = .error e := by
  show (m db >>= fun _ => _) = _
  rw [h]
  rfl

/-- A charge of a subscription nobody handed out is parked. -/
theorem skip_unknown {in_ : SubscriptionChargeSkippedInput}
    (hid : in_.onchainSubscriptionId ≤ MAX_INT4)
    (hnone : db.subscriptions in_.onchainSubscriptionId = none) :
    insertSubscriptionChargeSkip in_ db = .error (.unresolvable
      (.unknownSubscription "SubscriptionChargeSkipped" in_.onchainSubscriptionId)) := by
  have hparam : int4Param in_.onchainSubscriptionId db = .ok ((in_.onchainSubscriptionId : Int), db) :=
    int4Param_eq_ok.mpr ⟨int4_small hid, by rw [int64_small hid]⟩
  unfold insertSubscriptionChargeSkip
  rw [bind_of_ok hparam, bind_of_ok (get_eq_ok.mpr rfl)]
  simp only [hnone]
  rfl

theorem Enrolment.status_retries (e : Enrolment) (cancelled : Bool) (n : Nat)
    (cs : List (Nat × Nat)) :
    Indexer.SubscriptionStatus.retries (e.status cancelled n cs) = !cancelled := by
  unfold Enrolment.status
  cases cancelled with
  | true => rfl
  | false =>
      rw [if_neg Bool.false_ne_true]
      split
      · rfl
      · split <;> rfl

theorem retryBackoff_bounds (n : Nat) : 0 ≤ retryBackoff n ∧ retryBackoff n ≤ 86400 := by
  unfold retryBackoff
  repeat' split
  all_goals decide

/-- Emitting a failed charge adds nothing to the two types that are mirrored. -/
theorem sameLedger_failure {r : SubscriptionChargeRow} {merchantId : RowId} {mode : Mode}
    {ref : EventRef} : SameLedger db ((db.putCharge a r).emit
      ⟨.subscription_charge_failed, "subscription.charge_failed", merchantId, mode, ref⟩) where
  merchants := rfl
  transactions := rfl
  chargePayments := rfl
  enrolments := rfl
  charged := by simp [refsOf, List.filter_append]
  created := by simp [refsOf, List.filter_append]

theorem Inv.skipped {outcome : ChargeOutcome} (inv : Inv S db₀ b db)
    (hlogs : b'.logs = b.logs ++ [⟨t, .subscriptionChargeSkipped id a outcome⟩])
    (hnext : b'.nextSubscriptionId = b.nextSubscriptionId)
    (hsubs : b'.subscriptions = b.subscriptions)
    (hused : ∀ a, b.usedAttempts a = true → b'.usedAttempts a = true)
    (hfew : b'.logs.length ≤ MAX_INT4) (ht : t.toNat ≤ LATEST_TIME) (hid : id ≤ MAX_INT4) :
    ∃ db', S.Projects b.logs.length ⟨t, .subscriptionChargeSkipped id a outcome⟩ db db' ∧
      Inv S db₀ b' db' := by
  set code := Billing.outcomeCode outcome with hcode
  set in_ : SubscriptionChargeSkippedInput :=
    ⟨id, a, dbString code, isPaymentFailure code, unix t⟩ with hin
  have hlength : b.logs.length < MAX_INT4 := by
    rw [hlogs, List.length_append, List.length_singleton] at hfew
    omega
  have hcount : ∀ i n, n ≤ countFailure i n ⟨t, .subscriptionChargeSkipped id a outcome⟩ := by
    intro i n
    simp only [countFailure]
    split <;> omega
  have hidle : ∀ {db'}, SameLedger db db' → Attempts (b.logs.length + 1) db db' →
      db'.subscriptions = db.subscriptions → Inv S db₀ b' db' := fun hledger hattempts hrows =>
    inv.idle hlogs rfl rfl (fun _ => rfl) hcount hnext hsubs hused hledger hattempts hrows
  by_cases hnone : db.subscriptions (id : Int) = none
  · -- nobody was handed this id: the log is parked
    refine ⟨_, Projector.applyOrPark_eq_ok.mpr (.inr ⟨_, drop_of_error (skip_unknown hid hnone),
      isDate_unix ht, rfl⟩), ?_⟩
    unfold Db.parkOnce
    split
    · exact hidle ⟨rfl, rfl, rfl, rfl, rfl, rfl⟩ (fun _ => .inl rfl) rfl
    · exact hidle ⟨rfl, rfl, rfl, rfl, rfl, rfl⟩ (fun _ => .inl rfl) rfl
  obtain ⟨id', h1, h2, hid'⟩ := inv.noOtherRows _ hnone
  obtain rfl : id = id' := by omega
  obtain ⟨row, hrow, hshows⟩ := inv.rows id h1 h2
  have hrow64 : db.subscriptions (int64 in_.onchainSubscriptionId) = some row := by
    rw [int64_small hid]
    exact hrow
  have hproject : ∀ {n db'}, insertSubscriptionChargeSkip in_ db = .ok (n, db') →
      S.Projects b.logs.length ⟨t, .subscriptionChargeSkipped id a outcome⟩ db db' :=
    fun h => .of_apply (drop_eq_ok.mpr ⟨_, h⟩)
  cases hfresh : in_.fresh? db row with
  | none =>
      refine ⟨db, hproject (insertSubscriptionChargeSkip_eq_ok.mpr ⟨int4_small hid, isDate_unix ht,
        row, hrow64, .inl ⟨hfresh, rfl, rfl⟩⟩), ?_⟩
      exact hidle ⟨rfl, rfl, rfl, rfl, rfl, rfl⟩ (fun _ => .inl rfl) rfl
  | some r =>
      obtain ⟨hold, hfailed, hnumber⟩ := fresh?_eq_some inv.attempts hfresh
      have hroom : r.attemptNumber ≤ MAX_INT4 := by omega
      cases hpayment : in_.isPaymentFailure with
      | false =>
          refine ⟨db.putCharge a r, hproject (insertSubscriptionChargeSkip_eq_ok.mpr
            ⟨int4_small hid, isDate_unix ht, row, hrow64, .inr ⟨r, hfresh, hroom, rfl,
              .inl ⟨hpayment, rfl⟩⟩⟩), ?_⟩
          exact hidle ⟨rfl, rfl, rfl, rfl, rfl, rfl⟩ (attempts_put hold hfailed hnumber rfl) rfl
      | true =>
          obtain ⟨e, hlogged, hperiod, hstatus⟩ := hshows.enrolment
          have hretries := hstatus ▸ e.status_retries _ row.retryCount _
          have hcounted : row.retryCount ≤ b.logs.length :=
            Nat.le_trans hshows.retries.1 (failures_le id b.logs)
          have hbackoff := retryBackoff_bounds (row.retryCount + 1)
          have htime : in_.blockTimestamp = t.toNat := unix_of_le ht
          have hflaggable : row.Flaggable in_.blockTimestamp := by
            intro _
            rw [htime]
            exact ⟨by omega, isDate_of_le (by omega) (by omega)⟩
          refine ⟨db.recordFailure in_ row r, hproject (insertSubscriptionChargeSkip_eq_ok.mpr
            ⟨int4_small hid, isDate_unix ht, row, hrow64, .inr ⟨r, hfresh, hroom, rfl,
              .inr ⟨hpayment, hflaggable, rfl⟩⟩⟩), ?_⟩
          unfold Db.recordFailure Db.flagAtRisk
          split
          next hflag =>
            have hlive : (b.subscriptions id).cancelled = false := by
              rw [hretries] at hflag
              simpa using hflag
            refine inv.oneRow hlogs rfl rfl (fun i _ => ⟨rfl, hcount i⟩) hnext
              (fun i _ => congrFun hsubs i) (by rw [hsubs]; exact ⟨rfl, rfl⟩) hused ?_
              (attempts_put hold hfailed hnumber rfl) h1 h2
              ⟨row.flag in_.blockTimestamp, ?_, ?_⟩ fun i hi => ?_
            · exact ⟨rfl, rfl, rfl, rfl, sameLedger_failure.charged, sameLedger_failure.created⟩
            · rw [int64_small hid]
              exact Function.update_self _ _ _
            · have hcharges : charges id b'.logs = charges id b.logs := by
                rw [hlogs, charges_concat]
                exact List.append_nil _
              refine hshows.move (congrFun hsubs id)
                ⟨⟨rfl, rfl⟩, ⟨rfl, rfl⟩, ⟨rfl, rfl⟩, ⟨rfl, rfl⟩⟩ hshows.due
                ⟨e, hlogged.mono (hlogs ▸ List.subset_append_left _ _), ?_, ?_⟩ ⟨?_, ?_⟩
              · rw [hcharges]
                exact hperiod
              · rw [hcharges, hlive]
                simp [Enrolment.status, SubscriptionRow.flag]
              · rw [hlogs, failures_concat]
                have hpays : isPaymentFailure (Billing.outcomeCode outcome) = true := hpayment
                simp only [countFailure, hpays, and_true, if_true]
                exact Nat.succ_le_succ hshows.retries.1
              · intro hzero
                cases hzero
            · rw [int64_small hid]
              exact Function.update_of_ne hi _ _
          next =>
            exact hidle sameLedger_failure (attempts_put hold hfailed hnumber rfl) rfl

end Strimz.SubscriptionMirror
