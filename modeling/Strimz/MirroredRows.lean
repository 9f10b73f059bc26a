import Strimz.InFlight
import Strimz.SubscriptionMirror

/-!
# One log after the other

The invariant behind `Mirrors`, and what every kind of log makes of it: logs about no
subscription, enrolments, cancellations, skips, skipped periods and charges. Each log is shown
to project, or to be parked, and to leave the tables as the book it leaves.
-/

namespace Strimz.SubscriptionMirror

open Tx Subscriptions Indexer InFlight

variable {S : Setup} {db₀ db db' : Db} {b b' : Book} {l : Subscriptions.Log} {id i : Nat}
  {row row' : SubscriptionRow} {a : Bytes32} {x : Settled}

/-! ## Reading an extended log -/

theorem failures_concat (id : Nat) (logs : List Subscriptions.Log) (l : Subscriptions.Log) :
    failures id (logs ++ [l]) = countFailure id (failures id logs) l := by
  rw [failures, List.foldl_append]
  rfl

theorem charges_concat (id : Nat) (logs : List Subscriptions.Log) (l : Subscriptions.Log) :
    charges id (logs ++ [l]) = charges id logs ++ (chargeOf id l).toList := by
  rw [charges, List.filterMap_append, List.filterMap_cons, List.filterMap_nil]
  cases chargeOf id l <;> rfl

theorem failures_le (id : Nat) (logs : List Subscriptions.Log) :
    failures id logs ≤ logs.length := by
  induction logs using List.reverseRecOn with
  | nil => exact Nat.le_refl 0
  | append_singleton logs l ih =>
      rw [failures_concat, List.length_append, List.length_singleton]
      unfold countFailure
      split
      · split <;> omega
      · split <;> omega
      · omega

theorem Enrolment.Logged.mono {e : Enrolment} {logs logs' : List Subscriptions.Log}
    (h : e.Logged id logs) (hsub : logs ⊆ logs') : e.Logged id logs' := by
  obtain ⟨l, hl, henrol⟩ := h
  exact ⟨l, hsub hl, henrol⟩

/-! ## The invariant -/

structure Inv (S : Setup) (db₀ : Db) (b : Book) (db : Db) : Prop extends Mirrors S db₀ b db where
  merchants : db.merchants = db₀.merchants
  attempts : ∀ a row, db.charges a = some row → row.attemptNumber ≤ b.logs.length
  payments : ∀ a, db.chargePayments a ≠ none → ∃ l ∈ b.logs, ∃ x, settledOf l = some x ∧ x.attempt = a
  enrolments : ∀ h, db.enrolments h ≠ none → db₀.enrolments h ≠ none ∨
    ∃ n l, b.logs[n]? = some l ∧ createdOf l ≠ none ∧ (S.places n).txHash = h
  /-- What the log settles is of a subscription, under an attempt id that is burned. -/
  settled : ∀ l ∈ b.logs, ∀ x, settledOf l = some x → b.usedAttempts x.attempt = true ∧
    1 ≤ x.id ∧ x.id < b.nextSubscriptionId
  first : 1 ≤ b.nextSubscriptionId
  few : b.nextSubscriptionId ≤ b.logs.length + 1
  unborn : ∀ id, (b.subscriptions id).payer ≠ 0 → 1 ≤ id ∧ id < b.nextSubscriptionId

theorem Inv.initial (hfresh : S.Fresh db₀) (hnext : b.nextSubscriptionId = 1)
    (hsubs : ∀ id, (b.subscriptions id).payer = 0) (hlogs : b.logs = []) : Inv S db₀ b db₀ where
  rows id h1 h2 := by omega
  noOtherRows i h := absurd (hfresh.subscriptions i) h
  charges n l h := by rw [hlogs] at h; cases h
  noOtherCharges a row h := by rw [hfresh.charges] at h; cases h
  noOtherTransactions k h := absurd rfl h
  chargedEvents := by simp [hlogs]
  createdEvents := by simp [hlogs]
  merchants := rfl
  attempts a row h := by rw [hfresh.charges] at h; cases h
  payments a h := absurd (hfresh.chargePayments a) h
  enrolments _ henrol := .inl henrol
  settled l h := by rw [hlogs] at h; cases h
  first := hnext.ge
  few := by rw [hnext, hlogs]; exact Nat.le_refl 1
  unborn id h := absurd (hsubs id) h

/-- An attempt that is not burned is in no charge of the log. -/
theorem Inv.unburned (inv : Inv S db₀ b db) (ha : b.usedAttempts a = false) :
    ∀ l ∈ b.logs, ∀ x, settledOf l = some x → x.attempt ≠ a := by
  intro l hl x hx heq
  have hused := (inv.settled l hl x hx).1
  rw [heq, ha] at hused
  cases hused

/-- An attempt that is in no charge of the log can only have failed, and nothing is paid for it. -/
theorem Inv.unpaid (inv : Inv S db₀ b db)
    (hne : ∀ l ∈ b.logs, ∀ x, settledOf l = some x → x.attempt ≠ a) :
    (∀ r, db.charges a = some r → r.status = .failed) ∧ db.chargePayments a = none := by
  refine ⟨fun r hr => ?_, ?_⟩
  · by_contra hstatus
    obtain ⟨l, hl, x, hx, hxa⟩ := inv.noOtherCharges a r hr hstatus
    exact hne l hl x hx hxa
  · by_contra hpaid
    obtain ⟨l, hl, x, hx, hxa⟩ := inv.payments a hpaid
    exact hne l hl x hx hxa

/-- The row of a subscription that is not what the log is about. -/
theorem ShowsSubscription.carry (h : ShowsSubscription S db₀ b i row)
    (hsub : b'.subscriptions i = b.subscriptions i) (hlogs : b'.logs = b.logs ++ [l])
    (hcharge : chargeOf i l = none) (hfail : ∀ n, n ≤ countFailure i n l) :
    ShowsSubscription S db₀ b' i row := by
  have hcharges : charges i b'.logs = charges i b.logs := by
    rw [hlogs, charges_concat, hcharge]
    exact List.append_nil _
  obtain ⟨e, hlogged, hperiod, hstatus⟩ := h.enrolment
  exact
    { merchant := hsub ▸ h.merchant
      payer := hsub ▸ h.payer
      amount := hsub ▸ h.amount
      currency := hsub ▸ h.currency
      due := hsub ▸ h.due
      enrolment := by
        refine ⟨e, hlogged.mono (hlogs ▸ List.subset_append_left _ _), ?_, ?_⟩
        · rw [hcharges, hsub]
          exact hperiod
        · rw [hcharges, hsub]
          exact hstatus
      retries := by
        refine ⟨?_, h.retries.2⟩
        rw [hlogs, failures_concat]
        exact Nat.le_trans h.retries.1 (hfail _) }

/-- What a log that neither enrols nor charges may do to the attempts. -/
def Attempts (n : Nat) (db db' : Db) : Prop :=
  ∀ a, db'.charges a = db.charges a ∨
    (∀ r, db.charges a = some r → r.status = .failed) ∧
      ∃ r', db'.charges a = some r' ∧ r'.status = .failed ∧ r'.attemptNumber ≤ n

/-- What it leaves of the rest. -/
structure SameLedger (db db' : Db) : Prop where
  merchants : db'.merchants = db.merchants
  transactions : db'.transactions = db.transactions
  chargePayments : db'.chargePayments = db.chargePayments
  enrolments : db'.enrolments = db.enrolments
  charged : refsOf .subscription_charged db' = refsOf .subscription_charged db
  created : refsOf .subscription_created db' = refsOf .subscription_created db

/-- A log that neither enrols nor charges: only the rows are left to show. -/
theorem Inv.uncharged (inv : Inv S db₀ b db) (hlogs : b'.logs = b.logs ++ [l])
    (hsettled : settledOf l = none) (hcreated : createdOf l = none)
    (hnext : b'.nextSubscriptionId = b.nextSubscriptionId)
    (hsubs : ∀ id, (b'.subscriptions id).payer = (b.subscriptions id).payer ∧
      (b'.subscriptions id).interval = (b.subscriptions id).interval)
    (hused : ∀ a, b.usedAttempts a = true → b'.usedAttempts a = true)
    (hledger : SameLedger db db') (hattempts : Attempts (b.logs.length + 1) db db')
    (hrows : ∀ id, 1 ≤ id → id < b.nextSubscriptionId →
      ∃ row, db'.subscriptions (id : Int) = some row ∧ ShowsSubscription S db₀ b' id row)
    (hnoRows : ∀ i, db'.subscriptions i ≠ none → db.subscriptions i ≠ none) :
    Inv S db₀ b' db' := by
  have hold : ∀ {l'}, l' ∈ b'.logs → ∀ {x}, settledOf l' = some x → l' ∈ b.logs := by
    intro l' hl' x hx
    rw [hlogs] at hl'
    rcases List.mem_append.mp hl' with hl' | hl'
    · exact hl'
    · rw [List.mem_singleton.mp hl', hsettled] at hx
      cases hx
  have hat : ∀ {n : Nat} {l'}, b.logs[n]? = some l' → b'.logs[n]? = some l' := by
    intro n l' h
    rw [hlogs, List.getElem?_append_left (List.getElem?_eq_some_iff.mp h).1, h]
  have hmem : ∀ {l'}, l' ∈ b.logs → l' ∈ b'.logs := fun h => hlogs ▸ List.mem_append_left _ h
  exact
    { rows := hnext ▸ hrows
      noOtherRows := fun i hi => hnext ▸ inv.noOtherRows i (hnoRows i hi)
      charges := by
        intro n l' h x hx
        rw [hlogs] at h
        rcases getElem?_concat_cases h with h | ⟨-, rfl⟩
        · obtain ⟨⟨r, hr, hstatus, hstart, hend, hamount⟩, htx, hpayment⟩ := inv.charges n l' h x hx
          obtain ⟨tx, htx, h1, h2, h3, h4, h5, h6, h7, hpayer, h8, h9⟩ := htx
          refine ⟨⟨r, ?_, hstatus, ?_, hend, hamount⟩, ⟨tx, ?_, h1, h2, h3, h4, h5, h6, h7, ?_, h8,
            h9⟩, ?_⟩
          · rcases hattempts x.attempt with hsame | ⟨hfailed, -⟩
            · rw [hsame, hr]
            · rw [hfailed r hr] at hstatus
              cases hstatus
          · rw [(hsubs x.id).2]
            exact hstart
          · rw [hledger.transactions, htx]
          · rw [(hsubs x.id).1]
            exact hpayer
          · rw [hledger.chargePayments, hpayment]
        · rw [hsettled] at hx
          cases hx
      noOtherCharges := by
        intro a r hr hstatus
        rcases hattempts a with hsame | ⟨-, r', hr', hfailed, -⟩
        · obtain ⟨l', hl', x, hx⟩ := inv.noOtherCharges a r (hsame ▸ hr) hstatus
          exact ⟨l', hmem hl', x, hx⟩
        · cases hr'.symm.trans hr
          exact absurd hfailed hstatus
      noOtherTransactions := by
        intro k hk
        rw [hledger.transactions] at hk
        obtain ⟨n, l', h, hx⟩ := inv.noOtherTransactions k hk
        exact ⟨n, l', hat h, hx⟩
      chargedEvents := by
        rw [hledger.charged, inv.chargedEvents, hlogs, List.mapIdx_concat, List.flatten_concat,
          Setup.chargedRef, hsettled]
        simp
      createdEvents := by
        rw [hledger.created, inv.createdEvents, hlogs, List.flatMap_append]
        simp [createdRef, hcreated]
      merchants := hledger.merchants.trans inv.merchants
      attempts := by
        intro a r hr
        rw [hlogs, List.length_append, List.length_singleton]
        rcases hattempts a with hsame | ⟨-, r', hr', -, hle⟩
        · exact Nat.le_succ_of_le (inv.attempts a r (hsame ▸ hr))
        · cases hr'.symm.trans hr
          exact hle
      payments := by
        intro a ha
        rw [hledger.chargePayments] at ha
        obtain ⟨l', hl', x, hx⟩ := inv.payments a ha
        exact ⟨l', hmem hl', x, hx⟩
      enrolments := by
        intro h henrol
        rw [hledger.enrolments] at henrol
        rcases inv.enrolments h henrol with h' | ⟨n, l', h', hrest⟩
        · exact .inl h'
        · exact .inr ⟨n, l', hat h', hrest⟩
      settled := by
        intro l' hl' x hx
        obtain ⟨hburned, hid⟩ := inv.settled l' (hold hl' hx) x hx
        exact ⟨hused _ hburned, hnext ▸ hid⟩
      first := hnext ▸ inv.first
      few := by
        rw [hnext, hlogs, List.length_append]
        exact Nat.le_trans inv.few (by omega)
      unborn := fun id hid => hnext ▸ inv.unborn id ((hsubs id).1 ▸ hid) }

end Strimz.SubscriptionMirror
