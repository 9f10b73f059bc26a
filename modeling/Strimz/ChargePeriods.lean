import Strimz.Periods
import Strimz.ReferenceToken
import Strimz.SubscriptionSteps

/-!
# Charged outcomes pay for disjoint periods

A subscription's charges, read off the log, are `Periods.Anchored` on the first
charge time its enrolment set: each pays for the period its time lies in, and no
period is paid for twice. `nextChargeAt` is the start of the period after the
last one paid for; that is the invariant a row of a batch preserves, and the
attempt ids play no part in it.
-/

namespace Strimz.Subscriptions

open Tx Runs Periods

/-! ## The invariant -/

/-- What billing depends on: a subscription's interval and due time, and what the
log says of its charges and enrolments. -/
structure Account where
  interval : Uint32
  nextChargeAt : Uint64
  charges : List (Nat × Nat)
  enrolments : List (Uint32 × Uint64)

def Storage.account (s : Storage) (id : Nat) : Account :=
  ⟨(s.subscriptions id).interval, (s.subscriptions id).nextChargeAt, s.charges id, s.enrolments id⟩

def blankAccount : Account := ⟨0, 0, [], []⟩

/-- The charges of an enrolled subscription are anchored on its first charge time
`F`, and the `n`-th period is due. -/
def Account.Anchored (a : Account) (F : Uint64) (ks : List Nat) (n : Nat) : Prop :=
  a.enrolments = [(a.interval, F)] ∧ MIN_INTERVAL ≤ a.interval ∧
    Periods.Anchored F.toNat a.interval.toNat ks a.charges n ∧
    a.nextChargeAt.toNat = F.toNat + n * a.interval.toNat

/-- Every subscription handed out is anchored, and every other id is blank. -/
def BillingInv (s : Storage) : Prop :=
  ∀ id, (id < s.nextSubscriptionId ∧ ∃ F ks n, (s.account id).Anchored F ks n) ∨
    s.account id = blankAccount

section Step

variable {ξ δ : Type} {O : Outside ξ δ} {this : Address} {msg : Msg} {s s' : Storage}

theorem BillingInv.of_same (inv : BillingInv s) (hnext : s'.nextSubscriptionId = s.nextSubscriptionId)
    (h : ∀ id, s'.account id = s.account id) : BillingInv s' := by
  intro id
  rw [h, hnext]
  exact inv id

theorem SameBook.account (h : SameBook s s') (id : Nat) : s'.account id = s.account id := by
  rw [Storage.account, Storage.account, h.subscriptions, h.charges, h.enrolments]

/-- Rewriting a subscription with its interval and due time as they were. -/
theorem account_putSubscription {id' : Nat} {sub : Subscription} (id : Nat)
    (hinterval : sub.interval = (s.subscriptions id').interval)
    (hnext : sub.nextChargeAt = (s.subscriptions id').nextChargeAt) :
    (s.putSubscription id' sub).account id = s.account id := by
  by_cases hid : id = id'
  · subst hid
    simp [Storage.account, hinterval, hnext]
  · simp [Storage.account, hid]

theorem account_log {t : Uint64} {e : Event} (id : Nat) (hcharge : chargeOf id ⟨t, e⟩ = none)
    (henrol : enrolmentOf id ⟨t, e⟩ = none) : (s.log t e).account id = s.account id := by
  simp [Storage.account, hcharge, henrol]

theorem BillingInv.enrolled {payer : Address} {p : Terms} (inv : BillingInv s)
    (hp : Checked msg p) : BillingInv (s.enrolled msg payer p) := by
  intro id
  obtain ⟨hsub, hcharges, henrol⟩ := enrolled_views s msg payer p id
  by_cases hid : id = s.nextSubscriptionId
  · have hblank := (inv id).resolve_left fun h => Nat.lt_irrefl _ (hid ▸ h.1)
    simp only [Storage.account, blankAccount, Account.mk.injEq] at hblank
    refine Or.inl ⟨hid ▸ Nat.lt_succ_self _, firstChargeAt msg p, [], 0, ?_⟩
    rw [Storage.account, hsub, hcharges, henrol, hblank.2.2.1, hblank.2.2.2, if_pos hid, if_pos hid]
    exact ⟨rfl, BitVec.not_lt.mp hp.interval, Periods.Anchored.nil _ _, by simp [newSubscription]⟩
  · have haccount : (s.enrolled msg payer p).account id = s.account id := by
      rw [Storage.account, hsub, hcharges, henrol, if_neg hid, if_neg hid, List.append_nil]
      rfl
    rw [haccount]
    exact (inv id).imp_left fun h => ⟨Nat.lt_succ_of_lt h.1, h.2⟩

/-- A settled row pays for the period its time lies in and makes the next one due. -/
theorem Account.Anchored.paid {a : Account} {F : Uint64} {ks : List Nat} {n t : Nat}
    (h : a.Anchored F ks n) (hdue : a.nextChargeAt.toNat ≤ t) :
    let q := (t - a.nextChargeAt.toNat) / a.interval.toNat
    let next := a.nextChargeAt.toNat + q * a.interval.toNat + a.interval.toNat
    Periods.Anchored F.toNat a.interval.toNat (ks ++ [n + q]) (a.charges ++ [(t, next)])
        (n + q + 1) ∧
      next = F.toNat + (n + q + 1) * a.interval.toNat := by
  obtain ⟨-, hmin, hanchored, hnext⟩ := h
  have hpos : 0 < a.interval.toNat :=
    Nat.lt_of_lt_of_le (by decide) (BitVec.le_def.mp hmin)
  rw [hnext] at hdue
  refine ⟨?_, ?_⟩
  · rw [hnext]
    exact hanchored.append hpos hdue
  · rw [hnext]
    ring

theorem BillingInv.row {id : Nat} {attempt : Bytes32} {outcome : ChargeOutcome}
    {c c' : Ctx Storage ξ} (inv : BillingInv c.storage) (ht : msg.timestamp.toNat < 2 ^ 63)
    (hrow : Row O this msg id attempt c c' outcome) : BillingInv c'.storage := by
  cases hrow with
  | skipped _ _ h =>
      subst h
      exact inv.of_same rfl fun i => account_log i rfl rfl
  | failed m _ h =>
      subst h
      exact inv.of_same rfl fun i => account_log i rfl rfl
  | charged m hdue x _ h =>
      subst h
      intro i
      obtain ⟨hsub, hcharges, henrol⟩ := advanced_views (c.storage.useAttempt attempt) msg id attempt
        (c.storage.subscriptions id) (feeOf (c.storage.subscriptions id).amount m.feeBps)
        ((c.storage.subscriptions id).amount - feeOf (c.storage.subscriptions id).amount m.feeBps)
        (BitVec.ofNat 64 (paidPeriodStart msg (c.storage.subscriptions id))) i
      by_cases hid : i = id
      · subst hid
        -- the row passed its skips, so the id is one handed out
        rcases inv i with ⟨hlt, F, ks, n, hanchored⟩ | hblank
        · obtain ⟨hpaid, hnext⟩ := hanchored.paid (BitVec.le_def.mp hdue.due)
          rw [Storage.account, hsub, hcharges, henrol, if_pos rfl, if_pos rfl,
            toNat_advanced hdue.due ht]
          exact Or.inl ⟨hlt, F, _, _, hanchored.1, hanchored.2.1, hpaid,
            (toNat_advanced hdue.due ht).trans hnext⟩
        · exact absurd (congrArg Account.interval hblank) hdue.interval
      · rw [Storage.account, hsub, hcharges, henrol, if_neg hid, if_neg hid, List.append_nil]
        exact inv i

theorem BillingInv.rows {rows : List (Nat × Bytes32)} {outcomes : List ChargeOutcome}
    {c c' : Ctx Storage ξ} (inv : BillingInv c.storage) (ht : msg.timestamp.toNat < 2 ^ 63)
    (hrows : Rows O this msg rows outcomes c c') : BillingInv c'.storage := by
  induction hrows with
  | nil => exact inv
  | cons hrow _ ih => exact ih (inv.row ht hrow)

theorem BillingInv.step {c : Ctx Storage ξ} {l : Label ξ} (inv : BillingInv c.storage)
    (ht : l.time < 2 ^ 63) : BillingInv (Subscriptions.step O this c l).storage := by
  cases step_change O this c l with
  | config h => exact inv.of_same h.nextId h.account
  | enrolled payer p hp used _ h =>
      rw [h]
      exact BillingInv.enrolled (s := { c.storage with usedIntentNonces := used })
        (inv.of_same rfl fun _ => rfl) hp
  | partyCancelled id m _ _ _ _ _ h =>
      rw [h]
      exact inv.of_same rfl fun i => (account_log i rfl rfl).trans (account_putSubscription i rfl rfl)
  | operatorCancelled id m _ _ _ _ _ _ h =>
      rw [h]
      exact inv.of_same rfl fun i => (account_log i rfl rfl).trans (account_putSubscription i rfl rfl)
  | reinstated id _ _ _ _ _ h =>
      rw [h]
      exact inv.of_same rfl fun i => (account_log i rfl rfl).trans (account_putSubscription i rfl rfl)
  | charged rows outcomes c₁ hrows h =>
      rw [h]
      have hentered : BillingInv (c.storage.setEntered true) := inv.of_same rfl fun _ => rfl
      have hrows := BillingInv.rows (c := ⟨c.storage.setEntered true, c.ext⟩) hentered ht hrows
      exact hrows.of_same rfl fun _ => rfl

/-! ## Outcomes and the log -/

/-- A row adds a charge to the log exactly when its outcome is `charged`, at the
time of its block. -/
theorem Row.charges {id : Nat} {attempt : Bytes32} {outcome : ChargeOutcome} {c c' : Ctx Storage ξ}
    (hrow : Row O this msg id attempt c c' outcome) (i : Nat) :
    ∃ new : List (Nat × Nat), c'.storage.charges i = c.storage.charges i ++ new ∧
      new.length = (if (id, outcome) = (i, .charged) then 1 else 0) ∧
      ∀ e ∈ new, e.1 = msg.timestamp.toNat := by
  cases hrow with
  | skipped hcharged _ h =>
      subst h
      exact ⟨[], by simp [chargeOf], by simp [hcharged], by simp⟩
  | failed m _ h =>
      subst h
      exact ⟨[], by simp [chargeOf], by simp, by simp⟩
  | charged m _ x _ h =>
      subst h
      refine ⟨_, (advanced_views ..).2.1, ?_, ?_⟩
      · by_cases hid : i = id
        · simp [hid]
        · simp [hid, Ne.symm hid]
      · by_cases hid : i = id <;> simp [hid]

theorem Rows.charges {rows : List (Nat × Bytes32)} {outcomes : List ChargeOutcome}
    {c c' : Ctx Storage ξ} (hrows : Rows O this msg rows outcomes c c') (i : Nat) :
    ∃ new : List (Nat × Nat), c'.storage.charges i = c.storage.charges i ++ new ∧
      new.length = ((rows.map Prod.fst).zip outcomes).count (i, .charged) ∧
      ∀ e ∈ new, e.1 = msg.timestamp.toNat := by
  induction hrows with
  | nil => exact ⟨[], by simp, by simp, by simp⟩
  | cons hrow _ ih =>
      obtain ⟨head, hhead, hlen, htime⟩ := hrow.charges i
      obtain ⟨tail, htail, hlen', htime'⟩ := ih
      refine ⟨head ++ tail, by rw [htail, hhead, List.append_assoc], ?_, ?_⟩
      · rw [List.length_append, hlen, hlen', List.map_cons, List.zip_cons_cons, List.count_cons,
          Nat.add_comm]
        simp
      · intro e he
        exact (List.mem_append.mp he).elim (htime e) (htime' e)

/-- The `charged` outcomes a batch returns for a subscription are the charges it
adds to the log. -/
theorem batchCharge_charges {ids : List Nat} {attempts : List Bytes32}
    {outcomes : List ChargeOutcome} {c c' : Ctx Storage ξ}
    (h : batchCharge O this msg ids attempts c = .ok (outcomes, c')) (i : Nat) :
    ∃ new : List (Nat × Nat), c'.storage.charges i = c.storage.charges i ++ new ∧
      new.length = (ids.zip outcomes).count (i, .charged) ∧
      ∀ e ∈ new, e.1 = msg.timestamp.toNat := by
  obtain ⟨-, -, -, hlen, -, c₁, hrows, rfl⟩ := batchCharge_eq_ok.mp h
  have hids : (ids.zip attempts).map Prod.fst = ids := List.map_fst_zip hlen.le
  obtain ⟨new, hnew, hcount, htime⟩ := (chargeRows_ok hrows).charges i
  rw [hids] at hcount
  exact ⟨new, hnew, hcount, htime⟩

end Step

/-! ## Runs -/

theorem BillingInv.deployed (hasRole : RoleTable) (registry feeCollector tokenWhitelist : Address) :
    BillingInv (deployed hasRole registry feeCollector tokenWhitelist) :=
  fun _ => Or.inr rfl

/-- In every run below 2^63, whatever the token does and whatever attempt ids the
charger supplies: a subscription has no charges at all, or its charges pay, each
within its period, for pairwise disjoint periods on the anchor `F` and interval
`I` it was enrolled with, and `nextChargeAt` is the start of the period after the
last one paid for; any window of time holds at most `(b - a) / I + 2` of them.
The charges are the `charged` outcomes that `batchCharge` returns. -/
theorem charged_outcomes_pay_for_disjoint_periods {ξ δ : Type} (O : Outside ξ δ) (this : Address)
    (hasRole : RoleTable) (registry feeCollector tokenWhitelist : Address) (x : ξ)
    (ls : List (Label ξ)) (hclock : ∀ l ∈ ls, l.time < 2 ^ 63) (id : Nat) :
    let c := exec (step O this) ⟨deployed hasRole registry feeCollector tokenWhitelist, x⟩ ls
    (c.storage.charges id = [] ∧ c.storage.enrolments id = [] ∨
      ∃ I F ks n, c.storage.enrolments id = [(I, F)] ∧ (c.storage.subscriptions id).interval = I ∧
        Periods.Anchored F.toNat I.toNat ks (c.storage.charges id) n ∧
        (c.storage.subscriptions id).nextChargeAt.toNat = F.toNat + n * I.toNat ∧
        ∀ a b, ((c.storage.charges id).filter fun e => a ≤ e.1 ∧ e.1 ≤ b).length ≤
          (b - a) / I.toNat + 2) ∧
    ∀ msg ids attempts outcomes c', batchCharge O this msg ids attempts c = .ok (outcomes, c') →
      ∃ new : List (Nat × Nat), c'.storage.charges id = c.storage.charges id ++ new ∧
        new.length = (ids.zip outcomes).count (id, .charged) ∧
        ∀ e ∈ new, e.1 = msg.timestamp.toNat := by
  intro c
  have inv : BillingInv c.storage :=
    exec_invariant (P := fun c : Ctx Storage ξ => BillingInv c.storage)
      (BillingInv.deployed hasRole registry feeCollector tokenWhitelist)
      fun _ l hl inv => inv.step (hclock l hl)
  refine ⟨?_, fun msg ids attempts outcomes c' h => batchCharge_charges h id⟩
  rcases inv id with ⟨-, F, ks, n, henrol, hmin, hanchored, hnext⟩ | hblank
  · have hpos : 0 < (c.storage.subscriptions id).interval.toNat :=
      Nat.lt_of_lt_of_le (by decide) (BitVec.le_def.mp hmin)
    exact Or.inr ⟨_, F, ks, n, henrol, rfl, hanchored, hnext, hanchored.count_le hpos⟩
  · exact Or.inl ⟨congrArg Account.charges hblank, congrArg Account.enrolments hblank⟩

/-- The payer subscribes at 10, is charged at once and again in the fourth period;
the second batch names the subscription twice. -/
def sampleCharges : List (Label (Peers ReferenceToken.State)) :=
  [⟨⟨300, 10⟩, .createSubscription ⟨1, 200, 1000, 3600, 0, 0⟩⟩,
   ⟨⟨1, 10⟩, .batchCharge [1] [5]⟩,
   ⟨⟨1, 10815⟩, .batchCharge [1, 1] [6, 7]⟩]

theorem sampleCharges_anchored :
    let c := exec (step (ReferenceToken.outside ReferenceToken.silent) 101)
      ⟨deployed ReferenceToken.sampleRoles 103 102 104, ReferenceToken.samplePeers⟩ sampleCharges
    c.storage.charges 1 = [(10, 3610), (10815, 14410)] ∧
      ∃ ks n, Periods.Anchored 10 3600 ks (c.storage.charges 1) n := by
  intro c
  have hcharges : c.storage.charges 1 = [(10, 3610), (10815, 14410)] := by decide
  have henrol : c.storage.enrolments 1 = [(3600, 10)] := by decide
  have h := charged_outcomes_pay_for_disjoint_periods
    (ReferenceToken.outside ReferenceToken.silent) 101 ReferenceToken.sampleRoles 103 102 104
    ReferenceToken.samplePeers sampleCharges (by decide) 1
  refine ⟨hcharges, ?_⟩
  rcases h.1 with ⟨hnone, -⟩ | ⟨I, F, ks, n, henrol', -, hanchored, -⟩
  · cases hcharges.symm.trans hnone
  · cases henrol.symm.trans henrol'
    exact ⟨ks, n, hanchored⟩

end Strimz.Subscriptions
