import Strimz.Settlement
import Strimz.ReferenceToken
import Strimz.SubscriptionSteps

/-!
# A batch never reverts and its rows are exact

What `batchCharge` promises its scheduler, over the deployed outside: as long as
the contract is not paused, a charger's batch goes through whatever the token does
with the transfers, one outcome per row, and each row either settles its
subscription exactly or leaves every balance, allowance and due time alone.

Progress rests on the skips of `_charge`: what is left to revert past them is
excluded by the fee cap (`netAmount`), the minimum interval (the division) and the
clock (the cast of the paid period's start).
-/

namespace Strimz.Subscriptions

open Tx Runs

/-! ## Between transactions -/

/-- The lock is free, and every subscription has an interval to divide by. -/
structure Idle (s : Storage) : Prop where
  unlocked : s.entered = false
  interval : ∀ id, (s.subscriptions id).payer ≠ 0 → (s.subscriptions id).interval ≠ 0

section Idle

variable {ξ δ : Type} {O : Outside ξ δ} {this : Address} {msg : Msg} {c c' : Ctx Storage ξ}

theorem guarded_unlocks {α : Type} {body : Call ξ α} {a : α}
    (h : nonReentrant body c = .ok (a, c')) : c'.storage.entered = false := by
  obtain ⟨-, c₁, -, rfl⟩ := guarded_eq_ok.mp h
  rfl

theorem enrol_entered {payer : Address} {p : Terms} {id : Nat}
    (h : enrol msg payer p c = .ok (id, c')) : c'.storage.entered = c.storage.entered := by
  obtain ⟨-, -, -, rfl⟩ := enrol_eq_ok.mp h
  rfl

theorem setDependency_entered {name : String} {write : Address → Storage → Storage} {v : Address}
    (hwrite : ∀ s, (write v s).entered = s.entered)
    (h : setDependency msg name write v c = .ok ((), c')) :
    c'.storage.entered = c.storage.entered := by
  simp only [setDependency, emit, bind_eq_ok, sload_eq_ok, onlyRole_eq_ok, whenPaused_eq_ok,
    revertIf_eq_ok, sstore_eq_ok, Prod.mk.injEq, existsAndEq, exists_const, true_and, and_true] at h
  obtain ⟨-, -, -, rfl⟩ := h
  exact hwrite _

/-- No transaction leaves the lock taken. -/
theorem step_unlocked (l : Label ξ) (hc : c.storage.entered = false) :
    (step O this c l).storage.entered = false := by
  refine commit_cases (P := fun c : Ctx Storage ξ => c.storage.entered = false) hc
    fun _ c' h => ?_
  cases haction : l.action with
  | createSubscription p =>
      simp only [haction, dispatch, bind_eq_ok, pure_eq_ok, Prod.mk.injEq, existsAndEq, true_and,
        and_true] at h
      obtain ⟨id, h⟩ := h
      obtain ⟨-, -, -, -, h⟩ := createSubscription_eq_ok.mp h
      exact (enrol_entered h).trans hc
  | permitAndCreateSubscription p nonce permitData permitSig intentSig =>
      simp only [haction, dispatch, bind_eq_ok, pure_eq_ok, Prod.mk.injEq, existsAndEq, true_and,
        and_true] at h
      obtain ⟨id, h⟩ := h
      obtain ⟨-, -, -, -, -, -, -, -, permit, x, -, -, h⟩ :=
        permitAndCreateSubscription_eq_ok.mp h
      exact (enrol_entered h).trans hc
  | cancel id =>
      rw [haction] at h
      obtain ⟨-, m, -, -, -, ⟨-, rfl⟩ | ⟨-, rfl⟩⟩ := cancel_eq_ok.mp h
      · exact hc
      · exact hc
  | reinstate id =>
      rw [haction] at h
      obtain ⟨-, -, -, -, rfl⟩ := reinstate_eq_ok.mp h
      exact hc
  | batchCharge ids attempts =>
      simp only [haction, dispatch, bind_eq_ok, pure_eq_ok, Prod.mk.injEq, existsAndEq, true_and,
        and_true] at h
      obtain ⟨outcomes, h⟩ := h
      obtain ⟨-, -, -, -, -, c₁, -, rfl⟩ := batchCharge_eq_ok.mp h
      rfl
  | settleCharge payer token collector merchantId feeAmount payout netAmount =>
      rw [haction] at h
      obtain ⟨-, x, -, rfl⟩ := settleCharge_ok h
      exact hc
  | pause =>
      simp only [haction, dispatch, pause, bind_eq_ok, sload_eq_ok, onlyRole_eq_ok,
        whenNotPaused_eq_ok, sstore_eq_ok, Prod.mk.injEq, existsAndEq, exists_const, true_and,
        and_true] at h
      obtain ⟨-, -, rfl⟩ := h
      exact hc
  | unpause =>
      simp only [haction, dispatch, unpause, bind_eq_ok, sload_eq_ok, onlyRole_eq_ok,
        whenPaused_eq_ok, sstore_eq_ok, Prod.mk.injEq, existsAndEq, exists_const, true_and,
        and_true] at h
      obtain ⟨-, -, rfl⟩ := h
      exact hc
  | setRegistry v =>
      simp only [haction, dispatch, setRegistry] at h
      exact (setDependency_entered (fun _ => rfl) h).trans hc
  | setFeeCollector v =>
      simp only [haction, dispatch, setFeeCollector] at h
      exact (setDependency_entered (fun _ => rfl) h).trans hc
  | setTokenWhitelist v =>
      simp only [haction, dispatch, setTokenWhitelist] at h
      exact (setDependency_entered (fun _ => rfl) h).trans hc
  | rescue token to_ amount =>
      simp only [haction, dispatch, rescue, bind_eq_ok, sload_eq_ok, onlyRole_eq_ok, Prod.mk.injEq,
        existsAndEq, exists_const, true_and] at h
      exact guarded_unlocks h.2
  | setRoles hasRole =>
      simp only [haction, dispatch, sstore_eq_ok, Prod.mk.injEq, true_and] at h
      subst h
      exact hc
  | external f =>
      simp only [haction, dispatch, modify_eq_ok, Prod.mk.injEq, true_and] at h
      subst h
      exact hc

/-- A row rewrites at most a due time. -/
theorem Row.subscriptions {id : Nat} {attempt : Bytes32} {outcome : ChargeOutcome}
    (h : Row O this msg id attempt c c' outcome) (i : Nat) :
    ∃ t, c'.storage.subscriptions i = { c.storage.subscriptions i with nextChargeAt := t } := by
  cases h with
  | skipped _ _ h => subst h; exact ⟨_, rfl⟩
  | failed _ _ h => subst h; exact ⟨_, rfl⟩
  | charged m hdue x _ h =>
      subst h
      rw [(advanced_views ..).1]
      split
      · rename_i hid
        subst hid
        exact ⟨_, rfl⟩
      · exact ⟨_, rfl⟩

theorem Rows.subscriptions {rows : List (Nat × Bytes32)} {outcomes : List ChargeOutcome}
    (h : Rows O this msg rows outcomes c c') (i : Nat) :
    ∃ t, c'.storage.subscriptions i = { c.storage.subscriptions i with nextChargeAt := t } := by
  induction h with
  | nil => exact ⟨_, rfl⟩
  | cons hrow _ ih =>
      obtain ⟨t, ht⟩ := hrow.subscriptions i
      obtain ⟨t', ht'⟩ := ih
      exact ⟨t', by rw [ht', ht]⟩

theorem Idle.step (inv : Idle c.storage) (l : Label ξ) :
    Idle (Subscriptions.step O this c l).storage := by
  refine ⟨step_unlocked l inv.unlocked, fun id => ?_⟩
  have hflag : ∀ i b (s : Storage),
      s.subscriptions = Function.update c.storage.subscriptions i
        { c.storage.subscriptions i with cancelled := b } →
      (s.subscriptions id).payer ≠ 0 → (s.subscriptions id).interval ≠ 0 := by
    intro i b s hs
    rw [hs]
    by_cases hid : id = i
    · subst hid
      rw [Function.update_self]
      exact inv.interval id
    · rw [Function.update_of_ne hid]
      exact inv.interval id
  cases step_change O this c l with
  | config h =>
      rw [h.subscriptions]
      exact inv.interval id
  | enrolled payer p hp used _ h =>
      rw [h, (enrolled_views ..).1]
      split
      · intro _ hzero
        have hzero : p.interval = 0 := hzero
        exact hp.interval (by rw [hzero]; decide)
      · exact inv.interval id
  | partyCancelled i m _ _ _ _ _ h => exact hflag i true _ (by rw [h]; rfl)
  | operatorCancelled i m _ _ _ _ _ _ h => exact hflag i true _ (by rw [h]; rfl)
  | reinstated i _ _ _ _ _ h => exact hflag i false _ (by rw [h]; rfl)
  | charged rows outcomes c₁ hrows h =>
      obtain ⟨t, ht⟩ := hrows.subscriptions id
      rw [h]
      show (c₁.storage.subscriptions id).payer ≠ 0 → (c₁.storage.subscriptions id).interval ≠ 0
      rw [ht]
      exact inv.interval id

theorem idle_runAt (hasRole : RoleTable) (registry feeCollector tokenWhitelist : Address) (x : ξ)
    (ls : List (Label ξ)) (n : Nat) :
    Idle (runAt O this hasRole registry feeCollector tokenWhitelist x ls n).storage :=
  stateAt_invariant (P := fun c : Ctx Storage ξ => Idle c.storage) (Nat.zero_le n)
    ⟨rfl, fun _ h => absurd rfl h⟩ fun _ l _ inv => inv.step l

end Idle

/-! ## Progress -/

/-- What a row asks the token and the whitelist, they answer. -/
structure Answers {ξ δ : Type} (O : Outside ξ δ) : Prop where
  isWhitelisted : ∀ w token x, ∃ a, O.isWhitelisted w token x = .ok a
  allowance : ∀ token owner spender x, ∃ a, O.allowance token owner spender x = .ok a
  balanceOf : ∀ token a x, ∃ b, O.balanceOf token a x = .ok b

section Progress

variable {ξ δ : Type} {O : Outside ξ δ} {this : Address} {msg : Msg} {id : Nat}
  {c : Ctx Storage ξ}

/-- Past the skips only the checked subtraction, the division and the cast could
revert: the settlement itself is caught. -/
theorem chargeDue_total (O : Outside ξ δ) (this : Address) (id : Nat) (attempt : Bytes32)
    (c : Ctx Storage ξ) {sub : Subscription} {m : Merchant}
    (hfee : (feeOf sub.amount m.feeBps).toNat ≤ sub.amount.toNat) (hinterval : sub.interval ≠ 0)
    (hdue : sub.nextChargeAt ≤ msg.timestamp) :
    ∃ outcome c', chargeDue O this msg id attempt sub m c = .ok (outcome, c') := by
  have hrange : paidPeriodStart msg sub < 2 ^ 64 :=
    Nat.lt_of_le_of_lt (paidPeriodStart_le hdue) msg.timestamp.isLt
  have hrange' : ¬ 2 ^ 64 ≤ sub.nextChargeAt.toNat + periodsSkipped msg sub * sub.interval.toNat :=
    Nat.not_le.mpr hrange
  simp only [chargeDue, toUint64, bind_eq_ok, checkedSub_eq_ok, revertIf_eq_ok, sload_eq_ok,
    sstore_eq_ok, pure_eq_ok, Prod.mk.injEq, existsAndEq, exists_const, true_and, and_true,
    hfee, hinterval, hrange', not_false_eq_true]
  obtain ⟨⟨a, c₁⟩, hsettle⟩ := attempt_ok (settleCharge O this ⟨this, msg.timestamp⟩ sub.payer
    sub.token (c.storage.useAttempt attempt).feeCollector sub.merchantId
    (feeOf sub.amount m.feeBps) m.payoutAddress (sub.amount - feeOf sub.amount m.feeBps))
    ⟨c.storage.useAttempt attempt, c.ext⟩
  cases a with
  | ok a => exact ⟨_, _, _, _, hsettle, advance_eq_ok.mpr ⟨rfl, rfl⟩⟩
  | error e => exact ⟨_, _, _, _, hsettle, skip_eq_ok.mpr rfl⟩

theorem charge_total (hO : Answers O)
    (hinterval : ∀ i, (c.storage.subscriptions i).payer ≠ 0 →
      (c.storage.subscriptions i).interval ≠ 0)
    (hfees : ∀ i m, O.requireActiveMerchant c.storage.registry i c.ext = .ok m → m.feeBps ≤ 500)
    (this : Address) (msg : Msg) (id : Nat) (attempt : Bytes32) :
    ∃ outcome c', charge O this msg id attempt c = .ok (outcome, c') := by
  obtain ⟨allowed, hallowed⟩ := hO.isWhitelisted c.storage.tokenWhitelist
    (c.storage.subscriptions id).token c.ext
  obtain ⟨allowance, hallowance⟩ := hO.allowance (c.storage.subscriptions id).token
    (c.storage.subscriptions id).payer this c.ext
  obtain ⟨balance, hbalance⟩ := hO.balanceOf (c.storage.subscriptions id).token
    (c.storage.subscriptions id).payer c.ext
  have hskip : ∀ o, ∃ outcome c', skip msg id attempt o c = .ok (outcome, c') := fun o =>
    ⟨_, _, skip_eq_ok.mpr rfl⟩
  simp only [charge, bind_eq_ok, sload_eq_ok, Prod.mk.injEq, existsAndEq, true_and]
  split
  · exact hskip _
  split
  · exact hskip _
  rename_i hknown
  split
  · exact hskip _
  split
  · exact hskip _
  rename_i hdue
  split
  · exact hskip _
  simp only [bind_eq_ok, staticcall_eq_ok, hallowed, Except.ok.injEq, Prod.mk.injEq, existsAndEq,
    true_and]
  split
  · exact hskip _
  simp only [bind_eq_ok, staticcall_eq_ok, hallowance, Except.ok.injEq, Prod.mk.injEq, existsAndEq,
    true_and]
  split
  · exact hskip _
  simp only [bind_eq_ok, staticcall_eq_ok, hbalance, Except.ok.injEq, Prod.mk.injEq, existsAndEq,
    true_and]
  split
  · exact hskip _
  cases hm : O.requireActiveMerchant c.storage.registry (c.storage.subscriptions id).merchantId
    c.ext with
  | ok m =>
      have hle : (feeOf (c.storage.subscriptions id).amount m.feeBps).toNat ≤
          (c.storage.subscriptions id).amount.toNat :=
        Nat.le_trans (feeOf_le (hfees _ m hm)) (Nat.div_le_self _ 20)
      obtain ⟨outcome, c', h⟩ := chargeDue_total O this id attempt c hle
        (hinterval id hknown) (BitVec.not_lt.mp hdue)
      have hcaught := staticcall_eq_ok.mpr ⟨m, hm, rfl⟩
      exact ⟨outcome, c', bind_eq_ok.mpr ⟨.ok m, c,
        attempt_eq_ok.mpr (Or.inl ⟨m, c, hcaught, rfl⟩), h⟩⟩
  | error e =>
      obtain ⟨outcome, c', h⟩ := hskip .merchantInactive
      have hcaught := staticcall_eq_error.mpr hm
      exact ⟨outcome, c', bind_eq_ok.mpr ⟨.error e, c,
        attempt_eq_ok.mpr (Or.inr ⟨e, hcaught, rfl⟩), h⟩⟩

end Progress

/-! ## What a row does to the deployment -/

section Effects

variable {τ δ : Type}

/-- A charged row: its subscription is settled at the merchant's fee of the moment,
its due time moves past the block's, and its attempt id is burned. -/
structure ChargedRow (balance : τ → Address → Address → Nat) (msg : Msg) (id : Nat)
    (attempt : Bytes32) (m : Merchant) (fee : Uint256) (c c' : Ctx Storage (Peers τ)) : Prop where
  merchant : Peers.ofRegistry c.storage.registry
    (Registry.requireActiveMerchant (c.storage.subscriptions id).merchantId) c.ext = .ok m
  fee_eq : fee.toNat =
    (c.storage.subscriptions id).amount.toNat * m.feeBps.toNat % 2 ^ 256 / 10000
  settled : Settled balance c.storage.feeCollector
    ⟨(c.storage.subscriptions id).token, (c.storage.subscriptions id).payer, m.payoutAddress,
      (c.storage.subscriptions id).amount, fee, (c.storage.subscriptions id).amount - fee⟩
    c.ext c'.ext
  advanced : ∃ next, c'.storage.subscriptions = Function.update c.storage.subscriptions id
      { c.storage.subscriptions id with nextChargeAt := next } ∧
    (msg.timestamp.toNat < 2 ^ 63 → msg.timestamp < next)
  burned : c'.storage.usedAttempts = Function.update c.storage.usedAttempts attempt true

/-- What a row does, by its outcome. Any but `charged` leaves the whole outside (every
balance, allowance and `totalAccrued`) and every subscription as they were. -/
inductive RowEffect (balance : τ → Address → Address → Nat) (msg : Msg) (id : Nat)
    (attempt : Bytes32) (c c' : Ctx Storage (Peers τ)) : ChargeOutcome → Prop
  | charged (m : Merchant) (fee : Uint256) (h : ChargedRow balance msg id attempt m fee c c') :
      RowEffect balance msg id attempt c c' .charged
  | other {outcome : ChargeOutcome} (hcharged : outcome ≠ .charged) (hext : c'.ext = c.ext)
      (hsubs : c'.storage.subscriptions = c.storage.subscriptions)
      (hattempts : c'.storage.usedAttempts = if outcome = .transferFailed then
        Function.update c.storage.usedAttempts attempt true else c.storage.usedAttempts) :
      RowEffect balance msg id attempt c c' outcome

/-- The rows of a batch, folded from the left. -/
inductive RowEffects (balance : τ → Address → Address → Nat) (msg : Msg) :
    List (Nat × Bytes32) → List ChargeOutcome → Ctx Storage (Peers τ) → Ctx Storage (Peers τ) → Prop
  | nil (c : Ctx Storage (Peers τ)) : RowEffects balance msg [] [] c c
  | cons {id : Nat} {attempt : Bytes32} {rows : List (Nat × Bytes32)} {outcome : ChargeOutcome}
      {outcomes : List ChargeOutcome} {c c₁ c' : Ctx Storage (Peers τ)}
      (hrow : RowEffect balance msg id attempt c c₁ outcome)
      (hrows : RowEffects balance msg rows outcomes c₁ c') :
      RowEffects balance msg ((id, attempt) :: rows) (outcome :: outcomes) c c'

variable {K : Kit τ δ} {balance : τ → Address → Address → Nat} {this : Address} {msg : Msg}
  {id : Nat} {attempt : Bytes32} {outcome : ChargeOutcome} {c c' : Ctx Storage (Peers τ)}

theorem RowEffects.length {rows : List (Nat × Bytes32)} {outcomes : List ChargeOutcome}
    (h : RowEffects balance msg rows outcomes c c') : outcomes.length = rows.length := by
  induction h with
  | nil => rfl
  | cons _ _ ih => rw [List.length_cons, List.length_cons, ih]

theorem advanced_subscriptions (s : Storage) (sub : Subscription) (fee net : Uint256)
    (start : Uint64) :
    (s.advanced msg id attempt sub fee net start).subscriptions =
      Function.update s.subscriptions id
        { sub with nextChargeAt := start + sub.interval.setWidth 64 } := rfl

theorem Row.effect (hT : ExactToken K.toToken balance)
    (h : Row (Peers.outside K) this msg id attempt c c' outcome) :
    RowEffect balance msg id attempt c c' outcome := by
  cases h with
  | skipped hcharged hfailed h =>
      subst h
      exact .other hcharged rfl rfl (by rw [if_neg hfailed]; rfl)
  | failed m _ h =>
      subst h
      exact .other (by decide) rfl rfl (by rw [if_pos rfl]; rfl)
  | charged m hdue x hsettles h =>
      subst h
      have hsplit : (feeOf (c.storage.subscriptions id).amount m.feeBps).toNat +
          ((c.storage.subscriptions id).amount -
            feeOf (c.storage.subscriptions id).amount m.feeBps).toNat =
          (c.storage.subscriptions id).amount.toNat := by
        rw [BitVec.toNat_sub_of_le (BitVec.le_def.mpr hdue.fee_le)]
        exact Nat.add_sub_cancel' hdue.fee_le
      refine .charged m _ ⟨hdue.merchant, toNat_feeOf _ _, hsettles.settled hT hsplit,
        ⟨_, advanced_subscriptions .., fun ht => ?_⟩, rfl⟩
      rw [BitVec.lt_def, toNat_advanced hdue.due ht]
      exact lt_paidPeriodEnd hdue.due hdue.interval

theorem Rows.effects (hT : ExactToken K.toToken balance) {rows : List (Nat × Bytes32)}
    {outcomes : List ChargeOutcome} (h : Rows (Peers.outside K) this msg rows outcomes c c') :
    RowEffects balance msg rows outcomes c c' := by
  induction h with
  | nil => exact .nil _
  | cons hrow _ ih => exact .cons (hrow.effect hT) ih

theorem RowEffect.registries (h : RowEffect balance msg id attempt c c' outcome) :
    c'.ext.registries = c.ext.registries := by
  cases h with
  | charged m fee h => exact h.settled.registries
  | other _ hext _ _ => rw [hext]

theorem Row.registry (h : Row (Peers.outside K) this msg id attempt c c' outcome) :
    c'.storage.registry = c.storage.registry := by
  cases h with
  | skipped _ _ h => subst h; rfl
  | failed _ _ h => subst h; rfl
  | charged m _ _ _ h => subst h; rfl

theorem Row.feeCollector (h : Row (Peers.outside K) this msg id attempt c c' outcome) :
    c'.storage.feeCollector = c.storage.feeCollector := by
  cases h with
  | skipped _ _ h => subst h; rfl
  | failed _ _ h => subst h; rfl
  | charged m _ _ _ h => subst h; rfl

/-- Under the fee cap every row goes through, so all of them do. -/
theorem chargeRows_total (hO : Answers (Peers.outside K)) (hT : ExactToken K.toToken balance)
    (this : Address) (msg : Msg) (rows : List (Nat × Bytes32))
    (hinterval : ∀ i, (c.storage.subscriptions i).payer ≠ 0 →
      (c.storage.subscriptions i).interval ≠ 0)
    (hfees : ∀ i, ((c.ext.registries c.storage.registry).merchants i).feeBps ≤ 500) :
    ∃ outcomes c', chargeRows (Peers.outside K) this msg rows c = .ok (outcomes, c') := by
  induction rows generalizing c with
  | nil => exact ⟨[], c, rfl⟩
  | cons row rows ih =>
      have hfees' : ∀ i m, (Peers.outside K).requireActiveMerchant c.storage.registry i c.ext =
          .ok m → m.feeBps ≤ 500 := by
        intro i m hm
        obtain ⟨s, hs⟩ := Peers.ofRegistry_eq_ok.mp hm
        obtain ⟨-, -, heq⟩ := Registry.requireActiveMerchant_eq_ok.mp hs
        obtain ⟨rfl, -⟩ := Prod.mk.inj heq
        exact hfees i
      obtain ⟨outcome, c₁, hrow⟩ := charge_total hO hinterval hfees' this msg row.1
        row.2
      have heffect := charge_ok hrow
      have hinterval₁ : ∀ i, (c₁.storage.subscriptions i).payer ≠ 0 →
          (c₁.storage.subscriptions i).interval ≠ 0 := fun i => by
        obtain ⟨t, ht⟩ := heffect.subscriptions i
        rw [ht]
        exact hinterval i
      obtain ⟨outcomes, c', hrows⟩ := ih hinterval₁ fun i => by
        rw [heffect.registry, (heffect.effect hT).registries]
        exact hfees i
      refine ⟨outcome :: outcomes, c', ?_⟩
      simp only [chargeRows, bind_eq_ok, pure_eq_ok, Prod.mk.injEq]
      exact ⟨outcome, c₁, hrow, outcomes, c', hrows, rfl, rfl⟩

end Effects

/-! ## The batch -/

/-- From any reachable state that is not paused, a charger's batch of at most
`MAX_BATCH_SIZE` rows goes through, with one outcome per row, each row having the
effect its outcome names. The token may refuse any transfer, and so may the
collector refuse to book a fee. -/
theorem batchCharge_exact_and_isolated {τ δ : Type} (K : Kit τ δ)
    (balance : τ → Address → Address → Nat) (hT : ExactToken K.toToken balance)
    (hO : Answers (Peers.outside K)) (this : Address) (hasRole : RoleTable)
    (registry feeCollector tokenWhitelist : Address) (p : Peers τ) (ls : List (Label (Peers τ)))
    (n : Nat) (msg : Msg) (ids : List Nat) (attempts : List Bytes32) :
    let c := runAt (Peers.outside K) this hasRole registry feeCollector tokenWhitelist p ls n
    c.storage.paused = false → c.storage.hasRole .charger msg.sender = true →
    ids.length = attempts.length → ids.length ≤ MAX_BATCH_SIZE →
    (∀ i, ((c.ext.registries c.storage.registry).merchants i).feeBps ≤ 500) →
    ∃ outcomes c₁,
      batchCharge (Peers.outside K) this msg ids attempts c =
        .ok (outcomes, ⟨c₁.storage.setEntered false, c₁.ext⟩) ∧
      outcomes.length = ids.length ∧
      RowEffects balance msg (ids.zip attempts) outcomes ⟨c.storage.setEntered true, c.ext⟩ c₁ := by
  intro c hpaused hcharger hlen hmax hfees
  have hidle : Idle c.storage := idle_runAt hasRole registry feeCollector tokenWhitelist p ls n
  obtain ⟨outcomes, c₁, hrows⟩ := chargeRows_total (c := ⟨c.storage.setEntered true, c.ext⟩) hO hT
    this msg (ids.zip attempts) hidle.interval hfees
  have heffects := (chargeRows_ok hrows).effects hT
  refine ⟨outcomes, c₁, batchCharge_eq_ok.mpr ⟨hpaused, hcharger, hidle.unlocked, hlen,
    Nat.not_lt.mpr hmax, c₁, hrows, rfl⟩, ?_, heffects⟩
  rw [heffects.length, List.length_zip, ← hlen, Nat.min_self]

/-- The payer subscribes at 10; the operator pauses. -/
def samplePaused : List (Label (Peers ReferenceToken.State)) :=
  [⟨⟨300, 10⟩, .createSubscription ⟨1, 200, 1000, 3600, 0, 0⟩⟩, ⟨⟨1, 11⟩, .pause⟩]

theorem sampleFees_capped (i : Nat) (r : Address) :
    ((ReferenceToken.samplePeers.registries r).merchants i).feeBps ≤ 500 := by
  show (Function.update (fun _ => Registry.noMerchant) 1 _ i).feeBps ≤ 500
  by_cases hi : i = 1
  · subst hi
    decide
  · rw [Function.update_of_ne hi]
    decide

/-- A pause stops the scheduler: with everything else as a batch needs it, the
charger's batch reverts. -/
theorem batchCharge_reverts_paused :
    let O := ReferenceToken.outside ReferenceToken.silent
    let c := runAt O 101 ReferenceToken.sampleRoles 103 102 104 ReferenceToken.samplePeers
      samplePaused 2
    c.storage.hasRole .charger 1 = true ∧
      (∀ i, ((c.ext.registries c.storage.registry).merchants i).feeBps ≤ 500) ∧
      batchCharge O 101 ⟨1, 12⟩ [1] [5] c = .error .enforcedPause :=
  ⟨by decide, fun i => sampleFees_capped i 103, rfl⟩

/-- Before the pause, a batch that names the subscription twice goes through. -/
theorem sampleBatch_charges :
    let O := ReferenceToken.outside ReferenceToken.silent
    let c := runAt O 101 ReferenceToken.sampleRoles 103 102 104 ReferenceToken.samplePeers
      samplePaused 1
    ∃ outcomes c₁, batchCharge O 101 ⟨1, 12⟩ [1, 1] [5, 6] c =
        .ok (outcomes, ⟨c₁.storage.setEntered false, c₁.ext⟩) ∧
      outcomes.length = 2 ∧
      RowEffects ReferenceToken.balance ⟨1, 12⟩ [(1, 5), (1, 6)] outcomes
        ⟨c.storage.setEntered true, c.ext⟩ c₁ :=
  batchCharge_exact_and_isolated (ReferenceToken.kit ReferenceToken.silent)
    ReferenceToken.balance (ReferenceToken.exact _)
    ⟨fun _ _ _ => ⟨_, rfl⟩, fun _ _ _ _ => ⟨_, rfl⟩, fun _ _ _ => ⟨_, rfl⟩⟩ 101
    ReferenceToken.sampleRoles 103 102 104 ReferenceToken.samplePeers samplePaused 1 ⟨1, 12⟩
    [1, 1] [5, 6] (by decide) (by decide) rfl (by decide) fun i => sampleFees_capped i 103

end Strimz.Subscriptions
