import Strimz.Subscriptions

/-!
# What a subscriptions call does

Spec lemmas for the entry points, one row of a batch (`Row`) and whole batches
(`Rows`), and from them `step_change`: everything one transaction can do to the
book, with the facts each kind of change carries.
-/

namespace Strimz.Subscriptions

open Tx

variable {ξ δ : Type} {O : Outside ξ δ} {this : Address} {msg : Msg} {id : Nat}
  {c c' : Ctx Storage ξ}

/-! ## Enrolment -/

/-- What `checkTerms` lets through. -/
structure Checked (msg : Msg) (p : Terms) : Prop where
  amount : ¬ p.amount = 0
  interval : ¬ p.interval < MIN_INTERVAL
  merchantId : ¬ MAX_MERCHANT_ID < p.merchantId
  startAt : ¬ (p.startAt ≠ 0 ∧ p.startAt < msg.timestamp)

theorem checkTerms_eq_ok {p : Terms} {r : Unit × Ctx Storage ξ} :
    checkTerms msg p c = .ok r ↔ Checked msg p ∧ r = ((), c) := by
  simp only [checkTerms, bind_eq_ok, revertIf_eq_ok, Prod.mk.injEq, existsAndEq, exists_const,
    true_and, and_true]
  constructor
  · rintro ⟨h1, h2, h3, h4, rfl⟩
    exact ⟨⟨h1, h2, h3, h4⟩, rfl⟩
  · rintro ⟨⟨h1, h2, h3, h4⟩, rfl⟩
    exact ⟨h1, h2, h3, h4, rfl⟩

/-- The storage `enrol` leaves behind. -/
def Storage.enrolled (s : Storage) (msg : Msg) (payer : Address) (p : Terms) : Storage :=
  ((s.putNextId (s.nextSubscriptionId + 1)).putSubscription s.nextSubscriptionId
    (newSubscription msg payer p)).log msg.timestamp
      (.subscriptionCreated s.nextSubscriptionId p.merchantId payer p.token p.amount p.interval
        (firstChargeAt msg p))

theorem enrol_eq_ok {payer : Address} {p : Terms} {id : Nat} :
    enrol msg payer p c = .ok (id, c') ↔
      ¬ (p.endAt ≠ 0 ∧ p.endAt ≤ firstChargeAt msg p) ∧ ¬ 2 ^ 96 ≤ p.merchantId ∧
      id = c.storage.nextSubscriptionId ∧ c' = ⟨c.storage.enrolled msg payer p, c.ext⟩ := by
  simp only [enrol, emit, bind_eq_ok, sload_eq_ok, sstore_eq_ok, revertIf_eq_ok, pure_eq_ok,
    Prod.mk.injEq, existsAndEq, exists_const, true_and, and_true]
  rfl

theorem createSubscription_eq_ok {p : Terms} {id : Nat} :
    createSubscription O msg p c = .ok (id, c') ↔
      c.storage.paused = false ∧ Checked msg p ∧
      O.isWhitelisted c.storage.tokenWhitelist p.token c.ext = .ok true ∧
      (∃ m, O.requireActiveMerchant c.storage.registry p.merchantId c.ext = .ok m) ∧
      enrol msg msg.sender p c = .ok (id, c') := by
  simp only [createSubscription, bind_eq_ok, sload_eq_ok, whenNotPaused_eq_ok, checkTerms_eq_ok,
    staticcall_eq_ok, revertIf_eq_ok, Prod.mk.injEq, existsAndEq, exists_const, exists_and_right,
    true_and, and_true, Bool.not_eq_false]

theorem verifySubscriptionIntent_eq_ok {p : Terms} {nonce : Bytes32} {permitData : PermitData}
    {intentSig : Bytes} {r : Unit × Ctx Storage ξ} :
    verifySubscriptionIntent O p nonce permitData intentSig c = .ok r ↔
      PayerSignature.isValid O.toSignatures permitData.owner
        (O.subscriptionIntentDigest (subscriptionIntent p nonce permitData)) intentSig c.ext = true ∧
      r = ((), c) := by
  simp only [verifySubscriptionIntent, bind_eq_ok, staticcall_eq_ok, revertIf_eq_ok,
    Except.ok.injEq, Prod.mk.injEq, existsAndEq, true_and, and_true, Bool.not_eq_false]

theorem requireAllowance_eq_ok {token : Address} {permitData : PermitData} {reason : Revert}
    {r : Unit × Ctx Storage ξ} :
    requireAllowance O this token permitData reason c = .ok r ↔
      (∃ a, O.allowance token permitData.owner this c.ext = .ok a ∧ ¬ a < permitData.value) ∧
      r = ((), c) := by
  simp only [requireAllowance, bind_eq_ok, staticcall_eq_ok, revertIf_eq_ok,
    Prod.mk.injEq, existsAndEq, exists_and_right, and_true, ← and_assoc]

/-- The two ways past a permit: it succeeds, or its revert is made up for by an
allowance that is already there. -/
inductive Permitted (O : Outside ξ δ) (this token : Address) (permitData : PermitData)
    (permit : ξ → Except Revert ξ) (x : ξ) : ξ → Prop
  | granted {x' : ξ} (h : permit x = .ok x') : Permitted O this token permitData permit x x'
  | standing {e : Revert} {a : Uint256} (h : permit x = .error e)
      (ha : O.allowance token permitData.owner this x = .ok a) (hle : ¬ a < permitData.value) :
      Permitted O this token permitData permit x x

theorem call_eq_error {permit : ξ → Except Revert ξ} {e : Revert} :
    (call permit : Call ξ Unit) c = .error e ↔ permit c.ext = .error e := by
  unfold call
  cases permit c.ext <;> simp

theorem tryPermit_eq_ok {token : Address} {permitData : PermitData}
    {permit : ξ → Except Revert ξ} {r : Unit × Ctx Storage ξ} :
    tryPermit O this token permitData (call permit) c = .ok r ↔
      ∃ x, Permitted O this token permitData permit c.ext x ∧ r = ((), { c with ext := x }) := by
  simp only [tryPermit, bind_eq_ok, attempt_eq_ok, call_eq_ok, call_eq_error]
  constructor
  · rintro ⟨_, _, ⟨_, _, ⟨x, hx, heq⟩, h⟩ | ⟨e, he, h⟩, hr⟩
    · obtain ⟨-, rfl⟩ := Prod.mk.inj heq
      obtain ⟨rfl, rfl⟩ := Prod.mk.inj h
      exact ⟨x, .granted hx, pure_eq_ok.mp hr⟩
    · obtain ⟨rfl, rfl⟩ := Prod.mk.inj h
      obtain ⟨⟨a, ha, hle⟩, rfl⟩ := requireAllowance_eq_ok.mp hr
      exact ⟨_, .standing he ha hle, rfl⟩
  · rintro ⟨x, hx | ⟨he, ha, hle⟩, rfl⟩
    · exact ⟨_, _, Or.inl ⟨_, _, ⟨x, hx, rfl⟩, rfl⟩, rfl⟩
    · exact ⟨_, _, Or.inr ⟨_, he, rfl⟩, requireAllowance_eq_ok.mpr ⟨⟨_, ha, hle⟩, rfl⟩⟩

/-- The permit call an enrolment makes: the `bytes` overload for an owner with
code, the `v, r, s` one for a 65-byte signature of an owner without. -/
def permitCall (O : Outside ξ δ) (this : Address) (msg : Msg) (token : Address)
    (permitData : PermitData) (permitSig : Bytes) (x : ξ) : Option (ξ → Except Revert ξ) :=
  if O.codeLength permitData.owner x ≠ 0 then
    some (O.permitBytes ⟨this, msg.timestamp⟩ token permitData.owner this permitData.value
      permitData.deadline permitSig)
  else
    (PayerSignature.split permitSig).map (O.permit ⟨this, msg.timestamp⟩ token permitData.owner
      this permitData.value permitData.deadline)

theorem permitOrRequireAllowance_eq_ok {token : Address} {permitData : PermitData}
    {permitSig : Bytes} {r : Unit × Ctx Storage ξ} :
    permitOrRequireAllowance O this msg token permitData permitSig c = .ok r ↔
      ∃ permit x, permitCall O this msg token permitData permitSig c.ext = some permit ∧
        Permitted O this token permitData permit c.ext x ∧ r = ((), { c with ext := x }) := by
  simp only [permitOrRequireAllowance, permitCall, bind_eq_ok, staticcall_eq_ok, Except.ok.injEq,
    Prod.mk.injEq, existsAndEq, true_and]
  split
  · simp only [tryPermit_eq_ok, Option.some.injEq, existsAndEq, true_and]
  · cases PayerSignature.split permitSig with
    | none => simp [throw_eq_ok]
    | some vrs => simp only [tryPermit_eq_ok, Option.map_some, Option.some.injEq, existsAndEq, true_and]

theorem permitAndCreateSubscription_eq_ok {p : Terms} {nonce : Bytes32} {permitData : PermitData}
    {permitSig intentSig : Bytes} {id : Nat} :
    permitAndCreateSubscription O this msg p nonce permitData permitSig intentSig c =
        .ok (id, c') ↔
      c.storage.paused = false ∧ Checked msg p ∧
      O.isWhitelisted c.storage.tokenWhitelist p.token c.ext = .ok true ∧
      O.supportsCapability c.storage.tokenWhitelist p.token CAP_PERMIT_2612 c.ext = .ok true ∧
      (∃ m, O.requireActiveMerchant c.storage.registry p.merchantId c.ext = .ok m) ∧
      ¬ permitData.value < p.amount ∧
      PayerSignature.isValid O.toSignatures permitData.owner
        (O.subscriptionIntentDigest (subscriptionIntent p nonce permitData)) intentSig c.ext = true ∧
      c.storage.usedIntentNonces permitData.owner nonce = false ∧
      ∃ permit x, permitCall O this msg p.token permitData permitSig c.ext = some permit ∧
        Permitted O this p.token permitData permit c.ext x ∧
        enrol msg permitData.owner p ⟨c.storage.useIntentNonce permitData.owner nonce, x⟩ =
          .ok (id, c') := by
  simp only [permitAndCreateSubscription, bind_eq_ok, sload_eq_ok, whenNotPaused_eq_ok,
    checkTerms_eq_ok, staticcall_eq_ok, revertIf_eq_ok, verifySubscriptionIntent_eq_ok,
    sstore_eq_ok, permitOrRequireAllowance_eq_ok, Prod.mk.injEq, existsAndEq, exists_const,
    exists_and_right, and_assoc, true_and, and_true, Bool.not_eq_false, Bool.not_eq_true]

/-! ## Cancel and reinstate -/

/-- Whether `msg.sender` is a party to the subscription: its payer, or the owner
its merchant has now. -/
def isParty (msg : Msg) (sub : Subscription) (m : Merchant) : Bool :=
  msg.sender == sub.payer || msg.sender == m.owner

theorem cancel_eq_ok :
    cancel O msg id c = .ok ((), c') ↔
      ¬ (c.storage.subscriptions id).payer = 0 ∧
      ∃ m, O.getMerchant c.storage.registry (c.storage.subscriptions id).merchantId c.ext = .ok m ∧
        ¬ (isParty msg (c.storage.subscriptions id) m = false ∧
          c.storage.hasRole .subscriptionCanceller msg.sender = false) ∧
        (c.storage.subscriptions id).cancelled = false ∧
        (isParty msg (c.storage.subscriptions id) m = false ∧
            c' = ⟨((c.storage.putSubscription id
                { c.storage.subscriptions id with cancelled := true }).putOperatorCancelledAt id
                  msg.timestamp).log msg.timestamp (.subscriptionCancelled id msg.sender), c.ext⟩ ∨
          ¬ isParty msg (c.storage.subscriptions id) m = false ∧
            c' = ⟨(c.storage.putSubscription id
                { c.storage.subscriptions id with cancelled := true }).log
                  msg.timestamp (.subscriptionCancelled id msg.sender), c.ext⟩) := by
  simp only [cancel, isParty, emit, bind_eq_ok, sload_eq_ok, staticcall_eq_ok, revertIf_eq_ok,
    sstore_eq_ok, ite_eq_ok, Prod.mk.injEq, existsAndEq, exists_const, true_and, and_true,
    Bool.not_eq_true]

theorem reinstate_eq_ok :
    reinstate msg id c = .ok ((), c') ↔
      c.storage.hasRole .admin msg.sender = true ∧
      ¬ (c.storage.operatorCancelledAt id = 0 ∨ (c.storage.subscriptions id).cancelled = false) ∧
      (c.storage.operatorCancelledAt id).toNat + REINSTATE_WINDOW.toNat < 2 ^ 64 ∧
      ¬ c.storage.operatorCancelledAt id + REINSTATE_WINDOW < msg.timestamp ∧
      c' = ⟨((c.storage.putSubscription id
          { c.storage.subscriptions id with cancelled := false }).putOperatorCancelledAt id 0).log
            msg.timestamp (.subscriptionReinstated id msg.sender), c.ext⟩ := by
  simp only [reinstate, emit, bind_eq_ok, sload_eq_ok, onlyRole_eq_ok, revertIf_eq_ok, sstore_eq_ok,
    checkedAdd_eq_ok, Prod.mk.injEq, existsAndEq, exists_const, true_and, and_true]

/-! ## One row of a batch -/

theorem settleCharge_ok {payer token collector payout : Address} {merchantId : Nat}
    {feeAmount netAmount : Uint256}
    (h : settleCharge O this msg payer token collector merchantId feeAmount payout netAmount c =
      .ok ((), c')) :
    msg.sender = this ∧ ∃ x, Settles O ⟨this, msg.timestamp⟩ payer token collector merchantId
      feeAmount payout netAmount c.ext x ∧ c' = { c with ext := x } := by
  simp only [settleCharge, bind_eq_ok, revertIf_eq_ok, Prod.mk.injEq, existsAndEq, exists_const,
    true_and, ne_eq, not_not] at h
  obtain ⟨⟨hsender, -⟩, ⟨⟩, c₁, hfee, hnet⟩ := h
  exact ⟨hsender, settles_of_legs hfee hnet⟩

/-- The start of the period a charge at this time pays for. -/
def paidPeriodStart (msg : Msg) (sub : Subscription) : Nat :=
  sub.nextChargeAt.toNat + periodsSkipped msg sub * sub.interval.toNat

theorem paidPeriodStart_le {sub : Subscription} (hdue : sub.nextChargeAt ≤ msg.timestamp) :
    paidPeriodStart msg sub ≤ msg.timestamp.toNat := by
  have hle := BitVec.le_def.mp hdue
  have hdiv := Nat.div_mul_le_self (msg.timestamp.toNat - sub.nextChargeAt.toNat)
    sub.interval.toNat
  unfold paidPeriodStart periodsSkipped
  omega

theorem lt_paidPeriodEnd {sub : Subscription} (hdue : sub.nextChargeAt ≤ msg.timestamp)
    (hinterval : sub.interval ≠ 0) :
    msg.timestamp.toNat < paidPeriodStart msg sub + sub.interval.toNat := by
  have hle := BitVec.le_def.mp hdue
  have hpos : 0 < sub.interval.toNat :=
    Nat.pos_of_ne_zero fun h => hinterval (BitVec.eq_of_toNat_eq (by simpa using h))
  have hdiv := Nat.lt_div_mul_add hpos (a := msg.timestamp.toNat - sub.nextChargeAt.toNat)
  unfold paidPeriodStart periodsSkipped
  omega

/-- Before 2^63 the unchecked sum that advances `nextChargeAt` does not wrap. -/
theorem toNat_advanced {sub : Subscription} (hdue : sub.nextChargeAt ≤ msg.timestamp)
    (ht : msg.timestamp.toNat < 2 ^ 63) :
    (BitVec.ofNat 64 (paidPeriodStart msg sub) + sub.interval.setWidth 64).toNat =
      paidPeriodStart msg sub + sub.interval.toNat := by
  have hstart := paidPeriodStart_le hdue
  have hinterval := sub.interval.isLt
  rw [BitVec.toNat_add, BitVec.toNat_ofNat, BitVec.toNat_setWidth]
  omega

/-- `if (periodsSkipped > 0) emit SubscriptionPeriodsSkipped` -/
@[simps]
def Storage.logSkipped (s : Storage) (msg : Msg) (id periods : Nat) (start : Uint64) : Storage :=
  { s with logs := s.logs ++ if 0 < periods then
      [⟨msg.timestamp, .subscriptionPeriodsSkipped id periods start⟩] else [] }

/-- The storage `advance` leaves behind. -/
def Storage.advanced (s : Storage) (msg : Msg) (id : Nat) (attempt : Bytes32)
    (sub : Subscription) (feeAmount netAmount : Uint256) (start : Uint64) : Storage :=
  let next := start + sub.interval.setWidth 64
  let s := s.putSubscription id { sub with nextChargeAt := next }
  (s.logSkipped msg id (periodsSkipped msg sub) start).log msg.timestamp
    (.subscriptionCharged id attempt sub.amount feeAmount netAmount next)

theorem advance_eq_ok {attempt : Bytes32} {sub : Subscription} {feeAmount netAmount : Uint256}
    {start : Uint64} {outcome : ChargeOutcome} :
    advance msg id attempt sub feeAmount netAmount start c = .ok (outcome, c') ↔
      outcome = .charged ∧
        c' = ⟨c.storage.advanced msg id attempt sub feeAmount netAmount start, c.ext⟩ := by
  unfold advance Storage.advanced Storage.logSkipped
  split <;>
    simp only [emit, bind_eq_ok, sstore_eq_ok, pure_eq_ok, Prod.mk.injEq, existsAndEq,
      exists_const, true_and, List.append_nil]
  rfl

theorem skip_eq_ok {attempt : Bytes32} {o : ChargeOutcome} {r : ChargeOutcome × Ctx Storage ξ} :
    skip msg id attempt o c = .ok r ↔
      r = (o, ⟨c.storage.log msg.timestamp (.subscriptionChargeSkipped id attempt o), c.ext⟩) := by
  simp only [skip, emit, bind_eq_ok, sstore_eq_ok, pure_eq_ok, Prod.mk.injEq, existsAndEq,
    exists_const, true_and]

/-- A row past its skips: the id is burned, and either the settlement went
through and the subscription advanced, or nothing else happened. -/
theorem chargeDue_ok {attempt : Bytes32} {sub : Subscription} {m : Merchant}
    {outcome : ChargeOutcome}
    (h : chargeDue O this msg id attempt sub m c = .ok (outcome, c')) :
    (feeOf sub.amount m.feeBps).toNat ≤ sub.amount.toNat ∧ sub.interval ≠ 0 ∧
    paidPeriodStart msg sub < 2 ^ 64 ∧
    (outcome = .charged ∧ (∃ x,
        Settles O ⟨this, msg.timestamp⟩ sub.payer sub.token c.storage.feeCollector sub.merchantId
          (feeOf sub.amount m.feeBps) m.payoutAddress (sub.amount - feeOf sub.amount m.feeBps)
          c.ext x ∧
        c' = ⟨(c.storage.useAttempt attempt).advanced msg id attempt sub
          (feeOf sub.amount m.feeBps) (sub.amount - feeOf sub.amount m.feeBps)
          (BitVec.ofNat 64 (paidPeriodStart msg sub)), x⟩) ∨
      outcome = .transferFailed ∧
        c' = ⟨(c.storage.useAttempt attempt).log msg.timestamp
          (.subscriptionChargeSkipped id attempt .transferFailed), c.ext⟩) := by
  simp only [chargeDue, toUint64, bind_eq_ok, checkedSub_eq_ok, revertIf_eq_ok, sload_eq_ok,
    sstore_eq_ok, pure_eq_ok, Prod.mk.injEq, existsAndEq, exists_const, true_and, and_true,
    Nat.not_le] at h
  obtain ⟨hfee, hinterval, hrange, _, _, hsettle, h⟩ := h
  refine ⟨hfee, hinterval, hrange, ?_⟩
  rcases attempt_eq_ok.mp hsettle with ⟨_, _, hok, heq⟩ | ⟨_, -, heq⟩
  · obtain ⟨rfl, rfl⟩ := Prod.mk.inj heq
    obtain ⟨-, x, hx, rfl⟩ := settleCharge_ok hok
    obtain ⟨rfl, rfl⟩ := advance_eq_ok.mp h
    exact Or.inl ⟨rfl, x, hx, rfl⟩
  · obtain ⟨rfl, rfl⟩ := Prod.mk.inj heq
    obtain ⟨rfl, rfl⟩ := skip_eq_ok.mp h
    exact Or.inr ⟨rfl, rfl⟩

/-- A row got past every skip: what `_charge` has checked when it burns the id. -/
structure Due (O : Outside ξ δ) (this : Address) (msg : Msg) (id : Nat) (attempt : Bytes32)
    (c : Ctx Storage ξ) (m : Merchant) : Prop where
  fresh : c.storage.usedAttempts attempt = false
  known : (c.storage.subscriptions id).payer ≠ 0
  live : (c.storage.subscriptions id).cancelled = false
  due : (c.storage.subscriptions id).nextChargeAt ≤ msg.timestamp
  not_ended : ¬ ((c.storage.subscriptions id).endAt ≠ 0 ∧
    (c.storage.subscriptions id).endAt ≤ msg.timestamp)
  allowed : O.isWhitelisted c.storage.tokenWhitelist (c.storage.subscriptions id).token c.ext =
    .ok true
  merchant : O.requireActiveMerchant c.storage.registry (c.storage.subscriptions id).merchantId
    c.ext = .ok m
  fee_le : (feeOf (c.storage.subscriptions id).amount m.feeBps).toNat ≤
    (c.storage.subscriptions id).amount.toNat
  interval : (c.storage.subscriptions id).interval ≠ 0
  range : paidPeriodStart msg (c.storage.subscriptions id) < 2 ^ 64

/-- What one row of a batch does. -/
inductive Row (O : Outside ξ δ) (this : Address) (msg : Msg) (id : Nat) (attempt : Bytes32)
    (c c' : Ctx Storage ξ) : ChargeOutcome → Prop
  | skipped {outcome : ChargeOutcome} (hcharged : outcome ≠ .charged)
      (hfailed : outcome ≠ .transferFailed)
      (h : c' = ⟨c.storage.log msg.timestamp (.subscriptionChargeSkipped id attempt outcome),
        c.ext⟩) : Row O this msg id attempt c c' outcome
  | failed (m : Merchant) (hdue : Due O this msg id attempt c m)
      (h : c' = ⟨(c.storage.useAttempt attempt).log msg.timestamp
        (.subscriptionChargeSkipped id attempt .transferFailed), c.ext⟩) :
      Row O this msg id attempt c c' .transferFailed
  | charged (m : Merchant) (hdue : Due O this msg id attempt c m) (x : ξ)
      (hsettles : Settles O ⟨this, msg.timestamp⟩ (c.storage.subscriptions id).payer
        (c.storage.subscriptions id).token c.storage.feeCollector
        (c.storage.subscriptions id).merchantId
        (feeOf (c.storage.subscriptions id).amount m.feeBps) m.payoutAddress
        ((c.storage.subscriptions id).amount -
          feeOf (c.storage.subscriptions id).amount m.feeBps) c.ext x)
      (h : c' = ⟨(c.storage.useAttempt attempt).advanced msg id attempt
        (c.storage.subscriptions id) (feeOf (c.storage.subscriptions id).amount m.feeBps)
        ((c.storage.subscriptions id).amount - feeOf (c.storage.subscriptions id).amount m.feeBps)
        (BitVec.ofNat 64 (paidPeriodStart msg (c.storage.subscriptions id))), x⟩) :
      Row O this msg id attempt c c' .charged

theorem Row.of_skip {attempt : Bytes32} {outcome o : ChargeOutcome} (hcharged : o ≠ .charged)
    (hfailed : o ≠ .transferFailed) (h : skip msg id attempt o c = .ok (outcome, c')) :
    Row O this msg id attempt c c' outcome := by
  obtain ⟨rfl, rfl⟩ := skip_eq_ok.mp h
  exact .skipped hcharged hfailed rfl

theorem charge_ok {attempt : Bytes32} {outcome : ChargeOutcome}
    (h : charge O this msg id attempt c = .ok (outcome, c')) :
    Row O this msg id attempt c c' outcome := by
  simp only [charge, bind_eq_ok, sload_eq_ok, staticcall_eq_ok, ite_eq_ok, Prod.mk.injEq,
    existsAndEq, true_and] at h
  rcases h with ⟨-, h⟩ | ⟨hfresh, h⟩
  · exact .of_skip (by decide) (by decide) h
  rcases h with ⟨-, h⟩ | ⟨hknown, h⟩
  · exact .of_skip (by decide) (by decide) h
  rcases h with ⟨-, h⟩ | ⟨hlive, h⟩
  · exact .of_skip (by decide) (by decide) h
  rcases h with ⟨-, h⟩ | ⟨hdue, h⟩
  · exact .of_skip (by decide) (by decide) h
  rcases h with ⟨-, h⟩ | ⟨hended, allowed, hallowed, h⟩
  · exact .of_skip (by decide) (by decide) h
  rcases h with ⟨-, h⟩ | ⟨htrue, allowance, -, h⟩
  · exact .of_skip (by decide) (by decide) h
  rcases h with ⟨-, h⟩ | ⟨-, balance, -, h⟩
  · exact .of_skip (by decide) (by decide) h
  rcases h with ⟨-, h⟩ | ⟨-, answer, c₁, hanswer, h⟩
  · exact .of_skip (by decide) (by decide) h
  rcases attempt_eq_ok.mp hanswer with ⟨m, _, hm, heq⟩ | ⟨_, -, heq⟩
  · obtain ⟨rfl, rfl⟩ := Prod.mk.inj heq
    obtain ⟨_, hm, heq⟩ := staticcall_eq_ok.mp hm
    obtain ⟨rfl, rfl⟩ := Prod.mk.inj heq
    obtain ⟨hfee, hinterval, hrange, hrest⟩ := chargeDue_ok h
    have hok : Due O this msg id attempt c₁ m := ⟨by simpa using hfresh, hknown,
      by simpa using hlive, BitVec.not_lt.mp hdue, hended,
      Bool.eq_true_of_not_eq_false htrue ▸ hallowed.1, hm, hfee, hinterval, hrange⟩
    rcases hrest with ⟨rfl, x, hx, rfl⟩ | ⟨rfl, rfl⟩
    · exact .charged m hok x hx rfl
    · exact .failed m hok rfl
  · obtain ⟨rfl, rfl⟩ := Prod.mk.inj heq
    exact .of_skip (by decide) (by decide) h

/-- A batch, row by row from the left. -/
inductive Rows (O : Outside ξ δ) (this : Address) (msg : Msg) :
    List (Nat × Bytes32) → List ChargeOutcome → Ctx Storage ξ → Ctx Storage ξ → Prop
  | nil (c : Ctx Storage ξ) : Rows O this msg [] [] c c
  | cons {id : Nat} {attempt : Bytes32} {rows : List (Nat × Bytes32)} {outcome : ChargeOutcome}
      {outcomes : List ChargeOutcome} {c c₁ c' : Ctx Storage ξ}
      (hrow : Row O this msg id attempt c c₁ outcome) (hrows : Rows O this msg rows outcomes c₁ c') :
      Rows O this msg ((id, attempt) :: rows) (outcome :: outcomes) c c'

theorem chargeRows_ok {rows : List (Nat × Bytes32)} {outcomes : List ChargeOutcome}
    (h : chargeRows O this msg rows c = .ok (outcomes, c')) :
    Rows O this msg rows outcomes c c' := by
  induction rows generalizing c outcomes with
  | nil =>
      obtain ⟨rfl, rfl⟩ := Prod.mk.inj (pure_eq_ok.mp h)
      exact .nil _
  | cons row rows ih =>
      simp only [chargeRows, bind_eq_ok, pure_eq_ok, Prod.mk.injEq] at h
      obtain ⟨outcome, c₁, hrow, outcomes, _, hrows, rfl, rfl⟩ := h
      exact .cons (charge_ok hrow) (ih hrows)

theorem batchCharge_eq_ok {ids : List Nat} {attempts : List Bytes32}
    {outcomes : List ChargeOutcome} :
    batchCharge O this msg ids attempts c = .ok (outcomes, c') ↔
      c.storage.paused = false ∧ c.storage.hasRole .charger msg.sender = true ∧
      c.storage.entered = false ∧ ids.length = attempts.length ∧ ¬ MAX_BATCH_SIZE < ids.length ∧
      ∃ c₁, chargeRows O this msg (ids.zip attempts) ⟨c.storage.setEntered true, c.ext⟩ =
          .ok (outcomes, c₁) ∧
        c' = ⟨c₁.storage.setEntered false, c₁.ext⟩ := by
  simp only [batchCharge, nonReentrant, bind_eq_ok, sload_eq_ok, whenNotPaused_eq_ok,
    onlyRole_eq_ok, guarded_eq_ok, revertIf_eq_ok, Prod.mk.injEq, existsAndEq, exists_const,
    and_assoc, exists_and_left, true_and, ne_eq, not_not]

/-! ## What the log says -/

/-- The charge of subscription `id` a log entry reports: when, and the due time
it left. -/
def chargeOf (id : Nat) (l : Log) : Option (Nat × Nat) :=
  match l.event with
  | .subscriptionCharged i _ _ _ _ next =>
      if i = id then some (l.timestamp.toNat, next.toNat) else none
  | _ => none

/-- The enrolment of subscription `id` a log entry reports: its interval and the
time of its first charge. -/
def enrolmentOf (id : Nat) (l : Log) : Option (Uint32 × Uint64) :=
  match l.event with
  | .subscriptionCreated i _ _ _ _ interval startAt =>
      if i = id then some (interval, startAt) else none
  | _ => none

def Storage.charges (s : Storage) (id : Nat) : List (Nat × Nat) := s.logs.filterMap (chargeOf id)

def Storage.enrolments (s : Storage) (id : Nat) : List (Uint32 × Uint64) :=
  s.logs.filterMap (enrolmentOf id)

@[simp] theorem charges_log (s : Storage) (t : Uint64) (e : Event) (id : Nat) :
    (s.log t e).charges id = s.charges id ++ (chargeOf id ⟨t, e⟩).toList := by
  simp only [Storage.charges, Storage.log, List.filterMap_append, List.filterMap_cons,
    List.filterMap_nil]
  cases chargeOf id ⟨t, e⟩ <;> rfl

@[simp] theorem enrolments_log (s : Storage) (t : Uint64) (e : Event) (id : Nat) :
    (s.log t e).enrolments id = s.enrolments id ++ (enrolmentOf id ⟨t, e⟩).toList := by
  simp only [Storage.enrolments, Storage.log, List.filterMap_append, List.filterMap_cons,
    List.filterMap_nil]
  cases enrolmentOf id ⟨t, e⟩ <;> rfl

@[simp] theorem charges_putSubscription (s : Storage) (id' : Nat) (sub : Subscription) (id : Nat) :
    (s.putSubscription id' sub).charges id = s.charges id := rfl

@[simp] theorem enrolments_putSubscription (s : Storage) (id' : Nat) (sub : Subscription)
    (id : Nat) : (s.putSubscription id' sub).enrolments id = s.enrolments id := rfl

@[simp] theorem charges_useAttempt (s : Storage) (attempt : Bytes32) (id : Nat) :
    (s.useAttempt attempt).charges id = s.charges id := rfl

@[simp] theorem enrolments_useAttempt (s : Storage) (attempt : Bytes32) (id : Nat) :
    (s.useAttempt attempt).enrolments id = s.enrolments id := rfl

@[simp] theorem charges_putNextId (s : Storage) (n id : Nat) :
    (s.putNextId n).charges id = s.charges id := rfl

@[simp] theorem enrolments_putNextId (s : Storage) (n id : Nat) :
    (s.putNextId n).enrolments id = s.enrolments id := rfl

@[simp] theorem charges_logSkipped (s : Storage) (msg : Msg) (id' periods : Nat) (start : Uint64)
    (id : Nat) : (s.logSkipped msg id' periods start).charges id = s.charges id := by
  unfold Storage.charges Storage.logSkipped
  split <;> simp [chargeOf]

@[simp] theorem enrolments_logSkipped (s : Storage) (msg : Msg) (id' periods : Nat)
    (start : Uint64) (id : Nat) :
    (s.logSkipped msg id' periods start).enrolments id = s.enrolments id := by
  unfold Storage.enrolments Storage.logSkipped
  split <;> simp [enrolmentOf]

/-- The three views of a storage after an enrolment. -/
theorem enrolled_views (s : Storage) (msg : Msg) (payer : Address) (p : Terms) (id : Nat) :
    (s.enrolled msg payer p).subscriptions id =
        (if id = s.nextSubscriptionId then newSubscription msg payer p else s.subscriptions id) ∧
      (s.enrolled msg payer p).charges id = s.charges id ∧
      (s.enrolled msg payer p).enrolments id = s.enrolments id ++
        (if id = s.nextSubscriptionId then [(p.interval, firstChargeAt msg p)] else []) := by
  refine ⟨?_, ?_, ?_⟩
  · simp [Storage.enrolled, Function.update_apply]
  · simp [Storage.enrolled, chargeOf]
  · by_cases hid : id = s.nextSubscriptionId
    · simp [Storage.enrolled, enrolmentOf, hid]
    · simp [Storage.enrolled, enrolmentOf, hid, Ne.symm hid]

/-- The three views of a storage after a settled row. -/
theorem advanced_views (s : Storage) (msg : Msg) (id' : Nat) (attempt : Bytes32)
    (sub : Subscription) (feeAmount netAmount : Uint256) (start : Uint64) (id : Nat) :
    let next := start + sub.interval.setWidth 64
    let s' := s.advanced msg id' attempt sub feeAmount netAmount start
    s'.subscriptions id =
        (if id = id' then { sub with nextChargeAt := next } else s.subscriptions id) ∧
      s'.charges id = s.charges id ++
        (if id = id' then [(msg.timestamp.toNat, next.toNat)] else []) ∧
      s'.enrolments id = s.enrolments id := by
  refine ⟨?_, ?_, ?_⟩
  · simp [Storage.advanced, Function.update_apply]
  · by_cases hid : id = id'
    · simp [Storage.advanced, chargeOf, hid]
    · simp [Storage.advanced, chargeOf, hid, Ne.symm hid]
  · simp [Storage.advanced, enrolmentOf]

/-! ## One transaction -/

/-- The book is the same: ids, subscriptions, operator cancels, used attempt ids
and nonces, and what the log says of enrolments and charges. -/
structure SameBook (s s' : Storage) : Prop where
  nextId : s'.nextSubscriptionId = s.nextSubscriptionId
  subscriptions : s'.subscriptions = s.subscriptions
  operatorCancelledAt : s'.operatorCancelledAt = s.operatorCancelledAt
  usedAttempts : s'.usedAttempts = s.usedAttempts
  usedIntentNonces : s'.usedIntentNonces = s.usedIntentNonces
  charges : ∀ id, s'.charges id = s.charges id
  enrolments : ∀ id, s'.enrolments id = s.enrolments id

theorem SameBook.refl (s : Storage) : SameBook s s :=
  ⟨rfl, rfl, rfl, rfl, rfl, fun _ => rfl, fun _ => rfl⟩

/-- Everything one transaction can do to the book. -/
inductive Change (O : Outside ξ δ) (this : Address) (l : Label ξ) (c c' : Ctx Storage ξ) : Prop
  | config (h : SameBook c.storage c'.storage)
  | enrolled (payer : Address) (p : Terms) (hp : Checked l.msg p)
      (used : Address → Bytes32 → Bool)
      (hused : ∀ owner nonce, c.storage.usedIntentNonces owner nonce = true →
        used owner nonce = true)
      (h : c'.storage = { c.storage with usedIntentNonces := used }.enrolled l.msg payer p)
  | partyCancelled (id : Nat) (m : Merchant) (haction : l.action = .cancel id)
      (hknown : (c.storage.subscriptions id).payer ≠ 0)
      (hm : O.getMerchant c.storage.registry (c.storage.subscriptions id).merchantId c.ext = .ok m)
      (hparty : isParty l.msg (c.storage.subscriptions id) m = true)
      (hlive : (c.storage.subscriptions id).cancelled = false)
      (h : c'.storage = (c.storage.putSubscription id
        { c.storage.subscriptions id with cancelled := true }).log l.msg.timestamp
          (.subscriptionCancelled id l.msg.sender))
  | operatorCancelled (id : Nat) (m : Merchant) (haction : l.action = .cancel id)
      (hknown : (c.storage.subscriptions id).payer ≠ 0)
      (hm : O.getMerchant c.storage.registry (c.storage.subscriptions id).merchantId c.ext = .ok m)
      (hparty : isParty l.msg (c.storage.subscriptions id) m = false)
      (hoperator : c.storage.hasRole .subscriptionCanceller l.msg.sender = true)
      (hlive : (c.storage.subscriptions id).cancelled = false)
      (h : c'.storage = ((c.storage.putSubscription id
        { c.storage.subscriptions id with cancelled := true }).putOperatorCancelledAt id
          l.msg.timestamp).log l.msg.timestamp (.subscriptionCancelled id l.msg.sender))
  | reinstated (id : Nat) (haction : l.action = .reinstate id)
      (hadmin : c.storage.hasRole .admin l.msg.sender = true)
      (hmarker : c.storage.operatorCancelledAt id ≠ 0)
      (hcancelled : (c.storage.subscriptions id).cancelled = true)
      (hwindow : l.time ≤ (c.storage.operatorCancelledAt id).toNat + REINSTATE_WINDOW.toNat)
      (h : c'.storage = ((c.storage.putSubscription id
        { c.storage.subscriptions id with cancelled := false }).putOperatorCancelledAt id 0).log
          l.msg.timestamp (.subscriptionReinstated id l.msg.sender))
  | charged (rows : List (Nat × Bytes32)) (outcomes : List ChargeOutcome) (c₁ : Ctx Storage ξ)
      (hrows : Rows O this l.msg rows outcomes ⟨c.storage.setEntered true, c.ext⟩ c₁)
      (h : c' = ⟨c₁.storage.setEntered false, c₁.ext⟩)

section Step

variable {l : Label ξ}

theorem enrol_change {payer : Address} {p : Terms} {s₀ : Storage} {x : ξ} {id : Nat}
    (hp : Checked l.msg p) {used : Address → Bytes32 → Bool}
    (h₀ : s₀ = { c.storage with usedIntentNonces := used })
    (hused : ∀ owner nonce, c.storage.usedIntentNonces owner nonce = true →
      used owner nonce = true)
    (h : enrol l.msg payer p ⟨s₀, x⟩ = .ok (id, c')) : Change O this l c c' := by
  obtain ⟨-, -, -, rfl⟩ := enrol_eq_ok.mp h
  exact .enrolled payer p hp used hused (by rw [h₀])

theorem cancel_change (haction : l.action = .cancel id) (h : cancel O l.msg id c = .ok ((), c')) : Change O this l c c' := by
  obtain ⟨hknown, m, hm, hallowed, hlive, ⟨hparty, rfl⟩ | ⟨hparty, rfl⟩⟩ := cancel_eq_ok.mp h
  · exact .operatorCancelled id m haction hknown hm hparty (by simpa [hparty] using hallowed) hlive rfl
  · exact .partyCancelled id m haction hknown hm (by simpa using hparty) hlive rfl

theorem reinstate_change (haction : l.action = .reinstate id)
    (h : reinstate l.msg id c = .ok ((), c')) : Change O this l c c' := by
  obtain ⟨hadmin, hmarked, hrange, hwindow, rfl⟩ := reinstate_eq_ok.mp h
  rw [not_or] at hmarked
  refine .reinstated id haction hadmin hmarked.1 (by simpa using hmarked.2) ?_ rfl
  have hle := BitVec.le_def.mp (BitVec.not_lt.mp hwindow)
  rwa [BitVec.toNat_add_of_lt hrange] at hle

theorem SameBook.log {s s' : Storage} (h : SameBook s s') {t : Uint64} {e : Event}
    (hcharge : ∀ id, chargeOf id ⟨t, e⟩ = none) (henrol : ∀ id, enrolmentOf id ⟨t, e⟩ = none) :
    SameBook s (s'.log t e) where
  nextId := h.nextId
  subscriptions := h.subscriptions
  operatorCancelledAt := h.operatorCancelledAt
  usedAttempts := h.usedAttempts
  usedIntentNonces := h.usedIntentNonces
  charges id := by simp [hcharge, h.charges]
  enrolments id := by simp [henrol, h.enrolments]

theorem SameBook.setEntered {s s' : Storage} (h : SameBook s s') (b : Bool) :
    SameBook s (s'.setEntered b) :=
  ⟨h.nextId, h.subscriptions, h.operatorCancelledAt, h.usedAttempts, h.usedIntentNonces, h.charges,
    h.enrolments⟩

theorem pause_change (h : pause l.msg c = .ok ((), c')) : Change O this l c c' := by
  simp only [pause, bind_eq_ok, sload_eq_ok, onlyRole_eq_ok, whenNotPaused_eq_ok, sstore_eq_ok,
    Prod.mk.injEq, existsAndEq, exists_const, true_and, and_true] at h
  obtain ⟨-, -, rfl⟩ := h
  exact .config ⟨rfl, rfl, rfl, rfl, rfl, fun _ => rfl, fun _ => rfl⟩

theorem unpause_change (h : unpause l.msg c = .ok ((), c')) : Change O this l c c' := by
  simp only [unpause, bind_eq_ok, sload_eq_ok, onlyRole_eq_ok, whenPaused_eq_ok, sstore_eq_ok,
    Prod.mk.injEq, existsAndEq, exists_const, true_and, and_true] at h
  obtain ⟨-, -, rfl⟩ := h
  exact .config ⟨rfl, rfl, rfl, rfl, rfl, fun _ => rfl, fun _ => rfl⟩

theorem setDependency_change {name : String} {write : Address → Storage → Storage} {v : Address}
    (hwrite : ∀ s, SameBook s (write v s))
    (h : setDependency l.msg name write v c = .ok ((), c')) : Change O this l c c' := by
  simp only [setDependency, emit, bind_eq_ok, sload_eq_ok, onlyRole_eq_ok, whenPaused_eq_ok,
    revertIf_eq_ok, sstore_eq_ok, Prod.mk.injEq, existsAndEq, exists_const, true_and, and_true] at h
  obtain ⟨-, -, -, rfl⟩ := h
  exact .config ((hwrite _).log (fun _ => rfl) fun _ => rfl)

theorem rescue_change {token to_ : Address} {amount : Uint256}
    (h : rescue O this l.msg token to_ amount c = .ok ((), c')) : Change O this l c c' := by
  simp only [rescue, nonReentrant, emit, bind_eq_ok, sload_eq_ok, onlyRole_eq_ok, guarded_eq_ok,
    revertIf_eq_ok, call_eq_ok, sstore_eq_ok, Prod.mk.injEq, existsAndEq, exists_const, true_and,
    and_true] at h
  obtain ⟨-, -, x, -, rfl⟩ := h
  exact .config ((((SameBook.refl _).setEntered true).log (fun _ => rfl) fun _ => rfl).setEntered
    false)

/-- Every transaction is one of these. -/
theorem step_change (O : Outside ξ δ) (this : Address) (c : Ctx Storage ξ) (l : Label ξ) :
    Change O this l c (step O this c l) := by
  refine commit_cases (.config (.refl _)) fun _ c' h => ?_
  cases haction : l.action with
  | createSubscription p =>
      simp only [haction, dispatch, bind_eq_ok, pure_eq_ok, Prod.mk.injEq, existsAndEq, true_and,
        and_true] at h
      obtain ⟨id, h⟩ := h
      obtain ⟨-, hp, -, -, h⟩ := createSubscription_eq_ok.mp h
      exact enrol_change hp rfl (fun _ _ h => h) h
  | permitAndCreateSubscription p nonce permitData permitSig intentSig =>
      simp only [haction, dispatch, bind_eq_ok, pure_eq_ok, Prod.mk.injEq, existsAndEq, true_and,
        and_true] at h
      obtain ⟨id, h⟩ := h
      obtain ⟨-, hp, -, -, -, -, -, -, permit, x, -, -, h⟩ :=
        permitAndCreateSubscription_eq_ok.mp h
      refine enrol_change hp rfl (fun owner' nonce' hused => ?_) h
      by_cases howner : owner' = permitData.owner
      · subst howner
        by_cases hnonce : nonce' = nonce <;> simp [hnonce, hused]
      · simp [howner, hused]
  | cancel id =>
      rw [haction] at h
      exact cancel_change haction h
  | reinstate id =>
      rw [haction] at h
      exact reinstate_change haction h
  | batchCharge ids attempts =>
      simp only [haction, dispatch, bind_eq_ok, pure_eq_ok, Prod.mk.injEq, existsAndEq, true_and,
        and_true] at h
      obtain ⟨outcomes, h⟩ := h
      obtain ⟨-, -, -, -, -, c₁, hrows, rfl⟩ := batchCharge_eq_ok.mp h
      exact .charged _ outcomes c₁ (chargeRows_ok hrows) rfl
  | settleCharge payer token collector merchantId feeAmount payout netAmount =>
      rw [haction] at h
      obtain ⟨-, x, -, rfl⟩ := settleCharge_ok h
      exact .config (.refl _)
  | pause =>
      rw [haction] at h
      exact pause_change h
  | unpause =>
      rw [haction] at h
      exact unpause_change h
  | setRegistry v =>
      simp only [haction, dispatch, setRegistry] at h
      exact setDependency_change (fun s => ⟨rfl, rfl, rfl, rfl, rfl, fun _ => rfl, fun _ => rfl⟩) h
  | setFeeCollector v =>
      simp only [haction, dispatch, setFeeCollector] at h
      exact setDependency_change (fun s => ⟨rfl, rfl, rfl, rfl, rfl, fun _ => rfl, fun _ => rfl⟩) h
  | setTokenWhitelist v =>
      simp only [haction, dispatch, setTokenWhitelist] at h
      exact setDependency_change (fun s => ⟨rfl, rfl, rfl, rfl, rfl, fun _ => rfl, fun _ => rfl⟩) h
  | rescue token to_ amount =>
      rw [haction] at h
      exact rescue_change h
  | setRoles hasRole =>
      simp only [haction, dispatch, sstore_eq_ok, Prod.mk.injEq, true_and] at h
      subst h
      exact .config ⟨rfl, rfl, rfl, rfl, rfl, fun _ => rfl, fun _ => rfl⟩
  | external f =>
      simp only [haction, dispatch, modify_eq_ok, Prod.mk.injEq, true_and] at h
      subst h
      exact .config (.refl _)

end Step

end Strimz.Subscriptions
