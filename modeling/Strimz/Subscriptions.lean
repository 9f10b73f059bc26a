import Strimz.Runs
import Strimz.PayerSignature

/-!
# StrimzSubscriptions

Recurring billing (`core/StrimzSubscriptions.sol`), over an arbitrary
`Outside`: enrolment with and without a permit, cancel and reinstate, and the
scheduler's `batchCharge`, whose rows fail one by one. `settleCharge` is
external in the source so that `charge` can catch its revert; here the catch is
`attempt`, and the entry point stays callable by anyone, as it is there.

Timestamps are compared in the source as `uint256`. A `uint256` expression over
timestamps is computed on natural numbers here and cast back by `toUint64`,
which reverts like `SafeCast.toUint64`.
-/

namespace Strimz

/-- `IStrimzSubscriptions.Subscription`. -/
structure Subscription where
  payer : Address
  nextChargeAt : Uint64
  interval : Uint32
  token : Address
  merchantId : Nat
  amount : Uint256
  endAt : Uint64
  cancelled : Bool
deriving Repr, DecidableEq

/-- `IStrimzSubscriptions.ChargeOutcome`, less the `None` no call returns. -/
inductive ChargeOutcome where
  | charged
  | insufficientFunds
  | revokedApproval
  | cancelled
  | notDue
  | ended
  | duplicate
  | unknown
  | merchantInactive
  | transferFailed
  | tokenNotAllowed
deriving Repr, DecidableEq

namespace Subscriptions

open Tx

/-- One hour. -/
def MIN_INTERVAL : Uint32 := 3600
def MAX_MERCHANT_ID : Nat := 2 ^ 96 - 1
def MAX_BATCH_SIZE : Nat := 500
/-- 7 days. -/
def REINSTATE_WINDOW : Uint64 := 604800

inductive Event where
  | subscriptionCreated (subscriptionId merchantId : Nat) (payer token : Address)
      (amount : Uint256) (interval : Uint32) (startAt : Uint64)
  | subscriptionCharged (subscriptionId : Nat) (chargeAttemptId : Bytes32)
      (amount feeAmount netAmount : Uint256) (nextChargeAt : Uint64)
  | subscriptionPeriodsSkipped (subscriptionId periodsSkipped : Nat) (paidPeriodStart : Uint64)
  | subscriptionChargeSkipped (subscriptionId : Nat) (chargeAttemptId : Bytes32)
      (outcome : ChargeOutcome)
  | subscriptionCancelled (subscriptionId : Nat) (by_ : Address)
  | subscriptionReinstated (subscriptionId : Nat) (by_ : Address)
  | tokensRescued (token to_ : Address) (amount : Uint256) (by_ : Address)
  | dependencyUpdated (name : String) (newAddress : Address)
deriving Repr, DecidableEq

/-- An event with the timestamp of its block. -/
structure Log where
  timestamp : Uint64
  event : Event
deriving Repr, DecidableEq

structure Storage where
  hasRole : RoleTable
  paused : Bool
  entered : Bool
  registry : Address
  feeCollector : Address
  tokenWhitelist : Address
  nextSubscriptionId : Nat
  subscriptions : Nat → Subscription
  usedAttempts : Bytes32 → Bool
  usedIntentNonces : Address → Bytes32 → Bool
  operatorCancelledAt : Nat → Uint64
  logs : List Log

def noSubscription : Subscription := ⟨0, 0, 0, 0, 0, 0, 0, false⟩

/-- The storage the constructor leaves behind, whatever roles were granted. -/
def deployed (hasRole : RoleTable) (registry feeCollector tokenWhitelist : Address) :
    Storage where
  hasRole := hasRole
  paused := false
  entered := false
  registry := registry
  feeCollector := feeCollector
  tokenWhitelist := tokenWhitelist
  nextSubscriptionId := 1
  subscriptions := fun _ => noSubscription
  usedAttempts := fun _ => false
  usedIntentNonces := fun _ _ => false
  operatorCancelledAt := fun _ => 0
  logs := []

/-! ## Storage writes -/

@[simps]
def Storage.setEntered (entered : Bool) (s : Storage) : Storage := { s with entered := entered }

@[simps]
def Storage.putNextId (s : Storage) (id : Nat) : Storage := { s with nextSubscriptionId := id }

@[simps]
def Storage.putSubscription (s : Storage) (id : Nat) (sub : Subscription) : Storage :=
  { s with subscriptions := Function.update s.subscriptions id sub }

@[simps]
def Storage.useAttempt (s : Storage) (chargeAttemptId : Bytes32) : Storage :=
  { s with usedAttempts := Function.update s.usedAttempts chargeAttemptId true }

@[simps]
def Storage.useIntentNonce (s : Storage) (owner : Address) (nonce : Bytes32) : Storage :=
  let nonces := Function.update (s.usedIntentNonces owner) nonce true
  { s with usedIntentNonces := Function.update s.usedIntentNonces owner nonces }

@[simps]
def Storage.putOperatorCancelledAt (s : Storage) (id : Nat) (t : Uint64) : Storage :=
  { s with operatorCancelledAt := Function.update s.operatorCancelledAt id t }

@[simps]
def Storage.log (s : Storage) (timestamp : Uint64) (e : Event) : Storage :=
  { s with logs := s.logs ++ [⟨timestamp, e⟩] }

section Code

variable {ξ δ : Type}

abbrev Call (ξ α : Type) := Tx Revert (Ctx Storage ξ) α

def emit (msg : Msg) (e : Event) : Call ξ Unit := sstore (·.log msg.timestamp e)

/-- `SafeCast.toUint64` -/
def toUint64 (n : Nat) : Call ξ Uint64 := do
  revertIf (2 ^ 64 ≤ n) .safeCastOverflowedUintDowncast
  return BitVec.ofNat 64 n

def nonReentrant {α : Type} (body : Call ξ α) : Call ξ α :=
  guarded Storage.entered Storage.setEntered body

variable (O : Outside ξ δ) (this : Address)

/-! ## Pausing, dependencies, rescue -/

def pause (msg : Msg) : Call ξ Unit := do
  let s ← sload
  onlyRole s.hasRole .pauser msg.sender
  whenNotPaused s.paused
  sstore fun s => { s with paused := true }

def unpause (msg : Msg) : Call ξ Unit := do
  let s ← sload
  onlyRole s.hasRole .admin msg.sender
  whenPaused s.paused
  sstore fun s => { s with paused := false }

/-- What the three dependency setters share; each is this at its own slot. -/
def setDependency (msg : Msg) (name : String) (write : Address → Storage → Storage)
    (v : Address) : Call ξ Unit := do
  let s ← sload
  onlyRole s.hasRole .defaultAdmin msg.sender
  whenPaused s.paused
  revertIf (v = 0) (.subscriptions .zeroAddress)
  sstore (write v)
  emit msg (.dependencyUpdated name v)

def setRegistry (msg : Msg) (v : Address) : Call ξ Unit :=
  setDependency msg "registry" (fun v s => { s with registry := v }) v

def setFeeCollector (msg : Msg) (v : Address) : Call ξ Unit :=
  setDependency msg "feeCollector" (fun v s => { s with feeCollector := v }) v

def setTokenWhitelist (msg : Msg) (v : Address) : Call ξ Unit :=
  setDependency msg "tokenWhitelist" (fun v s => { s with tokenWhitelist := v }) v

def rescue (msg : Msg) (token to_ : Address) (amount : Uint256) : Call ξ Unit := do
  let s ← sload
  onlyRole s.hasRole .admin msg.sender
  nonReentrant do
    revertIf (to_ = 0) (.subscriptions .zeroAddress)
    revertIf (amount = 0) (.subscriptions .invalidAmount)
    call (O.safeTransfer ⟨this, msg.timestamp⟩ token to_ amount)
    emit msg (.tokensRescued token to_ amount msg.sender)

/-! ## Enrolment -/

/-- The parameters the two enrolment functions share. -/
structure Terms where
  merchantId : Nat
  token : Address
  amount : Uint256
  interval : Uint32
  startAt : Uint64
  endAt : Uint64
deriving Repr, DecidableEq

/-- The first checks of both enrolment functions. -/
def checkTerms (msg : Msg) (p : Terms) : Call ξ Unit := do
  revertIf (p.amount = 0) (.subscriptions .invalidAmount)
  revertIf (p.interval < MIN_INTERVAL) (.subscriptions .invalidInterval)
  revertIf (MAX_MERCHANT_ID < p.merchantId) (.subscriptions .invalidMerchantId)
  revertIf (p.startAt ≠ 0 ∧ p.startAt < msg.timestamp) (.subscriptions .invalidStartAt)

/-- `startAt == 0 ? uint64(block.timestamp) : startAt` -/
def firstChargeAt (msg : Msg) (p : Terms) : Uint64 :=
  if p.startAt = 0 then msg.timestamp else p.startAt

def newSubscription (msg : Msg) (payer : Address) (p : Terms) : Subscription where
  payer := payer
  nextChargeAt := firstChargeAt msg p
  interval := p.interval
  token := p.token
  merchantId := p.merchantId
  amount := p.amount
  endAt := p.endAt
  cancelled := false

/-- The last lines of both enrolment functions. -/
def enrol (msg : Msg) (payer : Address) (p : Terms) : Call ξ Nat := do
  revertIf (p.endAt ≠ 0 ∧ p.endAt ≤ firstChargeAt msg p) (.subscriptions .invalidEndAt)
  let s ← sload
  let subscriptionId := s.nextSubscriptionId
  sstore (·.putNextId (subscriptionId + 1))
  revertIf (2 ^ 96 ≤ p.merchantId) .safeCastOverflowedUintDowncast
  sstore (·.putSubscription subscriptionId (newSubscription msg payer p))
  emit msg (.subscriptionCreated subscriptionId p.merchantId payer p.token p.amount p.interval
    (firstChargeAt msg p))
  return subscriptionId

def createSubscription (msg : Msg) (p : Terms) : Call ξ Nat := do
  let s ← sload
  whenNotPaused s.paused
  checkTerms msg p
  let allowed ← staticcall (O.isWhitelisted s.tokenWhitelist p.token)
  revertIf (allowed = false) (.subscriptions (.invalidToken p.token))
  let _ ← staticcall (O.requireActiveMerchant s.registry p.merchantId)
  enrol msg msg.sender p

def subscriptionIntent (p : Terms) (nonce : Bytes32) (permitData : PermitData) :
    SubscriptionIntent where
  merchantId := p.merchantId
  token := p.token
  amount := p.amount
  interval := p.interval
  startAt := p.startAt
  endAt := p.endAt
  permitDeadline := permitData.deadline
  permitValue := permitData.value
  nonce := nonce

/-- `_verifySubscriptionIntent` -/
def verifySubscriptionIntent (p : Terms) (nonce : Bytes32) (permitData : PermitData)
    (intentSig : Bytes) : Call ξ Unit := do
  let digest := O.subscriptionIntentDigest (subscriptionIntent p nonce permitData)
  let valid ← staticcall fun x =>
    .ok (PayerSignature.isValid O.toSignatures permitData.owner digest intentSig x)
  revertIf (valid = false) (.subscriptions .invalidIntent)

/-- `_requireAllowance`: the permit's own revert reason is bubbled up. -/
def requireAllowance (token : Address) (permitData : PermitData) (reason : Revert) :
    Call ξ Unit := do
  let allowance ← staticcall (O.allowance token permitData.owner this)
  revertIf (allowance < permitData.value) reason

/-- `try permit catch (reason) { _requireAllowance }` -/
def tryPermit (token : Address) (permitData : PermitData) (permit : Call ξ Unit) :
    Call ξ Unit := do
  match ← attempt permit with
  | .ok _ => pure ()
  | .error reason => requireAllowance O this token permitData reason

/-- `_permitOrRequireAllowance` -/
def permitOrRequireAllowance (msg : Msg) (token : Address) (permitData : PermitData)
    (permitSig : Bytes) : Call ξ Unit := do
  let codeLength ← staticcall fun x => .ok (O.codeLength permitData.owner x)
  if codeLength ≠ 0 then
    tryPermit O this token permitData (call (O.permitBytes ⟨this, msg.timestamp⟩ token
      permitData.owner this permitData.value permitData.deadline permitSig))
  else
    match PayerSignature.split permitSig with
    | none => throw (.subscriptions .invalidSignature)
    | some vrs =>
        tryPermit O this token permitData (call (O.permit ⟨this, msg.timestamp⟩ token
          permitData.owner this permitData.value permitData.deadline vrs))

def permitAndCreateSubscription (msg : Msg) (p : Terms) (nonce : Bytes32)
    (permitData : PermitData) (permitSig intentSig : Bytes) : Call ξ Nat := do
  let s ← sload
  whenNotPaused s.paused
  checkTerms msg p
  let allowed ← staticcall (O.isWhitelisted s.tokenWhitelist p.token)
  revertIf (allowed = false) (.subscriptions (.invalidToken p.token))
  let supported ← staticcall (O.supportsCapability s.tokenWhitelist p.token CAP_PERMIT_2612)
  revertIf (supported = false) (.subscriptions (.unsupportedCapability p.token))
  let _ ← staticcall (O.requireActiveMerchant s.registry p.merchantId)
  revertIf (permitData.value < p.amount)
    (.subscriptions (.permitBelowAmount permitData.value p.amount))
  verifySubscriptionIntent O p nonce permitData intentSig
  revertIf (s.usedIntentNonces permitData.owner nonce = true)
    (.subscriptions (.intentAlreadyUsed nonce))
  sstore (·.useIntentNonce permitData.owner nonce)
  permitOrRequireAllowance O this msg p.token permitData permitSig
  enrol msg permitData.owner p

/-! ## Cancel and reinstate -/

def cancel (msg : Msg) (subscriptionId : Nat) : Call ξ Unit := do
  let s ← sload
  let sub := s.subscriptions subscriptionId
  revertIf (sub.payer = 0) (.subscriptions (.unknownSubscription subscriptionId))
  let m ← staticcall (O.getMerchant s.registry sub.merchantId)
  let party := msg.sender == sub.payer || msg.sender == m.owner
  revertIf (party = false ∧ s.hasRole .subscriptionCanceller msg.sender = false)
    (.subscriptions .notSubscriptionParty)
  revertIf (sub.cancelled = true) (.subscriptions (.alreadyCancelled subscriptionId))
  sstore (·.putSubscription subscriptionId { sub with cancelled := true })
  if party = false then sstore (·.putOperatorCancelledAt subscriptionId msg.timestamp)
  else pure ()
  emit msg (.subscriptionCancelled subscriptionId msg.sender)

def reinstate (msg : Msg) (subscriptionId : Nat) : Call ξ Unit := do
  let s ← sload
  onlyRole s.hasRole .admin msg.sender
  let cancelledAt := s.operatorCancelledAt subscriptionId
  let sub := s.subscriptions subscriptionId
  revertIf (cancelledAt = 0 ∨ sub.cancelled = false)
    (.subscriptions (.notReinstatable subscriptionId))
  let deadline ← checkedAdd cancelledAt REINSTATE_WINDOW
  revertIf (deadline < msg.timestamp) (.subscriptions (.reinstateWindowClosed subscriptionId))
  sstore (·.putSubscription subscriptionId { sub with cancelled := false })
  sstore (·.putOperatorCancelledAt subscriptionId 0)
  emit msg (.subscriptionReinstated subscriptionId msg.sender)

/-! ## Charging -/

/-- `_settleCharge` -/
def settleCharge (msg : Msg) (payer token feeCollectorAddr : Address) (merchantId : Nat)
    (feeAmount : Uint256) (payoutAddr : Address) (netAmount : Uint256) : Call ξ Unit := do
  revertIf (msg.sender ≠ this) (.subscriptions .onlySelf)
  let self : Msg := ⟨this, msg.timestamp⟩
  collectFee O self token feeCollectorAddr merchantId feeAmount
    (exactTransferFrom O.toToken (.subscriptions .nonStandardTransfer) self token payer
      feeCollectorAddr feeAmount)
  exactTransferFrom O.toToken (.subscriptions .nonStandardTransfer) self token payer payoutAddr
    netAmount

def skip (msg : Msg) (subscriptionId : Nat) (chargeAttemptId : Bytes32)
    (outcome : ChargeOutcome) : Call ξ ChargeOutcome := do
  emit msg (.subscriptionChargeSkipped subscriptionId chargeAttemptId outcome)
  return outcome

def periodsSkipped (msg : Msg) (sub : Subscription) : Nat :=
  (msg.timestamp.toNat - sub.nextChargeAt.toNat) / sub.interval.toNat

/-- The `try` block's success branch. -/
def advance (msg : Msg) (subscriptionId : Nat) (chargeAttemptId : Bytes32) (sub : Subscription)
    (feeAmount netAmount : Uint256) (paidPeriodStart : Uint64) : Call ξ ChargeOutcome := do
  let nextChargeAt := paidPeriodStart + sub.interval.setWidth 64
  sstore (·.putSubscription subscriptionId { sub with nextChargeAt := nextChargeAt })
  if 0 < periodsSkipped msg sub then
    emit msg (.subscriptionPeriodsSkipped subscriptionId (periodsSkipped msg sub) paidPeriodStart)
  else pure ()
  emit msg (.subscriptionCharged subscriptionId chargeAttemptId sub.amount feeAmount netAmount
    nextChargeAt)
  return .charged

/-- `_charge` past its skips: burn the id, settle under `try`, advance. -/
def chargeDue (msg : Msg) (subscriptionId : Nat) (chargeAttemptId : Bytes32)
    (sub : Subscription) (m : Merchant) : Call ξ ChargeOutcome := do
  let feeAmount := feeOf sub.amount m.feeBps
  let netAmount ← checkedSub sub.amount feeAmount
  revertIf (sub.interval = 0) .panic
  let paidPeriodStart ←
    toUint64 (sub.nextChargeAt.toNat + periodsSkipped msg sub * sub.interval.toNat)
  sstore (·.useAttempt chargeAttemptId)
  let s ← sload
  match ← attempt (settleCharge O this ⟨this, msg.timestamp⟩ sub.payer sub.token s.feeCollector
      sub.merchantId feeAmount m.payoutAddress netAmount) with
  | .ok _ => advance msg subscriptionId chargeAttemptId sub feeAmount netAmount paidPeriodStart
  | .error _ => skip msg subscriptionId chargeAttemptId .transferFailed

/-- `_charge` -/
def charge (msg : Msg) (subscriptionId : Nat) (chargeAttemptId : Bytes32) :
    Call ξ ChargeOutcome := do
  let s ← sload
  let sub := s.subscriptions subscriptionId
  if s.usedAttempts chargeAttemptId = true then
    skip msg subscriptionId chargeAttemptId .duplicate
  else if sub.payer = 0 then skip msg subscriptionId chargeAttemptId .unknown
  else if sub.cancelled = true then skip msg subscriptionId chargeAttemptId .cancelled
  else if msg.timestamp < sub.nextChargeAt then skip msg subscriptionId chargeAttemptId .notDue
  else if sub.endAt ≠ 0 ∧ sub.endAt ≤ msg.timestamp then
    skip msg subscriptionId chargeAttemptId .ended
  else do
    let allowed ← staticcall (O.isWhitelisted s.tokenWhitelist sub.token)
    if allowed = false then skip msg subscriptionId chargeAttemptId .tokenNotAllowed
    else do
      let allowance ← staticcall (O.allowance sub.token sub.payer this)
      if allowance < sub.amount then skip msg subscriptionId chargeAttemptId .revokedApproval
      else do
        let balance ← staticcall (O.balanceOf sub.token sub.payer)
        if balance < sub.amount then skip msg subscriptionId chargeAttemptId .insufficientFunds
        else do
          match ← attempt (staticcall (O.requireActiveMerchant s.registry sub.merchantId)) with
          | .error _ => skip msg subscriptionId chargeAttemptId .merchantInactive
          | .ok m => chargeDue O this msg subscriptionId chargeAttemptId sub m

/-- The loop of `batchCharge`. -/
def chargeRows (msg : Msg) : List (Nat × Bytes32) → Call ξ (List ChargeOutcome)
  | [] => pure []
  | row :: rows => do
      let outcome ← charge O this msg row.1 row.2
      let outcomes ← chargeRows msg rows
      return outcome :: outcomes

def batchCharge (msg : Msg) (subscriptionIds : List Nat) (chargeAttemptIds : List Bytes32) :
    Call ξ (List ChargeOutcome) := do
  let s ← sload
  whenNotPaused s.paused
  onlyRole s.hasRole .charger msg.sender
  nonReentrant do
    revertIf (subscriptionIds.length ≠ chargeAttemptIds.length) (.subscriptions .lengthMismatch)
    revertIf (MAX_BATCH_SIZE < subscriptionIds.length)
      (.subscriptions (.batchTooLarge subscriptionIds.length MAX_BATCH_SIZE))
    chargeRows O this msg (subscriptionIds.zip chargeAttemptIds)

/-! ## The contract as a machine -/

/-- The state-changing entry points; `setRoles` for whatever the access control
does to the role table, and `external` for everything that happens outside. -/
inductive Action (ξ : Type) where
  | createSubscription (p : Terms)
  | permitAndCreateSubscription (p : Terms) (nonce : Bytes32) (permitData : PermitData)
      (permitSig intentSig : Bytes)
  | cancel (subscriptionId : Nat)
  | reinstate (subscriptionId : Nat)
  | batchCharge (subscriptionIds : List Nat) (chargeAttemptIds : List Bytes32)
  | settleCharge (payer token feeCollectorAddr : Address) (merchantId : Nat)
      (feeAmount : Uint256) (payoutAddr : Address) (netAmount : Uint256)
  | pause
  | unpause
  | setRegistry (v : Address)
  | setFeeCollector (v : Address)
  | setTokenWhitelist (v : Address)
  | rescue (token to_ : Address) (amount : Uint256)
  | setRoles (hasRole : RoleTable)
  | external (f : ξ → ξ)

structure Label (ξ : Type) where
  msg : Msg
  action : Action ξ

def Label.time (l : Label ξ) : Nat := l.msg.timestamp.toNat

def dispatch (msg : Msg) : Action ξ → Call ξ Unit
  | .createSubscription p => do let _ ← createSubscription O msg p
  | .permitAndCreateSubscription p nonce permitData permitSig intentSig => do
      let _ ← permitAndCreateSubscription O this msg p nonce permitData permitSig intentSig
  | .cancel id => cancel O msg id
  | .reinstate id => reinstate msg id
  | .batchCharge ids attempts => do let _ ← batchCharge O this msg ids attempts
  | .settleCharge payer token collector merchantId feeAmount payout netAmount =>
      settleCharge O this msg payer token collector merchantId feeAmount payout netAmount
  | .pause => pause msg
  | .unpause => unpause msg
  | .setRegistry v => setRegistry msg v
  | .setFeeCollector v => setFeeCollector msg v
  | .setTokenWhitelist v => setTokenWhitelist msg v
  | .rescue token to_ amount => rescue O this msg token to_ amount
  | .setRoles hasRole => sstore fun s => { s with hasRole := hasRole }
  | .external f => modify fun c => { c with ext := f c.ext }

/-- One transaction: a revert leaves everything as it was. -/
def step (c : Ctx Storage ξ) (l : Label ξ) : Ctx Storage ξ :=
  commit (dispatch O this l.msg l.action) c

/-- The state before the `n`-th transaction of a run from deployment. -/
abbrev runAt (hasRole : RoleTable) (registry feeCollector tokenWhitelist : Address) (x : ξ)
    (ls : List (Label ξ)) (n : Nat) : Ctx Storage ξ :=
  Runs.stateAt (step O this) ⟨deployed hasRole registry feeCollector tokenWhitelist, x⟩ ls n

end Code

end Subscriptions

end Strimz
