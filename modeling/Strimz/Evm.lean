import Strimz.Tx

/-!
# The machine the contracts run on

Fixed-width words, addresses, the message a call carries, the roles of
`StrimzAccessControl` and the reasons a call can revert with. Words are
`BitVec`s, so `+` and `*` on them are Solidity's `unchecked` operators;
`checkedAdd` and `checkedSub` are the default ones, which revert.

A block's timestamp is a 64-bit header field, so `uint64(block.timestamp)`
is the timestamp itself. Identifiers handed out by a counter (merchant,
subscription and job ids) are natural numbers: a counter that starts at 1
is 2^256 transactions away from wrapping.
-/

namespace Strimz

abbrev Address := BitVec 160
abbrev Uint16 := BitVec 16
abbrev Uint32 := BitVec 32
abbrev Uint64 := BitVec 64
abbrev Uint256 := BitVec 256
abbrev Bytes32 := BitVec 256
abbrev Bytes := List UInt8

/-- What a call carries: `msg.sender` and `block.timestamp`. -/
structure Msg where
  sender : Address
  timestamp : Uint64
deriving Repr, DecidableEq

/-- The roles the contracts check (`StrimzAccessControl`, and the escrow's
resolver role). -/
inductive Role where
  | defaultAdmin
  | admin
  | upgrader
  | charger
  | subscriptionCanceller
  | tokenManager
  | merchantRegistrar
  | feeAccruer
  | treasury
  | agentAdmin
  | pauser
  | feeManager
  | disputeResolver
deriving Repr, DecidableEq

/-- Who holds which role, as OpenZeppelin's `hasRole` answers it. -/
abbrev RoleTable := Role → Address → Bool

/-! ## Revert reasons -/

inductive RegistryError where
  | zeroAddress
  | unknownMerchant (merchantId : Nat)
  | notMerchantOwner
  | notPendingOwner
  | noPendingTransfer
  | feeTooHigh (feeBps : Uint16)
  | feeExceedsMax (requested max : Uint16)
  | merchantInactive (merchantId : Nat)
  | unknownParentMerchant (parentMerchantId : Nat)
  | sameOwner
  | samePayoutAddress
  | noPendingPayoutChange
  | payoutChangeNotDue
  | ownershipTransferNotDue
  | noPendingFeeChange
  | feeChangeNotDue
deriving Repr, DecidableEq

inductive FeeCollectorError where
  | zeroAmount
  | insufficientBalance
deriving Repr, DecidableEq

inductive PaymentsError where
  | invalidToken (token : Address)
  | invalidAmount
  | unsupportedCapability (token : Address)
  | invalidIntent
  | invalidSignature
  | nonStandardTransfer
  | zeroAddress
deriving Repr, DecidableEq

inductive SubscriptionsError where
  | invalidToken (token : Address)
  | invalidInterval
  | invalidAmount
  | invalidMerchantId
  | invalidEndAt
  | invalidStartAt
  | unknownSubscription (subscriptionId : Nat)
  | notSubscriptionParty
  | lengthMismatch
  | unsupportedCapability (token : Address)
  | invalidIntent
  | alreadyCancelled (subscriptionId : Nat)
  | intentAlreadyUsed (nonce : Bytes32)
  | permitBelowAmount (value amount : Uint256)
  | notReinstatable (subscriptionId : Nat)
  | reinstateWindowClosed (subscriptionId : Nat)
  | invalidSignature
  | batchTooLarge (provided max : Nat)
  | zeroAddress
  | onlySelf
  | nonStandardTransfer
deriving Repr, DecidableEq

/-- `IStrimzAgentEscrow.JobStatus`. -/
inductive JobStatus where
  | none
  | proposed
  | funded
  | inProgress
  | delivered
  | completed
  | disputed
  | cancelled
  | resolved
  | reclaimed
deriving Repr, DecidableEq

inductive AgentEscrowError where
  | invalidState (jobId : Nat) (status : JobStatus)
  | notClient
  | notVendor
  | notAssessor
  | notParty
  | zeroAmount
  | zeroAddress
  | invalidToken (token : Address)
  | unknownJob (jobId : Nat)
  | selfDeal
  | timeoutNotReached
  | resolutionSumMismatch (provided expected : Uint256)
  | nonStandardTransfer
deriving Repr, DecidableEq

/-- Why a call reverted. `external` is whatever code outside the
repository reverted with. -/
inductive Revert where
  | external (data : Bytes)
  | panic
  | accessControlUnauthorizedAccount (account : Address) (neededRole : Role)
  | enforcedPause
  | expectedPause
  | reentrancyGuardReentrantCall
  | safeCastOverflowedUintDowncast
  | registry (e : RegistryError)
  | feeCollector (e : FeeCollectorError)
  | payments (e : PaymentsError)
  | subscriptions (e : SubscriptionsError)
  | agentEscrow (e : AgentEscrowError)
deriving Repr, DecidableEq

/-! ## Modifiers and arithmetic shared by the contracts -/

open Tx

section Checks

variable {σ : Type} {w : Nat}

def onlyRole (hasRole : RoleTable) (role : Role) (sender : Address) : Tx Revert σ Unit :=
  revertIf (hasRole role sender = false) (.accessControlUnauthorizedAccount sender role)

def whenNotPaused (paused : Bool) : Tx Revert σ Unit :=
  revertIf (paused = true) .enforcedPause

def whenPaused (paused : Bool) : Tx Revert σ Unit :=
  revertIf (paused = false) .expectedPause

/-- The entry check of `nonReentrant`. -/
def notEntered (entered : Bool) : Tx Revert σ Unit :=
  revertIf (entered = true) .reentrancyGuardReentrantCall

def checkedAdd (a b : BitVec w) : Tx Revert σ (BitVec w) := do
  revertIf (2 ^ w ≤ a.toNat + b.toNat) .panic
  return a + b

def checkedSub (a b : BitVec w) : Tx Revert σ (BitVec w) := do
  revertIf (a.toNat < b.toNat) .panic
  return a - b

variable {s : σ}

theorem onlyRole_eq_ok {hasRole : RoleTable} {role : Role} {sender : Address} {r : Unit × σ} :
    onlyRole hasRole role sender s = .ok r ↔ hasRole role sender = true ∧ r = ((), s) := by
  simp [onlyRole, revertIf_eq_ok]

theorem whenNotPaused_eq_ok {paused : Bool} {r : Unit × σ} :
    whenNotPaused paused s = .ok r ↔ paused = false ∧ r = ((), s) := by
  simp [whenNotPaused, revertIf_eq_ok]

theorem whenPaused_eq_ok {paused : Bool} {r : Unit × σ} :
    whenPaused paused s = .ok r ↔ paused = true ∧ r = ((), s) := by
  simp [whenPaused, revertIf_eq_ok]

theorem notEntered_eq_ok {entered : Bool} {r : Unit × σ} :
    notEntered entered s = .ok r ↔ entered = false ∧ r = ((), s) := by
  simp [notEntered, revertIf_eq_ok]

theorem checkedAdd_eq_ok {a b : BitVec w} {r : BitVec w × σ} :
    checkedAdd a b s = .ok r ↔ a.toNat + b.toNat < 2 ^ w ∧ r = (a + b, s) := by
  simp only [checkedAdd, bind_eq_ok, revertIf_eq_ok, pure_eq_ok, Prod.mk.injEq, existsAndEq,
    exists_const, and_true, Nat.not_le]

theorem checkedSub_eq_ok {a b : BitVec w} {r : BitVec w × σ} :
    checkedSub a b s = .ok r ↔ b.toNat ≤ a.toNat ∧ r = (a - b, s) := by
  simp only [checkedSub, bind_eq_ok, revertIf_eq_ok, pure_eq_ok, Prod.mk.injEq, existsAndEq,
    exists_const, and_true, Nat.not_lt]

end Checks

end Strimz
