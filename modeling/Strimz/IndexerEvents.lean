import Strimz.Evm

/-!
# The events the indexer projects

The typed payloads of `internal/abi/events.go`, one constructor an event, and the log
that carries one. Decoding itself is go-ethereum's: a log arrives with what
`Registry.Decode` made of it. Amounts and ids are the `uint256` of the log as a natural
number, strings are the bytes a contract emitted, and a Go `time.Time` is its Unix
seconds.
-/

namespace Strimz.Indexer

inductive Currency where
  | usdc
  | eurc
deriving Repr, DecidableEq

inductive Mode where
  | test
  | live
deriving Repr, DecidableEq

/-- The database's `SubscriptionChargeOutcome`. -/
inductive SubscriptionChargeOutcome where
  | charged
  | insufficient_funds
  | revoked_approval
  | cancelled
  | not_due
  | ended
  | duplicate
  | unknown
  | merchant_inactive
  | transfer_failed
  | skipped
deriving Repr, DecidableEq

/-- `ChargeOutcome`, the enum as the log carries it. -/
abbrev ChargeOutcomeCode := Nat

/-- `ChargeOutcome.DBString` -/
def dbString : ChargeOutcomeCode → SubscriptionChargeOutcome
  | 1 => .charged
  | 2 => .insufficient_funds
  | 3 => .revoked_approval
  | 4 => .cancelled
  | 5 => .not_due
  | 6 => .ended
  | 7 => .duplicate
  | 8 => .unknown
  | 9 => .merchant_inactive
  | 10 => .transfer_failed
  | _ => .skipped

def isPaymentFailure : ChargeOutcomeCode → Bool
  | 2 | 3 | 9 | 10 => true
  | _ => false

inductive Payload where
  | merchantRegistered (merchantId : Nat) (owner payoutAddress : Address)
      (feeBps maxFeeBps : Uint16)
  | merchantPayoutAddressUpdated (merchantId : Nat) (newPayoutAddress : Address)
  | merchantFeeBpsUpdated (merchantId : Nat) (newFeeBps : Uint16)
  | merchantActiveSet (merchantId : Nat) (active : Bool)
  | merchantOwnershipTransferInitiated (merchantId : Nat) (currentOwner pendingOwner : Address)
  | merchantOwnershipTransferAccepted (merchantId : Nat) (previousOwner newOwner : Address)
  | merchantOwnershipTransferCancelled (merchantId : Nat)
  | merchantPayoutChangeInitiated (merchantId : Nat) (newPayoutAddress : Address)
      (commitAt : Uint64)
  | merchantPayoutChangeCancelled (merchantId : Nat)
  | merchantMaxFeeBpsLowered (merchantId : Nat) (newMaxFeeBps : Uint16)
  | paymentExecuted (merchantId : Nat) (payer token : Address)
      (amount feeAmount netAmount : Nat) (ref : Bytes)
  | subscriptionCreated (subscriptionId merchantId : Nat) (payer token : Address) (amount : Nat)
      (intervalSecs : Uint32) (startAt : Uint64)
  | subscriptionCharged (subscriptionId : Nat) (chargeAttemptId : Bytes32)
      (amount feeAmount netAmount : Nat) (nextChargeAt : Uint64)
  | subscriptionPeriodsSkipped (subscriptionId periodsSkipped : Nat) (paidPeriodStart : Uint64)
  | subscriptionChargeSkipped (subscriptionId : Nat) (chargeAttemptId : Bytes32)
      (outcome : ChargeOutcomeCode)
  | subscriptionCancelled (subscriptionId : Nat) (by_ : Address)
  | erc20Transfer (from_ to_ : Address) (value : Nat)
  | jobCreated (jobId : Nat) (client vendor token : Address) (amount : Nat)
  | jobFunded (jobId amount : Nat)
  | jobStarted (jobId : Nat)
  | jobDelivered (jobId : Nat) (deliverableHash : Bytes32)
  | jobApproved (jobId : Nat) (assessor : Address)
  | jobReleased (jobId : Nat) (vendor : Address) (amount : Nat)
  | jobDisputed (jobId : Nat) (by_ : Address) (reason : Bytes)
  | jobCancelled (jobId : Nat) (reason : Bytes)
  | jobRefunded (jobId : Nat) (to_ : Address) (amount : Nat)
  | jobResolved (jobId : Nat) (resolver : Address) (toVendor toClient : Nat)
  | jobReclaimed (jobId : Nat) (to_ : Address) (amount fromStatus : Nat)
  | feeAccrued (token : Address) (merchantId amount : Nat)
  | paused (account : Address)
  | unpaused (account : Address)
  | roleGranted (role : Bytes32) (account sender : Address)
  | roleRevoked (role : Bytes32) (account sender : Address)
  | roleAdminChanged (role previousAdminRole newAdminRole : Bytes32)
  | upgraded (implementation : Address)
  | callScheduled (id : Bytes32) (index : Nat) (target : Address) (value : Nat) (data : Bytes)
      (predecessor : Bytes32) (delay : Nat)
  | callExecuted (id : Bytes32) (index : Nat) (target : Address) (value : Nat) (data : Bytes)
  | cancelled (id : Bytes32)
  | minDelayChange (oldDuration newDuration : Nat)
  | agentRegistered (agent controller : Address) (credentialDigest : Bytes32)
      (name version : Bytes)
  | agentCredentialRotated (agent : Address) (newCredentialDigest : Bytes32)
  | agentReputationAdjusted (agent : Address) (delta newScore : Int)
  | agentDeactivated (agent : Address)
  | agentActivated (agent : Address)
  | dependencyUpdated (name : Bytes) (newAddress : Address)
  | feeWithdrawn (token to_ : Address) (amount : Nat)
  | tokenAdded (token : Address)
  | tokenRemoved (token : Address)
  | tokenCapabilitiesSet (token : Address) (capabilities : Nat)
deriving Repr, DecidableEq

/-- What `Registry.Decode` makes of a log. -/
inductive Decoded where
  | event (payload : Payload)
  | notSubscribed
  | malformed
deriving Repr, DecidableEq

/-- `types.Log`, decoded. -/
structure Log where
  address : Address
  blockNumber : Nat
  txHash : Bytes32
  index : Nat
  decoded : Decoded
deriving Repr, DecidableEq

/-- `decodeSessionRef`: the bytes before the first zero, if they are all printable ASCII. -/
def decodeSessionRef (ref : Bytes) : Bytes :=
  let seen := ref.takeWhile (· ≠ 0)
  if seen.all fun b => 0x20 ≤ b && b ≤ 0x7E then seen else []

inductive SubscriptionInterval where
  | daily
  | weekly
  | monthly
  | quarterly
  | yearly
deriving Repr, DecidableEq

/-- `IntervalFromSeconds` -/
def intervalFromSeconds (seconds : Uint32) : SubscriptionInterval × Nat :=
  let s := seconds.toNat
  if s = 86400 then (.daily, 1)
  else if s = 604800 then (.weekly, 1)
  else if s = 2592000 then (.monthly, 1)
  else if s = 7776000 then (.quarterly, 1)
  else if s = 31536000 then (.yearly, 1)
  else if s < 604800 then (.daily, max (s / 86400) 1)
  else if s < 2592000 then (.weekly, max (s / 604800) 1)
  else if s < 31536000 then (.monthly, max (s / 2592000) 1)
  else (.yearly, max (s / 31536000) 1)

end Strimz.Indexer
