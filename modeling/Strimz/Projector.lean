import Strimz.Projections

/-!
# The projector

`Projector.Apply` (`processor/projector.go`): one decoded log to the store method that
writes it, with the arguments the source passes. The warnings it logs are left out.
-/

namespace Strimz.Indexer

open Tx

/-- What a projector is configured with; `roleNames` is the table of `abi/roles.go`. -/
structure Projector where
  mode : Mode
  tokens : Address → Option Currency
  chainId : Nat
  contractNames : Address → Option String
  roleNames : Bytes32 → Option String

namespace Projector

variable (p : Projector)

def logRef (lg : Log) : OnchainLogRef := ⟨p.chainId, lg.txHash, lg.index, lg.blockNumber⟩

def withContractName (lg : Log) (metadata : Metadata) : Metadata :=
  match p.contractNames lg.address with
  | some name => metadata ++ [("contractName", .string name)]
  | none => metadata

/-- `RoleName`: a hash the table does not know stays a hash. -/
def roleName (role : Bytes32) : Json :=
  match p.roleNames role with
  | some name => .string name
  | none => .hash role

def tokenSymbol (token : Address) : Projection Currency :=
  match p.tokens token with
  | some currency => pure currency
  | none => throw (.unresolvable (.unknownToken token))

def logGovernance (lg : Log) (merchantId : Nat) (action : String) (metadata : Metadata) :
    Projection Unit :=
  logMerchantGovernance ⟨p.logRef lg, merchantId, action, metadata, false⟩

def alertGovernance (lg : Log) (merchantId : Nat) (action : String) (metadata : Metadata) :
    Projection Unit :=
  logMerchantGovernance ⟨p.logRef lg, merchantId, action, metadata, true⟩

def logContractOperation (lg : Log) (action : String) (metadata : Metadata) : Projection Unit :=
  Indexer.logContractOperation
    ⟨p.logRef lg, lg.address, action, p.withContractName lg metadata, false⟩

def logAdminEvent (lg : Log) (action : String) (metadata : Metadata) : Projection Unit :=
  Indexer.logContractOperation
    ⟨p.logRef lg, lg.address, action, p.withContractName lg metadata, true⟩

def logAgentRegistry (lg : Log) (agent : Address) (action : String) (metadata : Metadata) :
    Projection Unit :=
  logAgentRegistryEvent ⟨p.logRef lg, agent, action, p.withContractName lg metadata⟩

/-- 24 hours. -/
def registryChangeDelay : Int := 86400

def applyRole (lg : Log) (action : String) (role : Bytes32) (account sender : Address) :
    Projection Unit :=
  p.logAdminEvent lg action
    [("role", .hash role), ("roleName", p.roleName role), ("account", .address account),
     ("sender", .address sender)]

/-- What every status event of a job does. -/
def applyJob (in_ : AgentJobStatusInput) (action : String) (metadata : Metadata) :
    Projection Unit := do
  let _ ← setAgentJobStatus in_
  logAgentJobEvent in_.onchainJobId action metadata

/-- The dispatch of `Apply`, past the decoding. -/
def project (lg : Log) (blockTime : Int) : Payload → Projection Unit
  | .merchantRegistered merchantId _ _ feeBps maxFeeBps => do
      let _ ← linkOnchainMerchant merchantId lg.txHash ⟨feeBps, maxFeeBps, lg.txHash, blockTime⟩
  | .merchantPayoutAddressUpdated merchantId newPayoutAddress => do
      let _ ← updateMerchantPayoutAddress merchantId newPayoutAddress
  | .merchantActiveSet merchantId active => do
      let _ ← setMerchantActive merchantId active
  | .merchantFeeBpsUpdated merchantId newFeeBps => do
      let _ ← setMerchantOnchainFeeBps merchantId newFeeBps lg.txHash blockTime
      logMerchantFeeBpsChange merchantId newFeeBps lg.txHash
  | .merchantOwnershipTransferInitiated merchantId currentOwner pendingOwner =>
      p.alertGovernance lg merchantId "merchant.ownership_transfer_initiated_onchain"
        [("currentOwner", .address currentOwner), ("pendingOwner", .address pendingOwner),
         ("acceptableAt", .number (blockTime + registryChangeDelay))]
  | .merchantOwnershipTransferAccepted merchantId previousOwner newOwner =>
      p.logGovernance lg merchantId "merchant.ownership_transfer_accepted_onchain"
        [("previousOwner", .address previousOwner), ("newOwner", .address newOwner)]
  | .merchantOwnershipTransferCancelled merchantId =>
      p.logGovernance lg merchantId "merchant.ownership_transfer_cancelled_onchain" []
  | .merchantPayoutChangeInitiated merchantId newPayoutAddress commitAt =>
      p.alertGovernance lg merchantId "merchant.payout_change_initiated_onchain"
        [("newPayoutAddress", .address newPayoutAddress), ("commitAt", .number commitAt.toNat)]
  | .merchantPayoutChangeCancelled merchantId =>
      p.logGovernance lg merchantId "merchant.payout_change_cancelled_onchain" []
  | .merchantMaxFeeBpsLowered merchantId newMaxFeeBps => do
      let _ ← setMerchantOnchainMaxFeeBps merchantId newMaxFeeBps lg.txHash blockTime
      p.logGovernance lg merchantId "merchant.max_fee_bps_lowered_onchain"
        [("newMaxFeeBps", .number newMaxFeeBps.toNat)]
  | .paymentExecuted merchantId payer token amount feeAmount netAmount ref => do
      let currency ← p.tokenSymbol token
      let _ ← insertOneShotTransaction
        { merchantOnchainId := merchantId, payerAddress := payer, amount := amount,
          feeAmount := feeAmount, netAmount := netAmount, currency := currency,
          sessionRef := decodeSessionRef ref, onchainTxHash := lg.txHash,
          blockNumber := lg.blockNumber, blockTimestamp := blockTime, logIndex := lg.index,
          mode := p.mode }
  | .subscriptionCreated subscriptionId merchantId payer token amount intervalSecs startAt => do
      let currency ← p.tokenSymbol token
      let _ ← upsertSubscriptionFromOnchain
        { onchainSubscriptionId := subscriptionId, merchantOnchainId := merchantId,
          payerAddress := payer, currency := currency, amount := amount,
          interval := (intervalFromSeconds intervalSecs).1,
          intervalCount := (intervalFromSeconds intervalSecs).2, startAt := unix startAt,
          blockTimestamp := blockTime,
          currentPeriodEndAt := unix startAt + intervalSecs.toNat,
          nextChargeAt := unix startAt, onchainTxHash := lg.txHash, mode := p.mode }
  | .subscriptionCharged subscriptionId chargeAttemptId amount feeAmount netAmount nextChargeAt => do
      let _ ← insertSubscriptionCharge
        { onchainSubscriptionId := subscriptionId, chargeAttemptId := chargeAttemptId,
          amount := amount, feeAmount := feeAmount, netAmount := netAmount,
          nextChargeAt := unix nextChargeAt, onchainTxHash := lg.txHash,
          blockNumber := lg.blockNumber, blockTimestamp := blockTime, logIndex := lg.index,
          mode := p.mode }
  | .subscriptionPeriodsSkipped subscriptionId periodsSkipped paidPeriodStart => do
      let _ ← recordSubscriptionPeriodsSkipped
        ⟨subscriptionId, periodsSkipped, unix paidPeriodStart, lg.txHash⟩
  | .subscriptionChargeSkipped subscriptionId chargeAttemptId outcome => do
      let _ ← insertSubscriptionChargeSkip
        ⟨subscriptionId, chargeAttemptId, dbString outcome, isPaymentFailure outcome, blockTime⟩
  | .subscriptionCancelled subscriptionId by_ => do
      let _ ← markSubscriptionCancelled subscriptionId by_ lg.txHash blockTime
  | .erc20Transfer _ _ _ => do
      let _ ← completeRefundByTxHash (hashText lg.txHash) blockTime
  | .jobCreated jobId client vendor token amount => do
      let _ ← linkAgentJobOnchain jobId vendor lg.txHash
      logAgentJobEvent jobId "job.created"
        [("client", .address client), ("vendor", .address vendor), ("token", .address token),
         ("amount", .decimal amount), ("txHash", .hash lg.txHash)]
  | .jobFunded jobId amount =>
      applyJob ⟨jobId, .funded, none, none, blockTime, false⟩ "job.funded"
        [("amount", .decimal amount), ("txHash", .hash lg.txHash)]
  | .jobStarted jobId =>
      applyJob ⟨jobId, .in_progress, none, none, blockTime, false⟩ "job.started"
        [("txHash", .hash lg.txHash)]
  | .jobDelivered jobId deliverableHash =>
      applyJob ⟨jobId, .delivered, some deliverableHash, none, blockTime, false⟩ "job.delivered"
        [("deliverableHash", .hash deliverableHash), ("txHash", .hash lg.txHash)]
  | .jobApproved jobId assessor =>
      applyJob ⟨jobId, .approved, none, none, blockTime, false⟩ "job.approved"
        [("assessor", .address assessor), ("txHash", .hash lg.txHash)]
  | .jobReleased jobId vendor amount =>
      applyJob ⟨jobId, .completed, none, some lg.txHash, blockTime, true⟩ "job.released"
        [("vendor", .address vendor), ("amount", .decimal amount), ("txHash", .hash lg.txHash)]
  | .jobDisputed jobId by_ reason =>
      applyJob ⟨jobId, .disputed, none, none, blockTime, false⟩ "job.disputed"
        [("by", .address by_), ("reason", .raw reason), ("txHash", .hash lg.txHash)]
  | .jobCancelled jobId reason =>
      applyJob ⟨jobId, .cancelled, none, none, blockTime, true⟩ "job.cancelled"
        [("reason", .raw reason), ("txHash", .hash lg.txHash)]
  | .jobRefunded jobId to_ amount =>
      logAgentJobEvent jobId "job.refunded"
        [("to", .address to_), ("amount", .decimal amount), ("txHash", .hash lg.txHash)]
  | .jobResolved jobId resolver toVendor toClient =>
      applyJob ⟨jobId, .resolved, none, some lg.txHash, blockTime, true⟩ "job.resolved"
        [("resolver", .address resolver), ("toVendor", .decimal toVendor),
         ("toClient", .decimal toClient), ("txHash", .hash lg.txHash)]
  | .jobReclaimed jobId to_ amount fromStatus =>
      applyJob ⟨jobId, .reclaimed, none, some lg.txHash, blockTime, true⟩ "job.reclaimed"
        [("to", .address to_), ("amount", .decimal amount), ("fromStatus", .number fromStatus),
         ("txHash", .hash lg.txHash)]
  | .feeAccrued token merchantId amount => logFeeAccrued merchantId token amount lg.txHash
  | .paused account => p.logAdminEvent lg "contract.paused" [("account", .address account)]
  | .unpaused account => p.logAdminEvent lg "contract.unpaused" [("account", .address account)]
  | .roleGranted role account sender => p.applyRole lg "contract.role_granted" role account sender
  | .roleRevoked role account sender => p.applyRole lg "contract.role_revoked" role account sender
  | .roleAdminChanged role previous next =>
      p.logAdminEvent lg "contract.role_admin_changed"
        [("role", .hash role), ("roleName", p.roleName role),
         ("previousAdminRole", .hash previous), ("previousAdminRoleName", p.roleName previous),
         ("newAdminRole", .hash next), ("newAdminRoleName", p.roleName next)]
  | .upgraded implementation =>
      p.logAdminEvent lg "contract.upgraded" [("implementation", .address implementation)]
  | .callScheduled id index target value data predecessor delay =>
      p.logAdminEvent lg "timelock.call_scheduled"
        [("operationId", .hash id), ("index", .decimal index), ("target", .address target),
         ("value", .decimal value), ("data", .hex data), ("predecessor", .hash predecessor),
         ("delay", .decimal delay)]
  | .callExecuted id index target value data =>
      p.logAdminEvent lg "timelock.call_executed"
        [("operationId", .hash id), ("index", .decimal index), ("target", .address target),
         ("value", .decimal value), ("data", .hex data)]
  | .cancelled id => p.logAdminEvent lg "timelock.cancelled" [("operationId", .hash id)]
  | .minDelayChange oldDuration newDuration =>
      p.logAdminEvent lg "timelock.min_delay_changed"
        [("oldDuration", .decimal oldDuration), ("newDuration", .decimal newDuration)]
  | .agentRegistered agent controller credentialDigest name version =>
      p.logAgentRegistry lg agent "agent.registered"
        [("controller", .address controller), ("credentialDigest", .hash credentialDigest),
         ("name", .raw name), ("version", .raw version)]
  | .agentCredentialRotated agent newCredentialDigest =>
      p.logAgentRegistry lg agent "agent.credential_rotated"
        [("newCredentialDigest", .hash newCredentialDigest)]
  | .agentReputationAdjusted agent delta newScore =>
      p.logAgentRegistry lg agent "agent.reputation_adjusted"
        [("delta", .decimal delta), ("newScore", .decimal newScore)]
  | .agentDeactivated agent => p.logAgentRegistry lg agent "agent.deactivated" []
  | .agentActivated agent => p.logAgentRegistry lg agent "agent.activated" []
  | .dependencyUpdated name newAddress =>
      p.logContractOperation lg "contract.dependency_updated"
        [("name", .raw name), ("newAddress", .address newAddress)]
  | .feeWithdrawn token to_ amount =>
      p.logContractOperation lg "fees.withdrawn"
        [("token", .address token), ("to", .address to_), ("amount", .decimal amount)]
  | .tokenAdded token =>
      p.logContractOperation lg "token_whitelist.token_added" [("token", .address token)]
  | .tokenRemoved token =>
      p.logContractOperation lg "token_whitelist.token_removed" [("token", .address token)]
  | .tokenCapabilitiesSet token capabilities =>
      p.logContractOperation lg "token_whitelist.capabilities_set"
        [("token", .address token), ("capabilities", .number capabilities)]

/-- `Apply` -/
def apply (lg : Log) (blockTime : Int) : Projection Unit :=
  match lg.decoded with
  | .malformed => throw (.unresolvable (.decode lg.address lg.txHash lg.index))
  | .notSubscribed => pure ()
  | .event payload => p.project lg blockTime payload

end Projector

end Strimz.Indexer
