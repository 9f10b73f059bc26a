import Strimz.Runs
import Strimz.Evm

/-!
# StrimzRegistry

Merchant identity, fees and payout policy (`core/StrimzRegistry.sol`), every
entry point as the contract computes it. Time-delayed changes live in three
places: a merchant's `pendingPayoutAddress`/`payoutChangeCommitAt`, its
`pendingOwner` with `ownershipAcceptableAt`, and `pendingFees`.

`step` is the contract as a machine: a label is a message with an entry
point, and a reverted call leaves the storage as it was. The role table
changes by steps of its own (`setRoles`), which may install any table: what
OpenZeppelin's grants, revocations and renouncements can do is a part of that.
-/

namespace Strimz

/-- `IStrimzRegistry.Merchant`. An all-zero record is an id never registered. -/
structure Merchant where
  owner : Address
  feeBps : Uint16
  active : Bool
  payoutAddress : Address
  parentMerchantId : Nat
  pendingOwner : Address
  pendingPayoutAddress : Address
  payoutChangeCommitAt : Uint64
  maxFeeBps : Uint16
deriving Repr, DecidableEq

namespace Registry

open Tx

def MAX_FEE_BPS : Uint16 := 500
/-- 24 hours. -/
def PAYOUT_CHANGE_DELAY : Uint64 := 86400
/-- 24 hours. -/
def FEE_INCREASE_DELAY : Uint64 := 86400

structure PendingFee where
  feeBps : Uint16
  effectiveAt : Uint64
deriving Repr, DecidableEq

inductive Event where
  | merchantRegistered (merchantId : Nat) (owner payoutAddress : Address)
      (feeBps maxFeeBps : Uint16) (parentMerchantId : Nat)
  | merchantPayoutAddressUpdated (merchantId : Nat) (newPayoutAddress : Address)
  | merchantPayoutChangeInitiated (merchantId : Nat) (newPayoutAddress : Address)
      (commitAt : Uint64)
  | merchantPayoutChangeCancelled (merchantId : Nat)
  | merchantFeeBpsUpdated (merchantId : Nat) (newFeeBps : Uint16)
  | merchantFeeIncreaseScheduled (merchantId : Nat) (feeBps : Uint16) (effectiveAt : Uint64)
  | merchantFeeIncreaseCancelled (merchantId : Nat)
  | merchantActiveSet (merchantId : Nat) (active : Bool)
  | merchantOwnershipTransferInitiated (merchantId : Nat) (currentOwner pendingOwner : Address)
  | merchantOwnershipTransferAccepted (merchantId : Nat) (previousOwner newOwner : Address)
  | merchantOwnershipTransferCancelled (merchantId : Nat)
deriving Repr, DecidableEq

structure Storage where
  hasRole : RoleTable
  nextMerchantId : Nat
  merchants : Nat → Merchant
  ownershipAcceptableAt : Nat → Uint64
  pendingFees : Nat → PendingFee
  logs : List Event

abbrev Call (α : Type) := Tx Revert Storage α

def noMerchant : Merchant := ⟨0, 0, false, 0, 0, 0, 0, 0, 0⟩

def noPendingFee : PendingFee := ⟨0, 0⟩

/-- The storage `initialize` leaves behind, whatever roles were granted. -/
def deployed (hasRole : RoleTable) : Storage where
  hasRole := hasRole
  nextMerchantId := 1
  merchants := fun _ => noMerchant
  ownershipAcceptableAt := fun _ => 0
  pendingFees := fun _ => noPendingFee
  logs := []

/-! ## Storage writes -/

@[simps]
def Storage.putMerchant (s : Storage) (merchantId : Nat) (m : Merchant) : Storage :=
  { s with merchants := Function.update s.merchants merchantId m }

@[simps]
def Storage.putPendingFee (s : Storage) (merchantId : Nat) (p : PendingFee) : Storage :=
  { s with pendingFees := Function.update s.pendingFees merchantId p }

@[simps]
def Storage.putAcceptableAt (s : Storage) (merchantId : Nat) (t : Uint64) : Storage :=
  { s with ownershipAcceptableAt := Function.update s.ownershipAcceptableAt merchantId t }

@[simps]
def Storage.log (s : Storage) (e : Event) : Storage :=
  { s with logs := s.logs ++ [e] }

def setMerchant (merchantId : Nat) (m : Merchant) : Call Unit :=
  modify (·.putMerchant merchantId m)

def setPendingFee (merchantId : Nat) (p : PendingFee) : Call Unit :=
  modify (·.putPendingFee merchantId p)

def setOwnershipAcceptableAt (merchantId : Nat) (t : Uint64) : Call Unit :=
  modify (·.putAcceptableAt merchantId t)

def emit (e : Event) : Call Unit := modify (·.log e)

def load (merchantId : Nat) : Call Merchant := do
  let s ← get
  revertIf ((s.merchants merchantId).owner = 0) (.registry (.unknownMerchant merchantId))
  return s.merchants merchantId

/-! ## Reads -/

def getMerchant (merchantId : Nat) : Call Merchant := load merchantId

def requireActiveMerchant (merchantId : Nat) : Call Merchant := do
  let m ← load merchantId
  revertIf (m.active = false) (.registry (.merchantInactive merchantId))
  return m

/-! ## Register -/

def registerMerchant (msg : Msg) (owner payoutAddress : Address) (feeBps maxFeeBps : Uint16)
    (parentMerchantId : Nat) : Call Nat := do
  let s ← get
  onlyRole s.hasRole .merchantRegistrar msg.sender
  revertIf (owner = 0 ∨ payoutAddress = 0) (.registry .zeroAddress)
  revertIf (MAX_FEE_BPS < maxFeeBps) (.registry (.feeTooHigh maxFeeBps))
  revertIf (maxFeeBps < feeBps) (.registry (.feeExceedsMax feeBps maxFeeBps))
  revertIf (parentMerchantId ≠ 0 ∧ (s.merchants parentMerchantId).owner = 0)
    (.registry (.unknownParentMerchant parentMerchantId))
  let merchantId := s.nextMerchantId
  modify fun s => { s with nextMerchantId := merchantId + 1 }
  setMerchant merchantId
    { owner := owner, feeBps := feeBps, active := true, payoutAddress := payoutAddress,
      parentMerchantId := parentMerchantId, pendingOwner := 0, pendingPayoutAddress := 0,
      payoutChangeCommitAt := 0, maxFeeBps := maxFeeBps }
  emit (.merchantRegistered merchantId owner payoutAddress feeBps maxFeeBps parentMerchantId)
  return merchantId

/-! ## Fee -/

def setFeeBps (msg : Msg) (merchantId : Nat) (newFeeBps : Uint16) : Call Unit := do
  let s ← get
  revertIf (s.hasRole .admin msg.sender = false ∧ s.hasRole .feeManager msg.sender = false)
    (.accessControlUnauthorizedAccount msg.sender .feeManager)
  revertIf (MAX_FEE_BPS < newFeeBps) (.registry (.feeTooHigh newFeeBps))
  let m ← load merchantId
  revertIf (m.maxFeeBps < newFeeBps) (.registry (.feeExceedsMax newFeeBps m.maxFeeBps))
  if s.hasRole .admin msg.sender = false ∧ m.feeBps < newFeeBps then
    let effectiveAt ← checkedAdd msg.timestamp FEE_INCREASE_DELAY
    setPendingFee merchantId ⟨newFeeBps, effectiveAt⟩
    emit (.merchantFeeIncreaseScheduled merchantId newFeeBps effectiveAt)
  else
    setPendingFee merchantId noPendingFee
    setMerchant merchantId { m with feeBps := newFeeBps }
    emit (.merchantFeeBpsUpdated merchantId newFeeBps)

def commitFeeBps (msg : Msg) (merchantId : Nat) : Call Unit := do
  let m ← load merchantId
  let s ← get
  let p := s.pendingFees merchantId
  revertIf (p.effectiveAt = 0) (.registry .noPendingFeeChange)
  revertIf (msg.timestamp < p.effectiveAt) (.registry .feeChangeNotDue)
  setPendingFee merchantId noPendingFee
  setMerchant merchantId { m with feeBps := p.feeBps }
  emit (.merchantFeeBpsUpdated merchantId p.feeBps)

def cancelFeeIncrease (msg : Msg) (merchantId : Nat) : Call Unit := do
  let s ← get
  onlyRole s.hasRole .admin msg.sender
  let _ ← load merchantId
  revertIf ((s.pendingFees merchantId).effectiveAt = 0) (.registry .noPendingFeeChange)
  setPendingFee merchantId noPendingFee
  emit (.merchantFeeIncreaseCancelled merchantId)

/-! ## Active flag -/

def setActive (msg : Msg) (merchantId : Nat) (active : Bool) : Call Unit := do
  let s ← get
  onlyRole s.hasRole .admin msg.sender
  let m ← load merchantId
  setMerchant merchantId { m with active := active }
  emit (.merchantActiveSet merchantId active)

/-! ## Payout: initiate, wait, commit -/

def setPayoutAddress (msg : Msg) (merchantId : Nat) (newPayoutAddress : Address) :
    Call Unit := do
  let m ← load merchantId
  revertIf (msg.sender ≠ m.owner) (.registry .notMerchantOwner)
  revertIf (newPayoutAddress = 0) (.registry .zeroAddress)
  revertIf (newPayoutAddress = m.payoutAddress) (.registry .samePayoutAddress)
  let commitAt ← checkedAdd msg.timestamp PAYOUT_CHANGE_DELAY
  setMerchant merchantId
    { m with pendingPayoutAddress := newPayoutAddress, payoutChangeCommitAt := commitAt }
  emit (.merchantPayoutChangeInitiated merchantId newPayoutAddress commitAt)

def commitPayoutAddress (msg : Msg) (merchantId : Nat) : Call Unit := do
  let m ← load merchantId
  revertIf (m.pendingPayoutAddress = 0) (.registry .noPendingPayoutChange)
  revertIf (msg.timestamp < m.payoutChangeCommitAt) (.registry .payoutChangeNotDue)
  setMerchant merchantId
    { m with payoutAddress := m.pendingPayoutAddress, pendingPayoutAddress := 0,
             payoutChangeCommitAt := 0 }
  emit (.merchantPayoutAddressUpdated merchantId m.pendingPayoutAddress)

/-- `_cancelPayoutChange` -/
def cancelPayoutChange (merchantId : Nat) (m : Merchant) : Call Unit := do
  revertIf (m.pendingPayoutAddress = 0) (.registry .noPendingPayoutChange)
  setMerchant merchantId { m with pendingPayoutAddress := 0, payoutChangeCommitAt := 0 }
  emit (.merchantPayoutChangeCancelled merchantId)

def cancelPayoutAddressChange (msg : Msg) (merchantId : Nat) : Call Unit := do
  let m ← load merchantId
  revertIf (msg.sender ≠ m.owner) (.registry .notMerchantOwner)
  cancelPayoutChange merchantId m

def adminCancelPayoutChange (msg : Msg) (merchantId : Nat) : Call Unit := do
  let s ← get
  onlyRole s.hasRole .admin msg.sender
  let m ← load merchantId
  cancelPayoutChange merchantId m

/-! ## Two-step ownership -/

def transferMerchantOwnership (msg : Msg) (merchantId : Nat) (newOwner : Address) :
    Call Unit := do
  let m ← load merchantId
  revertIf (msg.sender ≠ m.owner) (.registry .notMerchantOwner)
  revertIf (newOwner = 0) (.registry .zeroAddress)
  revertIf (newOwner = m.owner) (.registry .sameOwner)
  setMerchant merchantId { m with pendingOwner := newOwner }
  let acceptableAt ← checkedAdd msg.timestamp PAYOUT_CHANGE_DELAY
  setOwnershipAcceptableAt merchantId acceptableAt
  emit (.merchantOwnershipTransferInitiated merchantId m.owner newOwner)

def acceptMerchantOwnership (msg : Msg) (merchantId : Nat) : Call Unit := do
  let m ← load merchantId
  revertIf (m.pendingOwner = 0) (.registry .noPendingTransfer)
  revertIf (msg.sender ≠ m.pendingOwner) (.registry .notPendingOwner)
  let s ← get
  let acceptableAt := s.ownershipAcceptableAt merchantId
  revertIf (acceptableAt = 0 ∨ msg.timestamp < acceptableAt)
    (.registry .ownershipTransferNotDue)
  setOwnershipAcceptableAt merchantId 0
  if m.pendingPayoutAddress ≠ 0 then
    setMerchant merchantId
      { m with owner := m.pendingOwner, pendingOwner := 0, pendingPayoutAddress := 0,
               payoutChangeCommitAt := 0 }
    emit (.merchantPayoutChangeCancelled merchantId)
  else
    setMerchant merchantId { m with owner := m.pendingOwner, pendingOwner := 0 }
  emit (.merchantOwnershipTransferAccepted merchantId m.owner m.pendingOwner)

/-- `_cancelOwnershipTransfer` -/
def cancelPendingOwner (merchantId : Nat) (m : Merchant) : Call Unit := do
  revertIf (m.pendingOwner = 0) (.registry .noPendingTransfer)
  setMerchant merchantId { m with pendingOwner := 0 }
  setOwnershipAcceptableAt merchantId 0
  emit (.merchantOwnershipTransferCancelled merchantId)

def cancelOwnershipTransfer (msg : Msg) (merchantId : Nat) : Call Unit := do
  let m ← load merchantId
  revertIf (msg.sender ≠ m.owner) (.registry .notMerchantOwner)
  cancelPendingOwner merchantId m

def adminCancelOwnershipTransfer (msg : Msg) (merchantId : Nat) : Call Unit := do
  let s ← get
  onlyRole s.hasRole .admin msg.sender
  let m ← load merchantId
  cancelPendingOwner merchantId m

/-! ## The registry as a machine -/

/-- The state-changing entry points, and `setRoles` for whatever the access
control does to the role table. -/
inductive Action where
  | registerMerchant (owner payoutAddress : Address) (feeBps maxFeeBps : Uint16)
      (parentMerchantId : Nat)
  | setFeeBps (merchantId : Nat) (newFeeBps : Uint16)
  | commitFeeBps (merchantId : Nat)
  | cancelFeeIncrease (merchantId : Nat)
  | setActive (merchantId : Nat) (active : Bool)
  | setPayoutAddress (merchantId : Nat) (newPayoutAddress : Address)
  | commitPayoutAddress (merchantId : Nat)
  | cancelPayoutAddressChange (merchantId : Nat)
  | adminCancelPayoutChange (merchantId : Nat)
  | transferMerchantOwnership (merchantId : Nat) (newOwner : Address)
  | acceptMerchantOwnership (merchantId : Nat)
  | cancelOwnershipTransfer (merchantId : Nat)
  | adminCancelOwnershipTransfer (merchantId : Nat)
  | setRoles (hasRole : RoleTable)

structure Label where
  msg : Msg
  action : Action

def Label.time (l : Label) : Nat := l.msg.timestamp.toNat

def dispatch (msg : Msg) : Action → Call Unit
  | .registerMerchant owner payout feeBps maxFeeBps parent => do
      let _ ← registerMerchant msg owner payout feeBps maxFeeBps parent
  | .setFeeBps id newFeeBps => setFeeBps msg id newFeeBps
  | .commitFeeBps id => commitFeeBps msg id
  | .cancelFeeIncrease id => cancelFeeIncrease msg id
  | .setActive id active => setActive msg id active
  | .setPayoutAddress id newPayoutAddress => setPayoutAddress msg id newPayoutAddress
  | .commitPayoutAddress id => commitPayoutAddress msg id
  | .cancelPayoutAddressChange id => cancelPayoutAddressChange msg id
  | .adminCancelPayoutChange id => adminCancelPayoutChange msg id
  | .transferMerchantOwnership id newOwner => transferMerchantOwnership msg id newOwner
  | .acceptMerchantOwnership id => acceptMerchantOwnership msg id
  | .cancelOwnershipTransfer id => cancelOwnershipTransfer msg id
  | .adminCancelOwnershipTransfer id => adminCancelOwnershipTransfer msg id
  | .setRoles hasRole => modify fun s => { s with hasRole := hasRole }

/-- One transaction: a revert leaves the storage as it was. -/
def step (s : Storage) (l : Label) : Storage := commit (dispatch l.msg l.action) s

end Registry

end Strimz
