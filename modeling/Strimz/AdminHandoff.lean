import Strimz.AdminCalls
import Strimz.TxLoops

/-!
# The admin handoff

`script/utils/AdminHandoff.sol`: the checks, the timelock, the table of grants, the deployer's
renunciations and the final verification, signed by one sender.
-/

namespace Strimz.AdminHandoff

open Tx

structure Contracts where
  registry : Address
  tokenWhitelist : Address
  feeCollector : Address
  payments : Address
  subscriptions : Address
  agentRegistry : Address
  agentEscrow : Address
deriving Repr, DecidableEq

def Contracts.address (c : Contracts) : Contract → Address
  | .registry => c.registry
  | .tokenWhitelist => c.tokenWhitelist
  | .feeCollector => c.feeCollector
  | .payments => c.payments
  | .subscriptions => c.subscriptions
  | .agentRegistry => c.agentRegistry
  | .agentEscrow => c.agentEscrow

structure Holders where
  safe : Address
  guardian : Address
  relayer : Address
  scheduler : Address
  deployer : Address
deriving Repr, DecidableEq

structure Grant where
  target : Contract
  role : Bytes32
  account : Address
deriving Repr, DecidableEq

def MIN_SAFE_THRESHOLD : Nat := 2

def ARC_MAINNET_CHAIN_ID : Nat := 5042

def ARC_TESTNET_CHAIN_ID : Nat := 5042002

def LOCAL_CHAIN_ID : Nat := 31337

/-- What the script reads of the chain. -/
structure Env where
  chainId : Nat
  codeLength : Address → Nat
  getThreshold : Address → Except AdminRevert Nat

abbrev HandoffTx := Tx AdminRevert World

def fail (c : Prop) [Decidable c] (e : HandoffError) : HandoffTx Unit := revertIf c (.handoff e)

/-- Lowest timelock delay the handoff accepts on each network. -/
def delayFloor (chainId : Nat) : HandoffTx Nat :=
  if chainId = ARC_MAINNET_CHAIN_ID then pure (48 * 60 * 60)
  else if chainId = ARC_TESTNET_CHAIN_ID then pure 300
  else if chainId = LOCAL_CHAIN_ID then pure 1
  else throw (.handoff (.unknownChain chainId))

/-! ## Checks -/

/-- `(xs[i], xs[j])` for `i < j`, in the order of the loops. -/
def pairs : List Address → List (Address × Address)
  | [] => []
  | x :: xs => xs.map (fun y => (x, y)) ++ pairs xs

def checkServiceRoleAdmin (c : Contracts) (t : Contract) (role : Role) : HandoffTx Unit := do
  let w ← get
  fail ((w t).access.getRoleAdmin (roleId role) ≠ roleId .admin)
    (.serviceRoleAdminNotSet (c.address t))

def checkServiceRoleAdmins (c : Contracts) : HandoffTx Unit := do
  checkServiceRoleAdmin c .registry .merchantRegistrar
  checkServiceRoleAdmin c .subscriptions .charger
  checkServiceRoleAdmin c .subscriptions .subscriptionCanceller
  checkServiceRoleAdmin c .registry .feeManager

def checkThreshold (env : Env) (safe : Address) : HandoffTx Unit :=
  match env.getThreshold safe with
  | .error e => throw e
  | .ok threshold => fail (threshold < MIN_SAFE_THRESHOLD) (.safeThresholdTooLow threshold)

def checkDeployer (c : Contracts) (h : Holders) (t : Contract) : HandoffTx Unit := do
  let w ← get
  fail ((w t).access.hasRole (roleId .defaultAdmin) h.deployer = false)
    (.deployerNotAdmin (c.address t))

def check (env : Env) (c : Contracts) (h : Holders) (minDelay : Nat) : HandoffTx Unit := do
  let floor ← delayFloor env.chainId
  fail (minDelay < floor) (.delayBelowFloor minDelay floor)
  fail (env.chainId = ARC_MAINNET_CHAIN_ID ∧ h.guardian = 0) .guardianRequired
  forM targets fun t => fail (c.address t = 0) .zeroAddress
  fail (h.safe = 0 ∨ h.relayer = 0 ∨ h.scheduler = 0 ∨ h.deployer = 0) .zeroAddress
  forM (pairs [h.safe, h.relayer, h.scheduler, h.deployer, h.guardian]) fun p =>
    fail (p.2 ≠ 0 ∧ p.1 = p.2) .holdersNotDistinct
  fail (env.codeLength h.safe = 0) (.safeHasNoCode h.safe)
  checkThreshold env h.safe
  forM targets fun t => checkDeployer c h t
  checkServiceRoleAdmins c

/-! ## The timelock -/

def PROPOSER_ROLE : Bytes32 :=
  0xb09aa5aeb3702cfd50b6b62bc4532604938f21248a27a1d5ca736082b6819cc1#256

def EXECUTOR_ROLE : Bytes32 :=
  0xd8aa0f3194971a2a116679f7c2090f6939c8d4e01a2a8d7e41d55e5351469e63#256

def CANCELLER_ROLE : Bytes32 :=
  0xfd643c72710c63c0180259aba6b2d05451e3591a24e58b62239378085726f783#256

/-- OpenZeppelin's `TimelockController`. -/
structure TimelockController where
  address : Address
  access : AccessControl Bytes32 Address
  minDelay : Nat

/-- `new TimelockController(minDelay, [safe], [address(0)], admin)` at a new address. -/
def TimelockController.new (address : Address) (minDelay : Nat) (safe admin : Address) :
    TimelockController where
  address := address
  access := ((((AccessControl.init (roleId .defaultAdmin)).grant (roleId .defaultAdmin) address
    |>.grant (roleId .defaultAdmin) admin).grant PROPOSER_ROLE safe).grant CANCELLER_ROLE safe).grant
      EXECUTOR_ROLE 0
  minDelay := minDelay

/-- A call to the timelock. -/
def TimelockController.call (timelock : TimelockController)
    (m : Tx AdminRevert (AccessControl Bytes32 Address) Unit) : HandoffTx TimelockController :=
  fun w => match m timelock.access with
    | .ok (_, access) => .ok ({ timelock with access := access }, w)
    | .error e => .error e

/-- The guardian becomes a canceller, if there is one. -/
def grantCanceller (timelock : TimelockController) (sender guardian : Address) :
    HandoffTx TimelockController :=
  if guardian ≠ 0 then
    timelock.call (AccessControl.grantRole .access sender CANCELLER_ROLE guardian)
  else pure timelock

def createTimelock (h : Holders) (sender : Address) (minDelay : Nat) (address : Address) :
    HandoffTx TimelockController := do
  let timelock := TimelockController.new address minDelay h.safe h.deployer
  let timelock ← grantCanceller timelock sender h.guardian
  timelock.call (AccessControl.renounceRole .access sender (roleId .defaultAdmin) h.deployer)

def expectTimelockRole (timelock : TimelockController) (role : Bytes32) (account : Address)
    (expected : Bool) : HandoffTx Unit :=
  fail (timelock.access.hasRole role account ≠ expected)
    (.timelockRoleMismatch role account expected)

def verifyTimelock (env : Env) (timelock : TimelockController) (h : Holders) :
    HandoffTx Unit := do
  let floor ← delayFloor env.chainId
  fail (timelock.minDelay < floor) (.delayBelowFloor timelock.minDelay floor)
  expectTimelockRole timelock PROPOSER_ROLE h.safe true
  expectTimelockRole timelock CANCELLER_ROLE h.safe true
  expectTimelockRole timelock EXECUTOR_ROLE 0 true
  expectTimelockRole timelock (roleId .defaultAdmin) timelock.address true
  expectTimelockRole timelock (roleId .defaultAdmin) h.deployer false
  expectTimelockRole timelock PROPOSER_ROLE h.deployer false
  expectTimelockRole timelock CANCELLER_ROLE h.deployer false
  if h.guardian ≠ 0 then
    expectTimelockRole timelock CANCELLER_ROLE h.guardian true
    expectTimelockRole timelock PROPOSER_ROLE h.guardian false
    expectTimelockRole timelock (roleId .defaultAdmin) h.guardian false

/-! ## The role table -/

def upgradeable : List Contract :=
  [.registry, .tokenWhitelist, .feeCollector, .agentRegistry, .agentEscrow]

def administered : List Contract := [.registry, .payments, .subscriptions, .agentEscrow]

def pausable : List Contract := [.payments, .subscriptions, .agentEscrow]

def roleTable (c : Contracts) (h : Holders) (timelock : Address) : List Grant :=
  targets.map (fun t => ⟨t, roleId .defaultAdmin, timelock⟩) ++
  upgradeable.map (fun t => ⟨t, roleId .upgrader, timelock⟩) ++
  [⟨.tokenWhitelist, roleId .tokenManager, timelock⟩] ++
  administered.flatMap (fun t => [⟨t, roleId .admin, timelock⟩, ⟨t, roleId .admin, h.safe⟩]) ++
  pausable.flatMap (fun t =>
    [⟨t, roleId .pauser, timelock⟩, ⟨t, roleId .pauser, h.safe⟩] ++
      if h.guardian ≠ 0 then [⟨t, roleId .pauser, h.guardian⟩] else []) ++
  [⟨.feeCollector, roleId .treasury, h.safe⟩,
   ⟨.agentEscrow, roleId .disputeResolver, h.safe⟩,
   ⟨.agentRegistry, roleId .agentAdmin, h.safe⟩,
   ⟨.registry, roleId .merchantRegistrar, h.relayer⟩,
   ⟨.subscriptions, roleId .charger, h.scheduler⟩,
   ⟨.subscriptions, roleId .subscriptionCanceller, h.scheduler⟩,
   ⟨.registry, roleId .feeManager, h.scheduler⟩,
   ⟨.feeCollector, roleId .feeAccruer, c.payments⟩,
   ⟨.feeCollector, roleId .feeAccruer, c.subscriptions⟩]

/-! ## Grants, renunciations and the verification -/

/-- A call of the script to one of the contracts. -/
def contractCall (t : Contract) (m : Tx AdminRevert (AccessControl Bytes32 Address) Unit) :
    HandoffTx Unit :=
  zoom (fun w : World => w t) (fun s w => Function.update w t s) (accessCall m)

def applyGrant (sender : Address) (g : Grant) : HandoffTx Unit := do
  let w ← get
  if (w g.target).access.hasRole g.role g.account = false then
    contractCall g.target (AccessControl.grantRole .access sender g.role g.account)

def renounceHeld (sender deployer : Address) (t : Contract) (role : Role) : HandoffTx Unit := do
  let w ← get
  if (w t).access.hasRole (roleId role) deployer = true then
    contractCall t (AccessControl.renounceRole .access sender (roleId role) deployer)

def renounceAt (sender deployer : Address) (t : Contract) : HandoffTx Unit := do
  forM roles.tail fun role => renounceHeld sender deployer t role
  contractCall t (AccessControl.renounceRole .access sender (roleId .defaultAdmin) deployer)

def renounceAll (sender deployer : Address) : HandoffTx Unit :=
  forM targets fun t => renounceAt sender deployer t

/-- The accounts that `verify` looks at. -/
def accounts (c : Contracts) (h : Holders) (timelock : Address) : List Address :=
  [timelock, h.safe, h.guardian, h.relayer, h.scheduler, h.deployer, c.payments, c.subscriptions]

def verifyRole (c : Contracts) (table : List Grant) (t : Contract) (role : Role)
    (account : Address) : HandoffTx Unit := do
  let w ← get
  let expected := table.contains ⟨t, roleId role, account⟩
  fail (account ≠ 0 ∧ (w t).access.hasRole (roleId role) account ≠ expected)
    (.roleMismatch (c.address t) (roleId role) account expected)

def verify (c : Contracts) (h : Holders) (timelock : Address) (table : List Grant) :
    HandoffTx Unit := do
  forM targets fun t => forM roles fun role => forM (accounts c h timelock) fun account =>
    verifyRole c table t role account
  checkServiceRoleAdmins c

/-- `AdminHandoff.run`; `address` is where the timelock is created. -/
def run (env : Env) (sender : Address) (c : Contracts) (h : Holders) (minDelay : Nat)
    (address : Address) : HandoffTx TimelockController := do
  check env c h minDelay
  let timelock ← createTimelock h sender minDelay address
  let table := roleTable c h timelock.address
  forM table fun g => applyGrant sender g
  renounceAll sender h.deployer
  verify c h timelock.address table
  verifyTimelock env timelock h
  return timelock

end Strimz.AdminHandoff
