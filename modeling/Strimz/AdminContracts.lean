import Strimz.AccessControl
import Strimz.Evm

/-!
# What the admin roles guard

The administrative side of the seven contracts: their role tables, initializers, implementations,
pauses, dependency pointers and the token whitelist, with every function that writes one of them.
The other functions write none of these; what they call out to and is called back from there is a
call of its own, of whoever makes it.
-/

namespace Strimz.AdminHandoff

open Tx Runs

/-! ## Roles -/

/-- `keccak256` of the role's name. -/
def roleId : Role → Bytes32
  | .defaultAdmin => 0x00#256
  | .admin => 0x4224ea029bf38db17a377bb620fb8864fd9aa4a21cc5fa5e524c35e67e78f30d#256
  | .upgrader => 0x3fef3e4c656803d8190e85770e2ea86a06ba5e29e5f824ece35c612ef5852e93#256
  | .charger => 0x4611e2b5ec270666466780a0da4d9bde47b1a93647fe6248df8331658438c699#256
  | .subscriptionCanceller => 0xae12821e87dd41ceac5134907e5b419362c19f72ddb63fb9a6c91f9fb74c5b00#256
  | .tokenManager => 0x8f25454bf6fa774f4273b138e0fdb053fae9184872087110b297cca4a4f6310f#256
  | .merchantRegistrar => 0xfc91a02590909b4028f693d3b6f3d10a91a4c20dc29de6eb81d4a958461507b6#256
  | .feeAccruer => 0x8c1553174c706bb4db0d2e865f7522d5b9df80d2e201f90495816127790c485a#256
  | .treasury => 0x557d04a5a0031d029e698f403863ba8ff0d5725375e1b122b4d6371cb0c9216f#256
  | .agentAdmin => 0xc80b2f424c6a839a0b929b0be07681a7623d498ae378896c47cb28615426fbd8#256
  | .pauser => 0x2a40e130901d7c1a8a8cd4206027f1fce467c988c488837983087aa41b78b3b6#256
  | .feeManager => 0xfaa1b4a755aec5091d80645f1424ff58f0752e3184d3f7c2c9b225c64e48b533#256
  | .disputeResolver => 0x98fdc0d1ae32c91482a515a0f6b34dda3299bcdd04624319dc66687124716310#256

/-- `_roles()` -/
def roles : List Role :=
  [.defaultAdmin, .admin, .upgrader, .charger, .subscriptionCanceller, .tokenManager,
   .merchantRegistrar, .feeAccruer, .treasury, .agentAdmin, .pauser, .disputeResolver, .feeManager]

theorem mem_roles (role : Role) : role ∈ roles := by cases role <;> decide

theorem roleId_injective : Function.Injective roleId := by
  have hnodup : (roles.map roleId).Nodup := by decide +kernel
  intro r s h
  exact List.inj_on_of_nodup_map hnodup (mem_roles r) (mem_roles s) h

@[simp] theorem roleId_inj {r s : Role} : roleId r = roleId s ↔ r = s := roleId_injective.eq_iff

/-! ## State -/

inductive Contract where
  | registry
  | tokenWhitelist
  | feeCollector
  | payments
  | subscriptions
  | agentRegistry
  | agentEscrow
deriving Repr, DecidableEq

/-- `_targets(c)` -/
def targets : List Contract :=
  [.registry, .tokenWhitelist, .feeCollector, .payments, .subscriptions, .agentRegistry,
   .agentEscrow]

theorem mem_targets (t : Contract) : t ∈ targets := by cases t <;> decide

/-- One contract's part. A contract without an implementation slot, a pointer or a whitelist leaves
that field alone. -/
structure ContractState where
  access : AccessControl Bytes32 Address
  initialized : Bool
  paused : Bool
  implementation : Address
  registry : Address
  feeCollector : Address
  tokenWhitelist : Address
  whitelisted : Address → Bool
  capabilities : Address → BitVec 8

inductive HandoffError where
  | zeroAddress
  | safeHasNoCode (safe : Address)
  | safeThresholdTooLow (threshold : Nat)
  | holdersNotDistinct
  | deployerNotAdmin (target : Address)
  | serviceRoleAdminNotSet (target : Address)
  | roleMismatch (target : Address) (role : Bytes32) (account : Address) (expected : Bool)
  | delayBelowFloor (minDelay floor : Nat)
  | unknownChain (chainId : Nat)
  | guardianRequired
  | timelockRoleMismatch (role : Bytes32) (account : Address) (expected : Bool)
deriving Repr, DecidableEq

inductive AdminRevert where
  | access (e : AccessControl.Denied Bytes32 Address)
  | invalidInitialization
  | enforcedPause
  | expectedPause
  | zeroAddress
  | alreadyWhitelisted (token : Address)
  | notWhitelisted (token : Address)
  | invalidCapability (capabilities : BitVec 8)
  | unknownFunction
  | handoff (e : HandoffError)
deriving Repr, DecidableEq

abbrev ContractTx := Tx AdminRevert ContractState

/-- A function of `AccessControl`. -/
def accessCall (m : Tx AdminRevert (AccessControl Bytes32 Address) Unit) : ContractTx Unit :=
  zoom (·.access) (fun access s => { s with access := access }) m

def onlyRole (role : Role) (sender : Address) : ContractTx Unit :=
  accessCall (AccessControl.onlyRole .access (roleId role) sender)

def whenPaused : ContractTx Unit := do
  let s ← get
  revertIf (s.paused = false) .expectedPause

def whenNotPaused : ContractTx Unit := do
  let s ← get
  revertIf (s.paused = true) .enforcedPause

def initializer : ContractTx Unit := do
  let s ← get
  revertIf (s.initialized = true) .invalidInitialization
  modify fun s => { s with initialized := true }

/-- `_grantRole` of each role. -/
def grantTo (admin : Address) (granted : List Role) : ContractTx Unit :=
  modify fun s =>
    { s with access := granted.foldl (fun t role => t.grant (roleId role) admin) s.access }

/-- `_setRoleAdmin(role, ADMIN_ROLE)` of each role. -/
def administer (serviceRoles : List Role) : ContractTx Unit :=
  modify fun s =>
    { s with access :=
        serviceRoles.foldl (fun t role => t.setRoleAdmin (roleId role) (roleId .admin)) s.access }

/-! ## Constructors and initializers -/

def StrimzRegistry.initialize_ (admin : Address) : ContractTx Unit := do
  initializer
  revertIf (admin = 0) .zeroAddress
  grantTo admin [.defaultAdmin, .admin, .upgrader, .merchantRegistrar]
  administer [.feeManager, .merchantRegistrar]

def TokenWhitelist.initialize_ (admin : Address) : ContractTx Unit := do
  initializer
  revertIf (admin = 0) .zeroAddress
  grantTo admin [.defaultAdmin, .admin, .upgrader, .tokenManager]

def FeeCollector.initialize_ (admin : Address) : ContractTx Unit := do
  initializer
  grantTo admin [.defaultAdmin, .admin, .upgrader, .treasury]

def StrimzPayments.construct (admin registry feeCollector tokenWhitelist : Address) :
    ContractTx Unit := do
  initializer
  revertIf (admin = 0 ∨ registry = 0 ∨ feeCollector = 0 ∨ tokenWhitelist = 0) .zeroAddress
  grantTo admin [.defaultAdmin, .admin, .pauser]
  modify fun s => { s with
    registry := registry, feeCollector := feeCollector, tokenWhitelist := tokenWhitelist }

def StrimzSubscriptions.construct (admin registry feeCollector tokenWhitelist : Address) :
    ContractTx Unit := do
  initializer
  revertIf (admin = 0 ∨ registry = 0 ∨ feeCollector = 0 ∨ tokenWhitelist = 0) .zeroAddress
  grantTo admin [.defaultAdmin, .admin, .pauser, .charger, .subscriptionCanceller]
  administer [.charger, .subscriptionCanceller]
  modify fun s => { s with
    registry := registry, feeCollector := feeCollector, tokenWhitelist := tokenWhitelist }

def StrimzAgentRegistry.initialize_ (admin : Address) : ContractTx Unit := do
  initializer
  grantTo admin [.defaultAdmin, .admin, .upgrader, .agentAdmin]

def StrimzAgentEscrow.initialize_ (admin tokenWhitelist : Address) : ContractTx Unit := do
  initializer
  revertIf (admin = 0 ∨ tokenWhitelist = 0) .zeroAddress
  grantTo admin [.defaultAdmin, .admin, .upgrader, .pauser, .disputeResolver]
  modify fun s => { s with tokenWhitelist := tokenWhitelist }

/-- What a constructor or the `initialize` of a proxy is called with. -/
structure DeployArgs where
  admin : Address
  implementation : Address
  registry : Address
  feeCollector : Address
  tokenWhitelist : Address

/-- The storage before anything ran. -/
def blank (implementation : Address) : ContractState where
  access := .init (roleId .defaultAdmin)
  initialized := false
  paused := false
  implementation := implementation
  registry := 0
  feeCollector := 0
  tokenWhitelist := 0
  whitelisted _ := false
  capabilities _ := 0

def construct (args : DeployArgs) : Contract → ContractTx Unit
  | .registry => StrimzRegistry.initialize_ args.admin
  | .tokenWhitelist => TokenWhitelist.initialize_ args.admin
  | .feeCollector => FeeCollector.initialize_ args.admin
  | .payments =>
      StrimzPayments.construct args.admin args.registry args.feeCollector args.tokenWhitelist
  | .subscriptions =>
      StrimzSubscriptions.construct args.admin args.registry args.feeCollector args.tokenWhitelist
  | .agentRegistry => StrimzAgentRegistry.initialize_ args.admin
  | .agentEscrow => StrimzAgentEscrow.initialize_ args.admin args.tokenWhitelist

/-! ## Functions -/

def pause (sender : Address) : ContractTx Unit := do
  onlyRole .pauser sender
  whenNotPaused
  modify fun s => { s with paused := true }

def unpause (sender : Address) : ContractTx Unit := do
  onlyRole .admin sender
  whenPaused
  modify fun s => { s with paused := false }

def setRegistry (sender v : Address) : ContractTx Unit := do
  onlyRole .defaultAdmin sender
  whenPaused
  revertIf (v = 0) .zeroAddress
  modify fun s => { s with registry := v }

def setFeeCollector (sender v : Address) : ContractTx Unit := do
  onlyRole .defaultAdmin sender
  whenPaused
  revertIf (v = 0) .zeroAddress
  modify fun s => { s with feeCollector := v }

def setTokenWhitelist (sender v : Address) : ContractTx Unit := do
  onlyRole .defaultAdmin sender
  whenPaused
  revertIf (v = 0) .zeroAddress
  modify fun s => { s with tokenWhitelist := v }

/-- `_authorizeUpgrade`, and the new implementation. -/
def upgradeToAndCall (sender newImplementation : Address) : ContractTx Unit := do
  onlyRole .upgrader sender
  modify fun s => { s with implementation := newImplementation }

/-- `CAP_PERMIT_2612 | CAP_TRANSFER_AUTH_3009` -/
def ALL_CAPS : BitVec 8 := 0x03#8

def add (sender token : Address) : ContractTx Unit := do
  onlyRole .tokenManager sender
  revertIf (token = 0) .zeroAddress
  let s ← get
  revertIf (s.whitelisted token = true) (.alreadyWhitelisted token)
  modify fun s => { s with whitelisted := Function.update s.whitelisted token true }

def remove (sender token : Address) : ContractTx Unit := do
  onlyRole .tokenManager sender
  let s ← get
  revertIf (s.whitelisted token = false) (.notWhitelisted token)
  modify fun s => { s with
    whitelisted := Function.update s.whitelisted token false
    capabilities := Function.update s.capabilities token 0 }

def setCapabilities (sender token : Address) (capabilities : BitVec 8) : ContractTx Unit := do
  onlyRole .tokenManager sender
  let s ← get
  revertIf (s.whitelisted token = false) (.notWhitelisted token)
  revertIf (capabilities &&& ~~~ALL_CAPS ≠ 0) (.invalidCapability capabilities)
  modify fun s => { s with capabilities := Function.update s.capabilities token capabilities }

/-- A function with its arguments. -/
inductive Fn where
  | initialize_ (admin tokenWhitelist : Address)
  | grantRole (role : Bytes32) (account : Address)
  | revokeRole (role : Bytes32) (account : Address)
  | renounceRole (role : Bytes32) (callerConfirmation : Address)
  | upgradeToAndCall (newImplementation : Address)
  | pause
  | unpause
  | setRegistry (v : Address)
  | setFeeCollector (v : Address)
  | setTokenWhitelist (v : Address)
  | add (token : Address)
  | remove (token : Address)
  | setCapabilities (token : Address) (capabilities : BitVec 8)
  /-- Any other function of the contract. -/
  | other
deriving Repr, DecidableEq

def Contract.upgradeable : Contract → Bool
  | .payments | .subscriptions => false
  | _ => true

/-- Which contract has which function. -/
def Contract.exposes (t : Contract) : Fn → Bool
  | .initialize_ _ _ | .upgradeToAndCall _ => t.upgradeable
  | .pause | .unpause | .setTokenWhitelist _ =>
      t = .payments || t = .subscriptions || t = .agentEscrow
  | .setRegistry _ | .setFeeCollector _ => t = .payments || t = .subscriptions
  | .add _ | .remove _ | .setCapabilities _ _ => t = .tokenWhitelist
  | .grantRole _ _ | .revokeRole _ _ | .renounceRole _ _ | .other => true

def execute (t : Contract) (sender : Address) : Fn → ContractTx Unit
  | .initialize_ admin tokenWhitelist => construct ⟨admin, 0, 0, 0, tokenWhitelist⟩ t
  | .grantRole role account => accessCall (AccessControl.grantRole .access sender role account)
  | .revokeRole role account => accessCall (AccessControl.revokeRole .access sender role account)
  | .renounceRole role callerConfirmation =>
      accessCall (AccessControl.renounceRole .access sender role callerConfirmation)
  | .upgradeToAndCall newImplementation => upgradeToAndCall sender newImplementation
  | .pause => pause sender
  | .unpause => unpause sender
  | .setRegistry v => setRegistry sender v
  | .setFeeCollector v => setFeeCollector sender v
  | .setTokenWhitelist v => setTokenWhitelist sender v
  | .add token => add sender token
  | .remove token => remove sender token
  | .setCapabilities token capabilities => setCapabilities sender token capabilities
  | .other => pure ()

def Contract.call (t : Contract) (sender : Address) (f : Fn) : ContractTx Unit := do
  revertIf (t.exposes f = false) .unknownFunction
  execute t sender f

/-! ## Runs of calls -/

/-- The seven contracts. -/
abbrev World := Contract → ContractState

structure Call where
  sender : Address
  target : Contract
  fn : Fn
deriving Repr, DecidableEq

def step (w : World) (k : Call) : World :=
  Function.update w k.target (commit (k.target.call k.sender k.fn) (w k.target))

/-- Every contract was set up by its own constructor or `initialize`. -/
def Deployed (w : World) : Prop :=
  ∀ t, ∃ args : DeployArgs, construct args t (blank args.implementation) = .ok ((), w t)

end Strimz.AdminHandoff
