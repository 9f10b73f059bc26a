import Strimz.AdminContracts

/-!
# StrimzAgentRegistry

Identity and reputation of agents (`agent/StrimzAgentRegistry.sol`). An agent registers itself and
is its own controller from then on; `AGENT_ADMIN_ROLE` adjusts reputations and suspends. The role
table is OpenZeppelin's, with every entry point that changes it, so a run is any sequence of calls
to the contract while its implementation stays.
-/

namespace Strimz.AgentRegistry

open Tx
open AdminHandoff (roleId)

/-- `IStrimzAgentRegistry.Agent`. An all-zero record is an address never registered. -/
structure Agent where
  controller : Address
  credentialDigest : Bytes32
  name : Bytes
  version : Bytes
  /-- An `int256`. -/
  reputationScore : Uint256
  registeredAt : Uint64
  active : Bool
deriving Repr, DecidableEq

inductive AgentRegistryError where
  | alreadyRegistered (agent : Address)
  | unknownAgent (agent : Address)
  | notController
  | notAgent
  | zeroAddress
  | suspended (agent : Address)
deriving Repr, DecidableEq

inductive AgentRevert where
  | panic
  | access (e : AccessControl.Denied Bytes32 Address)
  | agentRegistry (e : AgentRegistryError)
deriving Repr, DecidableEq

inductive Event where
  | agentRegistered (agent controller : Address) (credentialDigest : Bytes32)
      (name version : Bytes)
  | agentCredentialRotated (agent : Address) (newCredentialDigest : Bytes32)
  | agentReputationAdjusted (agent : Address) (delta newScore : Uint256)
  | agentDeactivated (agent : Address)
  | agentActivated (agent : Address)
deriving Repr, DecidableEq

def Event.agent : Event → Address
  | .agentRegistered agent _ _ _ _ => agent
  | .agentCredentialRotated agent _ => agent
  | .agentReputationAdjusted agent _ _ => agent
  | .agentDeactivated agent => agent
  | .agentActivated agent => agent

/-- An event and the time of its block. -/
structure Log where
  time : Uint64
  event : Event
deriving Repr, DecidableEq

structure Storage where
  access : AccessControl Bytes32 Address
  agents : Address → Agent
  suspended : Address → Bool
  logs : List Log

abbrev Call (α : Type) := Tx AgentRevert Storage α

def noAgent : Agent := ⟨0, 0, [], [], 0, 0, false⟩

/-- The roles `initialize` grants. -/
def initialRoles : List Role := [.defaultAdmin, .admin, .upgrader, .agentAdmin]

/-- The storage `initialize` leaves behind. -/
def initialized (admin : Address) : Storage where
  access := initialRoles.foldl (fun t role => t.grant (roleId role) admin)
    (.init (roleId .defaultAdmin))
  agents := fun _ => noAgent
  suspended := fun _ => false
  logs := []

/-- The roles are those the initializer grants in the model of the handoff. -/
theorem initialize_leaves (admin implementation : Address) :
    ∃ s, AdminHandoff.StrimzAgentRegistry.initialize_ admin (AdminHandoff.blank implementation) =
      .ok ((), s) ∧ s.access = (initialized admin).access :=
  ⟨_, rfl, rfl⟩

/-! ## Storage -/

@[simps]
def Storage.putAgent (s : Storage) (agent : Address) (a : Agent) : Storage :=
  { s with agents := Function.update s.agents agent a }

@[simps]
def Storage.putSuspended (s : Storage) (agent : Address) (b : Bool) : Storage :=
  { s with suspended := Function.update s.suspended agent b }

@[simps]
def Storage.log (s : Storage) (lg : Log) : Storage := { s with logs := s.logs ++ [lg] }

def Storage.hasRole (s : Storage) (role : Role) (account : Address) : Bool :=
  s.access.hasRole (roleId role) account

def accessCall (m : Tx AgentRevert (AccessControl Bytes32 Address) Unit) : Call Unit :=
  zoom (·.access) (fun access s => { s with access := access }) m

def setAgent (agent : Address) (a : Agent) : Call Unit := modify (·.putAgent agent a)

def setSuspended (agent : Address) (b : Bool) : Call Unit := modify (·.putSuspended agent b)

def emit (msg : Msg) (e : Event) : Call Unit := modify (·.log ⟨msg.timestamp, e⟩)

/-- `_loadAgent` -/
def loadAgent (agent : Address) : Call Agent := do
  let s ← get
  revertIf ((s.agents agent).controller = 0) (.agentRegistry (.unknownAgent agent))
  return s.agents agent

/-- `+` on `int256`. -/
def checkedAddInt (a b : Uint256) : Call Uint256 := do
  revertIf (a.saddOverflow b = true) .panic
  return a + b

/-! ## Entry points -/

def registerAgent (msg : Msg) (agent : Address) (credentialDigest : Bytes32)
    (name version : Bytes) : Call Unit := do
  revertIf (agent = 0) (.agentRegistry .zeroAddress)
  revertIf (msg.sender ≠ agent) (.agentRegistry .notAgent)
  let s ← get
  revertIf ((s.agents agent).controller ≠ 0) (.agentRegistry (.alreadyRegistered agent))
  setAgent agent
    { controller := msg.sender, credentialDigest := credentialDigest, name := name,
      version := version, reputationScore := 0, registeredAt := msg.timestamp, active := true }
  emit msg (.agentRegistered agent msg.sender credentialDigest name version)

def rotateCredential (msg : Msg) (agent : Address) (newCredentialDigest : Bytes32) :
    Call Unit := do
  let a ← loadAgent agent
  revertIf (msg.sender ≠ a.controller) (.agentRegistry .notController)
  setAgent agent { a with credentialDigest := newCredentialDigest }
  emit msg (.agentCredentialRotated agent newCredentialDigest)

def adjustReputation (msg : Msg) (agent : Address) (delta : Uint256) : Call Unit := do
  accessCall (AccessControl.onlyRole .access (roleId .agentAdmin) msg.sender)
  let a ← loadAgent agent
  let reputationScore ← checkedAddInt a.reputationScore delta
  setAgent agent { a with reputationScore := reputationScore }
  emit msg (.agentReputationAdjusted agent delta reputationScore)

def deactivate (msg : Msg) (agent : Address) : Call Unit := do
  let a ← loadAgent agent
  let s ← get
  revertIf (msg.sender ≠ a.controller ∧ s.hasRole .agentAdmin msg.sender = false)
    (.agentRegistry .notController)
  if s.hasRole .agentAdmin msg.sender = true then
    setSuspended agent true
  setAgent agent { a with active := false }
  emit msg (.agentDeactivated agent)

def activate (msg : Msg) (agent : Address) : Call Unit := do
  let a ← loadAgent agent
  let s ← get
  if s.hasRole .agentAdmin msg.sender = true then
    setSuspended agent false
  else if msg.sender ≠ a.controller then
    throw (.agentRegistry .notController)
  else if s.suspended agent = true then
    throw (.agentRegistry (.suspended agent))
  setAgent agent { a with active := true }
  emit msg (.agentActivated agent)

def Storage.getAgent (s : Storage) (agent : Address) : Agent := s.agents agent

def Storage.isSuspended (s : Storage) (agent : Address) : Bool := s.suspended agent

def Storage.isActive (s : Storage) (agent : Address) : Bool :=
  (s.agents agent).controller != 0 && (s.agents agent).active && !s.suspended agent

/-! ## The contract as a machine -/

inductive Action where
  | registerAgent (agent : Address) (credentialDigest : Bytes32) (name version : Bytes)
  | rotateCredential (agent : Address) (newCredentialDigest : Bytes32)
  | adjustReputation (agent : Address) (delta : Uint256)
  | deactivate (agent : Address)
  | activate (agent : Address)
  | grantRole (role : Bytes32) (account : Address)
  | revokeRole (role : Bytes32) (account : Address)
  | renounceRole (role : Bytes32) (callerConfirmation : Address)
deriving Repr, DecidableEq

structure Label where
  msg : Msg
  action : Action
deriving Repr, DecidableEq

def dispatch (msg : Msg) : Action → Call Unit
  | .registerAgent agent credentialDigest name version =>
      registerAgent msg agent credentialDigest name version
  | .rotateCredential agent newCredentialDigest => rotateCredential msg agent newCredentialDigest
  | .adjustReputation agent delta => adjustReputation msg agent delta
  | .deactivate agent => deactivate msg agent
  | .activate agent => activate msg agent
  | .grantRole role account =>
      accessCall (AccessControl.grantRole .access msg.sender role account)
  | .revokeRole role account =>
      accessCall (AccessControl.revokeRole .access msg.sender role account)
  | .renounceRole role callerConfirmation =>
      accessCall (AccessControl.renounceRole .access msg.sender role callerConfirmation)

/-- One transaction: a revert leaves the storage as it was. -/
def step (s : Storage) (l : Label) : Storage := commit (dispatch l.msg l.action) s

end Strimz.AgentRegistry
