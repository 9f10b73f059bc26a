import Strimz.Interfaces

/-!
# StrimzAgentEscrow

The ERC-8183 escrow (`agent/StrimzAgentEscrow.sol`): a job is proposed and funded
by its client, started and delivered by its vendor, released by its assessor;
disputes go to a resolver and timeouts to whoever has standing.

A token may call back while it moves the money, so here a transfer acts on the whole
state, the escrow's own storage included (`Outside`, `reentrantCall`), and a function
that goes on after a transfer reads its job again, as the source does through its
storage pointer. `fundings`, `payouts` and `changes` are the history, job by job, of the
escrow's own token transfers and of `_setStatus`; the contract does not read them.
-/

namespace Strimz

/-- `IStrimzAgentEscrow.Job`. An all-zero record is an id never handed out. -/
structure Job where
  client : Address
  vendor : Address
  assessor : Address
  token : Address
  amount : Uint256
  description : String
  deliverableHash : Bytes32
  status : JobStatus
  createdAt : Uint64
  completedAt : Uint64
  statusChangedAt : Uint64
deriving Repr, DecidableEq

/-- `_setStatus`'s two writes. -/
@[simps]
def Job.moved (next : JobStatus) (timestamp : Uint64) (job : Job) : Job :=
  { job with status := next, statusChangedAt := timestamp }

@[simps]
def Job.delivering (deliverableHash : Bytes32) (job : Job) : Job :=
  { job with deliverableHash := deliverableHash }

@[simps]
def Job.stamped (timestamp : Uint64) (job : Job) : Job := { job with completedAt := timestamp }

namespace AgentEscrow

open Tx

/-- 7 days. -/
def START_TIMEOUT : Uint64 := 604800
/-- 30 days. -/
def DELIVERY_TIMEOUT : Uint64 := 2592000
/-- 14 days. -/
def APPROVAL_TIMEOUT : Uint64 := 1209600
/-- 30 days. -/
def DISPUTE_TIMEOUT : Uint64 := 2592000

inductive Event where
  | jobCreated (jobId : Nat) (client vendor token : Address) (amount : Uint256)
  | jobFunded (jobId : Nat) (amount : Uint256)
  | jobStarted (jobId : Nat)
  | jobDelivered (jobId : Nat) (deliverableHash : Bytes32)
  | jobApproved (jobId : Nat) (assessor : Address)
  | jobReleased (jobId : Nat) (vendor : Address) (amount : Uint256)
  | jobDisputed (jobId : Nat) (by_ : Address) (reason : String)
  | jobCancelled (jobId : Nat) (reason : String)
  | jobRefunded (jobId : Nat) (to_ : Address) (amount : Uint256)
  | jobResolved (jobId : Nat) (resolver : Address) (toVendor toClient : Uint256)
  | jobReclaimed (jobId : Nat) (to_ : Address) (amount : Uint256) (fromStatus : JobStatus)
  | dependencyUpdated (name : String) (newAddress : Address)
deriving Repr, DecidableEq

structure Storage where
  hasRole : RoleTable
  paused : Bool
  entered : Bool
  tokenWhitelist : Address
  nextJobId : Nat
  jobs : Nat → Job
  disputedFrom : Nat → JobStatus
  fundings : Nat → List (Address × Uint256)
  payouts : Nat → List (Address × Uint256)
  changes : Nat → List JobStatus
  logs : List Event

def noJob : Job := ⟨0, 0, 0, 0, 0, "", 0, .none, 0, 0, 0⟩

/-- The storage `initialize` leaves behind, whatever roles were granted. -/
def deployed (hasRole : RoleTable) (tokenWhitelist : Address) : Storage where
  hasRole := hasRole
  paused := false
  entered := false
  tokenWhitelist := tokenWhitelist
  nextJobId := 1
  jobs := fun _ => noJob
  disputedFrom := fun _ => .none
  fundings := fun _ => []
  payouts := fun _ => []
  changes := fun _ => []
  logs := []

/-! ## Storage writes -/

@[simps]
def Storage.setEntered (entered : Bool) (s : Storage) : Storage := { s with entered := entered }

@[simps]
def Storage.putNextId (s : Storage) (jobId : Nat) : Storage := { s with nextJobId := jobId }

@[simps]
def Storage.updateJob (s : Storage) (jobId : Nat) (f : Job → Job) : Storage :=
  { s with jobs := Function.update s.jobs jobId (f (s.jobs jobId)) }

@[simps]
def Storage.putDisputedFrom (s : Storage) (jobId : Nat) (status : JobStatus) : Storage :=
  { s with disputedFrom := Function.update s.disputedFrom jobId status }

@[simps]
def Storage.addFunding (s : Storage) (jobId : Nat) (from_ : Address) (amount : Uint256) : Storage :=
  { s with fundings := Function.update s.fundings jobId (s.fundings jobId ++ [(from_, amount)]) }

@[simps]
def Storage.addPayout (s : Storage) (jobId : Nat) (to_ : Address) (amount : Uint256) : Storage :=
  { s with payouts := Function.update s.payouts jobId (s.payouts jobId ++ [(to_, amount)]) }

@[simps]
def Storage.addChange (s : Storage) (jobId : Nat) (status : JobStatus) : Storage :=
  { s with changes := Function.update s.changes jobId (s.changes jobId ++ [status]) }

@[simps]
def Storage.log (s : Storage) (e : Event) : Storage := { s with logs := s.logs ++ [e] }

/-- What the escrow calls. A transfer acts on the escrow and its outside together: the
token may call back. -/
structure Outside (ξ : Type) where
  isWhitelisted : Address → Address → ξ → Except Revert Bool
  balanceOf : Address → Address → ξ → Except Revert Uint256
  safeTransfer : Msg → Address → Address → Uint256 → Ctx Storage ξ →
    Except Revert (Ctx Storage ξ)
  safeTransferFrom : Msg → Address → Address → Address → Uint256 → Ctx Storage ξ →
    Except Revert (Ctx Storage ξ)

section Code

variable {ξ : Type}

abbrev Call (ξ α : Type) := Tx Revert (Ctx Storage ξ) α

def emit (e : Event) : Call ξ Unit := sstore (·.log e)

def nonReentrant {α : Type} (body : Call ξ α) : Call ξ α :=
  guarded Storage.entered Storage.setEntered body

/-- Read a job's storage slot. -/
def readJob (jobId : Nat) : Call ξ Job := do
  let s ← sload
  return s.jobs jobId

/-- `_loadJob` -/
def loadJob (jobId : Nat) : Call ξ Job := do
  let job ← readJob jobId
  revertIf (job.client = 0) (.agentEscrow (.unknownJob jobId))
  return job

/-- `_setStatus` -/
def setStatus (msg : Msg) (jobId : Nat) (next : JobStatus) : Call ξ Unit := do
  sstore (·.updateJob jobId (Job.moved next msg.timestamp))
  sstore (·.addChange jobId next)

/-- `job.completedAt = uint64(block.timestamp)` -/
def setCompletedAt (msg : Msg) (jobId : Nat) : Call ξ Unit :=
  sstore (·.updateJob jobId (Job.stamped msg.timestamp))

variable (O : Outside ξ) (this : Address)

/-- `IERC20(token).safeTransfer(to, amount)`, for a job. -/
def payOut (msg : Msg) (jobId : Nat) (token to_ : Address) (amount : Uint256) : Call ξ Unit := do
  reentrantCall (O.safeTransfer ⟨this, msg.timestamp⟩ token to_ amount)
  sstore (·.addPayout jobId to_ amount)

/-- `IERC20(token).safeTransferFrom(from, address(this), amount)`, for a job. -/
def pullIn (msg : Msg) (jobId : Nat) (token from_ : Address) (amount : Uint256) : Call ξ Unit := do
  reentrantCall (O.safeTransferFrom ⟨this, msg.timestamp⟩ token from_ this amount)
  sstore (·.addFunding jobId from_ amount)

/-! ## Pausing and the whitelist -/

def pause (msg : Msg) : Call ξ Unit := do
  let s ← sload
  onlyRole s.hasRole .pauser msg.sender
  whenNotPaused s.paused
  sstore fun s => { s with paused := true }

def unpause (msg : Msg) : Call ξ Unit := do
  let s ← sload
  onlyRole s.hasRole .admin msg.sender
  whenPaused s.paused
  sstore fun s => { s with paused := false }

def setTokenWhitelist (msg : Msg) (v : Address) : Call ξ Unit := do
  let s ← sload
  onlyRole s.hasRole .defaultAdmin msg.sender
  whenPaused s.paused
  revertIf (v = 0) (.agentEscrow .zeroAddress)
  sstore fun s => { s with tokenWhitelist := v }
  emit (.dependencyUpdated "tokenWhitelist" v)

/-! ## Lifecycle -/

def newJob (msg : Msg) (vendor assessor token : Address) (amount : Uint256)
    (description : String) : Job where
  client := msg.sender
  vendor := vendor
  assessor := assessor
  token := token
  amount := amount
  description := description
  deliverableHash := 0
  status := .proposed
  createdAt := msg.timestamp
  completedAt := 0
  statusChangedAt := msg.timestamp

def createJob (msg : Msg) (vendor assessor token : Address) (amount : Uint256)
    (description : String) : Call ξ Nat := do
  let s ← sload
  whenNotPaused s.paused
  revertIf (amount = 0) (.agentEscrow .zeroAmount)
  revertIf (vendor = 0 ∨ assessor = 0) (.agentEscrow .zeroAddress)
  revertIf (vendor = msg.sender ∨ assessor = msg.sender ∨ vendor = assessor)
    (.agentEscrow .selfDeal)
  let allowed ← staticcall (O.isWhitelisted s.tokenWhitelist token)
  revertIf (allowed = false) (.agentEscrow (.invalidToken token))
  let jobId := s.nextJobId
  sstore (·.putNextId (jobId + 1))
  sstore (·.updateJob jobId fun _ => newJob msg vendor assessor token amount description)
  emit (.jobCreated jobId msg.sender vendor token amount)
  return jobId

def fundJob (msg : Msg) (jobId : Nat) : Call ξ Unit := do
  let s ← sload
  whenNotPaused s.paused
  nonReentrant do
    let job ← loadJob jobId
    revertIf (msg.sender ≠ job.client) (.agentEscrow .notClient)
    revertIf (job.status ≠ .proposed) (.agentEscrow (.invalidState jobId job.status))
    let beforeBal ← staticcall (O.balanceOf job.token this)
    pullIn O this msg jobId job.token msg.sender job.amount
    let job ← readJob jobId
    let afterBal ← staticcall (O.balanceOf job.token this)
    let received ← checkedSub afterBal beforeBal
    revertIf (received ≠ job.amount) (.agentEscrow .nonStandardTransfer)
    setStatus msg jobId .funded
    emit (.jobFunded jobId job.amount)

def startJob (msg : Msg) (jobId : Nat) : Call ξ Unit := do
  let job ← loadJob jobId
  revertIf (msg.sender ≠ job.vendor) (.agentEscrow .notVendor)
  revertIf (job.status ≠ .funded) (.agentEscrow (.invalidState jobId job.status))
  setStatus msg jobId .inProgress
  emit (.jobStarted jobId)

def submitDeliverable (msg : Msg) (jobId : Nat) (deliverableHash : Bytes32) : Call ξ Unit := do
  let job ← loadJob jobId
  revertIf (msg.sender ≠ job.vendor) (.agentEscrow .notVendor)
  revertIf (job.status ≠ .inProgress) (.agentEscrow (.invalidState jobId job.status))
  sstore (·.updateJob jobId (Job.delivering deliverableHash))
  setStatus msg jobId .delivered
  emit (.jobDelivered jobId deliverableHash)

def approveAndRelease (msg : Msg) (jobId : Nat) : Call ξ Unit :=
  nonReentrant do
    let job ← loadJob jobId
    revertIf (msg.sender ≠ job.assessor) (.agentEscrow .notAssessor)
    revertIf (job.status ≠ .delivered) (.agentEscrow (.invalidState jobId job.status))
    setStatus msg jobId .completed
    setCompletedAt msg jobId
    payOut O this msg jobId job.token job.vendor job.amount
    let job ← readJob jobId
    emit (.jobApproved jobId msg.sender)
    emit (.jobReleased jobId job.vendor job.amount)

def dispute (msg : Msg) (jobId : Nat) (reason : String) : Call ξ Unit := do
  let job ← loadJob jobId
  revertIf (msg.sender ≠ job.client ∧ msg.sender ≠ job.vendor) (.agentEscrow .notParty)
  revertIf (job.status ≠ .delivered ∧ job.status ≠ .inProgress)
    (.agentEscrow (.invalidState jobId job.status))
  sstore (·.putDisputedFrom jobId job.status)
  setStatus msg jobId .disputed
  emit (.jobDisputed jobId msg.sender reason)

def cancelJob (msg : Msg) (jobId : Nat) (reason : String) : Call ξ Unit :=
  nonReentrant do
    let job ← loadJob jobId
    revertIf (msg.sender ≠ job.client) (.agentEscrow .notClient)
    revertIf (job.status ≠ .proposed ∧ job.status ≠ .funded)
      (.agentEscrow (.invalidState jobId job.status))
    setStatus msg jobId .cancelled
    if job.status = .funded then
      payOut O this msg jobId job.token job.client job.amount
      let after ← readJob jobId
      emit (.jobRefunded jobId after.client job.amount)
    else pure ()
    emit (.jobCancelled jobId reason)

/-! ## Dispute resolution -/

/-- `if (amount > 0) IERC20(job.token).safeTransfer(to, amount)`: one side of a split. -/
def paySide (msg : Msg) (jobId : Nat) (party : Job → Address) (amount : Uint256) : Call ξ Unit := do
  let job ← readJob jobId
  if 0 < amount then payOut O this msg jobId job.token (party job) amount
  else pure ()

def resolveDispute (msg : Msg) (jobId : Nat) (toVendor toClient : Uint256) : Call ξ Unit := do
  let s ← sload
  onlyRole s.hasRole .disputeResolver msg.sender
  nonReentrant do
    let job ← loadJob jobId
    revertIf (job.status ≠ .disputed) (.agentEscrow (.invalidState jobId job.status))
    let provided ← checkedAdd toVendor toClient
    revertIf (provided ≠ job.amount) (.agentEscrow (.resolutionSumMismatch provided job.amount))
    setStatus msg jobId .resolved
    setCompletedAt msg jobId
    paySide O this msg jobId Job.vendor toVendor
    paySide O this msg jobId Job.client toClient
    emit (.jobResolved jobId msg.sender toVendor toClient)

/-! ## Timeout reclaim -/

/-- Who may reclaim a job and how long after its last status change: the branches of
`reclaimAfterTimeout`. -/
inductive Standing where
  | client (window : Uint64)
  | vendor (window : Uint64)
  | nobody
deriving Repr, DecidableEq

def standing (status disputedFrom : JobStatus) : Standing :=
  match status with
  | .funded => .client START_TIMEOUT
  | .inProgress => .client DELIVERY_TIMEOUT
  | .delivered => .vendor APPROVAL_TIMEOUT
  | .disputed =>
      if disputedFrom = .delivered then .vendor DISPUTE_TIMEOUT else .client DISPUTE_TIMEOUT
  | _ => .nobody

/-- The recipient and the window of a reclaim, or the revert of one without standing. -/
def claim (msg : Msg) (jobId : Nat) (job : Job) (disputedFrom : JobStatus) :
    Call ξ (Address × Uint64) :=
  match standing job.status disputedFrom with
  | .client window => do
      revertIf (msg.sender ≠ job.client) (.agentEscrow .notClient)
      return (job.client, window)
  | .vendor window => do
      revertIf (msg.sender ≠ job.vendor) (.agentEscrow .notVendor)
      return (job.vendor, window)
  | .nobody => throw (.agentEscrow (.invalidState jobId job.status))

def reclaimAfterTimeout (msg : Msg) (jobId : Nat) : Call ξ Unit :=
  nonReentrant do
    let job ← loadJob jobId
    let s ← sload
    let (recipient, window) ← claim msg jobId job (s.disputedFrom jobId)
    let deadline ← checkedAdd job.statusChangedAt window
    revertIf (msg.timestamp < deadline) (.agentEscrow .timeoutNotReached)
    setStatus msg jobId .reclaimed
    setCompletedAt msg jobId
    payOut O this msg jobId job.token recipient job.amount
    emit (.jobReclaimed jobId recipient job.amount job.status)

/-! ## The contract as a machine -/

/-- The state-changing entry points; `setRoles` for whatever the access control
does to the role table, and `external` for everything that happens outside. -/
inductive Action (ξ : Type) where
  | createJob (vendor assessor token : Address) (amount : Uint256) (description : String)
  | fundJob (jobId : Nat)
  | startJob (jobId : Nat)
  | submitDeliverable (jobId : Nat) (deliverableHash : Bytes32)
  | approveAndRelease (jobId : Nat)
  | dispute (jobId : Nat) (reason : String)
  | cancelJob (jobId : Nat) (reason : String)
  | resolveDispute (jobId : Nat) (toVendor toClient : Uint256)
  | reclaimAfterTimeout (jobId : Nat)
  | pause
  | unpause
  | setTokenWhitelist (v : Address)
  | setRoles (hasRole : RoleTable)
  | external (f : ξ → ξ)

structure Label (ξ : Type) where
  msg : Msg
  action : Action ξ

def Label.time (l : Label ξ) : Nat := l.msg.timestamp.toNat

def dispatch (msg : Msg) : Action ξ → Call ξ Unit
  | .createJob vendor assessor token amount description => do
      let _ ← createJob O msg vendor assessor token amount description
  | .fundJob id => fundJob O this msg id
  | .startJob id => startJob msg id
  | .submitDeliverable id deliverableHash => submitDeliverable msg id deliverableHash
  | .approveAndRelease id => approveAndRelease O this msg id
  | .dispute id reason => dispute msg id reason
  | .cancelJob id reason => cancelJob O this msg id reason
  | .resolveDispute id toVendor toClient => resolveDispute O this msg id toVendor toClient
  | .reclaimAfterTimeout id => reclaimAfterTimeout O this msg id
  | .pause => pause msg
  | .unpause => unpause msg
  | .setTokenWhitelist v => setTokenWhitelist msg v
  | .setRoles hasRole => sstore fun s => { s with hasRole := hasRole }
  | .external f => modify fun c => { c with ext := f c.ext }

/-- One transaction, or one call made while another waits for a token: a revert leaves
everything as it was. -/
def step (c : Ctx Storage ξ) (l : Label ξ) : Ctx Storage ξ :=
  commit (dispatch O this l.msg l.action) c

end Code

end AgentEscrow

end Strimz
