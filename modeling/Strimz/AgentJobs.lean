import Strimz.Projector
import Strimz.EscrowJobs
import Strimz.Runs

/-!
# Agent jobs

An agent job lives in three places: its row, which the API inserts and approves
(`agents.service.ts`), the queue jobs that ask for its escrow, which the scheduler's worker
runs (`agent-action.worker.ts`), and the escrow on chain, whose events the indexer projects
back onto the row. Every statement is a step of its own, and any number of requests and
workers are under way at once. The queue hands out any job it ever took, any number of times.

The chain is kept as far as the rows see it: the transactions that went out, the life cycle
of each escrow, and the logs. `Escrow.act` is that life cycle, and
`GuardedStep.acts`/`FreeStep.acts` say that the contract follows it.
-/

namespace Strimz.Commerce

open Tx Indexer

/-! ## The escrow on chain -/

structure Escrow where
  client : Address
  vendor : Address
  assessor : Address
  amount : Nat
  status : JobStatus
  disputedFrom : JobStatus
  /-- The transfers out of the escrow. -/
  payouts : List (Address × Nat)
deriving Repr, DecidableEq

def Escrow.pay (to_ : Address) (amount : Nat) (e : Escrow) : Escrow :=
  { e with payouts := e.payouts ++ [(to_, amount)] }

def Escrow.move (next : JobStatus) (e : Escrow) : Escrow := { e with status := next }

/-- `if (amount > 0) safeTransfer(to, amount)` -/
def Escrow.paySide (to_ : Address) (amount : Nat) (e : Escrow) : Escrow :=
  { e with payouts := e.payouts ++ if 0 < amount then [(to_, amount)] else [] }

inductive EscrowAction where
  | fundJob
  | startJob
  | submitDeliverable (deliverableHash : Bytes32)
  | approveAndRelease
  | dispute (sender : Address) (reason : Bytes)
  | cancelJob (reason : Bytes)
  | resolveDispute (resolver : Address) (toVendor toClient : Nat)
  | reclaimAfterTimeout
deriving Repr, DecidableEq

/-- Who a timed out job is paid to. -/
def Escrow.reclaimer (e : Escrow) : Option Address :=
  match e.status with
  | .funded => some e.client
  | .inProgress => some e.client
  | .delivered => some e.vendor
  | .disputed => some (if e.disputedFrom = .delivered then e.vendor else e.client)
  | _ => none

/-- A status, as `JobReclaimed` carries it. -/
def statusCode : JobStatus → Nat
  | .none => 0
  | .proposed => 1
  | .funded => 2
  | .inProgress => 3
  | .delivered => 4
  | .completed => 5
  | .disputed => 6
  | .cancelled => 7
  | .resolved => 8
  | .reclaimed => 9

/-- What a call makes of a job and the events it emits, if the job's status admits it. -/
def Escrow.act (e : Escrow) (jobId : Nat) : EscrowAction → Option (Escrow × List Payload)
  | .fundJob =>
      if e.status = .proposed then some (e.move .funded, [.jobFunded jobId e.amount]) else none
  | .startJob =>
      if e.status = .funded then some (e.move .inProgress, [.jobStarted jobId]) else none
  | .submitDeliverable deliverableHash =>
      if e.status = .inProgress then
        some (e.move .delivered, [.jobDelivered jobId deliverableHash])
      else none
  | .approveAndRelease =>
      if e.status = .delivered then
        some ((e.move .completed).pay e.vendor e.amount,
          [.jobApproved jobId e.assessor, .jobReleased jobId e.vendor e.amount])
      else none
  | .dispute sender reason =>
      if e.status = .delivered ∨ e.status = .inProgress then
        some ({ e with disputedFrom := e.status }.move .disputed, [.jobDisputed jobId sender reason])
      else none
  | .cancelJob reason =>
      if e.status = .proposed then some (e.move .cancelled, [.jobCancelled jobId reason])
      else if e.status = .funded then
        some ((e.move .cancelled).pay e.client e.amount,
          [.jobRefunded jobId e.client e.amount, .jobCancelled jobId reason])
      else none
  | .resolveDispute resolver toVendor toClient =>
      if e.status = .disputed ∧ toVendor + toClient = e.amount then
        some (((e.move .resolved).paySide e.vendor toVendor).paySide e.client toClient,
          [.jobResolved jobId resolver toVendor toClient])
      else none
  | .reclaimAfterTimeout =>
      e.reclaimer.map fun recipient =>
        ((e.move .reclaimed).pay recipient e.amount,
          [.jobReclaimed jobId recipient e.amount (statusCode e.status)])

/-- The client has the whole amount: the job was called off, or timed out in his favour. -/
def Escrow.refunded (e : Escrow) : Bool :=
  e.status = .cancelled ∨ e.status = .reclaimed ∧ e.payouts = [(e.client, e.amount)]

section Contract

open AgentEscrow

variable {ξ : Type} {this : Address} {timestamp : Uint64} {l : AgentEscrow.Label ξ} {jobId : Nat}
  {r r' : AgentEscrow.Record}

/-- What this model keeps of the contract's record of a job. -/
def escrowOf (r : AgentEscrow.Record) : Escrow where
  client := r.job.client
  vendor := r.job.vendor
  assessor := r.job.assessor
  amount := r.job.amount.toNat
  status := r.job.status
  disputedFrom := r.disputedFrom
  payouts := r.payouts.map fun p => (p.1, p.2.toNat)

theorem escrowOf_pay (to_ : Address) (amount : Uint256) (r : AgentEscrow.Record) :
    escrowOf (r.pay to_ amount) = (escrowOf r).pay to_ amount.toNat := by
  simp [escrowOf, Escrow.pay]

theorem side_map (to_ : Address) (amount : Uint256) :
    (Record.side to_ amount).map (fun p => (p.1, p.2.toNat)) =
      if 0 < amount.toNat then [(to_, amount.toNat)] else [] := by
  have hpos : 0 < amount ↔ 0 < amount.toNat := BitVec.lt_def
  unfold Record.side
  by_cases h : 0 < amount
  · rw [if_pos h, if_pos (hpos.mp h)]
    rfl
  · rw [if_neg h, if_neg (mt hpos.mpr h)]
    rfl

theorem escrowOf_paySide (to_ : Address) (amount : Uint256) (r : AgentEscrow.Record) :
    escrowOf (r.paySide to_ amount) = (escrowOf r).paySide to_ amount.toNat := by
  simp [escrowOf, Escrow.paySide, side_map]

theorem escrowOf_reclaimer (r : AgentEscrow.Record) :
    (escrowOf r).reclaimer = (exitFor r).map Prod.fst := by
  unfold Escrow.reclaimer exitFor escrowOf
  cases r.job.status <;> rfl

/-- What the contract's unguarded functions do to a job is an action on it. -/
theorem acts_of_freeStep (h : FreeStep this timestamp r r') (hr : r.job.status ≠ .none) :
    ∃ action events, (escrowOf r).act jobId action = some (escrowOf r', events) := by
  cases h with
  | created => exact absurd rfl hr
  | started hstatus => exact ⟨.startJob, _, if_pos hstatus⟩
  | delivered hstatus deliverableHash =>
      exact ⟨.submitDeliverable deliverableHash, _, if_pos hstatus⟩
  | disputed hstatus => exact ⟨.dispute 0 [], _, if_pos hstatus⟩

/-- And so is what a guarded function does to the job it is about. -/
theorem acts_of_guardedStep (h : GuardedStep l jobId r r') :
    ∃ action events, (escrowOf r).act jobId action = some (escrowOf r', events) := by
  cases h with
  | funded _ _ hstatus => exact ⟨.fundJob, _, if_pos hstatus⟩
  | released _ hstatus =>
      rw [escrowOf_pay]
      exact ⟨.approveAndRelease, _, if_pos hstatus⟩
  | withdrawn _ hstatus => exact ⟨.cancelJob [], _, if_pos hstatus⟩
  | refunded _ hstatus =>
      rw [escrowOf_pay]
      have hopen : (escrowOf r).status ≠ .proposed := fun h => by
        rw [show (escrowOf r).status = .funded from hstatus] at h
        cases h
      exact ⟨.cancelJob [], _, (if_neg hopen).trans (if_pos hstatus)⟩
  | @resolved toVendor toClient _ hstatus hsum =>
      rw [escrowOf_paySide, escrowOf_paySide]
      exact ⟨.resolveDispute 0 toVendor.toNat toClient.toNat, _, if_pos ⟨hstatus, hsum⟩⟩
  | @reclaimed party readyAt _ _ hexit _ =>
      rw [escrowOf_pay]
      have hparty : (escrowOf r).reclaimer = some party := by rw [escrowOf_reclaimer, hexit]; rfl
      exact ⟨.reclaimAfterTimeout, _, congrArg (Option.map _) hparty⟩

end Contract

/-! ## The API's side -/

inductive HttpError where
  | forbidden (code message : String)
  | notFound (code message : String)
deriving Repr, DecidableEq

inductive AgentCapability where
  | identity
  | recovery
  | routing
  | cashflow
  | commerce
  | pricing_intelligence
deriving Repr, DecidableEq

/-- What `createJob` reads of a merchant's `AgentMerchantConfig`, with the column defaults. -/
structure AgentMerchantConfig where
  enabledCapabilities : List AgentCapability := []
  requireHumanApprovalAboveUsdCents : Nat := 100000
  approvedVendors : List Address := []
  monthlySpendCapUsdCents : Option Nat := none
deriving Repr, DecidableEq

structure CreateAgentJobInput where
  vendorAddress : Address
  description : String
  amount : Nat
  currency : Currency
  assessorAddress : Option Address
deriving Repr, DecidableEq

/-- The columns of a job that no projection reads or writes. -/
structure JobTerms where
  description : String
  amount : Nat
  currency : Currency
  assessorAddress : Address
  createdAt : Int
deriving Repr, DecidableEq

/-- The statuses the month's sum leaves out. -/
def NOT_COUNTED : List AgentJobStatus := [.cancelled, .disputed, .reclaimed]

/-- The statuses `approveJob` moves a job out of. -/
def APPROVABLE : List AgentJobStatus := [.proposed, .delivered]

/-- A request between two of its statements. -/
inductive ApiCall where
  /-- Past every check; `jobsThen` counts the merchant's jobs when it summed the month. -/
  | creating (merchantId : RowId) (cfg : AgentMerchantConfig) (input : CreateAgentJobInput)
      (spent jobsThen : Nat)
  | approving (row : AgentJobRow)
  | enqueuing (jobId : RowId)
deriving Repr, DecidableEq

/-! ## The worker's side -/

/-- A `job.create-onchain` job between two of its statements. -/
inductive Work where
  | claiming (job : AgentJobRow)
  | broadcasting (job : AgentJobRow)
  | recording (jobId : RowId) (txHash : Bytes32)
deriving Repr, DecidableEq

/-- What `chain.createJob` comes to. -/
inductive Sent where
  | answered (txHash : Bytes32)
  /-- The transaction is out and the answer is lost. -/
  | unanswered (txHash : Bytes32)
  | failed
deriving Repr, DecidableEq

/-- A `createJob` transaction that went out. -/
structure Broadcast where
  jobId : RowId
  txHash : Bytes32
  vendor : Address
  assessor : Address
  token : Address
  amount : Nat
  description : String
  mined : Bool
deriving Repr, DecidableEq

/-- What a deployment fixes, over one calendar month. -/
structure Setup where
  projector : Projector
  /-- The rows of `AgentMerchantConfig`. -/
  configs : RowId → Option AgentMerchantConfig
  payoutAddress : RowId → Option Address
  tokenAddress : Currency → Address
  /-- The scheduler's account, the client of every escrow. -/
  account : Address
  escrowAddress : Address
  monthStart : Int

structure World where
  db : Db
  terms : RowId → JobTerms
  calls : List ApiCall
  queue : List RowId
  workers : List Work
  broadcasts : List Broadcast
  escrows : List Escrow
  logs : List Log

namespace World

def setDb (db : Db) (w : World) : World := { w with db := db }

def setCalls (calls : List ApiCall) (w : World) : World := { w with calls := calls }

def setWorkers (workers : List Work) (w : World) : World := { w with workers := workers }

/-- `updateMany` -/
def updateJobs (p : AgentJobRow → Bool) (f : AgentJobRow → AgentJobRow) (w : World) : World :=
  w.setDb (w.db.mapAgentJobs fun j => if p j then f j else j)

/-- `findUnique` -/
def job? (w : World) (id : RowId) : Option AgentJobRow := w.db.agentJobs.find? (·.id = id)

/-- The merchant's jobs of this month. -/
def monthJobs (S : Setup) (w : World) (merchantId : RowId) : List AgentJobRow :=
  w.db.agentJobs.filter fun j =>
    j.merchantId = merchantId ∧ S.monthStart ≤ (w.terms j.id).createdAt

def total (w : World) (jobs : List AgentJobRow) : Nat := (jobs.map fun j => (w.terms j.id).amount).sum

def jobCount (w : World) (merchantId : RowId) : Nat :=
  w.db.agentJobs.countP (·.merchantId = merchantId)

/-- What the month's query adds up to. -/
def spent (S : Setup) (w : World) (merchantId : RowId) : Nat :=
  w.total ((w.monthJobs S merchantId).filter (·.status ∉ NOT_COUNTED))

end World

/-! ## Requests -/

variable (S : Setup)

def retrieveConfig (merchantId : RowId) : AgentMerchantConfig := (S.configs merchantId).getD {}

/-- The checks of `createJob`, given the month's sum. -/
def checkJob (cfg : AgentMerchantConfig) (input : CreateAgentJobInput) (spent : Nat) :
    Except HttpError Unit := do
  if .commerce ∉ cfg.enabledCapabilities then
    throw (.forbidden "capability_disabled"
      "commerce capability is not enabled for this merchant")
  if 0 < cfg.approvedVendors.length ∧ input.vendorAddress ∉ cfg.approvedVendors then
    throw (.forbidden "vendor_not_allowed" "vendor is not on the approved vendor list")
  match cfg.monthlySpendCapUsdCents with
  | none => pure ()
  | some cents =>
      if cents * 10000 < spent + input.amount then
        throw (.forbidden "spend_cap_exceeded" "monthly commerce spend cap exceeded")

/-- `createJob`, up to the insert. -/
def createJob (merchantId : RowId) (input : CreateAgentJobInput) (w : World) : World :=
  let cfg := retrieveConfig S merchantId
  match checkJob cfg input (w.spent S merchantId) with
  | .error _ => w
  | .ok () => w.setCalls (w.calls ++
      [.creating merchantId cfg input (w.spent S merchantId) (w.jobCount merchantId)])

/-- The row `createJob` inserts. -/
def newRow (id merchantId : RowId) (cfg : AgentMerchantConfig) (input : CreateAgentJobInput) :
    AgentJobRow where
  id := id
  merchantId := merchantId
  onchainJobId := none
  vendorAddress := input.vendorAddress
  status := if cfg.requireHumanApprovalAboveUsdCents * 10000 < input.amount then .proposed
    else .accepted
  deliverableHash := none
  escrowTxHash := none
  releaseTxHash := none
  completedAt := none

def newTerms (input : CreateAgentJobInput) (assessor : Address) (now : Int) : JobTerms :=
  ⟨input.description, input.amount, input.currency, assessor, now⟩

def World.insertJob (row : AgentJobRow) (terms : JobTerms) (w : World) : World :=
  { w with db := { w.db with agentJobs := w.db.agentJobs ++ [row] },
           terms := Function.update w.terms row.id terms }

/-- The rest of a request's statements, one at a time; the database picks an id that no row
has. A job is added to the queue only once its row is committed. -/
def advanceCall (w : World) (k : Nat) (id : RowId) (now : Int) : World :=
  let rest := w.setCalls (w.calls.eraseIdx k)
  match w.calls[k]? with
  | none => w
  | some (.creating merchantId cfg input _ _) =>
      match input.assessorAddress <|> S.payoutAddress merchantId with
      | none => rest
      | some assessor =>
          if w.job? id = none then
            let row := newRow id merchantId cfg input
            let w' := rest.insertJob row (newTerms input assessor now)
            if row.status = .accepted then w'.setCalls (w'.calls ++ [.enqueuing id]) else w'
          else w
  | some (.approving row) =>
      if w.db.agentJobs.any fun j => j.id = row.id ∧ j.status ∈ APPROVABLE then
        let w' := rest.updateJobs (fun j => j.id = row.id ∧ j.status ∈ APPROVABLE)
          fun j => { j with status := .accepted }
        w'.setCalls (w'.calls ++ [.enqueuing row.id])
      else rest
  | some (.enqueuing jobId) => { rest with queue := rest.queue ++ [jobId] }

/-- `approveJob`, up to its update. -/
def approveJob (merchantId id : RowId) (w : World) : World :=
  match w.db.agentJobs.find? fun j => j.id = id ∧ j.merchantId = merchantId with
  | none => w
  | some row => w.setCalls (w.calls ++ [.approving row])

/-! ## The worker -/

def World.broadcastFor (w : World) (job : AgentJobRow) (txHash : Bytes32) : Broadcast where
  jobId := job.id
  txHash := txHash
  vendor := job.vendorAddress
  assessor := (w.terms job.id).assessorAddress
  token := S.tokenAddress (w.terms job.id).currency
  amount := (w.terms job.id).amount
  description := (w.terms job.id).description
  mined := false

/-- The statements of `createJob` in the worker, one at a time. -/
def advanceWork (w : World) (k : Nat) (sent : Sent) : World :=
  let rest := w.setWorkers (w.workers.eraseIdx k)
  match w.workers[k]? with
  | none => w
  | some (.claiming job) =>
      if w.db.agentJobs.any fun j => j.id = job.id ∧ j.status = .accepted then
        let w' := rest.updateJobs (fun j => j.id = job.id ∧ j.status = .accepted)
          fun j => { j with status := .in_progress }
        w'.setWorkers (w'.workers ++ [.broadcasting job])
      else rest
  | some (.broadcasting job) =>
      match sent with
      | .answered txHash =>
          { rest with broadcasts := w.broadcasts ++ [w.broadcastFor S job txHash],
                      workers := rest.workers ++ [.recording job.id txHash] }
      | .unanswered txHash =>
          { rest with broadcasts := w.broadcasts ++ [w.broadcastFor S job txHash] }
      | .failed => rest
  | some (.recording jobId txHash) =>
      rest.updateJobs (·.id = jobId) fun j => { j with escrowTxHash := some txHash }

/-! ## The chain and the indexer -/

/-- Each call has a block to itself. -/
def World.logEvents (txHash : Bytes32) (events : List Payload) (w : World) : World :=
  { w with logs := w.logs ++ events.mapIdx fun i e =>
      ⟨S.escrowAddress, w.logs.length, txHash, i, .event e⟩ }

/-- A block takes a `createJob` transaction, and the contract accepts it. -/
def mine (w : World) (k : Nat) : World :=
  match w.broadcasts[k]? with
  | none => w
  | some b =>
      if b.mined then w
      else
        let escrow : Escrow :=
          ⟨S.account, b.vendor, b.assessor, b.amount, .proposed, .none, []⟩
        { w with broadcasts := w.broadcasts.set k { b with mined := true },
                 escrows := w.escrows ++ [escrow] }.logEvents S b.txHash
          [.jobCreated (w.escrows.length + 1) S.account b.vendor b.token b.amount]

/-- A call on the escrow of job `j + 1`, by whoever may make it. -/
def callEscrow (w : World) (j : Nat) (action : EscrowAction) (txHash : Bytes32) : World :=
  match w.escrows[j]? with
  | none => w
  | some e =>
      match e.act (j + 1) action with
      | none => w
      | some (e', events) => { w with escrows := w.escrows.set j e' }.logEvents S txHash events

/-- The indexer projects the `n`-th log, for the first time or again. -/
def projectLog (w : World) (n : Nat) (blockTime : Int) : World :=
  match w.logs[n]? with
  | none => w
  | some lg => w.setDb (commit (S.projector.apply lg blockTime) w.db)

inductive Label where
  | createJob (merchantId : RowId) (input : CreateAgentJobInput)
  | approveJob (merchantId id : RowId)
  | api (k : Nat) (id : RowId) (now : Int)
  | dropCall (k : Nat)
  | take (k : Nat)
  | work (k : Nat) (sent : Sent)
  | dropWork (k : Nat)
  | mine (k : Nat)
  | callEscrow (j : Nat) (action : EscrowAction) (txHash : Bytes32)
  | project (n : Nat) (blockTime : Int)
deriving Repr, DecidableEq

def step (w : World) : Label → World
  | .createJob merchantId input => createJob S merchantId input w
  | .approveJob merchantId id => approveJob merchantId id w
  | .api k id now => advanceCall S w k id now
  | .dropCall k => w.setCalls (w.calls.eraseIdx k)
  | .take k =>
      match w.queue[k]? >>= w.job? with
      | none => w
      | some job => w.setWorkers (w.workers ++ [.claiming job])
  | .work k sent => advanceWork S w k sent
  | .dropWork k => w.setWorkers (w.workers.eraseIdx k)
  | .mine k => mine S w k
  | .callEscrow j action txHash => callEscrow S w j action txHash
  | .project n blockTime => projectLog S w n blockTime

end Strimz.Commerce
