import Strimz.DeadLetters
import Strimz.Proc

/-!
# The loops of the runner

`processor/runner.go` over `chain/client.go`: the ordered stream (`processCore`), the
stablecoin loops (`processContract`) and the clients they ask. What the source does not
decide is given by `Env`: which call an endpoint answers and from which head, in which
order it lists logs, which statement the database accepts, and what the other loops and
the API do in between. Every call and every statement takes one moment.

A crash is the failure of the call or the transaction it interrupts, and a restart.
-/

namespace Strimz.Indexer

/-! ## The chain and its endpoints -/

/-- The final chain. No transaction is in its first block. -/
structure Chain where
  logs : Nat → List Log
  hash : Nat → Bytes32
  time : Nat → Int
  blockNumber_eq : ∀ n, ∀ lg ∈ logs n, lg.blockNumber = n
  index_lt : ∀ n, (logs n).Pairwise fun a b => a.index < b.index
  genesis : logs 0 = []

/-- The logs of the blocks `[from_, to_]` that a query matches, in chain order. -/
def Chain.matching (chain : Chain) (query : Log → Bool) (from_ to_ : Nat) : List Log :=
  (List.range' from_ (to_ + 1 - from_)).flatMap fun n => (chain.logs n).filter query

structure Env where
  /-- How many RPC endpoints there are. -/
  clients : Nat
  /-- The head an endpoint answers from at a moment; `none` is an error. -/
  head : Nat → Nat → Option Nat
  /-- The order in which logs are listed at a moment. -/
  arrange : Nat → List Log → List Log
  /-- The endpoint another loop has made the active one. -/
  moved : Nat → Option Nat
  /-- Whether the database accepts the statement of a moment. -/
  database : Nat → Bool
  /-- What others commit at a moment. -/
  meanwhile : Nat → Db → Db
  arrange_perm : ∀ n logs, (arrange n logs).Perm logs

abbrev LegacyCursors := List (Address × Nat)

/-- What a loop has fetched for a batch. -/
structure Fetched where
  key : CursorKey
  query : Log → Bool
  legacy : LegacyCursors
  from_ : Nat
  to_ : Nat
  /-- The logs to project, with their blocks' timestamps. -/
  logs : List (Log × Int)
  /-- The head the log query was answered from. -/
  answeredFrom : Nat

/-- A committed batch, with the database its transaction began and ended in. -/
structure Batch extends Fetched where
  before : Db
  after : Db

/-- The process, the database and the moment; `batches` only records. -/
structure World where
  db : Db
  now : Nat
  /-- `FailoverClient.active` -/
  active : Nat
  blockTimes : List (Nat × Int)
  legacyCursors : Option LegacyCursors
  batches : List Batch

inductive Failure where
  | rpc
  | database
  | reorg (block : Nat)
  | batch (e : ApplyError)
deriving Repr, DecidableEq

abbrev Loop (α : Type) := Proc Failure World α

structure Runner where
  projector : Projector
  startBlock : Nat
  blockBatchSize : Nat
  /-- Registry, payments, subscriptions, agent escrow and fee collector. -/
  legacyCursorAddrs : List Address
  /-- Token whitelist, agent registry and timelock. -/
  addedAddrs : List Address
  /-- Whether the registry subscribes to the log's topic. -/
  subscribedTopics : Log → Bool
  blockBatchSize_pos : 0 < blockBatchSize

def Runner.contractAddrs (r : Runner) : List Address := r.legacyCursorAddrs ++ r.addedAddrs

/-- `FilterRange` -/
def filterRange (addresses : List Address) (topics : Log → Bool) (lg : Log) : Bool :=
  addresses.contains lg.address && topics lg

def Log.notAfter (a b : Log) : Prop :=
  a.blockNumber < b.blockNumber ∨ a.blockNumber = b.blockNumber ∧ a.index ≤ b.index

instance : DecidableRel Log.notAfter := fun a b =>
  inferInstanceAs (Decidable (a.blockNumber < b.blockNumber ∨
    a.blockNumber = b.blockNumber ∧ a.index ≤ b.index))

/-- `sortLogs` -/
def sortLogs (logs : List Log) : List Log := logs.insertionSort Log.notAfter

def covered (legacy : LegacyCursors) (lg : Log) : Bool :=
  (legacy.lookup lg.address).any fun block => lg.blockNumber ≤ block

/-- `dropCovered` -/
def dropCovered (logs : List Log) (legacy : LegacyCursors) : List Log :=
  logs.filter fun lg => !covered legacy lg

/-- `lowestCursor` -/
def lowestCursor (legacy : LegacyCursors) : Nat := (legacy.map (·.2)).min?.getD 0

/-! ## Checkpoints -/

@[simps]
def Db.putCheckpoint (db : Db) (key : CursorKey) (cp : Checkpoint) : Db :=
  { db with cursors := Function.update db.cursors key (some cp) }

def saveCheckpoint (key : CursorKey) (cp : Checkpoint) : Projection Unit :=
  modify (·.putCheckpoint key cp)

/-- A missing row reads as block zero. -/
def Db.checkpoint (db : Db) (key : CursorKey) : Checkpoint := (db.cursors key).getD ⟨0, none⟩

/-- The body of a batch's transaction. -/
def batchTx (p : Projector) (key : CursorKey) (logs : List (Log × Int)) (cp : Checkpoint) :
    Projection Unit := do
  p.applyLogs logs
  saveCheckpoint key cp

namespace Env

variable (env : Env) (chain : Chain)

/-- One moment passes. -/
def tick : Loop Nat := do
  let w ← get
  set { w with now := w.now + 1, db := env.meanwhile w.now w.db }
  return w.now

/-! ## RPC calls -/

/-- What a call comes to at a moment, on an endpoint with a head. -/
abbrev Call (α : Type) := Nat → Nat → Option α

def blockNumber : Call Nat := fun _ head => some head

/-- The logs found, and the head they were found up to. -/
def filterLogs (query : Log → Bool) (from_ to_ : Nat) : Call (List Log × Nat) := fun now head =>
  some (env.arrange now (chain.matching query from_ (min to_ head)), head)

def blockHash (n : Nat) : Call Bytes32 := fun _ head =>
  if n ≤ head then some (chain.hash n) else none

def blockTime (n : Nat) : Call Int := fun _ head =>
  if n ≤ head then some (chain.time n) else none

variable {α : Type}

def ask (idx : Nat) (call : Call α) : Loop (Option α) := do
  let now ← env.tick
  return (env.head now idx).bind (call now)

/-- `FailoverClient.active`, which other loops write too. -/
def readActive : Loop Nat := do
  let w ← get
  return (env.moved w.now).getD w.active

def setActive (idx : Nat) : Loop Unit := modify fun w => { w with active := idx }

/-- The attempts of `failoverDo` from the `i`-th on. -/
def failoverFrom (start : Nat) (call : Call α) : Nat → Nat → Loop α
  | _, 0 => throw .rpc
  | i, left + 1 => do
      let idx := (start + i) % env.clients
      match ← env.ask idx call with
      | some out => do
          if idx ≠ start then setActive idx else pure ()
          return out
      | none => failoverFrom start call (i + 1) left

/-- `failoverDo` -/
def failover (call : Call α) : Loop α := do
  let start ← env.readActive
  env.failoverFrom start call 0 env.clients

/-- `moveOff` -/
def moveOff (idx : Nat) : Loop Unit := do
  let active ← env.readActive
  if active ≠ idx ∨ env.clients < 2 then setActive active
  else setActive ((idx + 1) % env.clients)

/-- `pinnedDo` -/
def pinned (idx : Nat) (call : Call α) : Loop α := do
  match ← env.ask idx call with
  | some out => return out
  | none => do
      env.moveOff idx
      throw .rpc

/-! ## Statements -/

def loadCheckpoint (key : CursorKey) : Loop Checkpoint := do
  let now ← env.tick
  let w ← get
  if env.database now = true then return w.db.checkpoint key else throw .database

/-- `RunBatch` of a batch's transaction, recorded if it commits. -/
def runBatch (p : Projector) (f : Fetched) (hash : Bytes32) : Loop Unit := do
  let now ← env.tick
  let w ← get
  if env.database now = true then
    match batchTx p f.key f.logs ⟨f.to_, some hash⟩ w.db with
    | .ok (_, db) => set { w with db := db, batches := w.batches ++ [Batch.mk f w.db db] }
    | .error e => throw (.batch e)
  else throw .database

/-! ## Block times -/

def blockTimeCacheMax : Nat := 4096

/-- `Runner.blockTime`, with the client it is given. -/
def cachedBlockTime (client : Call Int → Loop Int) (n : Nat) : Loop Int := do
  let w ← get
  match w.blockTimes.lookup n with
  | some ts => return ts
  | none => do
      let ts ← client (blockTime chain n)
      modify fun w =>
        let kept := if blockTimeCacheMax ≤ w.blockTimes.length then [] else w.blockTimes
        { w with blockTimes := (n, ts) :: kept }
      return ts

/-- The times of the logs' blocks, each resolved once. -/
def resolveTimes (client : Call Int → Loop Int) : List Log → List (Nat × Int) →
    Loop (List (Nat × Int))
  | [], times => return times
  | lg :: logs, times =>
      match times.lookup lg.blockNumber with
      | some _ => resolveTimes client logs times
      | none => do
          let ts ← cachedBlockTime chain client lg.blockNumber
          resolveTimes client logs ((lg.blockNumber, ts) :: times)

def withTimes (logs : List Log) (times : List (Nat × Int)) : List (Log × Int) :=
  logs.map fun lg => (lg, (times.lookup lg.blockNumber).getD ZERO_TIME)

/-! ## The loops -/

/-- The reorg guard of both loops. -/
def checkReorg (cp : Checkpoint) : Loop Unit :=
  match cp.lastBlockHash with
  | some recorded =>
      if 0 < cp.lastProcessedBlock then do
        let current ← env.failover (blockHash chain cp.lastProcessedBlock)
        if current ≠ recorded then throw (.reorg cp.lastProcessedBlock) else pure ()
      else pure ()
  | none => pure ()

/-- `loadLegacyCursors` past the cache. -/
def readLegacyCursors (floor : Nat) : List Address → Loop LegacyCursors
  | [] => return []
  | a :: addrs => do
      let cp ← env.loadCheckpoint (.contract a)
      let legacy ← readLegacyCursors floor addrs
      return (a, max cp.lastProcessedBlock floor) :: legacy

variable (r : Runner)

def loadLegacyCursors : Loop LegacyCursors := do
  let w ← get
  match w.legacyCursors with
  | some legacy => return legacy
  | none => do
      let floor := if 0 < r.startBlock then r.startBlock - 1 else 0
      let legacy ← env.readLegacyCursors floor r.legacyCursorAddrs
      modify fun w => { w with legacyCursors := some legacy }
      return legacy

def batchTo (from_ safeHead : Nat) : Nat := min (from_ + r.blockBatchSize - 1) safeHead

/-- One turn of `processCore`'s loop. -/
def coreBatch (legacy : LegacyCursors) (from_ to_ : Nat) : Loop Unit := do
  let query := filterRange r.contractAddrs r.subscribedTopics
  let idx ← env.readActive
  let (logs, answeredFrom) ← env.pinned idx (env.filterLogs chain query from_ to_)
  let logs := dropCovered (sortLogs logs) legacy
  let times ← resolveTimes chain (env.pinned idx) logs []
  let hash ← env.pinned idx (blockHash chain to_)
  env.runBatch r.projector
    ⟨.strimzCore, query, legacy, from_, to_, withTimes logs times, answeredFrom⟩ hash

/-- `processCore`'s loop; `left` bounds the batches left. -/
def coreBatches (legacy : LegacyCursors) (safeHead : Nat) : Nat → Nat → Loop Unit
  | 0, _ => pure ()
  | left + 1, from_ =>
      if from_ ≤ safeHead then do
        env.coreBatch chain r legacy from_ (batchTo r from_ safeHead)
        coreBatches legacy safeHead left (batchTo r from_ safeHead + 1)
      else pure ()

def processCore (safeHead : Nat) : Loop Unit := do
  let cp ← env.loadCheckpoint .strimzCore
  let legacy ← env.loadLegacyCursors r
  env.checkReorg chain cp
  let from_ := if cp.lastProcessedBlock = 0 then lowestCursor legacy + 1
    else cp.lastProcessedBlock + 1
  env.coreBatches chain r legacy safeHead (safeHead + 1 - from_) from_

/-- One turn of `processContract`'s loop. -/
def contractBatch (addr : Address) (topics : Log → Bool) (from_ to_ : Nat) : Loop Unit := do
  let query := filterRange [addr] topics
  let (logs, answeredFrom) ← env.failover (env.filterLogs chain query from_ to_)
  let times ← resolveTimes chain env.failover logs []
  let hash ← env.failover (blockHash chain to_)
  env.runBatch r.projector
    ⟨.contract addr, query, [], from_, to_, withTimes logs times, answeredFrom⟩ hash

def contractBatches (addr : Address) (topics : Log → Bool) (safeHead : Nat) :
    Nat → Nat → Loop Unit
  | 0, _ => pure ()
  | left + 1, from_ =>
      if from_ ≤ safeHead then do
        env.contractBatch chain r addr topics from_ (batchTo r from_ safeHead)
        contractBatches addr topics safeHead left (batchTo r from_ safeHead + 1)
      else pure ()

def processContract (addr : Address) (safeHead : Nat) (topics : Log → Bool)
    (startAtHead : Bool) : Loop Unit := do
  let cp ← env.loadCheckpoint (.contract addr)
  env.checkReorg chain cp
  let from_ :=
    if cp.lastProcessedBlock = 0 then
      if startAtHead then safeHead else if 0 < r.startBlock then r.startBlock else 1
    else cp.lastProcessedBlock + 1
  env.contractBatches chain r addr topics safeHead (safeHead + 1 - from_) from_

end Env

/-! ## Runs -/

/-- A new process over the same database. -/
def World.restart (w : World) : World :=
  { w with active := 0, blockTimes := [], legacyCursors := none }

/-- What a run is made of: a poll reads the head, and a loop goes on to the safe head. -/
inductive Poll where
  | head
  | core (safeHead : Nat)
  | contract (addr : Address) (safeHead : Nat) (topics : Log → Bool) (startAtHead : Bool)
  | restart

namespace Env

variable (env : Env) (chain : Chain) (r : Runner)

def poll (poll : Poll) (w : World) : World :=
  match poll with
  | .head => Proc.exec (env.failover blockNumber) w
  | .core safeHead => Proc.exec (env.processCore chain r safeHead) w
  | .contract addr safeHead topics startAtHead =>
      Proc.exec (env.processContract chain r addr safeHead topics startAtHead) w
  | .restart => w.restart

def run (polls : List Poll) (w : World) : World :=
  polls.foldl (fun w poll => env.poll chain r poll w) w

end Env

end Strimz.Indexer
