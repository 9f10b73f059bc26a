import Strimz.Runs

/-!
# The relay

The relay queue, its runner, the nonce counter and the chain it sends to (`apps/api`,
`modules/relay`). One worker runs one job at a time; an attempt is taken apart at its
`await`s, each of which may answer, may throw, or may take effect and lose its answer. A
transaction stands for its own hash. Every RPC call goes to some node, which has its own view
of the chain and its own pool; nodes drop transactions, and anything that was ever sent can
reach a node again. The relayer has one signer throughout, so the check of a recorded `from`
always passes. What a contract makes of a mined transaction is left open. Times are seconds.
-/

namespace Strimz.Relay

/-! ## Prices -/

structure GasPrice where
  maxFeePerGas : Nat
  maxPriorityFeePerGas : Nat
deriving DecidableEq

/-- Arc drops anything priced under this without an error. -/
def ARC_MIN_BASE_FEE_WEI : Nat := 20000000000

def ARC_MAX_BASE_FEE_WEI : Nat := 20000000000000

def REPLACEMENT_BUMP_PER_MILLE : Nat := 1125

def bumped (wei : Nat) : Nat := (wei * REPLACEMENT_BUMP_PER_MILLE + 999) / 1000

def atLeast (value floor : Nat) : Nat := if value > floor then value else floor

/-- `none`: the base fee is refused. -/
def compute (retry : Bool) (previous : Option GasPrice) (nextBaseFee recommendedTip : Nat) :
    Option GasPrice :=
  if nextBaseFee > ARC_MAX_BASE_FEE_WEI then none
  else
    let tip := if retry then recommendedTip else 0
    let max := atLeast (nextBaseFee * 2) ARC_MIN_BASE_FEE_WEI + tip
    match previous with
    | none => some ⟨max, tip⟩
    | some previous =>
        some ⟨atLeast max (bumped previous.maxFeePerGas),
          atLeast tip (bumped previous.maxPriorityFeePerGas)⟩

/-! ## Jobs -/

/-- The signed call data. The nonce of an authorization is that of its session; `body` is the
rest, signatures included. -/
inductive CallData where
  | payWithAuthorization (sessionId validBefore body : Nat)
  | permitAndCreateSubscription (payer body : Nat)
deriving DecidableEq

/-- `relay-attempt:pay:…` and `relay-attempt:sub:…:…` -/
inductive Scope where
  | payment (sessionId : Nat)
  | subscription (planId payer : Nat)
deriving DecidableEq

/-- `relayKeyFor` and `merchant-register:…`: the call data stand for their hash. -/
inductive Key where
  | relay (callData : CallData)
  | merchantRegister (merchantId : Nat)
deriving DecidableEq

inductive RelayJob where
  | call (callData : CallData) (scope : Scope)
  | registerMerchant (merchantInternalId : Nat)
deriving DecidableEq

def RelayJob.idempotencyKey : RelayJob → Key
  | .call callData _ => .relay callData
  | .registerMerchant merchantInternalId => .merchantRegister merchantInternalId

/-- A signed transaction, of the job with this number. -/
structure Tx where
  job : Nat
  key : Key
  nonce : Nat
  price : GasPrice
deriving DecidableEq

inductive TxStatus where
  | success
  | reverted
deriving DecidableEq

inductive JobState where
  | waiting
  | active
  | delayed
  | completed
  | failed
deriving DecidableEq

/-- Waiting, active or delayed. -/
def JobState.unfinished : JobState → Bool
  | .waiting | .active | .delayed => true
  | .completed | .failed => false

/-- `number` tells apart the jobs that one key had at different times. -/
structure Job where
  number : Nat
  data : RelayJob
  broadcast : Option Tx
  attemptsMade : Nat
  state : JobState
  finishedAt : Nat
deriving DecidableEq

/-- `attempts: 5` -/
def MAX_ATTEMPTS : Nat := 5

/-- `removeOnComplete` and `removeOnFail` -/
def KEPT_SECONDS : Nat := 3600

/-- Whose receipt is looked up: the hash in the merchant's row, or the recorded broadcast.
`complete` is what the row said about the merchant's details. -/
inductive Lookup where
  | registration (complete : Bool)
  | recorded
deriving DecidableEq

/-- The `await` an attempt stands at, and what it has read. -/
inductive Stage where
  | merchant
  | receipt (l : Lookup) (tx : Tx)
  | transaction (l : Lookup) (tx : Tx)
  | waitForReceipt (l : Lookup) (tx : Tx)
  | confirmed (recorded : Tx)
  | resync
  | setCounter (pending : Nat)
  | acquire
  | incr (seed : Nat)
  | price (nonce : Nat) (previous : Option GasPrice)
  | sign (nonce : Nat) (price : GasPrice)
  | updateData (tx : Tx)
  | onRecorded (tx : Tx)
  | sendRaw (tx : Tx)
  | settle
deriving DecidableEq

/-! ## The world -/

/-- A node: how many of the relayer's transactions it has seen in blocks, and its pool. -/
structure Node where
  latest : Nat
  pool : List Tx

structure MerchantRow where
  linked : Bool
  onchainRegistrationTxHash : Option Tx
  /-- `registrationGaps` is empty. -/
  complete : Bool

structure World where
  jobs : Key → Option Job
  nextNumber : Nat
  active : Option (Key × Stage)
  /-- The nonce counter plus one, so that a seed of `-1` is `0`. -/
  counter : Option Nat
  /-- The relayer's transaction count. -/
  confirmed : Nat
  mined : List (Tx × TxStatus)
  /-- All that a node ever took from the runner. -/
  sent : List Tx
  nodes : Nat → Node
  merchants : Nat → MerchantRow
  now : Nat

/-- How an `await` ends. `lost`: it took effect, and the answer did not arrive. -/
inductive Outcome where
  | done
  | lost
  | failed
deriving DecidableEq

inductive Label where
  /-- `queue.add` -/
  | enqueue (data : RelayJob)
  | start (key : Key)
  /-- The `await` of the running attempt ends; this node is asked, or these fees are read. -/
  | advance (o : Outcome) (node nextBaseFee recommendedTip : Nat)
  /-- The process dies. The job is taken up again, or given up as stalled. -/
  | crash (givenUp : Bool)
  /-- A finished job is removed. -/
  | age (key : Key)
  | gossip (tx : Tx) (node : Nat)
  | drop (tx : Tx) (node : Nat)
  | sync (node : Nat)
  /-- A block takes the transaction from this node's pool. -/
  | mine (tx : Tx) (node : Nat) (status : TxStatus)
  /-- Others write the merchant's row. -/
  | editMerchant (merchantId : Nat) (linked complete : Bool)
  | elapse (seconds : Nat)

/-! ## Nodes -/

/-- The receipt, when this node has seen the block. -/
def World.receiptAt (w : World) (n : Node) (tx : Tx) : Option TxStatus :=
  if tx.nonce < n.latest then (w.mined.find? fun entry => entry.1 = tx).map (·.2) else none

/-- `getTransactionCount(…, 'pending')`: the first nonce from `latest` on that the pool lacks. -/
def Node.pending (n : Node) : Nat :=
  n.latest + ((List.range (n.pool.length + 1)).find? fun i =>
    n.pool.all fun tx => tx.nonce ≠ n.latest + i).getD 0

/-- A same-nonce replacement pays ten percent more of both fees. -/
def Tx.outbids (tx older : Tx) : Bool :=
  older.price.maxFeePerGas * 110 ≤ tx.price.maxFeePerGas * 100 &&
    older.price.maxPriorityFeePerGas * 110 ≤ tx.price.maxPriorityFeePerGas * 100

/-- Not too low, not known, and not underpriced. -/
def Node.accepts (n : Node) (tx : Tx) : Bool :=
  n.latest ≤ tx.nonce && !n.pool.contains tx &&
    n.pool.all fun older => older.nonce ≠ tx.nonce || tx.outbids older

/-- The pool with `tx` in the place of its nonce. -/
def Node.take (n : Node) (tx : Tx) : Node :=
  { n with pool := n.pool.filter (fun older => older.nonce ≠ tx.nonce) ++ [tx] }

def World.setNode (w : World) (i : Nat) (n : Node) : World :=
  { w with nodes := Function.update w.nodes i n }

/-- The node has seen `latest` of the relayer's transactions. -/
def Node.see (n : Node) (latest : Nat) : Node where
  latest := latest
  pool := n.pool.filter fun tx => latest ≤ tx.nonce

/-! ## The runner -/

def World.setJob (w : World) (key : Key) (job : Job) : World :=
  { w with jobs := Function.update w.jobs key (some job) }

/-- What an `await` that has answered leads to. -/
inductive Next where
  | goto (stage : Stage)
  | completes
  | throws
  | permanent
deriving DecidableEq

/-- `broadcastOnce` up to its first `await`. -/
def broadcastOnce (job : Job) : Stage :=
  match job.broadcast with
  | some recorded => .receipt .recorded recorded
  | none => if job.attemptsMade > 0 then .resync else .acquire

/-- `run` up to its first `await`. -/
def run (job : Job) : Stage :=
  match job.data with
  | .registerMerchant _ => .merchant
  | .call _ _ => broadcastOnce job

/-- After the merchant's earlier hash led nowhere. -/
def register (job : Job) (complete : Bool) : Next :=
  if complete then .goto (broadcastOnce job) else .permanent

/-- `runRegistration` after the row is read. -/
def runRegistration (job : Job) (row : MerchantRow) : Next :=
  if row.linked then .completes
  else match job.broadcast, row.onchainRegistrationTxHash with
    | none, some earlier => .goto (.receipt (.registration row.complete) earlier)
    | _, _ => register job row.complete

/-- A receipt was found. `requireSuccess` for the job's own; an earlier registration that
reverted is done again. -/
def settledReceipt (job : Job) (l : Lookup) (status : TxStatus) : Next :=
  match l, status with
  | _, .success => .goto .settle
  | .recorded, .reverted => .permanent
  | .registration complete, .reverted => register job complete

/-- No receipt, and the node does not know the transaction. -/
def unknownReceipt (job : Job) (l : Lookup) (tx : Tx) : Next :=
  match l with
  | .recorded => .goto (.confirmed tx)
  | .registration complete => register job complete

/-- The effect of the `await`, and what its answer leads to. -/
def World.perform (w : World) (key : Key) (job : Job) (node nextBaseFee recommendedTip : Nat) :
    Stage → World × Next
  | .merchant =>
      match job.data with
      | .registerMerchant merchantId => (w, runRegistration job (w.merchants merchantId))
      | .call _ _ => (w, .throws)
  | .receipt l tx =>
      match w.receiptAt (w.nodes node) tx with
      | some status => (w, settledReceipt job l status)
      | none => (w, .goto (.transaction l tx))
  | .transaction l tx =>
      if tx ∈ (w.nodes node).pool ∨ (w.receiptAt (w.nodes node) tx).isSome then
        (w, .goto (.waitForReceipt l tx))
      else (w, unknownReceipt job l tx)
  | .waitForReceipt l tx =>
      match w.receiptAt (w.nodes node) tx with
      | some status => (w, settledReceipt job l status)
      | none => (w, .throws)
  | .confirmed recorded =>
      if (w.nodes node).latest ≤ recorded.nonce then
        (w, .goto (.price recorded.nonce (some recorded.price)))
      else (w, .goto .resync)
  | .resync => (w, .goto (.setCounter (w.nodes node).pending))
  | .setCounter pending => ({ w with counter := some pending }, .goto .acquire)
  | .acquire => (w, .goto (.incr (w.nodes node).pending))
  | .incr seed =>
      let nonce := w.counter.getD seed
      ({ w with counter := some (nonce + 1) }, .goto (.price nonce none))
  | .price nonce previous =>
      match compute (job.attemptsMade > 0) previous nextBaseFee recommendedTip with
      | some price => (w, .goto (.sign nonce price))
      | none => (w, .throws)
  | .sign nonce price => (w, .goto (.updateData ⟨job.number, key, nonce, price⟩))
  | .updateData tx =>
      (w.setJob key { job with broadcast := some tx },
        match job.data with
        | .registerMerchant _ => .goto (.onRecorded tx)
        | .call _ _ => .goto (.sendRaw tx))
  | .onRecorded tx =>
      match job.data with
      | .registerMerchant merchantId =>
          let row := { w.merchants merchantId with onchainRegistrationTxHash := some tx }
          ({ w with merchants := Function.update w.merchants merchantId row },
            .goto (.sendRaw tx))
      | .call _ _ => (w, .throws)
  | .sendRaw tx =>
      if (w.nodes node).accepts tx then
        ({ w.setNode node ((w.nodes node).take tx) with sent := w.sent ++ [tx] },
          .goto (.waitForReceipt .recorded tx))
      else (w, .throws)
  | .settle =>
      match job.data with
      | .registerMerchant merchantId =>
          let row := { w.merchants merchantId with linked := true }
          ({ w with merchants := Function.update w.merchants merchantId row }, .completes)
      | .call _ _ => (w, .completes)

/-! ## The queue -/

/-- The job leaves the worker. -/
def World.release (w : World) (key : Key) (job : Job) (state : JobState) : World :=
  { w.setJob key { job with state, finishedAt := w.now } with active := none }

/-- The attempt threw. -/
def World.fail (w : World) (key : Key) (job : Job) (permanent : Bool) : World :=
  let job := { job with attemptsMade := job.attemptsMade + 1 }
  w.release key job (if permanent || MAX_ATTEMPTS ≤ job.attemptsMade then .failed else .delayed)

def World.follow (w : World) (key : Key) (job : Job) : Next → World
  | .goto stage => { w with active := some (key, stage) }
  | .completes => w.release key job .completed
  | .throws => w.fail key job false
  | .permanent => w.fail key job true

/-- The job as the queue has it. -/
def World.reload (w : World) (key : Key) (job : Job) : Job := (w.jobs key).getD job

def World.advance (w : World) (key : Key) (job : Job) (stage : Stage) (o : Outcome)
    (node nextBaseFee recommendedTip : Nat) : World :=
  let (w', next) := w.perform key job node nextBaseFee recommendedTip stage
  match o with
  | .done => w'.follow key (w'.reload key job) next
  | .lost => w'.fail key (w'.reload key job) false
  | .failed => w.fail key job false

/-- `queue.add`: a no-op when the key has a job. -/
def World.enqueue (w : World) (data : RelayJob) : World :=
  match w.jobs data.idempotencyKey with
  | some _ => w
  | none =>
      { w.setJob data.idempotencyKey ⟨w.nextNumber, data, none, 0, .waiting, 0⟩ with
        nextNumber := w.nextNumber + 1 }

def World.start (w : World) (key : Key) : World :=
  match w.active, w.jobs key with
  | none, some job =>
      if job.state = .waiting ∨ job.state = .delayed then
        { w.setJob key { job with state := .active } with active := some (key, run job) }
      else w
  | _, _ => w

def World.crash (w : World) (givenUp : Bool) : World :=
  match w.active with
  | some (key, _) =>
      match w.jobs key with
      | some job => w.release key job (if givenUp then .failed else .waiting)
      | none => w
  | none => w

def World.age (w : World) (key : Key) : World :=
  match w.jobs key with
  | some job =>
      if (job.state = .completed ∨ job.state = .failed) ∧ job.finishedAt + KEPT_SECONDS ≤ w.now then
        { w with jobs := Function.update w.jobs key none }
      else w
  | none => w

/-! ## Steps -/

def World.mine (w : World) (tx : Tx) (node : Nat) (status : TxStatus) : World :=
  if tx ∈ (w.nodes node).pool ∧ tx.nonce = w.confirmed then
    { w.setNode node ((w.nodes node).see (w.confirmed + 1)) with
      confirmed := w.confirmed + 1
      mined := w.mined ++ [(tx, status)] }
  else w

def step (w : World) : Label → World
  | .enqueue data => w.enqueue data
  | .start key => w.start key
  | .advance o node nextBaseFee recommendedTip =>
      match w.active with
      | some (key, stage) =>
          match w.jobs key with
          | some job => w.advance key job stage o node nextBaseFee recommendedTip
          | none => w
      | none => w
  | .crash givenUp => w.crash givenUp
  | .age key => w.age key
  | .gossip tx node =>
      if tx ∈ w.sent ∧ (w.nodes node).latest ≤ tx.nonce then
        w.setNode node ((w.nodes node).take tx)
      else w
  | .drop tx node =>
      w.setNode node { w.nodes node with pool := (w.nodes node).pool.filter (· ≠ tx) }
  | .sync node => w.setNode node ((w.nodes node).see w.confirmed)
  | .mine tx node status => w.mine tx node status
  | .editMerchant merchantId linked complete =>
      let row := { w.merchants merchantId with linked, complete }
      { w with merchants := Function.update w.merchants merchantId row }
  | .elapse seconds => { w with now := w.now + seconds }

/-- Nothing is enqueued, and the relayer has sent nothing. -/
structure World.Launched (w : World) : Prop where
  jobs : ∀ key, w.jobs key = none
  active : w.active = none
  mined : w.mined = []
  sent : w.sent = []
  nodes : ∀ i, w.nodes i = ⟨w.confirmed, []⟩
  counter : w.counter = none

end Strimz.Relay
