import Strimz.DeadLetters
import Strimz.RegistryHistory
import Strimz.Runs

/-!
# The merchant row and the registry

`Merchant.payoutAddress`, `onchainFeeBps` and `onchainMaxFeeBps` are columns the indexer mirrors
from the registry's logs (`LinkOnchainMerchant`, `SetMerchantOnchainFeeBps`,
`UpdateMerchantPayoutAddress`). Three services of the API write the first of them as well, out of
a profile form (`update`, `onboard`) or a login (`syncByPrivyUserId`), and the registration job
links the row (`linkRegistration`) next to the indexer.

A label is one statement of one of these, a transaction to the registry, or one log projected, in
any order. Attempts of a job are not kept apart: a stalled one is run again while the first
still goes on.
-/

namespace Strimz.MerchantMirror

open Indexer

/-! ## Registration -/

inductive MerchantTier where
  | free
  | starter
  | growth
  | enterprise
deriving Repr, DecidableEq

def planFeeBps : MerchantTier → Option Uint16
  | .free => some 0
  | .starter => some 50
  | .growth => some 40
  | .enterprise => none

/-- The largest fee of the volume plans. -/
def PLAN_FEE_CEILING_BPS : Uint16 := 50

def NO_PARENT : Nat := 0

/-- Columns of a `Merchant` row that the indexer neither reads nor writes. -/
structure Profile where
  privyUserId : String
  walletAddress : Option Address
  onboardingCompleted : Bool
  tier : MerchantTier
deriving Repr, DecidableEq

/-- What `runRegistration` reads of a row. -/
structure RegistrationCandidate where
  walletAddress : Option Address
  payoutAddress : Option Address
  onboardingCompleted : Bool
  onchainRegistrationTxHash : Option Bytes32
  tier : MerchantTier
deriving Repr, DecidableEq

def registrationGaps (m : RegistrationCandidate) : List String :=
  (if m.walletAddress = none then ["walletAddress"] else []) ++
    (if m.payoutAddress = none then ["payoutAddress"] else []) ++
    (if m.onboardingCompleted = false then ["onboardingCompleted"] else [])

/-- The arguments of `registerMerchant`. -/
structure RegisterCall where
  owner : Address
  payoutAddress : Address
  feeBps : Uint16
  maxFeeBps : Uint16
  parentMerchantId : Nat
deriving Repr, DecidableEq

/-- `none`: an argument is missing, or the plan has no fixed fee to register with. -/
def registerMerchantCallData (m : RegistrationCandidate) : Option RegisterCall := do
  let owner ← m.walletAddress
  let payoutAddress ← m.payoutAddress
  let feeBps ← planFeeBps m.tier
  return ⟨owner, payoutAddress, feeBps, PLAN_FEE_CEILING_BPS, NO_PARENT⟩

/-! ## The chain -/

/-- Where a transaction landed. -/
structure Inclusion where
  txHash : Bytes32
  blockNumber : Nat
  firstLogIndex : Nat
deriving Repr, DecidableEq

/-- A log of the registry. -/
structure LogEntry where
  event : Registry.Event
  at_ : Inclusion
  offset : Nat
  blockTime : Uint64
deriving Repr, DecidableEq

/-- `Registry.Decode`; the events of a pending fee are not subscribed to. -/
def decode : Registry.Event → Decoded
  | .merchantRegistered id owner payoutAddress feeBps maxFeeBps _ =>
      .event (.merchantRegistered id owner payoutAddress feeBps maxFeeBps)
  | .merchantPayoutAddressUpdated id newPayoutAddress =>
      .event (.merchantPayoutAddressUpdated id newPayoutAddress)
  | .merchantPayoutChangeInitiated id newPayoutAddress commitAt =>
      .event (.merchantPayoutChangeInitiated id newPayoutAddress commitAt)
  | .merchantPayoutChangeCancelled id => .event (.merchantPayoutChangeCancelled id)
  | .merchantFeeBpsUpdated id newFeeBps => .event (.merchantFeeBpsUpdated id newFeeBps)
  | .merchantActiveSet id active => .event (.merchantActiveSet id active)
  | .merchantOwnershipTransferInitiated id currentOwner pendingOwner =>
      .event (.merchantOwnershipTransferInitiated id currentOwner pendingOwner)
  | .merchantOwnershipTransferAccepted id previousOwner newOwner =>
      .event (.merchantOwnershipTransferAccepted id previousOwner newOwner)
  | .merchantOwnershipTransferCancelled id => .event (.merchantOwnershipTransferCancelled id)
  | .merchantFeeIncreaseScheduled _ _ _ | .merchantFeeIncreaseCancelled _ => .notSubscribed

def LogEntry.log (registry : Address) (x : LogEntry) : Log :=
  ⟨registry, x.at_.blockNumber, x.at_.txHash, x.at_.firstLogIndex + x.offset, decode x.event⟩

/-- The logs of one transaction. -/
def entries (at_ : Inclusion) (blockTime : Uint64) (events : List Registry.Event) :
    List LogEntry :=
  events.zipIdx.map fun x => ⟨x.1, at_, x.2, blockTime⟩

/-- The merchant id is the first indexed argument of every event of the registry. -/
def decodeMerchantRegisteredId (logs : List LogEntry) : Option Nat :=
  match logs.findSome? (·.event.registers) with
  | some id => some id
  | none => logs.head?.map (·.event.merchantId)

/-! ## Work under way -/

/-- A call of `syncByPrivyUserId` past its read. -/
structure SyncTask where
  privyUserId : String
  wallet : Option Address
  /-- `refreshFields.walletAddress` -/
  walletAddress : Option Address
  /-- The row that was read, with its payout address then. -/
  existing : Option (RowId × Option Address)
deriving Repr, DecidableEq

/-- How far an attempt of a registration job is. -/
inductive Stage where
  | idle
  /-- The row is read, and the node asked about an earlier transaction. -/
  | read (m : RegistrationCandidate)
  | unsigned (call : RegisterCall)
  /-- The broadcast is in the job's data. -/
  | signed (txHash : Bytes32) (call : RegisterCall)
  /-- And on the row. -/
  | recorded (txHash : Bytes32) (call : RegisterCall)
  | waiting (txHash : Bytes32)
  | linking (txHash : Bytes32)
deriving Repr, DecidableEq

structure Job where
  merchantId : RowId
  /-- `data.broadcast.txHash` -/
  broadcast : Option Bytes32
  stage : Stage
deriving Repr, DecidableEq

/-- Why an attempt gave up. -/
inductive JobError where
  | notFound (merchantId : RowId)
  | cannotRegister (merchantId : RowId) (missing : List String)
  | noFixedFee (tier : MerchantTier)
  | reverted (txHash : Bytes32)
  | eventNotFound (txHash : Bytes32)
deriving Repr, DecidableEq

/-- The next statement of an attempt. `ok = false` is one that fails without effect, and ends
the attempt. -/
inductive JobStep where
  | start
  /-- The node answers whether it has a receipt of the earlier transaction. -/
  | settle (seen : Bool)
  | sign (txHash : Bytes32)
  | record (ok : Bool)
  | send (ok : Bool)
  | receipt
  | link (ok : Bool)
  | fail
deriving Repr, DecidableEq

/-! ## The world -/

structure World where
  registry : Registry.Storage
  chain : List LogEntry
  /-- How many logs the indexer has projected. -/
  cursor : Nat
  db : Db
  profiles : RowId → Profile
  syncs : List SyncTask
  jobs : List Job
  sent : List (Bytes32 × RegisterCall)
  /-- Transactions with a receipt, and whether they succeeded. -/
  receipts : List (Bytes32 × Bool)
  errors : List JobError

/-- The deployment: the projector of the indexer, and two addresses. -/
structure Env where
  projector : Projector
  registry : Address
  relayer : Address

inductive Label where
  /-- Anybody's transaction to the registry. -/
  | transact (msg : Msg) (action : Registry.Action) (at_ : Inclusion)
  /-- The `k`-th transaction the relayer sent is included. -/
  | mine (k : Nat) (timestamp : Uint64) (blockNumber firstLogIndex : Nat)
  /-- The indexer takes the next log. -/
  | project
  | update (id : RowId) (payoutAddress : Option Address)
  | onboard (id : RowId) (payoutAddress : Address)
  | changeTier (id : RowId) (tier : MerchantTier)
  /-- `syncByPrivyUserId` up to its read. -/
  | sync (privyUserId : String) (wallet : Option Address)
  /-- The write of the `k`-th `syncByPrivyUserId`; `newId` is the id of a row it creates. -/
  | syncWrite (k : Nat) (newId : RowId) (ok : Bool)
  /-- `requestRegistration` and `startRegistrationIfEligible` -/
  | enqueue (id : RowId)
  | job (k : Nat) (s : JobStep)

variable (env : Env)

namespace World

/-- A transaction of the registry is included. -/
def execute (w : World) (msg : Msg) (action : Registry.Action) (at_ : Inclusion) : World :=
  let after := Registry.step w.registry ⟨msg, action⟩
  { w with registry := after,
           chain := w.chain ++ entries at_ msg.timestamp (after.logs.drop w.chain.length),
           receipts := w.receipts ++
             [(at_.txHash, (Registry.dispatch msg action w.registry).isOk)] }

/-- `prisma.merchant.update({ where: { id } })` -/
def updateRow (w : World) (id : RowId) (set : MerchantRow → MerchantRow) : World :=
  { w with db := w.db.mapMerchants fun m => if m.id = id then set m else m }

def updateProfile (w : World) (id : RowId) (set : Profile → Profile) : World :=
  { w with profiles := Function.update w.profiles id (set (w.profiles id)) }

def rowById (w : World) (id : RowId) : Option MerchantRow := w.db.merchantById id

def rowByPrivyUserId (w : World) (privyUserId : String) : Option MerchantRow :=
  w.db.merchants.find? fun m => (w.profiles m.id).privyUserId = privyUserId

def candidate (w : World) (m : MerchantRow) : RegistrationCandidate :=
  ⟨(w.profiles m.id).walletAddress, m.payoutAddress, (w.profiles m.id).onboardingCompleted,
    m.onchainRegistrationTxHash, (w.profiles m.id).tier⟩

def setJob (w : World) (k : Nat) (j : Job) : World := { w with jobs := w.jobs.set k j }

def error (w : World) (e : JobError) : World := { w with errors := w.errors ++ [e] }

/-- The receipt the chain has of a transaction. -/
def receipt (w : World) (txHash : Bytes32) : Option Bool := w.receipts.lookup txHash

def logsOf (w : World) (txHash : Bytes32) : List LogEntry :=
  w.chain.filter fun x => x.at_.txHash = txHash

/-! ## Logins -/

def sync (w : World) (privyUserId : String) (wallet : Option Address) : World :=
  match w.rowByPrivyUserId privyUserId with
  | none => { w with syncs := w.syncs ++ [⟨privyUserId, wallet, wallet, none⟩] }
  | some m =>
      { w with syncs := w.syncs ++
          [⟨privyUserId, wallet, wallet.or (w.profiles m.id).walletAddress,
            some (m.id, m.payoutAddress)⟩] }

/-- The row `create` inserts. -/
def newRow (id : RowId) (payoutAddress : Option Address) : MerchantRow :=
  ⟨id, none, none, none, none, none, none, payoutAddress, .active⟩

def syncWrite (w : World) (k : Nat) (t : SyncTask) (newId : RowId) : World :=
  let rest := w.syncs.eraseIdx k
  match t.existing with
  | some (id, payoutAddress) =>
      ({ w with syncs := rest }.updateRow id fun m =>
        { m with payoutAddress := payoutAddress.or t.wallet }).updateProfile id fun p =>
          { p with walletAddress := t.walletAddress }
  | none =>
      match w.rowByPrivyUserId t.privyUserId with
      | some m =>
          { w with syncs := w.syncs.set k { t with existing := some (m.id, m.payoutAddress) } }
      | none =>
          if (w.rowById newId).isSome then w
          else
            { w with syncs := rest,
                     db := { w.db with merchants := w.db.merchants ++ [newRow newId t.wallet] },
                     profiles := Function.update w.profiles newId
                       ⟨t.privyUserId, t.walletAddress, false, .free⟩ }

/-! ## The registration job -/

/-- The call a row is registered with, or what it lacks. -/
def prepare (merchantId : RowId) (m : RegistrationCandidate) : Except JobError RegisterCall :=
  if registrationGaps m ≠ [] then .error (.cannotRegister merchantId (registrationGaps m))
  else match registerMerchantCallData m with
    | none => .error (.noFixedFee m.tier)
    | some call => .ok call

/-- `settledReceipt`: a node that does not know the transaction has no receipt of it. -/
def settledReceipt (w : World) (txHash : Bytes32) (seen : Bool) : Option Bool :=
  if seen = true then w.receipt txHash else none

/-- A transaction on the row counts only if it succeeded, and only for an attempt without a
broadcast of its own; that one is final either way. -/
def settle (w : World) (k : Nat) (j : Job) (m : RegistrationCandidate) (seen : Bool) : World :=
  let stop := w.setJob k { j with stage := .idle }
  let goOn := match prepare j.merchantId m with
    | .error e => stop.error e
    | .ok call => w.setJob k { j with stage := .unsigned call }
  match j.broadcast, m.onchainRegistrationTxHash with
  | none, none => goOn
  | none, some txHash =>
      if w.settledReceipt txHash seen = some true then
        w.setJob k { j with stage := .linking txHash }
      else goOn
  | some txHash, _ =>
      match prepare j.merchantId m, w.settledReceipt txHash seen with
      | .error e, _ => stop.error e
      | .ok _, some true => w.setJob k { j with stage := .linking txHash }
      | .ok _, some false => stop.error (.reverted txHash)
      | .ok _, none => goOn

/-- The `updateMany` of `linkRegistration`; `none` when the unique index or the column's type
refuses it. -/
def link (w : World) (merchantId : RowId) (id : Nat) : Option World :=
  if MAX_INT4 < id then none
  else if w.db.merchants.any (fun m => m.id = merchantId && m.onchainMerchantId = none) &&
      w.db.merchants.any (fun m => m.onchainMerchantId = some (id : Int)) then none
  else some (w.updateRow merchantId fun m =>
    if m.onchainMerchantId = none then { m with onchainMerchantId := some (id : Int) } else m)

def jobStep (w : World) (k : Nat) (j : Job) (s : JobStep) : World :=
  let stop := w.setJob k { j with stage := .idle }
  match s, j.stage with
  | .start, .idle =>
      match w.rowById j.merchantId with
      | none => w.error (.notFound j.merchantId)
      | some m =>
          if m.onchainMerchantId ≠ none then { w with jobs := w.jobs.eraseIdx k }
          else w.setJob k { j with stage := .read (w.candidate m) }
  | .settle seen, .read m => w.settle k j m seen
  | .sign txHash, .unsigned call =>
      w.setJob k { j with broadcast := some txHash, stage := .signed txHash call }
  | .record ok, .signed txHash call =>
      if ok = false then stop
      else (w.updateRow j.merchantId fun m =>
        { m with onchainRegistrationTxHash := some txHash }).setJob k
          { j with stage := .recorded txHash call }
  | .send ok, .recorded txHash call =>
      if ok = false then stop
      else { w with sent := w.sent ++ [(txHash, call)] }.setJob k { j with stage := .waiting txHash }
  | .receipt, .waiting txHash =>
      match w.receipt txHash with
      | none => w
      | some true => w.setJob k { j with stage := .linking txHash }
      | some false => stop.error (.reverted txHash)
  | .link ok, .linking txHash =>
      match decodeMerchantRegisteredId (w.logsOf txHash) with
      | none => stop.error (.eventNotFound txHash)
      | some id =>
          if ok = false then stop
          else match w.link j.merchantId id with
            | none => stop
            | some w' => { w' with jobs := w.jobs.eraseIdx k }
  | .fail, _ => stop
  | _, _ => w

end World

/-! ## Steps -/

def step (w : World) : Label → World
  | .transact msg action at_ => w.execute msg action at_
  | .mine k timestamp blockNumber firstLogIndex =>
      match w.sent[k]? with
      | none => w
      | some (txHash, call) =>
          { w with sent := w.sent.eraseIdx k }.execute ⟨env.relayer, timestamp⟩
            (.registerMerchant call.owner call.payoutAddress call.feeBps call.maxFeeBps
              call.parentMerchantId) ⟨txHash, blockNumber, firstLogIndex⟩
  | .project =>
      match w.chain[w.cursor]? with
      | none => w
      | some x =>
          match env.projector.applyOrPark (x.log env.registry) (unix x.blockTime) w.db with
          | .error _ => w
          | .ok (_, db) => { w with db := db, cursor := w.cursor + 1 }
  | .update id payoutAddress =>
      match payoutAddress with
      | none => w
      | some p => w.updateRow id fun m => { m with payoutAddress := some p }
  | .onboard id payoutAddress =>
      (w.updateRow id fun m => { m with payoutAddress := some payoutAddress }).updateProfile id
        fun p => { p with onboardingCompleted := true }
  | .changeTier id tier => w.updateProfile id fun p => { p with tier := tier }
  | .sync privyUserId wallet => w.sync privyUserId wallet
  | .syncWrite k newId ok =>
      match w.syncs[k]? with
      | none => w
      | some t => if ok = false then { w with syncs := w.syncs.eraseIdx k }
          else w.syncWrite k t newId
  | .enqueue id =>
      match w.rowById id with
      | none => w
      | some m =>
          if m.onchainMerchantId ≠ none ∨ registrationGaps (w.candidate m) ≠ [] then w
          else { w with jobs := w.jobs ++ [⟨id, none, .idle⟩] }
  | .job k s =>
      match w.jobs[k]? with
      | none => w
      | some j => w.jobStep k j s

/-- Nobody has logged in yet. -/
def start (hasRole : RoleTable) (db : Db) (profiles : RowId → Profile) : World where
  registry := Registry.deployed hasRole
  chain := []
  cursor := 0
  db := { db with merchants := [] }
  profiles := profiles
  syncs := []
  jobs := []
  sent := []
  receipts := []
  errors := []

/-! ## The mirror -/

namespace World

open Replica

/-- The columns against the registry, once the logs that set them are projected. -/
def PayoutInStep (w : World) (id : Nat) (payoutAddress : Option Address) : Prop :=
  InStep (Registry.setsPayout id) w.registry.logs w.cursor
    (w.registry.merchants id).payoutAddress payoutAddress

def FeeInStep (w : World) (id : Nat) (feeBps : Option Uint16) : Prop :=
  InStep (Registry.setsFee id) w.registry.logs w.cursor (w.registry.merchants id).feeBps feeBps

def MaxFeeInStep (w : World) (id : Nat) (maxFeeBps : Option Uint16) : Prop :=
  InStep (Registry.setsMaxFee id) w.registry.logs w.cursor (w.registry.merchants id).maxFeeBps
    maxFeeBps

/-- All logs of the merchant are projected. -/
def Projected (w : World) (id : Nat) : Prop :=
  ∀ x ∈ w.chain.drop w.cursor, x.event.merchantId ≠ id

end World

/-- The registry id a row is linked to. -/
def onchainId (m : MerchantRow) : Option Nat := m.onchainMerchantId.map Int.toNat

/-- A row says what the registry says. -/
structure Mirrored (w : World) (m : MerchantRow) (id : Nat) : Prop where
  payoutAddress : m.payoutAddress = some (w.registry.merchants id).payoutAddress
  onchainFeeBps : m.onchainFeeBps = some (w.registry.merchants id).feeBps
  onchainMaxFeeBps : m.onchainMaxFeeBps = some (w.registry.merchants id).maxFeeBps

/-- Every linked row does, once all logs of its merchant are projected. -/
def Mirrors (w : World) : Prop :=
  ∀ m ∈ w.db.merchants, ∀ id ∈ onchainId m, w.Projected id → Mirrored w m id

/-- A payout address written to a row that is linked already. -/
def World.KeepsPayout (w : World) (merchantId : RowId) (payoutAddress : Option Address) : Prop :=
  ∀ m ∈ w.db.merchants, m.id = merchantId → ∀ id ∈ onchainId m, w.PayoutInStep id payoutAddress

/-- The job links a row to an id before the log of the registration is projected, or what that
log says is in the row already; and so for the payout address. -/
def World.LinksInStep (w : World) (merchantId : RowId) (id : Nat) : Prop :=
  ∀ m ∈ w.db.merchants, m.id = merchantId → m.onchainMerchantId = none →
    w.PayoutInStep id m.payoutAddress ∧ w.FeeInStep id m.onchainFeeBps ∧
      w.MaxFeeInStep id m.onchainMaxFeeBps

/-- Whoever writes a payout address to a linked row, or links a row, leaves the registry's there,
or a payout log of the merchant is still to be projected. -/
def Careful (w : World) : Label → Prop
  | .update merchantId (some payoutAddress) => w.KeepsPayout merchantId (some payoutAddress)
  | .onboard merchantId payoutAddress => w.KeepsPayout merchantId (some payoutAddress)
  | .syncWrite k _ ok =>
      match w.syncs[k]? with
      | some ⟨_, wallet, _, some (merchantId, payoutAddress)⟩ =>
          ok = true → w.KeepsPayout merchantId (payoutAddress.or wallet)
      | _ => True
  | .project =>
      match w.chain[w.cursor]? with
      | some x =>
          (env.projector.applyOrPark (x.log env.registry) (unix x.blockTime) w.db).isOk = true →
            ∀ id ∈ x.event.registers, ∀ m ∈ w.db.merchants, m.onchainMerchantId = none →
              m.onchainRegistrationTxHash = some x.at_.txHash → w.PayoutInStep id m.payoutAddress
      | none => True
  | .job k (.link ok) =>
      match w.jobs[k]? with
      | some ⟨merchantId, _, .linking txHash⟩ =>
          match decodeMerchantRegisteredId (w.logsOf txHash) with
          | some id => ok = true ∧ (w.link merchantId id).isSome = true → w.LinksInStep merchantId id
          | none => True
      | _ => True
  | _ => True

end Strimz.MerchantMirror
