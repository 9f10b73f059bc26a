import Strimz.ChargeAttempts
import Strimz.Projector
import Strimz.SubscriptionSteps

/-!
# Recurring billing

The sweeper, the due worker and the lapse cron (`apps/scheduler`) over the subscriptions
contract and the indexer's rows: a sweep locks the oldest due rows and enqueues them, a
worker reads its row, asks the chain, picks an unspent attempt id and sends a `batchCharge`,
and the indexer projects the contract's logs in chain order. Jobs run side by side and are
taken apart at their `await`s; a transaction that was sent may be mined at any later time,
or never. No account but the scheduler's is a charger. Lock columns are the scheduler's own
and kept apart from the row; other columns of a subscription, and other tables, may change at
any time, but the end of the current period is the indexer's alone. Times are seconds.
-/

namespace Strimz.Billing

open Tx Subscriptions Indexer

/-- `INTERVAL '1 second' * $3` -/
def staleLockSeconds : Int := 600

/-- Where a job stands: the statement that runs next, and what it has read. `period` is the
due time the chain answered with. -/
inductive JobStage where
  | load
  | due (sub : SubscriptionRow)
  | pick (sub : SubscriptionRow) (period : Uint64)
  | send (chargeAttemptId : Bytes32) (period : Uint64)
  | releaseLock
deriving DecidableEq

structure Worker where
  subscriptionId : Nat
  stage : JobStage
deriving DecidableEq

/-- A `batchCharge` of one row that was sent. -/
structure Broadcast where
  subscriptionId : Nat
  chargeAttemptId : Bytes32
  period : Uint64
deriving DecidableEq

structure World (ξ : Type) where
  chain : Ctx Subscriptions.Storage ξ
  db : Db
  /-- How many of the contract's logs are projected. -/
  projected : Nat
  /-- `chargeLockAcquiredAt` of the rows whose `chargeLock` is set. -/
  locks : Nat → Option Int
  queue : List Nat
  workers : List Worker
  broadcasts : List Broadcast
  now : Nat

/-- A write of other columns. -/
structure RowEdit where
  edit : SubscriptionRow → SubscriptionRow
  keeps : ∀ sub, (edit sub).currentPeriodEndAt = sub.currentPeriodEndAt

inductive Label (ξ : Type) where
  /-- A transaction of anyone, or a change of what the contract calls. -/
  | call (sender : Address) (a : Subscriptions.Action ξ)
  /-- A block takes the `i`-th transaction of the scheduler. -/
  | mine (i : Nat)
  /-- The indexer applies the next log. -/
  | project (txHash : Bytes32) (blockNumber index : Nat)
  /-- Everyone else's writes. -/
  | write (db : Db) (e : RowEdit)
  /-- A sweep locks and enqueues these rows. -/
  | sweep (candidates : List Nat)
  /-- A worker takes the `i`-th job. -/
  | take (i : Nat)
  /-- The next statement of the `k`-th worker answers, or throws. -/
  | advance (k : Nat) (ok : Bool)
  /-- The node has taken the transaction, and its answer is lost. -/
  | answerLost (k : Nat)
  | crash (k : Nat)
  /-- The lapse cron. -/
  | lapse
  | elapse (seconds : Nat)

structure Setup (ξ δ : Type) where
  outside : Outside ξ δ
  subscriptions : Address
  charger : Address
  projector : Projector
  keccak256 : List Nat → Bytes32
  /-- `SUBSCRIPTION_SWEEP_LIMIT` -/
  limit : Nat

section Code

variable {ξ δ : Type} (S : Setup ξ δ)

def World.row (w : World ξ) (id : Nat) : Option SubscriptionRow := w.db.subscriptions id

/-! ## The chain -/

def World.transact (w : World ξ) (sender : Address) (a : Subscriptions.Action ξ) : World ξ :=
  let msg : Msg := ⟨sender, BitVec.ofNat 64 w.now⟩
  { w with chain := Subscriptions.step S.outside S.subscriptions w.chain ⟨msg, a⟩ }

def World.call (w : World ξ) (sender : Address) : Subscriptions.Action ξ → World ξ
  | .batchCharge _ _ => w
  | a => w.transact S sender a

def World.mine (w : World ξ) (b : Broadcast) : World ξ :=
  w.transact S S.charger (.batchCharge [b.subscriptionId] [b.chargeAttemptId])

/-- `isChargeDue` -/
def World.isChargeDue (w : World ξ) (id : Nat) : Bool :=
  let sub := w.chain.storage.subscriptions id
  !sub.cancelled && !(sub.endAt ≠ 0 && sub.endAt.toNat ≤ w.now) && sub.nextChargeAt.toNat ≤ w.now

/-! ## The indexer -/

/-- The numbers of `enum ChargeOutcome`. -/
def outcomeCode : ChargeOutcome → ChargeOutcomeCode
  | .charged => 1
  | .insufficientFunds => 2
  | .revokedApproval => 3
  | .cancelled => 4
  | .notDue => 5
  | .ended => 6
  | .duplicate => 7
  | .unknown => 8
  | .merchantInactive => 9
  | .transferFailed => 10
  | .tokenNotAllowed => 11

def decode : Subscriptions.Event → Decoded
  | .subscriptionCreated id merchantId payer token amount interval startAt =>
      .event (.subscriptionCreated id merchantId payer token amount.toNat interval startAt)
  | .subscriptionCharged id attempt amount feeAmount netAmount nextChargeAt =>
      .event (.subscriptionCharged id attempt amount.toNat feeAmount.toNat netAmount.toNat
        nextChargeAt)
  | .subscriptionPeriodsSkipped id periods paidPeriodStart =>
      .event (.subscriptionPeriodsSkipped id periods paidPeriodStart)
  | .subscriptionChargeSkipped id attempt outcome =>
      .event (.subscriptionChargeSkipped id attempt (outcomeCode outcome))
  | .subscriptionCancelled id by_ => .event (.subscriptionCancelled id by_)
  | .dependencyUpdated name newAddress =>
      .event (.dependencyUpdated name.toUTF8.toList newAddress)
  | .subscriptionReinstated _ _ | .tokensRescued _ _ _ _ => .notSubscribed

/-- The next log is applied and passed, or waits. -/
def World.project (w : World ξ) (txHash : Bytes32) (blockNumber index : Nat) : World ξ :=
  match w.chain.storage.logs[w.projected]? with
  | some l =>
      match S.projector.apply ⟨S.subscriptions, blockNumber, txHash, index, decode l.event⟩
          (unix l.timestamp) w.db with
      | .ok (_, db) => { w with db := db, projected := w.projected + 1 }
      | .error _ => w
  | none => w

def World.write (w : World ξ) (db : Db) (e : RowEdit) : World ξ :=
  { w with db := { db with subscriptions := fun id => (w.db.subscriptions id).map e.edit } }

/-! ## The sweep -/

def SubscriptionStatus.charged : SubscriptionStatus → Bool
  | .trialing | .active | .at_risk => true
  | _ => false

/-- The `WHERE` of the sweep. -/
def World.eligible (w : World ξ) (id : Nat) : Bool :=
  match w.row id with
  | none => false
  | some sub =>
      ((w.locks id).all fun acquiredAt => acquiredAt < w.now - staleLockSeconds) &&
        sub.nextChargeAt ≤ w.now && (sub.nextRetryAt.all fun retryAt => retryAt ≤ (w.now : Int)) &&
        SubscriptionStatus.charged sub.status

/-- Every linked row is that of an id the contract has handed out. -/
def World.found (w : World ξ) : List Nat :=
  (List.range w.chain.storage.nextSubscriptionId).filter w.eligible

def World.chargeAt (w : World ξ) (id : Nat) : Int := ((w.row id).map (·.nextChargeAt)).getD 0

/-- `ORDER BY "nextChargeAt" ASC LIMIT $2`; rows with equal times come in any order. -/
def World.firstDue (w : World ξ) (candidates : List Nat) : Bool :=
  candidates.Nodup && (candidates.all fun id => id ∈ w.found) &&
    candidates.length = min S.limit w.found.length &&
    candidates.all fun id => w.found.all fun other =>
      other ∈ candidates || w.chargeAt id ≤ w.chargeAt other

def World.sweep (w : World ξ) (candidates : List Nat) : World ξ :=
  if w.firstDue S candidates then
    { w with
      locks := fun id => if id ∈ candidates then some w.now else w.locks id
      queue := w.queue ++ candidates }
  else w

/-! ## The worker -/

/-- The `k`-th worker goes on, or is done. -/
def World.putWorker (w : World ξ) (k : Nat) (next : Option Worker) : World ξ :=
  { w with workers := w.workers.take k ++ next.toList ++ w.workers.drop (k + 1) }

def World.releaseLock (w : World ξ) (id : Nat) : World ξ :=
  { w with locks := Function.update w.locks id none }

/-- The node takes the transaction. -/
def World.send (w : World ξ) (b : Broadcast) : World ξ :=
  { w with broadcasts := w.broadcasts ++ [b] }

/-- The loop over the attempts. -/
def World.pick (w : World ξ) (id : Nat) (sub : SubscriptionRow) : Option Bytes32 :=
  ((List.range MAX_ATTEMPTS_PER_PERIOD).map
    (deriveChargeAttemptId S.keccak256 id sub.currentPeriodEndAt)).find? fun candidate =>
      !w.chain.storage.usedAttempts candidate

/-- The row, and whether it is charged at all. -/
def World.load (w : World ξ) (id : Nat) : Option JobStage :=
  (w.row id).map fun sub =>
    if sub.status = .cancelled ∨ sub.status = .lapsed then .releaseLock else .due sub

def World.advance (w : World ξ) (k : Nat) (wk : Worker) (ok : Bool) : World ξ :=
  match wk.stage, ok with
  | .load, true => w.putWorker k ((w.load wk.subscriptionId).map fun stage => { wk with stage })
  | .due sub, true =>
      let period := (w.chain.storage.subscriptions wk.subscriptionId).nextChargeAt
      let stage := if w.isChargeDue wk.subscriptionId then .pick sub period else .releaseLock
      w.putWorker k (some { wk with stage })
  | .pick sub period, true =>
      let stage := match w.pick S wk.subscriptionId sub with
        | some chargeAttemptId => .send chargeAttemptId period
        | none => .releaseLock
      w.putWorker k (some { wk with stage })
  | .send chargeAttemptId period, true =>
      (w.send ⟨wk.subscriptionId, chargeAttemptId, period⟩).putWorker k
        (some { wk with stage := .releaseLock })
  -- the broadcast is the one call whose failure is caught
  | .send _ _, false => w.putWorker k (some { wk with stage := .releaseLock })
  | .releaseLock, true => (w.releaseLock wk.subscriptionId).putWorker k none
  | _, false => w.putWorker k none

/-! ## The lapse cron -/

def lapseRow (now : Nat) (sub : SubscriptionRow) : SubscriptionRow :=
  if sub.status = .at_risk ∧ sub.currentPeriodEndAt + sub.gracePeriodHours * 3600 < now then
    { sub with status := .lapsed }
  else sub

def lapseEdit (now : Nat) : RowEdit where
  edit := lapseRow now
  keeps sub := by
    unfold lapseRow
    split <;> rfl

/-! ## Steps -/

def step (w : World ξ) : Label ξ → World ξ
  | .call sender a => w.call S sender a
  | .mine i =>
      match w.broadcasts[i]? with
      | some b => w.mine S b
      | none => w
  | .project txHash blockNumber index => w.project S txHash blockNumber index
  | .write db e => w.write db e
  | .sweep candidates => w.sweep S candidates
  | .take i =>
      match w.queue[i]? with
      | some id => { w with queue := w.queue.eraseIdx i, workers := w.workers ++ [⟨id, .load⟩] }
      | none => w
  | .advance k ok =>
      match w.workers[k]? with
      | some wk => w.advance S k wk ok
      | none => w
  | .answerLost k =>
      match w.workers[k]? with
      | some ⟨id, .send chargeAttemptId period⟩ =>
          (w.send ⟨id, chargeAttemptId, period⟩).putWorker k (some ⟨id, .releaseLock⟩)
      | _ => w
  | .crash k => w.putWorker k none
  | .lapse => w.write w.db (lapseEdit w.now)
  | .elapse seconds => { w with now := w.now + seconds }

/-- Nobody has subscribed yet. -/
structure World.Launched (w : World ξ) : Prop where
  chain : ∃ hasRole registry feeCollector tokenWhitelist,
    w.chain.storage = deployed hasRole registry feeCollector tokenWhitelist
  subscriptions : ∀ id, w.db.subscriptions id = none
  projected : w.projected = 0
  locks : ∀ id, w.locks id = none
  queue : w.queue = []
  workers : w.workers = []
  broadcasts : w.broadcasts = []

end Code

end Strimz.Billing
