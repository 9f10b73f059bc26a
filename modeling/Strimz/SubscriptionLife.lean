import Strimz.ChargeAttempts
import Strimz.ProjectionSteps
import Strimz.Sessions

/-!
# The life of a subscription row

The writers of one row of `Subscription`: `cancel` (`subscriptions.service.ts`), the lapse cron
(`subscription-lapsed.service.ts`) and the indexer's projections, next to the due-charge jobs
that read it (`subscription-due.worker.ts`). A handler is a task that waits between two of its
statements. The lapse cron evaluates its `WITH due AS (…)` when it starts and updates by id
later. The row is that of the subscription `id`, and every other table is the indexer's `Db`;
what the chain and the queue answer to a task is part of its step. The columns of the charge
lock, and the writers that leave the status and the period alone, are left out.
-/

namespace Strimz.SubscriptionLife

open Indexer Billing

open Sessions (ApiError)

/-- Where a due-charge job stands: the call that comes next, and what it has read. -/
inductive JobStage where
  | load
  | due (sub : SubscriptionRow)
  | pick (sub : SubscriptionRow)
  | send (chargeAttemptId : Bytes32)
deriving Repr, DecidableEq

inductive Task where
  /-- `cancel`, past its checks. -/
  | cancel (reason : Option String)
  /-- `cancel`, past its update. -/
  | enqueue
  /-- `cancel`, past the queue. -/
  | fire
  /-- A lapse sweep, and whether it selected the row. -/
  | lapse (due : Bool)
  | charge (stage : JobStage)
deriving Repr, DecidableEq

/-- What a task is answered: whether its call goes through, and what the chain says. -/
structure Answer where
  ok : Bool
  isChargeDue : Bool
  isAttemptUsed : Bytes32 → Bool

structure World where
  now : Int
  db : Db
  tasks : List Task
  /-- The `subscription.lapsed` events of the row. -/
  lapsedEvents : Nat
  /-- The `subscription.cancel-onchain` jobs added for the row. -/
  cancelActions : Nat
  /-- The calls of `cancel` that have returned. -/
  returned : Nat
  /-- The attempts of the `batchCharge` transactions that went out for the row. -/
  broadcasts : List Bytes32

/-- Nobody has subscribed yet; the other tables are as they may be. -/
structure World.Launched (w : World) : Prop where
  subscriptions : ∀ id, w.db.subscriptions id = none
  tasks : w.tasks = []
  lapsedEvents : w.lapsedEvents = 0
  returned : w.returned = 0

/-- The row, and the hash of the attempt ids. -/
structure Setup where
  id : Int
  keccak256 : List Nat → Bytes32

section Code

variable (S : Setup)

def World.row (w : World) : Option SubscriptionRow := w.db.subscriptions S.id

def World.spawn (t : Task) (w : World) : World := { w with tasks := w.tasks ++ [t] }

def World.finish (k : Nat) (w : World) : World := { w with tasks := w.tasks.eraseIdx k }

/-- `update({ where: { id } })` -/
def World.putRow (sub : SubscriptionRow) (w : World) : World :=
  { w with db := w.db.putSubscription S.id sub }

/-! ## `cancel` -/

def statusText : SubscriptionStatus → String
  | .trialing => "trialing"
  | .active => "active"
  | .at_risk => "at_risk"
  | .paused => "paused"
  | .cancelled => "cancelled"
  | .lapsed => "lapsed"

/-- `cancel`, up to its update. -/
def checkCancel (w : World) (merchantId : RowId) (mode : Mode) : Except ApiError SubscriptionRow :=
  match (w.row S).filter fun sub => sub.merchantId = merchantId ∧ sub.mode = mode with
  | none => .error (.notFound "not_found" "subscription not found")
  | some sub =>
      if sub.status = .cancelled ∨ sub.status = .lapsed then
        .error (.forbidden "session_invalid_state"
          ("subscription is already " ++ statusText sub.status))
      else .ok sub

def cancelRow (now : Int) (reason : Option String) (sub : SubscriptionRow) : SubscriptionRow :=
  { sub with status := .cancelled, cancelledAt := some now,
             cancellationReason := reason.map .text }

/-! ## The lapse cron -/

/-- Whether `WITH due AS (…)` has the row. -/
def lapseDue (w : World) : Bool :=
  (w.row S).any fun sub =>
    sub.status = .at_risk ∧ sub.currentPeriodEndAt + sub.gracePeriodHours * 3600 < w.now

/-- The update by id of a row that was selected, and its event. -/
def lapse (w : World) : World :=
  match w.row S with
  | none => w
  | some sub =>
      { w.putRow S { sub with status := .lapsed } with lapsedEvents := w.lapsedEvents + 1 }

/-! ## The due-charge job -/

/-- The attempt that the loop over the attempts settles on. -/
def pick (isAttemptUsed : Bytes32 → Bool) (sub : SubscriptionRow) : Option Bytes32 :=
  ((List.range MAX_ATTEMPTS_PER_PERIOD).map
    (deriveChargeAttemptId S.keccak256 S.id.toNat sub.currentPeriodEndAt)).find? fun candidate =>
      !isAttemptUsed candidate

def runJob (a : Answer) (w : World) : JobStage → World
  | .load =>
      match w.row S with
      | none => w
      | some sub =>
          if sub.status = .cancelled ∨ sub.status = .lapsed then w else w.spawn (.charge (.due sub))
  | .due sub => if a.isChargeDue then w.spawn (.charge (.pick sub)) else w
  | .pick sub =>
      match pick S a.isAttemptUsed sub with
      | none => w
      | some chargeAttemptId => w.spawn (.charge (.send chargeAttemptId))
  | .send chargeAttemptId =>
      if a.ok then { w with broadcasts := w.broadcasts ++ [chargeAttemptId] } else w

/-! ## Steps -/

inductive Label where
  | wait (d : Nat)
  | created (in_ : SubscriptionCreatedInput)
  | charged (in_ : SubscriptionChargedInput)
  | periodsSkipped (in_ : SubscriptionPeriodsSkippedInput)
  | chargeSkipped (in_ : SubscriptionChargeSkippedInput)
  | cancelledOnchain (onchainSubId : Nat) (by_ : Address) (txHash : Bytes32) (blockTimestamp : Int)
  | cancel (merchantId : RowId) (mode : Mode) (reason : Option String)
  | sweep
  /-- A worker takes a job of the row. -/
  | take
  /-- The next statement or call of the `k`-th task. -/
  | run (k : Nat) (a : Answer)
  /-- The `k`-th task fails. -/
  | drop (k : Nat)

/-- The indexer runs a projection; one that fails leaves nothing. -/
def World.project (p : Projection Nat) (w : World) : World :=
  match p w.db with
  | .ok (_, db) => { w with db := db }
  | .error _ => w

/-- The next statement of a task that the world no longer lists. -/
def runTask (a : Answer) (w : World) : Task → World
  | .cancel reason =>
      match w.row S with
      | none => w
      | some sub => (w.putRow S (cancelRow w.now reason sub)).spawn .enqueue
  | .enqueue => { w with cancelActions := w.cancelActions + 1 }.spawn .fire
  | .fire => { w with returned := w.returned + 1 }
  | .lapse due => if due then lapse S w else w
  | .charge stage => runJob S a w stage

def step (w : World) : Label → World
  | .wait d => { w with now := w.now + d }
  | .created in_ => w.project (upsertSubscriptionFromOnchain in_)
  | .charged in_ => w.project (insertSubscriptionCharge in_)
  | .periodsSkipped in_ => w.project (recordSubscriptionPeriodsSkipped in_)
  | .chargeSkipped in_ => w.project (insertSubscriptionChargeSkip in_)
  | .cancelledOnchain onchainSubId by_ txHash blockTimestamp =>
      w.project (markSubscriptionCancelled onchainSubId by_ txHash blockTimestamp)
  | .cancel merchantId mode reason =>
      match checkCancel S w merchantId mode with
      | .error _ => w
      | .ok _ => w.spawn (.cancel reason)
  | .sweep => w.spawn (.lapse (lapseDue S w))
  | .take => w.spawn (.charge .load)
  | .run k a =>
      match w.tasks[k]? with
      | none => w
      | some t => runTask S a (w.finish k) t
  | .drop k => w.finish k

end Code

/-! ## The status, step by step -/

def World.status (S : Setup) (w : World) : Option SubscriptionStatus :=
  (w.row S).map (·.status)

/-- What a charge makes of the status. -/
def charged (s : SubscriptionStatus) : SubscriptionStatus :=
  if s = .at_risk ∨ s = .trialing then .active else s

/-- What a step may make of the status. -/
inductive StatusMove (S : Setup) (w : World) :
    Label → Option SubscriptionStatus → Option SubscriptionStatus → Prop where
  | stays (l : Label) (s : Option SubscriptionStatus) : StatusMove S w l s s
  | created (in_ : SubscriptionCreatedInput) {s : SubscriptionStatus}
      (hs : s = .trialing ∨ s = .active) : StatusMove S w (.created in_) none (some s)
  | charged (in_ : SubscriptionChargedInput) (s : SubscriptionStatus) :
      StatusMove S w (.charged in_) (some s) (some (charged s))
  | flagged {in_ : SubscriptionChargeSkippedInput} {s : SubscriptionStatus}
      (hid : int64 in_.onchainSubscriptionId = S.id) (hs : s.retries = true) :
      StatusMove S w (.chargeSkipped in_) (some s) (some .at_risk)
  | cancelledOnchain {n : Nat} {by_ : Address} {txHash : Bytes32} {t : Int} {s : SubscriptionStatus}
      (hs : ¬ (s = .cancelled ∨ s = .lapsed)) :
      StatusMove S w (.cancelledOnchain n by_ txHash t) (some s) (some .cancelled)
  | cancelled {k : Nat} {a : Answer} {reason : Option String} {s : SubscriptionStatus}
      (ht : w.tasks[k]? = some (.cancel reason)) :
      StatusMove S w (.run k a) (some s) (some .cancelled)
  | lapsed {k : Nat} {a : Answer} {s : SubscriptionStatus}
      (ht : w.tasks[k]? = some (.lapse true)) :
      StatusMove S w (.run k a) (some s) (some .lapsed)

section Project

variable {S : Setup} {w : World} {db : Db} {n : Nat}

/-- The status in a database. -/
def statusIn (db : Db) (id : Int) : Option SubscriptionStatus :=
  (db.subscriptions id).map (·.status)

theorem statusIn_put {db' : Db} {i id : Int} {sub : SubscriptionRow}
    (h : db'.subscriptions = Function.update db.subscriptions i (some sub)) :
    statusIn db' id = if id = i then some sub.status else statusIn db id := by
  rw [statusIn, h, Function.update_apply]
  split <;> rfl

/-- A projected charge of the row clears its failure state. -/
theorem charged_status {db' : Db} {in_ : SubscriptionChargedInput} {id : Int}
    (h : insertSubscriptionCharge in_ db = .ok (n, db')) :
    statusIn db' id = if id = int64 in_.onchainSubscriptionId then (statusIn db id).map charged
      else statusIn db id := by
  obtain ⟨-, sub, merchant, merchantAddress, hsub, -, -, -, -, hcases⟩ :=
    insertSubscriptionCharge_eq_ok.mp h
  have hattempt : (db.recordAttempt in_ (int64 in_.onchainSubscriptionId) sub).subscriptions =
      db.subscriptions := by
    unfold Db.recordAttempt
    split
    · rfl
    · split <;> rfl
  have hsubs : db'.subscriptions = Function.update db.subscriptions
      (int64 in_.onchainSubscriptionId) (some (sub.bump in_.nextChargeAt)) := by
    rcases hcases with ⟨-, -, rfl⟩ | ⟨-, -, -, rfl⟩
    · exact congrArg (fun f => Function.update f _ _) hattempt
    · rw [recordCharge_frame]
  rw [statusIn_put hsubs]
  split
  next heq =>
    rw [heq, statusIn, hsub]
    rfl
  next => rfl

theorem created_status {db' : Db} {in_ : SubscriptionCreatedInput} (id : Int)
    (h : upsertSubscriptionFromOnchain in_ db = .ok (n, db')) :
    statusIn db' id = statusIn db id ∨
      statusIn db id = none ∧ ∃ s, (s = .trialing ∨ s = .active) ∧ statusIn db' id = some s := by
  obtain ⟨-, -, merchant, -, -, -, ⟨hold, -, rfl⟩ | ⟨hnew, -, -, rfl⟩⟩ :=
    upsertSubscriptionFromOnchain_eq_ok.mp h
  · exact .inl rfl
  · have hput : statusIn (db.createSubscription in_ merchant.id) id =
        if id = int64 in_.onchainSubscriptionId then
          some (createdSubscription in_ merchant.id).status else statusIn db id := statusIn_put rfl
    by_cases heq : id = int64 in_.onchainSubscriptionId
    · rw [if_pos heq] at hput
      refine .inr ⟨by rw [heq, statusIn, hnew]; rfl, _, ?_, hput⟩
      rw [createdSubscription]
      dsimp only
      split
      · exact .inl rfl
      · exact .inr rfl
    · rw [if_neg heq] at hput
      exact .inl hput

theorem periodsSkipped_status {db' : Db} {in_ : SubscriptionPeriodsSkippedInput} {id : Int}
    (h : recordSubscriptionPeriodsSkipped in_ db = .ok (n, db')) :
    statusIn db' id = statusIn db id := by
  obtain ⟨-, -, sub, hsub, -, rfl⟩ := recordSubscriptionPeriodsSkipped_eq_ok.mp h
  have hput : statusIn ((db.putSubscription (int64 in_.onchainSubscriptionId)
      (sub.skipTo in_.paidPeriodStart)).audit ⟨none, some sub.merchantId,
        periodsSkippedAudit in_ (int64 in_.onchainSubscriptionId)⟩) id =
      if id = int64 in_.onchainSubscriptionId then some (sub.skipTo in_.paidPeriodStart).status
        else statusIn db id := statusIn_put rfl
  rw [hput]
  split
  next heq =>
    rw [heq, statusIn, hsub]
    rfl
  next => rfl

theorem chargeSkipped_status {db' : Db} {in_ : SubscriptionChargeSkippedInput} (id : Int)
    (h : insertSubscriptionChargeSkip in_ db = .ok (n, db')) :
    statusIn db' id = statusIn db id ∨ int64 in_.onchainSubscriptionId = id ∧
      ∃ s, s.retries = true ∧ statusIn db id = some s ∧ statusIn db' id = some .at_risk := by
  obtain ⟨-, -, sub, hsub, ⟨-, -, rfl⟩ | ⟨row, -, -, -, ⟨-, rfl⟩ | ⟨-, -, rfl⟩⟩⟩ :=
    insertSubscriptionChargeSkip_eq_ok.mp h
  · exact .inl rfl
  · exact .inl rfl
  · unfold Db.recordFailure Db.flagAtRisk
    split
    next hretries =>
      have hput : statusIn (((db.putCharge in_.chargeAttemptId row).emit
          ⟨.subscription_charge_failed, "subscription.charge_failed", sub.merchantId, sub.mode,
            .failedCharge (int64 in_.onchainSubscriptionId) in_.chargeAttemptId⟩).putSubscription
              (int64 in_.onchainSubscriptionId) (sub.flag in_.blockTimestamp)) id =
          if id = int64 in_.onchainSubscriptionId then some (sub.flag in_.blockTimestamp).status
          else statusIn db id := statusIn_put rfl
      by_cases heq : id = int64 in_.onchainSubscriptionId
      · rw [if_pos heq] at hput
        exact .inr ⟨heq.symm, sub.status, hretries, by rw [heq, statusIn, hsub]; rfl, hput⟩
      · rw [if_neg heq] at hput
        exact .inl hput
    next => exact .inl rfl

theorem cancelledOnchain_status {db' : Db} {subId : Nat} {by_ : Address} {txHash : Bytes32} {t : Int}
    (id : Int) (h : markSubscriptionCancelled subId by_ txHash t db = .ok (n, db')) :
    statusIn db' id = statusIn db id ∨ ∃ s, ¬ (s = .cancelled ∨ s = .lapsed) ∧
      statusIn db id = some s ∧ statusIn db' id = some .cancelled := by
  obtain ⟨-, -, sub, hsub, ⟨-, -, rfl⟩ | ⟨hopen, -, rfl⟩⟩ := markSubscriptionCancelled_eq_ok.mp h
  · exact .inl rfl
  · have hput : statusIn (db.putSubscription (int64 subId) (sub.cancel by_ txHash t)) id =
        if id = int64 subId then some (sub.cancel by_ txHash t).status else statusIn db id :=
      statusIn_put rfl
    by_cases heq : id = int64 subId
    · rw [if_pos heq] at hput
      exact .inr ⟨sub.status, hopen, by rw [heq, statusIn, hsub]; rfl, hput⟩
    · rw [if_neg heq] at hput
      exact .inl hput

/-- A projection moves the status as its store function does, or fails and moves nothing. -/
theorem project_status {p : Projection Nat} {R : Option SubscriptionStatus → Prop}
    (hsame : R (w.status S))
    (hok : ∀ n db', p w.db = .ok (n, db') → R (statusIn db' S.id)) :
    R ((w.project p).status S) := by
  unfold World.project
  cases hp : p w.db with
  | error e => exact hsame
  | ok r => exact hok r.1 r.2 hp

end Project

section Step

variable {S : Setup} {w : World} {l : Label}

/-- What one step makes of the status. -/
theorem step_status : StatusMove S w l (w.status S) ((step S w l).status S) := by
  have hsame {l : Label} : StatusMove S w l (w.status S) (w.status S) := .stays l _
  cases l with
  | wait | sweep | take | drop => exact hsame
  | cancel => unfold step; dsimp only; split <;> exact hsame
  | created in_ =>
      refine project_status hsame fun n db' h => ?_
      rcases created_status S.id h with heq | ⟨hnone, s, hs, heq⟩
      · rw [heq]; exact hsame
      · rw [heq, show w.status S = none from hnone]; exact .created in_ hs
  | charged in_ =>
      refine project_status hsame fun n db' h => ?_
      rw [charged_status h]
      split
      · cases hs : statusIn w.db S.id with
        | none => rw [show w.status S = none from hs]; exact .stays _ _
        | some s => rw [show w.status S = some s from hs]; exact .charged in_ s
      · exact hsame
  | periodsSkipped in_ =>
      refine project_status hsame fun n db' h => ?_
      rw [periodsSkipped_status h]
      exact hsame
  | chargeSkipped in_ =>
      refine project_status hsame fun n db' h => ?_
      rcases chargeSkipped_status S.id h with heq | ⟨hid, s, hs, hold, heq⟩
      · rw [heq]; exact hsame
      · rw [heq, show w.status S = some s from hold]; exact .flagged hid hs
  | cancelledOnchain subId by_ txHash t =>
      refine project_status hsame fun n db' h => ?_
      rcases cancelledOnchain_status S.id h with heq | ⟨s, hs, hold, heq⟩
      · rw [heq]; exact hsame
      · rw [heq, show w.status S = some s from hold]; exact .cancelledOnchain hs
  | run k a =>
      unfold step; dsimp only
      split
      · exact hsame
      · rename_i t ht
        cases t with
        | cancel reason =>
            unfold runTask; dsimp only
            split
            · exact hsame
            · rename_i sub hsub
              have hput : ((w.finish k).putRow S (cancelRow w.now reason sub)).status S =
                  some .cancelled := by
                rw [World.status, World.row, World.putRow]
                simp [Db.putSubscription, cancelRow]
              rw [show w.status S = some sub.status from congrArg (Option.map _) hsub]
              exact hput ▸ .cancelled ht
        | enqueue | fire => exact hsame
        | lapse due =>
            unfold runTask lapse; dsimp only
            split
            · rename_i hdue
              split
              · exact hsame
              · rename_i sub hsub
                have hput : ((w.finish k).putRow S { sub with status := .lapsed }).status S =
                    some .lapsed := by
                  rw [World.status, World.row, World.putRow]
                  simp [Db.putSubscription]
                rw [show w.status S = some sub.status from congrArg (Option.map _) hsub]
                exact hput ▸ .lapsed (by rw [ht, hdue])
            · exact hsame
        | charge stage =>
            unfold runTask runJob; dsimp only
            cases stage with
            | load => dsimp only; split; exact hsame; split <;> exact hsame
            | due | pick | send => dsimp only; split <;> exact hsame

end Step

end Strimz.SubscriptionLife
