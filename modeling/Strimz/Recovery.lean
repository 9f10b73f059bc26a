import Strimz.Billing

/-!
# Recovery notices

The recovery capability (`apps/agent`) over the rows of `Strimz.Billing`: a tick reads the
merchants that have recovery on, then each one's at-risk rows, and for each row, one after the
other, finds the latest offset of the strategy it has crossed since the end of the period, asks
the activity log whether that notice went out, sends it and records it. Ticks are taken apart at
their `await`s and may overlap; any call may throw, before or after it took effect. Settings and
customers may change at any time. The offsets and the clock are in seconds; of the activity log
only what that question reads is kept.
-/

namespace Strimz.Recovery

open Tx Indexer

/-- `enum RecoveryStrategy` -/
inductive RecoveryStrategy where
  | once
  | twice
  | until_grace_ends
deriving Repr, DecidableEq

/-- `STRATEGY_SCHEDULE` -/
def RecoveryStrategy.schedule : RecoveryStrategy → List Int
  | .once => [0]
  | .twice => [0, 24 * 60 * 60]
  | .until_grace_ends => [0, 24 * 60 * 60, 72 * 60 * 60]

structure AgentMerchantConfig where
  merchantId : RowId
  /-- `enabledCapabilities` has `recovery`. -/
  recovery : Bool
  recoveryStrategy : RecoveryStrategy
deriving Repr, DecidableEq

/-- A `recovery_notification_sent` row with outcome `success`. -/
structure AgentActivityLog where
  subscriptionId : Nat
  attemptNumber : Nat
  createdAt : Int
deriving Repr, DecidableEq

/-- A row of `findMany`, with the customer's address. -/
structure Candidate where
  subscriptionId : Nat
  sub : SubscriptionRow
  customerEmail : Option String
deriving DecidableEq

/-- A mail that went out, and the end of the period it counts from. -/
structure Notice where
  subscriptionId : Nat
  index : Nat
  periodEnd : Int
  sentAt : Int
deriving Repr, DecidableEq

/-- The statement a tick runs next; `index` is its `dueIndex`. -/
inductive Stage where
  | load
  | check
  | send (index : Nat)
  | record (index : Nat)
  | fail
deriving Repr, DecidableEq

/-- The merchants and the rows a tick still has before it, the current ones first. -/
structure Tick where
  stage : Stage
  configs : List AgentMerchantConfig
  subs : List Candidate
deriving DecidableEq

structure World (ξ : Type) where
  billing : Billing.World ξ
  configs : List AgentMerchantConfig
  customerEmail : Nat → Option String
  activity : List AgentActivityLog
  notices : List Notice
  ticks : List Tick

/-- How an awaited call ends; a `lost` one has taken effect, and throws. -/
inductive Answer where
  | done
  | throws
  | lost
deriving Repr, DecidableEq

inductive Label (ξ : Type) where
  | billing (l : Billing.Label ξ)
  /-- Settings and customers change. -/
  | put (configs : List AgentMerchantConfig) (customerEmail : Nat → Option String)
  /-- `tick` and its first read. -/
  | tick
  /-- The next call of the `k`-th tick ends; a read of rows returns these. -/
  | advance (k : Nat) (ids : List Nat) (a : Answer)
  | crash (k : Nat)

section Code

variable {ξ δ : Type} (S : Billing.Setup ξ δ)

/-- The loop over the offsets, from the last one. -/
def dueIndex (schedule : List Int) (elapsed : Int) : Option Nat :=
  (List.range schedule.length).reverse.find? fun i => schedule.getD i 0 ≤ elapsed

def World.now (w : World ξ) : Int := w.billing.now

def World.hasSuccessfulRecoveryAttempt (w : World ξ) (subscriptionId attemptNumber : Nat)
    (since : Int) : Bool :=
  w.activity.any fun r =>
    r.subscriptionId = subscriptionId ∧ since ≤ r.createdAt ∧ r.attemptNumber = attemptNumber

def World.atRisk (w : World ξ) (merchantId : RowId) (id : Nat) : Bool :=
  (w.billing.row id).any fun sub => sub.merchantId = merchantId ∧ sub.status = .at_risk

/-- `findMany`: rows come in any order. -/
def World.findMany (w : World ξ) (merchantId : RowId) (ids : List Nat) : List Candidate :=
  ids.filterMap fun id =>
    if w.atRisk merchantId id then
      (w.billing.row id).map fun sub => ⟨id, sub, w.customerEmail id⟩
    else none

/-- The answer holds every row, once. -/
def World.Found (w : World ξ) (merchantId : RowId) (ids : List Nat) : Prop :=
  ids.Nodup ∧ ∀ id ∈ List.range w.billing.chain.storage.nextSubscriptionId,
    w.atRisk merchantId id = true → id ∈ ids

instance (w : World ξ) (merchantId : RowId) (ids : List Nat) :
    Decidable (w.Found merchantId ids) :=
  inferInstanceAs (Decidable (_ ∧ _))

/-- The `k`-th tick goes on, or is over. -/
def World.putTick (w : World ξ) (k : Nat) (next : Option Tick) : World ξ :=
  { w with ticks := w.ticks.eraseIdx k ++ next.toList }

/-- On to the next row. -/
def Tick.next (t : Tick) : Tick := { t with stage := .check, subs := t.subs.tail }

/-- `email.send` has handed the mail over. -/
def World.mail (w : World ξ) (c : Candidate) (index : Nat) : World ξ :=
  { w with notices :=
      w.notices ++ [⟨c.subscriptionId, index, c.sub.currentPeriodEndAt, w.now⟩] }

/-- `activity.record`, with the event. -/
def World.record (w : World ξ) (c : Candidate) (index : Nat) : World ξ :=
  { w with activity := w.activity ++ [⟨c.subscriptionId, index + 1, w.now⟩] }

/-- The body of the loop up to the mail. -/
def World.check (w : World ξ) (cfg : AgentMerchantConfig) (c : Candidate) (t : Tick) : Tick :=
  match dueIndex cfg.recoveryStrategy.schedule (w.now - c.sub.currentPeriodEndAt) with
  | none => t.next
  | some index =>
      if w.hasSuccessfulRecoveryAttempt c.subscriptionId (index + 1) c.sub.currentPeriodEndAt then
        t.next
      -- an abandoned action is recorded instead
      else if c.customerEmail.getD "" = "" then t.next
      else { t with stage := .send index }

def World.advance (w : World ξ) (k : Nat) (t : Tick) (ids : List Nat) (a : Answer) : World ξ :=
  match t.stage, t.configs, t.subs, a with
  | .load, cfg :: _, _, .done =>
      if w.Found cfg.merchantId ids then
        w.putTick k (some { t with stage := .check, subs := w.findMany cfg.merchantId ids })
      else w
  | .check, _ :: configs, [], _ => w.putTick k (some ⟨.load, configs, []⟩)
  | .check, cfg :: _, c :: _, .done => w.putTick k (some (w.check cfg c t))
  | .send index, _, c :: _, .done =>
      (w.mail c index).putTick k (some { t with stage := .record index })
  | .send index, _, c :: _, .lost => (w.mail c index).putTick k (some { t with stage := .fail })
  | .record index, _, c :: _, .done => (w.record c index).putTick k (some t.next)
  | .record index, _, c :: _, .lost =>
      (w.record c index).putTick k (some { t with stage := .fail })
  -- the two calls of the `try`
  | .send _, _, _, _ | .record _, _, _, _ => w.putTick k (some { t with stage := .fail })
  | .fail, _, _, .done => w.putTick k (some t.next)
  -- no merchant is left, or a call outside it threw
  | _, _, _, _ => w.putTick k none

def step (w : World ξ) : Label ξ → World ξ
  | .billing l => { w with billing := Billing.step S w.billing l }
  | .put configs customerEmail => { w with configs, customerEmail }
  | .tick => { w with ticks := w.ticks ++ [⟨.load, w.configs.filter (·.recovery), []⟩] }
  | .advance k ids a =>
      match w.ticks[k]? with
      | some t => w.advance k t ids a
      | none => w
  | .crash k => w.putTick k none

/-- No tick has run. -/
structure World.Launched (w : World ξ) : Prop where
  billing : w.billing.Launched
  activity : w.activity = []
  notices : w.notices = []
  ticks : w.ticks = []

end Code

end Strimz.Recovery
