import Strimz.Settlement
import Strimz.PaymentSteps
import Strimz.SubscriptionSteps

/-!
# The payment system

`StrimzPayments`, `StrimzSubscriptions`, a `StrimzRegistry` and a `FeeCollector`
that share one token world: one machine whose steps are the contracts' own entry
points, a treasury withdrawal, and plain token transfers by anyone. `flows` is the
account of a step: the settlements, withdrawals and transfers that went through.
-/

namespace Strimz.System

open Tx Ledger

/-- Where the contracts live and who holds which role on each. -/
structure Deployment where
  payments : Address
  subscriptions : Address
  collector : Address
  registry : Address
  tokenWhitelist : Address
  paymentsRoles : RoleTable
  subscriptionsRoles : RoleTable
  collectorRoles : RoleTable
  registryRoles : RoleTable
  collector_ne_payments : collector ≠ payments
  collector_ne_subscriptions : collector ≠ subscriptions

/-- The three contracts that tokens pass through. -/
def Deployment.IsContract (D : Deployment) (a : Address) : Prop :=
  a = D.payments ∨ a = D.subscriptions ∨ a = D.collector

structure World (τ : Type) where
  payments : Payments.Storage
  subscriptions : Subscriptions.Storage
  peers : Peers τ

def deployed {τ : Type} (D : Deployment) (t : τ) : World τ where
  payments := Payments.deployed D.paymentsRoles D.registry D.collector D.tokenWhitelist
  subscriptions :=
    Subscriptions.deployed D.subscriptionsRoles D.registry D.collector D.tokenWhitelist
  peers := {
    registries := fun _ => Registry.deployed D.registryRoles
    collectors := fun _ => FeeCollector.deployed D.collectorRoles
    tokens := t }

/-! ## Steps -/

inductive Action (τ : Type) where
  | payments (a : Payments.Action (Peers τ))
  | subscriptions (a : Subscriptions.Action (Peers τ))
  | withdraw (token to_ : Address) (amount : Uint256)
  | registry (a : Registry.Action)
  | transfer (token dst : Address) (value : Uint256)

structure Label (τ : Type) where
  msg : Msg
  action : Action τ

/-- Not an operator's repair: no rescue, no rotation of the collector or the registry,
and nothing done to the outside but by these steps. -/
def Action.ordinary {τ : Type} : Action τ → Bool
  | .payments (.rescue _ _ _) | .payments (.setFeeCollector _) | .payments (.setRegistry _)
  | .payments (.external _) | .subscriptions (.rescue _ _ _)
  | .subscriptions (.setFeeCollector _) | .subscriptions (.setRegistry _)
  | .subscriptions (.external _) => false
  | _ => true

section Code

variable {τ δ : Type}

def World.paymentsCtx (w : World τ) : Ctx Payments.Storage (Peers τ) := ⟨w.payments, w.peers⟩

def World.putPayments (c : Ctx Payments.Storage (Peers τ)) (w : World τ) : World τ :=
  { w with payments := c.storage, peers := c.ext }

def World.subscriptionsCtx (w : World τ) : Ctx Subscriptions.Storage (Peers τ) :=
  ⟨w.subscriptions, w.peers⟩

def World.putSubscriptions (c : Ctx Subscriptions.Storage (Peers τ)) (w : World τ) : World τ :=
  { w with subscriptions := c.storage, peers := c.ext }

def World.collectorCtx (collector : Address) (w : World τ) : Ctx FeeCollector.Storage τ :=
  ⟨w.peers.collectors collector, w.peers.tokens⟩

def World.putCollector (collector : Address) (c : Ctx FeeCollector.Storage τ) (w : World τ) :
    World τ :=
  let collectors := Function.update w.peers.collectors collector c.storage
  { w with peers := { w.peers with collectors := collectors, tokens := c.ext } }

def World.putRegistry (registry : Address) (s : Registry.Storage) (w : World τ) : World τ :=
  let registries := Function.update w.peers.registries registry s
  { w with peers := { w.peers with registries := registries } }

def World.putTokens (t : τ) (w : World τ) : World τ :=
  { w with peers := { w.peers with tokens := t } }

variable (K : Kit τ δ) (D : Deployment)

/-- A token call of the sender's own. -/
def transfer (msg : Msg) (token dst : Address) (value : Uint256) : Tx Revert τ Unit := fun t =>
  match K.safeTransfer msg token dst value t with
  | .ok t' => .ok ((), t')
  | .error e => .error e

def dispatch (msg : Msg) : Action τ → Tx Revert (World τ) Unit
  | .payments a =>
      zoom World.paymentsCtx World.putPayments
        (Payments.dispatch (Peers.outside K) D.payments msg a)
  | .subscriptions a =>
      zoom World.subscriptionsCtx World.putSubscriptions
        (Subscriptions.dispatch (Peers.outside K) D.subscriptions msg a)
  | .withdraw token to_ amount =>
      zoom (World.collectorCtx D.collector) (World.putCollector D.collector)
        (FeeCollector.withdraw K.toToken D.collector msg token to_ amount)
  | .registry a =>
      zoom (fun w => w.peers.registries D.registry) (World.putRegistry D.registry)
        (Registry.dispatch msg a)
  | .transfer token dst value =>
      zoom (fun w => w.peers.tokens) World.putTokens (transfer K msg token dst value)

/-- One transaction: a revert leaves everything as it was. -/
def step (w : World τ) (l : Label τ) : World τ := commit (dispatch K D l.msg l.action) w

/-! ## The account of a step -/

inductive Flow where
  | settlement (s : Settlement)
  | withdrawal (token to_ : Address) (amount : Uint256)
  | transfer (token src dst : Address) (value : Uint256)
deriving Repr, DecidableEq

/-- The settlement of `amount` for a merchant as its record stands. -/
def settlementOf (token payer : Address) (amount : Uint256) (m : Merchant) : Settlement where
  token := token
  payer := payer
  payout := m.payoutAddress
  amount := amount
  feeAmount := feeOf amount m.feeBps
  netAmount := amount - feeOf amount m.feeBps

/-- The settlement a charge of subscription `id` makes. -/
def chargeSettlement (c : Ctx Subscriptions.Storage (Peers τ)) (id : Nat) : Settlement :=
  let sub := c.storage.subscriptions id
  settlementOf sub.token sub.payer sub.amount
    ((c.ext.registries c.storage.registry).merchants sub.merchantId)

/-- The settlements of a batch: one for each row charged. -/
def chargedFlows (c : Ctx Subscriptions.Storage (Peers τ)) (rows : List (Nat × ChargeOutcome)) :
    List Flow :=
  rows.filterMap fun row =>
    if row.2 = .charged then some (.settlement (chargeSettlement c row.1)) else none

/-- What a step moves if it goes through. -/
def flowsOf (w : World τ) (msg : Msg) : Action τ → List Flow
  | .payments (.pay merchantId token amount _) =>
      [.settlement (settlementOf token msg.sender amount
        ((w.peers.registries w.payments.registry).merchants merchantId))]
  | .payments (.payWithAuthorization merchantId token auth _ _ _) =>
      [.settlement (settlementOf token auth.from_ auth.amount
        ((w.peers.registries w.payments.registry).merchants merchantId))]
  | .subscriptions (.batchCharge ids attempts) =>
      match Subscriptions.batchCharge (Peers.outside K) D.subscriptions msg ids attempts
          w.subscriptionsCtx with
      | .ok (outcomes, _) => chargedFlows w.subscriptionsCtx (ids.zip outcomes)
      | .error _ => []
  | .withdraw token to_ amount => [.withdrawal token to_ amount]
  | .transfer token dst value => [.transfer token msg.sender dst value]
  | _ => []

def flows (w : World τ) (l : Label τ) : List Flow :=
  match dispatch K D l.msg l.action w with
  | .ok _ => flowsOf K D w l.msg l.action
  | .error _ => []

/-! ## Sums over flows -/

/-- What account `a` paid in settlements. -/
def Flow.spent (token a : Address) : Flow → Nat
  | .settlement s => if s.token = token then at_ s.payer a s.amount.toNat else 0
  | _ => 0

/-- What account `a` received as a payout address. -/
def Flow.earned (token a : Address) : Flow → Nat
  | .settlement s => if s.token = token then at_ s.payout a s.netAmount.toNat else 0
  | _ => 0

/-- The fee of a settlement. -/
def Flow.fee (token : Address) : Flow → Nat
  | .settlement s => if s.token = token then s.feeAmount.toNat else 0
  | _ => 0

/-- What left the collector by a withdrawal. -/
def Flow.withdrawn (token : Address) : Flow → Nat
  | .withdrawal t _ amount => if t = token then amount.toNat else 0
  | _ => 0

/-- What account `a` sent by a transfer of its own. -/
def Flow.sent (token a : Address) : Flow → Nat
  | .transfer t src _ value => if t = token then at_ src a value.toNat else 0
  | _ => 0

/-- What account `a` was sent outside any settlement: withdrawals and transfers to it. -/
def Flow.given (token a : Address) : Flow → Nat
  | .settlement _ => 0
  | .withdrawal t to_ amount => if t = token then at_ to_ a amount.toNat else 0
  | .transfer t _ dst value => if t = token then at_ dst a value.toNat else 0

def total (v : Flow → Nat) (fs : List Flow) : Nat := (fs.map v).sum

end Code

end Strimz.System
