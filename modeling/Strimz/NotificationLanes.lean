import Mathlib.Order.WithBot
import Strimz.Runs

/-!
# Merchant notifications

The five lanes of `MerchantNotificationsService`
(`apps/scheduler/src/crons/merchant-notifications/merchant-notifications.service.ts`). A tick of a
lane reads the oldest unsent rows and goes through them one by one: render, send, stamp. Any number
of ticks, of any replicas, may be under way; what the query returned is not read again. Rows are
written by others at any time.

What a lane reads and writes of its table is a `Lane`. Whether rendering, sending and stamping
succeed is up to the environment.
-/

namespace Strimz.MerchantNotifications

open Runs

abbrev RowId := String

structure Email where
  to_ : String
  subject : String
deriving Repr, DecidableEq

/-- A polling lane over the rows `ρ`. -/
structure Lane (ρ : Type) where
  id : ρ → RowId
  /-- The `where` clause, the stamp aside. -/
  ready : ρ → Bool
  notifiedAt : ρ → Option ℕ
  /-- The column of `orderBy`; a null comes last. -/
  order : ρ → WithTop ℕ
  /-- The merchant wants this email. -/
  enabled : ρ → Bool
  compose : ρ → Except String Email
  stamp : ℕ → ρ → ρ
  id_stamp : ∀ now row, id (stamp now row) = id row
  notifiedAt_stamp : ∀ now row, notifiedAt (stamp now row) = some now

/-! ## The lanes -/

/-- `value` is the boolean at `metadata.emailPrefs[key]`, if there is one. -/
def prefEnabled (value : Option Bool) : Bool := value.getD true

/-- `formatUnits` of `viem`. -/
def formatUnits (value decimals : ℕ) : String :=
  let fraction := ((Nat.toDigits 10 (value % 10 ^ decimals)).leftpad decimals '0').reverse.dropWhile
    (· = '0')
  toString (value / 10 ^ decimals) ++
    if fraction = [] then "" else "." ++ String.ofList fraction.reverse

def amountDisplay (amount : ℕ) (currency : String) : String :=
  formatUnits amount 6 ++ " " ++ currency

structure Merchant where
  id : RowId
  email : String
  createdAt : ℕ
  welcomeNotifiedAt : Option ℕ
deriving Repr, DecidableEq

def welcomeLane : Lane Merchant where
  id := Merchant.id
  ready _ := true
  notifiedAt := Merchant.welcomeNotifiedAt
  order row := row.createdAt
  enabled _ := true
  compose row := .ok ⟨row.email, "Welcome to Strimz"⟩
  stamp now row := { row with welcomeNotifiedAt := some now }
  id_stamp _ _ := rfl
  notifiedAt_stamp _ _ := rfl

structure PaymentSession where
  id : RowId
  status : String
  updatedAt : ℕ
  merchantNotifiedAt : Option ℕ
  amount : ℕ
  currency : String
  email : String
  paymentReceived : Option Bool
deriving Repr, DecidableEq

def paymentLane : Lane PaymentSession where
  id := PaymentSession.id
  ready row := row.status = "confirmed"
  notifiedAt := PaymentSession.merchantNotifiedAt
  order row := row.updatedAt
  enabled row := prefEnabled row.paymentReceived
  compose row := .ok ⟨row.email, "You received " ++ amountDisplay row.amount row.currency⟩
  stamp now row := { row with merchantNotifiedAt := some now, updatedAt := now }
  id_stamp _ _ := rfl
  notifiedAt_stamp _ _ := rfl

structure Subscription where
  id : RowId
  createdAt : ℕ
  merchantNotifiedAt : Option ℕ
  planName : String
  email : String
deriving Repr, DecidableEq

def subscriptionStartedLane : Lane Subscription where
  id := Subscription.id
  ready _ := true
  notifiedAt := Subscription.merchantNotifiedAt
  order row := row.createdAt
  enabled _ := true
  compose row := .ok ⟨row.email, "New subscriber on " ++ row.planName⟩
  stamp now row := { row with merchantNotifiedAt := some now }
  id_stamp _ _ := rfl
  notifiedAt_stamp _ _ := rfl

structure SubscriptionCharge where
  id : RowId
  status : String
  executedAt : Option ℕ
  merchantNotifiedAt : Option ℕ
  amount : ℕ
  currency : String
  email : String
  subscriptionCharged : Option Bool
deriving Repr, DecidableEq

def subscriptionChargedLane : Lane SubscriptionCharge where
  id := SubscriptionCharge.id
  ready row := row.status = "succeeded"
  notifiedAt := SubscriptionCharge.merchantNotifiedAt
  order row := row.executedAt.elim ⊤ fun t => (t : WithTop ℕ)
  enabled row := prefEnabled row.subscriptionCharged
  compose row := .ok ⟨row.email, "You received " ++ amountDisplay row.amount row.currency⟩
  stamp now row := { row with merchantNotifiedAt := some now }
  id_stamp _ _ := rfl
  notifiedAt_stamp _ _ := rfl

/-- What `securityMetadataSchema` reads. -/
structure SecurityMetadata where
  transactionHash : Option String
  newPayoutAddress : Option String
  commitAt : Option ℤ
  pendingOwner : Option String
  acceptableAt : Option ℤ
deriving Repr, DecidableEq

inductive NoticeKind where
  | payout_change
  | ownership_transfer
deriving Repr, DecidableEq

structure Notice where
  kind : NoticeKind
  address : String
  effectiveAt : ℤ
  subject : String
deriving Repr, DecidableEq

/-- A value that is there, and neither `""` nor `0`. -/
def truthy {α : Type} [DecidableEq α] (falsy : α) (x : Option α) : Bool := x.any (· ≠ falsy)

def securityNotice (action : String) (m : SecurityMetadata) : Except String Notice :=
  if action = "merchant.payout_change_initiated_onchain" ∧ truthy "" m.newPayoutAddress = true ∧
      truthy 0 m.commitAt = true then
    .ok ⟨.payout_change, m.newPayoutAddress.getD "", m.commitAt.getD 0,
      "Your Strimz payout address is changing"⟩
  else if action = "merchant.ownership_transfer_initiated_onchain" ∧
      truthy "" m.pendingOwner = true ∧ truthy 0 m.acceptableAt = true then
    .ok ⟨.ownership_transfer, m.pendingOwner.getD "", m.acceptableAt.getD 0,
      "Your Strimz merchant account is being handed over"⟩
  else .error ("security alert for " ++ action ++ " is missing the address or the time")

structure MerchantSecurityAlert where
  id : RowId
  createdAt : ℕ
  notifiedAt : Option ℕ
  action : String
  metadata : SecurityMetadata
  email : String
deriving Repr, DecidableEq

def securityLane : Lane MerchantSecurityAlert where
  id := MerchantSecurityAlert.id
  ready _ := true
  notifiedAt := MerchantSecurityAlert.notifiedAt
  order row := row.createdAt
  enabled _ := true
  compose row :=
    if row.metadata.transactionHash = none then .error "Required"
    else (securityNotice row.action row.metadata).map fun notice => ⟨row.email, notice.subject⟩
  stamp now row := { row with notifiedAt := some now }
  id_stamp _ _ := rfl
  notifiedAt_stamp _ _ := rfl

/-! ## Ticks -/

structure LaneResult where
  sent : ℕ
  failed : ℕ
deriving Repr, DecidableEq

/-- How an attempt at a row ended. -/
inductive Attempt where
  /-- Nothing was sent. -/
  | failed
  /-- The email went out, and the row was stamped or not. -/
  | sent (stamped : Bool)
  /-- The merchant does not want it: stamped only. -/
  | silenced
deriving Repr, DecidableEq

def LaneResult.count (result : LaneResult) : Attempt → LaneResult
  | .failed => { result with failed := result.failed + 1 }
  | .sent stamped =>
      if stamped = true then { result with sent := result.sent + 1 }
      else { result with failed := result.failed + 1 }
  | .silenced => result

/-- A tick under way: its number, the rows it has left, how many it has been through. -/
structure Tick (ρ : Type) where
  number : ℕ
  rows : List ρ
  done : ℕ
  result : LaneResult

structure LogEntry where
  number : ℕ
  id : RowId
  attempt : Attempt
  at_ : ℕ
deriving Repr, DecidableEq

structure World (ρ : Type) where
  table : List ρ
  ticks : List (Tick ρ)
  /-- How many ticks have begun. -/
  begun : ℕ
  /-- The ticks that have returned, with what they returned. -/
  returned : List (ℕ × LaneResult)
  log : List LogEntry
  now : ℕ

section Machine

variable {ρ : Type} [DecidableEq ρ] (lane : Lane ρ) (batchSize : ℕ)

def Lane.unsent (row : ρ) : Bool := lane.ready row && (lane.notifiedAt row).isNone

/-- `findMany`: rows of one order may come in any order. -/
structure Answer (table batch : List ρ) : Prop where
  unsent : ∀ row ∈ batch, row ∈ table ∧ lane.unsent row = true
  nodup : (batch.map lane.id).Nodup
  sorted : batch.Pairwise fun x y => lane.order x ≤ lane.order y
  take : batch.length = min batchSize (table.filter lane.unsent).length
  first : ∀ row ∈ batch, ∀ other ∈ table, lane.unsent other = true → other ∉ batch →
    lane.order row ≤ lane.order other

instance (table batch : List ρ) : Decidable (Answer lane batchSize table batch) :=
  decidable_of_iff ((∀ row ∈ batch, row ∈ table ∧ lane.unsent row = true) ∧
      (batch.map lane.id).Nodup ∧ (batch.Pairwise fun x y => lane.order x ≤ lane.order y) ∧
      batch.length = min batchSize (table.filter lane.unsent).length ∧
      ∀ row ∈ batch, ∀ other ∈ table, lane.unsent other = true → other ∉ batch →
        lane.order row ≤ lane.order other)
    ⟨fun ⟨h₁, h₂, h₃, h₄, h₅⟩ => ⟨h₁, h₂, h₃, h₄, h₅⟩,
      fun h => ⟨h.unsent, h.nodup, h.sorted, h.take, h.first⟩⟩

def World.begin_ (w : World ρ) (batch : List ρ) : World ρ :=
  if Answer lane batchSize w.table batch then
    if batch = [] then
      { w with begun := w.begun + 1, returned := w.returned ++ [(w.begun, ⟨0, 0⟩)] }
    else
      { w with begun := w.begun + 1, ticks := w.ticks ++ [⟨w.begun, batch, 0, ⟨0, 0⟩⟩] }
  else w

/-- `update` where the id is this one. -/
def stampRow (now : ℕ) (id : RowId) (table : List ρ) : List ρ :=
  table.map fun row => if lane.id row = id then lane.stamp now row else row

/-- The loop goes on behind a row, or returns. -/
def World.settle (w : World ρ) (k : ℕ) (t : Tick ρ) (row : ρ) (rest : List ρ) (attempt : Attempt)
    (table : List ρ) : World ρ :=
  { w with
    table := table
    log := w.log ++ [⟨t.number, lane.id row, attempt, w.now⟩]
    ticks := if rest = [] then w.ticks.eraseIdx k
      else w.ticks.set k ⟨t.number, rest, t.done + 1, t.result.count attempt⟩
    returned := if rest = [] then w.returned ++ [(t.number, t.result.count attempt)]
      else w.returned }

/-- One row of a tick. The stamp of a merchant that does not want the email stands outside of the
`try`. -/
def World.attempt (w : World ρ) (k : ℕ) (sends stamps : Bool) : World ρ :=
  match w.ticks[k]? with
  | some ⟨number, row :: rest, done, result⟩ =>
      let t : Tick ρ := ⟨number, row :: rest, done, result⟩
      let stamped := stampRow lane w.now (lane.id row) w.table
      if lane.enabled row = false then
        if stamps = true then w.settle lane k t row rest .silenced stamped
        else { w with ticks := w.ticks.eraseIdx k }
      else match lane.compose row with
        | .error _ => w.settle lane k t row rest .failed w.table
        | .ok _ =>
            if sends = false then w.settle lane k t row rest .failed w.table
            else if stamps = true then w.settle lane k t row rest (.sent true) stamped
            else w.settle lane k t row rest (.sent false) w.table
  | _ => w

inductive Label (ρ : Type) where
  /-- A tick begins, and the query answers with these rows. -/
  | tick (batch : List ρ)
  /-- The `k`-th tick under way comes to its next row. -/
  | attempt (k : ℕ) (sends stamps : Bool)
  /-- The process of the `k`-th tick stops. -/
  | cut (k : ℕ)
  /-- Others write the table. -/
  | write (table : List ρ)
  | wait (seconds : ℕ)

def step (w : World ρ) : Label ρ → World ρ
  | .tick batch => w.begin_ lane batchSize batch
  | .attempt k sends stamps => w.attempt lane k sends stamps
  | .cut k => { w with ticks := w.ticks.eraseIdx k }
  | .write table => { w with table := table }
  | .wait seconds => { w with now := w.now + seconds }

/-- Nothing under way yet. -/
def World.initial (table : List ρ) (now : ℕ) : World ρ := ⟨table, [], 0, [], [], now⟩

end Machine

end Strimz.MerchantNotifications
