import Strimz.Projector
import Strimz.Runs

/-!
# Refunds

`RefundsService` (`apps/api/src/modules/refunds/refunds.service.ts`) beside the indexer's
refund matcher. Both write the `Refund` table: the indexer's columns are `Db.refunds`, the
columns only the service uses are `details`, by row id. A request is taken apart at its
`await`s: between two statements anything else may run, and a request may stop anywhere.
Amounts are the numbers their digits spell. The `refund.created` notification, which is not
awaited and touches no refund, is left out.
-/

namespace Strimz.Refunds

open Indexer Tx

inductive RefundReason where
  | customer_request
  | product_issue
  | duplicate_charge
  | fraudulent
  | other
deriving Repr, DecidableEq

/-- The columns of `Refund` the indexer leaves alone. -/
structure RefundDetails where
  transactionId : TxKey
  amount : Nat
  currency : Currency
  reason : RefundReason
  note : Option String
  payerAddress : Address
  initiatedById : RowId
deriving Repr, DecidableEq

structure CreateRefundParsed where
  transactionId : TxKey
  amount : Nat
  reason : RefundReason
  note : Option String
deriving Repr, DecidableEq

/-- The arguments of `create`. -/
structure CreateRequest where
  merchantId : RowId
  mode : Mode
  actorId : RowId
  input : CreateRefundParsed
deriving Repr, DecidableEq

/-- The arguments of `submitSignature`. -/
structure SubmitRequest where
  merchantId : RowId
  mode : Mode
  id : RowId
  refundTxHash : String
deriving Repr, DecidableEq

inductive RefundError where
  | transactionNotFound
  | cannotRefund (status : TransactionStatus)
  | exceedsBalance (originalAmount priorRefundedTotal requested : Nat)
  | noTokenAddress (currency : Currency)
  | refundNotFound
  | cannotAcceptSignature (status : RefundStatus)
deriving Repr, DecidableEq

def RefundError.code : RefundError → String
  | .transactionNotFound | .refundNotFound => "not_found"
  | .cannotRefund _ | .cannotAcceptSignature _ => "session_invalid_state"
  | .exceedsBalance _ _ _ | .noTokenAddress _ => "invalid_request"

/-- The transfer the merchant is to sign; `none` is the default note. -/
structure SigningInstructions where
  token : Address
  to_ : Address
  amount : Nat
  note : Option String
deriving Repr, DecidableEq

/-! ## The state -/

/-- A `create` between two of its statements. -/
inductive CreateCall where
  | found (req : CreateRequest) (tx : TransactionRow)
  | checked (req : CreateRequest) (tx : TransactionRow) (priorTotal : Nat)
deriving Repr, DecidableEq

/-- A `submitSignature` between its two statements. -/
structure SubmitCall where
  refundId : RowId
  refundTxHash : String
deriving Repr, DecidableEq

structure World where
  db : Db
  details : RowId → Option RefundDetails
  creating : List CreateCall
  signing : List SubmitCall

/-- The statuses the refundable balance counts. -/
def counted : RefundStatus → Bool
  | .pending | .awaiting_signature | .submitted | .completed => true
  | .failed | .cancelled => false

/-- What a row takes from the balance of the transaction `key`. -/
def World.share (w : World) (key : TxKey) (r : RefundRow) : Nat :=
  match w.details r.id with
  | some d => if d.transactionId = key ∧ counted r.status then d.amount else 0
  | none => 0

/-- The sum of `priorRefunds`. -/
def World.priorTotal (w : World) (key : TxKey) : Nat := (w.db.refunds.map (w.share key)).sum

/-! ## `create` -/

/-- `tokenAddressFor`: the `ARC_*_ADDRESS` variables. -/
abbrev TokenAddresses := Currency → Option Address

/-- `transaction.findFirst`, and the check of its status. -/
def findTransaction (db : Db) (req : CreateRequest) : Except RefundError TransactionRow :=
  match db.transactions req.input.transactionId with
  | some tx =>
      if tx.merchantId = req.merchantId ∧ tx.mode = req.mode then
        if tx.status ≠ .confirmed then .error (.cannotRefund tx.status) else .ok tx
      else .error .transactionNotFound
  | none => .error .transactionNotFound

/-- What follows the sum of the prior refunds. -/
def checkBalance (tokens : TokenAddresses) (req : CreateRequest) (tx : TransactionRow)
    (priorTotal : Nat) : Except RefundError SigningInstructions :=
  if priorTotal + req.input.amount > tx.amount then
    .error (.exceedsBalance tx.amount priorTotal req.input.amount)
  else
    match tokens tx.currency with
    | some token => .ok ⟨token, tx.payerAddress, req.input.amount, req.input.note⟩
    | none => .error (.noTokenAddress tx.currency)

def refundRow (id : RowId) (req : CreateRequest) (tx : TransactionRow) : RefundRow where
  id := id
  merchantId := req.merchantId
  refundTxHash := none
  status := .awaiting_signature
  mode := tx.mode
  completedAt := none

def refundDetails (req : CreateRequest) (tx : TransactionRow) : RefundDetails where
  transactionId := req.input.transactionId
  amount := req.input.amount
  currency := tx.currency
  reason := req.input.reason
  note := req.input.note
  payerAddress := tx.payerAddress
  initiatedById := req.actorId

/-- `refund.create`, unless the new id is taken. -/
def World.insertRefund (w : World) (id : RowId) (req : CreateRequest) (tx : TransactionRow) :
    World :=
  if w.db.refunds.any fun r => r.id = id then w
  else
    { w with
      db := { w.db with refunds := w.db.refunds ++ [refundRow id req tx] }
      details := Function.update w.details id (some (refundDetails req tx)) }

/-! ## `submitSignature` -/

def isHexDigit (c : Char) : Bool :=
  ('0' ≤ c && c ≤ '9') || ('a' ≤ c && c ≤ 'f') || ('A' ≤ c && c ≤ 'F')

/-- `/^0x[a-fA-F0-9]{64}$/`: both cases are let through as they are. -/
def evmTxHashSchema (s : String) : Bool :=
  match s.toList with
  | '0' :: 'x' :: digits => digits.length = 64 && digits.all isHexDigit
  | _ => false

/-- `refund.findFirst`, and the check of its status. -/
def findRefund (db : Db) (req : SubmitRequest) : Except RefundError RefundRow :=
  match db.refunds.find? fun r => r.id = req.id && r.merchantId = req.merchantId &&
      r.mode = req.mode with
  | some r => if r.status ≠ .awaiting_signature then .error (.cannotAcceptSignature r.status)
      else .ok r
  | none => .error .refundNotFound

/-- The unique index on `refundTxHash` lets the update in. -/
def hashFree (db : Db) (call : SubmitCall) : Bool :=
  db.refunds.all fun r => r.id = call.refundId || r.refundTxHash ≠ some call.refundTxHash

/-- `refund.update`, by id alone. -/
def recordHash (call : SubmitCall) (r : RefundRow) : RefundRow :=
  if r.id = call.refundId then
    { r with status := .submitted, refundTxHash := some call.refundTxHash }
  else r

def submitHash (db : Db) (call : SubmitCall) : Db :=
  if hashFree db call then db.mapRefunds (recordHash call) else db

/-! ## Steps -/

inductive Label where
  /-- A `create` runs its first statement. -/
  | findTransaction (req : CreateRequest)
  /-- The `k`-th `create` under way sums the prior refunds. -/
  | sumPriors (k : Nat)
  | insertRefund (k : Nat) (id : RowId)
  | stopCreate (k : Nat)
  /-- A `submitSignature` runs its first statement. -/
  | findRefund (req : SubmitRequest)
  | recordHash (k : Nat)
  | stopSubmit (k : Nat)
  /-- The indexer projects a log of a stablecoin contract. -/
  | project (lg : Log) (blockTime : Int)

def isTransfer (lg : Log) : Bool :=
  match lg.decoded with
  | .event (.erc20Transfer _ _ _) => true
  | _ => false

/-- What runs: the token variables of the API and the projector of the indexer. -/
structure Env where
  tokens : TokenAddresses
  projector : Projector

def Env.step (env : Env) (w : World) : Label → World
  | .findTransaction req =>
      match Refunds.findTransaction w.db req with
      | .ok tx => { w with creating := w.creating ++ [.found req tx] }
      | .error _ => w
  | .sumPriors k =>
      match w.creating[k]? with
      | some (.found req tx) =>
          let priorTotal := w.priorTotal req.input.transactionId
          match checkBalance env.tokens req tx priorTotal with
          | .ok _ => { w with creating := w.creating.set k (.checked req tx priorTotal) }
          | .error _ => { w with creating := w.creating.eraseIdx k }
      | _ => w
  | .insertRefund k id =>
      match w.creating[k]? with
      | some (.checked req tx _) =>
          { w.insertRefund id req tx with creating := w.creating.eraseIdx k }
      | _ => w
  | .stopCreate k => { w with creating := w.creating.eraseIdx k }
  | .findRefund req =>
      if evmTxHashSchema req.refundTxHash then
        match Refunds.findRefund w.db req with
        | .ok r => { w with signing := w.signing ++ [⟨r.id, req.refundTxHash⟩] }
        | .error _ => w
      else w
  | .recordHash k =>
      match w.signing[k]? with
      | some call => { w with db := submitHash w.db call, signing := w.signing.eraseIdx k }
      | none => w
  | .stopSubmit k => { w with signing := w.signing.eraseIdx k }
  | .project lg blockTime =>
      if isTransfer lg then { w with db := commit (env.projector.apply lg blockTime) w.db } else w

end Strimz.Refunds
