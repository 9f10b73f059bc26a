import Strimz.Projections
import Strimz.Table
import Strimz.Runs

/-!
# Payment sessions, their invoices and their stock

The rows of `PaymentSession`, `Invoice` and `StorefrontProduct`, and every statement of the
three services that moves them: the API (`invoices.service.ts`, `payment-sessions.service.ts`,
`storefronts.service.ts`), the scheduler's sweeps (`session-expiry`, `invoice-overdue`), the
relay's stamp and the indexer's `InsertOneShotTransaction`.

A handler is a task that waits between its read and its write, so other tasks come in between.
A statement is one step. The statements of one transaction are visible together, when it
commits, and a row it updates is locked from the statement on, so that its conditions on that
row hold of the row the commit writes. A sweep evaluates its `WITH due AS (…)` when it starts
and updates the rows by id when it has their locks: it does not evaluate the `WITH` again.
Any request may fail between two statements, and a transaction that fails leaves nothing.
-/

namespace Strimz.Sessions

open Indexer

/-! ## Rows -/

structure Session where
  id : RowId
  /-- The columns the indexer reads and writes. -/
  row : PaymentSessionRow
  expiresAt : Int
  storefrontProductId : Option RowId
deriving Repr, DecidableEq

structure Invoice where
  id : RowId
  merchantId : RowId
  mode : Mode
  status : InvoiceStatus
  customerEmail : Option String
  sessionId : Option RowId
  dueAt : Int
  sentAt : Option Int
  paidAt : Option Int
deriving Repr, DecidableEq

inductive StorefrontStatus where
  | draft
  | published
  | archived
deriving Repr, DecidableEq

structure Storefront where
  id : RowId
  merchantId : RowId
  slug : String
  status : StorefrontStatus
deriving Repr, DecidableEq

inductive StorefrontProductType where
  | one_time
  | subscription
deriving Repr, DecidableEq

structure StorefrontProduct where
  id : RowId
  storefrontId : RowId
  price : String
  currency : Currency
  type : StorefrontProductType
  /-- `none` is unlimited. -/
  stock : Option Int
  planId : Option RowId
  isActive : Bool
deriving Repr, DecidableEq

/-- The ids a webhook event is about. -/
inductive Ref where
  | paymentFailed (sessionId : RowId) (reason : String)
  | paymentCompleted (sessionId : RowId) (transaction : TxKey)
  | invoicePaid (invoiceId : RowId) (transaction : TxKey)
  | invoiceOverdue (invoiceId : RowId)
deriving Repr, DecidableEq

structure Event where
  merchantId : RowId
  mode : Mode
  ref : Ref
deriving Repr, DecidableEq

/-- A handler between its read and its next write. -/
inductive Task where
  /-- `send`, past its checks. -/
  | send (invoice : Invoice)
  /-- `voidInvoice`, past its checks. -/
  | void (invoice : Invoice)
  /-- `voidInvoice`, past its first update. -/
  | voidSession (sessionId : RowId)
  /-- The overdue sweep, with the ids of its `due`. -/
  | overdue (due : List RowId)
  /-- The expiry sweep, with the ids of its `due`. -/
  | expiry (due : List RowId)
  /-- `checkoutFromProduct`, past its checks. -/
  | checkout (merchantId : RowId) (product : StorefrontProduct)
  /-- `InsertOneShotTransaction`, past its reads; `sessionId` is the session it settles. -/
  | settle (in_ : OneShotTxInput) (merchantId : RowId) (sessionId : Option RowId)

structure World where
  now : Int
  storefronts : List Storefront
  products : List StorefrontProduct
  sessions : List Session
  invoices : List Invoice
  /-- The two unique keys of the `Transaction` table. -/
  transactions : List (TxKey × Option RowId)
  events : List Event
  tasks : List Task
  /-- The sessions whose unit went back on the shelf, in order. -/
  released : List RowId

/-- Before the first row. -/
def World.empty (now : Int) : World := ⟨now, [], [], [], [], [], [], [], []⟩

namespace World

def session? (w : World) (id : RowId) : Option Session := Table.find Session.id w.sessions id

def invoice? (w : World) (id : RowId) : Option Invoice := Table.find Invoice.id w.invoices id

def product? (w : World) (id : RowId) : Option StorefrontProduct :=
  Table.find StorefrontProduct.id w.products id

theorem session?_eq_some {w : World} {id : RowId} {s : Session} (h : w.session? id = some s) :
    s ∈ w.sessions ∧ s.id = id := Table.find_eq_some h

theorem invoice?_eq_some {w : World} {id : RowId} {i : Invoice} (h : w.invoice? id = some i) :
    i ∈ w.invoices ∧ i.id = id := Table.find_eq_some h

theorem product?_eq_some {w : World} {id : RowId} {p : StorefrontProduct}
    (h : w.product? id = some p) : p ∈ w.products ∧ p.id = id := Table.find_eq_some h

def updateSessions (p : Session → Bool) (f : Session → Session) (w : World) : World :=
  { w with sessions := Table.updateWhere p f w.sessions }

def updateInvoices (p : Invoice → Bool) (f : Invoice → Invoice) (w : World) : World :=
  { w with invoices := Table.updateWhere p f w.invoices }

def emit (e : Event) (w : World) : World := { w with events := w.events ++ [e] }

def spawn (t : Task) (w : World) : World := { w with tasks := w.tasks ++ [t] }

def finish (k : Nat) (w : World) : World := { w with tasks := w.tasks.eraseIdx k }

end World

def Session.to_ (status : PaymentSessionStatus) (s : Session) : Session :=
  { s with row := { s.row with status := status } }

/-! ## The API's answers -/

inductive ApiError where
  | notFound (code message : String)
  | forbidden (code message : String)
  | conflict (code message : String)
  | badRequest (code message : String)
deriving Repr, DecidableEq

def OPEN_SESSION_STATUSES : List PaymentSessionStatus := [.created, .awaiting_payment]

/-! ## Invoices -/

/-- `findFirst` on an id within the merchant and the mode. -/
def World.ownInvoice? (w : World) (merchantId : RowId) (mode : Mode) (id : RowId) :
    Option Invoice :=
  w.invoices.find? fun i => i.id = id ∧ i.merchantId = merchantId ∧ i.mode = mode

/-- `send`, up to the mail. -/
def checkSend (w : World) (merchantId : RowId) (mode : Mode) (id : RowId) :
    Except ApiError Invoice :=
  match w.ownInvoice? merchantId mode id with
  | none => .error (.notFound "not_found" "invoice not found")
  | some row =>
      if row.customerEmail = none ∨ row.customerEmail = some "" then
        .error (.forbidden "invalid_request" "invoice has no customer email — cannot send")
      else if row.status = .void then
        .error (.forbidden "session_invalid_state" "invoice is voided")
      else .ok row

/-- `voidInvoice`, up to its first update. -/
def checkVoid (w : World) (merchantId : RowId) (mode : Mode) (id : RowId) :
    Except ApiError Invoice :=
  match w.ownInvoice? merchantId mode id with
  | none => .error (.notFound "not_found" "invoice not found")
  | some row =>
      if row.status = .paid then
        .error (.forbidden "session_invalid_state" "paid invoice cannot be voided")
      else .ok row

/-! ## Storefronts -/

/-- What a click on Buy leads to, before anything is written. -/
inductive Purchase where
  | plan (planId : RowId)
  | reserve (merchantId : RowId) (product : StorefrontProduct)
deriving Repr, DecidableEq

/-- The checks of `checkoutFromProduct`. -/
def checkCheckout (w : World) (slug : String) (productId : RowId) : Except ApiError Purchase :=
  match w.storefronts.find? (·.slug = slug) with
  | none => .error (.notFound "not_found" "storefront not found")
  | some sf =>
      if sf.status ≠ .published then .error (.notFound "not_found" "storefront not found")
      else
        match w.products.find? fun p => p.id = productId ∧ p.storefrontId = sf.id ∧ p.isActive with
        | none => .error (.notFound "not_found" "product not found")
        | some product =>
            if product.stock.any (· ≤ 0) then
              .error (.conflict "sold_out" "product is sold out")
            else
              match product.type, product.planId with
              | .subscription, none =>
                  .error (.badRequest "invalid_request"
                    ("this product is a subscription but has no linked plan — " ++
                      "the merchant needs to attach one first"))
              | .subscription, some planId => .ok (.plan planId)
              | .one_time, _ => .ok (.reserve sf.merchantId product)

/-- A new row, with the columns' defaults. -/
def newSession (id merchantId : RowId) (mode : Mode) (amount : String) (currency : Currency)
    (expiresAt : Int) (storefrontProductId : Option RowId) : Session where
  id := id
  row := ⟨merchantId, amount, currency, mode, .created, none, none⟩
  expiresAt := expiresAt
  storefrontProductId := storefrontProductId

/-- An id that no row of the table has. -/
def World.insertSession (s : Session) (w : World) : World :=
  { w with sessions := w.sessions ++ [s] }

/-- `updateMany({ where: { id, stock: { not: null } }, data: { stock: { increment: 1 } } })` for
a session's product. -/
def World.release (s : Session) (w : World) : World :=
  match s.storefrontProductId with
  | none => w
  | some productId =>
      { w with products := Table.updateWhere (fun p => p.id = productId ∧ p.stock ≠ none)
                 (fun p => { p with stock := p.stock.map (· + 1) }) w.products,
               released := w.released ++ [s.id] }

/-- `updateMany({ where: { id, stock: { gt: 0 } }, data: { stock: { decrement: 1 } } })` -/
def inStock (productId : RowId) (p : StorefrontProduct) : Bool :=
  p.id = productId ∧ p.stock.any (0 < ·)

/-- The transaction of `checkoutFromProduct`. -/
def reserve (arcMode : Mode) (id merchantId : RowId) (product : StorefrontProduct) (w : World) :
    World :=
  let session := newSession id merchantId arcMode product.price product.currency
    (w.now + 30 * 60000) (some product.id)
  if w.session? id ≠ none then w
  else if product.stock = none then w.insertSession session
  else if w.products.countP (inStock product.id) = 0 then w
  else
    { w with products := Table.updateWhere (inStock product.id)
               (fun p => { p with stock := p.stock.map (· - 1) }) w.products }.insertSession session

/-! ## Closing a session -/

inductive Closed where
  | cancelled
  | expired
deriving Repr, DecidableEq

def Closed.status : Closed → PaymentSessionStatus
  | .cancelled => .cancelled
  | .expired => .expired

/-- The rows `close` updates. -/
def closable (merchantId : RowId) (mode : Mode) (id : RowId) (s : Session) : Bool :=
  s.id = id ∧ s.row.merchantId = merchantId ∧ s.row.mode = mode ∧
    s.row.status ∈ OPEN_SESSION_STATUSES

/-- `close`, the body of `cancel` and `expire`: one transaction. -/
def close (merchantId : RowId) (mode : Mode) (id : RowId) (to_ : Closed) (w : World) : World :=
  let count := w.sessions.countP (closable merchantId mode id)
  let w' := w.updateSessions (closable merchantId mode id) (Session.to_ to_.status)
  match w'.sessions.find? fun s => s.id = id ∧ s.row.merchantId = merchantId ∧ s.row.mode = mode with
  | none => w'
  | some row => if count = 1 then w'.release row else w'

/-! ## Sweeps -/

/-- The ids of `WITH due AS (…)` in the expiry sweep. -/
def expiryDue (w : World) : List RowId :=
  (w.sessions.filter fun s => s.row.status ∈ OPEN_SESSION_STATUSES ∧ s.expiresAt < w.now).map
    (·.id)

/-- A row the expiry sweep returns: its unit goes back, and `payment.failed` goes out. -/
def expireRow (w : World) (s : Session) : World :=
  (w.release s).emit ⟨s.row.merchantId, s.row.mode, .paymentFailed s.id "session expired"⟩

/-- The update of the expiry sweep and what it does with the rows it returns. -/
def expire (due : List RowId) (w : World) : World :=
  (Table.returning (·.id ∈ due) (Session.to_ .expired) w.sessions).foldl expireRow
    (w.updateSessions (·.id ∈ due) (Session.to_ .expired))

/-- The ids of `WITH due AS (…)` in the overdue sweep. -/
def overdueDue (w : World) : List RowId :=
  (w.invoices.filter fun i => i.status = .sent ∧ i.dueAt < w.now).map (·.id)

def overdueEvent (i : Invoice) : Event := ⟨i.merchantId, i.mode, .invoiceOverdue i.id⟩

def setOverdue (i : Invoice) : Invoice := { i with status := .overdue }

/-- The update of the overdue sweep and the events of the rows it returns. -/
def flipOverdue (due : List RowId) (w : World) : World :=
  let w' := w.updateInvoices (·.id ∈ due) setOverdue
  { w' with events := w'.events ++
              (Table.returning (·.id ∈ due) setOverdue w.invoices).map overdueEvent }

/-! ## Payments -/

/-- The session `InsertOneShotTransaction` links the payment to, from what it reads. -/
def settledSession (w : World) (in_ : OneShotTxInput) (merchantId : RowId) : Option RowId :=
  let session := if in_.sessionRef = [] then none else w.session? in_.sessionRef
  match session with
  | none => none
  | some s =>
      let hasTransaction := w.transactions.any (·.2 = some s.id)
      if s.row.mismatches hasTransaction merchantId in_ = [] then some s.id else none

def confirmed (in_ : OneShotTxInput) (s : Session) : Session :=
  { s with row := { s.row with status := .confirmed, onchainTxHash := some in_.onchainTxHash,
                               payerWalletAddress := some in_.payerAddress } }

/-- The invoice that a settled session pays. -/
def payable (sessionId : RowId) (i : Invoice) : Bool :=
  i.sessionId = some sessionId ∧ i.status ≠ .paid ∧ i.status ≠ .void

def setPaid (now : Int) (i : Invoice) : Invoice :=
  { i with status := .paid, paidAt := some now }

/-- The statements after the insert, for a payment that is linked. -/
def settleSession (in_ : OneShotTxInput) (merchantId sessionId : RowId) (w : World) : World :=
  let w₁ := (w.updateSessions (fun s => s.id = sessionId ∧ s.row.status ≠ .confirmed)
    (confirmed in_)).emit ⟨merchantId, in_.mode, .paymentCompleted sessionId in_.key⟩
  let w₂ := w₁.updateInvoices (payable sessionId) (setPaid w.now)
  match w.invoices.find? (payable sessionId) with
  | none => w₂
  | some invoice => w₂.emit ⟨merchantId, in_.mode, .invoicePaid invoice.id in_.key⟩

/-- The insert and what follows it. The insert does nothing on a known log, and fails on a
session that has a transaction. -/
def settle (in_ : OneShotTxInput) (merchantId : RowId) (sessionId : Option RowId) (w : World) :
    World :=
  if w.transactions.any (·.1 = in_.key) then w
  else
    match sessionId with
    | none => { w with transactions := w.transactions ++ [(in_.key, none)] }
    | some id =>
        if w.transactions.any (·.2 = some id) then w
        else settleSession in_ merchantId id
          { w with transactions := w.transactions ++ [(in_.key, some id)] }

/-! ## Steps -/

inductive Label where
  | wait (d : Nat)
  | putStorefront (sf : Storefront)
  | createProduct (p : StorefrontProduct)
  | archiveProduct (id : RowId)
  | createSession (id merchantId : RowId) (mode : Mode) (amount : String) (currency : Currency)
      (expiresInMinutes : Nat)
  | createInvoice (id sessionId merchantId : RowId) (mode : Mode) (total : String)
      (currency : Currency) (customerEmail : Option String) (dueInDays : Nat)
  | send (merchantId : RowId) (mode : Mode) (id : RowId)
  | voidInvoice (merchantId : RowId) (mode : Mode) (id : RowId)
  | close (merchantId : RowId) (mode : Mode) (id : RowId) (to_ : Closed)
  /-- A relayed payment of the session is mined. -/
  | stamp (id : RowId) (txHash : Bytes32)
  | sweepInvoices
  | sweepSessions
  /-- The indexer takes a `PaymentExecuted` log of the merchant. -/
  | project (in_ : OneShotTxInput) (merchantId : RowId)
  | checkout (slug : String) (productId : RowId)
  /-- The next statement of a task; the database picks `id` for a row it inserts. -/
  | run (k : Nat) (id : RowId)
  /-- A task that fails. -/
  | drop (k : Nat)

/-- The rows the relay stamps. -/
def stampable (id : RowId) (s : Session) : Bool :=
  s.id = id ∧ s.row.status ∈ OPEN_SESSION_STATUSES

def stamped (txHash : Bytes32) (s : Session) : Session :=
  { s with row := { s.row with status := .submitted, onchainTxHash := some txHash } }

/-- `invoices.service.ts`, `create`: the invoice and its session in one transaction. -/
def createInvoice (id sessionId merchantId : RowId) (mode : Mode) (total : String)
    (currency : Currency) (customerEmail : Option String) (dueInDays : Nat) (w : World) : World :=
  let dueAt := w.now + dueInDays * 86400000
  if w.session? sessionId ≠ none ∨ w.invoice? id ≠ none then w
  else
    let w' := w.insertSession (newSession sessionId merchantId mode total currency dueAt none)
    { w' with invoices := w'.invoices ++
        [⟨id, merchantId, mode, .draft, customerEmail, some sessionId, dueAt, none, none⟩] }

/-- The next statement of a task that the world no longer lists. -/
def runTask (arcMode : Mode) (id : RowId) (w : World) : Task → World
  | .send invoice =>
      w.updateInvoices (·.id = invoice.id) fun i =>
        { i with status := .sent, sentAt := some w.now }
  | .void invoice =>
      let w' := w.updateInvoices (·.id = invoice.id) fun i => { i with status := .void }
      match invoice.sessionId with
      | none => w'
      | some sessionId => w'.spawn (.voidSession sessionId)
  | .voidSession sessionId => w.updateSessions (·.id = sessionId) (Session.to_ .cancelled)
  | .overdue due => flipOverdue due w
  | .expiry due => expire due w
  | .checkout merchantId product => reserve arcMode id merchantId product w
  | .settle in_ merchantId sessionId => settle in_ merchantId sessionId w

/-- A world that takes up a task if its checks pass. -/
def World.start (w : World) (t : Except ApiError Task) : World :=
  match t with
  | .error _ => w
  | .ok t => w.spawn t

def step (arcMode : Mode) (w : World) : Label → World
  | .wait d => { w with now := w.now + d }
  | .putStorefront sf =>
      { w with storefronts := w.storefronts.filter (·.id ≠ sf.id) ++ [sf] }
  | .createProduct p =>
      if w.product? p.id = none then { w with products := w.products ++ [p] } else w
  | .archiveProduct id =>
      { w with products := Table.updateWhere (·.id = id) (fun p => { p with isActive := false })
                 w.products }
  | .createSession id merchantId mode amount currency expiresInMinutes =>
      if w.session? id = none then
        w.insertSession (newSession id merchantId mode amount currency
          (w.now + expiresInMinutes * 60000) none)
      else w
  | .createInvoice id sessionId merchantId mode total currency customerEmail dueInDays =>
      createInvoice id sessionId merchantId mode total currency customerEmail dueInDays w
  | .send merchantId mode id => w.start ((checkSend w merchantId mode id).map .send)
  | .voidInvoice merchantId mode id => w.start ((checkVoid w merchantId mode id).map .void)
  | .close merchantId mode id to_ => close merchantId mode id to_ w
  | .stamp id txHash => w.updateSessions (stampable id) (stamped txHash)
  | .sweepInvoices => w.spawn (.overdue (overdueDue w))
  | .sweepSessions => w.spawn (.expiry (expiryDue w))
  | .project in_ merchantId => w.spawn (.settle in_ merchantId (settledSession w in_ merchantId))
  | .checkout slug productId =>
      match checkCheckout w slug productId with
      | .ok (.reserve merchantId product) => w.spawn (.checkout merchantId product)
      | _ => w
  | .run k id =>
      match w.tasks[k]? with
      | none => w
      | some t => runTask arcMode id (w.finish k) t
  | .drop k => w.finish k

end Strimz.Sessions
