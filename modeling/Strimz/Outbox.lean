import Mathlib.Data.List.Sort
import Strimz.Runs
import Strimz.Webhooks

/-!
# The outbox dispatcher

`WebhookOutboxService.tickNow` (`apps/scheduler/src/infra/webhook-outbox`), taken apart at
its statements. A tick claims a batch in one statement and then walks through it; any
replica may have ticks under way, and between two statements anything else may run. A
statement may fail, which the `catch` answers with one more statement; when that one fails
too the tick ends with what it has left, as it does when the process dies. What `hydrate`
reads of other tables is a parameter, and so are the ids `uuid()` hands out.
-/

namespace Strimz.Webhooks

open Indexer

namespace Outbox

def batchSize : Nat := 100

/-- Where the dispatch of one event stands: the statement that runs next. -/
inductive Stage where
  | hydrate
  | store (body : Envelope)
  | findEndpoints (wireType : String)
  /-- The row of the `i`-th endpoint. -/
  | createDelivery (wireType : String) (endpoints : List MerchantWebhookEndpoint) (i : Nat)
  /-- The job of the row just created for the `i`-th endpoint. -/
  | enqueue (wireType : String) (endpoints : List MerchantWebhookEndpoint) (i : Nat)
      (d : WebhookDelivery) (ep : MerchantWebhookEndpoint)
  /-- The `catch`. -/
  | release (message : String) (permanent : Bool)
deriving DecidableEq

/-- A tick under way: the event it dispatches and the claimed ones it has not come to. -/
structure Tick where
  event : WebhookEvent
  stage : Stage
  rest : List WebhookEvent
deriving DecidableEq

structure World where
  events : List WebhookEvent
  endpoints : List MerchantWebhookEndpoint
  deliveries : List WebhookDelivery
  jobs : List WebhookDeliveryJob
  ticks : List Tick

inductive Label where
  /-- A replica claims a batch; `locked` are the rows other transactions hold. -/
  | claim (locked : WebhookEvent → Bool)
  /-- The next statement of the `k`-th tick under way succeeds. -/
  | advance (k : Nat) (uuid : Id) (now : Int)
  /-- It fails. -/
  | fail (k : Nat) (message : String) (permanent : Bool)
  /-- The process dies. -/
  | crash (k : Nat)
  /-- A producer writes an event. -/
  | produce (e : WebhookEvent)
  /-- Merchants change their endpoints. -/
  | configure (endpoints : List MerchantWebhookEndpoint)

/-! ## The claim -/

def older (e f : WebhookEvent) : Prop := e.createdAt ≤ f.createdAt

instance : DecidableRel older := fun e f => inferInstanceAs (Decidable (e.createdAt ≤ f.createdAt))

instance : Std.Total older := ⟨fun e f => Int.le_total e.createdAt f.createdAt⟩

instance : IsTrans WebhookEvent older := ⟨fun _ _ _ h h' => Int.le_trans h h'⟩

/-- `ORDER BY "createdAt" LIMIT 100 FOR UPDATE SKIP LOCKED` -/
def World.batch (w : World) (locked : WebhookEvent → Bool) : List WebhookEvent :=
  ((w.events.filter fun e => !e.dispatched && !locked e).insertionSort older).take batchSize

/-- `SET "dispatchedAt" = NOW()` -/
def mark (claimed : List WebhookEvent) (e : WebhookEvent) : WebhookEvent :=
  if e ∈ claimed then { e with dispatched := true } else e

def World.claim (w : World) (locked : WebhookEvent → Bool) : World :=
  match w.batch locked with
  | [] => w
  | e :: rest =>
      { w with
        events := w.events.map (mark (e :: rest))
        ticks := w.ticks ++ [⟨e, .hydrate, rest⟩] }

/-! ## The dispatch of one event -/

def World.mapEvent (w : World) (id : Id) (f : WebhookEvent → WebhookEvent) : World :=
  { w with events := w.events.map fun e => if e.id = id then f e else e }

/-- `buildEnvelope` -/
def buildEnvelope (hydrate : String → String → String) (e : WebhookEvent) : Envelope :=
  match e.payload with
  | .envelope body => body
  | .ref kind ids => ⟨e.id, kind, "2026-04-27", e.mode, e.createdAt, hydrate kind ids⟩

/-- The `where` of `merchantWebhookEndpoint.findMany`. -/
def subscribes (e : WebhookEvent) (wireType : String) (ep : MerchantWebhookEndpoint) : Bool :=
  ep.merchantId = e.merchantId && ep.mode = e.mode && ep.status = .active &&
    ep.events.contains (prismaEventName wireType)

def newDelivery (uuid : Id) (now : Int) (e : WebhookEvent) (wireType : String)
    (ep : MerchantWebhookEndpoint) : WebhookDelivery where
  id := uuid
  merchantId := e.merchantId
  endpointId := ep.id
  eventId := e.id
  eventName := prismaEventName wireType
  status := .pending
  attempt := 1
  responseCode := none
  lastError := none
  nextAttemptAt := none
  deliveredAt := none
  createdAt := now

/-- The next event of the batch; a tick without one is over. -/
def Tick.next (t : Tick) : List Tick :=
  match t.rest with
  | [] => []
  | e :: rest => [⟨e, .hydrate, rest⟩]

/-- The loop of `createDeliveries` before its `i`-th round. -/
def Tick.loop (t : Tick) (wireType : String) (endpoints : List MerchantWebhookEndpoint) (i : Nat) :
    List Tick :=
  if i < endpoints.length then [{ t with stage := .createDelivery wireType endpoints i }]
  else t.next

/-- The `k`-th tick goes on as `next`, or is over. -/
def World.putTick (w : World) (k : Nat) (next : List Tick) : World :=
  { w with ticks := w.ticks.take k ++ next ++ w.ticks.drop (k + 1) }

def World.advance (hydrate : String → String → String) (w : World) (k : Nat) (uuid : Id)
    (now : Int) (t : Tick) : World :=
  match t.stage with
  | .hydrate => w.putTick k [{ t with stage := .store (buildEnvelope hydrate t.event) }]
  | .store body =>
      (w.mapEvent t.event.id fun e => { e with payload := .envelope body, dispatchError := none })
        |>.putTick k [{ t with stage := .findEndpoints body.type }]
  | .findEndpoints wireType =>
      w.putTick k (t.loop wireType (w.endpoints.filter (subscribes t.event wireType)) 0)
  | .createDelivery wireType endpoints i =>
      match endpoints[i]? with
      | some ep =>
          let d := newDelivery uuid now t.event wireType ep
          if w.deliveries.any fun d => d.id = uuid then w
          else
            { w with deliveries := w.deliveries ++ [d] }
              |>.putTick k [{ t with stage := .enqueue wireType endpoints i d ep }]
      | none => w.putTick k t.next
  | .enqueue wireType endpoints i d ep =>
      { w with jobs := w.jobs ++ [deliveryJob d ep] }
        |>.putTick k (t.loop wireType endpoints (i + 1))
  | .release message permanent =>
      (w.mapEvent t.event.id fun e =>
          if permanent then { e with dispatchError := some message }
          else { e with dispatchError := some message, dispatched := false })
        |>.putTick k t.next

/-- A thrown error is caught, unless the `catch` threw it. -/
def Tick.throw (t : Tick) (message : String) (permanent : Bool) : List Tick :=
  match t.stage with
  | .release _ _ => []
  | _ => [{ t with stage := .release message permanent }]

def step (hydrate : String → String → String) (w : World) : Label → World
  | .claim locked => w.claim locked
  | .advance k uuid now =>
      match w.ticks[k]? with
      | some t => w.advance hydrate k uuid now t
      | none => w
  | .fail k message permanent =>
      match w.ticks[k]? with
      | some t => w.putTick k (t.throw message permanent)
      | none => w
  | .crash k => { w with ticks := w.ticks.eraseIdx k }
  | .produce e =>
      if (w.events.any fun f => f.id = e.id) || e.dispatched then w
      else { w with events := w.events ++ [e] }
  | .configure endpoints =>
      if (endpoints.map (·.id)).Nodup then { w with endpoints := endpoints } else w

end Outbox

end Strimz.Webhooks
