import Strimz.Runs
import Strimz.Webhooks

/-!
# The delivery worker and the recovery sweep

`WebhookDeliveryWorker.process` and `WebhookRecoveryService.sweepNow` (`apps/scheduler`),
taken apart at their `await`s. Workers and sweeps run side by side, a delivery may have any
number of jobs, and a process may die anywhere; a job whose worker died runs again if the
queue finds it stalled. `requests` is what the endpoints received. The reads at the start of
a job are one step, as is the read of a sweep; the secret cache and the endpoints answer as
the run says. Emails and `lastDeliveredAt` are left out.
-/

namespace Strimz.Webhooks

namespace Delivery

/-- `RETRY_BACKOFF_MS` -/
def retryBackoffMs : List Int := [60000, 300000, 1800000, 7200000, 43200000]

def maxBackoffMs : Int := 43200000

/-- `RETRY_BACKOFF_MS[delivery.attempt - 1] ?? MAX_BACKOFF_MS` -/
def backoff (attempt : Nat) : Int := (retryBackoffMs[attempt - 1]?).getD maxBackoffMs

def autoDisableThreshold : Nat := 5

def autoDisableWindowMs : Int := 86400000

def strandedAfterMs : Int := 120000

def maxAgeMs : Int := 604800000

def sweepBatch : Nat := 200

/-- What came of a request. -/
inductive Reply where
  | http (status : Nat) (body : String)
  | network (message : String)
deriving Repr, DecidableEq

def Reply.status : Reply → Nat
  | .http status _ => status
  | .network _ => 0

def Reply.succeeded (r : Reply) : Bool := 200 ≤ r.status && r.status < 300

/-- ``networkError ?? `${httpStatus}: ${responseBody.slice(0, 500)}` `` -/
def Reply.lastError : Reply → String
  | .http status body => toString status ++ ": " ++ String.ofList (body.toList.take 500)
  | .network message => message

/-- `httpStatus || null` -/
def responseCode (status : Nat) : Option Nat := if status = 0 then none else some status

/-- Where a job stands: the statement that runs next, and the rows it has read. -/
inductive Stage where
  | load
  | secret (d : WebhookDelivery) (ep : MerchantWebhookEndpoint) (ev : WebhookEvent)
  | post (d : WebhookDelivery) (ep : MerchantWebhookEndpoint) (ev : WebhookEvent)
  | await (d : WebhookDelivery) (ep : MerchantWebhookEndpoint)
  | record (d : WebhookDelivery) (ep : MerchantWebhookEndpoint) (r : Reply)
  | unsigned (d : WebhookDelivery) (ep : MerchantWebhookEndpoint)
  | retry (d : WebhookDelivery)
  | countFailures (ep : MerchantWebhookEndpoint)
  | disable (ep : MerchantWebhookEndpoint)
deriving DecidableEq

structure Worker where
  job : WebhookDeliveryJob
  stage : Stage
deriving DecidableEq

structure QueuedJob where
  job : WebhookDeliveryJob
  dueAt : Int
deriving DecidableEq

/-- A sweep between its statements: rows to bump, and the job of the row just bumped. -/
structure Sweep where
  todo : List (WebhookDelivery × MerchantWebhookEndpoint)
  bumped : Option WebhookDeliveryJob
deriving DecidableEq

structure Request where
  url : String
  eventId : Id
  deliveryId : Id
  body : Payload
deriving DecidableEq

structure World where
  deliveries : List WebhookDelivery
  endpoints : List MerchantWebhookEndpoint
  events : List WebhookEvent
  queue : List QueuedJob
  workers : List Worker
  sweeps : List Sweep
  requests : List Request
  now : Int

inductive Label where
  /-- A worker takes the `i`-th queued job, if it is due. -/
  | take (i : Nat)
  /-- The next statement of the `k`-th worker succeeds. -/
  | advance (k : Nat)
  /-- The secret cache answers. -/
  | secret (k : Nat) (found : Bool)
  /-- The endpoint answers, or the request fails. -/
  | answer (k : Nat) (r : Reply)
  /-- The worker dies or throws; `stalled` jobs go back to the queue. -/
  | crash (k : Nat) (stalled : Bool)
  /-- A sweep reads the stranded rows, in the order the database likes. -/
  | sweep (chosen : List WebhookDelivery)
  | sweepOn (k : Nat)
  | sweepCrash (k : Nat)
  /-- The dispatcher creates a row, and enqueues its job unless it dies before. -/
  | create (d : WebhookDelivery) (enqueued : Bool)
  /-- Merchants change their endpoints. -/
  | configure (endpoints : List MerchantWebhookEndpoint)
  | elapse (ms : Nat)

/-! ## The worker -/

def terminal (s : WebhookDeliveryStatus) : Bool :=
  s = .delivered || s = .permanently_failed

def World.mapRow (w : World) (x : Id) (f : WebhookDelivery → WebhookDelivery) : World :=
  { w with deliveries := w.deliveries.map fun d => if d.id = x then f d else d }

/-- The `k`-th worker goes on, or is done. -/
def World.putWorker (w : World) (k : Nat) (next : Option Worker) : World :=
  { w with workers := w.workers.take k ++ next.toList ++ w.workers.drop (k + 1) }

/-- The three `findUniqueOrThrow`, and the guard. -/
def World.load (w : World) (job : WebhookDeliveryJob) : Option Stage :=
  match w.deliveries.find? fun d => d.id = job.deliveryId,
    w.endpoints.find? fun ep => ep.id = job.endpointId,
    w.events.find? fun ev => ev.id = job.eventId with
  | some d, some ep, some ev => if terminal d.status then none else some (.secret d ep ev)
  | _, _, _ => none

def markDelivered (now : Int) (r : Reply) (d : WebhookDelivery) : WebhookDelivery :=
  { d with
    status := .delivered
    responseCode := some r.status
    deliveredAt := some now
    nextAttemptAt := none }

def markPermanentlyFailed (httpStatus : Nat) (lastError : String) (d : WebhookDelivery) :
    WebhookDelivery :=
  { d with
    status := .permanently_failed
    responseCode := responseCode httpStatus
    lastError := some lastError
    nextAttemptAt := none }

/-- `seen` is the row as the job read it. -/
def markRetrying (now : Int) (r : Reply) (seen d : WebhookDelivery) : WebhookDelivery :=
  { d with
    status := .retrying
    attempt := seen.attempt + 1
    responseCode := responseCode r.status
    lastError := some r.lastError
    nextAttemptAt := some (now + backoff seen.attempt) }

/-- The write after the answer. -/
def World.record (maxAttempts : Nat) (w : World) (k : Nat) (job : WebhookDeliveryJob)
    (d : WebhookDelivery) (ep : MerchantWebhookEndpoint) (r : Reply) : World :=
  if r.succeeded then (w.mapRow d.id (markDelivered w.now r)).putWorker k none
  else if maxAttempts ≤ d.attempt then
    (w.mapRow d.id (markPermanentlyFailed r.status r.lastError)).putWorker k
      (some ⟨job, .countFailures ep⟩)
  else (w.mapRow d.id (markRetrying w.now r d)).putWorker k (some ⟨job, .retry d⟩)

/-- `webhookDelivery.count` -/
def World.recentFailures (w : World) (endpointId : Id) : Nat :=
  w.deliveries.countP fun d =>
    d.endpointId = endpointId && d.status = .permanently_failed &&
      w.now - autoDisableWindowMs ≤ d.createdAt

def World.isActive (w : World) (endpointId : Id) : Bool :=
  w.endpoints.any fun ep => ep.id = endpointId && ep.status = .active

def World.disable (w : World) (endpointId : Id) : World :=
  { w with endpoints := w.endpoints.map fun ep =>
      if ep.id = endpointId then { ep with status := .disabled } else ep }

/-- The next statement of a worker, outside the two that wait for an answer. -/
def World.advance (maxAttempts : Nat) (w : World) (k : Nat) (wk : Worker) : World :=
  match wk.stage with
  | .load => w.putWorker k ((w.load wk.job).map fun stage => ⟨wk.job, stage⟩)
  | .post d ep ev =>
      ({ w with requests := w.requests ++ [⟨ep.url, ev.id, d.id, ev.payload⟩] } : World).putWorker
        k (some ⟨wk.job, .await d ep⟩)
  | .record d ep r => w.record maxAttempts k wk.job d ep r
  | .unsigned d ep =>
      (w.mapRow d.id (markPermanentlyFailed 0 "signing secret not in cache")).putWorker k
        (some ⟨wk.job, .countFailures ep⟩)
  | .retry d =>
      ({ w with queue := w.queue ++ [⟨wk.job, w.now + backoff d.attempt⟩] } : World).putWorker
        k none
  | .countFailures ep =>
      if autoDisableThreshold ≤ w.recentFailures ep.id && w.isActive ep.id then
        w.putWorker k (some ⟨wk.job, .disable ep⟩)
      else w.putWorker k none
  | .disable ep => (w.disable ep.id).putWorker k none
  | .secret _ _ _ | .await _ _ => w

/-! ## The sweep -/

/-- The `where` of the sweep's `findMany`. -/
def World.stranded (w : World) (d : WebhookDelivery) : Bool :=
  !terminal d.status && w.now - maxAgeMs < d.createdAt &&
    w.isActive d.endpointId &&
    match d.nextAttemptAt with
    | none => d.createdAt < w.now - strandedAfterMs
    | some at_ => at_ < w.now - strandedAfterMs

/-- `take: BATCH`, without an order. -/
def World.batchOk (w : World) (chosen : List WebhookDelivery) : Bool :=
  let found := w.deliveries.filter w.stranded
  (chosen.all fun d => d ∈ found) && (chosen.map (·.id)).Nodup &&
    chosen.length = min sweepBatch found.length

def World.withEndpoint (w : World) (d : WebhookDelivery) :
    Option (WebhookDelivery × MerchantWebhookEndpoint) :=
  (w.endpoints.find? fun ep => ep.id = d.endpointId).map fun ep => (d, ep)

def World.putSweep (w : World) (k : Nat) (next : Option Sweep) : World :=
  { w with sweeps := w.sweeps.take k ++ next.toList ++ w.sweeps.drop (k + 1) }

/-- `nextAttemptAt` moves, so that the next sweep does not pick the row again. -/
def bump (now : Int) (d : WebhookDelivery) : WebhookDelivery :=
  { d with nextAttemptAt := some (now + strandedAfterMs) }

def World.sweepOn (w : World) (k : Nat) (s : Sweep) : World :=
  match s.bumped, s.todo with
  | some job, todo =>
      ({ w with queue := w.queue ++ [⟨job, w.now⟩] } : World).putSweep k (some ⟨todo, none⟩)
  | none, (d, ep) :: todo =>
      (w.mapRow d.id (bump w.now)).putSweep k (some ⟨todo, some (deliveryJob d ep)⟩)
  | none, [] => w.putSweep k none

/-! ## Steps -/

/-- `webhookDelivery.create` and `deliveryQueue.add` of the dispatcher: `id` is the primary key. -/
def World.create (w : World) (d : WebhookDelivery) (enqueued : Bool) : World :=
  if (w.deliveries.any fun d' => d'.id = d.id) || d.status ≠ .pending || d.attempt ≠ 1 ||
      d.nextAttemptAt ≠ none then w
  else
    let jobs := if enqueued then (w.withEndpoint d).toList.map fun (d, ep) => deliveryJob d ep
      else []
    { w with
      deliveries := w.deliveries ++ [d]
      queue := w.queue ++ jobs.map fun job => ⟨job, w.now⟩ }

def step (maxAttempts : Nat) (w : World) : Label → World
  | .take i =>
      match w.queue[i]? with
      | some q =>
          if q.dueAt ≤ w.now then
            { w with queue := w.queue.eraseIdx i, workers := w.workers ++ [⟨q.job, .load⟩] }
          else w
      | none => w
  | .advance k =>
      match w.workers[k]? with
      | some wk => w.advance maxAttempts k wk
      | none => w
  | .secret k found =>
      match w.workers[k]? with
      | some ⟨job, .secret d ep ev⟩ =>
          w.putWorker k (some ⟨job, if found then .post d ep ev else .unsigned d ep⟩)
      | _ => w
  | .answer k r =>
      match w.workers[k]? with
      | some ⟨job, .await d ep⟩ => w.putWorker k (some ⟨job, .record d ep r⟩)
      | _ => w
  | .crash k stalled =>
      match w.workers[k]? with
      | some wk =>
          let queue := if stalled then w.queue ++ [⟨wk.job, w.now⟩] else w.queue
          ({ w with queue := queue } : World).putWorker k none
      | none => w
  | .sweep chosen =>
      if w.batchOk chosen then
        { w with sweeps := w.sweeps ++ [⟨chosen.filterMap w.withEndpoint, none⟩] }
      else w
  | .sweepOn k =>
      match w.sweeps[k]? with
      | some s => w.sweepOn k s
      | none => w
  | .sweepCrash k => w.putSweep k none
  | .create d enqueued => w.create d enqueued
  | .configure endpoints => { w with endpoints := endpoints }
  | .elapse ms => { w with now := w.now + ms }

end Delivery

end Strimz.Webhooks
