import Strimz.Delivery

/-!
# What a delivery goes through

Under `Clean` a step does one of four things to the rows and to the requests in flight: it
leaves them, it posts the current attempt of a row that has no request in flight, it settles
a row, or it counts a failed attempt. `step_effect` says so, and the invariant of the rows is
derived from it.
-/

namespace Strimz.Webhooks

namespace Delivery

open Runs

variable {maxAttempts : Nat} {w w' : World} {l : Label} {x : Id} {k : Nat} {wk : Worker}
  {d row : WebhookDelivery} {f : WebhookDelivery → WebhookDelivery}

/-- The row of a request that was sent, and whose outcome is not written yet. -/
def Worker.flight (wk : Worker) : Option WebhookDelivery :=
  match wk.stage with
  | .await d _ | .record d _ _ => some d
  | _ => none

def World.flights (w : World) : List WebhookDelivery := w.workers.filterMap Worker.flight

def World.requestsOf (w : World) (x : Id) : Nat := w.requests.countP fun q => q.deliveryId = x

def World.Open (w : World) (x : Id) : Prop :=
  ∃ row ∈ w.deliveries, row.id = x ∧ terminal row.status = false

instance (w : World) (x : Id) : Decidable (w.Open x) :=
  inferInstanceAs (Decidable (∃ row ∈ w.deliveries, row.id = x ∧ terminal row.status = false))

/-- A job posts only what its row still asks for, and only if no other request for it is out;
and it writes over no end state. -/
def Stage.Clean (w : World) : Stage → Prop
  | .post d _ _ =>
      (∃ row ∈ w.deliveries, row.id = d.id ∧ row.attempt = d.attempt ∧
        terminal row.status = false) ∧ d.id ∉ w.flights.map (·.id)
  | .record d _ _ | .unsigned d _ => w.Open d.id
  | _ => True

instance (w : World) : DecidablePred (Stage.Clean w)
  | .post d _ _ => inferInstanceAs (Decidable ((∃ row ∈ w.deliveries, row.id = d.id ∧
      row.attempt = d.attempt ∧ terminal row.status = false) ∧ d.id ∉ w.flights.map (·.id)))
  | .record d _ _ | .unsigned d _ => inferInstanceAs (Decidable (w.Open d.id))
  | .load | .secret _ _ _ | .await _ _ | .retry _ | .countFailures _ | .disable _ =>
      inferInstanceAs (Decidable True)

/-- Besides, no job dies between its request and the write of its outcome, and the stranded
rows fit into one sweep. -/
def Clean (w : World) : Label → Prop
  | .advance k => ∀ wk ∈ w.workers[k]?, wk.stage.Clean w
  | .crash k _ => ∀ wk ∈ w.workers[k]?, wk.flight = none
  | .sweep _ => (w.deliveries.filter w.stranded).length ≤ sweepBatch
  | _ => True

instance (w : World) : DecidablePred (Clean w)
  | .advance k => inferInstanceAs (Decidable (∀ wk ∈ w.workers[k]?, wk.stage.Clean w))
  | .crash k _ => inferInstanceAs (Decidable (∀ wk ∈ w.workers[k]?, wk.flight = none))
  | .sweep _ =>
      inferInstanceAs (Decidable ((w.deliveries.filter w.stranded).length ≤ sweepBatch))
  | .take _ | .secret _ _ | .answer _ _ | .sweepOn _ | .sweepCrash _ | .create _ _
  | .configure _ | .elapse _ => inferInstanceAs (Decidable True)

/-! ## Rows and workers -/

@[simp] theorem mapRow_requests : (w.mapRow x f).requests = w.requests := rfl

@[simp] theorem mapRow_flights : (w.mapRow x f).flights = w.flights := rfl

@[simp] theorem putWorker_deliveries {next : Option Worker} :
    (w.putWorker k next).deliveries = w.deliveries := rfl

@[simp] theorem putWorker_requests {next : Option Worker} :
    (w.putWorker k next).requests = w.requests := rfl

theorem workers_split (hk : w.workers[k]? = some wk) :
    w.workers = w.workers.take k ++ [wk] ++ w.workers.drop (k + 1) := by
  obtain ⟨hlt, rfl⟩ := List.getElem?_eq_some_iff.mp hk
  simp

theorem flights_split (hk : w.workers[k]? = some wk) :
    w.flights = (w.workers.take k).filterMap Worker.flight ++ wk.flight.toList ++
      (w.workers.drop (k + 1)).filterMap Worker.flight := by
  have hsplit := congrArg (List.filterMap Worker.flight) (workers_split hk)
  rw [List.filterMap_append, List.filterMap_append] at hsplit
  rw [World.flights, hsplit]
  cases hf : wk.flight <;> simp [hf]

theorem putWorker_flights {next : Option Worker} :
    (w.putWorker k next).flights = (w.workers.take k).filterMap Worker.flight ++
      (next.bind Worker.flight).toList ++
      (w.workers.drop (k + 1)).filterMap Worker.flight := by
  rw [World.flights, World.putWorker, List.filterMap_append, List.filterMap_append]
  cases next with
  | none => rfl
  | some wk' => cases hf : wk'.flight <;> simp [hf]

/-- A worker that goes on without sending or writing changes nothing in flight. -/
theorem putWorker_flights_of_eq {next : Option Worker} (hk : w.workers[k]? = some wk)
    (hnext : next.bind Worker.flight = wk.flight) : (w.putWorker k next).flights = w.flights := by
  rw [putWorker_flights, flights_split hk, hnext]

/-! ## Effects -/

/-- The row is settled: it keeps its attempt and ends. -/
structure Settles (f : WebhookDelivery → WebhookDelivery) : Prop where
  id : ∀ d, (f d).id = d.id
  attempt : ∀ d, (f d).attempt = d.attempt
  terminal : ∀ d, terminal (f d).status = true

/-- The row waits for its next attempt, or just for a later sweep. -/
structure Defers (f : WebhookDelivery → WebhookDelivery) : Prop where
  id : ∀ d, (f d).id = d.id
  attempt : ∀ d, (f d).attempt = d.attempt
  status : ∀ d, (f d).status = d.status

inductive Effect (maxAttempts : Nat) (w w' : World) : Prop
  | quiet (deliveries : w'.deliveries = w.deliveries) (requests : w'.requests = w.requests)
      (flights : w'.flights = w.flights)
  | created (d : WebhookDelivery) (new : ∀ row ∈ w.deliveries, row.id ≠ d.id)
      (first : d.attempt = 1) (status : d.status = .pending)
      (deliveries : w'.deliveries = w.deliveries ++ [d]) (requests : w'.requests = w.requests)
      (flights : w'.flights = w.flights)
  | deferred (x : Id) (f : WebhookDelivery → WebhookDelivery) (defers : Defers f)
      (deliveries : w'.deliveries = (w.mapRow x f).deliveries)
      (requests : w'.requests = w.requests) (flights : w'.flights = w.flights)
  | posted (d row : WebhookDelivery) (q : Request) (pre post : List WebhookDelivery)
      (mem : row ∈ w.deliveries) (id : row.id = d.id) (attempt : row.attempt = d.attempt)
      (live : terminal row.status = false) (alone : d.id ∉ w.flights.map (·.id))
      (deliveries : w'.deliveries = w.deliveries) (request : q.deliveryId = d.id)
      (requests : w'.requests = w.requests ++ [q]) (flights : w.flights = pre ++ post)
      (flights' : w'.flights = pre ++ d :: post)
  | answered (d : WebhookDelivery) (f : WebhookDelivery → WebhookDelivery)
      (pre post : List WebhookDelivery) (settles : Settles f) (live : w.Open d.id)
      (deliveries : w'.deliveries = (w.mapRow d.id f).deliveries)
      (requests : w'.requests = w.requests) (flights : w.flights = pre ++ d :: post)
      (flights' : w'.flights = pre ++ post)
  | failed (d : WebhookDelivery) (f : WebhookDelivery → WebhookDelivery)
      (pre post : List WebhookDelivery) (id : ∀ row, (f row).id = row.id)
      (attempt : ∀ row, (f row).attempt = d.attempt + 1) (left : d.attempt < maxAttempts)
      (live : w.Open d.id)
      (deliveries : w'.deliveries = (w.mapRow d.id f).deliveries)
      (requests : w'.requests = w.requests) (flights : w.flights = pre ++ d :: post)
      (flights' : w'.flights = pre ++ post)
  | unsigned (d : WebhookDelivery) (f : WebhookDelivery → WebhookDelivery) (settles : Settles f)
      (live : w.Open d.id) (deliveries : w'.deliveries = (w.mapRow d.id f).deliveries)
      (requests : w'.requests = w.requests) (flights : w'.flights = w.flights)

theorem settles_markDelivered (now : Int) (r : Reply) : Settles (markDelivered now r) :=
  ⟨fun _ => rfl, fun _ => rfl, fun _ => rfl⟩

theorem settles_markPermanentlyFailed (httpStatus : Nat) (lastError : String) :
    Settles (markPermanentlyFailed httpStatus lastError) :=
  ⟨fun _ => rfl, fun _ => rfl, fun _ => rfl⟩

theorem defers_bump (now : Int) : Defers (bump now) :=
  ⟨fun _ => rfl, fun _ => rfl, fun _ => rfl⟩

theorem record_effect {job : WebhookDeliveryJob} {ep : MerchantWebhookEndpoint} {r : Reply}
    (hk : w.workers[k]? = some ⟨job, .record d ep r⟩) (hopen : w.Open d.id) :
    Effect maxAttempts w (w.record maxAttempts k job d ep r) := by
  have hflights := flights_split hk
  simp only [Worker.flight, Option.toList_some, List.append_assoc, List.singleton_append]
    at hflights
  unfold World.record
  split_ifs with hok hlast
  · refine .answered d _ _ _ (settles_markDelivered w.now r) hopen rfl rfl hflights ?_
    rw [putWorker_flights]
    simp [World.mapRow]
  · refine .answered d _ _ _ (settles_markPermanentlyFailed r.status r.lastError) hopen rfl rfl
      hflights ?_
    rw [putWorker_flights]
    simp [World.mapRow, Worker.flight]
  · refine .failed d (markRetrying w.now r d) _ _ (fun _ => rfl) (fun _ => rfl) (by omega) hopen
      rfl rfl hflights ?_
    rw [putWorker_flights]
    simp [World.mapRow, Worker.flight]

theorem advance_effect (hk : w.workers[k]? = some wk) (hclean : Clean w (.advance k)) :
    Effect maxAttempts w (w.advance maxAttempts k wk) := by
  have hclean := hclean wk hk
  obtain ⟨job, stage⟩ := wk
  cases stage with
  | load =>
      refine .quiet rfl rfl (putWorker_flights_of_eq hk ?_)
      simp only [World.load]
      split
      · split <;> rfl
      · rfl
  | secret d ep ev => exact .quiet rfl rfl rfl
  | post d ep ev =>
      obtain ⟨⟨row, hmem, hid, hattempt, hlive⟩, halone⟩ := hclean
      have hflights := flights_split hk
      simp only [Worker.flight, Option.toList_none, List.append_nil] at hflights
      refine .posted d row _ _ _ hmem hid hattempt hlive halone rfl rfl rfl hflights ?_
      rw [World.advance, putWorker_flights]
      simp [Worker.flight]
  | await d ep => exact .quiet rfl rfl rfl
  | record d ep r => exact record_effect hk hclean
  | unsigned d ep =>
      refine .unsigned d _ (settles_markPermanentlyFailed _ _) hclean rfl rfl ?_
      exact putWorker_flights_of_eq (w := w.mapRow _ _) hk rfl
  | retry d =>
      exact .quiet rfl rfl (putWorker_flights_of_eq (w := { w with queue := _ }) hk rfl)
  | countFailures ep =>
      simp only [World.advance]
      split_ifs
      · exact .quiet rfl rfl (putWorker_flights_of_eq hk rfl)
      · exact .quiet rfl rfl (putWorker_flights_of_eq hk rfl)
  | disable ep =>
      exact .quiet rfl rfl (putWorker_flights_of_eq (w := w.disable ep.id) hk rfl)

theorem sweepOn_effect (s : Sweep) : Effect maxAttempts w (w.sweepOn k s) := by
  unfold World.sweepOn
  split
  · exact .quiet rfl rfl rfl
  · exact .deferred _ _ (defers_bump w.now) rfl rfl rfl
  · exact .quiet rfl rfl rfl

theorem create_effect (d : WebhookDelivery) (enqueued : Bool) :
    Effect maxAttempts w (w.create d enqueued) := by
  unfold World.create
  split
  · exact .quiet rfl rfl rfl
  next hbad =>
    simp only [Bool.or_eq_true, List.any_eq_true, decide_eq_true_eq, not_or, not_exists, not_and,
      ne_eq, not_not] at hbad
    obtain ⟨⟨⟨hnew, hpending⟩, hfirst⟩, -⟩ := hbad
    exact .created d hnew hfirst hpending rfl rfl rfl

theorem step_effect (hclean : Clean w l) : Effect maxAttempts w (step maxAttempts w l) := by
  cases l with
  | take i =>
      simp only [step]
      split
      · split_ifs
        · refine .quiet rfl rfl ?_
          simp [World.flights, Worker.flight]
        · exact .quiet rfl rfl rfl
      · exact .quiet rfl rfl rfl
  | advance k =>
      simp only [step]
      split
      next wk hk => exact advance_effect hk hclean
      next => exact .quiet rfl rfl rfl
  | secret k found =>
      simp only [step]
      split
      next job d ep ev hk =>
        refine .quiet rfl rfl (putWorker_flights_of_eq hk ?_)
        cases found <;> rfl
      next => exact .quiet rfl rfl rfl
  | answer k r =>
      simp only [step]
      split
      next job d ep hk => exact .quiet rfl rfl (putWorker_flights_of_eq hk rfl)
      next => exact .quiet rfl rfl rfl
  | crash k stalled =>
      simp only [step]
      split
      next wk hk =>
        exact .quiet rfl rfl
          (putWorker_flights_of_eq (w := { w with queue := _ }) hk (hclean wk hk).symm)
      next => exact .quiet rfl rfl rfl
  | sweep chosen =>
      simp only [step]
      split_ifs
      · exact .quiet rfl rfl rfl
      · exact .quiet rfl rfl rfl
  | sweepOn k =>
      simp only [step]
      split
      · exact sweepOn_effect _
      · exact .quiet rfl rfl rfl
  | sweepCrash k => exact .quiet rfl rfl rfl
  | create d enqueued => exact create_effect d enqueued
  | configure endpoints => exact .quiet rfl rfl rfl
  | elapse ms => exact .quiet rfl rfl rfl

end Delivery

end Strimz.Webhooks
