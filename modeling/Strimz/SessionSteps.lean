import Strimz.Sessions
import Strimz.InFlight

/-!
# What one statement does to sessions and invoices

Every statement moves the rows of `PaymentSession` by `SessionMove` and the rows of `Invoice`
by `InvoiceMove`, and inserts at most one fresh row of each (`step_sessions`,
`step_invoices`). A task carries what its handler read (`mem_tasks_step`). `Linked` is what
every reachable state has: rows with distinct ids, and sessions of invoices that reserve
nothing.
-/

namespace Strimz.Sessions

open Indexer

/-- `created` or `awaiting_payment`. -/
def Session.IsOpen (s : Session) : Prop := s.row.status ∈ OPEN_SESSION_STATUSES

instance (s : Session) : Decidable s.IsOpen := by
  unfold Session.IsOpen
  infer_instance

/-! ## Moves -/

/-- What a step may make of a session. -/
inductive SessionMove (w : World) : Label → Session → Session → Prop where
  | stays (l : Label) (s : Session) : SessionMove w l s s
  | close {m : RowId} {mode : Mode} {s : Session} (to_ : Closed) (hs : s.IsOpen) :
      SessionMove w (.close m mode s.id to_) s (s.to_ to_.status)
  | stamp {s : Session} (hs : s.IsOpen) (txHash : Bytes32) :
      SessionMove w (.stamp s.id txHash) s (stamped txHash s)
  | expire {k : Nat} {id : RowId} {due : List RowId} {s : Session}
      (ht : w.tasks[k]? = some (.expiry due)) (hs : s.id ∈ due) :
      SessionMove w (.run k id) s (s.to_ .expired)
  | void {k : Nat} {id : RowId} {s : Session} (ht : w.tasks[k]? = some (.voidSession s.id)) :
      SessionMove w (.run k id) s (s.to_ .cancelled)
  | confirm {k : Nat} {id m : RowId} {in_ : OneShotTxInput} {s : Session}
      (ht : w.tasks[k]? = some (.settle in_ m (some s.id))) (hs : s.row.status ≠ .confirmed) :
      SessionMove w (.run k id) s (confirmed in_ s)

/-- What a step may make of an invoice. -/
inductive InvoiceMove (w : World) : Label → Invoice → Invoice → Prop where
  | stays (l : Label) (i : Invoice) : InvoiceMove w l i i
  | send {k : Nat} {id : RowId} {row i : Invoice} (ht : w.tasks[k]? = some (.send row))
      (hi : i.id = row.id) :
      InvoiceMove w (.run k id) i { i with status := .sent, sentAt := some w.now }
  | void {k : Nat} {id : RowId} {row i : Invoice} (ht : w.tasks[k]? = some (.void row))
      (hi : i.id = row.id) : InvoiceMove w (.run k id) i { i with status := .void }
  | overdue {k : Nat} {id : RowId} {due : List RowId} {i : Invoice}
      (ht : w.tasks[k]? = some (.overdue due)) (hi : i.id ∈ due) :
      InvoiceMove w (.run k id) i (setOverdue i)
  | paid {k : Nat} {id m sessionId : RowId} {in_ : OneShotTxInput} {i : Invoice}
      (ht : w.tasks[k]? = some (.settle in_ m (some sessionId)))
      (hi : payable sessionId i = true) : InvoiceMove w (.run k id) i (setPaid w.now i)

/-- A session as it is inserted: one for a product comes from a checkout. -/
def NewSession (w : World) (s : Session) : Prop :=
  s.row.status = .created ∧ ∀ p, s.storefrontProductId = some p →
    ∃ m product, .checkout m product ∈ w.tasks ∧ product.id = p

/-- The session of an invoice: it is there, and it reserves nothing. -/
def Backs (w : World) (sessionId : RowId) : Prop :=
  ∃ s, w.session? sessionId = some s ∧ s.storefrontProductId = none

/-- An invoice as it is inserted, with its session. -/
def NewInvoice (w : World) (i : Invoice) : Prop :=
  i.status = .draft ∧ ∀ sessionId, i.sessionId = some sessionId →
    ∃ s, w.session? sessionId = some s ∧ s.storefrontProductId = none ∧ s.row.status = .created

section Move

variable {w : World} {l : Label}

/-- A move keeps everything but the status, the transaction and the payer. -/
theorem SessionMove.keeps {s s' : Session} (h : SessionMove w l s s') :
    s'.id = s.id ∧ s'.storefrontProductId = s.storefrontProductId ∧
      s'.row.merchantId = s.row.merchantId ∧ s'.row.mode = s.row.mode := by
  cases h <;> exact ⟨rfl, rfl, rfl, rfl⟩

theorem InvoiceMove.keeps {i i' : Invoice} (h : InvoiceMove w l i i') :
    i'.id = i.id ∧ i'.sessionId = i.sessionId := by
  cases h <;> exact ⟨rfl, rfl⟩

end Move

/-! ## The parts of a step -/

section Parts

variable (w : World) (s : Session)

@[simp] theorem release_sessions : (w.release s).sessions = w.sessions := by
  unfold World.release; split <;> rfl

@[simp] theorem release_invoices : (w.release s).invoices = w.invoices := by
  unfold World.release; split <;> rfl

@[simp] theorem release_tasks : (w.release s).tasks = w.tasks := by
  unfold World.release; split <;> rfl

@[simp] theorem release_events : (w.release s).events = w.events := by
  unfold World.release; split <;> rfl

/-- What a sweep does with the rows it returned leaves the rows alone. -/
theorem foldl_expireRow (rows : List Session) : ∀ w : World,
    (rows.foldl expireRow w).sessions = w.sessions ∧
      (rows.foldl expireRow w).invoices = w.invoices ∧
      (rows.foldl expireRow w).tasks = w.tasks ∧
      (rows.foldl expireRow w).events = w.events ++
        rows.map fun s => ⟨s.row.merchantId, s.row.mode, .paymentFailed s.id "session expired"⟩ := by
  induction rows with
  | nil => exact fun w => ⟨rfl, rfl, rfl, (List.append_nil _).symm⟩
  | cons s rows ih =>
      intro w
      obtain ⟨hs, hi, ht, he⟩ := ih (expireRow w s)
      refine ⟨hs.trans (release_sessions w s), hi.trans (release_invoices w s),
        ht.trans (release_tasks w s), ?_⟩
      rw [List.foldl_cons, he, expireRow, World.emit, release_events, List.append_assoc]
      rfl

theorem expire_rows (due : List RowId) :
    (expire due w).sessions = Table.updateWhere (·.id ∈ due) (Session.to_ .expired) w.sessions ∧
      (expire due w).invoices = w.invoices ∧ (expire due w).tasks = w.tasks ∧
      (expire due w).events = w.events ++
        (Table.returning (·.id ∈ due) (Session.to_ .expired) w.sessions).map fun s =>
          ⟨s.row.merchantId, s.row.mode, .paymentFailed s.id "session expired"⟩ :=
  foldl_expireRow _ _

/-- A step of `close` is the update, and a unit may go back. -/
theorem close_eq (m : RowId) (mode : Mode) (id : RowId) (to_ : Closed) :
    ∃ w', w' = w.updateSessions (closable m mode id) (Session.to_ to_.status) ∧
      (close m mode id to_ w = w' ∨ ∃ row, close m mode id to_ w = w'.release row) := by
  refine ⟨_, rfl, ?_⟩
  unfold close
  dsimp only
  split
  · exact .inl rfl
  · split
    · exact .inr ⟨_, rfl⟩
    · exact .inl rfl

theorem close_rows (m : RowId) (mode : Mode) (id : RowId) (to_ : Closed) :
    (close m mode id to_ w).sessions =
        Table.updateWhere (closable m mode id) (Session.to_ to_.status) w.sessions ∧
      (close m mode id to_ w).invoices = w.invoices ∧
      (close m mode id to_ w).tasks = w.tasks ∧ (close m mode id to_ w).events = w.events := by
  obtain ⟨w', rfl, h | ⟨row, h⟩⟩ := close_eq w m mode id to_
  · rw [h]
    exact ⟨rfl, rfl, rfl, rfl⟩
  · rw [h, release_sessions, release_invoices, release_tasks, release_events]
    exact ⟨rfl, rfl, rfl, rfl⟩

/-- The insert of a checkout, with or without a unit taken. -/
theorem reserve_cases (a : Mode) (id m : RowId) (p : StorefrontProduct) :
    reserve a id m p w = w ∨
      w.session? id = none ∧ ∃ products, reserve a id m p w =
        { w with products := products }.insertSession
          (newSession id m a p.price p.currency (w.now + 30 * 60000) (some p.id)) := by
  unfold reserve
  dsimp only
  by_cases hid : w.session? id = none
  · rw [if_neg (by simp [hid])]
    split
    · exact .inr ⟨hid, w.products, rfl⟩
    · split
      · exact .inl rfl
      · exact .inr ⟨hid, _, rfl⟩
  · exact .inl (if_pos hid)

/-- What the insert of a payment does: nothing, a row without a session, or the settlement. -/
theorem settle_cases (in_ : OneShotTxInput) (m : RowId) (sessionId : Option RowId) :
    settle in_ m sessionId w = w ∨
      (sessionId = none ∧
        settle in_ m sessionId w = { w with transactions := w.transactions ++ [(in_.key, none)] }) ∨
      ∃ id, sessionId = some id ∧ w.transactions.any (·.2 = some id) = false ∧
        settle in_ m sessionId w = settleSession in_ m id
          { w with transactions := w.transactions ++ [(in_.key, some id)] } := by
  unfold settle
  split
  · exact .inl rfl
  · cases sessionId with
    | none => exact .inr (.inl ⟨rfl, rfl⟩)
    | some id =>
        dsimp only
        split
        · exact .inl rfl
        · rename_i h
          exact .inr (.inr ⟨id, rfl, Bool.eq_false_iff.mpr h, rfl⟩)

theorem settleSession_rows (in_ : OneShotTxInput) (m id : RowId) :
    (settleSession in_ m id w).sessions =
        Table.updateWhere (fun s => s.id = id ∧ s.row.status ≠ .confirmed) (confirmed in_)
          w.sessions ∧
      (settleSession in_ m id w).invoices =
        Table.updateWhere (payable id) (setPaid w.now) w.invoices ∧
      (settleSession in_ m id w).tasks = w.tasks ∧
      (settleSession in_ m id w).products = w.products ∧
      (settleSession in_ m id w).released = w.released := by
  unfold settleSession
  dsimp only
  split <;> exact ⟨rfl, rfl, rfl, rfl, rfl⟩

end Parts

section Step

variable {a : Mode} {w : World} {l : Label}

/-- The sessions after a step. -/
theorem step_sessions : Table.Steps Session.id (SessionMove w l) (NewSession w) w.sessions
    (step a w l).sessions := by
  have hsame {l : Label} :
      Table.Steps Session.id (SessionMove w l) (NewSession w) w.sessions w.sessions :=
    Table.Steps.same (SessionMove.stays l)
  cases l with
  | wait | putStorefront | archiveProduct | sweepInvoices | sweepSessions | project | drop =>
      exact hsame
  | createProduct p => unfold step; dsimp only; split <;> exact hsame
  | createSession id m mode amount currency minutes =>
      unfold step; dsimp only
      split
      · exact Table.Steps.insert (SessionMove.stays _) ⟨rfl, fun _ h => nomatch h⟩ ‹_›
      · exact hsame
  | createInvoice id sessionId m mode total currency email days =>
      unfold step createInvoice; dsimp only
      split
      · exact hsame
      · rename_i h
        exact Table.Steps.insert (SessionMove.stays _) ⟨rfl, fun _ h => nomatch h⟩
          (not_not.mp (not_or.mp h).1)
  | send m mode id => unfold step World.start; dsimp only; split <;> exact hsame
  | voidInvoice m mode id => unfold step World.start; dsimp only; split <;> exact hsame
  | close m mode id to_ =>
      unfold step; dsimp only
      rw [(close_rows w m mode id to_).1]
      refine Table.Steps.update (SessionMove.stays _) fun s hs => ?_
      obtain ⟨rfl, -, -, hopen⟩ := of_decide_eq_true hs
      exact .close to_ hopen
  | stamp id txHash =>
      refine Table.Steps.update (SessionMove.stays _) fun s hs => ?_
      obtain ⟨rfl, hopen⟩ := of_decide_eq_true hs
      exact .stamp hopen txHash
  | checkout slug productId => unfold step; dsimp only; split <;> exact hsame
  | run k id =>
      unfold step; dsimp only
      split
      · exact hsame
      · rename_i t ht
        cases t with
        | send row | overdue due => exact hsame
        | void row => unfold runTask; dsimp only; split <;> exact hsame
        | voidSession sessionId =>
            refine Table.Steps.update (SessionMove.stays _) fun s hs => ?_
            obtain rfl : s.id = sessionId := of_decide_eq_true hs
            exact .void ht
        | expiry due =>
            unfold runTask; dsimp only
            rw [(expire_rows (w.finish k) due).1]
            exact Table.Steps.update (SessionMove.stays _) fun s hs =>
              .expire ht (of_decide_eq_true hs)
        | checkout m p =>
            unfold runTask; dsimp only
            rcases reserve_cases (w.finish k) a id m p with h | ⟨hid, products, h⟩
            · rw [h]; exact hsame
            · rw [h]
              refine Table.Steps.insert (SessionMove.stays _) ⟨rfl, fun q hq => ?_⟩ hid
              exact ⟨m, p, List.mem_of_getElem? ht, Option.some.inj hq⟩
        | settle in_ m sessionId =>
            unfold runTask; dsimp only
            rcases settle_cases (w.finish k) in_ m sessionId with h | ⟨-, h⟩ | ⟨sid, rfl, -, h⟩
            · rw [h]; exact hsame
            · rw [h]; exact hsame
            · rw [h, (settleSession_rows _ in_ m sid).1]
              refine Table.Steps.update (SessionMove.stays _) fun s hs => ?_
              obtain ⟨rfl, hstatus⟩ := of_decide_eq_true hs
              exact .confirm ht hstatus

/-- The invoices after a step. -/
theorem step_invoices : Table.Steps Invoice.id (InvoiceMove w l) (NewInvoice (step a w l))
    w.invoices (step a w l).invoices := by
  have hsame {l : Label} {w' : World} :
      Table.Steps Invoice.id (InvoiceMove w l) (NewInvoice w') w.invoices w.invoices :=
    Table.Steps.same (InvoiceMove.stays l)
  cases l with
  | wait | putStorefront | archiveProduct | sweepInvoices | sweepSessions | project | drop
  | stamp => exact hsame
  | createProduct p => unfold step; dsimp only; split <;> exact hsame
  | createSession => unfold step; dsimp only; split <;> exact hsame
  | createInvoice id sessionId m mode total currency email days =>
      unfold step createInvoice; dsimp only
      split
      · exact hsame
      · rename_i h
        have hsession := not_not.mp (not_or.mp h).1
        refine Table.Steps.insert (InvoiceMove.stays _) ⟨rfl, fun sid hsid => ?_⟩
          (not_not.mp (not_or.mp h).2)
        obtain rfl : sessionId = sid := Option.some.inj hsid
        refine ⟨newSession sessionId m mode total currency (w.now + days * 86400000) none, ?_, rfl,
          rfl⟩
        refine Table.find_concat.trans ?_
        rw [show Table.find Session.id w.sessions sessionId = none from hsession]
        exact if_pos rfl
  | send m mode id => unfold step World.start; dsimp only; split <;> exact hsame
  | voidInvoice m mode id => unfold step World.start; dsimp only; split <;> exact hsame
  | close m mode id to_ =>
      unfold step; dsimp only
      rw [(close_rows w m mode id to_).2.1]
      exact hsame
  | checkout slug productId => unfold step; dsimp only; split <;> exact hsame
  | run k id =>
      unfold step; dsimp only
      split
      · exact hsame
      · rename_i t ht
        cases t with
        | send row =>
            exact Table.Steps.update (InvoiceMove.stays _) fun i hi =>
              .send ht (of_decide_eq_true hi)
        | void row =>
            unfold runTask; dsimp only
            split <;> exact Table.Steps.update (InvoiceMove.stays _) fun i hi =>
              .void ht (of_decide_eq_true hi)
        | voidSession sessionId => exact hsame
        | overdue due =>
            exact Table.Steps.update (InvoiceMove.stays _) fun i hi =>
              .overdue ht (of_decide_eq_true hi)
        | expiry due =>
            unfold runTask; dsimp only
            rw [(expire_rows (w.finish k) due).2.1]
            exact hsame
        | checkout m p =>
            unfold runTask; dsimp only
            rcases reserve_cases (w.finish k) a id m p with h | ⟨-, products, h⟩
            · rw [h]; exact hsame
            · rw [h]; exact hsame
        | settle in_ m sessionId =>
            unfold runTask; dsimp only
            rcases settle_cases (w.finish k) in_ m sessionId with h | ⟨-, h⟩ | ⟨sid, rfl, -, h⟩
            · rw [h]; exact hsame
            · rw [h]; exact hsame
            · rw [h, (settleSession_rows _ in_ m sid).2.1]
              exact Table.Steps.update (InvoiceMove.stays _) fun i hi => .paid ht hi

end Step

/-! ## Tasks -/

/-- What a task carries when a step adds it. -/
inductive Spawned (w : World) : Task → Prop where
  | send {row : Invoice} (h : row ∈ w.invoices) : Spawned w (.send row)
  | void {row : Invoice} (h : row ∈ w.invoices) : Spawned w (.void row)
  | voidSession {row : Invoice} {sessionId : RowId} (h : .void row ∈ w.tasks)
      (hs : row.sessionId = some sessionId) : Spawned w (.voidSession sessionId)
  | overdue (due : List RowId) : Spawned w (.overdue due)
  | expiry (due : List RowId) : Spawned w (.expiry due)
  | checkout (m : RowId) {p : StorefrontProduct} (h : p ∈ w.products) : Spawned w (.checkout m p)
  | settle (in_ : OneShotTxInput) (m : RowId) (sessionId : Option RowId) :
      Spawned w (.settle in_ m sessionId)

theorem checkSend_mem {w : World} {m id : RowId} {mode : Mode} {row : Invoice}
    (h : checkSend w m mode id = .ok row) : row ∈ w.invoices := by
  unfold checkSend at h
  split at h
  · cases h
  · rename_i row' hrow
    split at h
    · cases h
    · split at h
      · cases h
      · cases h
        exact List.mem_of_find?_eq_some hrow

theorem checkVoid_mem {w : World} {m id : RowId} {mode : Mode} {row : Invoice}
    (h : checkVoid w m mode id = .ok row) : row ∈ w.invoices := by
  unfold checkVoid at h
  split at h
  · cases h
  · rename_i row' hrow
    split at h
    · cases h
    · cases h
      exact List.mem_of_find?_eq_some hrow

/-- A reservation is for a product that was listed with a unit left. -/
theorem checkCheckout_reserve {w : World} {slug : String} {productId m : RowId}
    {product : StorefrontProduct} (h : checkCheckout w slug productId = .ok (.reserve m product)) :
    product ∈ w.products := by
  unfold checkCheckout at h
  split at h
  · cases h
  · split at h
    · cases h
    · split at h
      · cases h
      · rename_i product' hproduct
        split at h
        · cases h
        · split at h
          · cases h
          · cases h
          · cases h
            exact List.mem_of_find?_eq_some hproduct

section Step

variable {a : Mode} {w : World} {l : Label} {t : Task}

theorem mem_spawn {t' : Task} (h : t ∈ (w.spawn t').tasks) : t ∈ w.tasks ∨ t = t' := by
  rcases List.mem_append.mp h with h | h
  · exact .inl h
  · exact .inr (List.mem_singleton.mp h)

theorem mem_finish {k : Nat} (h : t ∈ (w.finish k).tasks) : t ∈ w.tasks :=
  List.mem_of_mem_eraseIdx h

/-- A task after a step was there before, or carries what the step read. -/
theorem mem_tasks_step (h : t ∈ (step a w l).tasks) : t ∈ w.tasks ∨ Spawned w t := by
  have hnew {t' : Task} (ht' : Spawned w t') (h : t ∈ (w.spawn t').tasks) :
      t ∈ w.tasks ∨ Spawned w t := by
    rcases mem_spawn h with h | rfl
    · exact .inl h
    · exact .inr ht'
  cases l with
  | wait | putStorefront | archiveProduct | stamp => exact .inl h
  | createProduct p => unfold step at h; dsimp only at h; split at h <;> exact .inl h
  | createSession => unfold step at h; dsimp only at h; split at h <;> exact .inl h
  | createInvoice => unfold step createInvoice at h; dsimp only at h; split at h <;> exact .inl h
  | send m mode id =>
      unfold step at h; dsimp only at h
      cases hc : checkSend w m mode id with
      | error e => rw [hc] at h; exact .inl h
      | ok row => rw [hc] at h; exact hnew (.send (checkSend_mem hc)) h
  | voidInvoice m mode id =>
      unfold step at h; dsimp only at h
      cases hc : checkVoid w m mode id with
      | error e => rw [hc] at h; exact .inl h
      | ok row => rw [hc] at h; exact hnew (.void (checkVoid_mem hc)) h
  | close m mode id to_ =>
      unfold step at h; dsimp only at h
      rw [(close_rows w m mode id to_).2.2.1] at h
      exact .inl h
  | sweepInvoices => exact hnew (.overdue _) h
  | sweepSessions => exact hnew (.expiry _) h
  | project in_ m => exact hnew (.settle in_ m _) h
  | checkout slug productId =>
      unfold step at h; dsimp only at h
      split at h
      · exact hnew (.checkout _ (checkCheckout_reserve ‹_›)) h
      · exact .inl h
  | drop k => exact .inl (mem_finish h)
  | run k id =>
      unfold step at h; dsimp only at h
      split at h
      · exact .inl h
      · rename_i t' ht'
        cases t' with
        | send | voidSession | overdue => exact .inl (mem_finish h)
        | void row =>
            unfold runTask at h; dsimp only at h
            split at h
            · exact .inl (mem_finish h)
            · rename_i sessionId hs
              rcases mem_spawn h with h | rfl
              · exact .inl (mem_finish h)
              · exact .inr (.voidSession (List.mem_of_getElem? ht') hs)
        | expiry due =>
            unfold runTask at h; dsimp only at h
            rw [(expire_rows (w.finish k) due).2.2.1] at h
            exact .inl (mem_finish h)
        | checkout m p =>
            unfold runTask at h; dsimp only at h
            rcases reserve_cases (w.finish k) a id m p with hr | ⟨-, products, hr⟩
            · rw [hr] at h; exact .inl (mem_finish h)
            · rw [hr] at h; exact .inl (mem_finish h)
        | settle in_ m sessionId =>
            unfold runTask at h; dsimp only at h
            rcases settle_cases (w.finish k) in_ m sessionId with hr | ⟨-, hr⟩ | ⟨sid, rfl, -, hr⟩
            · rw [hr] at h; exact .inl (mem_finish h)
            · rw [hr] at h; exact .inl (mem_finish h)
            · rw [hr, (settleSession_rows _ in_ m sid).2.2.1] at h
              exact .inl (mem_finish h)

end Step

/-! ## Linked rows -/

/-- What every reachable state has. -/
structure Linked (w : World) : Prop where
  sessionIds : (w.sessions.map (·.id)).Nodup
  invoiceIds : (w.invoices.map (·.id)).Nodup
  backed : ∀ i ∈ w.invoices, ∀ sessionId, i.sessionId = some sessionId → Backs w sessionId
  voiding : ∀ row, .void row ∈ w.tasks → ∀ sessionId, row.sessionId = some sessionId →
    Backs w sessionId
  cancelling : ∀ sessionId, .voidSession sessionId ∈ w.tasks → Backs w sessionId

theorem linked_empty (now : Int) : Linked (World.empty now) where
  sessionIds := List.nodup_nil
  invoiceIds := List.nodup_nil
  backed := fun _ h => absurd h List.not_mem_nil
  voiding := fun _ h => absurd h List.not_mem_nil
  cancelling := fun _ h => absurd h List.not_mem_nil

section Step

variable {a : Mode} {w : World} {l : Label}

theorem session?_step {id : RowId} {s : Session} (h : w.session? id = some s) :
    ∃ s', (step a w l).session? id = some s' ∧ SessionMove w l s s' :=
  step_sessions.find_some (fun _ _ h => h.keeps.1) h

theorem invoice?_step {id : RowId} {i : Invoice} (h : w.invoice? id = some i) :
    ∃ i', (step a w l).invoice? id = some i' ∧ InvoiceMove w l i i' :=
  step_invoices.find_some (fun _ _ h => h.keeps.1) h

theorem Backs.step {id : RowId} (h : Backs w id) : Backs (step a w l) id := by
  obtain ⟨s, hs, hnone⟩ := h
  obtain ⟨s', hs', hmove⟩ := session?_step (a := a) (l := l) hs
  exact ⟨s', hs', hmove.keeps.2.1.trans hnone⟩

theorem Linked.step (h : Linked w) : Linked (step a w l) := by
  refine ⟨step_sessions.nodup (fun _ _ h => h.keeps.1) h.sessionIds,
    step_invoices.nodup (fun _ _ h => h.keeps.1) h.invoiceIds, fun i hi sessionId hs => ?_,
    fun row hrow sessionId hs => ?_, fun sessionId hsession => ?_⟩
  · rcases step_invoices.mem_back hi with ⟨i₀, hi₀, hmove⟩ | ⟨hnew, -⟩
    · exact (h.backed i₀ hi₀ sessionId (hmove.keeps.2.symm.trans hs)).step
    · obtain ⟨s, hfind, hnone, -⟩ := hnew.2 sessionId hs
      exact ⟨s, hfind, hnone⟩
  · rcases mem_tasks_step hrow with hrow | hnew
    · exact (h.voiding row hrow sessionId hs).step
    · cases hnew with
      | void hmem => exact (h.backed row hmem sessionId hs).step
  · rcases mem_tasks_step hsession with hsession | hnew
    · exact (h.cancelling sessionId hsession).step
    · cases hnew with
      | voidSession hrow hs => exact (h.voiding _ hrow sessionId hs).step

end Step

end Strimz.Sessions
