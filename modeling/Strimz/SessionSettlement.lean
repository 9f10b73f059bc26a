import Strimz.Runs
import Strimz.DeadLetterSteps

/-!
# Settling payment sessions

Deliveries of `PaymentExecuted` logs, replays included, over any sessions and invoices.
A delivery is held back (its merchant or token is unknown), replayed (its Transaction is
there) or recorded; what a recorded payment does to the session it names is decided by
`mismatches`. The invariant `Books` ties every table to the deliveries seen so far: a
session has a payment iff a log that matches it arrived, and every event is its
session's.
-/

namespace Strimz.Indexer

open Tx Runs

/-- A `PaymentExecuted` log with the time of its block. -/
structure PaymentLog where
  address : Address
  merchantId : Nat
  payer : Address
  token : Address
  amount : Nat
  feeAmount : Nat
  netAmount : Nat
  ref : Bytes
  txHash : Bytes32
  index : Nat
  blockNumber : Nat
  blockTime : Int
deriving DecidableEq

namespace PaymentLog

def log (pay : PaymentLog) : Log :=
  ⟨pay.address, pay.blockNumber, pay.txHash, pay.index,
    .event (.paymentExecuted pay.merchantId pay.payer pay.token pay.amount pay.feeAmount
      pay.netAmount pay.ref)⟩

def key (pay : PaymentLog) : TxKey := ⟨pay.txHash, pay.index⟩

end PaymentLog

namespace Projector

/-- What the projector passes on for a payment in a known token. -/
def oneShotInput (p : Projector) (pay : PaymentLog) (currency : Currency) : OneShotTxInput where
  merchantOnchainId := pay.merchantId
  payerAddress := pay.payer
  amount := pay.amount
  feeAmount := pay.feeAmount
  netAmount := pay.netAmount
  currency := currency
  sessionRef := decodeSessionRef pay.ref
  onchainTxHash := pay.txHash
  blockNumber := pay.blockNumber
  blockTimestamp := pay.blockTime
  logIndex := pay.index
  mode := p.mode

/-- The payment's token is known and its merchant linked, and its columns hold it. -/
structure Takes (p : Projector) (db : Db) (pay : PaymentLog) (in_ : OneShotTxInput)
    (merchant : MerchantRow) : Prop where
  token : ∃ currency, p.tokens pay.token = some currency ∧ in_ = p.oneShotInput pay currency
  merchantId : Int4 pay.merchantId
  linked : db.merchantByOnchain (int64 pay.merchantId) = some merchant
  date : IsDate pay.blockTime

/-- A payment its session asks for. -/
structure Matches (p : Projector) (db : Db) (pay : PaymentLog) (s : RowId)
    (in_ : OneShotTxInput) (m : MerchantRow) (session : PaymentSessionRow) : Prop where
  takes : p.Takes db pay in_ m
  ref : decodeSessionRef pay.ref = s
  named : s ≠ []
  row : db.sessions s = some session
  unconfirmed : session.status ≠ .confirmed
  merchant : session.merchantId = m.id
  amount : sameAmount session.amount pay.amount = true
  currency : session.currency = in_.currency
  mode : session.mode = p.mode

/-- One delivery; one that fails changes nothing. -/
def deliver (p : Projector) (db : Db) (pay : PaymentLog) : Db :=
  commit (p.applyOrPark pay.log pay.blockTime) db

variable {p : Projector} {db db' : Db} {pay : PaymentLog} {in_ : OneShotTxInput} {m : MerchantRow}

/-! ## One delivery -/

theorem apply_payment_eq_ok :
    p.apply pay.log pay.blockTime db = .ok ((), db') ↔
      ∃ in_ m, p.Takes db pay in_ m ∧
        (db.transactions pay.key ≠ none ∧ db' = db ∨
          db.transactions pay.key = none ∧ db' = db.recordOneShot in_ m) := by
  have happly : p.apply pay.log pay.blockTime = (do
      let currency ← p.tokenSymbol pay.token
      let _ ← insertOneShotTransaction (p.oneShotInput pay currency)) := rfl
  rw [happly]
  simp only [tokenSymbol, bind_eq_ok]
  cases htoken : p.tokens pay.token with
  | none =>
      simp only [throw_eq_ok, false_and, exists_false, false_iff, not_exists, not_and]
      intro in_ m htakes
      obtain ⟨currency, hcurrency, -⟩ := htakes.token
      rw [htoken] at hcurrency
      cases hcurrency
  | some currency =>
      simp only [pure_eq_ok, Prod.mk.injEq, existsAndEq, true_and, and_true,
        insertOneShotTransaction_eq_ok]
      constructor
      · rintro ⟨_, hid, hdate, m, hm, h⟩
        refine ⟨_, m, ⟨⟨currency, htoken, rfl⟩, hid, hm, hdate⟩, ?_⟩
        rcases h with ⟨hrow, -, rfl⟩ | ⟨hrow, -, rfl⟩
        · exact Or.inl ⟨hrow, rfl⟩
        · exact Or.inr ⟨hrow, rfl⟩
      · rintro ⟨in_, m, ⟨⟨currency', hcurrency, rfl⟩, hid, hm, hdate⟩, h⟩
        obtain rfl : currency = currency' := Option.some.inj (htoken.symm.trans hcurrency)
        rcases h with ⟨hrow, rfl⟩ | ⟨hrow, rfl⟩
        · exact ⟨0, hid, hdate, m, hm, Or.inl ⟨hrow, rfl, rfl⟩⟩
        · exact ⟨1, hid, hdate, m, hm, Or.inr ⟨hrow, rfl, rfl⟩⟩

theorem Takes.unique {in' : OneShotTxInput} {m' : MerchantRow} (h : p.Takes db pay in_ m)
    (h' : p.Takes db pay in' m') : in' = in_ ∧ m' = m := by
  obtain ⟨currency, hcurrency, rfl⟩ := h.token
  obtain ⟨currency', hcurrency', rfl⟩ := h'.token
  obtain rfl : currency = currency' := Option.some.inj (hcurrency.symm.trans hcurrency')
  exact ⟨rfl, (Option.some.inj (h.linked.symm.trans h'.linked)).symm⟩

/-- What a delivery does to the database. -/
inductive Delivered (p : Projector) (pay : PaymentLog) (db : Db) : Db → Prop where
  | held (letters : List DeadLetter) (h : ∀ in_ m, ¬ p.Takes db pay in_ m) :
      Delivered p pay db { db with deadLetters := letters }
  | replayed {in_ : OneShotTxInput} {m : MerchantRow} (htakes : p.Takes db pay in_ m)
      (hrow : db.transactions pay.key ≠ none) : Delivered p pay db db
  | recorded {in_ : OneShotTxInput} {m : MerchantRow} (htakes : p.Takes db pay in_ m)
      (hrow : db.transactions pay.key = none) : Delivered p pay db (db.recordOneShot in_ m)

theorem delivered (p : Projector) (db : Db) (pay : PaymentLog) :
    Delivered p pay db (p.deliver db pay) := by
  cases happly : p.apply pay.log pay.blockTime db with
  | ok r =>
      obtain ⟨⟨⟩, db'⟩ := r
      rw [deliver, commit_applyOrPark_of_ok happly]
      obtain ⟨in_, m, htakes, ⟨hrow, rfl⟩ | ⟨hrow, rfl⟩⟩ := apply_payment_eq_ok.mp happly
      · exact .replayed htakes hrow
      · exact .recorded htakes hrow
  | error e =>
      obtain ⟨letters, hletters⟩ := commit_applyOrPark_of_error happly
      rw [deliver, hletters]
      refine .held letters fun in_ m htakes => ?_
      by_cases hrow : db.transactions pay.key = none
      · have hok := apply_payment_eq_ok.mpr ⟨in_, m, htakes, Or.inr ⟨hrow, rfl⟩⟩
        rw [happly] at hok
        cases hok
      · have hok := apply_payment_eq_ok.mpr ⟨in_, m, htakes, Or.inl ⟨hrow, rfl⟩⟩
        rw [happly] at hok
        cases hok

end Projector

/-! ## What a settled session's payment writes -/

def InvoiceRow.settle (invoice : InvoiceRow) : InvoiceRow :=
  if invoice.status = .paid ∨ invoice.status = .void then invoice
  else { invoice with status := .paid }

/-- `payment.completed` of a session. -/
def WebhookEvent.completes (e : WebhookEvent) (s : RowId) : Bool :=
  match e.ref with
  | .payment s' _ => e.type = .payment_completed && s' = s
  | _ => false

/-- `invoice.paid` of an invoice. -/
def WebhookEvent.pays (e : WebhookEvent) (invoiceId : RowId) : Bool :=
  match e.ref with
  | .invoice id _ => e.type = .invoice_paid && id = invoiceId
  | _ => false

section Settle

variable {db : Db} {s merchantId : RowId} {in_ : OneShotTxInput} {session : PaymentSessionRow}

/-- Settling an invoice leaves the other tables alone. -/
theorem settleInvoice_frame :
    (db.settleInvoice s merchantId in_).merchants = db.merchants ∧
      (db.settleInvoice s merchantId in_).transactions = db.transactions ∧
      (db.settleInvoice s merchantId in_).sessionPayments = db.sessionPayments ∧
      (db.settleInvoice s merchantId in_).sessions = db.sessions := by
  unfold Db.settleInvoice
  split
  · exact ⟨rfl, rfl, rfl, rfl⟩
  · split <;> exact ⟨rfl, rfl, rfl, rfl⟩

theorem settleInvoice_invoices :
    (db.settleInvoice s merchantId in_).invoices =
      Function.update db.invoices s ((db.invoices s).map InvoiceRow.settle) := by
  unfold Db.settleInvoice
  cases hinvoice : db.invoices s with
  | none => exact (Function.update_eq_self_iff.mpr hinvoice.symm).symm
  | some invoice =>
      by_cases h : invoice.status = .paid ∨ invoice.status = .void
      · simp only [h, if_true, Option.map_some, InvoiceRow.settle]
        exact (Function.update_eq_self_iff.mpr hinvoice.symm).symm
      · simp only [h, if_false, Option.map_some, InvoiceRow.settle]
        rfl

/-- An invoice that turns paid is announced; nothing else is. -/
theorem settleInvoice_pays (id : RowId) :
    (db.settleInvoice s merchantId in_).webhookEvents.countP (·.pays id) =
      db.webhookEvents.countP (·.pays id) +
        if ∃ invoice, db.invoices s = some invoice ∧ invoice.id = id ∧
          ¬ (invoice.status = .paid ∨ invoice.status = .void) then 1 else 0 := by
  unfold Db.settleInvoice
  cases hinvoice : db.invoices s with
  | none => simp
  | some invoice =>
      by_cases h : invoice.status = .paid ∨ invoice.status = .void
      · have hnone : ¬ ∃ invoice', some invoice = some invoice' ∧ invoice'.id = id ∧
            ¬ (invoice'.status = .paid ∨ invoice'.status = .void) := by
          rintro ⟨_, ⟨⟩, -, hunpaid⟩
          exact hunpaid h
        simp only [h, if_true, if_neg hnone, Nat.add_zero]
      · obtain ⟨hpaid, hvoid⟩ := not_or.mp h
        simp [hpaid, hvoid, List.countP_append, WebhookEvent.pays]

theorem settleInvoice_completes (s' : RowId) :
    (db.settleInvoice s merchantId in_).webhookEvents.countP (·.completes s') =
      db.webhookEvents.countP (·.completes s') := by
  unfold Db.settleInvoice
  split
  · rfl
  · split
    · rfl
    · simp [WebhookEvent.completes]

/-- What settling writes: the session confirmed, its invoice settled, both announced. -/
theorem settle_frame :
    (db.settle session merchantId in_).merchants = db.merchants ∧
      (db.settle session merchantId in_).transactions = db.transactions ∧
      (db.settle session merchantId in_).sessionPayments = db.sessionPayments ∧
      (db.settle session merchantId in_).sessions =
        Function.update db.sessions in_.sessionRef (some (session.confirm in_)) ∧
      (db.settle session merchantId in_).invoices = Function.update db.invoices in_.sessionRef
        ((db.invoices in_.sessionRef).map InvoiceRow.settle) := by
  obtain ⟨hmerchants, htransactions, hpayments, hsessions⟩ := @settleInvoice_frame
    ((db.putSession in_.sessionRef (session.confirm in_)).emit
      ⟨.payment_completed, "payment.completed", merchantId, in_.mode,
        .payment in_.sessionRef in_.key⟩) in_.sessionRef merchantId in_
  exact ⟨hmerchants, htransactions, hpayments, hsessions, settleInvoice_invoices⟩

theorem settle_completes (s' : RowId) :
    (db.settle session merchantId in_).webhookEvents.countP (·.completes s') =
      db.webhookEvents.countP (·.completes s') + if in_.sessionRef = s' then 1 else 0 := by
  rw [Db.settle, settleInvoice_completes]
  simp [List.countP_append, WebhookEvent.completes]

theorem settle_pays (id : RowId) :
    (db.settle session merchantId in_).webhookEvents.countP (·.pays id) =
      db.webhookEvents.countP (·.pays id) +
        if ∃ invoice, db.invoices in_.sessionRef = some invoice ∧ invoice.id = id ∧
          ¬ (invoice.status = .paid ∨ invoice.status = .void) then 1 else 0 := by
  rw [Db.settle, settleInvoice_pays]
  simp [List.countP_append, WebhookEvent.pays]

end Settle

/-! ## The books after the deliveries seen so far -/

namespace Projector

variable {p : Projector} {db₀ db db' : Db} {seen : List PaymentLog} {pay : PaymentLog}
  {in_ : OneShotTxInput} {m : MerchantRow} {session : PaymentSessionRow} {s : RowId}

theorem Takes.of_merchants (h : p.Takes db pay in_ m) (hmerchants : db.merchants = db'.merchants) :
    p.Takes db' pay in_ m := by
  refine ⟨h.token, h.merchantId, ?_, h.date⟩
  rw [Db.merchantByOnchain, ← hmerchants]
  exact h.linked

theorem Takes.key_eq (h : p.Takes db pay in_ m) : in_.key = pay.key := by
  obtain ⟨currency, -, rfl⟩ := h.token
  rfl

theorem Takes.ref_eq (h : p.Takes db pay in_ m) : in_.sessionRef = decodeSessionRef pay.ref := by
  obtain ⟨currency, -, rfl⟩ := h.token
  rfl

/-- Every table, by the deliveries seen so far and the state they started from. -/
structure Books (p : Projector) (db₀ : Db) (seen : List PaymentLog) (db : Db) : Prop where
  merchants : db.merchants = db₀.merchants
  taken : ∀ pay ∈ seen, ∀ in_ m, p.Takes db₀ pay in_ m → db.transactions pay.key ≠ none
  rows : ∀ k row, db.transactions k = some row → ∃ pay ∈ seen, pay.key = k ∧ ∃ in_ m,
    p.Takes db₀ pay in_ m ∧ row = oneShotTransaction in_ m row.sessionId ∧
      ∀ s, row.sessionId = some s → ∃ session, p.Matches db₀ pay s in_ m session
  linked : ∀ s k, db.sessionPayments s = some k ↔
    ∃ row, db.transactions k = some row ∧ row.sessionId = some s
  waiting : ∀ s, db.sessionPayments s = none →
    db.sessions s = db₀.sessions s ∧ db.invoices s = db₀.invoices s ∧
      ∀ pay ∈ seen, ∀ in_ m session, ¬ p.Matches db₀ pay s in_ m session
  settled : ∀ s, db.sessionPayments s ≠ none → ∃ in_ session, db₀.sessions s = some session ∧
    session.status ≠ .confirmed ∧ db.sessions s = some (session.confirm in_) ∧
      db.invoices s = (db₀.invoices s).map InvoiceRow.settle
  completed : ∀ s, db.webhookEvents.countP (·.completes s) =
    if db.sessionPayments s = none then 0 else 1
  invoiced : ∀ s invoice, db₀.invoices s = some invoice →
    db.webhookEvents.countP (·.pays invoice.id) =
      if db.sessionPayments s = none ∨ invoice.status = .paid ∨ invoice.status = .void then 0 else 1

/-- No payment and no event has been recorded. -/
structure Unpaid (db : Db) : Prop where
  transactions : db.transactions = fun _ => none
  payments : db.sessionPayments = fun _ => none
  events : db.webhookEvents = []
  /-- The primary key of the invoices. -/
  invoiceIds : ∀ s s' invoice invoice', db.invoices s = some invoice →
    db.invoices s' = some invoice' → invoice.id = invoice'.id → s = s'

theorem books_start (h : Unpaid db₀) : Books p db₀ [] db₀ where
  merchants := rfl
  taken := fun _ hpay => absurd hpay List.not_mem_nil
  rows := fun k row hrow => by simp [h.transactions] at hrow
  linked := fun s k => by simp [h.transactions, h.payments]
  waiting := fun s _ => ⟨rfl, rfl, fun _ hpay => absurd hpay List.not_mem_nil⟩
  settled := fun s hs => absurd (by rw [h.payments]) hs
  completed := fun s => by simp [h.events, h.payments]
  invoiced := fun s invoice _ => by simp [h.events, h.payments]

/-- A payment settles the session it names iff that session asks for it and has none. -/
theorem Books.settles_iff (h : Books p db₀ seen db) (htakes : p.Takes db₀ pay in_ m) :
    in_.session? db = some session ∧ in_.mismatches db m.id session = [] ↔
      p.Matches db₀ pay in_.sessionRef in_ m session ∧ db.sessionPayments in_.sessionRef = none := by
  have href := htakes.ref_eq
  obtain ⟨currency, -, hin⟩ := htakes.token
  have hamount : in_.amount = pay.amount := by rw [hin]; rfl
  have hmode : in_.mode = p.mode := by rw [hin]; rfl
  unfold OneShotTxInput.mismatches
  rw [mismatches_eq_nil, hamount, hmode]
  constructor
  · rintro ⟨hsession, hmerchant, hpaid, hcurrency, hmode, hstatus, hnone⟩
    have hnone : db.sessionPayments in_.sessionRef = none := by simpa using hnone
    have hrow := OneShotTxInput.sessions_of_session? hsession
    rw [(h.waiting _ hnone).1] at hrow
    refine ⟨⟨htakes, href.symm, fun hnil => ?_, hrow, hstatus, hmerchant, hpaid, hcurrency, hmode⟩,
      hnone⟩
    simp [OneShotTxInput.session?, hnil] at hsession
  · rintro ⟨hmatch, hnone⟩
    refine ⟨?_, hmatch.merchant, hmatch.amount, hmatch.currency, hmatch.mode, hmatch.unconfirmed,
      by simp [hnone]⟩
    rw [OneShotTxInput.session?, if_neg hmatch.named, (h.waiting _ hnone).1]
    exact hmatch.row

/-- A delivery that leaves the tables as they are. -/
theorem Books.keep (h : Books p db₀ seen db)
    (htaken : ∀ in_ m, p.Takes db₀ pay in_ m → db.transactions pay.key ≠ none)
    (hmatch : ∀ s in_ m session, p.Matches db₀ pay s in_ m session → db.sessionPayments s ≠ none) :
    Books p db₀ (seen ++ [pay]) db where
  merchants := h.merchants
  taken := by
    intro pay' hpay' in_ m htakes
    rcases List.mem_append.mp hpay' with hold | hnew
    · exact h.taken pay' hold in_ m htakes
    · obtain rfl := List.mem_singleton.mp hnew
      exact htaken in_ m htakes
  rows := by
    intro k row hrow
    obtain ⟨pay', hpay', hrest⟩ := h.rows k row hrow
    exact ⟨pay', List.mem_append_left _ hpay', hrest⟩
  linked := h.linked
  waiting := by
    intro s hs
    obtain ⟨hsession, hinvoice, hold⟩ := h.waiting s hs
    refine ⟨hsession, hinvoice, fun pay' hpay' in_ m session hmatch' => ?_⟩
    rcases List.mem_append.mp hpay' with hpay' | hnew
    · exact hold pay' hpay' in_ m session hmatch'
    · obtain rfl := List.mem_singleton.mp hnew
      exact hmatch s in_ m session hmatch' hs
  settled := h.settled
  completed := h.completed
  invoiced := h.invoiced

/-- The rows after a payment went in, settling or not. -/
theorem Books.rows_record (h : Books p db₀ seen db) {sessionId : Option RowId}
    (htakes : p.Takes db₀ pay in_ m)
    (hmatch : ∀ s, sessionId = some s → ∃ session, p.Matches db₀ pay s in_ m session)
    (htransactions : db'.transactions = Function.update db.transactions pay.key
      (some (oneShotTransaction in_ m sessionId))) (k : TxKey) (row : TransactionRow)
    (hrow : db'.transactions k = some row) :
    ∃ pay' ∈ seen ++ [pay], pay'.key = k ∧ ∃ in_ m,
      p.Takes db₀ pay' in_ m ∧ row = oneShotTransaction in_ m row.sessionId ∧
        ∀ s, row.sessionId = some s → ∃ session, p.Matches db₀ pay' s in_ m session := by
  rw [htransactions, Function.update_apply] at hrow
  split at hrow
  · rename_i hk
    obtain rfl := Option.some.inj hrow
    exact ⟨pay, List.mem_append_right _ List.mem_cons_self, hk.symm, in_, m, htakes, rfl, hmatch⟩
  · obtain ⟨pay', hpay', hrest⟩ := h.rows k row hrow
    exact ⟨pay', List.mem_append_left _ hpay', hrest⟩

theorem Books.taken_record (h : Books p db₀ seen db) {row : TransactionRow}
    (htransactions : db'.transactions = Function.update db.transactions pay.key (some row)) :
    ∀ pay' ∈ seen ++ [pay], ∀ in_ m, p.Takes db₀ pay' in_ m → db'.transactions pay'.key ≠ none := by
  intro pay' hpay' in_ m htakes
  rw [htransactions, Function.update_apply]
  split
  · exact Option.some_ne_none _
  · rename_i hkey
    rcases List.mem_append.mp hpay' with hold | hnew
    · exact h.taken pay' hold in_ m htakes
    · exact absurd (by rw [List.mem_singleton.mp hnew]) hkey

/-- A payment that settles no session. -/
theorem Books.record_unsettled (h : Books p db₀ seen db) (htakes : p.Takes db₀ pay in_ m)
    (hnew : db.transactions pay.key = none)
    (hunsettled : ∀ s in_ m session, p.Matches db₀ pay s in_ m session → db.sessionPayments s ≠ none)
    (hmerchants : db'.merchants = db.merchants)
    (htransactions : db'.transactions = Function.update db.transactions pay.key
      (some (oneShotTransaction in_ m none)))
    (hpayments : db'.sessionPayments = db.sessionPayments) (hsessions : db'.sessions = db.sessions)
    (hinvoices : db'.invoices = db.invoices) (hevents : db'.webhookEvents = db.webhookEvents) :
    Books p db₀ (seen ++ [pay]) db' where
  merchants := hmerchants.trans h.merchants
  taken := h.taken_record htransactions
  rows := h.rows_record htakes (fun _ hs => by cases hs) htransactions
  linked := by
    intro s k
    rw [hpayments, htransactions, h.linked, Function.update_apply]
    by_cases hk : k = pay.key
    · simp [hk, hnew, oneShotTransaction]
    · rw [if_neg hk]
  waiting := by
    intro s hs
    rw [hpayments] at hs
    rw [hsessions, hinvoices]
    obtain ⟨hsession, hinvoice, hold⟩ := h.waiting s hs
    refine ⟨hsession, hinvoice, fun pay' hpay' in_ m session hmatch => ?_⟩
    rcases List.mem_append.mp hpay' with hpay' | hlast
    · exact hold pay' hpay' in_ m session hmatch
    · obtain rfl := List.mem_singleton.mp hlast
      exact hunsettled s in_ m session hmatch hs
  settled := by
    rw [hpayments, hsessions, hinvoices]
    exact h.settled
  completed := by
    rw [hpayments, hevents]
    exact h.completed
  invoiced := by
    rw [hpayments, hevents]
    exact h.invoiced

/-- A payment that settles the session it names. -/
theorem Books.record_settled (h : Books p db₀ seen db) (hunpaid : Unpaid db₀)
    (hmatch : p.Matches db₀ pay in_.sessionRef in_ m session)
    (hnew : db.transactions pay.key = none) (hnone : db.sessionPayments in_.sessionRef = none) :
    Books p db₀ (seen ++ [pay]) ((db.insertTransaction in_.key
      (oneShotTransaction in_ m (some in_.sessionRef))).settle session m.id in_) := by
  obtain ⟨hmerchants, htransactions, hpayments, hsessions, hinvoices⟩ := @settle_frame
    (db.insertTransaction in_.key (oneShotTransaction in_ m (some in_.sessionRef))) m.id in_ session
  have hkey := hmatch.takes.key_eq
  have htransactions : ((db.insertTransaction in_.key (oneShotTransaction in_ m
      (some in_.sessionRef))).settle session m.id in_).transactions = Function.update
        db.transactions pay.key (some (oneShotTransaction in_ m (some in_.sessionRef))) := by
    rw [htransactions, ← hkey]
    rfl
  have hpayments : ((db.insertTransaction in_.key (oneShotTransaction in_ m
      (some in_.sessionRef))).settle session m.id in_).sessionPayments = Function.update
        db.sessionPayments in_.sessionRef (some pay.key) := by
    rw [hpayments, ← hkey]
    rfl
  obtain ⟨hsession, hinvoice, -⟩ := h.waiting _ hnone
  refine ⟨hmerchants.trans h.merchants, h.taken_record htransactions,
    h.rows_record hmatch.takes (fun s hs => ?_) htransactions, fun s k => ?_, fun s hs => ?_,
    fun s hs => ?_, fun s => ?_, fun s invoice hs => ?_⟩
  · obtain rfl := Option.some.inj hs
    exact ⟨session, hmatch⟩
  · rw [hpayments, htransactions, Function.update_apply, Function.update_apply]
    by_cases hs : s = in_.sessionRef
    · rw [if_pos hs, hs]
      by_cases hk : k = pay.key
      · simp [hk, oneShotTransaction]
      · rw [if_neg hk, ← h.linked, hnone]
        simp [Ne.symm hk]
    · rw [if_neg hs, h.linked]
      by_cases hk : k = pay.key
      · simp [hk, hnew, oneShotTransaction, Ne.symm hs]
      · rw [if_neg hk]
  · rw [hpayments, Function.update_apply] at hs
    split at hs
    · cases hs
    · rename_i hne
      rw [hsessions, hinvoices, Function.update_of_ne hne, Function.update_of_ne hne]
      obtain ⟨hsession', hinvoice', hold⟩ := h.waiting s hs
      refine ⟨hsession', hinvoice', fun pay' hpay' in' m' session' hmatch' => ?_⟩
      rcases List.mem_append.mp hpay' with hpay' | hlast
      · exact hold pay' hpay' in' m' session' hmatch'
      · obtain rfl := List.mem_singleton.mp hlast
        exact hne (hmatch'.ref.symm.trans hmatch.ref)
  · rw [hsessions, hinvoices]
    by_cases hne : s = in_.sessionRef
    · rw [hne, Function.update_self, Function.update_self]
      exact ⟨in_, session, hmatch.row, hmatch.unconfirmed, rfl, congrArg _ hinvoice⟩
    · rw [hpayments, Function.update_of_ne hne] at hs
      rw [Function.update_of_ne hne, Function.update_of_ne hne]
      exact h.settled s hs
  · rw [settle_completes, hpayments]
    by_cases hs : s = in_.sessionRef
    · have hcount := h.completed s
      rw [hs, if_pos hnone] at hcount
      rw [hs, Function.update_self, if_pos rfl, if_neg (Option.some_ne_none _)]
      exact congrArg (· + 1) hcount
    · rw [Function.update_of_ne hs, if_neg (Ne.symm hs)]
      exact h.completed s
  · rw [settle_pays, hpayments]
    have hcount := h.invoiced s invoice hs
    have hinvoice : (db.insertTransaction in_.key (oneShotTransaction in_ m
        (some in_.sessionRef))).invoices in_.sessionRef = db₀.invoices in_.sessionRef := hinvoice
    rw [hinvoice]
    by_cases hne : s = in_.sessionRef
    · rw [hne] at hs hcount
      have hopen : (∃ invoice', db₀.invoices in_.sessionRef = some invoice' ∧
          invoice'.id = invoice.id ∧ ¬ (invoice'.status = .paid ∨ invoice'.status = .void)) ↔
          ¬ (invoice.status = .paid ∨ invoice.status = .void) := by
        simp [hs]
      have hzero : (db.insertTransaction in_.key (oneShotTransaction in_ m
          (some in_.sessionRef))).webhookEvents.countP (·.pays invoice.id) = 0 := by
        rw [if_pos (Or.inl hnone)] at hcount
        exact hcount
      rw [hne, Function.update_self, hzero]
      by_cases hpaid : invoice.status = .paid ∨ invoice.status = .void
      · rw [if_neg fun hex => hopen.mp hex hpaid, if_pos (Or.inr hpaid)]
      · rw [if_pos (hopen.mpr hpaid), if_neg (not_or.mpr ⟨Option.some_ne_none _, hpaid⟩)]
    · have hother : ¬ ∃ invoice', db₀.invoices in_.sessionRef = some invoice' ∧
          invoice'.id = invoice.id ∧ ¬ (invoice'.status = .paid ∨ invoice'.status = .void) := by
        rintro ⟨invoice', hrow, hid, -⟩
        exact hne (hunpaid.invoiceIds s _ invoice invoice' hs hrow hid.symm)
      rw [Function.update_of_ne hne, if_neg hother]
      exact hcount

/-- One delivery keeps the books. -/
theorem Books.deliver (h : Books p db₀ seen db) (hunpaid : Unpaid db₀)
    (hkeys : ∀ pay' ∈ seen, pay'.key = pay.key → pay' = pay) :
    Books p db₀ (seen ++ [pay]) (p.deliver db pay) := by
  have hstart : ∀ {in_ m}, p.Takes db₀ pay in_ m → p.Takes db pay in_ m := fun htakes =>
    htakes.of_merchants h.merchants.symm
  generalize hdb : p.deliver db pay = db'
  have hstep := delivered p db pay
  rw [hdb] at hstep
  cases hstep with
  | held letters hnone =>
      have hkeep : Books p db₀ (seen ++ [pay]) db :=
        h.keep (fun in_ m htakes => absurd (hstart htakes) (hnone in_ m))
          fun s in_ m session hmatch => absurd (hstart hmatch.takes) (hnone in_ m)
      exact ⟨hkeep.merchants, hkeep.taken, hkeep.rows, hkeep.linked, hkeep.waiting, hkeep.settled,
        hkeep.completed, hkeep.invoiced⟩
  | @replayed in_ m htakes hrow =>
      refine h.keep (fun _ _ _ => hrow) fun s in' m' session hmatch hnone => ?_
      obtain ⟨row, hrow⟩ := Option.ne_none_iff_exists'.mp hrow
      obtain ⟨pay', hpay', hkey, -⟩ := h.rows _ row hrow
      obtain rfl := hkeys pay' hpay' hkey
      exact (h.waiting s hnone).2.2 pay' hpay' in' m' session hmatch
  | @recorded in_ m htakes hrow =>
      have htakes₀ := htakes.of_merchants h.merchants
      by_cases hsettles : ∃ session, p.Matches db₀ pay in_.sessionRef in_ m session ∧
        db.sessionPayments in_.sessionRef = none
      · obtain ⟨session, hmatch, hnone⟩ := hsettles
        obtain ⟨hsession, hmatches⟩ := (h.settles_iff htakes₀).mpr ⟨hmatch, hnone⟩
        rw [Db.recordOneShot, hsession]
        simp only [hmatches, if_true]
        exact h.record_settled hunpaid hmatch hrow hnone
      · have hunsettled : ∀ s in' m' session, p.Matches db₀ pay s in' m' session →
            db.sessionPayments s ≠ none := by
          intro s in' m' session hmatch hnone
          obtain ⟨rfl, rfl⟩ := htakes₀.unique hmatch.takes
          obtain rfl : in'.sessionRef = s := htakes.ref_eq.trans hmatch.ref
          exact hsettles ⟨session, hmatch, hnone⟩
        have hkey := htakes.key_eq
        unfold Db.recordOneShot
        split
        · refine h.record_unsettled htakes₀ hrow hunsettled rfl ?_ rfl rfl rfl rfl
          rw [← hkey]
          rfl
        · rename_i session hsession
          have hmismatch : in_.mismatches db m.id session ≠ [] := fun hnil =>
            hsettles ⟨session, (h.settles_iff htakes₀).mp ⟨hsession, hnil⟩⟩
          rw [if_neg hmismatch]
          refine h.record_unsettled htakes₀ hrow hunsettled rfl ?_ rfl rfl rfl rfl
          rw [← hkey]
          rfl

/-- The books after a whole run of deliveries. -/
theorem books_run (hunpaid : Unpaid db₀) {pays : List PaymentLog}
    (hkeys : ∀ a ∈ pays, ∀ b ∈ pays, a.key = b.key → a = b) :
    Books p db₀ pays (exec p.deliver db₀ pays) := by
  induction pays using List.reverseRecOn with
  | nil => exact books_start hunpaid
  | append_singleton pays pay ih =>
      have hold := ih fun a ha b hb => hkeys a (List.mem_append_left _ ha) b
        (List.mem_append_left _ hb)
      rw [exec_append]
      exact hold.deliver hunpaid fun pay' hpay' => hkeys pay' (List.mem_append_left _ hpay') pay
        (List.mem_append_right _ List.mem_cons_self)

theorem Books.payments_ne_none (h : Books p db₀ seen db) (hsession : db₀.sessions s = some session)
    (hstatus : session.status ≠ .confirmed) :
    db.sessionPayments s ≠ none ↔
      ∃ session', db.sessions s = some session' ∧ session'.status = .confirmed := by
  constructor
  · intro hpaid
    obtain ⟨in_, session, -, -, hrow, -⟩ := h.settled s hpaid
    exact ⟨session.confirm in_, hrow, rfl⟩
  · rintro ⟨session', hrow, hconfirmed⟩ hnone
    rw [(h.waiting s hnone).1, hsession, Option.some.injEq] at hrow
    exact hstatus (hrow ▸ hconfirmed)

/-! ## Exactness -/

/-- `sessionId` turned confirmed between two states. -/
def TurnedConfirmed (db₀ db : Db) (s : RowId) : Prop :=
  ∃ session session', db₀.sessions s = some session ∧ session.status ≠ .confirmed ∧
    db.sessions s = some session' ∧ session'.status = .confirmed

/-- The payment names the session but does not settle it as it stands in `db`. -/
def Misses (p : Projector) (db₀ db : Db) (pay : PaymentLog) (s : RowId) : Prop :=
  decodeSessionRef pay.ref = s ∧ s ≠ [] ∧ db₀.sessions s ≠ none ∧
    ∀ in_ m session, p.Matches db₀ pay s in_ m session → db.sessionPayments s ≠ none

/-- What a run of deliveries from `db₀` comes to. -/
structure SettledExactly (p : Projector) (db₀ : Db) (pays : List PaymentLog) : Prop where
  /-- One Transaction row for each payment taken, with its amounts, and no other row. -/
  recorded : ∀ pay ∈ pays, ∀ in_ m, p.Takes db₀ pay in_ m → ∃ sessionId,
    (exec p.deliver db₀ pays).transactions pay.key = some (oneShotTransaction in_ m sessionId)
  only : ∀ k row, (exec p.deliver db₀ pays).transactions k = some row → ∃ pay ∈ pays, pay.key = k
  /-- A session is linked to at most one Transaction, which has what the session asks for. -/
  linked_once : ∀ s k k' row row', (exec p.deliver db₀ pays).transactions k = some row →
    (exec p.deliver db₀ pays).transactions k' = some row' →
    row.sessionId = some s → row'.sessionId = some s → k = k'
  linked_to : ∀ s k row, (exec p.deliver db₀ pays).transactions k = some row →
    row.sessionId = some s → ∃ session, (exec p.deliver db₀ pays).sessions s = some session ∧
      row.merchantId = session.merchantId ∧ sameAmount session.amount row.amount = true ∧
      row.currency = session.currency ∧ row.mode = session.mode
  /-- A session becomes confirmed iff a matching payment came while it had none. -/
  confirmed_iff : ∀ s session, db₀.sessions s = some session → session.status ≠ .confirmed →
    ((∃ session', (exec p.deliver db₀ pays).sessions s = some session' ∧
        session'.status = .confirmed) ↔
      ∃ i pay in_ m, pays[i]? = some pay ∧ p.Matches db₀ pay s in_ m session ∧
        (stateAt p.deliver db₀ pays i).sessionPayments s = none)
  /-- One `payment.completed` for each session that turned confirmed, and no other. -/
  completed_once : ∀ s, TurnedConfirmed db₀ (exec p.deliver db₀ pays) s →
    (exec p.deliver db₀ pays).webhookEvents.countP (·.completes s) = 1
  completed_only : ∀ s, ¬ TurnedConfirmed db₀ (exec p.deliver db₀ pays) s →
    (exec p.deliver db₀ pays).webhookEvents.countP (·.completes s) = 0
  /-- One `invoice.paid` for each invoice that turned paid, and no other. -/
  invoiced_once : ∀ s invoice, db₀.invoices s = some invoice →
    ∃ invoice', (exec p.deliver db₀ pays).invoices s = some invoice' ∧
      (exec p.deliver db₀ pays).webhookEvents.countP (·.pays invoice.id) =
        if invoice.status ≠ .paid ∧ invoice'.status = .paid then 1 else 0
  /-- A payment that misses its session is recorded and audited, and touches nothing else. -/
  missed : ∀ i pay s in_ m, pays[i]? = some pay → p.Takes db₀ pay in_ m →
    (stateAt p.deliver db₀ pays i).transactions pay.key = none →
    Misses p db₀ (stateAt p.deliver db₀ pays i) pay s →
    ∃ session reasons, (stateAt p.deliver db₀ pays i).sessions s = some session ∧ reasons ≠ [] ∧
      stateAt p.deliver db₀ pays (i + 1) =
        ((stateAt p.deliver db₀ pays i).putTransaction pay.key (oneShotTransaction in_ m none)).audit
          ⟨none, some m.id, sessionMismatchAudit s session reasons m.id in_⟩
  /-- A replay changes nothing. -/
  replayed : ∀ i pay in_ m, pays[i]? = some pay → p.Takes db₀ pay in_ m →
    (stateAt p.deliver db₀ pays i).transactions pay.key ≠ none →
    stateAt p.deliver db₀ pays (i + 1) = stateAt p.deliver db₀ pays i

section Exactness

variable {pays : List PaymentLog}

theorem books_stateAt (hunpaid : Unpaid db₀)
    (hkeys : ∀ a ∈ pays, ∀ b ∈ pays, a.key = b.key → a = b) (i : Nat) :
    Books p db₀ (pays.take i) (stateAt p.deliver db₀ pays i) :=
  books_run hunpaid fun a ha b hb => hkeys a (List.mem_of_mem_take ha) b (List.mem_of_mem_take hb)

/-- A delivery of a payment that is taken and recorded already. -/
theorem deliver_replayed (htakes : p.Takes db pay in_ m) (hrow : db.transactions pay.key ≠ none) :
    p.deliver db pay = db :=
  commit_applyOrPark_of_ok (apply_payment_eq_ok.mpr ⟨in_, m, htakes, Or.inl ⟨hrow, rfl⟩⟩)

/-- A delivery of a payment that is taken and new. -/
theorem deliver_recorded (htakes : p.Takes db pay in_ m) (hrow : db.transactions pay.key = none) :
    p.deliver db pay = db.recordOneShot in_ m :=
  commit_applyOrPark_of_ok (apply_payment_eq_ok.mpr ⟨in_, m, htakes, Or.inr ⟨hrow, rfl⟩⟩)

theorem Books.row_of_taken (h : Books p db₀ seen db)
    (hkeys : ∀ a ∈ seen, ∀ b ∈ seen, a.key = b.key → a = b) (hpay : pay ∈ seen)
    (htakes : p.Takes db₀ pay in_ m) :
    ∃ sessionId, db.transactions pay.key = some (oneShotTransaction in_ m sessionId) := by
  obtain ⟨row, hrow⟩ := Option.ne_none_iff_exists'.mp (h.taken pay hpay in_ m htakes)
  obtain ⟨pay', hpay', hkey, in', m', htakes', heq, -⟩ := h.rows _ row hrow
  obtain rfl := hkeys pay' hpay' pay hpay hkey
  obtain ⟨rfl, rfl⟩ := htakes.unique htakes'
  exact ⟨row.sessionId, hrow.trans (congrArg some heq)⟩

theorem Books.linked_to (h : Books p db₀ seen db) {k : TxKey} {row : TransactionRow}
    (hrow : db.transactions k = some row) (hs : row.sessionId = some s) :
    ∃ session, db.sessions s = some session ∧ row.merchantId = session.merchantId ∧
      sameAmount session.amount row.amount = true ∧ row.currency = session.currency ∧
      row.mode = session.mode := by
  obtain ⟨pay, -, -, in_, m, htakes, heq, hmatch⟩ := h.rows k row hrow
  obtain ⟨session, hmatch⟩ := hmatch s hs
  have hpaid : db.sessionPayments s ≠ none := by
    rw [(h.linked s k).mpr ⟨row, hrow, hs⟩]
    exact Option.some_ne_none _
  obtain ⟨in', session', hsession', -, hconfirmed, -⟩ := h.settled s hpaid
  obtain rfl : session = session' := Option.some.inj (hmatch.row.symm.trans hsession')
  obtain ⟨currency, -, hin⟩ := htakes.token
  refine ⟨session.confirm in', hconfirmed, ?_, ?_, ?_, ?_⟩
  · rw [heq]
    exact hmatch.merchant.symm
  · rw [heq]
    have hamount : in_.amount = pay.amount := by rw [hin]; rfl
    exact (congrArg (sameAmount session.amount) hamount).trans hmatch.amount
  · rw [heq]
    exact hmatch.currency.symm
  · rw [heq]
    have hmode : in_.mode = p.mode := by rw [hin]; rfl
    exact hmode.trans hmatch.mode.symm

/-- A payment that misses the session it names. -/
theorem Books.deliver_missed (h : Books p db₀ seen db) (htakes : p.Takes db₀ pay in_ m)
    (hrow : db.transactions pay.key = none) (hmiss : Misses p db₀ db pay s) :
    ∃ session reasons, db.sessions s = some session ∧ reasons ≠ [] ∧
      p.deliver db pay = (db.putTransaction pay.key (oneShotTransaction in_ m none)).audit
        ⟨none, some m.id, sessionMismatchAudit s session reasons m.id in_⟩ := by
  obtain ⟨href, hnamed, hexists, hnone⟩ := hmiss
  have href : in_.sessionRef = s := htakes.ref_eq.trans href
  have hsession : ∃ session, db.sessions s = some session := by
    by_cases hpaid : db.sessionPayments s = none
    · rw [(h.waiting s hpaid).1]
      exact Option.ne_none_iff_exists'.mp hexists
    · obtain ⟨in', session, -, -, hrow, -⟩ := h.settled s hpaid
      exact ⟨_, hrow⟩
  obtain ⟨session, hsession⟩ := hsession
  have hnames : in_.session? db = some session := by
    rw [OneShotTxInput.session?, href, if_neg hnamed, hsession]
  have hmismatch : in_.mismatches db m.id session ≠ [] := by
    intro hnil
    obtain ⟨hmatch, hpaid⟩ := (h.settles_iff htakes).mp ⟨hnames, hnil⟩
    rw [href] at hmatch hpaid
    exact hnone in_ m session hmatch hpaid
  refine ⟨session, _, hsession, hmismatch, ?_⟩
  rw [deliver_recorded (htakes.of_merchants h.merchants.symm) hrow, Db.recordOneShot, hnames]
  simp only [hmismatch, if_false, href, htakes.key_eq]
  rfl

/-- A session gets its payment from a delivery that matches it. -/
theorem Books.newly_paid (h : Books p db₀ seen db) (hunpaid : Unpaid db₀)
    (hkeys : ∀ pay' ∈ seen, pay'.key = pay.key → pay' = pay) (hnone : db.sessionPayments s = none)
    (hpaid : (p.deliver db pay).sessionPayments s ≠ none) :
    ∃ in_ m session, p.Matches db₀ pay s in_ m session := by
  have hbooks := h.deliver hunpaid hkeys
  obtain ⟨k, hk⟩ := Option.ne_none_iff_exists'.mp hpaid
  obtain ⟨row, hrow, hs⟩ := (hbooks.linked s k).mp hk
  obtain ⟨pay', hpay', -, in_, m, -, -, hmatch⟩ := hbooks.rows k row hrow
  obtain ⟨session, hmatch⟩ := hmatch s hs
  rcases List.mem_append.mp hpay' with hold | hnew
  · exact absurd hmatch ((h.waiting s hnone).2.2 pay' hold in_ m session)
  · obtain rfl := List.mem_singleton.mp hnew
    exact ⟨in_, m, session, hmatch⟩

theorem paid_iff_matched (hunpaid : Unpaid db₀)
    (hkeys : ∀ a ∈ pays, ∀ b ∈ pays, a.key = b.key → a = b) (hsession : db₀.sessions s = some session) :
    (exec p.deliver db₀ pays).sessionPayments s ≠ none ↔
      ∃ i pay in_ m, pays[i]? = some pay ∧ p.Matches db₀ pay s in_ m session ∧
        (stateAt p.deliver db₀ pays i).sessionPayments s = none := by
  constructor
  · intro hpaid
    have hstart : ¬ (stateAt p.deliver db₀ pays 0).sessionPayments s ≠ none := by
      simp [hunpaid.payments]
    rw [← stateAt_length] at hpaid
    obtain ⟨i, hi, hnone, hsince⟩ := exists_rise
      (P := fun n => (stateAt p.deliver db₀ pays n).sessionPayments s ≠ none) hstart hpaid
    have hpay : pays[i]? = some (pays.get ⟨i, hi⟩) := List.getElem?_eq_getElem hi
    have hnext := hsince (i + 1) (Nat.lt_succ_self i) hi
    rw [stateAt_succ p.deliver db₀ hpay] at hnext
    have hnone := not_not.mp hnone
    obtain ⟨in_, m, session', hmatch⟩ := (books_stateAt hunpaid hkeys i).newly_paid hunpaid
      (fun pay' hpay' => hkeys pay' (List.mem_of_mem_take hpay') _ (List.get_mem _ _)) hnone hnext
    obtain rfl := Option.some.inj (hsession.symm.trans hmatch.row)
    exact ⟨i, _, in_, m, hpay, hmatch, hnone⟩
  · rintro ⟨i, pay, in_, m, hpay, hmatch, -⟩ hnone
    exact ((books_run hunpaid hkeys).waiting s hnone).2.2 pay (List.mem_of_getElem? hpay)
      in_ m session hmatch

theorem Books.invoiced_once (h : Books p db₀ seen db) {invoice : InvoiceRow}
    (hinvoice : db₀.invoices s = some invoice) :
    ∃ invoice', db.invoices s = some invoice' ∧
      db.webhookEvents.countP (·.pays invoice.id) =
        if invoice.status ≠ .paid ∧ invoice'.status = .paid then 1 else 0 := by
  rw [h.invoiced s invoice hinvoice]
  by_cases hpaid : db.sessionPayments s = none
  · refine ⟨invoice, (h.waiting s hpaid).2.1.trans hinvoice, ?_⟩
    rw [if_pos (Or.inl hpaid), if_neg fun hturned => hturned.1 hturned.2]
  · obtain ⟨-, -, -, -, -, hrow⟩ := h.settled s hpaid
    rw [hinvoice] at hrow
    refine ⟨invoice.settle, hrow, ?_⟩
    unfold InvoiceRow.settle
    by_cases hclosed : invoice.status = .paid ∨ invoice.status = .void
    · rw [if_pos (Or.inr hclosed), if_pos hclosed, if_neg fun hturned => hturned.1 hturned.2]
    · rw [if_neg (not_or.mpr ⟨hpaid, hclosed⟩), if_neg hclosed,
        if_pos ⟨(not_or.mp hclosed).1, rfl⟩]

/-- Payments settle sessions exactly. -/
theorem settled_exactly (p : Projector) (db₀ : Db) (hunpaid : Unpaid db₀) (pays : List PaymentLog)
    (hkeys : ∀ a ∈ pays, ∀ b ∈ pays, a.key = b.key → a = b) : SettledExactly p db₀ pays := by
  have hbooks := books_run (p := p) hunpaid hkeys
  have hturned : ∀ s, TurnedConfirmed db₀ (exec p.deliver db₀ pays) s ↔
      (exec p.deliver db₀ pays).sessionPayments s ≠ none := by
    intro s
    constructor
    · rintro ⟨session, session', hrow, hstatus, hrow', hconfirmed⟩
      exact (hbooks.payments_ne_none hrow hstatus).mpr ⟨session', hrow', hconfirmed⟩
    · intro hpaid
      obtain ⟨in_, session, hrow, hstatus, hrow', -⟩ := hbooks.settled s hpaid
      exact ⟨session, _, hrow, hstatus, hrow', rfl⟩
  refine ⟨fun pay hpay in_ m htakes => hbooks.row_of_taken hkeys hpay htakes, ?_, ?_,
    fun s k row hrow hs => hbooks.linked_to hrow hs, ?_, ?_, ?_, ?_, ?_, ?_⟩
  · intro k row hrow
    obtain ⟨pay, hpay, hkey, -⟩ := hbooks.rows k row hrow
    exact ⟨pay, hpay, hkey⟩
  · intro s k k' row row' hrow hrow' hs hs'
    have hk := (hbooks.linked s k).mpr ⟨row, hrow, hs⟩
    have hk' := (hbooks.linked s k').mpr ⟨row', hrow', hs'⟩
    exact Option.some.inj (hk.symm.trans hk')
  · intro s session hsession hstatus
    rw [← hbooks.payments_ne_none hsession hstatus]
    exact paid_iff_matched hunpaid hkeys hsession
  · intro s hs
    rw [hbooks.completed s, if_neg ((hturned s).mp hs)]
  · intro s hs
    rw [hbooks.completed s, if_pos (not_not.mp (mt (hturned s).mpr hs))]
  · intro s invoice hinvoice
    exact hbooks.invoiced_once hinvoice
  · intro i pay s in_ m hpay htakes hrow hmiss
    rw [stateAt_succ p.deliver db₀ hpay]
    exact (books_stateAt hunpaid hkeys i).deliver_missed htakes hrow hmiss
  · intro i pay in_ m hpay htakes hrow
    rw [stateAt_succ p.deliver db₀ hpay]
    exact deliver_replayed (htakes.of_merchants (books_stateAt hunpaid hkeys i).merchants.symm) hrow

/-- Two payments for one session, the second sent after the first had settled it. -/
theorem settled_exactly_twice :
    let merchant : MerchantRow := ⟨[7], some 1, none, none, none, none, none, none, .active⟩
    let session : PaymentSessionRow := ⟨[7], "25", .usdc, .test, .awaiting_payment, none, none⟩
    let db : Db := { Db.empty with
      merchants := [merchant]
      sessions := fun s => if s = [65] then some session else none
      invoices := fun s => if s = [65] then some ⟨[9], .sent⟩ else none }
    let p : Projector := ⟨.test, fun _ => some .usdc, 1, fun _ => none, fun _ => none⟩
    let pay : PaymentLog := ⟨0, 1, 2, 3, 25, 1, 24, [65], 0, 0, 10, 1000⟩
    let again : PaymentLog := { pay with txHash := 1 }
    SettledExactly p db [pay, again, pay] := by
  intro merchant session db p pay again
  refine settled_exactly p db ⟨rfl, rfl, rfl, ?_⟩ [pay, again, pay] (by decide)
  intro s s' invoice invoice' hs hs' _
  simp only [db] at hs hs'
  split at hs
  · split at hs'
    · simp_all
    · cases hs'
  · cases hs

end Exactness

end Projector

end Strimz.Indexer
