import Mathlib.Data.List.Perm.Basic
import Strimz.InFlight
import Strimz.IndexerEvents
import Strimz.Runs
import Strimz.Script

/-!
# Creating invoices

`InvoicesService.create` checks the request, then runs one transaction: it locks the merchant's
row, reads the largest sequence part among the merchant's invoice numbers, writes the payment
session and the invoice, and commits. The statements of many calls interleave under READ COMMITTED:
each sees what is committed when it starts, the row lock is held to the end of its transaction, and
a transaction that ends otherwise leaves nothing.
-/

namespace Strimz.Invoicing

open Script Runs
open Indexer (Currency Mode)

abbrev Id := Str

/-! ## Numbers -/

def DASH : CodeUnit := 45

/-- `s.padStart(width, '0')` -/
def padStart (width : ℕ) (s : Str) : Str := List.replicate (width - s.length) 48 ++ s

/-- The number of an invoice. -/
def invoiceNumber (year sequence : ℕ) : Str :=
  decimal year ++ DASH :: padStart 4 (decimal sequence)

/-- `SPLIT_PART(number, '-', 2)` -/
def splitPart2 (number : Str) : Str :=
  ((number.dropWhile (· ≠ DASH)).drop 1).takeWhile (· ≠ DASH)

/-- The sequence part, as a number. -/
def sequencePart (number : Str) : Option ℕ :=
  let ds := splitPart2 number
  if ds ≠ [] ∧ ds.all isDigit then some (digitsValue ds) else none

/-- `SPLIT_PART(number, '-', 2)::int`; the cast fails out of range. -/
def sequenceInt (number : Str) : Option ℕ :=
  (sequencePart number).bind fun n => if n < 2 ^ 31 then some n else none

/-- `COALESCE(MAX(SPLIT_PART(number, '-', 2)::int), 0)`; the query fails if a cast does. -/
def lastSequence : List Str → Option ℕ
  | [] => some 0
  | number :: numbers => do
      let n ← sequenceInt number
      let last ← lastSequence numbers
      some (max n last)

/-! ## Amounts -/

structure LineItem where
  description : Str
  quantity : ℕ
  unitAmount : Str
deriving DecidableEq, Repr

def subtotalOf (lineItems : List LineItem) : ℕ :=
  (lineItems.map fun li => digitsValue li.unitAmount * li.quantity).sum

def MINIMUM_AMOUNT : ℕ := 1000000

def MAX_FEE_BPS : ℕ := 500

/-- `feeSplit`: the fee and the rest. -/
def feeSplit (amount feeBps : ℕ) : Option (ℕ × ℕ) :=
  if feeBps ≤ MAX_FEE_BPS then
    some (amount * feeBps / 10000, amount - amount * feeBps / 10000)
  else none

/-! ## Rows -/

/-- `CreateInvoiceParsed` -/
structure CreateInvoiceInput where
  customerName : Option Str
  customerEmail : Option Str
  lineItems : List LineItem
  currency : Currency
  note : Option Str
  dueInDays : ℕ
deriving DecidableEq, Repr

structure PaymentSession where
  id : Id
  merchantId : Id
  amount : Str
  currency : Currency
  feeAmount : Str
  netAmount : Str
  description : Str
  checkoutUrl : Str
  mode : Mode
  expiresAt : ℕ
deriving DecidableEq, Repr

structure Invoice where
  merchantId : Id
  number : Str
  customerName : Option Str
  customerEmail : Option Str
  lineItems : List LineItem
  subtotal : Str
  total : Str
  currency : Currency
  note : Option Str
  sessionId : Id
  mode : Mode
  dueAt : ℕ
deriving DecidableEq, Repr

/-! ## A call -/

/-- What the checks before the transaction leave. -/
structure Terms where
  total : ℕ
  dueAt : ℕ
  feeAmount : ℕ
  netAmount : ℕ
deriving DecidableEq, Repr

/-- How far a call is. -/
inductive Stage where
  | started
  /-- next is `FOR UPDATE` -/
  | checked (terms : Terms)
  /-- next is `nextInvoiceNumber` -/
  | locked (terms : Terms)
  /-- next is `paymentSession.create` -/
  | numbered (terms : Terms) (number : Str)
  /-- next is `paymentSession.update` -/
  | opened (terms : Terms) (number : Str) (session : PaymentSession)
  /-- next is `invoice.create` -/
  | linked (terms : Terms) (number : Str) (session : PaymentSession)
  /-- next is the commit -/
  | inserted (session : PaymentSession) (invoice : Invoice)
deriving DecidableEq, Repr

structure Call where
  merchantId : Id
  mode : Mode
  input : CreateInvoiceInput
  stage : Stage
deriving DecidableEq, Repr

/-- The merchant whose row the call has locked. -/
def Call.holds (c : Call) : Option Id :=
  match c.stage with
  | .started | .checked _ => none
  | .locked _ | .numbered .. | .opened .. | .linked .. | .inserted .. => some c.merchantId

/-- The number the call has read for its invoice. -/
def Call.number (c : Call) : Option Str :=
  match c.stage with
  | .started | .checked _ | .locked _ => none
  | .numbered _ number | .opened _ number _ | .linked _ number _ => some number
  | .inserted _ invoice => some invoice.number

/-- What a statement takes from outside: the clock, the fee rate, the fresh id. -/
structure Moment where
  now : ℕ
  year : ℕ
  feeBps : ℕ
  freshId : Id
deriving DecidableEq, Repr

/-- The committed rows, in commit order, and the calls under way. -/
structure World where
  merchants : List Id
  sessions : List PaymentSession
  invoices : List Invoice
  calls : List Call
deriving DecidableEq, Repr

def World.initial : World := ⟨[], [], [], []⟩

def World.invoicesOf (w : World) (merchantId : Id) : List Invoice :=
  w.invoices.filter fun i => i.merchantId = merchantId

/-- `nextInvoiceNumber` -/
def World.nextInvoiceNumber (w : World) (merchantId : Id) (year : ℕ) : Option Str :=
  (lastSequence ((w.invoicesOf merchantId).map Invoice.number)).map fun last =>
    invoiceNumber year (last + 1)

/-- The checks before the transaction. -/
def World.terms (w : World) (c : Call) (m : Moment) : Option Terms :=
  let total := subtotalOf c.input.lineItems
  if MINIMUM_AMOUNT ≤ total ∧ c.merchantId ∈ w.merchants then
    (feeSplit total m.feeBps).map fun split =>
      ⟨total, m.now + c.input.dueInDays * 86400000, split.1, split.2⟩
  else none

def sessionData (c : Call) (terms : Terms) (number : Str) (id : Id) : PaymentSession where
  id := id
  merchantId := c.merchantId
  amount := decimal terms.total
  currency := c.input.currency
  feeAmount := decimal terms.feeAmount
  netAmount := decimal terms.netAmount
  description := text "Invoice " ++ number
  checkoutUrl := []
  mode := c.mode
  expiresAt := terms.dueAt

/-- `buildCheckoutUrl`; one slash at the end of the checkout origin is dropped. -/
def buildCheckoutUrl (origin sessionId : Str) : Str :=
  (if origin.getLast? = some 47 then origin.dropLast else origin) ++ text "/pay/" ++ sessionId

def invoiceData (c : Call) (terms : Terms) (number : Str) (session : PaymentSession) : Invoice where
  merchantId := c.merchantId
  number := number
  customerName := c.input.customerName
  customerEmail := c.input.customerEmail
  lineItems := c.input.lineItems
  subtotal := decimal terms.total
  total := decimal terms.total
  currency := c.input.currency
  note := c.input.note
  sessionId := session.id
  mode := c.mode
  dueAt := terms.dueAt

/-- What the next statement of a call comes to. -/
inductive Outcome where
  | waits
  | fails
  | goesTo (stage : Stage)
  | commits (session : PaymentSession) (invoice : Invoice)
deriving DecidableEq, Repr

/-- The next statement. -/
def World.statement (origin : Str) (w : World) (c : Call) (m : Moment) : Outcome :=
  match c.stage with
  | .started => (w.terms c m).elim .fails fun terms => .goesTo (.checked terms)
  | .checked terms =>
      -- the row is there: `terms` has found it, and no merchant is ever deleted
      if w.calls.any fun c' => c'.holds = some c.merchantId then .waits else .goesTo (.locked terms)
  | .locked terms =>
      (w.nextInvoiceNumber c.merchantId m.year).elim .fails fun number =>
        .goesTo (.numbered terms number)
  | .numbered terms number =>
      .goesTo (.opened terms number (sessionData c terms number m.freshId))
  | .opened terms number session =>
      .goesTo (.linked terms number
        { session with checkoutUrl := buildCheckoutUrl origin session.id })
  | .linked terms number session =>
      -- `@@unique([merchantId, number])`
      if (w.invoicesOf c.merchantId).any fun i => i.number = number then .fails
      else .goesTo (.inserted session (invoiceData c terms number session))
  | .inserted session invoice => .commits session invoice

inductive Label where
  | signUp (merchantId : Id)
  | create (merchantId : Id) (mode : Mode) (input : CreateInvoiceInput)
  /-- the `k`-th call's next statement -/
  | next (k : ℕ) (m : Moment)
  /-- the `k`-th call ends, and its transaction rolls back -/
  | fail (k : ℕ)
deriving DecidableEq, Repr

def World.run (origin : Str) (w : World) (k : ℕ) (c : Call) (m : Moment) : World :=
  match w.statement origin c m with
  | .waits => w
  | .fails => { w with calls := w.calls.eraseIdx k }
  | .goesTo stage => { w with calls := w.calls.set k { c with stage := stage } }
  | .commits session invoice => { w with
      sessions := w.sessions ++ [session]
      invoices := w.invoices ++ [invoice]
      calls := w.calls.eraseIdx k }

def step (origin : Str) (w : World) : Label → World
  | .signUp merchantId => { w with merchants := w.merchants ++ [merchantId] }
  | .create merchantId mode input =>
      { w with calls := w.calls ++ [⟨merchantId, mode, input, .started⟩] }
  | .next k m => (w.calls[k]?).elim w fun c => w.run origin k c m
  | .fail k => { w with calls := w.calls.eraseIdx k }

/-! ## Reading numbers back -/

theorem isDigit_padStart {s : Str} (h : ∀ c ∈ s, isDigit c = true) (width : ℕ) :
    ∀ c ∈ padStart width s, isDigit c = true := by
  intro c hc
  rcases List.mem_append.mp hc with hc | hc
  · rw [List.eq_of_mem_replicate hc]
    rfl
  · exact h c hc

/-- Zeros in front say nothing. -/
theorem digitsValue_padStart (width : ℕ) (s : Str) :
    digitsValue (padStart width s) = digitsValue s := by
  rw [digitsValue, padStart, List.map_append, List.reverse_append, List.map_replicate,
    List.reverse_replicate]
  exact Nat.ofDigits_append_replicate_zero _

theorem ne_dash {s : Str} (h : ∀ c ∈ s, isDigit c = true) :
    ∀ c ∈ s, decide (c ≠ DASH) = true := by
  intro c hc
  exact decide_eq_true (isDigit_ne (h c hc) (.inl (by decide)))

/-- A number's sequence part is the sequence it was made of. -/
theorem sequencePart_invoiceNumber (year sequence : ℕ) :
    sequencePart (invoiceNumber year sequence) = some sequence := by
  have hpad := isDigit_padStart (isDigit_decimal sequence) 4
  have hsplit : splitPart2 (invoiceNumber year sequence) = padStart 4 (decimal sequence) := by
    rw [splitPart2, invoiceNumber, List.dropWhile_append_of_pos (ne_dash (isDigit_decimal year)),
      List.dropWhile_cons_of_neg (by decide), List.drop_one, List.tail_cons,
      List.takeWhile_eq_self_iff]
    exact ne_dash hpad
  have hne : padStart 4 (decimal sequence) ≠ [] := by
    intro h
    exact decimal_ne_nil sequence (List.append_eq_nil_iff.mp h).2
  rw [sequencePart, hsplit, if_pos ⟨hne, List.all_eq_true.mpr hpad⟩, digitsValue_padStart,
    digitsValue_decimal]

/-- The largest of the sequence parts `1..n` is `n`. -/
theorem lastSequence_eq {numbers : List Str} {first n last : ℕ}
    (h : numbers.map sequencePart = (List.range' first n).map some)
    (hlast : lastSequence numbers = some last) : last = if n = 0 then 0 else first + n - 1 := by
  induction numbers generalizing first n last with
  | nil =>
      cases n with
      | zero => exact (Option.some.inj hlast).symm
      | succ n => cases h
  | cons number numbers ih =>
      cases n with
      | zero => cases h
      | succ n =>
          rw [List.range'_succ, List.map_cons, List.map_cons, List.cons.injEq] at h
          simp only [lastSequence, sequenceInt, h.1, Option.bind_eq_bind, Option.bind_some,
            Option.bind_eq_some_iff] at hlast
          obtain ⟨k, hk, rest, hrest, hmax⟩ := hlast
          have hfirst : k = first := by
            split at hk
            · exact (Option.some.inj hk).symm
            · cases hk
          have htail := ih h.2 hrest
          have hmax : max k rest = last := Option.some.inj hmax
          rw [if_neg (Nat.succ_ne_zero n)]
          split at htail <;> omega

end Strimz.Invoicing
