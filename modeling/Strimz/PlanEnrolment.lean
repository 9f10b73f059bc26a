import Strimz.PlanInterval
import Strimz.Script
import Strimz.SubscriptionSteps

/-!
# Plans on offer and enrolments

A plan passes `createSubscriptionPlanInputSchema`, the minimum amount and the column widths. Its
checkout quotes a start, fills the arguments of `permitAndCreateSubscription` from the plan, the API
re-derives them in `verify` some minutes later, and the contract checks them in a block after that.
The three agree on every plan whose amount and interval fit the contract's argument types; the API
checks neither width.
-/

namespace Strimz.PlanEnrolment

open Script PlanInterval
open Indexer (Currency SubscriptionInterval)

abbrev Id := Str

/-! ## Plans -/

inductive PlanStatus where
  | active
  | archived
deriving DecidableEq, Repr

/-- `CreateSubscriptionPlanParsed`, less the metadata; URLs as `callbackUrlSchema` leaves them. -/
structure CreateSubscriptionPlanInput where
  name : Str
  description : Option Str
  amount : Str
  currency : Currency
  interval : SubscriptionInterval
  intervalCount : ℕ
  trialPeriodDays : Option ℕ
  successUrl : Option Str
  cancelUrl : Option Str
deriving DecidableEq, Repr

/-- `createSubscriptionPlanInputSchema` -/
def CreateSubscriptionPlanInput.accepted (input : CreateSubscriptionPlanInput) : Bool :=
  decide (1 ≤ input.name.length ∧ input.name.length ≤ 120) &&
  input.description.all (fun d => decide (d.length ≤ 500)) &&
  (decide (input.amount ≠ []) && input.amount.all isDigit) &&
  decide (1 ≤ input.intervalCount ∧ input.intervalCount ≤ 365) &&
  input.trialPeriodDays.all fun days => decide (days ≤ 365)

/-- A row of `SubscriptionPlan`. -/
structure Plan where
  id : Id
  merchantId : Id
  name : Str
  description : Option Str
  amount : Str
  currency : Currency
  interval : SubscriptionInterval
  intervalCount : ℕ
  trialPeriodDays : Option ℕ
  status : PlanStatus
  successUrl : Option Str
  cancelUrl : Option Str
deriving DecidableEq, Repr

def MINIMUM_AMOUNT : ℕ := 1000000

/-- `amount String @db.VarChar(78)` -/
def AMOUNT_WIDTH : ℕ := 78

/-- `create`; `eligible` is what `requestRegistration` finds. -/
def create (eligible : Bool) (id merchantId : Id) (input : CreateSubscriptionPlanInput) :
    Option Plan :=
  if input.accepted = true ∧ MINIMUM_AMOUNT ≤ digitsValue input.amount ∧ eligible = true ∧
      input.amount.length ≤ AMOUNT_WIDTH then
    some {
      id := id
      merchantId := merchantId
      name := input.name
      description := input.description
      amount := input.amount
      currency := input.currency
      interval := input.interval
      intervalCount := input.intervalCount
      trialPeriodDays := input.trialPeriodDays
      status := .active
      successUrl := input.successUrl
      cancelUrl := input.cancelUrl }
  else none

/-- What is fixed once a plan exists. -/
def Plan.SameTerms (p q : Plan) : Prop :=
  p.id = q.id ∧ p.merchantId = q.merchantId ∧ p.amount = q.amount ∧ p.currency = q.currency ∧
    p.interval = q.interval ∧ p.intervalCount = q.intervalCount ∧
    p.trialPeriodDays = q.trialPeriodDays

/-! ## What the services read -/

/-- The configured token addresses. -/
structure Config where
  usdc : Option Str
  eurc : Option Str
deriving DecidableEq, Repr

/-- The plans, the payers' subscriptions by plan and payer, and the merchants' chain ids. -/
structure Db where
  plans : List Plan
  subscriptions : List (Id × Str)
  onchainMerchantId : Id → Option ℕ

def Db.plan (db : Db) (id : Id) : Option Plan := db.plans.find? fun p => p.id = id

/-- A valid `Date` of the clock, in milliseconds since the epoch. -/
def MAX_TIME : ℕ := 8640000000000000

structure Instant where
  ms : ℕ
  valid : ms ≤ MAX_TIME
deriving DecidableEq, Repr

/-- `unixSeconds` -/
def Instant.unixSeconds (t : Instant) : ℕ := t.ms / 1000

def isLowerHex (c : CodeUnit) : Bool := isDigit c || decide (97 ≤ c ∧ c ≤ 102)

/-- `normalisePayer` -/
def normalisePayer (payer : Str) : Option Str :=
  match toLowerCase (trim payer) with
  | 48 :: 120 :: digits =>
      if digits.length = 40 ∧ digits.all isLowerHex then some (48 :: 120 :: digits) else none
  | _ => none

/-- `tokenAddressForCurrency` -/
def tokenAddressForCurrency (cfg : Config) (currency : Currency) : Option Str :=
  let addr := match currency with
    | .usdc => cfg.usdc
    | .eurc => cfg.eurc
  match addr with
  | none | some [] => none
  | some addr => some (toLowerCase addr)

/-- The view the checkout page loads, as far as the enrolment uses it. -/
structure PlanView where
  id : Id
  chainMerchantId : Option ℕ
  tokenAddress : Option Str
  intervalSeconds : ℕ
  amount : Str
deriving DecidableEq, Repr

/-- `serialise` -/
def serialise (cfg : Config) (db : Db) (p : Plan) : PlanView where
  id := p.id
  chainMerchantId := db.onchainMerchantId p.merchantId
  tokenAddress := tokenAddressForCurrency cfg p.currency
  intervalSeconds := intervalSeconds p.interval p.intervalCount
  amount := p.amount

/-! ## Terms -/

def SECONDS_PER_DAY : ℕ := 86400

def TRIAL_START_TOLERANCE_SECONDS : ℕ := 15 * 60

/-- `trialDaysFor` -/
def trialDaysFor (db : Db) (p : Plan) (payerAddress : Str) : ℕ :=
  let days := p.trialPeriodDays.getD 0
  if days = 0 then 0
  else if db.subscriptions.any fun s => s.1 = p.id ∧ s.2 = payerAddress then 0
  else days

structure SubscriptionEnrolmentTerms where
  startAt : Str
  trialDays : ℕ
  trialEndsAt : Option Instant
deriving DecidableEq, Repr

/-- `new Date(ms)`, which has no text if it is out of range. -/
def dateOf (ms : ℕ) : Option Instant := if h : ms ≤ MAX_TIME then some ⟨ms, h⟩ else none

inductive Failure where
  | payer
  | notFound
  | invalidDate
  | mismatch (fields : List String)
deriving DecidableEq, Repr

def quote (db : Db) (planId payer : Str) (now : Instant) :
    Except Failure SubscriptionEnrolmentTerms :=
  match normalisePayer payer with
  | none => .error .payer
  | some payerAddress =>
      match db.plan planId with
      | none => .error .notFound
      | some p =>
          let trialDays := trialDaysFor db p payerAddress
          if trialDays = 0 then .ok ⟨text "0", 0, none⟩
          else
            let startAt := now.unixSeconds + trialDays * SECONDS_PER_DAY
            match dateOf (startAt * 1000) with
            | none => .error .invalidDate
            | some trialEndsAt => .ok ⟨decimal startAt, trialDays, some trialEndsAt⟩

structure EnrolmentRequest where
  planId : Id
  payer : Str
  merchantId : ℕ
  token : Str
  amount : ℕ
  interval : ℕ
  startAt : ℕ
  endAt : ℕ
deriving DecidableEq, Repr

/-- `push(field)` on a condition -/
def field (wrong : Bool) (name : String) : List String := if wrong then [name] else []

/-- The distance of two times. -/
def drift (startAt expected : ℕ) : ℕ :=
  if expected < startAt then startAt - expected else expected - startAt

/-- The fields `verify` finds wrong. -/
def wrongFields (cfg : Config) (db : Db) (p : Plan) (payerAddress : Str) (req : EnrolmentRequest)
    (now : Instant) : List String :=
  let trialDays := trialDaysFor db p payerAddress
  let expected := now.unixSeconds + trialDays * SECONDS_PER_DAY
  field (db.onchainMerchantId p.merchantId ≠ some req.merchantId) "merchantId" ++
  field (tokenAddressForCurrency cfg p.currency ≠ some (toLowerCase req.token)) "token" ++
  field (digitsValue p.amount ≠ req.amount) "amount" ++
  field (intervalSeconds p.interval p.intervalCount ≠ req.interval) "interval" ++
  field (req.endAt ≠ 0) "endAt" ++
  field (if trialDays = 0 then req.startAt ≠ 0
    else TRIAL_START_TOLERANCE_SECONDS < drift req.startAt expected) "startAt"

def verify (cfg : Config) (db : Db) (merchantId : Id) (req : EnrolmentRequest) (now : Instant) :
    Except Failure Unit :=
  match db.plan req.planId with
  | none => .error (.mismatch ["plan"])
  | some p =>
      if p.merchantId ≠ merchantId ∨ p.status ≠ .active then .error (.mismatch ["plan"])
      else
        match normalisePayer req.payer with
        | none => .error .payer
        | some payerAddress =>
            match wrongFields cfg db p payerAddress req now with
            | [] => .ok ()
            | fields => .error (.mismatch fields)

/-- What the checkout makes of a view and a quote. -/
def checkoutRequest (view : PlanView) (payer : Str) (terms : SubscriptionEnrolmentTerms) :
    Option EnrolmentRequest := do
  let merchantId ← view.chainMerchantId
  let token ← view.tokenAddress
  some {
    planId := view.id
    payer := payer
    merchantId := merchantId
    token := token
    amount := digitsValue view.amount
    interval := view.intervalSeconds
    startAt := digitsValue terms.startAt
    endAt := 0 }

/-! ## The contract's arguments -/

/-- A number as an argument of `w` bits; the encoder refuses one that does not fit. -/
def encodeUint (w n : ℕ) : Option (BitVec w) := if n < 2 ^ w then some (BitVec.ofNat w n) else none

/-- The arguments of `permitAndCreateSubscription`, with the token as an address. -/
def contractTerms (req : EnrolmentRequest) (token : Address) : Option Subscriptions.Terms := do
  let amount ← encodeUint 256 req.amount
  let interval ← encodeUint 32 req.interval
  let startAt ← encodeUint 64 req.startAt
  let endAt ← encodeUint 64 req.endAt
  some {
    merchantId := req.merchantId
    token := token
    amount := amount
    interval := interval
    startAt := startAt
    endAt := endAt }

/-- `UINT256_MAX`, what the checkout has the payer permit. -/
def permitValue : Uint256 := BitVec.allOnes 256

/-- The contract's checks on the amount, the interval, the start and the end. -/
structure TermsPass (msg : Msg) (p : Subscriptions.Terms) : Prop where
  amount : ¬ p.amount = 0
  permitted : ¬ permitValue < p.amount
  interval : ¬ p.interval < Subscriptions.MIN_INTERVAL
  startAt : ¬ (p.startAt ≠ 0 ∧ p.startAt < msg.timestamp)
  endAt : ¬ (p.endAt ≠ 0 ∧ p.endAt ≤ Subscriptions.firstChargeAt msg p)

/-! ## An offer -/

/-- A plan the API accepted and still offers, to a payer with an address. -/
structure Offer where
  cfg : Config
  db : Db
  input : CreateSubscriptionPlanInput
  merchantId : Id
  plan : Plan
  payer : Str
  payerAddress : Str
  chainMerchantId : ℕ
  tokenAddress : Str
  /-- the token as an address -/
  token : Address
  created : create true plan.id merchantId input = some plan
  listed : db.plan plan.id = some plan
  normalised : normalisePayer payer = some payerAddress
  linked : db.onchainMerchantId merchantId = some chainMerchantId
  configured : tokenAddressForCurrency cfg plan.currency = some tokenAddress

/-- The database when the enrolment is verified: the plan is active on the same terms, the merchant
is linked, and the payer's rows for the plan are what they were. -/
structure Offer.Later (o : Offer) (db : Db) : Prop where
  listed : ∃ p, db.plan o.plan.id = some p ∧ p.SameTerms o.plan ∧ p.status = .active
  linked : db.onchainMerchantId o.merchantId = some o.chainMerchantId
  unchanged : (db.subscriptions.filter fun s => s.1 = o.plan.id ∧ s.2 = o.payerAddress) =
    o.db.subscriptions.filter fun s => s.1 = o.plan.id ∧ s.2 = o.payerAddress

/-- The enrolment of the payer quoted at `now` goes through: the checkout's terms fit the contract's
arguments, every verification within a quarter of an hour accepts them, and so does the contract in
every block up to the quoted start. -/
def Offer.Enrols (o : Offer) (now : Instant) : Prop :=
  ∃ terms req args, quote o.db o.plan.id o.payer now = .ok terms ∧
    checkoutRequest (serialise o.cfg o.db o.plan) o.payer terms = some req ∧
    contractTerms req o.token = some args ∧
    (∀ db later, o.Later db → now.ms ≤ later.ms → later.ms ≤ now.ms + 15 * 60 * 1000 →
      verify o.cfg db o.merchantId req later = .ok ()) ∧
    ∀ msg : Msg, (terms.trialDays ≠ 0 → msg.timestamp.toNat ≤ req.startAt) → TermsPass msg args

/-- Seconds at which the payer's trial would end. -/
def Offer.trialEnd (o : Offer) (now : Instant) : ℕ :=
  now.unixSeconds + trialDaysFor o.db o.plan o.payerAddress * SECONDS_PER_DAY

/-! ## The quote -/

section Quote

variable {o : Offer} {now : Instant} {terms : SubscriptionEnrolmentTerms}

theorem Offer.create_spec (o : Offer) :
    o.input.accepted = true ∧ MINIMUM_AMOUNT ≤ digitsValue o.plan.amount ∧
      o.plan.amount.length ≤ AMOUNT_WIDTH ∧ o.plan.merchantId = o.merchantId ∧
      o.plan.interval = o.input.interval ∧ o.plan.intervalCount = o.input.intervalCount ∧
      o.plan.trialPeriodDays = o.input.trialPeriodDays ∧ o.plan.status = .active := by
  have h := o.created
  unfold create at h
  split at h
  · rename_i hchecks
    obtain ⟨haccepted, hminimum, -, hwidth⟩ := hchecks
    have heq := (Option.some.inj h).symm
    rw [heq]
    exact ⟨haccepted, hminimum, hwidth, rfl, rfl, rfl, rfl, rfl⟩
  · cases h

/-- What the payer is quoted. -/
theorem quote_eq_ok : quote o.db o.plan.id o.payer now = .ok terms ↔
    (trialDaysFor o.db o.plan o.payerAddress = 0 ∧ terms = ⟨text "0", 0, none⟩) ∨
    trialDaysFor o.db o.plan o.payerAddress ≠ 0 ∧ ∃ h : o.trialEnd now * 1000 ≤ MAX_TIME,
      terms = ⟨decimal (o.trialEnd now), trialDaysFor o.db o.plan o.payerAddress,
        some ⟨o.trialEnd now * 1000, h⟩⟩ := by
  simp only [quote, o.normalised, o.listed, dateOf]
  by_cases htrial : trialDaysFor o.db o.plan o.payerAddress = 0
  · rw [if_pos htrial]
    constructor
    · intro h
      exact .inl ⟨htrial, (Except.ok.inj h).symm⟩
    · rintro (⟨-, rfl⟩ | ⟨hne, -⟩)
      · rfl
      · exact absurd htrial hne
  · rw [if_neg htrial]
    by_cases hdate : o.trialEnd now * 1000 ≤ MAX_TIME
    · have hdate' : (now.unixSeconds + trialDaysFor o.db o.plan o.payerAddress * SECONDS_PER_DAY) *
          1000 ≤ MAX_TIME := hdate
      rw [dif_pos hdate']
      constructor
      · intro h
        exact .inr ⟨htrial, hdate, (Except.ok.inj h).symm⟩
      · rintro (⟨hzero, -⟩ | ⟨-, _, rfl⟩)
        · exact absurd hzero htrial
        · rfl
    · have hdate' : ¬ (now.unixSeconds + trialDaysFor o.db o.plan o.payerAddress *
          SECONDS_PER_DAY) * 1000 ≤ MAX_TIME := hdate
      rw [dif_neg hdate']
      constructor
      · intro h
        cases h
      · rintro (⟨hzero, -⟩ | ⟨-, h, -⟩)
        · exact absurd hzero htrial
        · exact absurd h hdate

/-- The request the checkout fills from the quote. -/
def Offer.request (o : Offer) (terms : SubscriptionEnrolmentTerms) : EnrolmentRequest where
  planId := o.plan.id
  payer := o.payer
  merchantId := o.chainMerchantId
  token := o.tokenAddress
  amount := digitsValue o.plan.amount
  interval := intervalSeconds o.plan.interval o.plan.intervalCount
  startAt := digitsValue terms.startAt
  endAt := 0

theorem checkoutRequest_eq (o : Offer) (terms : SubscriptionEnrolmentTerms) :
    checkoutRequest (serialise o.cfg o.db o.plan) o.payer terms = some (o.request terms) := by
  simp only [checkoutRequest, serialise, o.configured, o.create_spec.2.2.2.1, o.linked]
  rfl

end Quote

/-! ## Verification -/

section Verify

variable {o : Offer} {now later : Instant} {terms : SubscriptionEnrolmentTerms} {db : Db}

/-- A configured address is in lower case already. -/
theorem tokenAddress_lower {cfg : Config} {currency : Currency} {token : Str}
    (h : tokenAddressForCurrency cfg currency = some token) : toLowerCase token = token := by
  unfold tokenAddressForCurrency at h
  simp only at h
  split at h
  · cases h
  · cases h
  · rw [← Option.some.inj h, toLowerCase_idem]

/-- The same rows give the same trial. -/
theorem trialDaysFor_congr {p : Plan} (hterms : p.SameTerms o.plan)
    (hsame : (db.subscriptions.filter fun s => s.1 = o.plan.id ∧ s.2 = o.payerAddress) =
      o.db.subscriptions.filter fun s => s.1 = o.plan.id ∧ s.2 = o.payerAddress) :
    trialDaysFor db p o.payerAddress = trialDaysFor o.db o.plan o.payerAddress := by
  obtain ⟨hid, -, -, -, -, -, htrial⟩ := hterms
  have hany : ∀ rows : List (Id × Str),
      rows.any (fun s => s.1 = o.plan.id ∧ s.2 = o.payerAddress) =
        !(rows.filter fun s => s.1 = o.plan.id ∧ s.2 = o.payerAddress).isEmpty := by
    intro rows
    induction rows with
    | nil => rfl
    | cons r rows ih =>
        rw [List.any_cons, List.filter_cons, ih]
        split <;> rename_i hr <;> simp [hr]
  simp only [trialDaysFor, hid, htrial]
  rw [hany, hany, hsame]

/-- A quarter of an hour moves the expected start by as many seconds at most. -/
theorem drift_le (hfrom : now.ms ≤ later.ms) (hto : later.ms ≤ now.ms + 15 * 60 * 1000)
    (days : ℕ) :
    drift (now.unixSeconds + days) (later.unixSeconds + days) ≤ TRIAL_START_TOLERANCE_SECONDS := by
  unfold drift Instant.unixSeconds TRIAL_START_TOLERANCE_SECONDS
  split <;> omega

/-- What was quoted is accepted for a quarter of an hour. -/
theorem verify_quoted (hquote : quote o.db o.plan.id o.payer now = .ok terms) (hlater : o.Later db)
    (hfrom : now.ms ≤ later.ms) (hto : later.ms ≤ now.ms + 15 * 60 * 1000) :
    verify o.cfg db o.merchantId (o.request terms) later = .ok () := by
  obtain ⟨p, hlisted, hterms, hactive⟩ := hlater.listed
  have htrial := trialDaysFor_congr hterms hlater.unchanged
  obtain ⟨-, hmerchant, hamount, hcurrency, hinterval, hcount, -⟩ := hterms
  have hmerchant : p.merchantId = o.merchantId := hmerchant.trans o.create_spec.2.2.2.1
  have hfields : wrongFields o.cfg db p o.payerAddress (o.request terms) later = [] := by
    have hstart : field (if trialDaysFor db p o.payerAddress = 0 then (o.request terms).startAt ≠ 0
        else TRIAL_START_TOLERANCE_SECONDS < drift (o.request terms).startAt
          (later.unixSeconds + trialDaysFor db p o.payerAddress * SECONDS_PER_DAY)) "startAt" =
        [] := by
      rw [htrial]
      rcases quote_eq_ok.mp hquote with ⟨hzero, rfl⟩ | ⟨hne, -, rfl⟩
      · rw [if_pos hzero]
        rfl
      · have hdrift := drift_le hfrom hto
          (trialDaysFor o.db o.plan o.payerAddress * SECONDS_PER_DAY)
        rw [if_neg hne, Offer.request, digitsValue_decimal, field, Offer.trialEnd,
          if_neg (by simpa using hdrift)]
    simp only [wrongFields]
    rw [hstart, hmerchant, hamount, hcurrency, hinterval, hcount, hlater.linked, o.configured,
      Offer.request, tokenAddress_lower o.configured]
    simp [field]
  simp only [verify, Offer.request, hlisted, o.normalised]
  rw [if_neg (by simp [hmerchant, hactive])]
  simp only [Offer.request] at hfields
  rw [hfields]

end Verify

/-! ## The contract -/

section Contract

variable {o : Offer} {now : Instant} {terms : SubscriptionEnrolmentTerms}

theorem encodeUint_eq_some {w n : ℕ} {v : BitVec w} :
    encodeUint w n = some v ↔ n < 2 ^ w ∧ v = BitVec.ofNat w n := by
  unfold encodeUint
  split
  · rename_i h
    rw [Option.some.injEq]
    exact ⟨fun heq => ⟨h, heq.symm⟩, fun heq => heq.2.symm⟩
  · rename_i h
    constructor
    · intro heq
      cases heq
    · rintro ⟨hlt, -⟩
      exact absurd hlt h

/-- The arguments exist exactly if the numbers fit. -/
theorem contractTerms_isSome {req : EnrolmentRequest} {token : Address} :
    (∃ args, contractTerms req token = some args) ↔
      req.amount < 2 ^ 256 ∧ req.interval < 2 ^ 32 ∧ req.startAt < 2 ^ 64 ∧ req.endAt < 2 ^ 64 := by
  simp only [contractTerms, Option.bind_eq_bind, Option.bind_eq_some_iff, encodeUint_eq_some]
  constructor
  · rintro ⟨args, _, ⟨hamount, -⟩, _, ⟨hinterval, -⟩, _, ⟨hstart, -⟩, _, ⟨hend, -⟩, -⟩
    exact ⟨hamount, hinterval, hstart, hend⟩
  · rintro ⟨hamount, hinterval, hstart, hend⟩
    exact ⟨_, _, ⟨hamount, rfl⟩, _, ⟨hinterval, rfl⟩, _, ⟨hstart, rfl⟩, _, ⟨hend, rfl⟩, rfl⟩

theorem contractTerms_spec {req : EnrolmentRequest} {token : Address} {args : Subscriptions.Terms}
    (h : contractTerms req token = some args) :
    args.amount.toNat = req.amount ∧ args.interval.toNat = req.interval ∧
      args.startAt.toNat = req.startAt ∧ args.endAt.toNat = req.endAt := by
  simp only [contractTerms, Option.bind_eq_bind, Option.bind_eq_some_iff, encodeUint_eq_some] at h
  obtain ⟨_, ⟨hamount, rfl⟩, _, ⟨hinterval, rfl⟩, _, ⟨hstart, rfl⟩, _, ⟨hend, rfl⟩, heq⟩ := h
  obtain rfl := Option.some.inj heq
  simp only [BitVec.toNat_ofNat]
  exact ⟨Nat.mod_eq_of_lt hamount, Nat.mod_eq_of_lt hinterval, Nat.mod_eq_of_lt hstart,
    Nat.mod_eq_of_lt hend⟩

/-- An accepted interval is a day at least, and fits exactly if it is not a long run of years. -/
theorem intervalSeconds_fits (interval : SubscriptionInterval) {count : ℕ} (hpos : 1 ≤ count)
    (hle : count ≤ 365) : 86400 ≤ intervalSeconds interval count ∧
      (intervalSeconds interval count < 2 ^ 32 ↔ (interval = .yearly → count ≤ 136)) := by
  cases interval <;> simp only [intervalSeconds, SECONDS_PER_INTERVAL, reduceCtorEq,
    false_implies, true_implies, iff_true] <;> omega

theorem Offer.count_spec (o : Offer) : 1 ≤ o.plan.intervalCount ∧ o.plan.intervalCount ≤ 365 := by
  obtain ⟨haccepted, -, -, -, -, hcount, -, -⟩ := o.create_spec
  rw [hcount]
  simp only [CreateSubscriptionPlanInput.accepted, Bool.and_eq_true, decide_eq_true_eq] at haccepted
  exact haccepted.1.2

/-- Terms that fit pass the contract's checks, up to the quoted start. -/
theorem termsPass {args : Subscriptions.Terms}
    (hargs : contractTerms (o.request terms) o.token = some args) (msg : Msg)
    (hblock : digitsValue terms.startAt ≠ 0 → msg.timestamp.toNat ≤ digitsValue terms.startAt) :
    TermsPass msg args := by
  obtain ⟨hamount, hinterval, hstart, hend⟩ := contractTerms_spec hargs
  obtain ⟨hpos, hle⟩ := o.count_spec
  have hminimum : 1000000 ≤ digitsValue o.plan.amount := o.create_spec.2.1
  have hday := (intervalSeconds_fits o.plan.interval hpos hle).1
  simp only [Offer.request] at hamount hinterval hstart hend
  have hendAt : args.endAt = 0 := BitVec.eq_of_toNat_eq (by rw [hend]; rfl)
  refine ⟨?_, ?_, ?_, ?_, fun h => h.1 hendAt⟩
  · intro hzero
    rw [hzero] at hamount
    rw [← hamount] at hminimum
    exact absurd hminimum (by decide)
  · rw [BitVec.lt_def, permitValue, BitVec.toNat_allOnes]
    have := args.amount.isLt
    omega
  · rw [BitVec.lt_def, hinterval]
    have hmin : Subscriptions.MIN_INTERVAL.toNat = 3600 := rfl
    omega
  · rintro ⟨hne, hlt⟩
    have hstartAt : digitsValue terms.startAt ≠ 0 := by
      intro hzero
      exact hne (BitVec.eq_of_toNat_eq (by rw [hstart, hzero]; rfl))
    rw [BitVec.lt_def, hstart] at hlt
    exact absurd (hblock hstartAt) (Nat.not_le.mpr hlt)

end Contract

/-! ## Which offers can be taken up -/

section Enrols

variable {o : Offer} {now : Instant}

/-- An amount or an interval out of range keeps everyone out. -/
theorem enrols_fits (h : o.Enrols now) : digitsValue o.plan.amount < 2 ^ 256 ∧
    intervalSeconds o.plan.interval o.plan.intervalCount < 2 ^ 32 := by
  obtain ⟨terms, req, args, -, hreq, hargs, -⟩ := h
  rw [checkoutRequest_eq] at hreq
  obtain rfl := Option.some.inj hreq
  obtain ⟨hamount, hinterval, -⟩ := contractTerms_isSome.mp ⟨args, hargs⟩
  exact ⟨hamount, hinterval⟩

/-- The payer's enrolment goes through exactly if the amount is a `uint256`, a yearly plan bills at
least every 136 years, and a trial ends at a time that a date can show. -/
theorem enrols_iff (o : Offer) (now : Instant) :
    o.Enrols now ↔ digitsValue o.plan.amount < 2 ^ 256 ∧
      (o.plan.interval = .yearly → o.plan.intervalCount ≤ 136) ∧
      (trialDaysFor o.db o.plan o.payerAddress ≠ 0 → o.trialEnd now * 1000 ≤ MAX_TIME) := by
  obtain ⟨hpos, hle⟩ := o.count_spec
  have hyears := (intervalSeconds_fits o.plan.interval hpos hle).2
  constructor
  · intro h
    obtain ⟨hamount, hinterval⟩ := enrols_fits h
    obtain ⟨terms, -, -, hquote, -⟩ := h
    refine ⟨hamount, hyears.mp hinterval, fun hne => ?_⟩
    rcases quote_eq_ok.mp hquote with ⟨hzero, -⟩ | ⟨-, hdate, -⟩
    · exact absurd hzero hne
    · exact hdate
  · rintro ⟨hamount, hyearly, hdate⟩
    have hinterval := hyears.mpr hyearly
    obtain ⟨terms, hquote, hstart, hblock⟩ : ∃ terms, quote o.db o.plan.id o.payer now = .ok terms ∧
        digitsValue terms.startAt < 2 ^ 64 ∧
        (digitsValue terms.startAt ≠ 0 → terms.trialDays ≠ 0) := by
      by_cases htrial : trialDaysFor o.db o.plan o.payerAddress = 0
      · exact ⟨_, quote_eq_ok.mpr (.inl ⟨htrial, rfl⟩), by decide, fun h => absurd rfl h⟩
      · refine ⟨_, quote_eq_ok.mpr (.inr ⟨htrial, hdate htrial, rfl⟩), ?_, fun _ => htrial⟩
        have := hdate htrial
        rw [digitsValue_decimal]
        unfold MAX_TIME at this
        omega
    have hfits : ∃ args, contractTerms (o.request terms) o.token = some args :=
      contractTerms_isSome.mpr ⟨hamount, hinterval, hstart, Nat.two_pow_pos 64⟩
    obtain ⟨args, hargs⟩ := hfits
    refine ⟨terms, o.request terms, args, hquote, checkoutRequest_eq o terms, hargs, ?_, ?_⟩
    · intro db later hlater hfrom hto
      exact verify_quoted hquote hlater hfrom hto
    · intro msg hmsg
      exact termsPass hargs msg fun hne => hmsg (hblock hne)

end Enrols

/-! ## Offers nobody can take up -/

def sampleInput (amount : Str) (interval : SubscriptionInterval) (intervalCount : ℕ) :
    CreateSubscriptionPlanInput :=
  ⟨text "Plan", none, amount, .usdc, interval, intervalCount, none, none, none⟩

def samplePlan (input : CreateSubscriptionPlanInput) : Plan where
  id := text "plan"
  merchantId := text "merchant"
  name := input.name
  description := input.description
  amount := input.amount
  currency := input.currency
  interval := input.interval
  intervalCount := input.intervalCount
  trialPeriodDays := input.trialPeriodDays
  status := .active
  successUrl := input.successUrl
  cancelUrl := input.cancelUrl

/-- An accepted plan of a linked merchant, in a configured currency. -/
def sampleOffer (amount : Str) (interval : SubscriptionInterval) (intervalCount : ℕ)
    (h : create true (text "plan") (text "merchant") (sampleInput amount interval intervalCount) =
      some (samplePlan (sampleInput amount interval intervalCount))) : Offer where
  cfg := ⟨some (text "0xA1"), none⟩
  db := ⟨[samplePlan (sampleInput amount interval intervalCount)], [], fun _ => some 1⟩
  input := sampleInput amount interval intervalCount
  merchantId := text "merchant"
  plan := samplePlan (sampleInput amount interval intervalCount)
  payer := text "0x" ++ List.replicate 40 48
  payerAddress := text "0x" ++ List.replicate 40 48
  chainMerchantId := 1
  tokenAddress := text "0xa1"
  token := 0xa1
  created := h
  listed := by simp [Db.plan]
  normalised := by decide
  linked := rfl
  configured := by simp [samplePlan, sampleInput, tokenAddressForCurrency, toLowerCase, text]

/-- 78 nines. -/
def hugeAmount : Offer := sampleOffer (List.replicate 78 57) .monthly 1 (by decide +kernel)

def every137Years : Offer := sampleOffer (text "1000000") .yearly 137 (by decide +kernel)

theorem offers_without_takers :
    (∀ now, ¬ hugeAmount.Enrols now) ∧ ∀ now, ¬ every137Years.Enrols now := by
  constructor
  · intro now h
    exact absurd (enrols_fits h).1 (by decide +kernel)
  · intro now h
    exact absurd (enrols_fits h).2 (by decide +kernel)

end Strimz.PlanEnrolment
