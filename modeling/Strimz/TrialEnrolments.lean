import Strimz.PlanEnrolment
import Strimz.Runs

/-!
# Trials, from the check to the row

`verify` grants a trial to a payer without a row for the plan. The row is written by the indexer,
some time after the chain created the subscription, and under the plan it finds by the on-chain
amount, currency and seconds. Between the two are the relay's jobs and the logs that wait for
projection; anything may happen in between.

A quote writes nothing, and the request a payer submits is arbitrary here. The relay's other checks
(an active subscription, the attempt pointer, funds, the simulation) can only refuse a request, and
do as they like.
-/

namespace Strimz.PlanEnrolment

open Script PlanInterval Runs
open Indexer (Currency SubscriptionInterval intervalFromSeconds)

/-! ## The system -/

structure Setup where
  cfg : Config
  /-- A token's text, as the encoder reads it. -/
  address : Str → Address
  /-- The indexer's `tokens`. -/
  tokens : Address → Option Currency

/-- An enrolment on its way to the chain or created there; `trialOf` is the plan that `verify`
accepted it for with a trial start. -/
structure Enrolment where
  payer : Str
  terms : Subscriptions.Terms
  trialOf : Option Id
deriving DecidableEq

def Enrolment.trialKey (e : Enrolment) : Option (Id × Str) := e.trialOf.map fun id => (id, e.payer)

structure World where
  now : Instant
  db : Db
  /-- Relay jobs whose call may still be mined. -/
  jobs : List Enrolment
  created : List Enrolment
  /-- `SubscriptionCreated` logs that are not projected. -/
  unprojected : List Enrolment

inductive Label where
  | elapse (ms : ℕ)
  | link (merchantId : Id) (onchainMerchantId : ℕ)
  | createPlan (eligible : Bool) (id merchantId : Id) (input : CreateSubscriptionPlanInput)
  | updateReturnUrls (merchantId id : Id) (successUrl cancelUrl : Option (Option Str))
  | archive (merchantId id : Id)
  /-- `POST /v1/relay/subscriptions`; `admitted` is what the other checks find. -/
  | submit (merchantId : Id) (req : EnrolmentRequest) (admitted : Bool)
  /-- The `k`-th job's call is mined, sent by the relayer, or will never be. -/
  | mine (k : ℕ) (relayer : Address)
  | drop (k : ℕ)
  /-- A subscription the API knows nothing of. -/
  | enrol (payer : Str) (terms : Subscriptions.Terms)
  /-- The `j`-th log is projected for the merchant it names; `pick` is the row a scan meets first,
  `newId` the id of a new one. -/
  | project (j : ℕ) (merchantId : Id) (pick : ℕ) (newId : Id)

/-! ## What the parts do -/

def Db.insertPlan (db : Db) (p : Plan) : Db :=
  if (db.plan p.id).isSome then db else { db with plans := db.plans ++ [p] }

/-- `update` on the plans that `retrieve` finds. -/
def Db.updatePlan (db : Db) (merchantId id : Id) (change : Plan → Plan) : Db :=
  { db with plans :=
      db.plans.map fun p => if p.id = id ∧ p.merchantId = merchantId then change p else p }

/-- What `SubscriptionPlan` rows are looked up by. -/
structure PlanKey where
  merchantId : Id
  amount : Str
  currency : Currency
  interval : SubscriptionInterval
  intervalCount : ℕ
deriving DecidableEq

/-- The projector's reading of the log's amount, token and seconds. -/
def planKey (merchantId : Id) (currency : Currency) (terms : Subscriptions.Terms) : PlanKey where
  merchantId := merchantId
  amount := decimal terms.amount.toNat
  currency := currency
  interval := (intervalFromSeconds terms.interval).1
  intervalCount := (intervalFromSeconds terms.interval).2

/-- The rows of the `SELECT` in `findOrCreatePlan`, before its `LIMIT 1`. -/
def Db.found (db : Db) (key : PlanKey) : List Plan :=
  db.plans.filter fun p =>
    p.merchantId = key.merchantId ∧ p.amount = key.amount ∧ p.currency = key.currency ∧
      p.interval = key.interval ∧ p.intervalCount = key.intervalCount ∧ p.status = .active

def intervalName : SubscriptionInterval → String
  | .daily => "daily"
  | .weekly => "weekly"
  | .monthly => "monthly"
  | .quarterly => "quarterly"
  | .yearly => "yearly"

/-- The plan `findOrCreatePlan` inserts. -/
def autoPlan (id : Id) (key : PlanKey) : Plan where
  id := id
  merchantId := key.merchantId
  name := text "On-chain auto · " ++ text (intervalName key.interval) ++ text " × " ++
    decimal key.intervalCount
  description := some (text "Auto-discovered by indexer from on-chain SubscriptionCreated event")
  amount := key.amount
  currency := key.currency
  interval := key.interval
  intervalCount := key.intervalCount
  trialPeriodDays := none
  status := .active
  successUrl := none
  cancelUrl := none

/-- The id of the plan, and the database with it; `none` if `newId` is taken. -/
def findOrCreatePlan (db : Db) (key : PlanKey) (pick : ℕ) (newId : Id) : Option (Id × Db) :=
  match (db.found key)[pick % (db.found key).length]? with
  | some p => some (p.id, db)
  | none => if (db.plan newId).isSome then none else some (newId, db.insertPlan (autoPlan newId key))

def Db.insertSubscription (db : Db) (planId : Id) (payer : Str) : Db :=
  { db with subscriptions := db.subscriptions ++ [(planId, payer)] }

/-- The contract's checks on the terms, in the block at `now`. -/
def passes (now : Instant) (relayer : Address) (terms : Subscriptions.Terms) : Prop :=
  TermsPass ⟨relayer, BitVec.ofNat 64 now.unixSeconds⟩ terms

instance (msg : Msg) (p : Subscriptions.Terms) : Decidable (TermsPass msg p) :=
  decidable_of_iff (¬ p.amount = 0 ∧ ¬ permitValue < p.amount ∧
    ¬ p.interval < Subscriptions.MIN_INTERVAL ∧ ¬ (p.startAt ≠ 0 ∧ p.startAt < msg.timestamp) ∧
    ¬ (p.endAt ≠ 0 ∧ p.endAt ≤ Subscriptions.firstChargeAt msg p))
    ⟨fun h => ⟨h.1, h.2.1, h.2.2.1, h.2.2.2.1, h.2.2.2.2⟩,
      fun h => ⟨h.amount, h.permitted, h.interval, h.startAt, h.endAt⟩⟩

instance (now : Instant) (relayer : Address) (terms : Subscriptions.Terms) :
    Decidable (passes now relayer terms) :=
  inferInstanceAs (Decidable (TermsPass _ _))

/-- The chain creates a subscription. -/
def World.create (w : World) (e : Enrolment) : World :=
  { w with created := w.created ++ [e], unprojected := w.unprojected ++ [e] }

section Code

variable (S : Setup)

/-- What a request becomes once it is accepted. -/
def enrolment (req : EnrolmentRequest) : Option Enrolment := do
  let terms ← contractTerms req (S.address req.token)
  let payer ← normalisePayer req.payer
  some ⟨payer, terms, if req.startAt = 0 then none else some req.planId⟩

/-- `submitPermitAndCreateSubscription` -/
def World.submit (w : World) (merchantId : Id) (req : EnrolmentRequest) (admitted : Bool) :
    World :=
  match verify S.cfg w.db merchantId req w.now with
  | .error _ => w
  | .ok () =>
      if admitted then { w with jobs := w.jobs ++ (enrolment S req).toList } else w

/-- The log stays where it is if its token or its merchant is unknown. -/
def World.project (w : World) (j : ℕ) (merchantId : Id) (pick : ℕ) (newId : Id) : World :=
  match w.unprojected[j]? with
  | none => w
  | some e =>
      match S.tokens e.terms.token with
      | none => w
      | some currency =>
          if w.db.onchainMerchantId merchantId = some e.terms.merchantId then
            match findOrCreatePlan w.db (planKey merchantId currency e.terms) pick newId with
            | none => w
            | some (planId, db) =>
                { w with
                  db := db.insertSubscription planId e.payer
                  unprojected := w.unprojected.eraseIdx j }
          else w

def step (w : World) : Label → World
  | .elapse ms => { w with now := (dateOf (w.now.ms + ms)).getD w.now }
  | .link merchantId onchainMerchantId =>
      if w.db.onchainMerchantId merchantId = none then
        { w with db := { w.db with
            onchainMerchantId := Function.update w.db.onchainMerchantId merchantId
              (some onchainMerchantId) } }
      else w
  | .createPlan eligible id merchantId input =>
      match create eligible id merchantId input with
      | none => w
      | some p => { w with db := w.db.insertPlan p }
  | .updateReturnUrls merchantId id successUrl cancelUrl =>
      { w with db := w.db.updatePlan merchantId id fun p =>
          { p with
            successUrl := successUrl.getD p.successUrl
            cancelUrl := cancelUrl.getD p.cancelUrl } }
  | .archive merchantId id =>
      { w with db := w.db.updatePlan merchantId id fun p => { p with status := .archived } }
  | .submit merchantId req admitted => w.submit S merchantId req admitted
  | .mine k relayer =>
      match w.jobs[k]? with
      | none => w
      | some e =>
          if passes w.now relayer e.terms then
            { w.create e with jobs := w.jobs.eraseIdx k }
          else w
  | .drop k => { w with jobs := w.jobs.eraseIdx k }
  | .enrol payer terms => w.create ⟨payer, terms, none⟩
  | .project j merchantId pick newId => w.project S j merchantId pick newId

end Code

/-! ## What is claimed -/

/-- At most one subscription with a trial for each plan and payer. -/
def World.OneTrial (w : World) : Prop :=
  ∀ key, (w.created.filterMap Enrolment.trialKey).count key ≤ 1

/-- Nothing is on its way yet. -/
structure World.Launched (w : World) : Prop where
  jobs : w.jobs = []
  created : w.created = []
  unprojected : w.unprojected = []

/-- The trials on their way: accepted or created, and not yet rows. -/
def World.pending (w : World) : List (Id × Str) :=
  (w.jobs ++ w.unprojected).filterMap Enrolment.trialKey

/-- No trial is submitted while one of the payer in the plan is on its way, and the log of a trial
is projected while the plan it was accepted for, and no other, is found by its terms. -/
def Careful (S : Setup) (w : World) : Label → Prop
  | .submit _ req _ =>
      req.startAt ≠ 0 → ∀ payer, normalisePayer req.payer = some payer →
        (req.planId, payer) ∉ w.pending
  | .project j merchantId _ _ =>
      ∀ e ∈ w.unprojected[j]?, ∀ planId ∈ e.trialOf, ∀ currency ∈ S.tokens e.terms.token,
        w.db.onchainMerchantId merchantId = some e.terms.merchantId →
          w.db.found (planKey merchantId currency e.terms) ≠ [] ∧
            ∀ p ∈ w.db.found (planKey merchantId currency e.terms), p.id = planId
  | _ => True

/-- A plan is found by the terms of an enrolment in it if it is still active, its amount has no
leading zeros, and the seconds come back as its own interval. -/
theorem mem_found_iff {db : Db} {p : Plan} {req : EnrolmentRequest} {token : Address}
    {args : Subscriptions.Terms} (hp : p ∈ db.plans) (hargs : contractTerms req token = some args)
    (hamount : digitsValue p.amount = req.amount)
    (hinterval : intervalSeconds p.interval p.intervalCount = req.interval) :
    p ∈ db.found (planKey p.merchantId p.currency args) ↔
      p.amount = decimal (digitsValue p.amount) ∧
        intervalFromSeconds (BitVec.ofNat 32 (intervalSeconds p.interval p.intervalCount)) =
          (p.interval, p.intervalCount) ∧ p.status = .active := by
  obtain ⟨ha, hi, -, -⟩ := contractTerms_spec hargs
  have hseconds : BitVec.ofNat 32 (intervalSeconds p.interval p.intervalCount) = args.interval := by
    rw [hinterval, ← hi, BitVec.ofNat_toNat, BitVec.setWidth_eq]
  rw [hseconds, hamount, ← ha, Prod.ext_iff]
  simp only [Db.found, planKey, List.mem_filter, decide_eq_true_eq, hp, true_and]
  constructor
  · rintro ⟨hamount, hname, hcount, hactive⟩
    exact ⟨hamount, ⟨hname.symm, hcount.symm⟩, hactive⟩
  · rintro ⟨hamount, ⟨hname, hcount⟩, hactive⟩
    exact ⟨hamount, hname.symm, hcount.symm, hactive⟩

/-! ## One step -/

section Step

variable {S : Setup} {w : World} {l : Label}

/-- A trial that is accepted has no row. -/
theorem verify_trial {cfg : Config} {db : Db} {merchantId : Id} {req : EnrolmentRequest}
    {now : Instant} {payer : Str} (h : verify cfg db merchantId req now = .ok ())
    (hstart : req.startAt ≠ 0) (hpayer : normalisePayer req.payer = some payer) :
    (req.planId, payer) ∉ db.subscriptions := by
  unfold verify at h
  cases hplan : db.plan req.planId with
  | none =>
      rw [hplan] at h
      cases h
  | some p =>
      have hid : p.id = req.planId := by simpa using List.find?_some hplan
      rw [hplan] at h
      dsimp only at h
      split at h
      · cases h
      · rw [hpayer] at h
        dsimp only at h
        split at h
        next hfields =>
          simp only [wrongFields, List.append_eq_nil_iff] at hfields
          have htrial : trialDaysFor db p payer ≠ 0 := by
            intro hzero
            have hwrong := hfields.2
            rw [if_pos hzero, field, if_pos (by simpa using hstart)] at hwrong
            cases hwrong
          intro hrow
          refine htrial ?_
          have hany : db.subscriptions.any (fun s => s.1 = p.id ∧ s.2 = payer) = true :=
            List.any_eq_true.mpr ⟨_, hrow, by simp [hid]⟩
          unfold trialDaysFor
          dsimp only
          rw [if_pos hany, ite_self]
        next => cases h

/-- Trials are granted once, and every one created is a row or waits for projection. -/
structure Once (w : World) : Prop where
  nodup : ((w.jobs ++ w.created).filterMap Enrolment.trialKey).Nodup
  rows : ∀ e ∈ w.created, ∀ key ∈ e.trialKey, key ∈ w.db.subscriptions ∨ e ∈ w.unprojected

theorem Once.oneTrial (h : Once w) : w.OneTrial := by
  intro key
  have hnodup := h.nodup
  rw [List.filterMap_append] at hnodup
  exact List.nodup_iff_count_le_one.mp (List.nodup_append.mp hnodup).2.1 key

/-- Steps that leave the jobs and the chain alone, and lose no row. -/
theorem Once.of_rows (h : Once w) {now : Instant} {db : Db}
    (hrows : w.db.subscriptions ⊆ db.subscriptions) : Once { w with now, db } where
  nodup := h.nodup
  rows e he key hkey := (h.rows e he key hkey).imp_left fun hrow => hrows hrow

theorem insertPlan_subscriptions (db : Db) (p : Plan) :
    (db.insertPlan p).subscriptions = db.subscriptions := by
  unfold Db.insertPlan
  split <;> rfl

/-- A new key is new among all that were granted. -/
theorem Once.not_mem (h : Once w) {key : Id × Str} (hrow : key ∉ w.db.subscriptions)
    (hpending : key ∉ w.pending) : key ∉ (w.jobs ++ w.created).filterMap Enrolment.trialKey := by
  intro hmem
  rw [World.pending, List.filterMap_append, List.mem_append, not_or] at hpending
  rw [List.filterMap_append, List.mem_append] at hmem
  rcases hmem with hjob | hcreated
  · exact hpending.1 hjob
  · obtain ⟨e, he, hkey⟩ := List.mem_filterMap.mp hcreated
    rcases h.rows e he key hkey with hmem | hmem
    · exact hrow hmem
    · exact hpending.2 (List.mem_filterMap.mpr ⟨e, hmem, hkey⟩)

/-- An accepted request joins the jobs. -/
theorem Once.accept (h : Once w) {e : Enrolment}
    (hnew : ∀ key ∈ e.trialKey, key ∉ (w.jobs ++ w.created).filterMap Enrolment.trialKey) :
    Once { w with jobs := w.jobs ++ [e] } where
  rows := h.rows
  nodup := by
    have hperm : ((w.jobs ++ [e] ++ w.created).filterMap Enrolment.trialKey).Perm
        (e.trialKey.toList ++ (w.jobs ++ w.created).filterMap Enrolment.trialKey) := by
      have hmove : (w.jobs ++ [e] ++ w.created).Perm ([e] ++ (w.jobs ++ w.created)) := by
        rw [List.append_assoc]
        exact List.perm_middle
      refine (hmove.filterMap _).trans ?_
      cases hkey : e.trialKey <;> simp [hkey]
    refine hperm.nodup_iff.mpr ?_
    cases hkey : e.trialKey with
    | none => exact h.nodup
    | some key => exact List.nodup_cons.mpr ⟨hnew key hkey, h.nodup⟩

theorem Once.submit (h : Once w) {merchantId : Id} {req : EnrolmentRequest} {admitted : Bool}
    (hcareful : Careful S w (.submit merchantId req admitted)) :
    Once (w.submit S merchantId req admitted) := by
  unfold World.submit
  split
  · exact h
  next hverify =>
    split
    · cases henrolment : enrolment S req with
      | none =>
          rw [Option.toList_none, List.append_nil]
          exact h
      | some e =>
          refine h.accept fun key hkey => ?_
          simp only [enrolment, Option.bind_eq_bind, Option.bind_eq_some_iff,
            Option.some.injEq] at henrolment
          obtain ⟨terms, -, payer, hpayer, rfl⟩ := henrolment
          by_cases hstart : req.startAt = 0
          · rw [Enrolment.trialKey, if_pos hstart] at hkey
            cases hkey
          · rw [Enrolment.trialKey, if_neg hstart] at hkey
            obtain rfl : (req.planId, payer) = key := Option.some.inj hkey
            exact h.not_mem (verify_trial hverify hstart hpayer) (hcareful hstart payer hpayer)
    · exact h

/-- A job's call is mined. -/
theorem Once.mine (h : Once w) {k : ℕ} {e : Enrolment} (he : w.jobs[k]? = some e) :
    Once { w.create e with jobs := w.jobs.eraseIdx k } where
  nodup := by
    obtain ⟨hk, rfl⟩ := List.getElem?_eq_some_iff.mp he
    have hmove : (w.jobs.eraseIdx k ++ (w.created ++ [w.jobs[k]])).Perm (w.jobs ++ w.created) := by
      rw [← List.append_assoc]
      refine List.perm_append_comm.trans ?_
      rw [← List.append_assoc]
      exact (List.getElem_cons_eraseIdx_perm hk).append_right w.created
    exact (hmove.filterMap _).nodup_iff.mpr h.nodup
  rows e' he' key hkey := by
    rcases List.mem_append.mp he' with hold | hnew
    · exact (h.rows e' hold key hkey).imp_right fun hmem => List.mem_append_left _ hmem
    · exact .inr (List.mem_append_right _ hnew)

theorem Once.drop (h : Once w) (k : ℕ) : Once { w with jobs := w.jobs.eraseIdx k } where
  nodup := h.nodup.sublist
    (((List.eraseIdx_sublist w.jobs k).append_right w.created).filterMap _)
  rows := h.rows

theorem Once.enrol (h : Once w) (payer : Str) (terms : Subscriptions.Terms) :
    Once (w.create ⟨payer, terms, none⟩) where
  nodup := by
    have hsame : (w.created ++ [(⟨payer, terms, none⟩ : Enrolment)]).filterMap
        Enrolment.trialKey = w.created.filterMap Enrolment.trialKey := by
      rw [List.filterMap_append]
      exact List.append_nil _
    rw [World.create, List.filterMap_append, hsame, ← List.filterMap_append]
    exact h.nodup
  rows e he key hkey := by
    rcases List.mem_append.mp he with hold | hnew
    · exact (h.rows e hold key hkey).imp_right fun hmem => List.mem_append_left _ hmem
    · exact .inr (List.mem_append_right _ hnew)

/-- The plan is one that was found, or a new one if none was. -/
theorem findOrCreatePlan_cases {db db' : Db} {key : PlanKey} {pick : ℕ} {newId planId : Id}
    (h : findOrCreatePlan db key pick newId = some (planId, db')) :
    db'.subscriptions = db.subscriptions ∧
      ((∃ p ∈ db.found key, p.id = planId) ∨ db.found key = []) := by
  unfold findOrCreatePlan at h
  split at h
  next p hp =>
    cases h
    exact ⟨rfl, .inl ⟨p, List.mem_of_getElem? hp, rfl⟩⟩
  next hnone =>
    split at h
    · cases h
    · cases h
      refine ⟨insertPlan_subscriptions _ _, .inr ?_⟩
      have hle := List.getElem?_eq_none_iff.mp hnone
      by_contra hne
      exact absurd (Nat.mod_lt pick (List.length_pos_iff.mpr hne)) (Nat.not_lt.mpr hle)

theorem Once.project (h : Once w) {j pick : ℕ} {merchantId newId : Id}
    (hcareful : Careful S w (.project j merchantId pick newId)) :
    Once (w.project S j merchantId pick newId) := by
  unfold World.project
  split
  · exact h
  next e he =>
    split
    · exact h
    next currency hcurrency =>
      split
      next hmerchant =>
        split
        · exact h
        next planId db hplan =>
          obtain ⟨hrows, hfound⟩ := findOrCreatePlan_cases hplan
          obtain ⟨hj, rfl⟩ := List.getElem?_eq_some_iff.mp he
          refine ⟨h.nodup, fun e' he' key hkey => ?_⟩
          have hin : ∀ row ∈ w.db.subscriptions,
              row ∈ (db.insertSubscription planId w.unprojected[j].payer).subscriptions :=
            fun row hrow => List.mem_append_left _ (hrows ▸ hrow)
          rcases h.rows e' he' key hkey with hrow | hwaits
          · exact .inl (hin key hrow)
          · rcases List.mem_cons.mp
                ((List.getElem_cons_eraseIdx_perm hj).mem_iff.mpr hwaits) with rfl | hrest
            · -- the plan it was accepted for is the only one found
              obtain ⟨trialId, htrial, rfl⟩ := Option.map_eq_some_iff.mp hkey
              obtain ⟨hne, hall⟩ := hcareful _ he trialId htrial currency hcurrency hmerchant
              rcases hfound with ⟨p, hp, rfl⟩ | hnone
              · rw [hall p hp]
                exact .inl (List.mem_append_right _ (List.mem_singleton_self _))
              · exact absurd hnone hne
            · exact .inr hrest
      next => exact h

theorem Once.step (h : Once w) (hcareful : Careful S w l) : Once (step S w l) := by
  cases l with
  | elapse ms => exact h.of_rows (List.Subset.refl _)
  | link merchantId onchainMerchantId =>
      unfold PlanEnrolment.step
      dsimp only
      split
      · exact h.of_rows (List.Subset.refl _)
      · exact h
  | createPlan eligible id merchantId input =>
      unfold PlanEnrolment.step
      dsimp only
      split
      · exact h
      · exact h.of_rows (by rw [insertPlan_subscriptions]; exact List.Subset.refl _)
  | updateReturnUrls merchantId id successUrl cancelUrl => exact h.of_rows (List.Subset.refl _)
  | archive merchantId id => exact h.of_rows (List.Subset.refl _)
  | submit merchantId req admitted => exact h.submit hcareful
  | mine k relayer =>
      unfold PlanEnrolment.step
      dsimp only
      split
      · exact h
      next e he =>
        split
        · exact h.mine he
        · exact h
  | drop k => exact h.drop k
  | enrol payer terms => exact h.enrol payer terms
  | project j merchantId pick newId => exact h.project hcareful

end Step

/-! ## Runs -/

theorem World.Launched.once {w : World} (h : w.Launched) : Once w := by
  refine ⟨?_, fun e he => ?_⟩
  · rw [h.jobs, h.created]
    exact List.nodup_nil
  · rw [h.created] at he
    cases he

/-- In a careful run every payer has at most one trial of a plan. -/
theorem one_trial_per_plan (S : Setup) (w₀ : World) (ls : List Label) (hlaunched : w₀.Launched)
    (hcareful : ∀ n l, ls[n]? = some l → Careful S (stateAt (step S) w₀ ls n) l) (n : ℕ) :
    (stateAt (step S) w₀ ls n).OneTrial := by
  refine Once.oneTrial (stateAt_induct hlaunched.once (fun n l _ hl ih => ?_) (Nat.zero_le n))
  exact ih.step (hcareful n l hl)

/-! ## Samples -/

/-- The token of `sampleOffer`, which the indexer knows as USDC. -/
def sampleSetup : Setup where
  cfg := ⟨some (text "0xA1"), none⟩
  address := fun _ => 0xa1
  tokens := fun token => if token = 0xa1 then some .usdc else none

/-- A linked merchant and nothing else. -/
def sampleWorld : World where
  now := ⟨0, by decide⟩
  db := ⟨[], [], fun _ => some 1⟩
  jobs := []
  created := []
  unprojected := []

theorem launched_sampleWorld : sampleWorld.Launched := ⟨rfl, rfl, rfl⟩

/-- One USDC, after a fortnight for nothing. -/
def trialInput (interval : SubscriptionInterval) (intervalCount : ℕ) :
    CreateSubscriptionPlanInput :=
  { sampleInput (text "1000000") interval intervalCount with trialPeriodDays := some 14 }

/-- What the payer is quoted at the epoch. -/
def trialRequest (interval : SubscriptionInterval) (intervalCount : ℕ) : EnrolmentRequest where
  planId := text "plan"
  payer := text "0x" ++ List.replicate 40 48
  merchantId := 1
  token := text "0xa1"
  amount := 1000000
  interval := intervalSeconds interval intervalCount
  startAt := 14 * SECONDS_PER_DAY
  endAt := 0

/-- The enrolment is accepted and mined. -/
def enrolling (interval : SubscriptionInterval) (intervalCount : ℕ) : List Label :=
  [.submit (text "merchant") (trialRequest interval intervalCount) true, .mine 0 300]

def projecting : List Label := [.project 0 (text "merchant") 0 (text "auto")]

/-- A plan, and the same payer twice, as the first log is projected in between or not. -/
def twice (interval : SubscriptionInterval) (intervalCount : ℕ) (between : List Label) :
    List Label :=
  .createPlan true (text "plan") (text "merchant") (trialInput interval intervalCount) ::
    enrolling interval intervalCount ++ between ++ enrolling interval intervalCount

/-- The row of seven days is filed under a plan of one week, and the row of one week comes late. -/
theorem two_trials :
    ¬ (exec (step sampleSetup) sampleWorld (twice .daily 7 projecting)).OneTrial ∧
      ¬ (exec (step sampleSetup) sampleWorld (twice .weekly 1 [])).OneTrial := by
  have hkeys : ∀ ls ∈ [twice .daily 7 projecting, twice .weekly 1 []],
      2 ≤ ((exec (step sampleSetup) sampleWorld ls).created.filterMap Enrolment.trialKey).count
        (text "plan", text "0x" ++ List.replicate 40 48) := by
    decide +kernel
  constructor
  · intro h
    exact absurd (h _) (Nat.not_le.mpr (hkeys _ (by simp)))
  · intro h
    exact absurd (h _) (Nat.not_le.mpr (hkeys _ (by simp)))

instance (w : World) : (l : Label) → Decidable (Careful sampleSetup w l)
  | .submit _ req _ => by
      unfold Careful
      dsimp only
      generalize normalisePayer req.payer = payer
      exact match payer with
        | none => isTrue fun _ _ h => by cases h
        | some payer => decidable_of_iff (req.startAt ≠ 0 → (req.planId, payer) ∉ w.pending)
            ⟨fun h hstart p hp => Option.some.inj hp ▸ h hstart, fun h hstart => h hstart payer rfl⟩
  | .project j merchantId _ _ => by
      unfold Careful
      dsimp only
      infer_instance
  | .elapse _ | .link _ _ | .createPlan _ _ _ _ | .updateReturnUrls _ _ _ _ | .archive _ _
  | .mine _ _ | .drop _ | .enrol _ _ => isTrue trivial

/-- The row of one week is in time, and the second enrolment is refused. -/
theorem one_trial_weekly :
    (stateAt (step sampleSetup) sampleWorld (twice .weekly 1 projecting) 6).OneTrial := by
  refine one_trial_per_plan sampleSetup sampleWorld _ launched_sampleWorld (fun n l hl => ?_) 6
  have hall : ∀ n, (h : n < (twice .weekly 1 projecting).length) →
      Careful sampleSetup (stateAt (step sampleSetup) sampleWorld (twice .weekly 1 projecting) n)
        (twice .weekly 1 projecting)[n] := by
    decide +kernel
  obtain ⟨hn, rfl⟩ := List.getElem?_eq_some_iff.mp hl
  exact hall n hn

end Strimz.PlanEnrolment
