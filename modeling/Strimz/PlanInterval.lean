import Mathlib.Data.Set.Function
import Mathlib.Tactic
import Strimz.Projections

/-!
# A plan's billing interval through the chain

The API multiplies a plan's interval enum by its count
(`intervalSeconds`); the contract keeps the seconds; the indexer maps
them back (`intervalFromSeconds`) and looks the plan up by what it got.

The way back rounds down to whole units of the band the seconds fall in:
days below a week, weeks below thirty days, months of thirty days below
a year, years from there on. `intervals_survive_iff` is the exact
condition for a set of plans to come back with their own seconds, and
`eight_days_bill_weekly` a plan that does not.
-/

namespace Strimz.PlanInterval

open Strimz.Indexer

/-! ## The API's side -/

/-- `SECONDS_PER_INTERVAL` -/
def SECONDS_PER_INTERVAL : SubscriptionInterval → Nat
  | .daily => 24 * 60 * 60
  | .weekly => 7 * 24 * 60 * 60
  | .monthly => 30 * 24 * 60 * 60
  | .quarterly => 90 * 24 * 60 * 60
  | .yearly => 365 * 24 * 60 * 60

def intervalSeconds (interval : SubscriptionInterval) (intervalCount : Nat) : Nat :=
  SECONDS_PER_INTERVAL interval * intervalCount

/-- A plan's interval as the schema admits it, with seconds the contract's argument holds. -/
structure PlanTerms where
  interval : SubscriptionInterval
  intervalCount : Nat
  count_pos : 1 ≤ intervalCount
  count_le : intervalCount ≤ 365
  fits : intervalSeconds interval intervalCount < 2 ^ 32

def PlanTerms.seconds (t : PlanTerms) : Nat := intervalSeconds t.interval t.intervalCount

/-- The `uint32 interval` of the enrolment. -/
def PlanTerms.onchain (t : PlanTerms) : Uint32 := BitVec.ofNat 32 t.seconds

@[simp] theorem PlanTerms.toNat_onchain (t : PlanTerms) : t.onchain.toNat = t.seconds := by
  rw [PlanTerms.onchain, BitVec.toNat_ofNat]
  exact Nat.mod_eq_of_lt t.fits

theorem PlanTerms.day_le (t : PlanTerms) : 86400 ≤ t.seconds := by
  have hunit : 86400 ≤ SECONDS_PER_INTERVAL t.interval := by cases t.interval <;> decide
  exact Nat.le_trans hunit (Nat.le_mul_of_pos_right _ t.count_pos)

/-! ## The indexer's side -/

/-- The seconds of a pair the indexer stores. -/
def secondsOf (p : SubscriptionInterval × Nat) : Nat := intervalSeconds p.1 p.2

structure PlanRow where
  id : Nat
  key : PlanKey
  active : Bool
deriving DecidableEq

def PlanRow.intervalSeconds (row : PlanRow) : Nat :=
  PlanInterval.intervalSeconds row.key.interval row.key.intervalCount

/-- The statements of `findOrCreatePlan` over the table's rows, in the order the scan meets them:
the first active match, or a row of its own under a new id. -/
def findOrCreatePlan (rows : List PlanRow) (newId : Nat) (key : PlanKey) :
    PlanRow × List PlanRow :=
  match rows.find? fun row => row.active && row.key == key with
  | some row => (row, rows)
  | none => (⟨newId, key, true⟩, rows ++ [⟨newId, key, true⟩])

/-- The plan has the columns it was looked up by. -/
theorem findOrCreatePlan_key (rows : List PlanRow) (newId : Nat) (key : PlanKey) :
    (findOrCreatePlan rows newId key).1.key = key := by
  unfold findOrCreatePlan
  split
  next row hrow =>
    have hmatch := List.find?_some hrow
    simp only [Bool.and_eq_true, beq_iff_eq] at hmatch
    exact hmatch.2
  next => rfl

/-! ## The round trip -/

/-- Whole units of the band: days, weeks, months of thirty days, years. -/
def WholeUnits (seconds : Nat) : Prop :=
  if seconds < 604800 then 86400 ∣ seconds
  else if seconds < 2592000 then 604800 ∣ seconds
  else if seconds < 31536000 then 2592000 ∣ seconds
  else 31536000 ∣ seconds

instance (seconds : Nat) : Decidable (WholeUnits seconds) := by
  unfold WholeUnits
  infer_instance

theorem secondsOf_div {interval : SubscriptionInterval} {unit seconds : Nat}
    (hunit : SECONDS_PER_INTERVAL interval = unit) (hpos : 0 < unit) (hle : unit ≤ seconds) :
    secondsOf (interval, max (seconds / unit) 1) = seconds ↔ unit ∣ seconds := by
  have hcount : 1 ≤ seconds / unit := (Nat.one_le_div_iff hpos).mpr hle
  simp only [secondsOf, intervalSeconds, hunit, Nat.max_eq_left hcount]
  exact ⟨fun h => ⟨_, h.symm⟩, Nat.mul_div_cancel'⟩

/-- From a day on, the pair the indexer stores has the contract's seconds iff they are whole units
of their band. -/
theorem secondsOf_intervalFromSeconds {s : Uint32} (hday : 86400 ≤ s.toNat) :
    secondsOf (intervalFromSeconds s) = s.toNat ↔ WholeUnits s.toNat := by
  unfold intervalFromSeconds
  dsimp only
  generalize s.toNat = n at hday
  by_cases hknown : n = 86400 ∨ n = 604800 ∨ n = 2592000 ∨ n = 7776000 ∨ n = 31536000
  · rcases hknown with rfl | rfl | rfl | rfl | rfl <;> decide
  · simp only [not_or] at hknown
    obtain ⟨h1, h2, h3, h4, h5⟩ := hknown
    rw [if_neg h1, if_neg h2, if_neg h3, if_neg h4, if_neg h5]
    unfold WholeUnits
    by_cases hweek : n < 604800
    · rw [if_pos hweek, if_pos hweek]
      exact secondsOf_div rfl (by decide) hday
    · rw [if_neg hweek, if_neg hweek]
      by_cases hmonth : n < 2592000
      · rw [if_pos hmonth, if_pos hmonth]
        exact secondsOf_div rfl (by decide) (by omega)
      · rw [if_neg hmonth, if_neg hmonth]
        by_cases hyear : n < 31536000
        · rw [if_pos hyear, if_pos hyear]
          exact secondsOf_div rfl (by decide) (by omega)
        · rw [if_neg hyear, if_neg hyear]
          exact secondsOf_div rfl (by decide) (by omega)

/-! ## Sets of plans -/

/-- The on-chain interval of every plan offered comes back unchanged: as a pair, told apart from
the others, by the plan the lookup finds among any rows, and on the subscription projected. -/
structure IntervalsSurvive (offered : Set PlanTerms) : Prop where
  round_trip : ∀ t ∈ offered, secondsOf (intervalFromSeconds t.onchain) = t.seconds
  injective : Set.InjOn intervalFromSeconds (Set.image PlanTerms.onchain offered)
  lookup : ∀ t ∈ offered, ∀ (rows : List PlanRow) (newId : Nat) (merchantId : RowId) (amount : Nat)
    (currency : Currency) (interval : SubscriptionInterval) (intervalCount : Nat),
    intervalFromSeconds t.onchain = (interval, intervalCount) →
    (findOrCreatePlan rows newId
      ⟨merchantId, amount, currency, interval, intervalCount⟩).1.intervalSeconds = t.seconds
  subscription : ∀ t ∈ offered, ∀ (in_ : SubscriptionCreatedInput) (merchantId : RowId),
    intervalFromSeconds t.onchain = (in_.interval, in_.intervalCount) →
    intervalSeconds (createdSubscription in_ merchantId).interval
      (createdSubscription in_ merchantId).intervalCount = t.seconds

/-- Intervals survive exactly when every plan offered bills in whole units of its band. -/
theorem intervals_survive_iff (offered : Set PlanTerms) :
    IntervalsSurvive offered ↔ ∀ t ∈ offered, WholeUnits t.seconds := by
  have hwhole : ∀ t : PlanTerms,
      secondsOf (intervalFromSeconds t.onchain) = t.seconds ↔ WholeUnits t.seconds := by
    intro t
    have h := secondsOf_intervalFromSeconds (s := t.onchain)
    rw [t.toNat_onchain] at h
    exact h t.day_le
  constructor
  · exact fun h t ht => (hwhole t).mp (h.round_trip t ht)
  · intro h
    have hback : ∀ t ∈ offered, secondsOf (intervalFromSeconds t.onchain) = t.seconds :=
      fun t ht => (hwhole t).mpr (h t ht)
    refine ⟨hback, ?_, ?_, ?_⟩
    · rintro _ ⟨t, ht, rfl⟩ _ ⟨u, hu, rfl⟩ heq
      have hseconds : t.seconds = u.seconds := by
        rw [← hback t ht, ← hback u hu, heq]
      rw [PlanTerms.onchain, PlanTerms.onchain, hseconds]
    · intro t ht rows newId merchantId amount currency interval intervalCount heq
      unfold PlanRow.intervalSeconds
      rw [findOrCreatePlan_key, ← hback t ht, heq]
      rfl
    · intro t ht in_ merchantId heq
      rw [← hback t ht, heq]
      rfl

/-- A plan billed every eight days. -/
def everyEightDays : PlanTerms where
  interval := .daily
  intervalCount := 8
  count_pos := by decide
  count_le := by decide
  fits := by decide

/-- Eight days come back as one week, so the plan found bills at another interval than the
contract, and collides with a weekly plan. -/
theorem eight_days_bill_weekly :
    intervalFromSeconds everyEightDays.onchain = (.weekly, 1) ∧
      secondsOf (intervalFromSeconds everyEightDays.onchain) ≠ everyEightDays.seconds ∧
      ¬ IntervalsSurvive Set.univ := by
  have hseconds : secondsOf (intervalFromSeconds everyEightDays.onchain)
      ≠ everyEightDays.seconds := by decide
  exact ⟨by decide, hseconds, fun h => hseconds (h.round_trip everyEightDays trivial)⟩

end Strimz.PlanInterval
