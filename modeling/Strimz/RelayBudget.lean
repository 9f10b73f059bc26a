import Strimz.Binary64
import Strimz.InFlight
import Strimz.Runs

/-!
# The relay budget

`RelayBudgetService` of the API. A `consume` reads the merchant's tier, counts the submission in
one upsert, and may then claim an alert; the statements of any number of calls interleave. `now`
is taken once, when the call starts, in milliseconds.
-/

namespace Strimz.RelayBudget

open Binary64 Runs

inductive MerchantTier where
  | free
  | starter
  | growth
  | enterprise
deriving Repr, DecidableEq

def RELAY_DAILY_QUOTA : MerchantTier → Nat
  | .free => 500
  | .starter => 5000
  | .growth => 50000
  | .enterprise => 50000

/-- The number `0.8` over `2 ^ 52`. -/
def RELAY_BUDGET_WARN_RATIO : Nat := 3602879701896397

/-- `Math.ceil(quota * RELAY_BUDGET_WARN_RATIO)` -/
def warnAt (quota : Nat) : Nat :=
  (roundMag (quota * RELAY_BUDGET_WARN_RATIO * ONE) (2 ^ 52) + (ONE - 1)) / ONE

def MS_PER_DAY : Nat := 86400000

/-- Days since the epoch. -/
def utcDay (now : Nat) : Nat := now / MS_PER_DAY

def secondsToNextUtcMidnight (now : Nat) : Nat :=
  (now / MS_PER_DAY * MS_PER_DAY + MS_PER_DAY - now + 999) / 1000

inductive BudgetAlert where
  | warned
  | exhausted
deriving Repr, DecidableEq

/-- A row of `RelayDailyUsage`. -/
@[ext]
structure UsageRow where
  submissions : Nat
  gasUsedWei : Nat
  warnedAt : Option Nat
  exhaustedAt : Option Nat
deriving Repr, DecidableEq

def UsageRow.stamp (r : UsageRow) : BudgetAlert → Option Nat
  | .warned => r.warnedAt
  | .exhausted => r.exhaustedAt

def UsageRow.setStamp (r : UsageRow) (now : Nat) : BudgetAlert → UsageRow
  | .warned => { r with warnedAt := some now }
  | .exhausted => { r with exhaustedAt := some now }

/-- The primary key of `RelayDailyUsage`. -/
abbrev DayKey := String × Nat

/-- A `consume` between two statements. -/
inductive Call where
  | counting (merchantId : String) (quota now : Nat)
  | alerting (key : DayKey) (alert : BudgetAlert) (submissions quota now : Nat)
deriving Repr, DecidableEq

/-- A submission that was counted. -/
structure Counted where
  key : DayKey
  number : Nat
  quota : Nat
deriving Repr, DecidableEq

/-- `relay_budget_exhausted` -/
structure Refused where
  key : DayKey
  now : Nat
  quota : Nat
  retryAfterSec : Nat
deriving Repr, DecidableEq

/-- A line of the log, and the mail that goes with it. -/
structure Alert where
  key : DayKey
  alert : BudgetAlert
  submissions : Nat
  quota : Nat
deriving Repr, DecidableEq

structure World where
  tiers : String → Option MerchantTier
  usage : DayKey → Option UsageRow
  calls : List Call
  counted : List Counted
  refused : List Refused
  alerts : List Alert

/-- The upsert of `consume`; none if the quota is spent. -/
def count (quota : Nat) : Option UsageRow → Option UsageRow
  | none => some ⟨1, 0, none, none⟩
  | some row =>
      if row.submissions < quota then some { row with submissions := row.submissions + 1 } else none

/-- The upsert of `recordGas`. -/
def addGas (gasWei : Nat) : Option UsageRow → UsageRow
  | none => ⟨0, gasWei, none, none⟩
  | some row => { row with gasUsedWei := row.gasUsedWei + gasWei }

/-- Which alert a counted submission asks for. -/
def alertFor (quota : Nat) (row : UsageRow) : Option BudgetAlert :=
  if quota ≤ row.submissions ∧ row.exhaustedAt = none then some .exhausted
  else if warnAt quota ≤ row.submissions ∧ row.warnedAt = none then some .warned
  else none

namespace World

variable (w : World)

def setRow (key : DayKey) (row : UsageRow) : World :=
  { w with usage := Function.update w.usage key (some row) }

def drop (k : Nat) : World := { w with calls := w.calls.eraseIdx k }

/-- The statements of `consume` after its first. -/
def advance (k : Nat) : Call → World
  | .counting merchantId quota now =>
      let key := (merchantId, utcDay now)
      match count quota (w.usage key) with
      | none =>
          { w.drop k with
            refused := w.refused ++ [⟨key, now, quota, secondsToNextUtcMidnight now⟩] }
      | some row =>
          let w := { (w.drop k).setRow key row with
            counted := w.counted ++ [⟨key, row.submissions, quota⟩] }
          match alertFor quota row with
          | none => w
          | some alert => { w with calls := w.calls ++ [.alerting key alert row.submissions quota now] }
  | .alerting key alert submissions quota now =>
      match w.usage key with
      | none => w.drop k
      | some row =>
          if row.stamp alert = none then
            { (w.drop k).setRow key (row.setStamp now alert) with
              alerts := w.alerts ++ [⟨key, alert, submissions, quota⟩] }
          else w.drop k

end World

inductive Label where
  | consume (merchantId : String) (now : Nat)
  | advance (k : Nat)
  | crash (k : Nat)
  | recordGas (merchantId : String) (gasWei now : Nat)
  | setTier (merchantId : String) (tier : MerchantTier)
deriving Repr, DecidableEq

def step (w : World) : Label → World
  | .consume merchantId now =>
      match w.tiers merchantId with
      | none => w
      | some tier =>
          { w with calls := w.calls ++ [.counting merchantId (RELAY_DAILY_QUOTA tier) now] }
  | .advance k =>
      match w.calls[k]? with
      | none => w
      | some call => w.advance k call
  | .crash k => w.drop k
  | .recordGas merchantId gasWei now =>
      w.setRow (merchantId, utcDay now) (addGas gasWei (w.usage (merchantId, utcDay now)))
  | .setTier merchantId tier => { w with tiers := Function.update w.tiers merchantId (some tier) }

/-- Before the first submission. -/
def start (tiers : String → Option MerchantTier) : World := ⟨tiers, fun _ => none, [], [], [], []⟩

theorem warnAt_quota (tier : MerchantTier) :
    warnAt (RELAY_DAILY_QUOTA tier) = RELAY_DAILY_QUOTA tier / 5 * 4 := by
  cases tier <;> decide +kernel

/-! ## One step -/

section Step

variable {w w' : World} {l : Label} {key : DayKey} {alert : BudgetAlert}

/-- What one step does. -/
inductive Moves (w : World) : Label → World → Prop
  | idle (l : Label) : Moves w l w
  | called (merchantId : String) (now : Nat) (tier : MerchantTier) : Moves w (.consume merchantId now)
      { w with calls := w.calls ++ [.counting merchantId (RELAY_DAILY_QUOTA tier) now] }
  | crashed (k : Nat) : Moves w (.crash k) (w.drop k)
  | refused (k : Nat) (merchantId : String) (quota now : Nat) (row : UsageRow)
      (hk : w.calls[k]? = some (.counting merchantId quota now))
      (hrow : w.usage (merchantId, utcDay now) = some row) (hspent : quota ≤ row.submissions) :
      Moves w (.advance k) { w.drop k with
        refused := w.refused ++
          [⟨(merchantId, utcDay now), now, quota, secondsToNextUtcMidnight now⟩] }
  | counted (k : Nat) (merchantId : String) (quota now : Nat) (row : UsageRow)
      (hk : w.calls[k]? = some (.counting merchantId quota now))
      (hcount : count quota (w.usage (merchantId, utcDay now)) = some row) :
      Moves w (.advance k) { (w.drop k).setRow (merchantId, utcDay now) row with
        counted := w.counted ++ [⟨(merchantId, utcDay now), row.submissions, quota⟩]
        calls := (w.drop k).calls ++ ((alertFor quota row).map fun alert =>
          Call.alerting (merchantId, utcDay now) alert row.submissions quota now).toList }
  | claimed (k : Nat) (key : DayKey) (alert : BudgetAlert) (submissions quota now : Nat)
      (hk : w.calls[k]? = some (.alerting key alert submissions quota now))
      (hlost : ∀ row, w.usage key = some row → row.stamp alert ≠ none) :
      Moves w (.advance k) (w.drop k)
  | alerted (k : Nat) (key : DayKey) (alert : BudgetAlert) (submissions quota now : Nat)
      (row : UsageRow) (hk : w.calls[k]? = some (.alerting key alert submissions quota now))
      (hrow : w.usage key = some row) (hwon : row.stamp alert = none) :
      Moves w (.advance k) { (w.drop k).setRow key (row.setStamp now alert) with
        alerts := w.alerts ++ [⟨key, alert, submissions, quota⟩] }
  | gas (merchantId : String) (gasWei now : Nat) : Moves w (.recordGas merchantId gasWei now)
      (w.setRow (merchantId, utcDay now) (addGas gasWei (w.usage (merchantId, utcDay now))))
  | tier (merchantId : String) (tier : MerchantTier) : Moves w (.setTier merchantId tier)
      { w with tiers := Function.update w.tiers merchantId (some tier) }

theorem count_eq_none {quota : Nat} {old : Option UsageRow} (h : count quota old = none) :
    ∃ row, old = some row ∧ quota ≤ row.submissions := by
  cases old with
  | none => cases h
  | some row =>
      rw [count] at h
      split at h
      · cases h
      · next hspent => exact ⟨row, rfl, Nat.not_lt.mp hspent⟩

theorem step_moves (w : World) (l : Label) : Moves w l (step w l) := by
  cases l with
  | consume merchantId now =>
      rw [step]
      split
      · exact .idle _
      · next tier _ => exact .called merchantId now tier
  | advance k =>
      rw [step]
      split
      · exact .idle _
      · next call hk =>
          cases call with
          | counting merchantId quota now =>
              rw [World.advance]
              dsimp only
              split
              · next hcount =>
                  obtain ⟨row, hrow, hspent⟩ := count_eq_none hcount
                  exact .refused k merchantId quota now row hk hrow hspent
              · next row hcount =>
                  have hmoves := Moves.counted k merchantId quota now row hk hcount
                  cases halert : alertFor quota row with
                  | none =>
                      rw [halert, Option.map_none, Option.toList_none, List.append_nil] at hmoves
                      exact hmoves
                  | some alert =>
                      rw [halert] at hmoves
                      exact hmoves
          | alerting key alert submissions quota now =>
              rw [World.advance]
              split
              · next hnone => exact .claimed k key alert submissions quota now hk (by simp [hnone])
              · next row hrow =>
                  split
                  · next hwon => exact .alerted k key alert submissions quota now row hk hrow hwon
                  · next hlost =>
                      refine .claimed k key alert submissions quota now hk fun row' hrow' => ?_
                      rw [hrow] at hrow'
                      obtain rfl := Option.some.inj hrow'
                      exact hlost
  | crash k => exact .crashed k
  | recordGas merchantId gasWei now => exact .gas merchantId gasWei now
  | setTier merchantId tier => exact .tier merchantId tier

end Step

/-! ## The books of a day -/

namespace World

variable (w : World)

def submissions (key : DayKey) : Nat := (w.usage key).elim 0 UsageRow.submissions

/-- The numbers under which a day's submissions were counted, in that order. -/
def numbers (key : DayKey) : List Nat := (w.counted.filter (·.key = key)).map Counted.number

def stamped (key : DayKey) (alert : BudgetAlert) : Bool :=
  ((w.usage key).bind (UsageRow.stamp · alert)).isSome

def raised (key : DayKey) (alert : BudgetAlert) : Nat :=
  w.alerts.countP fun a => a.key = key ∧ a.alert = alert

end World

/-- Where an alert is due. -/
def threshold (quota : Nat) : BudgetAlert → Nat
  | .warned => warnAt quota
  | .exhausted => quota

structure Call.Sound (w : World) (c : Call) : Prop where
  counting : ∀ merchantId quota now, c = .counting merchantId quota now →
    ∃ tier, quota = RELAY_DAILY_QUOTA tier
  alerting : ∀ key alert submissions quota now, c = .alerting key alert submissions quota now →
    (∃ tier, quota = RELAY_DAILY_QUOTA tier) ∧ threshold quota alert ≤ submissions ∧
      submissions ≤ w.submissions key

structure Sound (w : World) : Prop where
  numbers : ∀ key, w.numbers key = List.range' 1 (w.submissions key)
  counted : ∀ a ∈ w.counted, a.number ≤ a.quota ∧ ∃ tier, a.quota = RELAY_DAILY_QUOTA tier
  refused : ∀ r ∈ w.refused, r.quota ≤ w.submissions r.key ∧ r.key.2 = utcDay r.now ∧
    r.retryAfterSec = secondsToNextUtcMidnight r.now
  calls : ∀ c ∈ w.calls, c.Sound w
  stamps : ∀ key alert, w.raised key alert = (w.stamped key alert).toNat
  alerts : ∀ a ∈ w.alerts, threshold a.quota a.alert ≤ a.submissions ∧
    a.submissions ≤ w.submissions a.key

section Invariants

variable {w w' : World} {l : Label} {key : DayKey} {alert : BudgetAlert}

theorem setRow_submissions (row : UsageRow) (other : DayKey) :
    (w.setRow key row).submissions other =
      if other = key then row.submissions else w.submissions other := by
  rw [World.submissions, World.setRow]
  by_cases h : other = key
  · subst h
    simp
  · simp [h, World.submissions]

theorem setRow_stamped (row : UsageRow) (other : DayKey) (alert : BudgetAlert) :
    (w.setRow key row).stamped other alert =
      if other = key then (row.stamp alert).isSome else w.stamped other alert := by
  rw [World.stamped, World.setRow]
  by_cases h : other = key
  · subst h
    simp
  · simp [h, World.stamped]

/-- Counting adds one. -/
theorem count_submissions {quota : Nat} {row : UsageRow} (hpos : 0 < quota)
    (h : count quota (w.usage key) = some row) :
    row.submissions = w.submissions key + 1 ∧ w.submissions key < quota ∧
      ∀ alert, (row.stamp alert).isSome = w.stamped key alert := by
  rw [World.submissions]
  cases hrow : w.usage key with
  | none =>
      rw [hrow] at h
      obtain rfl := Option.some.inj h
      refine ⟨rfl, hpos, fun alert => ?_⟩
      cases alert <;> simp [World.stamped, hrow, UsageRow.stamp]
  | some old =>
      rw [hrow, count] at h
      split at h
      · next hlt =>
          obtain rfl := Option.some.inj h
          refine ⟨rfl, hlt, fun alert => ?_⟩
          cases alert <;> simp [World.stamped, hrow, UsageRow.stamp]
      · cases h

theorem addGas_submissions (gasWei : Nat) :
    (addGas gasWei (w.usage key)).submissions = w.submissions key := by
  rw [World.submissions]
  cases w.usage key <;> rfl

theorem addGas_stamp (gasWei : Nat) (alert : BudgetAlert) :
    ((addGas gasWei (w.usage key)).stamp alert).isSome = w.stamped key alert := by
  rw [World.stamped]
  cases w.usage key with
  | none => cases alert <;> rfl
  | some row => cases alert <;> rfl

theorem setStamp_stamp (row : UsageRow) (now : Nat) (alert other : BudgetAlert) :
    (row.setStamp now alert).stamp other =
      if other = alert then some now else row.stamp other := by
  cases alert <;> cases other <;> rfl

theorem setStamp_submissions (row : UsageRow) (now : Nat) (alert : BudgetAlert) :
    (row.setStamp now alert).submissions = row.submissions := by
  cases alert <;> rfl

theorem quota_pos (tier : MerchantTier) : 0 < RELAY_DAILY_QUOTA tier := by
  cases tier <;> decide

/-- No day loses a submission. -/
theorem submissions_mono (hs : Sound w) (h : Moves w l w') (key : DayKey) :
    w.submissions key ≤ w'.submissions key := by
  cases h with
  | idle | called | crashed | refused | claimed | tier => exact le_rfl
  | counted k merchantId quota now row hk hcount =>
      obtain ⟨tier, rfl⟩ := (hs.calls _ (List.mem_of_getElem? hk)).counting _ _ _ rfl
      have hrow := (count_submissions (quota_pos tier) hcount).1
      show _ ≤ ((w.drop k).setRow _ row).submissions key
      rw [setRow_submissions]
      split
      · next heq =>
          rw [heq]
          omega
      · exact le_rfl
  | alerted k key' alert n quota now row hk hrow hwon =>
      show _ ≤ ((w.drop k).setRow key' _).submissions key
      rw [setRow_submissions, setStamp_submissions]
      split
      · next heq =>
          rw [heq, World.submissions, hrow]
          exact le_rfl
      · exact le_rfl
  | gas merchantId gasWei now =>
      rw [setRow_submissions]
      split
      · next heq => rw [heq, addGas_submissions]
      · exact le_rfl

theorem Call.Sound.mono {c : Call} (h : c.Sound w)
    (hle : ∀ key, w.submissions key ≤ w'.submissions key) : c.Sound w' where
  counting := h.counting
  alerting key alert n quota now hc := by
    obtain ⟨htier, hdue, hn⟩ := h.alerting key alert n quota now hc
    exact ⟨htier, hdue, hn.trans (hle key)⟩

/-- A step that writes neither submissions nor stamps, and leaves the histories alone. -/
theorem Sound.quiet (hs : Sound w) (hcounted : w'.counted = w.counted)
    (hrefused : w'.refused = w.refused) (halerts : w'.alerts = w.alerts)
    (hsubmissions : ∀ key, w'.submissions key = w.submissions key)
    (hstamped : ∀ key alert, w'.stamped key alert = w.stamped key alert)
    (hcalls : ∀ c ∈ w'.calls, c ∈ w.calls ∨
      ∃ merchantId tier now, c = .counting merchantId (RELAY_DAILY_QUOTA tier) now) : Sound w' where
  numbers key := by
    rw [World.numbers, hcounted, hsubmissions]
    exact hs.numbers key
  counted := hcounted ▸ hs.counted
  refused := by
    simp only [hrefused, hsubmissions]
    exact hs.refused
  calls c hc := by
    rcases hcalls c hc with hc | ⟨merchantId, tier, now, rfl⟩
    · exact (hs.calls c hc).mono fun key => (hsubmissions key).ge
    · exact {
        counting := fun _ _ _ heq => ⟨tier, (Call.counting.inj heq).2.1.symm⟩
        alerting := fun _ _ _ _ _ heq => by cases heq }
  stamps key alert := by
    rw [World.raised, halerts, hstamped]
    exact hs.stamps key alert
  alerts := by
    simp only [halerts, hsubmissions]
    exact hs.alerts

theorem Sound.drop (hs : Sound w) (k : Nat) : Sound (w.drop k) :=
  hs.quiet rfl rfl rfl (fun _ => rfl) (fun _ _ => rfl) fun _ hc =>
    .inl (List.mem_of_mem_eraseIdx hc)

theorem alertFor_due {quota : Nat} {row : UsageRow} (h : alertFor quota row = some alert) :
    threshold quota alert ≤ row.submissions := by
  rw [alertFor] at h
  split at h
  · next hdue =>
      obtain rfl := Option.some.inj h
      exact hdue.1
  · split at h
    · next hdue =>
        obtain rfl := Option.some.inj h
        exact hdue.1
    · cases h

theorem Sound.count (hs : Sound w) {k now : Nat} {tier : MerchantTier} {row : UsageRow}
    (hcount : count (RELAY_DAILY_QUOTA tier) (w.usage key) = some row)
    (hmono : ∀ other, w.submissions other ≤ ((w.drop k).setRow key row).submissions other) :
    Sound { (w.drop k).setRow key row with
      counted := w.counted ++ [⟨key, row.submissions, RELAY_DAILY_QUOTA tier⟩]
      calls := (w.drop k).calls ++ ((alertFor (RELAY_DAILY_QUOTA tier) row).map fun alert =>
        Call.alerting key alert row.submissions (RELAY_DAILY_QUOTA tier) now).toList } := by
  obtain ⟨hnumber, hlt, hstamp⟩ := count_submissions (quota_pos tier) hcount
  constructor
  · intro other
    show ((w.counted ++ [(⟨key, row.submissions, RELAY_DAILY_QUOTA tier⟩ : Counted)]).filter
      (·.key = other)).map Counted.number =
        List.range' 1 (((w.drop k).setRow key row).submissions other)
    rw [List.filter_append, List.map_append, setRow_submissions]
    have hold := hs.numbers other
    rw [World.numbers] at hold
    rw [hold]
    by_cases heq : other = key
    · subst heq
      rw [if_pos rfl, hnumber, List.range'_concat]
      simp [Nat.add_comm]
    · rw [if_neg heq]
      simp [Ne.symm heq, World.submissions, World.drop]
  · intro a ha
    rcases List.mem_append.mp ha with ha | ha
    · exact hs.counted a ha
    · obtain rfl := List.mem_singleton.mp ha
      refine ⟨?_, tier, rfl⟩
      show row.submissions ≤ RELAY_DAILY_QUOTA tier
      omega
  · intro r hr
    obtain ⟨hspent, hrest⟩ := hs.refused r hr
    exact ⟨hspent.trans (hmono r.key), hrest⟩
  · intro c hc
    rcases List.mem_append.mp hc with hc | hc
    · exact (hs.calls c (List.mem_of_mem_eraseIdx hc)).mono hmono
    · obtain ⟨alert, halert, rfl⟩ := Option.map_eq_some_iff.mp (Option.mem_toList.mp hc)
      refine ⟨fun _ _ _ heq => (by cases heq), fun key' alert' n quota now' heq => ?_⟩
      obtain ⟨rfl, rfl, rfl, rfl, rfl⟩ := Call.alerting.inj heq
      refine ⟨⟨tier, rfl⟩, alertFor_due halert, ?_⟩
      show row.submissions ≤ ((w.drop k).setRow key row).submissions key
      rw [setRow_submissions, if_pos rfl]
  · intro other alert
    show w.raised other alert = (((w.drop k).setRow key row).stamped other alert).toNat
    rw [setRow_stamped, hs.stamps]
    split
    · next heq => rw [heq, hstamp]
    · rfl
  · intro a ha
    obtain ⟨hdue, hn⟩ := hs.alerts a ha
    exact ⟨hdue, hn.trans (hmono a.key)⟩

theorem Sound.raise (hs : Sound w) {k n quota now : Nat} {row : UsageRow}
    (hk : w.calls[k]? = some (.alerting key alert n quota now)) (hrow : w.usage key = some row)
    (hwon : row.stamp alert = none)
    (hmono : ∀ other, w.submissions other ≤
      ((w.drop k).setRow key (row.setStamp now alert)).submissions other) :
    Sound { (w.drop k).setRow key (row.setStamp now alert) with
      alerts := w.alerts ++ [⟨key, alert, n, quota⟩] } := by
  obtain ⟨-, hdue, hn⟩ := (hs.calls _ (List.mem_of_getElem? hk)).alerting _ _ _ _ _ rfl
  constructor
  · intro other
    show w.numbers other =
      List.range' 1 (((w.drop k).setRow key (row.setStamp now alert)).submissions other)
    rw [setRow_submissions, setStamp_submissions, hs.numbers]
    split
    · next heq => rw [heq, World.submissions, hrow, Option.elim_some]
    · rfl
  · exact hs.counted
  · intro r hr
    obtain ⟨hspent, hrest⟩ := hs.refused r hr
    exact ⟨hspent.trans (hmono r.key), hrest⟩
  · intro c hc
    exact (hs.calls c (List.mem_of_mem_eraseIdx hc)).mono hmono
  · intro other alert'
    show (w.alerts ++ [(⟨key, alert, n, quota⟩ : Alert)]).countP
        (fun a => a.key = other ∧ a.alert = alert') =
      (((w.drop k).setRow key (row.setStamp now alert)).stamped other alert').toNat
    have hold := hs.stamps other alert'
    rw [World.raised] at hold
    rw [List.countP_append, hold, setRow_stamped, setStamp_stamp]
    by_cases heq : other = key
    · subst heq
      by_cases hsame : alert' = alert
      · subst hsame
        simp [World.stamped, hrow, hwon]
      · simp [hsame, Ne.symm hsame, World.stamped, hrow]
    · simp [heq, Ne.symm heq, World.stamped, World.drop]
  · intro a ha
    rcases List.mem_append.mp ha with ha | ha
    · obtain ⟨hdue, hn⟩ := hs.alerts a ha
      exact ⟨hdue, hn.trans (hmono a.key)⟩
    · obtain rfl := List.mem_singleton.mp ha
      exact ⟨hdue, hn.trans (hmono key)⟩

theorem Sound.moves (hs : Sound w) (h : Moves w l w') : Sound w' := by
  have hmono := submissions_mono hs h
  cases h with
  | idle => exact hs
  | called merchantId now tier =>
      refine hs.quiet rfl rfl rfl (fun _ => rfl) (fun _ _ => rfl) fun c hc => ?_
      rcases List.mem_append.mp hc with hc | hc
      · exact .inl hc
      · exact .inr ⟨merchantId, tier, now, List.mem_singleton.mp hc⟩
  | crashed k => exact hs.drop k
  | refused k merchantId quota now row hk hrow hspent =>
      have hdrop := hs.drop k
      refine { hdrop with refused := fun r hr => ?_, calls := fun c hc => ?_ }
      · rcases List.mem_append.mp hr with hr | hr
        · exact hdrop.refused r hr
        · obtain rfl := List.mem_singleton.mp hr
          refine ⟨?_, rfl, rfl⟩
          show quota ≤ w.submissions (merchantId, utcDay now)
          rw [World.submissions, hrow]
          exact hspent
      · exact (hdrop.calls c hc).mono fun _ => le_rfl
  | counted k merchantId quota now row hk hcount =>
      obtain ⟨tier, rfl⟩ := (hs.calls _ (List.mem_of_getElem? hk)).counting _ _ _ rfl
      exact hs.count hcount hmono
  | claimed k => exact hs.drop k
  | alerted k key alert n quota now row hk hrow hwon => exact hs.raise hk hrow hwon hmono
  | gas merchantId gasWei now =>
      refine hs.quiet rfl rfl rfl (fun key => ?_) (fun key alert => ?_) fun _ hc => .inl hc
      · rw [setRow_submissions]
        split
        · next heq => rw [heq, addGas_submissions]
        · rfl
      · rw [setRow_stamped]
        split
        · next heq => rw [heq, addGas_stamp]
        · rfl
  | tier merchantId tier =>
      exact hs.quiet rfl rfl rfl (fun _ => rfl) (fun _ _ => rfl) fun _ hc => .inl hc

/-! ## Alerts that are due -/

/-- A call is about to claim the alert. -/
def Pending (w : World) (key : DayKey) (alert : BudgetAlert) : Prop :=
  ∃ n quota now, Call.alerting key alert n quota now ∈ w.calls

/-- Every alert due under the quota is stamped or about to be claimed. -/
def Told (w : World) (key : DayKey) (quota : Nat) : Prop :=
  ∀ alert, threshold quota alert ≤ w.submissions key →
    w.stamped key alert = true ∨ Pending w key alert

theorem threshold_pos (tier : MerchantTier) (alert : BudgetAlert) :
    0 < threshold (RELAY_DAILY_QUOTA tier) alert := by
  cases alert with
  | warned =>
      rw [threshold, warnAt_quota]
      cases tier <;> decide
  | exhausted => exact quota_pos tier

theorem mem_erase {k : Nat} {c d : Call} (hk : w.calls[k]? = some c) (hd : d ∈ w.calls)
    (hne : d ≠ c) : d ∈ w.calls.eraseIdx k :=
  List.mem_of_ne_of_mem hne ((InFlight.perm_erase hk).mem_iff.mp hd)

theorem Pending.erase {k : Nat} {c : Call} (h : Pending w key alert) (hk : w.calls[k]? = some c)
    (hne : ∀ n quota now, c ≠ .alerting key alert n quota now) :
    ∃ n quota now, Call.alerting key alert n quota now ∈ w.calls.eraseIdx k := by
  obtain ⟨n, quota, now, hmem⟩ := h
  exact ⟨n, quota, now, mem_erase hk hmem (Ne.symm (hne n quota now))⟩

theorem alertFor_exhausted {quota : Nat} {row : UsageRow} (hdue : quota ≤ row.submissions)
    (hstamp : row.exhaustedAt = none) : alertFor quota row = some .exhausted := by
  rw [alertFor, if_pos ⟨hdue, hstamp⟩]

theorem alertFor_warned {quota : Nat} {row : UsageRow} (hquota : row.submissions < quota)
    (hdue : warnAt quota ≤ row.submissions) (hstamp : row.warnedAt = none) :
    alertFor quota row = some .warned := by
  rw [alertFor, if_neg (fun h => absurd h.1 (Nat.not_le.mpr hquota)), if_pos ⟨hdue, hstamp⟩]

/-- The submission that reaches a threshold asks for its alert, if it is not stamped. -/
theorem due_of_count {tier : MerchantTier} {row : UsageRow}
    (hcount : count (RELAY_DAILY_QUOTA tier) (w.usage key) = some row)
    (ht : Told w key (RELAY_DAILY_QUOTA tier))
    (hdue : threshold (RELAY_DAILY_QUOTA tier) alert ≤ row.submissions) :
    (w.stamped key alert = true ∨ Pending w key alert) ∨
      alertFor (RELAY_DAILY_QUOTA tier) row = some alert := by
  obtain ⟨hnumber, hlt, hstamp⟩ := count_submissions (quota_pos tier) hcount
  by_cases hstamped : w.stamped key alert = true
  · exact .inl (.inl hstamped)
  · have hnone : row.stamp alert = none := by
      rw [← hstamp alert, Option.isSome_iff_ne_none, not_not] at hstamped
      exact hstamped
    cases alert with
    | exhausted => exact .inr (alertFor_exhausted hdue hnone)
    | warned =>
        by_cases hquota : row.submissions < RELAY_DAILY_QUOTA tier
        · exact .inr (alertFor_warned hquota hdue hnone)
        · -- the last submission: an earlier one has reached the warning
          refine .inl (ht .warned ?_)
          rw [threshold, warnAt_quota]
          have := quota_pos tier
          omega

theorem Told.moves {tier : MerchantTier} (ht : Told w key (RELAY_DAILY_QUOTA tier)) (hs : Sound w)
    (h : Moves w l w') (hl : ∀ k, l ≠ .crash k)
    (hconst : ∀ a ∈ w'.counted, a.key = key → a.quota = RELAY_DAILY_QUOTA tier) :
    Told w' key (RELAY_DAILY_QUOTA tier) := by
  cases h with
  | idle => exact ht
  | called =>
      intro alert hdue
      refine (ht alert hdue).imp_right fun hpending => ?_
      obtain ⟨n, quota, now, hmem⟩ := hpending
      exact ⟨n, quota, now, List.mem_append_left _ hmem⟩
  | crashed k => exact absurd rfl (hl k)
  | refused k merchantId quota now row hk hrow hspent =>
      intro alert hdue
      exact (ht alert hdue).imp_right fun hpending =>
        hpending.erase hk fun _ _ _ heq => by cases heq
  | counted k merchantId quota now row hk hcount =>
      intro alert hdue
      have hkeep (h : w.stamped key alert = true ∨ Pending w key alert) :
          w.stamped key alert = true ∨
            ∃ n quota now, Call.alerting key alert n quota now ∈ w.calls.eraseIdx k :=
        h.imp_right fun hpending => hpending.erase hk fun _ _ _ heq => by cases heq
      have hsub : threshold (RELAY_DAILY_QUOTA tier) alert ≤
          ((w.drop k).setRow (merchantId, utcDay now) row).submissions key := hdue
      show ((w.drop k).setRow (merchantId, utcDay now) row).stamped key alert = true ∨ _
      rw [setRow_submissions] at hsub
      rw [setRow_stamped]
      by_cases heq : key = (merchantId, utcDay now)
      · rw [if_pos heq] at hsub ⊢
        obtain rfl : quota = RELAY_DAILY_QUOTA tier :=
          hconst _ (List.mem_append_right _ (List.mem_singleton_self _)) heq.symm
        rw [← heq] at hcount
        rw [(count_submissions (quota_pos tier) hcount).2.2 alert]
        rcases due_of_count hcount ht hsub with h | halert
        · refine (hkeep h).imp_right fun h => ?_
          obtain ⟨n, quota, now', hmem⟩ := h
          exact ⟨n, quota, now', List.mem_append_left _ hmem⟩
        · refine .inr ⟨row.submissions, RELAY_DAILY_QUOTA tier, now, List.mem_append_right _ ?_⟩
          rw [halert, heq]
          exact List.mem_singleton_self _
      · rw [if_neg heq] at hsub ⊢
        refine (hkeep (ht alert hsub)).imp_right fun h => ?_
        obtain ⟨n, quota, now', hmem⟩ := h
        exact ⟨n, quota, now', List.mem_append_left _ hmem⟩
  | claimed k key' alert' n quota now hk hlost =>
      intro alert hdue
      by_cases hsame : key' = key ∧ alert' = alert
      · obtain ⟨rfl, rfl⟩ := hsame
        refine .inl ?_
        obtain ⟨⟨tier', rfl⟩, hreached, hn⟩ :=
          (hs.calls _ (List.mem_of_getElem? hk)).alerting _ _ _ _ _ rfl
        have hpos := (threshold_pos tier' alert').trans_le (hreached.trans hn)
        show w.stamped key' alert' = true
        rw [World.submissions] at hpos
        rw [World.stamped]
        cases hrow : w.usage key' with
        | none =>
            rw [hrow] at hpos
            exact absurd hpos (Nat.lt_irrefl 0)
        | some row => simpa [Option.isSome_iff_ne_none] using hlost row hrow
      · refine (ht alert hdue).imp_right fun hpending => hpending.erase hk fun _ _ _ heq => ?_
        cases heq
        exact hsame ⟨rfl, rfl⟩
  | alerted k key' alert' n quota now row hk hrow hwon =>
      intro alert hdue
      have hsub : threshold (RELAY_DAILY_QUOTA tier) alert ≤
          ((w.drop k).setRow key' (row.setStamp now alert')).submissions key := hdue
      show ((w.drop k).setRow key' (row.setStamp now alert')).stamped key alert = true ∨ _
      rw [setRow_submissions, setStamp_submissions] at hsub
      rw [setRow_stamped, setStamp_stamp]
      have hbefore : threshold (RELAY_DAILY_QUOTA tier) alert ≤ w.submissions key := by
        split at hsub
        · next heq =>
            rw [heq, World.submissions, hrow]
            exact hsub
        · exact hsub
      by_cases hsame : key' = key ∧ alert' = alert
      · obtain ⟨rfl, rfl⟩ := hsame
        exact .inl (by rw [if_pos rfl, if_pos rfl]; rfl)
      · refine (ht alert hbefore).imp (fun hstamped => ?_) fun hpending =>
          hpending.erase hk fun _ _ _ heq => ?_
        · split
          · next heq =>
              subst heq
              rw [if_neg fun heq => hsame ⟨rfl, heq.symm⟩]
              simpa [World.stamped, hrow] using hstamped
          · exact hstamped
        · cases heq
          exact hsame ⟨rfl, rfl⟩
  | gas merchantId gasWei now =>
      intro alert hdue
      rw [setRow_submissions] at hdue
      rw [setRow_stamped]
      by_cases heq : key = (merchantId, utcDay now)
      · rw [if_pos heq, addGas_submissions, ← heq] at hdue
        rw [if_pos heq, addGas_stamp, ← heq]
        exact ht alert hdue
      · rw [if_neg heq] at hdue ⊢
        exact ht alert hdue
  | tier => exact ht

theorem counted_mono (h : Moves w l w') : ∀ a ∈ w.counted, a ∈ w'.counted := by
  intro a ha
  cases h with
  | counted => exact List.mem_append_left _ ha
  | _ => exact ha

end Invariants

/-! ## Runs -/

theorem start_sound (tiers : String → Option MerchantTier) : Sound (start tiers) where
  numbers _ := rfl
  counted _ h := absurd h List.not_mem_nil
  refused _ h := absurd h List.not_mem_nil
  calls _ h := absurd h List.not_mem_nil
  stamps _ _ := rfl
  alerts _ h := absurd h List.not_mem_nil

theorem exec_counted (w : World) (ls : List Label) : ∀ a ∈ w.counted, a ∈ (exec step w ls).counted :=
  exec_rel (R := fun w w' => ∀ a ∈ w.counted, a ∈ w'.counted) (fun _ _ h => h)
    (fun hab hbc a ha => hbc a (hab a ha)) (fun w l _ => counted_mono (step_moves w l)) w

theorem exec_told {w : World} {key : DayKey} {tier : MerchantTier} {ls : List Label}
    (ht : Told w key (RELAY_DAILY_QUOTA tier)) (hs : Sound w) (hls : ∀ l ∈ ls, ∀ k, l ≠ .crash k)
    (hconst : ∀ a ∈ (exec step w ls).counted, a.key = key → a.quota = RELAY_DAILY_QUOTA tier) :
    Told (exec step w ls) key (RELAY_DAILY_QUOTA tier) := by
  induction ls generalizing w with
  | nil => exact ht
  | cons l ls ih =>
      have hmoves := step_moves w l
      have htold := ht.moves hs hmoves (hls l List.mem_cons_self) fun a ha =>
        hconst a (exec_counted (step w l) ls a ha)
      exact ih htold (hs.moves hmoves) (fun l' hl' => hls l' (List.mem_cons_of_mem _ hl')) hconst

/-- Who waits as told is in the next day. -/
theorem utcDay_retry (now : Nat) :
    utcDay (now + 1000 * secondsToNextUtcMidnight now) = utcDay now + 1 := by
  simp only [utcDay, secondsToNextUtcMidnight, MS_PER_DAY]
  omega

/-- The budget over any run of submissions whose statements interleave, with crashes, gas records
and tier changes in between. Each day's submissions are counted 1, 2, … without gap or repeat and
none beyond the quota its call read; a refusal means that the quota it read was spent, and its
wait ends in the next day; an alert is raised once a day at most, and not before it is due. When
nothing has crashed and all calls are done, the alerts that are due have been raised, on a day on
which all submissions were counted under one tier. -/
theorem relay_budget (tiers : String → Option MerchantTier) (ls : List Label) :
    let w := exec step (start tiers) ls
    (∀ key, w.numbers key = List.range' 1 (w.submissions key)) ∧
    (∀ a ∈ w.counted, a.number ≤ a.quota ∧ ∃ tier, a.quota = RELAY_DAILY_QUOTA tier) ∧
    (∀ r ∈ w.refused, r.quota ≤ w.submissions r.key ∧
      utcDay (r.now + 1000 * r.retryAfterSec) = r.key.2 + 1) ∧
    (∀ key alert, w.raised key alert ≤ 1) ∧
    (∀ a ∈ w.alerts, threshold a.quota a.alert ≤ a.submissions ∧
      a.submissions ≤ w.submissions a.key) ∧
    ((∀ l ∈ ls, ∀ k, l ≠ .crash k) → w.calls = [] → ∀ key tier,
      (∀ a ∈ w.counted, a.key = key → a.quota = RELAY_DAILY_QUOTA tier) → ∀ alert,
      threshold (RELAY_DAILY_QUOTA tier) alert ≤ w.submissions key → w.raised key alert = 1) := by
  intro w
  have hs : Sound w := exec_invariant (start_sound tiers) fun w l _ h => h.moves (step_moves w l)
  refine ⟨hs.numbers, hs.counted, fun r hr => ?_, fun key alert => ?_, hs.alerts, ?_⟩
  · obtain ⟨hspent, hday, hretry⟩ := hs.refused r hr
    refine ⟨hspent, ?_⟩
    rw [hday, hretry, utcDay_retry]
  · rw [hs.stamps]
    exact Bool.toNat_le _
  · intro hls hdone key tier hconst alert hdue
    have htold : Told w key (RELAY_DAILY_QUOTA tier) := by
      refine exec_told (fun alert hreached => ?_) (start_sound tiers) hls hconst
      exact absurd hreached (Nat.not_le.mpr (threshold_pos tier alert))
    rcases htold alert hdue with hstamped | ⟨n, quota, now, hmem⟩
    · rw [hs.stamps, hstamped]
      rfl
    · rw [hdone] at hmem
      exact absurd hmem List.not_mem_nil

end Strimz.RelayBudget
