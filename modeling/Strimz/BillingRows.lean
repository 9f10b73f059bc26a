import Strimz.Billing
import Strimz.PeriodKeys
import Strimz.ProjectionSteps

/-!
# The period ends in the database

One log applied moves the period end of a row by `nextKey`, so the rows show what the part of
the log that is projected says.
-/

namespace Strimz.Billing

open Tx Subscriptions Indexer

/-- The period ends of the rows. -/
def ends (db : Db) (id : Int) : Option Int := (db.subscriptions id).map (·.currentPeriodEndAt)

section Project

variable {db db' : Db} {sub sub' : SubscriptionRow} {i id : Int} {n : Nat}

theorem ends_update (h : db'.subscriptions = Function.update db.subscriptions i (some sub)) :
    ends db' id = if id = i then some sub.currentPeriodEndAt else ends db id := by
  rw [ends, h, Function.update_apply]
  split <;> rfl

theorem ends_same (h : db'.subscriptions = db.subscriptions) : ends db' id = ends db id := by
  rw [ends, h, ends]

/-- A row rewritten without its period end. -/
theorem ends_rewrite (hrow : db.subscriptions i = some sub)
    (h : db'.subscriptions = Function.update db.subscriptions i (some sub'))
    (hkept : sub'.currentPeriodEndAt = sub.currentPeriodEndAt) : ends db' id = ends db id := by
  rw [ends_update h, hkept]
  split
  next heq => rw [heq, ends, hrow]; rfl
  next => rfl

theorem subscriptions_recordAttempt (in_ : SubscriptionChargedInput) (id : Int)
    (sub : SubscriptionRow) : (db.recordAttempt in_ id sub).subscriptions = db.subscriptions := by
  unfold Db.recordAttempt
  split
  · rfl
  · split <;> rfl

theorem created_ends {in_ : SubscriptionCreatedInput}
    (h : upsertSubscriptionFromOnchain in_ db = .ok (n, db')) :
    ends db' id = if id = int64 in_.onchainSubscriptionId then
      some ((ends db id).getD (if in_.trial then in_.startAt else in_.currentPeriodEndAt))
      else ends db id := by
  obtain ⟨-, -, merchant, -, -, -, ⟨hold, -, rfl⟩ | ⟨hnew, -, -, rfl⟩⟩ :=
    upsertSubscriptionFromOnchain_eq_ok.mp h
  · have hsame : ends (db.enrolPayer in_ merchant.id) id = ends db id := rfl
    rw [hsame]
    split
    next heq =>
      obtain ⟨sub, hsub⟩ := Option.ne_none_iff_exists'.mp hold
      rw [heq, ends, hsub]
      rfl
    next => rfl
  · rw [ends_update rfl]
    split
    next heq =>
      rw [heq, ends, hnew]
      rfl
    next => rfl

theorem charged_ends {in_ : SubscriptionChargedInput}
    (h : insertSubscriptionCharge in_ db = .ok (n, db')) :
    ends db' id = if id = int64 in_.onchainSubscriptionId then
      (ends db id).map fun _ => in_.nextChargeAt else ends db id := by
  obtain ⟨-, sub, merchant, merchantAddress, hsub, -, -, -, -, hcases⟩ :=
    insertSubscriptionCharge_eq_ok.mp h
  have hsubs : db'.subscriptions = Function.update db.subscriptions
      (int64 in_.onchainSubscriptionId) (some (sub.bump in_.nextChargeAt)) := by
    rcases hcases with ⟨-, -, rfl⟩ | ⟨-, -, -, rfl⟩
    · exact congrArg (fun f => Function.update f _ _) (subscriptions_recordAttempt in_ _ sub)
    · rw [recordCharge_frame]
  rw [ends_update hsubs]
  split
  next heq =>
    rw [heq, ends, hsub]
    rfl
  next => rfl

theorem periodsSkipped_ends {in_ : SubscriptionPeriodsSkippedInput}
    (h : recordSubscriptionPeriodsSkipped in_ db = .ok (n, db')) : ends db' id = ends db id := by
  obtain ⟨-, -, sub, hsub, -, rfl⟩ := recordSubscriptionPeriodsSkipped_eq_ok.mp h
  exact ends_rewrite hsub rfl rfl

theorem subscriptions_flagAtRisk (t : Int) (hsub : db.subscriptions i = some sub) :
    ends (db.flagAtRisk i sub t) id = ends db id := by
  unfold Db.flagAtRisk
  split
  · exact ends_rewrite hsub rfl rfl
  · rfl

theorem chargeSkip_ends {in_ : SubscriptionChargeSkippedInput}
    (h : insertSubscriptionChargeSkip in_ db = .ok (n, db')) : ends db' id = ends db id := by
  obtain ⟨-, -, sub, hsub, ⟨-, -, rfl⟩ | ⟨row, -, -, -, ⟨-, rfl⟩ | ⟨-, -, rfl⟩⟩⟩ :=
    insertSubscriptionChargeSkip_eq_ok.mp h
  · rfl
  · exact ends_same rfl
  · have hput : ∀ event, ((db.putCharge in_.chargeAttemptId row).emit event).subscriptions _ =
        some sub := fun _ => hsub
    exact subscriptions_flagAtRisk _ (hput _)

theorem cancelled_ends {subId : Nat} {by_ : Address} {txHash : Bytes32} {t : Int}
    (h : markSubscriptionCancelled subId by_ txHash t db = .ok (n, db')) :
    ends db' id = ends db id := by
  obtain ⟨-, -, sub, hsub, ⟨-, -, rfl⟩ | ⟨-, -, rfl⟩⟩ := markSubscriptionCancelled_eq_ok.mp h
  · rfl
  · exact ends_rewrite hsub rfl rfl

theorem operation_ends {in_ : ContractOperationInput} (h : logContractOperation in_ db = .ok ((), db')) :
    ends db' id = ends db id := by
  obtain ⟨-, heq⟩ := logContractOperation_eq_ok.mp h
  obtain rfl := (Prod.mk.inj heq).2
  have haudit : ∀ aid m e, (db.auditOnce aid m e).subscriptions = db.subscriptions := by
    intro aid m e
    unfold Db.auditOnce
    split <;> rfl
  refine ends_same ?_
  unfold Db.recordOperation
  dsimp only
  split
  · exact haudit _ _ _
  · exact haudit _ _ _

end Project

/-! ## One log -/

variable {p : Projector} {db db' : Db} {l : Subscriptions.Log}

/-- The numbers of a log fit the columns they are written to. -/
structure Fits (l : Subscriptions.Log) : Prop where
  enrolled : ∀ id, enrolmentOf id l ≠ none → id < 2 ^ 63
  charged : ∀ id charge, chargeOf id l = some charge → id < 2 ^ 63 ∧ charge.2 < 2 ^ 63

theorem tokenSymbol_bind_eq_ok {β : Type} {token : Address} {k : Currency → Projection β}
    {r : β × Db} :
    (p.tokenSymbol token >>= k) db = .ok r ↔ ∃ currency, p.tokens token = some currency ∧
      k currency db = .ok r := by
  unfold Projector.tokenSymbol
  cases p.tokens token with
  | none => simp [bind_eq_ok, throw_eq_ok]
  | some currency => simp

theorem apply_ends {address : Address} {blockNumber index : Nat} {txHash : Bytes32}
    (hfits : Fits l) (h : p.apply ⟨address, blockNumber, txHash, index, decode l.event⟩
      (unix l.timestamp) db = .ok ((), db')) (id : Nat) :
    ends db' id = nextKey id (ends db id) l := by
  obtain ⟨t, event⟩ := l
  cases event with
  | subscriptionCreated i merchantId payer token amount interval startAt =>
      obtain ⟨currency, -, h⟩ := tokenSymbol_bind_eq_ok.mp h
      obtain ⟨n, h⟩ := drop_eq_ok.mp h
      have hsmall : i < 2 ^ 63 := hfits.enrolled i (by simp [enrolmentOf])
      rw [created_ends h]
      dsimp only [SubscriptionCreatedInput.trial]
      rw [int64_of_lt hsmall]
      by_cases hid : i = id
      · subst hid
        simp [nextKey, enrolmentOf]
      · rw [if_neg (by omega)]
        simp [nextKey, enrolmentOf, chargeOf, hid]
  | subscriptionCharged i attempt amount feeAmount netAmount nextChargeAt =>
      obtain ⟨n, h⟩ := drop_eq_ok.mp h
      obtain ⟨hsmall, hnext⟩ := hfits.charged i (t.toNat, nextChargeAt.toNat) (by simp [chargeOf])
      rw [charged_ends h]
      dsimp only
      rw [int64_of_lt hsmall, unix_of_lt hnext]
      by_cases hid : i = id
      · subst hid
        simp [nextKey, enrolmentOf, chargeOf]
      · rw [if_neg (by omega)]
        simp [nextKey, enrolmentOf, chargeOf, hid]
  | subscriptionPeriodsSkipped i periods paidPeriodStart =>
      obtain ⟨n, h⟩ := drop_eq_ok.mp h
      exact periodsSkipped_ends h
  | subscriptionChargeSkipped i attempt outcome =>
      obtain ⟨n, h⟩ := drop_eq_ok.mp h
      exact chargeSkip_ends h
  | subscriptionCancelled i by_ =>
      obtain ⟨n, h⟩ := drop_eq_ok.mp h
      exact cancelled_ends h
  | subscriptionReinstated i by_ =>
      obtain rfl := (Prod.mk.inj (pure_eq_ok.mp h)).2
      rfl
  | tokensRescued token to_ amount by_ =>
      obtain rfl := (Prod.mk.inj (pure_eq_ok.mp h)).2
      rfl
  | dependencyUpdated name newAddress => exact operation_ends h

/-- A row is only ever created under an id that fits the column. -/
theorem apply_bounded {address : Address} {blockNumber index : Nat} {txHash : Bytes32}
    (hfits : Fits l) (h : p.apply ⟨address, blockNumber, txHash, index, decode l.event⟩
      (unix l.timestamp) db = .ok ((), db')) {id : Nat} (hnew : ends db' id ≠ none)
    (hold : ends db id = none) : id < 2 ^ 31 := by
  have hend := apply_ends hfits h id
  obtain ⟨t, event⟩ := l
  rw [hend, hold] at hnew
  cases event with
  | subscriptionCreated i merchantId payer token amount interval startAt =>
      obtain ⟨currency, -, h⟩ := tokenSymbol_bind_eq_ok.mp h
      obtain ⟨n, h⟩ := drop_eq_ok.mp h
      obtain ⟨-, -, merchant, -, hint4, -⟩ := upsertSubscriptionFromOnchain_eq_ok.mp h
      have hsmall : i < 2 ^ 63 := hfits.enrolled i (by simp [enrolmentOf])
      have hle := hint4.2
      dsimp only at hle
      rw [int64_of_lt hsmall, MAX_INT4] at hle
      by_cases hid : i = id
      · omega
      · simp [nextKey, enrolmentOf, chargeOf, hid] at hnew
  | subscriptionCharged i attempt amount feeAmount netAmount nextChargeAt =>
      by_cases hid : i = id <;> simp [nextKey, enrolmentOf, chargeOf, hid] at hnew
  | _ => exact absurd rfl hnew

end Strimz.Billing
