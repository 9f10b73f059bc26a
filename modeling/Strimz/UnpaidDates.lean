import Strimz.PeriodKeys

/-!
# The unpaid due date, read off the log

The due date a part of the contract's log leaves unpaid, as a fold (`unpaid`). The whole log
gives the due time in storage (`DueInv`); the end of the current period in the indexer's row is
that date, and one interval later until something is paid of a subscription that started at
once (`periodEnd_eq`).
-/

namespace Strimz.Subscriptions

open Tx Indexer

variable {ξ δ : Type} {O : Outside ξ δ} {this : Address} {msg : Msg} {c c' : Ctx Storage ξ}
  {s s' : Storage} {id : Nat} {l : Log}

/-! ## The fold -/

/-- What is unpaid of a subscription: since when, and how long after that its first period
ends, as long as that is the one. -/
structure Unpaid where
  due : Int
  headStart : Int
deriving Repr, DecidableEq

/-- What one more log leaves unpaid: an enrolment its first charge, a charge the next one. -/
def nextUnpaid (id : Nat) (u : Option Unpaid) (l : Log) : Option Unpaid :=
  match enrolmentOf id l, chargeOf id l with
  | some (interval, startAt), _ =>
      some (u.getD ⟨unix startAt, if unix l.timestamp < unix startAt then 0 else interval.toNat⟩)
  | none, some (_, nextChargeAt) => u.map fun _ => ⟨nextChargeAt, 0⟩
  | none, none => u

def unpaid (id : Nat) (logs : List Log) : Option Unpaid := logs.foldl (nextUnpaid id) none

/-- Where the row's period ends. -/
def Unpaid.periodEnd (u : Unpaid) : Int := u.due + u.headStart

theorem nextKey_eq (u : Option Unpaid) : nextKey id (u.map Unpaid.periodEnd) l =
    (nextUnpaid id u l).map Unpaid.periodEnd := by
  unfold nextKey nextUnpaid
  cases enrolmentOf id l with
  | some enrolment =>
      obtain ⟨interval, startAt⟩ := enrolment
      cases u with
      | some u => rfl
      | none =>
          simp only [Option.map_none, Option.getD_none, Option.map_some, Unpaid.periodEnd]
          split <;> simp
  | none =>
      cases chargeOf id l with
      | some charge => cases u <;> simp [Unpaid.periodEnd]
      | none => rfl

theorem periodEnd_eq (id : Nat) (logs : List Log) :
    periodEnd id logs = (unpaid id logs).map Unpaid.periodEnd := by
  have hfold : ∀ u : Option Unpaid, logs.foldl (nextKey id) (u.map Unpaid.periodEnd) =
      (logs.foldl (nextUnpaid id) u).map Unpaid.periodEnd := by
    induction logs with
    | nil => exact fun _ => rfl
    | cons l logs ih =>
        intro u
        rw [List.foldl_cons, List.foldl_cons, nextKey_eq]
        exact ih _
  exact hfold none

theorem unpaid_append (id : Nat) (logs new : List Log) :
    unpaid id (logs ++ new) = new.foldl (nextUnpaid id) (unpaid id logs) := List.foldl_append

theorem nextUnpaid_quiet {u : Option Unpaid} (h : l.Quiet) : nextUnpaid id u l = u := by
  rw [nextUnpaid, (h id).1, (h id).2]

theorem unpaid_quiet {logs new : List Log} (h : ∀ l ∈ new, l.Quiet) :
    unpaid id (logs ++ new) = unpaid id logs := by
  rw [unpaid_append]
  generalize unpaid id logs = u
  induction new with
  | nil => rfl
  | cons l new ih =>
      rw [List.foldl_cons, nextUnpaid_quiet (h l List.mem_cons_self)]
      exact ih fun l' hl' => h l' (List.mem_cons_of_mem _ hl')

/-! ## The due time in storage -/

/-- The log leaves unpaid what storage says is due next. -/
def DueInv (s : Storage) : Prop :=
  ∀ id u, unpaid id s.logs = some u → u.due = unix (s.subscriptions id).nextChargeAt

theorem DueInv.quiet {new : List Log} (inv : DueInv s) (hlogs : s'.logs = s.logs ++ new)
    (hquiet : ∀ l ∈ new, l.Quiet)
    (hdue : ∀ id, (s'.subscriptions id).nextChargeAt = (s.subscriptions id).nextChargeAt) :
    DueInv s' := by
  intro id u hu
  rw [hlogs, unpaid_quiet hquiet] at hu
  rw [hdue]
  exact inv id u hu

theorem DueInv.enrolled {payer : Address} {p : Terms} (inv : DueInv s) (hkeys : KeysInv s) :
    DueInv (s.enrolled msg payer p) := by
  intro id u hu
  have hlogs : (s.enrolled msg payer p).logs = s.logs ++ [⟨msg.timestamp, .subscriptionCreated
      s.nextSubscriptionId p.merchantId payer p.token p.amount p.interval
        (firstChargeAt msg p)⟩] := rfl
  rw [hlogs, unpaid_append, List.foldl_cons, List.foldl_nil] at hu
  rw [(enrolled_views s msg payer p id).1]
  by_cases hid : id = s.nextSubscriptionId
  · have hnew : unpaid id s.logs = none := by
      have hnone := hkeys.periodEnd_new
      rwa [← hid, periodEnd_eq, Option.map_eq_none_iff] at hnone
    rw [if_pos hid]
    simp only [nextUnpaid, enrolmentOf, if_pos hid.symm, hnew, Option.getD_none,
      Option.some.injEq] at hu
    rw [← hu]
    rfl
  · rw [if_neg hid]
    simp only [nextUnpaid, enrolmentOf, chargeOf, if_neg (Ne.symm hid)] at hu
    exact inv id u hu

theorem DueInv.row {attempt : Bytes32} {outcome : ChargeOutcome} (inv : DueInv c.storage)
    (ht : msg.timestamp.toNat < 2 ^ 62) (hrow : Row O this msg id attempt c c' outcome) :
    DueInv c'.storage := by
  cases hrow with
  | skipped _ _ h =>
      subst h
      exact inv.quiet rfl (by simp [Log.Quiet, enrolmentOf, chargeOf]) fun _ => rfl
  | failed m _ h =>
      subst h
      exact inv.quiet rfl (by simp [Log.Quiet, enrolmentOf, chargeOf]) fun _ => rfl
  | charged m hdue x _ h =>
      subst h
      generalize hsub : c.storage.subscriptions id = sub at *
      have hready : sub.nextChargeAt ≤ msg.timestamp := hsub ▸ hdue.due
      have hnext := toNat_advanced hready (Nat.lt_of_lt_of_le ht (by norm_num))
      have hstart := paidPeriodStart_le hready
      have hinterval := sub.interval.isLt
      set start := BitVec.ofNat 64 (paidPeriodStart msg sub) with hstartAt
      -- the skipped periods are logged first
      have inv₁ : DueInv ((c.storage.useAttempt attempt).logSkipped msg id
          (periodsSkipped msg sub) start) := inv.quiet rfl
        (by split <;> simp [Log.Quiet, enrolmentOf, chargeOf]) fun _ => rfl
      intro i u hu
      dsimp only at hu ⊢
      rw [(advanced_views ..).1]
      have hlogs : ((c.storage.useAttempt attempt).advanced msg id attempt sub
          (feeOf sub.amount m.feeBps) (sub.amount - feeOf sub.amount m.feeBps) start).logs =
          ((c.storage.useAttempt attempt).logSkipped msg id (periodsSkipped msg sub) start).logs ++
            [⟨msg.timestamp, .subscriptionCharged id attempt sub.amount
              (feeOf sub.amount m.feeBps) (sub.amount - feeOf sub.amount m.feeBps)
              (start + sub.interval.setWidth 64)⟩] := rfl
      rw [hlogs, unpaid_append, List.foldl_cons, List.foldl_nil] at hu
      by_cases hi : i = id
      · simp only [nextUnpaid, enrolmentOf, chargeOf, if_pos hi.symm, Option.map_eq_some_iff] at hu
        obtain ⟨_, -, rfl⟩ := hu
        rw [if_pos hi]
        exact (unix_of_lt (by rw [hnext]; omega)).symm
      · simp only [nextUnpaid, enrolmentOf, chargeOf, if_neg (Ne.symm hi)] at hu
        rw [if_neg hi]
        exact inv₁ i u hu

theorem DueInv.rows {rows : List (Nat × Bytes32)} {outcomes : List ChargeOutcome}
    (inv : DueInv c.storage) (ht : msg.timestamp.toNat < 2 ^ 62)
    (hrows : Rows O this msg rows outcomes c c') : DueInv c'.storage := by
  induction hrows with
  | nil => exact inv
  | cons hrow _ ih => exact ih (inv.row ht hrow)

theorem DueInv.step {l : Label ξ} (inv : DueInv c.storage) (hkeys : KeysInv c.storage)
    (ht : l.time < 2 ^ 62) : DueInv (step O this c l).storage := by
  have hput : ∀ {s' : Storage} {sub : Subscription} {e : Event} {i : Nat},
      s'.logs = c.storage.logs ++ [⟨l.msg.timestamp, e⟩] →
      s'.subscriptions = Function.update c.storage.subscriptions i sub →
      sub.nextChargeAt = (c.storage.subscriptions i).nextChargeAt →
      (∀ id, enrolmentOf id ⟨l.msg.timestamp, e⟩ = none ∧
        chargeOf id ⟨l.msg.timestamp, e⟩ = none) → DueInv s' := by
    intro s' sub e i hlogs hsubs hnext hquiet
    refine inv.quiet hlogs (fun l' hl' => List.mem_singleton.mp hl' ▸ hquiet) fun id => ?_
    rw [hsubs]
    by_cases hid : id = i
    · rw [hid, Function.update_self, hnext]
    · rw [Function.update_of_ne hid]
  cases step_change O this c l with
  | config h =>
      obtain ⟨new, hlogs⟩ := (step_appends O this c l).logs
      exact inv.quiet hlogs (quiet_of_sameBook h hlogs) fun id => by rw [h.subscriptions]
  | enrolled payer p _ used _ h =>
      rw [h]
      have hkeys' : KeysInv { c.storage with usedIntentNonces := used } :=
        ⟨hkeys.known, hkeys.small, hkeys.started, hkeys.older, hkeys.latest⟩
      have inv' : DueInv { c.storage with usedIntentNonces := used } := inv
      exact inv'.enrolled hkeys'
  | partyCancelled id m _ _ _ _ _ h =>
      rw [h]
      exact hput rfl rfl rfl fun _ => ⟨rfl, rfl⟩
  | operatorCancelled id m _ _ _ _ _ _ h =>
      rw [h]
      exact hput rfl rfl rfl fun _ => ⟨rfl, rfl⟩
  | reinstated id _ _ _ _ _ h =>
      rw [h]
      exact hput rfl rfl rfl fun _ => ⟨rfl, rfl⟩
  | charged rows outcomes c₁ hrows h =>
      rw [h]
      have inv' : DueInv (c.storage.setEntered true) := inv
      have inv₁ : DueInv c₁.storage :=
        DueInv.rows (c := ⟨c.storage.setEntered true, c.ext⟩) inv' ht hrows
      exact inv₁

theorem DueInv.deployed (hasRole : RoleTable) (registry feeCollector tokenWhitelist : Address) :
    DueInv (deployed hasRole registry feeCollector tokenWhitelist) := fun _ _ h => by cases h

end Strimz.Subscriptions
