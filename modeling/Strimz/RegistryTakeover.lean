import Strimz.RegistryFees

/-!
# Payout and ownership changes over a run of the registry

Both changes take two calls with `PAYOUT_CHANGE_DELAY` in between, and both can be
cancelled, restarted and overtaken by each other. `PolicyStep` says once what a call can
do to a merchant's owner, payout address and pending changes. A pending change of a
reachable state goes back to the call that started it (`exists_start`), and since then
the merchant has had the same owner and no call has touched the change.
-/

namespace Strimz.Registry

open Tx Runs

/-- A merchant's owner and payout address, and the changes that wait. -/
structure Policy where
  owner : Address
  payoutAddress : Address
  pendingPayoutAddress : Address
  payoutChangeCommitAt : Uint64
  pendingOwner : Address
  ownershipAcceptableAt : Uint64
deriving DecidableEq

def noPolicy : Policy := ⟨0, 0, 0, 0, 0, 0⟩

def Storage.policy (s : Storage) (id : Nat) : Policy where
  owner := (s.merchants id).owner
  payoutAddress := (s.merchants id).payoutAddress
  pendingPayoutAddress := (s.merchants id).pendingPayoutAddress
  payoutChangeCommitAt := (s.merchants id).payoutChangeCommitAt
  pendingOwner := (s.merchants id).pendingOwner
  ownershipAcceptableAt := s.ownershipAcceptableAt id

/-- The calls that start, finish or drop a payout change: proposals, commits,
cancellations, and accepted transfers. -/
def Action.onPayout (id : Nat) : Action → Bool
  | .setPayoutAddress i _ | .commitPayoutAddress i | .cancelPayoutAddressChange i
  | .adminCancelPayoutChange i | .acceptMerchantOwnership i => i = id
  | _ => false

/-- The calls that start, finish or drop an ownership transfer. -/
def Action.onOwner (id : Nat) : Action → Bool
  | .transferMerchantOwnership i _ | .acceptMerchantOwnership i | .cancelOwnershipTransfer i
  | .adminCancelOwnershipTransfer i => i = id
  | _ => false

/-- The call goes through. -/
def Succeeds (s : Storage) (l : Label) : Prop := ∃ s', dispatch l.msg l.action s = .ok ((), s')

/-- What a call that goes through does to a merchant. -/
inductive PolicyStep (l : Label) (id : Nat) (p : Policy) : Policy → Prop where
  | same (hpayout : l.action.onPayout id = false) (howner : l.action.onOwner id = false) :
      PolicyStep l id p p
  | registered {owner : Address} (payout : Address) (hregistered : owner ≠ 0)
      (hpayout : l.action.onPayout id = false) (howner : l.action.onOwner id = false)
      (hp : p = noPolicy) :
      PolicyStep l id p { noPolicy with owner := owner, payoutAddress := payout }
  | proposed {v : Address} (haction : l.action = .setPayoutAddress id v)
      (hregistered : p.owner ≠ 0) (hsender : l.msg.sender = p.owner) (hv : v ≠ 0)
      (hrange : l.msg.timestamp.toNat + PAYOUT_CHANGE_DELAY.toNat < 2 ^ 64) :
      PolicyStep l id p
        { p with pendingPayoutAddress := v,
                 payoutChangeCommitAt := l.msg.timestamp + PAYOUT_CHANGE_DELAY }
  | committed (haction : l.action = .commitPayoutAddress id) (hpending : p.pendingPayoutAddress ≠ 0)
      (hdue : p.payoutChangeCommitAt ≤ l.msg.timestamp) :
      PolicyStep l id p
        { p with payoutAddress := p.pendingPayoutAddress, pendingPayoutAddress := 0,
                 payoutChangeCommitAt := 0 }
  | payoutCancelled (hon : l.action.onPayout id = true) (howner : l.action.onOwner id = false) :
      PolicyStep l id p { p with pendingPayoutAddress := 0, payoutChangeCommitAt := 0 }
  | named {v : Address} (haction : l.action = .transferMerchantOwnership id v)
      (hregistered : p.owner ≠ 0) (hsender : l.msg.sender = p.owner) (hv : v ≠ 0)
      (hrange : l.msg.timestamp.toNat + PAYOUT_CHANGE_DELAY.toNat < 2 ^ 64) :
      PolicyStep l id p
        { p with pendingOwner := v,
                 ownershipAcceptableAt := l.msg.timestamp + PAYOUT_CHANGE_DELAY }
  | accepted (haction : l.action = .acceptMerchantOwnership id) (hpending : p.pendingOwner ≠ 0)
      (hsender : l.msg.sender = p.pendingOwner) (hdue : p.ownershipAcceptableAt ≤ l.msg.timestamp) :
      PolicyStep l id p ⟨p.pendingOwner, p.payoutAddress, 0, 0, 0, 0⟩
  | namingCancelled (hpayout : l.action.onPayout id = false) (hon : l.action.onOwner id = true) :
      PolicyStep l id p { p with pendingOwner := 0, ownershipAcceptableAt := 0 }

/-- Ids not handed out hold nothing, and a change is pending iff it has a date. -/
structure PolicyInv (s : Storage) : Prop where
  fresh : ∀ id, s.nextMerchantId ≤ id → s.policy id = noPolicy
  payout : ∀ id, (s.policy id).pendingPayoutAddress ≠ 0 ↔ (s.policy id).payoutChangeCommitAt ≠ 0
  owner : ∀ id, (s.policy id).pendingOwner ≠ 0 ↔ (s.policy id).ownershipAcceptableAt ≠ 0

section Step

variable {l : Label} {id : Nat} {s s' : Storage}

/-- A call that is about another merchant, or about nothing of this one's policy. -/
theorem PolicyStep.of_same (hpayout : l.action.onPayout id = false)
    (howner : l.action.onOwner id = false) (h : s'.policy id = s.policy id) :
    PolicyStep l id (s.policy id) (s'.policy id) := by
  rw [h]
  exact .same hpayout howner

theorem policy_putMerchant_of_ne {id' : Nat} {m : Merchant} (h : id ≠ id') :
    (s.putMerchant id' m).policy id = s.policy id := by
  simp [Storage.policy, h]

/-- Writing a merchant record with its policy unchanged. -/
theorem policy_putMerchant {id' : Nat} {m : Merchant} {t : Nat → PendingFee} {e : Event}
    (howner : m.owner = (s.merchants id').owner)
    (hpayout : m.payoutAddress = (s.merchants id').payoutAddress)
    (hpending : m.pendingPayoutAddress = (s.merchants id').pendingPayoutAddress)
    (hdate : m.payoutChangeCommitAt = (s.merchants id').payoutChangeCommitAt)
    (hnext : m.pendingOwner = (s.merchants id').pendingOwner) :
    (({ s with pendingFees := t }.putMerchant id' m).log e).policy id = s.policy id := by
  by_cases hid : id = id'
  · subst hid
    simp [Storage.policy, howner, hpayout, hpending, hdate, hnext]
  · simp [Storage.policy, hid]

/-- A call about one merchant is about no other. -/
theorem Action.on_of_ne {a : Action} {id' : Nat} (hid : id ≠ id')
    (ha : a.onPayout id' = true ∨ a.onOwner id' = true) :
    a.onPayout id = false ∧ a.onOwner id = false := by
  cases a <;> simp_all [Action.onPayout, Action.onOwner] <;> omega

theorem PolicyStep.of_other {id' : Nat} (hid : id ≠ id')
    (ha : l.action.onPayout id' = true ∨ l.action.onOwner id' = true)
    (h : s'.policy id = s.policy id) : PolicyStep l id (s.policy id) (s'.policy id) :=
  .of_same (Action.on_of_ne hid ha).1 (Action.on_of_ne hid ha).2 h

theorem cancelPayoutChange_policy {id' : Nat} (hon : l.action.onPayout id' = true)
    (howner : l.action.onOwner id' = false)
    (h : cancelPayoutChange id' (s.merchants id') s = .ok ((), s')) :
    PolicyStep l id (s.policy id) (s'.policy id) := by
  obtain ⟨-, rfl⟩ := cancelPayoutChange_eq_ok.mp h
  by_cases hid : id = id'
  · subst hid
    convert PolicyStep.payoutCancelled hon howner using 1
    simp [Storage.policy]
  · exact .of_other hid (Or.inl hon) (policy_putMerchant_of_ne hid)

theorem cancelPendingOwner_policy {id' : Nat} (hon : l.action.onOwner id' = true)
    (hpayout : l.action.onPayout id' = false)
    (h : cancelPendingOwner id' (s.merchants id') s = .ok ((), s')) :
    PolicyStep l id (s.policy id) (s'.policy id) := by
  obtain ⟨-, rfl⟩ := cancelPendingOwner_eq_ok.mp h
  by_cases hid : id = id'
  · subst hid
    convert PolicyStep.namingCancelled hpayout hon using 1
    simp [Storage.policy]
  · exact .of_other hid (Or.inr hon) (by simp [Storage.policy, hid])

theorem dispatch_policy (inv : PolicyInv s) (id : Nat)
    (h : dispatch l.msg l.action s = .ok ((), s')) :
    PolicyStep l id (s.policy id) (s'.policy id) := by
  cases haction : l.action with
  | registerMerchant owner payout feeBps maxFeeBps parent =>
      simp only [haction, dispatch, bind_eq_ok, pure_eq_ok, Prod.mk.injEq, existsAndEq,
        true_and, and_true] at h
      obtain ⟨newId, h⟩ := h
      obtain ⟨-, hzero, -, -, -, h⟩ := registerMerchant_eq_ok.mp h
      obtain ⟨rfl, rfl⟩ := Prod.mk.inj h
      by_cases hid : id = s.nextMerchantId
      · subst hid
        have hblank := inv.fresh _ (Nat.le_refl _)
        have hacceptable : s.ownershipAcceptableAt s.nextMerchantId = 0 :=
          congrArg Policy.ownershipAcceptableAt hblank
        convert PolicyStep.registered payout (not_or.mp hzero).1 (by rw [haction]; rfl)
          (by rw [haction]; rfl) hblank using 1
        simp [Storage.policy, noPolicy, hacceptable]
      · refine .of_same (by rw [haction]; rfl) (by rw [haction]; rfl) ?_
        simp [Storage.policy, hid]
  | setFeeBps id' v =>
      rw [haction] at h
      refine .of_same (by rw [haction]; rfl) (by rw [haction]; rfl) ?_
      obtain ⟨-, -, -, -, ⟨-, -, rfl⟩ | ⟨-, rfl⟩⟩ := setFeeBps_eq_ok.mp h
      · rfl
      · exact policy_putMerchant rfl rfl rfl rfl rfl
  | commitFeeBps id' =>
      rw [haction] at h
      refine .of_same (by rw [haction]; rfl) (by rw [haction]; rfl) ?_
      obtain ⟨-, -, -, rfl⟩ := commitFeeBps_eq_ok.mp h
      exact policy_putMerchant rfl rfl rfl rfl rfl
  | cancelFeeIncrease id' =>
      rw [haction] at h
      refine .of_same (by rw [haction]; rfl) (by rw [haction]; rfl) ?_
      obtain ⟨-, -, -, rfl⟩ := cancelFeeIncrease_eq_ok.mp h
      rfl
  | setActive id' active =>
      rw [haction] at h
      refine .of_same (by rw [haction]; rfl) (by rw [haction]; rfl) ?_
      obtain ⟨-, -, rfl⟩ := setActive_eq_ok.mp h
      exact policy_putMerchant rfl rfl rfl rfl rfl
  | setRoles hasRole =>
      rw [haction] at h
      refine .of_same (by rw [haction]; rfl) (by rw [haction]; rfl) ?_
      obtain ⟨-, rfl⟩ := Prod.mk.inj (modify_eq_ok.mp h)
      rfl
  | setPayoutAddress id' v =>
      rw [haction] at h
      obtain ⟨howner, hsender, hv, -, hrange, rfl⟩ := setPayoutAddress_eq_ok.mp h
      by_cases hid : id = id'
      · subst hid
        convert PolicyStep.proposed (p := s.policy id) haction howner hsender hv hrange using 1
        simp [Storage.policy]
      · exact .of_other hid (by simp [haction, Action.onPayout]) (policy_putMerchant_of_ne hid)
  | commitPayoutAddress id' =>
      rw [haction] at h
      obtain ⟨-, hpending, hdue, rfl⟩ := commitPayoutAddress_eq_ok.mp h
      by_cases hid : id = id'
      · subst hid
        convert PolicyStep.committed (p := s.policy id) haction hpending (BitVec.not_lt.mp hdue) using 1
        simp [Storage.policy]
      · exact .of_other hid (by simp [haction, Action.onPayout]) (policy_putMerchant_of_ne hid)
  | cancelPayoutAddressChange id' =>
      rw [haction] at h
      obtain ⟨-, -, h⟩ := cancelPayoutAddressChange_eq_ok.mp h
      exact cancelPayoutChange_policy (by simp [haction, Action.onPayout])
        (by simp [haction, Action.onOwner]) h
  | adminCancelPayoutChange id' =>
      rw [haction] at h
      obtain ⟨-, -, h⟩ := adminCancelPayoutChange_eq_ok.mp h
      exact cancelPayoutChange_policy (by simp [haction, Action.onPayout])
        (by simp [haction, Action.onOwner]) h
  | transferMerchantOwnership id' v =>
      rw [haction] at h
      obtain ⟨howner, hsender, hv, -, hrange, rfl⟩ := transferMerchantOwnership_eq_ok.mp h
      by_cases hid : id = id'
      · subst hid
        convert PolicyStep.named (p := s.policy id) haction howner hsender hv hrange using 1
        simp [Storage.policy]
      · exact .of_other hid (by simp [haction, Action.onOwner]) (by simp [Storage.policy, hid])
  | acceptMerchantOwnership id' =>
      rw [haction] at h
      obtain ⟨-, hpending, hsender, hdue, hpost⟩ := acceptMerchantOwnership_eq_ok.mp h
      by_cases hid : id = id'
      · subst hid
        convert PolicyStep.accepted (p := s.policy id) haction hpending hsender
          (BitVec.not_lt.mp (not_or.mp hdue).2) using 1
        rcases hpost with ⟨-, rfl⟩ | ⟨hnone, rfl⟩
        · simp [Storage.policy]
        · have hdate := not_imp_not.mpr (inv.payout id).mpr (not_not.mpr hnone)
          simp only [Storage.policy, not_not] at hdate
          simp [Storage.policy, hnone, hdate]
      · rcases hpost with ⟨-, rfl⟩ | ⟨-, rfl⟩
        · exact .of_other hid (by simp [haction, Action.onOwner]) (by simp [Storage.policy, hid])
        · exact .of_other hid (by simp [haction, Action.onOwner]) (by simp [Storage.policy, hid])
  | cancelOwnershipTransfer id' =>
      rw [haction] at h
      obtain ⟨-, -, h⟩ := cancelOwnershipTransfer_eq_ok.mp h
      exact cancelPendingOwner_policy (by simp [haction, Action.onOwner])
        (by simp [haction, Action.onPayout]) h
  | adminCancelOwnershipTransfer id' =>
      rw [haction] at h
      obtain ⟨-, -, h⟩ := adminCancelOwnershipTransfer_eq_ok.mp h
      exact cancelPendingOwner_policy (by simp [haction, Action.onOwner])
        (by simp [haction, Action.onPayout]) h

/-- A call that reverts leaves the registry as it was. -/
theorem step_policy (inv : PolicyInv s) (l : Label) (id : Nat) :
    (¬ Succeeds s l ∧ (step s l).policy id = s.policy id) ∨
      PolicyStep l id (s.policy id) ((step s l).policy id) := by
  cases h : dispatch l.msg l.action s with
  | ok r =>
      refine Or.inr ?_
      have hpost : step s l = r.2 := commit_of_ok h
      rw [hpost]
      exact dispatch_policy inv id h
  | error e =>
      have hpost : step s l = s := commit_of_error h
      refine Or.inl ⟨?_, by rw [hpost]⟩
      rintro ⟨s', h'⟩
      rw [h] at h'
      cases h'

/-- A date `PAYOUT_CHANGE_DELAY` ahead is a date. -/
theorem date_ne_zero {t : Uint64} (h : t.toNat + PAYOUT_CHANGE_DELAY.toNat < 2 ^ 64) :
    t + PAYOUT_CHANGE_DELAY ≠ 0 := by
  intro hzero
  have hsum := congrArg BitVec.toNat hzero
  rw [BitVec.toNat_add_of_lt h] at hsum
  simp [PAYOUT_CHANGE_DELAY] at hsum

theorem PolicyStep.payout_iff {p p' : Policy} (h : PolicyStep l id p p')
    (hp : p.pendingPayoutAddress ≠ 0 ↔ p.payoutChangeCommitAt ≠ 0) :
    p'.pendingPayoutAddress ≠ 0 ↔ p'.payoutChangeCommitAt ≠ 0 := by
  cases h with
  | same => exact hp
  | registered => simp [noPolicy]
  | proposed _ _ _ hv hrange => exact iff_of_true hv (date_ne_zero hrange)
  | committed => simp
  | payoutCancelled => simp
  | named => exact hp
  | accepted => simp
  | namingCancelled => exact hp

theorem PolicyStep.owner_iff {p p' : Policy} (h : PolicyStep l id p p')
    (hp : p.pendingOwner ≠ 0 ↔ p.ownershipAcceptableAt ≠ 0) :
    p'.pendingOwner ≠ 0 ↔ p'.ownershipAcceptableAt ≠ 0 := by
  cases h with
  | same => exact hp
  | registered => simp [noPolicy]
  | proposed => exact hp
  | committed => exact hp
  | payoutCancelled => exact hp
  | named _ _ _ hv hrange => exact iff_of_true hv (date_ne_zero hrange)
  | accepted => simp
  | namingCancelled => simp

/-- Nothing but a registration puts anything under a blank id. -/
theorem PolicyStep.blank {p' : Policy} (h : PolicyStep l id noPolicy p') (howner : p'.owner = 0) :
    p' = noPolicy := by
  cases h with
  | same => rfl
  | registered _ hregistered => exact absurd howner hregistered
  | proposed _ hregistered => exact absurd rfl hregistered
  | committed _ hpending => exact absurd rfl hpending
  | payoutCancelled => rfl
  | named _ hregistered => exact absurd rfl hregistered
  | accepted _ hpending => exact absurd rfl hpending
  | namingCancelled => rfl

theorem PolicyInv.deployed (hasRole : RoleTable) : PolicyInv (deployed hasRole) where
  fresh := fun _ _ => rfl
  payout := fun _ => iff_of_false (fun h => h rfl) (fun h => h rfl)
  owner := fun _ => iff_of_false (fun h => h rfl) (fun h => h rfl)

theorem step_nextMerchantId (s : Storage) (l : Label) :
    s.nextMerchantId ≤ (step s l).nextMerchantId := by
  cases step_fees s l 0 with
  | frame hnext => exact hnext
  | registered hid hnext => omega
  | scheduled _ _ hnext => exact hnext.ge
  | set _ _ hnext => exact hnext.ge
  | committed _ hnext => exact hnext.ge
  | cancelled hnext => exact hnext.ge

theorem PolicyInv.step (inv : PolicyInv s) (hfees : FeeInv s) (l : Label) :
    PolicyInv (step s l) where
  fresh id hid := by
    have hblank := inv.fresh id (Nat.le_trans (step_nextMerchantId s l) hid)
    rcases step_policy inv l id with ⟨-, hsame⟩ | hstep
    · rw [hsame, hblank]
    · rw [hblank] at hstep
      exact hstep.blank ((hfees.step l).fresh id hid).1
  payout id := by
    rcases step_policy inv l id with ⟨-, hsame⟩ | hstep
    · rw [hsame]
      exact inv.payout id
    · exact hstep.payout_iff (inv.payout id)
  owner id := by
    rcases step_policy inv l id with ⟨-, hsame⟩ | hstep
    · rw [hsame]
      exact inv.owner id
    · exact hstep.owner_iff (inv.owner id)

end Step

/-! ## Runs -/

section Run

variable {hasRole : RoleTable} {ls : List Label} {id n : Nat}

/-- A merchant's policy before the `n`-th call of a run from deployment. -/
def policyAt (hasRole : RoleTable) (ls : List Label) (id n : Nat) : Policy :=
  (stateAt step (deployed hasRole) ls n).policy id

theorem policyInv_stateAt (hasRole : RoleTable) (ls : List Label) (n : Nat) :
    PolicyInv (stateAt step (deployed hasRole) ls n) := by
  refine (exec_invariant (P := fun s => PolicyInv s ∧ FeeInv s)
    ⟨PolicyInv.deployed hasRole, FeeInv.deployed hasRole⟩ ?_).1
  intro s l _ inv
  exact ⟨inv.1.step inv.2 l, inv.2.step l⟩

/-- The `n`-th call goes through and is one of `on`. -/
def Touched (hasRole : RoleTable) (ls : List Label) (on : Action → Bool) (n : Nat) : Prop :=
  ∃ l, ls[n]? = some l ∧ on l.action = true ∧ Succeeds (stateAt step (deployed hasRole) ls n) l

theorem not_touched_of_not {on : Action → Bool} {l : Label} (hl : ls[n]? = some l)
    (hoff : on l.action = false) : ¬ Touched hasRole ls on n := by
  rintro ⟨l', hl', hon, -⟩
  obtain rfl : l = l' := Option.some.inj (hl.symm.trans hl')
  rw [hoff] at hon
  cases hon

theorem not_touched_of_revert {on : Action → Bool} {l : Label} (hl : ls[n]? = some l)
    (hrevert : ¬ Succeeds (stateAt step (deployed hasRole) ls n) l) :
    ¬ Touched hasRole ls on n := by
  rintro ⟨l', hl', -, hok⟩
  obtain rfl : l = l' := Option.some.inj (hl.symm.trans hl')
  exact hrevert hok

/-- The `j`-th call was `start`, made by the account that owned the merchant then and owns
it still before the `n`-th, and no call of `on` has gone through in between. -/
structure Started (hasRole : RoleTable) (ls : List Label) (on : Action → Bool) (start : Action)
    (id n j : Nat) (a : Label) : Prop where
  lt : j < n
  label : ls[j]? = some a
  action : a.action = start
  by_owner : a.msg.sender = (policyAt hasRole ls id j).owner
  still_owner : a.msg.sender = (policyAt hasRole ls id n).owner
  since : ∀ k, j < k → k < n → ¬ Touched hasRole ls on k

/-- A change that a call leaves alone is still the one that was started. -/
theorem Started.succ {on : Action → Bool} {start : Action} {j : Nat} {a : Label}
    (h : Started hasRole ls on start id n j a) (hquiet : ¬ Touched hasRole ls on n)
    (howner : (policyAt hasRole ls id (n + 1)).owner = (policyAt hasRole ls id n).owner) :
    Started hasRole ls on start id (n + 1) j a where
  lt := Nat.lt_succ_of_lt h.lt
  label := h.label
  action := h.action
  by_owner := h.by_owner
  still_owner := h.still_owner.trans howner.symm
  since k hjk hk := by
    rcases Nat.lt_or_eq_of_le (Nat.le_of_lt_succ hk) with hlt | rfl
    · exact h.since k hjk hlt
    · exact hquiet

/-- The call that starts a change, right after it. -/
theorem Started.now {on : Action → Bool} {start : Action} {a : Label} (hl : ls[n]? = some a)
    (haction : a.action = start) (hsender : a.msg.sender = (policyAt hasRole ls id n).owner)
    (howner : (policyAt hasRole ls id (n + 1)).owner = (policyAt hasRole ls id n).owner) :
    Started hasRole ls on start id (n + 1) n a where
  lt := Nat.lt_succ_self n
  label := hl
  action := haction
  by_owner := hsender
  still_owner := hsender.trans howner.symm
  since k hnk hk := absurd hk (by omega)

theorem policyAt_succ (hasRole : RoleTable) (id : Nat) {l : Label} (hl : ls[n]? = some l) :
    (¬ Succeeds (stateAt step (deployed hasRole) ls n) l ∧
        policyAt hasRole ls id (n + 1) = policyAt hasRole ls id n) ∨
      PolicyStep l id (policyAt hasRole ls id n) (policyAt hasRole ls id (n + 1)) := by
  have h := step_policy (policyInv_stateAt hasRole ls n) l id
  rwa [← stateAt_succ step (deployed hasRole) hl] at h

theorem date_toNat {t : Uint64} (h : t.toNat + PAYOUT_CHANGE_DELAY.toNat < 2 ^ 64) :
    (t + PAYOUT_CHANGE_DELAY).toNat = t.toNat + PAYOUT_CHANGE_DELAY.toNat :=
  BitVec.toNat_add_of_lt h

/-- A payout change that waits was proposed by the owner of today, and its date is the
proposal's. -/
theorem exists_proposal (hn : n ≤ ls.length)
    (hpending : (policyAt hasRole ls id n).pendingPayoutAddress ≠ 0) :
    ∃ j a, Started hasRole ls (Action.onPayout id)
        (.setPayoutAddress id (policyAt hasRole ls id n).pendingPayoutAddress) id n j a ∧
      (policyAt hasRole ls id n).payoutChangeCommitAt.toNat =
        a.time + PAYOUT_CHANGE_DELAY.toNat := by
  induction n with
  | zero => exact absurd rfl hpending
  | succ n ih =>
      have hl : ls[n]? = some ls[n] := List.getElem?_eq_getElem hn
      generalize ls[n] = l at hl
      have carry (p' : Policy) (hp' : policyAt hasRole ls id (n + 1) = p')
          (hquiet : ¬ Touched hasRole ls (Action.onPayout id) n)
          (howner : p'.owner = (policyAt hasRole ls id n).owner)
          (hsame : p'.pendingPayoutAddress = (policyAt hasRole ls id n).pendingPayoutAddress)
          (hat : p'.payoutChangeCommitAt = (policyAt hasRole ls id n).payoutChangeCommitAt)
          (hne : p'.pendingPayoutAddress ≠ 0) :
          ∃ j a, Started hasRole ls (Action.onPayout id)
              (.setPayoutAddress id p'.pendingPayoutAddress) id (n + 1) j a ∧
            p'.payoutChangeCommitAt.toNat = a.time + PAYOUT_CHANGE_DELAY.toNat := by
        rw [hsame] at hne ⊢
        obtain ⟨j, a, hstart, hdate⟩ := ih (Nat.le_of_lt hn) hne
        exact ⟨j, a, hstart.succ hquiet (by rw [hp', howner]), by rw [hat, hdate]⟩
      rcases policyAt_succ hasRole id hl with ⟨hrevert, hsame⟩ | hstep
      · rw [hsame] at hpending ⊢
        exact carry _ hsame (not_touched_of_revert hl hrevert) rfl rfl rfl hpending
      · generalize hp' : policyAt hasRole ls id (n + 1) = p' at hstep hpending ⊢
        cases hstep with
        | same hpayout _ => exact carry _ hp' (not_touched_of_not hl hpayout) rfl rfl rfl hpending
        | registered => exact absurd rfl hpending
        | proposed haction _ hsender _ hrange =>
            exact ⟨n, l, .now hl haction hsender (by rw [hp']), date_toNat hrange⟩
        | committed => exact absurd rfl hpending
        | payoutCancelled => exact absurd rfl hpending
        | named haction _ _ _ _ =>
            exact carry _ hp' (not_touched_of_not hl (by rw [haction]; rfl)) rfl rfl rfl hpending
        | accepted => exact absurd rfl hpending
        | namingCancelled hpayout _ =>
            exact carry _ hp' (not_touched_of_not hl hpayout) rfl rfl rfl hpending

/-- A transfer that waits was named by the owner of today. -/
theorem exists_naming (hn : n ≤ ls.length)
    (hpending : (policyAt hasRole ls id n).pendingOwner ≠ 0) :
    ∃ j a, Started hasRole ls (Action.onOwner id)
        (.transferMerchantOwnership id (policyAt hasRole ls id n).pendingOwner) id n j a ∧
      (policyAt hasRole ls id n).ownershipAcceptableAt.toNat =
        a.time + PAYOUT_CHANGE_DELAY.toNat := by
  induction n with
  | zero => exact absurd rfl hpending
  | succ n ih =>
      have hl : ls[n]? = some ls[n] := List.getElem?_eq_getElem hn
      generalize ls[n] = l at hl
      have carry (p' : Policy) (hp' : policyAt hasRole ls id (n + 1) = p')
          (hquiet : ¬ Touched hasRole ls (Action.onOwner id) n)
          (howner : p'.owner = (policyAt hasRole ls id n).owner)
          (hsame : p'.pendingOwner = (policyAt hasRole ls id n).pendingOwner)
          (hat : p'.ownershipAcceptableAt = (policyAt hasRole ls id n).ownershipAcceptableAt)
          (hne : p'.pendingOwner ≠ 0) :
          ∃ j a, Started hasRole ls (Action.onOwner id)
              (.transferMerchantOwnership id p'.pendingOwner) id (n + 1) j a ∧
            p'.ownershipAcceptableAt.toNat = a.time + PAYOUT_CHANGE_DELAY.toNat := by
        rw [hsame] at hne ⊢
        obtain ⟨j, a, hstart, hdate⟩ := ih (Nat.le_of_lt hn) hne
        exact ⟨j, a, hstart.succ hquiet (by rw [hp', howner]), by rw [hat, hdate]⟩
      rcases policyAt_succ hasRole id hl with ⟨hrevert, hsame⟩ | hstep
      · rw [hsame] at hpending ⊢
        exact carry _ hsame (not_touched_of_revert hl hrevert) rfl rfl rfl hpending
      · generalize hp' : policyAt hasRole ls id (n + 1) = p' at hstep hpending ⊢
        cases hstep with
        | same _ howner => exact carry _ hp' (not_touched_of_not hl howner) rfl rfl rfl hpending
        | registered => exact absurd rfl hpending
        | proposed haction _ _ _ _ =>
            exact carry _ hp' (not_touched_of_not hl (by rw [haction]; rfl)) rfl rfl rfl hpending
        | committed haction _ _ =>
            exact carry _ hp' (not_touched_of_not hl (by rw [haction]; rfl)) rfl rfl rfl hpending
        | payoutCancelled _ howner =>
            exact carry _ hp' (not_touched_of_not hl howner) rfl rfl rfl hpending
        | named haction _ hsender _ hrange =>
            exact ⟨n, l, .now hl haction hsender (by rw [hp']), date_toNat hrange⟩
        | accepted => exact absurd rfl hpending
        | namingCancelled => exact absurd rfl hpending

/-- A change of a registered merchant's payout address commits a proposal. -/
theorem payout_change {l : Label} (hl : ls[n]? = some l)
    (howner : (policyAt hasRole ls id n).owner ≠ 0)
    (hchange : (policyAt hasRole ls id (n + 1)).payoutAddress ≠
      (policyAt hasRole ls id n).payoutAddress) :
    l.action = .commitPayoutAddress id ∧
      ∃ j a, Started hasRole ls (Action.onPayout id)
          (.setPayoutAddress id (policyAt hasRole ls id (n + 1)).payoutAddress) id n j a ∧
        a.time + PAYOUT_CHANGE_DELAY.toNat ≤ l.time := by
  rcases policyAt_succ hasRole id hl with ⟨-, hsame⟩ | hstep
  · exact absurd (by rw [hsame]) hchange
  · generalize policyAt hasRole ls id (n + 1) = p' at hstep hchange ⊢
    cases hstep with
    | committed haction hpending hdue =>
        have hn : n < ls.length := (List.getElem?_eq_some_iff.mp hl).1
        obtain ⟨j, a, hstart, hdate⟩ := exists_proposal (Nat.le_of_lt hn) hpending
        refine ⟨haction, j, a, hstart, ?_⟩
        have hle := BitVec.le_def.mp hdue
        rwa [hdate] at hle
    | registered _ _ _ _ hblank => exact absurd (by rw [hblank]; rfl) howner
    | same => exact absurd rfl hchange
    | proposed => exact absurd rfl hchange
    | payoutCancelled => exact absurd rfl hchange
    | named => exact absurd rfl hchange
    | accepted => exact absurd rfl hchange
    | namingCancelled => exact absurd rfl hchange

/-- A change of a registered merchant's owner is the new owner's own call. -/
theorem owner_change {l : Label} (hl : ls[n]? = some l)
    (howner : (policyAt hasRole ls id n).owner ≠ 0)
    (hchange : (policyAt hasRole ls id (n + 1)).owner ≠ (policyAt hasRole ls id n).owner) :
    l.action = .acceptMerchantOwnership id ∧
      l.msg.sender = (policyAt hasRole ls id (n + 1)).owner ∧
      ∃ j a, Started hasRole ls (Action.onOwner id)
          (.transferMerchantOwnership id (policyAt hasRole ls id (n + 1)).owner) id n j a ∧
        a.time + PAYOUT_CHANGE_DELAY.toNat ≤ l.time := by
  rcases policyAt_succ hasRole id hl with ⟨-, hsame⟩ | hstep
  · exact absurd (by rw [hsame]) hchange
  · generalize policyAt hasRole ls id (n + 1) = p' at hstep hchange ⊢
    cases hstep with
    | accepted haction hpending hsender hdue =>
        have hn : n < ls.length := (List.getElem?_eq_some_iff.mp hl).1
        obtain ⟨j, a, hstart, hdate⟩ := exists_naming (Nat.le_of_lt hn) hpending
        refine ⟨haction, hsender, j, a, hstart, ?_⟩
        have hle := BitVec.le_def.mp hdue
        rwa [hdate] at hle
    | registered _ _ _ _ hblank => exact absurd (by rw [hblank]; rfl) howner
    | same => exact absurd rfl hchange
    | proposed => exact absurd rfl hchange
    | committed => exact absurd rfl hchange
    | payoutCancelled => exact absurd rfl hchange
    | named => exact absurd rfl hchange
    | namingCancelled => exact absurd rfl hchange

/-- An accepted transfer leaves nothing that a previous owner started. -/
theorem accepted_clears {l : Label} (hl : ls[n]? = some l)
    (haction : l.action = .acceptMerchantOwnership id)
    (hok : Succeeds (stateAt step (deployed hasRole) ls n) l) :
    (policyAt hasRole ls id (n + 1)).pendingPayoutAddress = 0 ∧
      (policyAt hasRole ls id (n + 1)).pendingOwner = 0 := by
  rcases policyAt_succ hasRole id hl with ⟨hrevert, -⟩ | hstep
  · exact absurd hok hrevert
  · generalize policyAt hasRole ls id (n + 1) = p' at hstep ⊢
    cases hstep with
    | accepted => exact ⟨rfl, rfl⟩
    | registered => exact ⟨rfl, rfl⟩
    | same hpayout _ => simp [haction, Action.onPayout] at hpayout
    | proposed h => rw [haction] at h; cases h
    | committed h => rw [haction] at h; cases h
    | payoutCancelled _ howner => simp [haction, Action.onOwner] at howner
    | named h => rw [haction] at h; cases h
    | namingCancelled hpayout _ => simp [haction, Action.onPayout] at hpayout

end Run

/-- Payout and ownership takeovers over any run from deployment. Nothing is assumed of the
clock: the notice is counted between the two calls' own timestamps. -/
theorem takeover_needs_notice (hasRole : RoleTable) (ls : List Label) (id : Nat) :
    let p := policyAt hasRole ls id
    (∀ n, (p n).pendingPayoutAddress ≠ 0 ↔ (p n).payoutChangeCommitAt ≠ 0) ∧
    (∀ n, (p n).pendingOwner ≠ 0 ↔ (p n).ownershipAcceptableAt ≠ 0) ∧
    (∀ n l, ls[n]? = some l → (p n).owner ≠ 0 → (p (n + 1)).payoutAddress ≠ (p n).payoutAddress →
      l.action = .commitPayoutAddress id ∧
        ∃ j a, Started hasRole ls (Action.onPayout id)
            (.setPayoutAddress id (p (n + 1)).payoutAddress) id n j a ∧
          a.time + PAYOUT_CHANGE_DELAY.toNat ≤ l.time) ∧
    (∀ n l, ls[n]? = some l → (p n).owner ≠ 0 → (p (n + 1)).owner ≠ (p n).owner →
      l.action = .acceptMerchantOwnership id ∧ l.msg.sender = (p (n + 1)).owner ∧
        ∃ j a, Started hasRole ls (Action.onOwner id)
            (.transferMerchantOwnership id (p (n + 1)).owner) id n j a ∧
          a.time + PAYOUT_CHANGE_DELAY.toNat ≤ l.time) ∧
    ∀ n l, ls[n]? = some l → l.action = .acceptMerchantOwnership id →
      Succeeds (stateAt step (deployed hasRole) ls n) l →
      (p (n + 1)).pendingPayoutAddress = 0 ∧ (p (n + 1)).pendingOwner = 0 := by
  intro p
  refine ⟨fun n => (policyInv_stateAt hasRole ls n).payout id,
    fun n => (policyInv_stateAt hasRole ls n).owner id, ?_, ?_, ?_⟩
  · intro n l hl howner hchange
    exact payout_change hl howner hchange
  · intro n l hl howner hchange
    exact owner_change hl howner hchange
  · intro n l hl haction hok
    exact accepted_clears hl haction hok

/-- The owner proposes a payout and names a successor; both take effect a day later. -/
def sampleTakeover : List Label :=
  [⟨⟨1, 5⟩, .registerMerchant 7 8 100 200 0⟩, ⟨⟨7, 10⟩, .setPayoutAddress 1 9⟩,
   ⟨⟨7, 11⟩, .transferMerchantOwnership 1 6⟩, ⟨⟨3, 86410⟩, .commitPayoutAddress 1⟩,
   ⟨⟨6, 86411⟩, .acceptMerchantOwnership 1⟩]

theorem sampleTakeover_noticed :
    (∃ j a, Started sampleRoles sampleTakeover (Action.onPayout 1) (.setPayoutAddress 1 9) 1 3 j a) ∧
      ∃ j a, Started sampleRoles sampleTakeover (Action.onOwner 1)
        (.transferMerchantOwnership 1 6) 1 4 j a := by
  obtain ⟨-, -, hpayout, howner, -⟩ := takeover_needs_notice sampleRoles sampleTakeover 1
  constructor
  · obtain ⟨-, j, a, h, -⟩ :=
      hpayout 3 ⟨⟨3, 86410⟩, .commitPayoutAddress 1⟩ rfl (by decide) (by decide)
    exact ⟨j, a, h⟩
  · obtain ⟨-, -, j, a, h, -⟩ :=
      howner 4 ⟨⟨6, 86411⟩, .acceptMerchantOwnership 1⟩ rfl (by decide) (by decide)
    exact ⟨j, a, h⟩

end Strimz.Registry
