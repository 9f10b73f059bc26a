import Strimz.RegistrySteps

/-!
# A merchant's fee over a run of the registry

`FeeStep` says once what a transaction can do to one merchant's fee, its
ceiling and its pending increase; `FeeInv` and the notice period are read
off it. The fee of a registered merchant rises in two ways only: an admin's
`setFeeBps`, or a `commitFeeBps` of an increase that a fee manager scheduled
`FEE_INCREASE_DELAY` earlier and that stood unchanged ever since.
-/

namespace Strimz.Registry

open Tx Runs

/-! ## One transaction -/

/-- The call is a fee manager's increase to `v`, put off to `commitFeeBps`. -/
structure Schedules (l : Label) (id : Nat) (s : Storage) (v : Uint16) : Prop where
  action : l.action = .setFeeBps id v
  not_admin : s.hasRole .admin l.msg.sender = false
  manager : s.hasRole .feeManager l.msg.sender = true
  registered : (s.merchants id).owner ≠ 0
  rise : (s.merchants id).feeBps < v
  le_max : v ≤ (s.merchants id).maxFeeBps
  in_range : l.msg.timestamp.toNat + FEE_INCREASE_DELAY.toNat < 2 ^ 64

/-- The call sets the fee to `v` at once. -/
structure Sets (l : Label) (id : Nat) (s : Storage) (v : Uint16) : Prop where
  action : l.action = .setFeeBps id v
  now : ¬ Scheduled s l.msg.sender id v
  registered : (s.merchants id).owner ≠ 0
  le_max : v ≤ (s.merchants id).maxFeeBps

/-- The call puts a scheduled increase in force. -/
structure Commits (l : Label) (id : Nat) (s : Storage) : Prop where
  action : l.action = .commitFeeBps id
  registered : (s.merchants id).owner ≠ 0
  scheduled : (s.pendingFees id).effectiveAt ≠ 0
  due : (s.pendingFees id).effectiveAt ≤ l.msg.timestamp

/-- What one transaction does to the fee, the ceiling and the pending increase
of merchant `id`. -/
inductive FeeStep (l : Label) (id : Nat) (s s' : Storage) : Prop where
  | frame (hnext : s.nextMerchantId ≤ s'.nextMerchantId)
      (howner : (s'.merchants id).owner = 0 ↔ (s.merchants id).owner = 0)
      (hfee : (s'.merchants id).feeBps = (s.merchants id).feeBps)
      (hmax : (s'.merchants id).maxFeeBps = (s.merchants id).maxFeeBps)
      (hpending : s'.pendingFees id = s.pendingFees id)
  | registered (hid : id = s.nextMerchantId) (hnext : s'.nextMerchantId = id + 1)
      (hceiling : (s'.merchants id).maxFeeBps ≤ MAX_FEE_BPS)
      (hfee : (s'.merchants id).feeBps ≤ (s'.merchants id).maxFeeBps)
      (hpending : s'.pendingFees id = s.pendingFees id)
  | scheduled (v : Uint16) (h : Schedules l id s v) (hnext : s'.nextMerchantId = s.nextMerchantId)
      (hm : s'.merchants id = s.merchants id)
      (hpending : s'.pendingFees id = ⟨v, l.msg.timestamp + FEE_INCREASE_DELAY⟩)
  | set (v : Uint16) (h : Sets l id s v) (hnext : s'.nextMerchantId = s.nextMerchantId)
      (hm : s'.merchants id = { s.merchants id with feeBps := v })
      (hpending : s'.pendingFees id = noPendingFee)
  | committed (h : Commits l id s) (hnext : s'.nextMerchantId = s.nextMerchantId)
      (hm : s'.merchants id = { s.merchants id with feeBps := (s.pendingFees id).feeBps })
      (hpending : s'.pendingFees id = noPendingFee)
  | cancelled (hnext : s'.nextMerchantId = s.nextMerchantId)
      (hm : s'.merchants id = s.merchants id) (hpending : s'.pendingFees id = noPendingFee)

section Step

variable {l : Label} {id : Nat} {s s' : Storage}

theorem FeeStep.of_same (hnext : s.nextMerchantId ≤ s'.nextMerchantId)
    (hm : s'.merchants id = s.merchants id) (hp : s'.pendingFees id = s.pendingFees id) :
    FeeStep l id s s' :=
  .frame hnext (by rw [hm]) (by rw [hm]) (by rw [hm]) hp

/-- Writing a merchant record with its fee and ceiling unchanged. -/
theorem FeeStep.of_neutral {id' : Nat} {m : Merchant}
    (hnext : s'.nextMerchantId = s.nextMerchantId)
    (h1 : s'.merchants = Function.update s.merchants id' m)
    (h2 : s'.pendingFees = s.pendingFees) (howner : (s.merchants id').owner ≠ 0)
    (hm : m.owner ≠ 0) (hfee : m.feeBps = (s.merchants id').feeBps)
    (hmax : m.maxFeeBps = (s.merchants id').maxFeeBps) : FeeStep l id s s' := by
  by_cases hid : id = id'
  · subst hid
    have hself : s'.merchants id = m := by rw [h1, Function.update_self]
    exact .frame hnext.ge (by rw [hself]; exact iff_of_false hm howner) (by rw [hself, hfee])
      (by rw [hself, hmax]) (congrFun h2 id)
  · exact .of_same hnext.ge (by rw [h1, Function.update_of_ne hid]) (congrFun h2 id)

theorem registerMerchant_fees {owner payout : Address} {feeBps maxFeeBps : Uint16}
    {parent newId : Nat}
    (h : registerMerchant l.msg owner payout feeBps maxFeeBps parent s = .ok (newId, s')) :
    FeeStep l id s s' := by
  obtain ⟨-, -, hceiling, hfee, -, h⟩ := registerMerchant_eq_ok.mp h
  obtain ⟨rfl, rfl⟩ := Prod.mk.inj h
  by_cases hid : id = s.nextMerchantId
  · subst hid
    refine .registered rfl rfl ?_ ?_ rfl
    · simpa using BitVec.not_lt.mp hceiling
    · simpa using BitVec.not_lt.mp hfee
  · exact .of_same (Nat.le_succ _) (by simp [hid]) rfl

theorem setFeeBps_fees {id' : Nat} {v : Uint16} (haction : l.action = .setFeeBps id' v)
    (h : setFeeBps l.msg id' v s = .ok ((), s')) : FeeStep l id s s' := by
  obtain ⟨hroles, -, howner, hmax, ⟨⟨hadmin, hrise⟩, htime, rfl⟩ | ⟨hnow, rfl⟩⟩ :=
    setFeeBps_eq_ok.mp h
  · by_cases hid : id = id'
    · subst hid
      exact .scheduled v ⟨haction, hadmin, by simpa [hadmin] using hroles, howner, hrise,
        BitVec.not_lt.mp hmax, htime⟩ rfl rfl (by simp)
    · exact .of_same (Nat.le_refl _) rfl (by simp [hid])
  · by_cases hid : id = id'
    · subst hid
      exact .set v ⟨haction, hnow, howner, BitVec.not_lt.mp hmax⟩ rfl (by simp) (by simp)
    · exact .of_same (Nat.le_refl _) (by simp [hid]) (by simp [hid])

theorem commitFeeBps_fees {id' : Nat} (haction : l.action = .commitFeeBps id')
    (h : commitFeeBps l.msg id' s = .ok ((), s')) : FeeStep l id s s' := by
  obtain ⟨howner, hscheduled, hdue, rfl⟩ := commitFeeBps_eq_ok.mp h
  by_cases hid : id = id'
  · subst hid
    exact .committed ⟨haction, howner, hscheduled, BitVec.not_lt.mp hdue⟩ rfl (by simp) (by simp)
  · exact .of_same (Nat.le_refl _) (by simp [hid]) (by simp [hid])

theorem cancelFeeIncrease_fees {id' : Nat}
    (h : cancelFeeIncrease l.msg id' s = .ok ((), s')) : FeeStep l id s s' := by
  obtain ⟨-, -, -, rfl⟩ := cancelFeeIncrease_eq_ok.mp h
  by_cases hid : id = id'
  · subst hid
    exact .cancelled rfl rfl (by simp)
  · exact .of_same (Nat.le_refl _) rfl (by simp [hid])

/-- Every transaction is one of the six, for every merchant. -/
theorem step_fees (s : Storage) (l : Label) (id : Nat) : FeeStep l id s (step s l) := by
  refine commit_cases (.of_same (Nat.le_refl _) rfl rfl) fun _ s' h => ?_
  cases haction : l.action with
  | registerMerchant owner payout feeBps maxFeeBps parent =>
      simp only [haction, dispatch, bind_eq_ok, pure_eq_ok, Prod.mk.injEq, existsAndEq,
        true_and, and_true] at h
      obtain ⟨newId, h⟩ := h
      exact registerMerchant_fees h
  | setFeeBps id' v =>
      rw [haction] at h
      exact setFeeBps_fees haction h
  | commitFeeBps id' =>
      rw [haction] at h
      exact commitFeeBps_fees haction h
  | cancelFeeIncrease id' =>
      rw [haction] at h
      exact cancelFeeIncrease_fees h
  | setActive id' active =>
      rw [haction] at h
      obtain ⟨-, howner, rfl⟩ := setActive_eq_ok.mp h
      exact .of_neutral rfl rfl rfl howner howner rfl rfl
  | setPayoutAddress id' newPayout =>
      rw [haction] at h
      obtain ⟨howner, -, -, -, -, rfl⟩ := setPayoutAddress_eq_ok.mp h
      exact .of_neutral rfl rfl rfl howner howner rfl rfl
  | commitPayoutAddress id' =>
      rw [haction] at h
      obtain ⟨howner, -, -, rfl⟩ := commitPayoutAddress_eq_ok.mp h
      exact .of_neutral rfl rfl rfl howner howner rfl rfl
  | cancelPayoutAddressChange id' =>
      rw [haction] at h
      obtain ⟨howner, -, h⟩ := cancelPayoutAddressChange_eq_ok.mp h
      obtain ⟨-, rfl⟩ := cancelPayoutChange_eq_ok.mp h
      exact .of_neutral rfl rfl rfl howner howner rfl rfl
  | adminCancelPayoutChange id' =>
      rw [haction] at h
      obtain ⟨-, howner, h⟩ := adminCancelPayoutChange_eq_ok.mp h
      obtain ⟨-, rfl⟩ := cancelPayoutChange_eq_ok.mp h
      exact .of_neutral rfl rfl rfl howner howner rfl rfl
  | transferMerchantOwnership id' newOwner =>
      rw [haction] at h
      obtain ⟨howner, -, -, -, -, rfl⟩ := transferMerchantOwnership_eq_ok.mp h
      exact .of_neutral rfl rfl rfl howner howner rfl rfl
  | acceptMerchantOwnership id' =>
      rw [haction] at h
      obtain ⟨howner, hpending, -, -, ⟨-, rfl⟩ | ⟨-, rfl⟩⟩ := acceptMerchantOwnership_eq_ok.mp h
      · exact .of_neutral rfl rfl rfl howner hpending rfl rfl
      · exact .of_neutral rfl rfl rfl howner hpending rfl rfl
  | cancelOwnershipTransfer id' =>
      rw [haction] at h
      obtain ⟨howner, -, h⟩ := cancelOwnershipTransfer_eq_ok.mp h
      obtain ⟨-, rfl⟩ := cancelPendingOwner_eq_ok.mp h
      exact .of_neutral rfl rfl rfl howner howner rfl rfl
  | adminCancelOwnershipTransfer id' =>
      rw [haction] at h
      obtain ⟨-, howner, h⟩ := adminCancelOwnershipTransfer_eq_ok.mp h
      obtain ⟨-, rfl⟩ := cancelPendingOwner_eq_ok.mp h
      exact .of_neutral rfl rfl rfl howner howner rfl rfl
  | setRoles hasRole =>
      rw [haction] at h
      obtain ⟨-, rfl⟩ := Prod.mk.inj (modify_eq_ok.mp h)
      exact .of_same (Nat.le_refl _) rfl rfl

end Step

/-! ## Reachable states -/

/-- Ids not handed out hold nothing, a fee is within its ceiling and the
ceiling within the protocol's, and a pending increase is one. -/
structure FeeInv (s : Storage) : Prop where
  fresh : ∀ id, s.nextMerchantId ≤ id →
    (s.merchants id).owner = 0 ∧ s.pendingFees id = noPendingFee
  fee_le : ∀ id, (s.merchants id).feeBps ≤ (s.merchants id).maxFeeBps
  max_le : ∀ id, (s.merchants id).maxFeeBps ≤ MAX_FEE_BPS
  pending : ∀ id, (s.pendingFees id).effectiveAt ≠ 0 →
    (s.merchants id).feeBps < (s.pendingFees id).feeBps ∧
      (s.pendingFees id).feeBps ≤ (s.merchants id).maxFeeBps

theorem FeeInv.deployed (hasRole : RoleTable) : FeeInv (deployed hasRole) where
  fresh := fun _ _ => ⟨rfl, rfl⟩
  fee_le := fun _ => BitVec.le_refl _
  max_le := fun _ => BitVec.le_def.mpr (Nat.zero_le _)
  pending := fun _ h => absurd rfl h

theorem FeeInv.step {s : Storage} (inv : FeeInv s) (l : Label) : FeeInv (step s l) where
  fresh id hid := by
    cases step_fees s l id with
    | frame hnext howner _ _ hpending =>
        obtain ⟨ho, hp⟩ := inv.fresh id (Nat.le_trans hnext hid)
        exact ⟨howner.mpr ho, hpending.trans hp⟩
    | registered _ hnext _ _ _ => omega
    | scheduled v h hnext _ _ => exact absurd (inv.fresh id (hnext ▸ hid)).1 h.registered
    | set v h hnext _ _ => exact absurd (inv.fresh id (hnext ▸ hid)).1 h.registered
    | committed h hnext _ _ => exact absurd (inv.fresh id (hnext ▸ hid)).1 h.registered
    | cancelled hnext hm hpending =>
        exact ⟨by rw [hm]; exact (inv.fresh id (hnext ▸ hid)).1, hpending⟩
  fee_le id := by
    cases step_fees s l id with
    | frame _ _ hfee hmax _ => rw [hfee, hmax]; exact inv.fee_le id
    | registered _ _ _ hfee _ => exact hfee
    | scheduled v _ _ hm _ => rw [hm]; exact inv.fee_le id
    | set v h _ hm _ => rw [hm]; exact h.le_max
    | committed h _ hm _ => rw [hm]; exact (inv.pending id h.scheduled).2
    | cancelled _ hm _ => rw [hm]; exact inv.fee_le id
  max_le id := by
    cases step_fees s l id with
    | frame _ _ _ hmax _ => rw [hmax]; exact inv.max_le id
    | registered _ _ hceiling _ _ => exact hceiling
    | scheduled v _ _ hm _ => rw [hm]; exact inv.max_le id
    | set v _ _ hm _ => rw [hm]; exact inv.max_le id
    | committed _ _ hm _ => rw [hm]; exact inv.max_le id
    | cancelled _ hm _ => rw [hm]; exact inv.max_le id
  pending id hne := by
    cases step_fees s l id with
    | frame _ _ hfee hmax hpending =>
        rw [hpending] at hne
        rw [hfee, hmax, hpending]
        exact inv.pending id hne
    | registered hid _ _ _ hpending =>
        rw [hpending, (inv.fresh id hid.ge).2] at hne
        exact absurd rfl hne
    | scheduled v h _ hm hpending =>
        rw [hm, hpending]
        exact ⟨h.rise, h.le_max⟩
    | set v _ _ _ hpending => rw [hpending] at hne; exact absurd rfl hne
    | committed _ _ _ hpending => rw [hpending] at hne; exact absurd rfl hne
    | cancelled _ _ hpending => rw [hpending] at hne; exact absurd rfl hne

theorem feeInv_stateAt (hasRole : RoleTable) (ls : List Label) (n : Nat) :
    FeeInv (stateAt Registry.step (Registry.deployed hasRole) ls n) :=
  exec_invariant (FeeInv.deployed hasRole) fun _ l _ inv => inv.step l

/-- A registered merchant keeps its ceiling, and stays registered. -/
theorem step_maxFeeBps {s : Storage} (inv : FeeInv s) (l : Label) {id : Nat}
    (h : (s.merchants id).owner ≠ 0) :
    ((step s l).merchants id).owner ≠ 0 ∧
      ((step s l).merchants id).maxFeeBps = (s.merchants id).maxFeeBps := by
  cases step_fees s l id with
  | frame _ howner _ hmax _ => exact ⟨fun h' => h (howner.mp h'), hmax⟩
  | registered hid _ _ _ _ => exact absurd (inv.fresh id hid.ge).1 h
  | scheduled v _ _ hm _ => rw [hm]; exact ⟨h, rfl⟩
  | set v _ _ hm _ => rw [hm]; exact ⟨h, rfl⟩
  | committed _ _ hm _ => rw [hm]; exact ⟨h, rfl⟩
  | cancelled _ hm _ => rw [hm]; exact ⟨h, rfl⟩

theorem stateAt_maxFeeBps (hasRole : RoleTable) (ls : List Label) {m n id : Nat} (hmn : m ≤ n)
    (h : ((stateAt step (deployed hasRole) ls m).merchants id).owner ≠ 0) :
    ((stateAt step (deployed hasRole) ls n).merchants id).maxFeeBps =
      ((stateAt step (deployed hasRole) ls m).merchants id).maxFeeBps := by
  have hrun := stateAt_invariant (P := fun s => FeeInv s ∧ (s.merchants id).owner ≠ 0 ∧
    (s.merchants id).maxFeeBps = ((stateAt step (deployed hasRole) ls m).merchants id).maxFeeBps)
    hmn ⟨feeInv_stateAt hasRole ls m, h, rfl⟩ fun s l _ ⟨inv, howner, hmax⟩ => by
      obtain ⟨howner', hmax'⟩ := step_maxFeeBps inv l howner
      exact ⟨inv.step l, howner', hmax'.trans hmax⟩
  exact hrun.2.2

/-! ## Notice -/

/-- The `n`-th call of the run put `v` in force for merchant `id` after notice: a
fee manager scheduled exactly `v` at call `j`, at least the delay earlier, and the
pending change was that one at every moment in between. -/
def Noticed (hasRole : RoleTable) (ls : List Label) (n id : Nat) (v : Uint16) : Prop :=
  ∃ j a b, j < n ∧ ls[j]? = some a ∧ ls[n]? = some b ∧ b.action = .commitFeeBps id ∧
    a.action = .setFeeBps id v ∧
    (stateAt step (deployed hasRole) ls j).hasRole .feeManager a.msg.sender = true ∧
    a.time + FEE_INCREASE_DELAY.toNat ≤ b.time ∧
    ∀ k, j < k → k ≤ n →
      (stateAt step (deployed hasRole) ls k).pendingFees id =
        ⟨v, a.msg.timestamp + FEE_INCREASE_DELAY⟩

/-- A pending increase in a reachable state was scheduled by a call of the run and
has stood since. -/
theorem exists_scheduling {hasRole : RoleTable} {ls : List Label} {n id : Nat}
    (hn : n < ls.length)
    (h : ((stateAt step (deployed hasRole) ls n).pendingFees id).effectiveAt ≠ 0) :
    ∃ j a v, j < n ∧ ls[j]? = some a ∧ Schedules a id (stateAt step (deployed hasRole) ls j) v ∧
      ∀ k, j < k → k ≤ n →
        (stateAt step (deployed hasRole) ls k).pendingFees id =
          ⟨v, a.msg.timestamp + FEE_INCREASE_DELAY⟩ := by
  have h0 : ¬ (stateAt step (deployed hasRole) ls 0).pendingFees id =
      (stateAt step (deployed hasRole) ls n).pendingFees id := by
    intro h0
    rw [← h0] at h
    exact h rfl
  obtain ⟨j, hjn, hj, hsince⟩ := exists_rise (P := fun k =>
    (stateAt step (deployed hasRole) ls k).pendingFees id =
      (stateAt step (deployed hasRole) ls n).pendingFees id) h0 rfl
  have hl := List.getElem?_eq_getElem (Nat.lt_trans hjn hn)
  have hnext := hsince (j + 1) (Nat.lt_succ_self j) hjn
  rw [stateAt_succ _ _ hl] at hnext
  -- only a scheduling writes a pending change other than `noPendingFee`
  cases step_fees (stateAt step (deployed hasRole) ls j) ls[j] id with
  | frame _ _ _ _ hpending => exact absurd (hpending.symm.trans hnext) hj
  | registered _ _ _ _ hpending => exact absurd (hpending.symm.trans hnext) hj
  | scheduled v hv _ _ hpending =>
      refine ⟨j, _, v, hjn, hl, hv, fun k hjk hk => ?_⟩
      rw [hsince k hjk hk, ← hnext, hpending]
  | set v _ _ _ hpending => rw [← hnext, hpending] at h; exact absurd rfl h
  | committed _ _ _ hpending => rw [← hnext, hpending] at h; exact absurd rfl h
  | cancelled _ _ hpending => rw [← hnext, hpending] at h; exact absurd rfl h

/-- A rise of a registered merchant's fee is an admin's, or comes after notice. -/
theorem fee_rise {hasRole : RoleTable} {ls : List Label} {n id : Nat} {l : Label}
    (hl : ls[n]? = some l)
    (howner : ((stateAt step (deployed hasRole) ls n).merchants id).owner ≠ 0)
    (hrise : ((stateAt step (deployed hasRole) ls n).merchants id).feeBps <
      ((stateAt step (deployed hasRole) ls (n + 1)).merchants id).feeBps) :
    (l.action = .setFeeBps id ((stateAt step (deployed hasRole) ls (n + 1)).merchants id).feeBps ∧
        (stateAt step (deployed hasRole) ls n).hasRole .admin l.msg.sender = true) ∨
      Noticed hasRole ls n id ((stateAt step (deployed hasRole) ls (n + 1)).merchants id).feeBps := by
  have inv := feeInv_stateAt hasRole ls n
  rw [stateAt_succ _ _ hl] at hrise ⊢
  cases step_fees (stateAt step (deployed hasRole) ls n) l id with
  | frame _ _ hfee _ _ => rw [hfee] at hrise; exact absurd hrise (BitVec.lt_irrefl _)
  | registered hid _ _ _ _ => exact absurd (inv.fresh id hid.ge).1 howner
  | scheduled v _ _ hm _ => rw [hm] at hrise; exact absurd hrise (BitVec.lt_irrefl _)
  | cancelled _ hm _ => rw [hm] at hrise; exact absurd hrise (BitVec.lt_irrefl _)
  | set v h _ hm _ =>
      rw [hm] at hrise ⊢
      have hadmin := fun hno => h.now ⟨hno, hrise⟩
      exact Or.inl ⟨h.action, Bool.not_eq_false _ ▸ hadmin⟩
  | committed h _ hm _ =>
      have hn : n < ls.length := (List.getElem?_eq_some_iff.mp hl).1
      obtain ⟨j, a, v, hjn, ha, hv, hsince⟩ := exists_scheduling hn h.scheduled
      have hpending := hsince n hjn (Nat.le_refl n)
      have hdue := h.due
      rw [hpending] at hdue
      rw [hm, hpending]
      refine Or.inr ⟨j, a, l, hjn, ha, hl, h.action, hv.action, hv.manager, ?_, hsince⟩
      have hnat := BitVec.le_def.mp hdue
      rwa [BitVec.toNat_add_of_lt hv.in_range] at hnat

/-- A merchant's fee over any run from deployment. The ceiling is fixed at
registration; the fee stays within it and a pending increase is above the fee
and within the ceiling; and a fee rises by an admin's `setFeeBps` or after
`FEE_INCREASE_DELAY` of notice. Nothing is assumed of the clock. -/
theorem fee_rises_only_with_notice (hasRole : RoleTable) (ls : List Label) (id : Nat) :
    let s := stateAt step (deployed hasRole) ls
    (∀ m n, m ≤ n → ((s m).merchants id).owner ≠ 0 →
      ((s n).merchants id).maxFeeBps = ((s m).merchants id).maxFeeBps) ∧
    (∀ n, ((s n).merchants id).feeBps ≤ ((s n).merchants id).maxFeeBps ∧
      ((s n).merchants id).maxFeeBps ≤ MAX_FEE_BPS) ∧
    (∀ n, ((s n).pendingFees id).effectiveAt ≠ 0 →
      ((s n).merchants id).feeBps < ((s n).pendingFees id).feeBps ∧
        ((s n).pendingFees id).feeBps ≤ ((s n).merchants id).maxFeeBps) ∧
    ∀ n l, ls[n]? = some l → ((s n).merchants id).owner ≠ 0 →
      ((s n).merchants id).feeBps < ((s (n + 1)).merchants id).feeBps →
      (l.action = .setFeeBps id ((s (n + 1)).merchants id).feeBps ∧
          (s n).hasRole .admin l.msg.sender = true) ∨
        Noticed hasRole ls n id ((s (n + 1)).merchants id).feeBps := by
  intro s
  refine ⟨fun m n hmn h => stateAt_maxFeeBps hasRole ls hmn h, fun n => ?_, fun n h => ?_,
    fun n l hl howner hrise => fee_rise hl howner hrise⟩
  · have inv := feeInv_stateAt hasRole ls n
    exact ⟨inv.fee_le id, inv.max_le id⟩
  · exact (feeInv_stateAt hasRole ls n).pending id h

def sampleRoles : RoleTable := fun role account =>
  role = .merchantRegistrar ∧ account = 1 ∨ role = .feeManager ∧ account = 2

/-- Merchant 1 registers at 1%, a fee manager schedules 1.5%, a stranger commits it. -/
def sampleIncrease : List Label :=
  [⟨⟨1, 5⟩, .registerMerchant 7 8 100 200 0⟩, ⟨⟨2, 10⟩, .setFeeBps 1 150⟩,
   ⟨⟨3, 86410⟩, .commitFeeBps 1⟩]

theorem sampleIncrease_noticed : Noticed sampleRoles sampleIncrease 2 1 150 := by
  have h := (fee_rises_only_with_notice sampleRoles sampleIncrease 1).2.2.2 2
    ⟨⟨3, 86410⟩, .commitFeeBps 1⟩ rfl (by decide) (by decide)
  rcases h with ⟨_, hadmin⟩ | h
  · exact absurd hadmin (by decide)
  · exact h

end Strimz.Registry
