import Strimz.Registry

/-!
# What a registry call does

One inversion lemma per entry point: a call succeeded iff its guards held,
and then the storage is exactly the given one. Everything proved about runs
of the registry goes through these; no other proof unfolds an entry point.
-/

namespace Strimz.Registry

open Tx

variable {msg : Msg} {id : Nat} {s s' : Storage}

theorem load_eq_ok {r : Merchant × Storage} :
    load id s = .ok r ↔ (s.merchants id).owner ≠ 0 ∧ r = (s.merchants id, s) := by
  simp only [load, bind_eq_ok, get_eq_ok, revertIf_eq_ok, pure_eq_ok, Prod.mk.injEq, existsAndEq,
    exists_const, and_true, true_and, ne_eq]

theorem requireActiveMerchant_eq_ok {r : Merchant × Storage} :
    requireActiveMerchant id s = .ok r ↔
      (s.merchants id).owner ≠ 0 ∧ (s.merchants id).active = true ∧ r = (s.merchants id, s) := by
  simp only [requireActiveMerchant, bind_eq_ok, load_eq_ok, revertIf_eq_ok, pure_eq_ok,
    Prod.mk.injEq, existsAndEq, exists_const, and_true, true_and, Bool.not_eq_false]

theorem registerMerchant_eq_ok {owner payout : Address} {feeBps maxFeeBps : Uint16}
    {parent : Nat} {r : Nat × Storage} :
    registerMerchant msg owner payout feeBps maxFeeBps parent s = .ok r ↔
      s.hasRole .merchantRegistrar msg.sender = true ∧ ¬ (owner = 0 ∨ payout = 0) ∧
      ¬ MAX_FEE_BPS < maxFeeBps ∧ ¬ maxFeeBps < feeBps ∧
      ¬ (parent ≠ 0 ∧ (s.merchants parent).owner = 0) ∧
      r = (s.nextMerchantId,
        ({ s with nextMerchantId := s.nextMerchantId + 1 }.putMerchant s.nextMerchantId
          ⟨owner, feeBps, true, payout, parent, 0, 0, 0, maxFeeBps⟩).log
            (.merchantRegistered s.nextMerchantId owner payout feeBps maxFeeBps parent)) := by
  simp only [registerMerchant, bind_eq_ok, get_eq_ok, onlyRole_eq_ok, revertIf_eq_ok, pure_eq_ok,
    modify_eq_ok, setMerchant, emit, Prod.mk.injEq, existsAndEq, exists_const, and_true, true_and]

/-- Whether a `setFeeBps` by this caller waits for `commitFeeBps`. -/
def Scheduled (s : Storage) (sender : Address) (id : Nat) (newFeeBps : Uint16) : Prop :=
  s.hasRole .admin sender = false ∧ (s.merchants id).feeBps < newFeeBps

theorem setFeeBps_eq_ok {newFeeBps : Uint16} :
    setFeeBps msg id newFeeBps s = .ok ((), s') ↔
      ¬ (s.hasRole .admin msg.sender = false ∧ s.hasRole .feeManager msg.sender = false) ∧
      ¬ MAX_FEE_BPS < newFeeBps ∧ (s.merchants id).owner ≠ 0 ∧
      ¬ (s.merchants id).maxFeeBps < newFeeBps ∧
      (Scheduled s msg.sender id newFeeBps ∧
          msg.timestamp.toNat + FEE_INCREASE_DELAY.toNat < 2 ^ 64 ∧
          s' = (s.putPendingFee id ⟨newFeeBps, msg.timestamp + FEE_INCREASE_DELAY⟩).log
            (.merchantFeeIncreaseScheduled id newFeeBps (msg.timestamp + FEE_INCREASE_DELAY)) ∨
        ¬ Scheduled s msg.sender id newFeeBps ∧
          s' = ((s.putPendingFee id noPendingFee).putMerchant id
            { s.merchants id with feeBps := newFeeBps }).log
              (.merchantFeeBpsUpdated id newFeeBps)) := by
  simp only [setFeeBps, Scheduled, bind_eq_ok, get_eq_ok, load_eq_ok, revertIf_eq_ok,
    checkedAdd_eq_ok, ite_eq_ok, modify_eq_ok, setMerchant, setPendingFee, emit, Prod.mk.injEq,
    existsAndEq, exists_const, and_true, true_and]

theorem commitFeeBps_eq_ok :
    commitFeeBps msg id s = .ok ((), s') ↔
      (s.merchants id).owner ≠ 0 ∧ ¬ (s.pendingFees id).effectiveAt = 0 ∧
      ¬ msg.timestamp < (s.pendingFees id).effectiveAt ∧
      s' = ((s.putPendingFee id noPendingFee).putMerchant id
        { s.merchants id with feeBps := (s.pendingFees id).feeBps }).log
          (.merchantFeeBpsUpdated id (s.pendingFees id).feeBps) := by
  simp only [commitFeeBps, bind_eq_ok, get_eq_ok, load_eq_ok, revertIf_eq_ok, modify_eq_ok,
    setMerchant, setPendingFee, emit, Prod.mk.injEq, existsAndEq, exists_const, and_true, true_and]

theorem cancelFeeIncrease_eq_ok :
    cancelFeeIncrease msg id s = .ok ((), s') ↔
      s.hasRole .admin msg.sender = true ∧ (s.merchants id).owner ≠ 0 ∧
      ¬ (s.pendingFees id).effectiveAt = 0 ∧
      s' = (s.putPendingFee id noPendingFee).log (.merchantFeeIncreaseCancelled id) := by
  simp only [cancelFeeIncrease, bind_eq_ok, get_eq_ok, onlyRole_eq_ok, load_eq_ok, revertIf_eq_ok,
    modify_eq_ok, setPendingFee, emit, Prod.mk.injEq, existsAndEq, exists_const, and_true,
    true_and]

theorem setActive_eq_ok {active : Bool} :
    setActive msg id active s = .ok ((), s') ↔
      s.hasRole .admin msg.sender = true ∧ (s.merchants id).owner ≠ 0 ∧
      s' = (s.putMerchant id { s.merchants id with active := active }).log
        (.merchantActiveSet id active) := by
  simp only [setActive, bind_eq_ok, get_eq_ok, onlyRole_eq_ok, load_eq_ok, modify_eq_ok,
    setMerchant, emit, Prod.mk.injEq, existsAndEq, exists_const, and_true, true_and]

theorem setPayoutAddress_eq_ok {newPayout : Address} :
    setPayoutAddress msg id newPayout s = .ok ((), s') ↔
      (s.merchants id).owner ≠ 0 ∧ msg.sender = (s.merchants id).owner ∧ ¬ newPayout = 0 ∧
      ¬ newPayout = (s.merchants id).payoutAddress ∧
      msg.timestamp.toNat + PAYOUT_CHANGE_DELAY.toNat < 2 ^ 64 ∧
      s' = (s.putMerchant id
        { s.merchants id with pendingPayoutAddress := newPayout,
                              payoutChangeCommitAt := msg.timestamp + PAYOUT_CHANGE_DELAY }).log
          (.merchantPayoutChangeInitiated id newPayout (msg.timestamp + PAYOUT_CHANGE_DELAY)) := by
  simp only [setPayoutAddress, bind_eq_ok, load_eq_ok, revertIf_eq_ok, checkedAdd_eq_ok,
    modify_eq_ok, setMerchant, emit, Prod.mk.injEq, existsAndEq, exists_const, and_true, true_and,
    not_not, ne_eq]

theorem commitPayoutAddress_eq_ok :
    commitPayoutAddress msg id s = .ok ((), s') ↔
      (s.merchants id).owner ≠ 0 ∧ ¬ (s.merchants id).pendingPayoutAddress = 0 ∧
      ¬ msg.timestamp < (s.merchants id).payoutChangeCommitAt ∧
      s' = (s.putMerchant id
        { s.merchants id with payoutAddress := (s.merchants id).pendingPayoutAddress,
                              pendingPayoutAddress := 0, payoutChangeCommitAt := 0 }).log
          (.merchantPayoutAddressUpdated id (s.merchants id).pendingPayoutAddress) := by
  simp only [commitPayoutAddress, bind_eq_ok, load_eq_ok, revertIf_eq_ok, modify_eq_ok,
    setMerchant, emit, Prod.mk.injEq, existsAndEq, exists_const, and_true, true_and]

theorem cancelPayoutChange_eq_ok {m : Merchant} :
    cancelPayoutChange id m s = .ok ((), s') ↔
      ¬ m.pendingPayoutAddress = 0 ∧
      s' = (s.putMerchant id { m with pendingPayoutAddress := 0, payoutChangeCommitAt := 0 }).log
        (.merchantPayoutChangeCancelled id) := by
  simp only [cancelPayoutChange, bind_eq_ok, revertIf_eq_ok, modify_eq_ok, setMerchant, emit,
    Prod.mk.injEq, existsAndEq, exists_const, and_true, true_and]

theorem cancelPayoutAddressChange_eq_ok :
    cancelPayoutAddressChange msg id s = .ok ((), s') ↔
      (s.merchants id).owner ≠ 0 ∧ msg.sender = (s.merchants id).owner ∧
      cancelPayoutChange id (s.merchants id) s = .ok ((), s') := by
  simp only [cancelPayoutAddressChange, bind_eq_ok, load_eq_ok, revertIf_eq_ok, Prod.mk.injEq,
    existsAndEq, exists_const, and_true, true_and, not_not, ne_eq]

theorem adminCancelPayoutChange_eq_ok :
    adminCancelPayoutChange msg id s = .ok ((), s') ↔
      s.hasRole .admin msg.sender = true ∧ (s.merchants id).owner ≠ 0 ∧
      cancelPayoutChange id (s.merchants id) s = .ok ((), s') := by
  simp only [adminCancelPayoutChange, bind_eq_ok, get_eq_ok, onlyRole_eq_ok, load_eq_ok,
    Prod.mk.injEq, existsAndEq, exists_const, and_true, true_and]

theorem transferMerchantOwnership_eq_ok {newOwner : Address} :
    transferMerchantOwnership msg id newOwner s = .ok ((), s') ↔
      (s.merchants id).owner ≠ 0 ∧ msg.sender = (s.merchants id).owner ∧ ¬ newOwner = 0 ∧
      ¬ newOwner = (s.merchants id).owner ∧
      msg.timestamp.toNat + PAYOUT_CHANGE_DELAY.toNat < 2 ^ 64 ∧
      s' = ((s.putMerchant id { s.merchants id with pendingOwner := newOwner }).putAcceptableAt id
        (msg.timestamp + PAYOUT_CHANGE_DELAY)).log
          (.merchantOwnershipTransferInitiated id (s.merchants id).owner newOwner) := by
  simp only [transferMerchantOwnership, bind_eq_ok, load_eq_ok, revertIf_eq_ok, checkedAdd_eq_ok,
    modify_eq_ok, setMerchant, setOwnershipAcceptableAt, emit, Prod.mk.injEq, existsAndEq,
    exists_const, and_true, true_and, not_not, ne_eq]

theorem acceptMerchantOwnership_eq_ok :
    acceptMerchantOwnership msg id s = .ok ((), s') ↔
      (s.merchants id).owner ≠ 0 ∧ (s.merchants id).pendingOwner ≠ 0 ∧
      msg.sender = (s.merchants id).pendingOwner ∧
      ¬ (s.ownershipAcceptableAt id = 0 ∨ msg.timestamp < s.ownershipAcceptableAt id) ∧
      ((s.merchants id).pendingPayoutAddress ≠ 0 ∧
          s' = (((s.putAcceptableAt id 0).putMerchant id
            { s.merchants id with owner := (s.merchants id).pendingOwner, pendingOwner := 0,
                                  pendingPayoutAddress := 0, payoutChangeCommitAt := 0 }).log
              (.merchantPayoutChangeCancelled id)).log
              (.merchantOwnershipTransferAccepted id (s.merchants id).owner
                (s.merchants id).pendingOwner) ∨
        (s.merchants id).pendingPayoutAddress = 0 ∧
          s' = ((s.putAcceptableAt id 0).putMerchant id
            { s.merchants id with owner := (s.merchants id).pendingOwner, pendingOwner := 0 }).log
              (.merchantOwnershipTransferAccepted id (s.merchants id).owner
                (s.merchants id).pendingOwner)) := by
  simp only [acceptMerchantOwnership, bind_eq_ok, get_eq_ok, load_eq_ok, revertIf_eq_ok,
    ite_eq_ok, modify_eq_ok, setMerchant, setOwnershipAcceptableAt, emit, Prod.mk.injEq,
    existsAndEq, exists_const, and_true, true_and, not_not, ne_eq]

theorem cancelPendingOwner_eq_ok {m : Merchant} :
    cancelPendingOwner id m s = .ok ((), s') ↔
      ¬ m.pendingOwner = 0 ∧
      s' = ((s.putMerchant id { m with pendingOwner := 0 }).putAcceptableAt id 0).log
        (.merchantOwnershipTransferCancelled id) := by
  simp only [cancelPendingOwner, bind_eq_ok, revertIf_eq_ok, modify_eq_ok, setMerchant,
    setOwnershipAcceptableAt, emit, Prod.mk.injEq, existsAndEq, exists_const, and_true, true_and]

theorem cancelOwnershipTransfer_eq_ok :
    cancelOwnershipTransfer msg id s = .ok ((), s') ↔
      (s.merchants id).owner ≠ 0 ∧ msg.sender = (s.merchants id).owner ∧
      cancelPendingOwner id (s.merchants id) s = .ok ((), s') := by
  simp only [cancelOwnershipTransfer, bind_eq_ok, load_eq_ok, revertIf_eq_ok, Prod.mk.injEq,
    existsAndEq, exists_const, and_true, true_and, not_not, ne_eq]

theorem adminCancelOwnershipTransfer_eq_ok :
    adminCancelOwnershipTransfer msg id s = .ok ((), s') ↔
      s.hasRole .admin msg.sender = true ∧ (s.merchants id).owner ≠ 0 ∧
      cancelPendingOwner id (s.merchants id) s = .ok ((), s') := by
  simp only [adminCancelOwnershipTransfer, bind_eq_ok, get_eq_ok, onlyRole_eq_ok, load_eq_ok,
    Prod.mk.injEq, existsAndEq, exists_const, and_true, true_and]

end Strimz.Registry
