import Strimz.Payments
import Strimz.TokenLaws

/-!
# What a payments call does

Spec lemmas for the two payment paths, down to the token calls they make.
-/

namespace Strimz.Payments

open Tx

variable {ξ δ : Type} {O : Outside ξ δ} {this : Address} {msg : Msg} {c c' : Ctx Storage ξ}

/-- Taking the lock and giving it back leaves only the entry. -/
theorem Storage.setEntered_log {s : Storage} (h : s.entered = false) (e : Event) :
    ((s.setEntered true).log e).setEntered false = s.log e := by
  cases s
  simp_all [Storage.setEntered, Storage.log]

/-- A settlement by `transferFrom`, as `pay` makes it: the merchant is active, the
fee is its fee of the moment, and the payer pays both legs. -/
structure Pays (O : Outside ξ δ) (this : Address) (msg : Msg) (merchantId : Nat)
    (token : Address) (amount : Uint256) (ref : Bytes32) (m : Merchant)
    (c c' : Ctx Storage ξ) : Prop where
  unpaused : c.storage.paused = false
  unlocked : c.storage.entered = false
  positive : amount ≠ 0
  allowed : O.isWhitelisted c.storage.tokenWhitelist token c.ext = .ok true
  merchant : O.requireActiveMerchant c.storage.registry merchantId c.ext = .ok m
  fee_le : (feeOf amount m.feeBps).toNat ≤ amount.toNat
  settles : ∃ x, Settles O ⟨this, msg.timestamp⟩ msg.sender token c.storage.feeCollector merchantId
      (feeOf amount m.feeBps) m.payoutAddress (amount - feeOf amount m.feeBps) c.ext x ∧
    c' = ⟨c.storage.log (.paymentExecuted merchantId msg.sender token amount
      (feeOf amount m.feeBps) (amount - feeOf amount m.feeBps) ref), x⟩

theorem pay_ok {merchantId : Nat} {token : Address} {amount : Uint256} {ref : Bytes32}
    (h : pay O this msg merchantId token amount ref c = .ok ((), c')) :
    ∃ m, Pays O this msg merchantId token amount ref m c c' := by
  simp only [pay, nonReentrant, emit, bind_eq_ok, sload_eq_ok, whenNotPaused_eq_ok, guarded_eq_ok,
    revertIf_eq_ok, staticcall_eq_ok, checkedSub_eq_ok, sstore_eq_ok, Prod.mk.injEq, existsAndEq,
    exists_const, true_and, and_true, Bool.not_eq_false] at h
  obtain ⟨hpaused, hentered, m, ⟨⟩, c₁, ⟨⟩, c₂, ⟨hamount, hallowed, hm, hfee, hfeeLeg, hnetLeg⟩,
    rfl⟩ := h
  obtain ⟨x, hsettles, rfl⟩ := settles_of_legs hfeeLeg hnetLeg
  refine ⟨m, hpaused, hentered, hamount, hallowed, hm, hfee, x, hsettles, ?_⟩
  rw [← Storage.setEntered_log hentered]

/-- A settlement by authorisation, as `payWithAuthorization` makes it: the token
takes the gross to this contract, which then pays the fee leg and the merchant's. -/
structure PaysAuthorized (O : Outside ξ δ) (this : Address) (msg : Msg) (merchantId : Nat)
    (token : Address) (auth : PayAuthorization) (ref : Bytes32) (intentSig : Bytes) (m : Merchant)
    (c c' : Ctx Storage ξ) : Prop where
  unpaused : c.storage.paused = false
  unlocked : c.storage.entered = false
  positive : auth.amount ≠ 0
  allowed : O.isWhitelisted c.storage.tokenWhitelist token c.ext = .ok true
  intent : PayerSignature.isValid O.toSignatures auth.from_
    (O.payIntentDigest (payIntent merchantId token auth ref)) intentSig c.ext = true
  merchant : O.requireActiveMerchant c.storage.registry merchantId c.ext = .ok m
  fee_le : (feeOf auth.amount m.feeBps).toNat ≤ auth.amount.toNat
  settles : ∃ x₁ x₃ x, Receives O.toToken ⟨this, msg.timestamp⟩ token (toReceive this auth)
      c.ext x₁ ∧
    (0 < feeOf auth.amount m.feeBps ∧ (∃ x₂,
        O.safeTransfer ⟨this, msg.timestamp⟩ token c.storage.feeCollector
          (feeOf auth.amount m.feeBps) x₁ = .ok x₂ ∧
        O.accrue ⟨this, msg.timestamp⟩ c.storage.feeCollector token merchantId
          (feeOf auth.amount m.feeBps) x₂ = .ok x₃) ∨
      ¬ 0 < feeOf auth.amount m.feeBps ∧ x₃ = x₁) ∧
    O.safeTransfer ⟨this, msg.timestamp⟩ token m.payoutAddress
      (auth.amount - feeOf auth.amount m.feeBps) x₃ = .ok x ∧
    c' = ⟨c.storage.log (.paymentExecuted merchantId auth.from_ token auth.amount
      (feeOf auth.amount m.feeBps) (auth.amount - feeOf auth.amount m.feeBps) ref), x⟩

theorem receive_ok {token : Address} {auth : PayAuthorization} {authSig : Bytes}
    (h : receive O this msg token auth authSig c = .ok ((), c')) :
    ∃ x, Receives O.toToken ⟨this, msg.timestamp⟩ token (toReceive this auth) c.ext x ∧
      c' = { c with ext := x } := by
  simp only [receive, bind_eq_ok, staticcall_eq_ok, Except.ok.injEq, Prod.mk.injEq, existsAndEq,
    true_and] at h
  split at h
  · obtain ⟨x, hx, heq⟩ := call_eq_ok.mp h
    exact ⟨x, Or.inr ⟨_, hx⟩, (Prod.mk.inj heq).2⟩
  · cases hvrs : PayerSignature.split authSig with
    | none =>
        rw [hvrs] at h
        exact (throw_eq_ok.mp h).elim
    | some vrs =>
        rw [hvrs] at h
        obtain ⟨x, hx, heq⟩ := call_eq_ok.mp h
        exact ⟨x, Or.inl ⟨_, hx⟩, (Prod.mk.inj heq).2⟩

theorem verifyPayIntent_eq_ok {merchantId : Nat} {token : Address} {auth : PayAuthorization}
    {ref : Bytes32} {intentSig : Bytes} {r : Unit × Ctx Storage ξ} :
    verifyPayIntent O merchantId token auth ref intentSig c = .ok r ↔
      PayerSignature.isValid O.toSignatures auth.from_
        (O.payIntentDigest (payIntent merchantId token auth ref)) intentSig c.ext = true ∧
      r = ((), c) := by
  simp only [verifyPayIntent, bind_eq_ok, staticcall_eq_ok, revertIf_eq_ok,
    Except.ok.injEq, Prod.mk.injEq, existsAndEq, true_and, and_true, Bool.not_eq_false]

theorem payWithAuthorization_ok {merchantId : Nat} {token : Address} {auth : PayAuthorization}
    {ref : Bytes32} {authSig intentSig : Bytes}
    (h : payWithAuthorization O this msg merchantId token auth ref authSig intentSig c =
      .ok ((), c')) :
    ∃ m, PaysAuthorized O this msg merchantId token auth ref intentSig m c c' := by
  simp only [payWithAuthorization, nonReentrant, emit, bind_eq_ok, sload_eq_ok,
    whenNotPaused_eq_ok, guarded_eq_ok, revertIf_eq_ok, staticcall_eq_ok, checkedSub_eq_ok,
    verifyPayIntent_eq_ok, sstore_eq_ok, Prod.mk.injEq, existsAndEq, exists_const, true_and,
    and_true, Bool.not_eq_false] at h
  obtain ⟨hpaused, hentered, m, ⟨⟩, c₁, ⟨⟩, c₂, ⟨⟩, c₃, ⟨hamount, hallowed, -, hintent, hm,
    hreceived, hfee, hfeeLeg, hnetLeg⟩, rfl⟩ := h
  obtain ⟨_, _, -, hreceived, -⟩ := exactly_eq_ok.mp hreceived
  obtain ⟨x₁, hx₁, rfl⟩ := receive_ok hreceived
  obtain ⟨x, hx, rfl⟩ := exactTransfer_ok hnetLeg
  refine ⟨m, hpaused, hentered, hamount, hallowed, hintent, hm, hfee, ?_⟩
  rcases collectFee_eq_ok.mp hfeeLeg with ⟨hpos, _, htransfer, x₃, haccrue, rfl⟩ | ⟨hzero, rfl⟩
  · obtain ⟨x₂, hx₂, rfl⟩ := exactTransfer_ok htransfer
    refine ⟨x₁, x₃, x, hx₁, Or.inl ⟨hpos, x₂, hx₂, haccrue⟩, hx, ?_⟩
    rw [← Storage.setEntered_log hentered]
  · refine ⟨x₁, x₁, x, hx₁, Or.inr ⟨hzero, rfl⟩, hx, ?_⟩
    rw [← Storage.setEntered_log hentered]

end Strimz.Payments
