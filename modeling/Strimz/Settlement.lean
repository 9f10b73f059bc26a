import Strimz.Peers

/-!
# Settlements

What a payment is once it is done, whichever path it took: a payer is out of
`amount`, the collector has the fee and has booked it, the payout address has the
rest. `Settled` says so of the states before and after; each path of the code is
shown to establish it.
-/

namespace Strimz

open Ledger

structure Settlement where
  token : Address
  payer : Address
  payout : Address
  amount : Uint256
  feeAmount : Uint256
  netAmount : Uint256
deriving Repr, DecidableEq

section Settled

variable {τ δ : Type}

/-- `p'` is `p` after one settlement. -/
structure Settled (balance : τ → Address → Address → Nat) (collector : Address) (s : Settlement)
    (p p' : Peers τ) : Prop where
  split : s.feeAmount.toNat + s.netAmount.toNat = s.amount.toNat
  balances : ∀ a, balance p'.tokens s.token a + at_ s.payer a s.amount.toNat =
    balance p.tokens s.token a + at_ collector a s.feeAmount.toNat +
      at_ s.payout a s.netAmount.toNat
  otherTokens : ∀ t, t ≠ s.token → balance p'.tokens t = balance p.tokens t
  accrued : ∀ t, (p'.collectors collector).totalAccrued t =
    (p.collectors collector).totalAccrued t + if t = s.token then s.feeAmount else 0
  otherCollectors : ∀ a, a ≠ collector → p'.collectors a = p.collectors a
  registries : p'.registries = p.registries

/-- `p'` is `p` after `fee` was booked at a collector, or `p` itself if there is no fee. -/
structure Accrued (collector token : Address) (fee : Uint256) (p p' : Peers τ) : Prop where
  accrued : ∀ t, (p'.collectors collector).totalAccrued t =
    (p.collectors collector).totalAccrued t + if t = token then fee else 0
  otherCollectors : ∀ a, a ≠ collector → p'.collectors a = p.collectors a
  registries : p'.registries = p.registries
  tokens : p'.tokens = p.tokens

theorem Accrued.none (collector token : Address) (p : Peers τ) : Accrued collector token 0 p p where
  accrued t := by simp
  otherCollectors _ _ := rfl
  registries := rfl
  tokens := rfl

theorem accrued_of_accrue {K : Kit τ δ} {msg : Msg} {collector token : Address} {merchantId : Nat}
    {fee : Uint256} {p p' : Peers τ}
    (h : (Peers.outside K).accrue msg collector token merchantId fee p = .ok p') :
    Accrued collector token fee p p' := by
  obtain ⟨s, hs, rfl⟩ := Peers.onCollector_eq_ok.mp h
  obtain ⟨-, -, rfl⟩ := FeeCollector.accrue_eq_ok.mp hs
  refine ⟨fun t => ?_, fun a ha => Function.update_of_ne ha _ _, rfl, rfl⟩
  by_cases ht : t = token
  · simp [ht]
  · simp [ht]

/-- The tokens moved, and nothing else of the deployment. -/
def Transferred (balance : τ → Address → Address → Nat) (token src dst : Address)
    (value : Uint256) (p p' : Peers τ) : Prop :=
  ∃ t, Moved balance p.tokens t token src dst value ∧ p' = { p with tokens := t }

variable {balance : τ → Address → Address → Nat} {K : Kit τ δ}

theorem transferred_of_safeTransferFrom (hT : ExactToken K.toToken balance) {msg : Msg}
    {token src dst : Address} {value : Uint256} {p p' : Peers τ}
    (h : (Peers.outside K).safeTransferFrom msg token src dst value p = .ok p') :
    Transferred balance token src dst value p p' := by
  obtain ⟨t, ht, rfl⟩ := Peers.onTokens_eq_ok.mp h
  exact ⟨t, hT.safeTransferFrom ht, rfl⟩

theorem transferred_of_safeTransfer (hT : ExactToken K.toToken balance) {msg : Msg}
    {token dst : Address} {value : Uint256} {p p' : Peers τ}
    (h : (Peers.outside K).safeTransfer msg token dst value p = .ok p') :
    Transferred balance token msg.sender dst value p p' := by
  obtain ⟨t, ht, rfl⟩ := Peers.onTokens_eq_ok.mp h
  exact ⟨t, hT.safeTransfer ht, rfl⟩

/-- The fee leg: the fee moved and was booked, or there is none. -/
theorem accrued_of_feeLeg {self : Msg} {token src collector : Address} {merchantId : Nat}
    {fee : Uint256} {p p₂ : Peers τ} {transfer : Peers τ → Prop}
    (htransfer : ∀ p₁, transfer p₁ → Transferred balance token src collector fee p p₁)
    (h : 0 < fee ∧ (∃ p₁, transfer p₁ ∧
        (Peers.outside K).accrue self collector token merchantId fee p₁ = .ok p₂) ∨
      ¬ 0 < fee ∧ p₂ = p) :
    ∃ p₁, Accrued collector token fee p₁ p₂ ∧ p₁.registries = p.registries ∧
      p₁.collectors = p.collectors ∧
      (∀ a, balance p₁.tokens token a + at_ src a fee.toNat =
        balance p.tokens token a + at_ collector a fee.toNat) ∧
      ∀ t, t ≠ token → balance p₁.tokens t = balance p.tokens t := by
  rcases h with ⟨-, p₁, hp₁, haccrue⟩ | ⟨hzero, rfl⟩
  · obtain ⟨t, hmoved, rfl⟩ := htransfer p₁ hp₁
    exact ⟨_, accrued_of_accrue haccrue, rfl, rfl, hmoved.add, fun _ => hmoved.other⟩
  · obtain rfl : fee = 0 := by
      have := mt BitVec.lt_def.mpr hzero
      exact BitVec.eq_of_toNat_eq (by simpa using this)
    exact ⟨p₂, .none collector token p₂, rfl, rfl, fun a => by simp, fun _ _ => rfl⟩

/-- A settlement by `transferFrom` is one. -/
theorem Settles.settled (hT : ExactToken K.toToken balance) {self : Msg}
    {payer token collector payout : Address} {merchantId : Nat} {amount fee net : Uint256}
    {p p' : Peers τ} (hsplit : fee.toNat + net.toNat = amount.toNat)
    (h : Settles (Peers.outside K) self payer token collector merchantId fee payout net p p') :
    Settled balance collector ⟨token, payer, payout, amount, fee, net⟩ p p' := by
  obtain ⟨p₂, hfee, hnet⟩ := h
  obtain ⟨p₁, haccrued, hregistries, hcollectors, hbalances, hothers⟩ :=
    accrued_of_feeLeg (fun _ => transferred_of_safeTransferFrom hT) hfee
  obtain ⟨t, hmoved, rfl⟩ := transferred_of_safeTransferFrom hT hnet
  rw [haccrued.tokens] at hmoved
  refine ⟨hsplit, fun a => ?_, fun u hu => ?_, fun u => ?_, fun a ha => ?_, ?_⟩
  · have hfirst := hbalances a
    have hsecond := hmoved.add a
    have hpaid := at_add payer a fee.toNat net.toNat
    rw [hsplit] at hpaid
    simp only at hfirst hsecond ⊢
    omega
  · exact (hmoved.other hu).trans (hothers u hu)
  · rw [← hcollectors]
    exact haccrued.accrued u
  · rw [← hcollectors]
    exact haccrued.otherCollectors a ha
  · exact haccrued.registries.trans hregistries

end Settled

end Strimz
