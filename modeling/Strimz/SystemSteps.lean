import Mathlib.Data.BitVec
import Strimz.BatchCharge
import Strimz.PermitEnrolment
import Strimz.RegistryFees
import Strimz.System

/-!
# What a step of the payment system moves

Three settlement paths, each with its own fee split, establish one `Settled`; a
withdrawal and a transfer are one token move. `Moves` is the account of a stretch of
steps in terms of the flows that went through: account by account, and the
collector's counter. `step_moves` gives it for one transaction, together with the
wiring of the contracts that it rests on.
-/

namespace Strimz.System

open Tx Runs Ledger

/-! ## One flow -/

/-- What a flow takes out of account `a`. -/
def Flow.paid (collector token a : Address) (f : Flow) : Nat :=
  f.spent token a + f.sent token a + at_ collector a (f.withdrawn token)

/-- What a flow puts into account `a`. -/
def Flow.received (collector token a : Address) (f : Flow) : Nat :=
  f.earned token a + f.given token a + at_ collector a (f.fee token)

section Moves

variable {τ δ : Type}

/-- What every settlement of a run looks like. -/
structure Fair (D : Deployment) (s : Settlement) : Prop where
  split : s.feeAmount.toNat + s.netAmount.toNat = s.amount.toNat
  fee_le : s.feeAmount.toNat ≤ s.amount.toNat / 20
  payer : ¬ D.IsContract s.payer

/-- The outside moved from `p` to `p'` by these flows and no others. -/
structure Moves (D : Deployment) (balance : τ → Address → Address → Nat) (p p' : Peers τ)
    (fs : List Flow) : Prop where
  balances : ∀ token a, balance p'.tokens token a + total (Flow.paid D.collector token a) fs =
    balance p.tokens token a + total (Flow.received D.collector token a) fs
  accrued : ∀ token, (p'.collectors D.collector).totalAccrued token =
    (p.collectors D.collector).totalAccrued token +
      (fs.map fun f => BitVec.ofNat 256 (f.fee token)).sum
  fair : ∀ s, .settlement s ∈ fs → Fair D s

variable {D : Deployment} {balance : τ → Address → Address → Nat} {p p' p'' : Peers τ}
  {fs gs : List Flow}

theorem Moves.quiet (htokens : balance p'.tokens = balance p.tokens)
    (hcollectors : (p'.collectors D.collector).totalAccrued =
      (p.collectors D.collector).totalAccrued) : Moves D balance p p' [] where
  balances token a := by rw [htokens]; rfl
  accrued token := by rw [hcollectors]; simp
  fair _ h := absurd h List.not_mem_nil

theorem Moves.append (h : Moves D balance p p' fs) (h' : Moves D balance p' p'' gs) :
    Moves D balance p p'' (fs ++ gs) where
  balances token a := by
    have hfirst := h.balances token a
    have hsecond := h'.balances token a
    simp only [total, List.map_append, List.sum_append] at hfirst hsecond ⊢
    omega
  accrued token := by
    rw [h'.accrued, h.accrued, List.map_append, List.sum_append, add_assoc]
  fair s hs := (List.mem_append.mp hs).elim (h.fair s) (h'.fair s)

/-- One settlement, whichever path it took. -/
theorem Moves.settlement {s : Settlement} (hfair : Fair D s)
    (h : Settled balance D.collector s p p') : Moves D balance p p' [.settlement s] where
  balances token a := by
    simp only [total, List.map_cons, List.map_nil, List.sum_cons, List.sum_nil, Flow.paid,
      Flow.received, Flow.spent, Flow.sent, Flow.withdrawn, Flow.earned, Flow.given, Flow.fee,
      at_zero]
    by_cases htoken : s.token = token
    · subst htoken
      have hbalances := h.balances a
      simp only [if_true]
      omega
    · rw [h.otherTokens token (Ne.symm htoken)]
      simp [htoken]
  accrued token := by
    rw [h.accrued]
    by_cases htoken : token = s.token
    · simp [Flow.fee, htoken]
    · simp [Flow.fee, htoken, Ne.symm htoken]
  fair s' hs' := by
    obtain rfl : s' = s := by simpa using hs'
    exact hfair

/-! ## The three paths -/

variable {K : Kit τ δ}

theorem merchant_eq {registry : Address} {id : Nat} {m : Merchant}
    (h : (Peers.outside K).requireActiveMerchant registry id p = .ok m) :
    m = (p.registries registry).merchants id := by
  obtain ⟨s, hs⟩ := Peers.ofRegistry_eq_ok.mp h
  obtain ⟨-, -, heq⟩ := Registry.requireActiveMerchant_eq_ok.mp hs
  exact (Prod.mk.inj heq).1

/-- The fee split of every path, on what `netAmount`'s checked subtraction let through. -/
theorem settlementOf_fair (token : Address) {payer : Address} {amount : Uint256} {m : Merchant}
    (hpayer : ¬ D.IsContract payer) (hfee : (feeOf amount m.feeBps).toNat ≤ amount.toNat)
    (hcap : m.feeBps ≤ 500) : Fair D (settlementOf token payer amount m) where
  split := by
    show (feeOf amount m.feeBps).toNat + (amount - feeOf amount m.feeBps).toNat = amount.toNat
    rw [BitVec.toNat_sub_of_le (BitVec.le_def.mpr hfee)]
    exact Nat.add_sub_cancel' hfee
  fee_le := feeOf_le hcap
  payer := hpayer

/-- The path of `payWithAuthorization`: in to the contract, out to the collector and
the payout address. -/
theorem settled_of_authorized (hT : ExactToken K.toToken balance) {self : Msg}
    {token collector payout : Address} {merchantId : Nat} {auth : ReceiveAuthorization}
    {fee net : Uint256} {p₁ p₃ : Peers τ} (hsplit : fee.toNat + net.toNat = auth.value.toNat)
    (hin : Receives (Peers.outside K).toToken self token auth p p₁)
    (hfee : 0 < fee ∧ (∃ p₂, (Peers.outside K).safeTransfer self token collector fee p₁ = .ok p₂ ∧
        (Peers.outside K).accrue self collector token merchantId fee p₂ = .ok p₃) ∨
      ¬ 0 < fee ∧ p₃ = p₁)
    (hout : (Peers.outside K).safeTransfer self token payout net p₃ = .ok p') :
    Settled balance collector ⟨token, auth.from_, payout, auth.value, fee, net⟩ p p' := by
  obtain ⟨t, ht, rfl⟩ := Peers.receives_outside hin
  obtain ⟨hto, hmovedIn⟩ := hT.receives ht
  obtain ⟨p₂, haccrued, hregistries, hcollectors, hbalances, hothers⟩ :=
    accrued_of_feeLeg (fun _ => transferred_of_safeTransfer hT) hfee
  obtain ⟨t', hmovedOut, rfl⟩ := transferred_of_safeTransfer hT hout
  rw [haccrued.tokens] at hmovedOut
  refine ⟨hsplit, fun a => ?_, fun u hu => ?_, fun u => ?_, fun a ha => ?_, ?_⟩
  · have hfirst := hmovedIn.add a
    have hsecond := hbalances a
    have hthird := hmovedOut.add a
    have hpassed := at_add self.sender a fee.toNat net.toNat
    rw [hsplit] at hpassed
    rw [hto] at hfirst
    simp only at hfirst hsecond hthird ⊢
    omega
  · exact (hmovedOut.other hu).trans ((hothers u hu).trans (hmovedIn.other hu))
  · rw [haccrued.accrued, hcollectors]
  · rw [haccrued.otherCollectors a ha, hcollectors]
  · exact haccrued.registries.trans hregistries

/-- A row changes nothing that the settlement of another row is read from. -/
theorem chargeSettlement_row {this : Address} {msg : Msg} {id : Nat} {attempt : Bytes32}
    {outcome : ChargeOutcome} {c c' : Ctx Subscriptions.Storage (Peers τ)}
    (hT : ExactToken K.toToken balance)
    (h : Subscriptions.Row (Peers.outside K) this msg id attempt c c' outcome) (i : Nat) :
    chargeSettlement c' i = chargeSettlement c i := by
  obtain ⟨t, ht⟩ := h.subscriptions i
  unfold chargeSettlement
  rw [ht, h.registry, (h.effect hT).registries]

theorem row_moves {this : Address} {msg : Msg} {id : Nat} {attempt : Bytes32}
    {outcome : ChargeOutcome} {c c' : Ctx Subscriptions.Storage (Peers τ)}
    (hT : ExactToken K.toToken balance) (hcollector : c.storage.feeCollector = D.collector)
    (hcap : ∀ i, ((c.ext.registries c.storage.registry).merchants i).feeBps ≤ 500)
    (hpayers : ∀ i, (c.storage.subscriptions i).payer ≠ 0 →
      ¬ D.IsContract (c.storage.subscriptions i).payer)
    (h : Subscriptions.Row (Peers.outside K) this msg id attempt c c' outcome) :
    Moves D balance c.ext c'.ext (chargedFlows c [(id, outcome)]) := by
  cases h with
  | skipped hcharged _ h =>
      subst h
      simp only [chargedFlows, List.filterMap_cons, hcharged, if_false, List.filterMap_nil]
      exact .quiet rfl rfl
  | failed m _ h =>
      subst h
      exact .quiet rfl rfl
  | charged m hdue x hsettles h =>
      subst h
      obtain rfl := merchant_eq hdue.merchant
      have hfair := settlementOf_fair (c.storage.subscriptions id).token
        (hpayers id hdue.known) hdue.fee_le (hcap _)
      rw [hcollector] at hsettles
      exact .settlement hfair (hsettles.settled hT hfair.split)

theorem rows_moves {this : Address} {msg : Msg} {rows : List (Nat × Bytes32)}
    {outcomes : List ChargeOutcome} {c c' : Ctx Subscriptions.Storage (Peers τ)}
    (hT : ExactToken K.toToken balance) (hcollector : c.storage.feeCollector = D.collector)
    (hcap : ∀ i, ((c.ext.registries c.storage.registry).merchants i).feeBps ≤ 500)
    (hpayers : ∀ i, (c.storage.subscriptions i).payer ≠ 0 →
      ¬ D.IsContract (c.storage.subscriptions i).payer)
    (h : Subscriptions.Rows (Peers.outside K) this msg rows outcomes c c') :
    Moves D balance c.ext c'.ext (chargedFlows c ((rows.map Prod.fst).zip outcomes)) := by
  induction h with
  | nil => exact .quiet rfl rfl
  | @cons id attempt rows outcome outcomes c c₁ c' hrow _ ih =>
      have hhead := row_moves hT hcollector hcap hpayers hrow
      have htail := ih (hrow.feeCollector.trans hcollector)
        (fun i => by rw [hrow.registry, (hrow.effect hT).registries]; exact hcap i)
        (fun i => by obtain ⟨t, ht⟩ := hrow.subscriptions i; rw [ht]; exact hpayers i)
      have hsame : ∀ rs, chargedFlows c₁ rs = chargedFlows c rs := fun rs => by
        unfold chargedFlows
        simp only [chargeSettlement_row hT hrow]
      rw [hsame] at htail
      have happend := hhead.append htail
      rwa [chargedFlows, chargedFlows, ← List.filterMap_append] at happend

end Moves

/-! ## One step -/

/-- What the token world is relied on for: exact transfers, permits that move no
balance, and no signature of the contracts themselves, which hold no key and do not
answer ERC-1271. -/
structure Trusted {τ δ : Type} (K : Kit τ δ) (D : Deployment)
    (balance : τ → Address → Address → Nat) : Prop where
  exact : ExactToken K.toToken balance
  permit : ∀ {token owner spender value t t'}, Permits K.toToken token owner spender value t t' →
    balance t' = balance t
  silent : ∀ a digest signature t, D.IsContract a →
    PayerSignature.isValid K.toSignatures a digest signature t = false

/-- The contracts still point at each other, fees are capped and no contract
subscribed. -/
structure Wired {τ : Type} (D : Deployment) (w : World τ) : Prop where
  paymentsCollector : w.payments.feeCollector = D.collector
  paymentsRegistry : w.payments.registry = D.registry
  subscriptionsCollector : w.subscriptions.feeCollector = D.collector
  subscriptionsRegistry : w.subscriptions.registry = D.registry
  fees : Registry.FeeInv (w.peers.registries D.registry)
  payers : ∀ i, (w.subscriptions.subscriptions i).payer ≠ 0 →
    ¬ D.IsContract (w.subscriptions.subscriptions i).payer

section Step

variable {τ δ : Type} {K : Kit τ δ} {D : Deployment} {balance : τ → Address → Address → Nat}
  {w w' : World τ} {msg : Msg}

theorem wired_deployed (t : τ) : Wired D (deployed D t) :=
  ⟨rfl, rfl, rfl, rfl, .deployed _, fun _ h => absurd rfl h⟩

theorem Wired.capped (hw : Wired D w) (i : Nat) :
    ((w.peers.registries D.registry).merchants i).feeBps ≤ 500 :=
  BitVec.le_trans (hw.fees.fee_le i) (hw.fees.max_le i)

/-! ### StrimzPayments -/

theorem Wired.putPayments (hw : Wired D w) {c : Ctx Payments.Storage (Peers τ)}
    (hcollector : c.storage.feeCollector = w.payments.feeCollector)
    (hregistry : c.storage.registry = w.payments.registry)
    (hregistries : c.ext.registries = w.peers.registries) : Wired D (w.putPayments c) where
  paymentsCollector := hcollector.trans hw.paymentsCollector
  paymentsRegistry := hregistry.trans hw.paymentsRegistry
  subscriptionsCollector := hw.subscriptionsCollector
  subscriptionsRegistry := hw.subscriptionsRegistry
  fees := by
    show Registry.FeeInv (c.ext.registries D.registry)
    rw [hregistries]
    exact hw.fees
  payers := hw.payers

theorem setTokenWhitelist_wiring {v : Address} {c c' : Ctx Payments.Storage (Peers τ)}
    (h : Payments.setTokenWhitelist msg v c = .ok ((), c')) :
    c'.storage.feeCollector = c.storage.feeCollector ∧ c'.storage.registry = c.storage.registry ∧
      c'.ext = c.ext := by
  simp only [Payments.setTokenWhitelist, Payments.setDependency, Payments.emit, bind_eq_ok,
    sload_eq_ok, onlyRole_eq_ok, whenPaused_eq_ok, revertIf_eq_ok, sstore_eq_ok, Prod.mk.injEq,
    existsAndEq, exists_const, true_and, and_true] at h
  obtain ⟨-, -, -, rfl⟩ := h
  exact ⟨rfl, rfl, rfl⟩

/-- What an ordinary payments call does to the system. -/
theorem payments_moves (hK : Trusted K D balance) (hw : Wired D w)
    (hsender : ¬ D.IsContract msg.sender) {a : Payments.Action (Peers τ)}
    (hordinary : (Action.payments a).ordinary = true) {c : Ctx Payments.Storage (Peers τ)}
    (h : Payments.dispatch (Peers.outside K) D.payments msg a w.paymentsCtx = .ok ((), c)) :
    Wired D (w.putPayments c) ∧
      Moves D balance w.peers c.ext (flowsOf K D w msg (.payments a)) := by
  cases a with
  | pay merchantId token amount ref =>
      obtain ⟨m, hpays⟩ := Payments.pay_ok h
      obtain ⟨p, hsettles, rfl⟩ := hpays.settles
      obtain rfl := merchant_eq hpays.merchant
      have hcap := hw.capped merchantId
      rw [← hw.paymentsRegistry] at hcap
      have hfair := settlementOf_fair token hsender hpays.fee_le hcap
      have hsettled := hsettles.settled hK.exact hfair.split
      rw [show w.paymentsCtx.storage.feeCollector = D.collector from hw.paymentsCollector] at hsettled
      exact ⟨hw.putPayments rfl rfl hsettled.registries, .settlement hfair hsettled⟩
  | payWithAuthorization merchantId token auth ref authSig intentSig =>
      obtain ⟨m, hpays⟩ := Payments.payWithAuthorization_ok h
      obtain ⟨p₁, p₃, p, hin, hfee, hout, rfl⟩ := hpays.settles
      obtain rfl := merchant_eq hpays.merchant
      have hcap := hw.capped merchantId
      rw [← hw.paymentsRegistry] at hcap
      have hpayer : ¬ D.IsContract auth.from_ := fun hcontract =>
        Bool.false_ne_true ((hK.silent _ _ _ _ hcontract).symm.trans hpays.intent)
      have hfair := settlementOf_fair token hpayer hpays.fee_le hcap
      have hsettled := settled_of_authorized hK.exact hfair.split hin hfee hout
      rw [show w.paymentsCtx.storage.feeCollector = D.collector from hw.paymentsCollector] at hsettled
      exact ⟨hw.putPayments rfl rfl hsettled.registries, .settlement hfair hsettled⟩
  | pause =>
      simp only [Payments.dispatch, Payments.pause, bind_eq_ok, sload_eq_ok, onlyRole_eq_ok,
        whenNotPaused_eq_ok, sstore_eq_ok, Prod.mk.injEq, existsAndEq, exists_const, true_and,
        and_true] at h
      obtain ⟨-, -, rfl⟩ := h
      exact ⟨hw.putPayments rfl rfl rfl, .quiet rfl rfl⟩
  | unpause =>
      simp only [Payments.dispatch, Payments.unpause, bind_eq_ok, sload_eq_ok, onlyRole_eq_ok,
        whenPaused_eq_ok, sstore_eq_ok, Prod.mk.injEq, existsAndEq, exists_const, true_and,
        and_true] at h
      obtain ⟨-, -, rfl⟩ := h
      exact ⟨hw.putPayments rfl rfl rfl, .quiet rfl rfl⟩
  | setTokenWhitelist v =>
      obtain ⟨hcollector, hregistry, hext⟩ := setTokenWhitelist_wiring h
      exact ⟨hw.putPayments hcollector hregistry (congrArg Peers.registries hext),
        .quiet (congrArg (fun p : Peers τ => balance p.tokens) hext)
          (congrArg (fun p : Peers τ => (p.collectors D.collector).totalAccrued) hext)⟩
  | setRoles hasRole =>
      simp only [Payments.dispatch, sstore_eq_ok, Prod.mk.injEq, true_and] at h
      subst h
      exact ⟨hw.putPayments rfl rfl rfl, .quiet rfl rfl⟩
  | setRegistry v => cases hordinary
  | setFeeCollector v => cases hordinary
  | rescue token to_ amount => cases hordinary
  | external f => cases hordinary

/-! ### StrimzSubscriptions -/

/-- The payers on the books of a subscriptions storage are outside the contracts. -/
def OutsidePayers (D : Deployment) (s : Subscriptions.Storage) : Prop :=
  ∀ i, (s.subscriptions i).payer ≠ 0 → ¬ D.IsContract (s.subscriptions i).payer

theorem OutsidePayers.of_same {s s' : Subscriptions.Storage} (h : OutsidePayers D s)
    (hpayer : ∀ i, (s'.subscriptions i).payer = (s.subscriptions i).payer) :
    OutsidePayers D s' := fun i => by
  rw [hpayer]
  exact h i

theorem OutsidePayers.flagged {s s' : Subscriptions.Storage} {id : Nat} {b : Bool}
    (h : OutsidePayers D s) (hs : s'.subscriptions = Function.update s.subscriptions id
      { s.subscriptions id with cancelled := b }) : OutsidePayers D s' :=
  h.of_same fun i => by
    rw [hs]
    by_cases hi : i = id
    · subst hi
      rw [Function.update_self]
    · rw [Function.update_of_ne hi]

theorem OutsidePayers.enrolled {s : Subscriptions.Storage} {payer : Address}
    {p : Subscriptions.Terms} (h : OutsidePayers D s) (hpayer : ¬ D.IsContract payer) :
    OutsidePayers D (s.enrolled msg payer p) := fun i => by
  rw [(Subscriptions.enrolled_views ..).1]
  split
  · exact fun _ => hpayer
  · exact h i

theorem Wired.putSubscriptions (hw : Wired D w) {c : Ctx Subscriptions.Storage (Peers τ)}
    (hcollector : c.storage.feeCollector = w.subscriptions.feeCollector)
    (hregistry : c.storage.registry = w.subscriptions.registry)
    (hregistries : c.ext.registries = w.peers.registries) (hpayers : OutsidePayers D c.storage) :
    Wired D (w.putSubscriptions c) where
  paymentsCollector := hw.paymentsCollector
  paymentsRegistry := hw.paymentsRegistry
  subscriptionsCollector := hcollector.trans hw.subscriptionsCollector
  subscriptionsRegistry := hregistry.trans hw.subscriptionsRegistry
  fees := by
    show Registry.FeeInv (c.ext.registries D.registry)
    rw [hregistries]
    exact hw.fees
  payers := hpayers

theorem rows_wiring {this : Address} {rows : List (Nat × Bytes32)} {outcomes : List ChargeOutcome}
    {c c' : Ctx Subscriptions.Storage (Peers τ)} (hT : ExactToken K.toToken balance)
    (h : Subscriptions.Rows (Peers.outside K) this msg rows outcomes c c') :
    c'.storage.feeCollector = c.storage.feeCollector ∧ c'.storage.registry = c.storage.registry ∧
      c'.ext.registries = c.ext.registries := by
  induction h with
  | nil => exact ⟨rfl, rfl, rfl⟩
  | cons hrow _ ih =>
      obtain ⟨hcollector, hregistry, hregistries⟩ := ih
      exact ⟨hcollector.trans hrow.feeCollector, hregistry.trans hrow.registry,
        hregistries.trans (hrow.effect hT).registries⟩

/-- A permit step changes no balance and nothing of the other contracts. -/
theorem permitted_quiet (hK : Trusted K D balance) {this token : Address}
    {permitData : PermitData} {permitSig : Bytes} {permit : Peers τ → Except Revert (Peers τ)}
    {p p' q : Peers τ}
    (hcall : Subscriptions.permitCall (Peers.outside K) this msg token permitData permitSig q =
      some permit)
    (h : Subscriptions.Permitted (Peers.outside K) this token permitData permit p p') :
    p'.registries = p.registries ∧ Moves D balance p p' [] := by
  cases h with
  | granted h =>
      obtain ⟨t, ht, rfl⟩ := Peers.permits_outside (Subscriptions.permitCall_permits hcall h)
      exact ⟨rfl, .quiet (hK.permit ht) rfl⟩
  | standing _ _ _ => exact ⟨rfl, .quiet rfl rfl⟩

/-- What an ordinary subscriptions call does to the system. -/
theorem subscriptions_moves (hK : Trusted K D balance) (hw : Wired D w)
    (hsender : ¬ D.IsContract msg.sender) {a : Subscriptions.Action (Peers τ)}
    (hordinary : (Action.subscriptions a).ordinary = true)
    {c : Ctx Subscriptions.Storage (Peers τ)}
    (h : Subscriptions.dispatch (Peers.outside K) D.subscriptions msg a w.subscriptionsCtx =
      .ok ((), c)) :
    Wired D (w.putSubscriptions c) ∧
      Moves D balance w.peers c.ext (flowsOf K D w msg (.subscriptions a)) := by
  have hpayers : OutsidePayers D w.subscriptions := hw.payers
  cases a with
  | createSubscription p =>
      simp only [Subscriptions.dispatch, bind_eq_ok, pure_eq_ok, Prod.mk.injEq, existsAndEq,
        true_and, and_true] at h
      obtain ⟨id, h⟩ := h
      obtain ⟨-, -, -, -, h⟩ := Subscriptions.createSubscription_eq_ok.mp h
      obtain ⟨-, -, -, rfl⟩ := Subscriptions.enrol_eq_ok.mp h
      exact ⟨hw.putSubscriptions rfl rfl rfl (hpayers.enrolled hsender), .quiet rfl rfl⟩
  | permitAndCreateSubscription p nonce permitData permitSig intentSig =>
      simp only [Subscriptions.dispatch, bind_eq_ok, pure_eq_ok, Prod.mk.injEq, existsAndEq,
        true_and, and_true] at h
      obtain ⟨id, h⟩ := h
      obtain ⟨-, -, -, -, -, -, hvalid, -, permit, x, hcall, hpermitted, h⟩ :=
        Subscriptions.permitAndCreateSubscription_eq_ok.mp h
      obtain ⟨-, -, -, rfl⟩ := Subscriptions.enrol_eq_ok.mp h
      have howner : ¬ D.IsContract permitData.owner := fun hcontract =>
        Bool.false_ne_true ((hK.silent _ _ _ _ hcontract).symm.trans hvalid)
      obtain ⟨hregistries, hmoves⟩ := permitted_quiet hK hcall hpermitted
      refine ⟨hw.putSubscriptions rfl rfl hregistries ?_, hmoves⟩
      exact OutsidePayers.enrolled
        (s := w.subscriptions.useIntentNonce permitData.owner nonce) hpayers howner
  | cancel id =>
      obtain ⟨-, m, -, -, -, ⟨-, rfl⟩ | ⟨-, rfl⟩⟩ := Subscriptions.cancel_eq_ok.mp h
      · exact ⟨hw.putSubscriptions rfl rfl rfl (hpayers.flagged rfl), .quiet rfl rfl⟩
      · exact ⟨hw.putSubscriptions rfl rfl rfl (hpayers.flagged rfl), .quiet rfl rfl⟩
  | reinstate id =>
      obtain ⟨-, -, -, -, rfl⟩ := Subscriptions.reinstate_eq_ok.mp h
      exact ⟨hw.putSubscriptions rfl rfl rfl (hpayers.flagged rfl), .quiet rfl rfl⟩
  | batchCharge ids attempts =>
      simp only [Subscriptions.dispatch, bind_eq_ok, pure_eq_ok, Prod.mk.injEq, existsAndEq,
        true_and, and_true] at h
      obtain ⟨outcomes, h⟩ := h
      have hflows : flowsOf K D w msg (.subscriptions (.batchCharge ids attempts)) =
          chargedFlows w.subscriptionsCtx (ids.zip outcomes) := by
        simp only [flowsOf, h]
      obtain ⟨-, -, -, hlen, -, c₁, hrows, rfl⟩ := Subscriptions.batchCharge_eq_ok.mp h
      have hrows := Subscriptions.chargeRows_ok hrows
      have hcap : ∀ i, ((w.peers.registries w.subscriptions.registry).merchants i).feeBps ≤ 500 := by
        rw [hw.subscriptionsRegistry]
        exact hw.capped
      have hmoves := rows_moves (c := ⟨w.subscriptions.setEntered true, w.peers⟩) hK.exact
        hw.subscriptionsCollector hcap hpayers hrows
      rw [List.map_fst_zip hlen.le] at hmoves
      obtain ⟨hcollector, hregistry, hregistries⟩ := rows_wiring hK.exact hrows
      refine ⟨hw.putSubscriptions hcollector hregistry hregistries ?_, hflows ▸ hmoves⟩
      refine hpayers.of_same fun i => ?_
      obtain ⟨t, ht⟩ := hrows.subscriptions i
      show (c₁.storage.subscriptions i).payer = _
      rw [ht]
      rfl
  | settleCharge payer token collector merchantId feeAmount payout netAmount =>
      obtain ⟨hself, -⟩ := Subscriptions.settleCharge_ok h
      exact absurd (Or.inr (Or.inl hself)) hsender
  | pause =>
      simp only [Subscriptions.dispatch, Subscriptions.pause, bind_eq_ok, sload_eq_ok,
        onlyRole_eq_ok, whenNotPaused_eq_ok, sstore_eq_ok, Prod.mk.injEq, existsAndEq,
        exists_const, true_and, and_true] at h
      obtain ⟨-, -, rfl⟩ := h
      exact ⟨hw.putSubscriptions rfl rfl rfl hpayers, .quiet rfl rfl⟩
  | unpause =>
      simp only [Subscriptions.dispatch, Subscriptions.unpause, bind_eq_ok, sload_eq_ok,
        onlyRole_eq_ok, whenPaused_eq_ok, sstore_eq_ok, Prod.mk.injEq, existsAndEq, exists_const,
        true_and, and_true] at h
      obtain ⟨-, -, rfl⟩ := h
      exact ⟨hw.putSubscriptions rfl rfl rfl hpayers, .quiet rfl rfl⟩
  | setTokenWhitelist v =>
      simp only [Subscriptions.dispatch, Subscriptions.setTokenWhitelist,
        Subscriptions.setDependency, Subscriptions.emit, bind_eq_ok, sload_eq_ok, onlyRole_eq_ok,
        whenPaused_eq_ok, revertIf_eq_ok, sstore_eq_ok, Prod.mk.injEq, existsAndEq, exists_const,
        true_and, and_true] at h
      obtain ⟨-, -, -, rfl⟩ := h
      exact ⟨hw.putSubscriptions rfl rfl rfl hpayers, .quiet rfl rfl⟩
  | setRoles hasRole =>
      simp only [Subscriptions.dispatch, sstore_eq_ok, Prod.mk.injEq, true_and] at h
      subst h
      exact ⟨hw.putSubscriptions rfl rfl rfl hpayers, .quiet rfl rfl⟩
  | setRegistry v => cases hordinary
  | setFeeCollector v => cases hordinary
  | rescue token to_ amount => cases hordinary
  | external f => cases hordinary

/-! ### The others -/

theorem withdraw_moves (hK : Trusted K D balance) (hw : Wired D w) {token to_ : Address}
    {amount : Uint256} {c : Ctx FeeCollector.Storage τ}
    (h : FeeCollector.withdraw K.toToken D.collector msg token to_ amount
      (w.collectorCtx D.collector) = .ok ((), c)) :
    Wired D (w.putCollector D.collector c) ∧
      Moves D balance w.peers (w.putCollector D.collector c).peers
        [.withdrawal token to_ amount] := by
  obtain ⟨-, -, -, bal, t, -, -, htransfer, rfl⟩ := FeeCollector.withdraw_eq_ok.mp h
  have hmoved := hK.exact.safeTransfer htransfer
  refine ⟨⟨hw.paymentsCollector, hw.paymentsRegistry, hw.subscriptionsCollector,
    hw.subscriptionsRegistry, hw.fees, hw.payers⟩, fun u a => ?_, fun u => ?_, fun s hs => ?_⟩
  · simp only [total, List.map_cons, List.map_nil, List.sum_cons, List.sum_nil, Flow.paid,
      Flow.received, Flow.spent, Flow.sent, Flow.withdrawn, Flow.earned, Flow.given, Flow.fee,
      at_zero]
    by_cases hu : token = u
    · subst hu
      have hadd := hmoved.add a
      simp only [if_true]
      show balance t token a + _ = balance w.peers.tokens token a + _
      simp only [World.collectorCtx] at hadd
      omega
    · have hother := hmoved.other (Ne.symm hu)
      show balance t u a + _ = balance w.peers.tokens u a + _
      rw [hother]
      simp [hu, World.collectorCtx]
  · simp [World.putCollector, World.collectorCtx, Flow.fee]
  · simp at hs

theorem transfer_moves (hK : Trusted K D balance) (hw : Wired D w) {token dst : Address}
    {value : Uint256} {t : τ} (h : transfer K msg token dst value w.peers.tokens = .ok ((), t)) :
    Wired D (w.putTokens t) ∧
      Moves D balance w.peers (w.putTokens t).peers [.transfer token msg.sender dst value] := by
  unfold transfer at h
  cases htransfer : K.safeTransfer msg token dst value w.peers.tokens with
  | error e => rw [htransfer] at h; cases h
  | ok t' =>
      rw [htransfer] at h
      obtain rfl : t' = t := (Prod.mk.inj (Except.ok.inj h)).2
      have hmoved := hK.exact.safeTransfer htransfer
      refine ⟨⟨hw.paymentsCollector, hw.paymentsRegistry, hw.subscriptionsCollector,
        hw.subscriptionsRegistry, hw.fees, hw.payers⟩, fun u a => ?_, fun u => ?_, fun s hs => ?_⟩
      · simp only [total, List.map_cons, List.map_nil, List.sum_cons, List.sum_nil, Flow.paid,
          Flow.received, Flow.spent, Flow.sent, Flow.withdrawn, Flow.earned, Flow.given, Flow.fee,
          at_zero, World.putTokens]
        by_cases hu : token = u
        · subst hu
          have hadd := hmoved.add a
          simp only [if_true]
          omega
        · rw [hmoved.other (Ne.symm hu)]
          simp [hu]
      · simp [World.putTokens, Flow.fee]
      · simp at hs

theorem registry_moves (hw : Wired D w) {a : Registry.Action} {s : Registry.Storage}
    (h : Registry.dispatch msg a (w.peers.registries D.registry) = .ok ((), s)) :
    Wired D (w.putRegistry D.registry s) ∧
      Moves D balance w.peers (w.putRegistry D.registry s).peers [] := by
  have hfees := hw.fees.step ⟨msg, a⟩
  rw [Registry.step, commit_of_ok h] at hfees
  refine ⟨⟨hw.paymentsCollector, hw.paymentsRegistry, hw.subscriptionsCollector,
    hw.subscriptionsRegistry, ?_, hw.payers⟩, .quiet rfl rfl⟩
  simpa only [World.putRegistry, Function.update_self] using hfees

/-- What an ordinary transaction does to the system: it keeps the wiring, and its flows
account for it. -/
theorem step_moves (hK : Trusted K D balance) (hw : Wired D w) (l : Label τ)
    (hsender : ¬ D.IsContract l.msg.sender) (hordinary : l.action.ordinary = true) :
    Wired D (step K D w l) ∧ Moves D balance w.peers (step K D w l).peers (flows K D w l) := by
  unfold step flows
  cases h : dispatch K D l.msg l.action w with
  | error e =>
      rw [commit_of_error h]
      exact ⟨hw, .quiet rfl rfl⟩
  | ok r =>
      obtain ⟨⟨⟩, w'⟩ := r
      rw [commit_of_ok h]
      cases haction : l.action with
      | payments a =>
          rw [haction] at h hordinary
          obtain ⟨c, hc, heq⟩ := zoom_eq_ok.mp h
          rw [heq]
          exact payments_moves hK hw hsender hordinary hc
      | subscriptions a =>
          rw [haction] at h hordinary
          obtain ⟨c, hc, heq⟩ := zoom_eq_ok.mp h
          rw [heq]
          exact subscriptions_moves hK hw hsender hordinary hc
      | withdraw token to_ amount =>
          rw [haction] at h
          obtain ⟨c, hc, heq⟩ := zoom_eq_ok.mp h
          rw [heq]
          exact withdraw_moves hK hw hc
      | registry a =>
          rw [haction, dispatch] at h
          obtain ⟨s, hs, heq⟩ := zoom_eq_ok.mp h
          rw [heq]
          exact registry_moves hw hs
      | transfer token dst value =>
          rw [haction, dispatch] at h
          obtain ⟨t, ht, heq⟩ := zoom_eq_ok.mp h
          rw [heq]
          exact transfer_moves hK hw ht

end Step

end Strimz.System
