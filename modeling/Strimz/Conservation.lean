import Strimz.ReferenceToken
import Strimz.SystemSteps

/-!
# Value conservation

The account of a step adds up along a run. What the collector booked is the sum of
the fees, what it holds is what it booked less what was withdrawn plus what it was
given, and the two paying contracts keep nothing of what passes through them.
-/

namespace Strimz.System

open Tx Runs Ledger

/-! ## Runs -/

theorem sum_ofNat {α : Type} (f : α → Nat) (as : List α) :
    (as.map fun a => BitVec.ofNat 256 (f a)).sum = BitVec.ofNat 256 (as.map f).sum := by
  induction as with
  | nil => rfl
  | cons a as ih => rw [List.map_cons, List.sum_cons, List.map_cons, List.sum_cons, ih,
      BitVec.ofNat_add]

theorem total_add (v v' : Flow → Nat) (fs : List Flow) :
    total (fun f => v f + v' f) fs = total v fs + total v' fs :=
  List.sum_map_add

theorem total_congr {v u : Flow → Nat} {fs : List Flow} (h : ∀ f ∈ fs, v f = u f) :
    total v fs = total u fs :=
  congrArg List.sum (List.map_congr_left h)

theorem total_zero {v : Flow → Nat} {fs : List Flow} (h : ∀ f ∈ fs, v f = 0) : total v fs = 0 :=
  List.sum_eq_zero fun _ hn => by
    obtain ⟨f, hf, rfl⟩ := List.mem_map.mp hn
    exact h f hf

section Run

variable {τ δ : Type} {K : Kit τ δ} {D : Deployment} {balance : τ → Address → Address → Nat}
  {ls : List (Label τ)} {t : τ}

/-- The run's flows account for every balance, and the collector's counter for every fee. -/
theorem exec_moves (hK : Trusted K D balance) (t : τ)
    (hsenders : ∀ l ∈ ls, ¬ D.IsContract l.msg.sender)
    (hordinary : ∀ l ∈ ls, l.action.ordinary = true) :
    Moves D balance (deployed D t).peers (exec (step K D) (deployed D t) ls).peers
      (collect (step K D) (flows K D) (deployed D t) ls) where
  balances token a := exec_balance (P := Wired D) (m := fun w => balance w.peers.tokens token a)
    (wired_deployed t) fun w l hl hw => by
      obtain ⟨hw', hmoves⟩ := step_moves hK hw l (hsenders l hl) (hordinary l hl)
      exact ⟨hw', hmoves.balances token a⟩
  accrued token := by
    have h := exec_balance (P := Wired D) (f := flows K D) (g := fun _ => 0)
      (m := fun w : World τ => (w.peers.collectors D.collector).totalAccrued token)
      (e := fun f => BitVec.ofNat 256 (f.fee token)) (wired_deployed t)
      fun w l hl hw => by
        obtain ⟨hw', hmoves⟩ := step_moves hK hw l (hsenders l hl) (hordinary l hl)
        exact ⟨hw', by simpa using hmoves.accrued token⟩
    simpa using h
  fair s hs := collect_forall (P := Wired D) (Q := fun f => ∀ s, f = .settlement s → Fair D s)
    (wired_deployed t) (fun w l hl hw => by
      obtain ⟨hw', hmoves⟩ := step_moves hK hw l (hsenders l hl) (hordinary l hl)
      exact ⟨hw', fun f hf s hfs => hmoves.fair s (hfs ▸ hf)⟩) _ hs s rfl

/-- An account other than the collector's: what it has, spent and sent is what it had,
earned and was given. -/
theorem Moves.account {p p' : Peers τ} {fs : List Flow} (h : Moves D balance p p' fs) {a : Address}
    (ha : a ≠ D.collector) (token : Address) :
    balance p'.tokens token a + total (Flow.spent token a) fs + total (Flow.sent token a) fs =
      balance p.tokens token a + total (Flow.earned token a) fs +
        total (Flow.given token a) fs := by
  have hbalances := h.balances token a
  rw [total_congr (v := Flow.paid D.collector token a)
      (u := fun f => f.spent token a + f.sent token a) fun f _ => by
        rw [Flow.paid, at_of_ne (Ne.symm ha), Nat.add_zero],
    total_congr (v := Flow.received D.collector token a)
      (u := fun f => f.earned token a + f.given token a) fun f _ => by
        rw [Flow.received, at_of_ne (Ne.symm ha), Nat.add_zero],
    total_add, total_add] at hbalances
  omega

/-- Flows of a system whose contracts act through their code alone: no contract pays or is
paid by a settlement, and none sends a transfer. -/
structure Apart (D : Deployment) (fs : List Flow) : Prop where
  settlements : ∀ s, .settlement s ∈ fs → ¬ D.IsContract s.payer ∧ ¬ D.IsContract s.payout
  transfers : ∀ token src dst value, .transfer token src dst value ∈ fs → ¬ D.IsContract src

theorem Apart.spent {fs : List Flow} (h : Apart D fs) {a : Address} (ha : D.IsContract a)
    (token : Address) : total (Flow.spent token a) fs = 0 :=
  total_zero fun f hf => by
    cases f with
    | settlement s =>
        have hne : s.payer ≠ a := fun heq => (h.settlements s hf).1 (heq ▸ ha)
        simp only [Flow.spent, at_of_ne hne, ite_self]
    | withdrawal _ _ _ => rfl
    | transfer _ _ _ _ => rfl

theorem Apart.earned {fs : List Flow} (h : Apart D fs) {a : Address} (ha : D.IsContract a)
    (token : Address) : total (Flow.earned token a) fs = 0 :=
  total_zero fun f hf => by
    cases f with
    | settlement s =>
        have hne : s.payout ≠ a := fun heq => (h.settlements s hf).2 (heq ▸ ha)
        simp only [Flow.earned, at_of_ne hne, ite_self]
    | withdrawal _ _ _ => rfl
    | transfer _ _ _ _ => rfl

theorem Apart.sent {fs : List Flow} (h : Apart D fs) {a : Address} (ha : D.IsContract a)
    (token : Address) : total (Flow.sent token a) fs = 0 :=
  total_zero fun f hf => by
    cases f with
    | transfer u src dst value =>
        have hne : src ≠ a := fun heq => h.transfers u src dst value hf (heq ▸ ha)
        simp only [Flow.sent, at_of_ne hne, ite_self]
    | withdrawal _ _ _ => rfl
    | settlement _ => rfl

theorem Moves.collector {p p' : Peers τ} {fs : List Flow} (h : Moves D balance p p' fs)
    (happart : Apart D fs) (token : Address) :
    balance p'.tokens token D.collector + total (Flow.withdrawn token) fs =
      balance p.tokens token D.collector + total (Flow.fee token) fs +
        total (Flow.given token D.collector) fs := by
  have hcontract : D.IsContract D.collector := Or.inr (Or.inr rfl)
  have hbalances := h.balances token D.collector
  rw [total_congr (v := Flow.paid D.collector token D.collector)
      (u := fun f => f.spent token D.collector + f.sent token D.collector + f.withdrawn token)
      fun f _ => by rw [Flow.paid, at_self],
    total_congr (v := Flow.received D.collector token D.collector)
      (u := fun f => f.earned token D.collector + f.given token D.collector + f.fee token)
      fun f _ => by rw [Flow.received, at_self],
    total_add (fun f => f.spent token D.collector + f.sent token D.collector), total_add,
    total_add (fun f => f.earned token D.collector + f.given token D.collector), total_add,
    happart.spent hcontract, happart.sent hcontract, happart.earned hcontract] at hbalances
  omega

/-- Every transfer of the run was its sender's own. -/
theorem flows_transfers (hsenders : ∀ l ∈ ls, ¬ D.IsContract l.msg.sender) (w : World τ) :
    ∀ f ∈ collect (step K D) (flows K D) w ls, ∀ token src dst value,
      f = .transfer token src dst value → ¬ D.IsContract src := by
  refine collect_forall (P := fun _ => True) trivial fun w l hl _ => ⟨trivial, ?_⟩
  rintro f hf token src dst value rfl
  unfold flows at hf
  split at hf
  · cases haction : l.action with
    | transfer token' dst' value' =>
        rw [haction] at hf
        simp only [flowsOf, List.mem_singleton, Flow.transfer.injEq] at hf
        exact hf.2.1 ▸ hsenders l hl
    | withdraw _ _ _ => rw [haction] at hf; simp [flowsOf] at hf
    | registry _ => rw [haction] at hf; simp [flowsOf] at hf
    | payments a => rw [haction] at hf; cases a <;> simp [flowsOf] at hf
    | subscriptions a =>
        rw [haction] at hf
        cases a with
        | batchCharge ids attempts =>
            simp only [flowsOf] at hf
            split at hf
            · simp [chargedFlows] at hf
            · simp at hf
        | _ => simp [flowsOf] at hf
  · simp at hf

end Run

/-- Value is conserved over every run of the payment system from deployment, whoever
calls. Every settlement splits its amount into fee and net with a fee of at most a
twentieth; the collector has booked the sum of the fees (modulo the word size); every
account other than the collector's has what it had, plus what it earned as a payout
address and was given, less what it spent in settlements and sent; while no merchant
pays out to a contract, the collector holds the fees less the withdrawals plus what it
was given, and the two paying contracts hold what they held plus what they were given;
and a call that reverts changes nothing and moves nothing. -/
theorem value_conserved {τ δ : Type} (K : Kit τ δ) (D : Deployment)
    (balance : τ → Address → Address → Nat) (hK : Trusted K D balance) (t : τ)
    (ls : List (Label τ)) (hsenders : ∀ l ∈ ls, ¬ D.IsContract l.msg.sender)
    (hordinary : ∀ l ∈ ls, l.action.ordinary = true) :
    let w := exec (step K D) (deployed D t) ls
    let fs := collect (step K D) (flows K D) (deployed D t) ls
    (∀ s, .settlement s ∈ fs → s.feeAmount.toNat + s.netAmount.toNat = s.amount.toNat ∧
      s.feeAmount.toNat ≤ s.amount.toNat / 20) ∧
    (∀ token, ((w.peers.collectors D.collector).totalAccrued token).toNat =
      total (Flow.fee token) fs % 2 ^ 256) ∧
    (∀ token a, a ≠ D.collector →
      balance w.peers.tokens token a + total (Flow.spent token a) fs +
          total (Flow.sent token a) fs =
        balance t token a + total (Flow.earned token a) fs + total (Flow.given token a) fs) ∧
    ((∀ s, .settlement s ∈ fs → ¬ D.IsContract s.payout) → ∀ token,
      balance w.peers.tokens token D.collector + total (Flow.withdrawn token) fs =
          balance t token D.collector + total (Flow.fee token) fs +
            total (Flow.given token D.collector) fs ∧
        ∀ a, a = D.payments ∨ a = D.subscriptions →
          balance w.peers.tokens token a = balance t token a + total (Flow.given token a) fs) ∧
    ∀ w l e, dispatch K D l.msg l.action w = .error e → step K D w l = w ∧ flows K D w l = [] := by
  intro w fs
  have hmoves : Moves D balance (deployed D t).peers w.peers fs := exec_moves hK t hsenders hordinary
  refine ⟨fun s hs => ⟨(hmoves.fair s hs).split, (hmoves.fair s hs).fee_le⟩, fun token => ?_,
    fun token a ha => hmoves.account ha token, fun hpayouts token => ?_, fun w l e h => ?_⟩
  · rw [hmoves.accrued, sum_ofNat]
    show ((0 : Uint256) + BitVec.ofNat 256 (total (Flow.fee token) fs)).toNat = _
    rw [zero_add, BitVec.toNat_ofNat]
  · have happart : Apart D fs := ⟨fun s hs => ⟨(hmoves.fair s hs).payer, hpayouts s hs⟩,
      fun u src dst value hf => flows_transfers hsenders (deployed D t) _ hf u src dst value rfl⟩
    refine ⟨hmoves.collector happart token, fun a ha => ?_⟩
    have hne : a ≠ D.collector := by
      rcases ha with rfl | rfl
      · exact D.collector_ne_payments.symm
      · exact D.collector_ne_subscriptions.symm
    have hcontract : D.IsContract a := ha.imp_right Or.inl
    have haccount := hmoves.account hne token
    rw [happart.spent hcontract, happart.sent hcontract, happart.earned hcontract] at haccount
    exact haccount
  · rw [step, commit_of_error h, flows, h]
    exact ⟨rfl, rfl⟩

def sampleDeployment : Deployment where
  payments := 100
  subscriptions := 101
  collector := 102
  registry := 103
  tokenWhitelist := 104
  paymentsRoles := ReferenceToken.sampleRoles
  subscriptionsRoles := ReferenceToken.sampleRoles
  collectorRoles := ReferenceToken.sampleRoles
  registryRoles := ReferenceToken.sampleRoles
  collector_ne_payments := by decide
  collector_ne_subscriptions := by decide

theorem sampleTrusted : Trusted (ReferenceToken.kit ReferenceToken.silent) sampleDeployment
    ReferenceToken.balance where
  exact := ReferenceToken.exact _
  permit h := by
    obtain rfl := ReferenceToken.permits_approve h
    rfl
  silent a digest signature t _ := by
    unfold PayerSignature.isValid
    split
    · rfl
    · split
      · rfl
      · rfl

/-- A merchant registers, the payer 300 pays it 1000 units, and the treasury withdraws
the fee of 10 to the payments contract. -/
def sampleRun : List (Label ReferenceToken.State) :=
  [⟨⟨1, 10⟩, .registry (.registerMerchant 7 8 100 500 0)⟩,
   ⟨⟨300, 20⟩, .payments (.pay 1 200 1000 5)⟩,
   ⟨⟨1, 30⟩, .withdraw 200 100 10⟩]

theorem sampleRun_ordinary : ∀ l ∈ sampleRun, ¬ sampleDeployment.IsContract l.msg.sender ∧
    l.action.ordinary = true := by
  unfold Deployment.IsContract
  decide

/-- The withdrawal leaves the payments contract with a balance it did not have. -/
theorem withdraw_changes_payments_balance :
    let w := exec (step (ReferenceToken.kit ReferenceToken.silent) sampleDeployment)
      (deployed sampleDeployment ReferenceToken.samplePeers.tokens) sampleRun
    let fs := collect (step (ReferenceToken.kit ReferenceToken.silent) sampleDeployment)
      (flows (ReferenceToken.kit ReferenceToken.silent) sampleDeployment)
      (deployed sampleDeployment ReferenceToken.samplePeers.tokens) sampleRun
    fs = [.settlement ⟨200, 300, 8, 1000, 10, 990⟩, .withdrawal 200 100 10] ∧
      ReferenceToken.balance ReferenceToken.samplePeers.tokens 200 sampleDeployment.payments = 0 ∧
      ReferenceToken.balance w.peers.tokens 200 sampleDeployment.payments = 10 := by
  decide

theorem sampleRun_conserves :
    let w := exec (step (ReferenceToken.kit ReferenceToken.silent) sampleDeployment)
      (deployed sampleDeployment ReferenceToken.samplePeers.tokens) sampleRun
    let fs := collect (step (ReferenceToken.kit ReferenceToken.silent) sampleDeployment)
      (flows (ReferenceToken.kit ReferenceToken.silent) sampleDeployment)
      (deployed sampleDeployment ReferenceToken.samplePeers.tokens) sampleRun
    ReferenceToken.balance w.peers.tokens 200 sampleDeployment.payments =
      ReferenceToken.balance ReferenceToken.samplePeers.tokens 200 sampleDeployment.payments +
        total (Flow.given 200 sampleDeployment.payments) fs := by
  intro w fs
  have h := value_conserved (ReferenceToken.kit ReferenceToken.silent) sampleDeployment
    ReferenceToken.balance sampleTrusted ReferenceToken.samplePeers.tokens sampleRun
    (fun l hl => (sampleRun_ordinary l hl).1) fun l hl => (sampleRun_ordinary l hl).2
  have hfs : fs = [.settlement ⟨200, 300, 8, 1000, 10, 990⟩, .withdrawal 200 100 10] := by decide
  refine (h.2.2.2.1 (fun s hs => ?_) 200).2 _ (Or.inl rfl)
  change Flow.settlement s ∈ fs at hs
  rw [hfs] at hs
  obtain rfl : s = ⟨200, 300, 8, 1000, 10, 990⟩ := by simpa using hs
  unfold Deployment.IsContract
  decide

end Strimz.System
