import Strimz.EscrowSteps
import Strimz.EscrowToken

/-!
# Solvency and single payout of the escrow

What every run of the escrow keeps, whoever calls and whatever tokens let run while they
move the money: the balance covers the open jobs, a job is funded once and pays its
amount once, to its own parties, and a closed job is never touched again.
-/

namespace Strimz.AgentEscrow

open Tx Relation Ledger Runs

section Solvency

variable {ξ : Type} {R : Nat → Nat → Prop} {O : Outside ξ} {this : Address}
  {balance : ξ → Address → Address → Nat} {c : Ctx Storage ξ} {ls : List (Label ξ)}

/-- What a record's status says about its transfers. -/
structure PaysOnce (r : Record) : Prop where
  funding : r.fundings = [] ∨ r.fundings = [(r.job.client, r.job.amount)]
  held : r.job.status.holds = true →
    r.fundings = [(r.job.client, r.job.amount)] ∧ r.payouts = []
  unfunded : r.fundings = [] → r.payouts = []
  closed : r.job.status.closed = true → r.fundings ≠ [] →
    (r.payouts.map fun p => p.2.toNat).sum = r.job.amount.toNat ∧
      ∀ p ∈ r.payouts, p.1 = r.job.client ∨ p.1 = r.job.vendor
  completed : r.job.status = .completed ∨ r.job.status = .resolved ∨ r.job.status = .reclaimed →
    r.fundings ≠ []

theorem JobInv.paysOnce {r : Record} (h : JobInv this r) : PaysOnce r := by
  have hbooks := h.books
  cases hstatus : r.job.status <;> simp only [Books, hstatus] at hbooks
  case none | proposed =>
      exact ⟨Or.inl hbooks.1, by simp [hstatus, JobStatus.holds], fun _ => hbooks.2.1,
        by simp [hstatus, JobStatus.closed], by simp [hstatus]⟩
  case funded | inProgress | delivered | disputed =>
      exact ⟨Or.inr hbooks.1.fundings, fun _ => ⟨hbooks.1.fundings, hbooks.2⟩, fun _ => hbooks.2,
        by simp [hstatus, JobStatus.closed], by simp [hstatus]⟩
  case completed | resolved | reclaimed =>
      exact ⟨Or.inr hbooks.1.fundings, by simp [hstatus, JobStatus.holds],
        (fun h => by rw [hbooks.1.fundings] at h; cases h),
        fun _ _ => ⟨hbooks.2.total, hbooks.2.parties⟩, fun _ => by simp [hbooks.1.fundings]⟩
  case cancelled =>
      rcases hbooks with ⟨hfundings, hpayouts, -⟩ | ⟨hfunded, hpaid⟩
      · exact ⟨Or.inl hfundings, by simp [hstatus, JobStatus.holds], fun _ => hpayouts,
          fun _ h => absurd hfundings h, by simp [hstatus]⟩
      · exact ⟨Or.inr hfunded.fundings, by simp [hstatus, JobStatus.holds],
          (fun h => by rw [hfunded.fundings] at h; cases h),
          fun _ _ => ⟨hpaid.total, hpaid.parties⟩, by simp [hstatus]⟩

theorem SameTerms.trans {job job₁ job' : Job} (h : SameTerms job job₁) (h' : SameTerms job₁ job') :
    SameTerms job job' :=
  ⟨h'.client.trans h.client, h'.vendor.trans h.vendor, h'.assessor.trans h.assessor,
    h'.token.trans h.token, h'.amount.trans h.amount⟩

theorem FreeStep.status_ne_none {timestamp : Uint64} {r r' : Record}
    (h : FreeStep this timestamp r r') : r'.job.status ≠ .none := by
  cases h <;> exact fun h => by cases h

theorem GuardedStep.status_ne_none {l : Label ξ} {id : Nat} {r r' : Record}
    (h : GuardedStep l id r r') : r'.job.status ≠ .none := by
  cases h <;> exact fun h => by cases h

/-- A job keeps its terms. -/
theorem exec_sameTerms (hR : Slack R) (hO : CallbackToken R O this balance)
    (hls : ∀ l ∈ ls, Foreign R this balance l) (hc : Inv R this balance c) {id : Nat}
    (hstatus : (c.storage.record id).job.status ≠ .none) :
    SameTerms (c.storage.record id).job ((exec (step O this) c ls).storage.record id).job :=
  (exec_record (P := fun r => r.job.status ≠ .none ∧ SameTerms (c.storage.record id).job r.job)
    hR hO hls hc (fun _ _ _ _ hmoves hr => hmoves.preserves
      (P := fun r => r.job.status ≠ .none ∧ SameTerms (c.storage.record id).job r.job)
      (fun h hr => ⟨h.status_ne_none, hr.2.trans (h.sameTerms hr.1)⟩)
      (fun h hr => ⟨h.status_ne_none, hr.2.trans h.sameTerms⟩) hr)
    ⟨hstatus, rfl, rfl, rfl, rfl, rfl⟩).2

/-- A closed job stays as it is. -/
theorem exec_closed (hR : Slack R) (hO : CallbackToken R O this balance)
    (hls : ∀ l ∈ ls, Foreign R this balance l) (hc : Inv R this balance c) {id : Nat}
    (hclosed : (c.storage.record id).job.status.closed = true) :
    (exec (step O this) c ls).storage.record id = c.storage.record id :=
  exec_record (P := fun r => r = c.storage.record id) hR hO hls hc
    (fun _ _ _ _ hmoves hr => (hmoves.closed (hr ▸ hclosed)).trans hr) rfl

end Solvency

/-- Over every run of the escrow from deployment, with tokens that move exactly the asked
value or revert but may let anyone call back, the escrow's balance of each token is at
least the sum of the open jobs' amounts, and equal to it when it held nothing at first and
nobody sends it tokens; each job is funded at most once, with its amount by its client, pays
nothing while it is open and exactly its amount, to its own client and vendor only, once it is
closed after funding; a job's terms never change and closed jobs do not change at all; and a
call that reverts changes nothing. -/
theorem escrow_solvent_pays_once {ξ : Type} (O : Outside ξ) (this : Address)
    (balance : ξ → Address → Address → Nat) (hO : CallbackToken (· ≤ ·) O this balance)
    (hasRole : RoleTable) (tokenWhitelist : Address) (x : ξ) (ls : List (Label ξ))
    (hls : ∀ l ∈ ls, Foreign (· ≤ ·) this balance l) :
    let c := exec (step O this) ⟨deployed hasRole tokenWhitelist, x⟩ ls
    (∀ token, total (Record.held token) c.storage ≤ balance c.ext token this) ∧
    (CallbackToken (· = ·) O this balance → (∀ l ∈ ls, Foreign (· = ·) this balance l) →
      (∀ token, balance x token this = 0) →
        ∀ token, total (Record.held token) c.storage = balance c.ext token this) ∧
    (∀ id, PaysOnce (c.storage.record id)) ∧
    (∀ more, (∀ l ∈ more, Foreign (· ≤ ·) this balance l) → ∀ id,
      let c' := exec (step O this) c more
      ((c.storage.record id).job.status ≠ .none →
        SameTerms (c.storage.record id).job (c'.storage.record id).job) ∧
      ((c.storage.record id).job.status.closed = true →
        c'.storage.record id = c.storage.record id)) ∧
    ∀ c l e, dispatch O this l.msg l.action c = .error e → step O this c l = c := by
  intro c
  have hc : Inv (· ≤ ·) this balance c :=
    exec_inv slack_le hO hls (inv_deployed fun _ => Nat.zero_le _)
  refine ⟨hc.held slack_le, fun hO' hls' hx => ?_, fun id => (hc.jobs id).paysOnce,
    fun more hmore id => ⟨exec_sameTerms slack_le hO hmore hc, exec_closed slack_le hO hmore hc⟩,
    fun c l e h => commit_of_error h⟩
  exact (exec_inv slack_eq hO' hls' (inv_deployed fun token => (hx token).symm)).held
    slack_eq

/-- While a transfer goes on, the vendor 20 starts job 2 and tries to reclaim job 1. -/
def sampleToken : Outside Wallets := Wallets.callback 100 [(20, .startJob 2), (20, .startJob 1)]

theorem sampleToken_callback {R : Nat → Nat → Prop} :
    CallbackToken R sampleToken 100 Wallets.balance :=
  Wallets.callbackToken (by
    simp only [List.forall_mem_cons, List.not_mem_nil, false_implies, implies_true, and_true]
    exact ⟨⟨by decide, rfl, fun f h => by cases h⟩, by decide, rfl, fun f h => by cases h⟩)

/-- Client 10 opens two jobs for vendor 20 and assessor 30; the first is delivered and
released, the second is started by the vendor from within the first one's funding. -/
def sampleEscrowRun : List (Label Wallets) :=
  [⟨⟨10, 5⟩, .createJob 20 30 200 1000 "a"⟩,
   ⟨⟨10, 5⟩, .createJob 20 30 200 500 "b"⟩,
   ⟨⟨10, 6⟩, .fundJob 2⟩,
   ⟨⟨10, 7⟩, .fundJob 1⟩,
   ⟨⟨20, 8⟩, .startJob 1⟩,
   ⟨⟨20, 9⟩, .submitDeliverable 1 77⟩,
   ⟨⟨30, 10⟩, .approveAndRelease 1⟩]

def sampleEscrowState : Ctx Storage Wallets :=
  exec (step sampleToken 100) ⟨deployed (fun _ _ => false) 300, Wallets.ofOwner 10 2000 (by decide)⟩
    sampleEscrowRun

theorem sampleEscrowRun_foreign {R : Nat → Nat → Prop} :
    ∀ l ∈ sampleEscrowRun, Foreign R 100 Wallets.balance l := by
  intro l hl
  have hsender : ∀ l ∈ sampleEscrowRun, l.msg.sender ≠ 100 := by
    simp only [sampleEscrowRun, List.forall_mem_cons]
    decide
  refine ⟨hsender l hl, fun f hf => ?_⟩
  simp only [sampleEscrowRun, List.mem_cons, List.not_mem_nil, or_false] at hl
  rcases hl with rfl | rfl | rfl | rfl | rfl | rfl | rfl <;> cases hf

example : (sampleEscrowState.storage.record 1).job.status = .completed ∧
    (sampleEscrowState.storage.record 2).job.status = .inProgress ∧
    (sampleEscrowState.storage.record 1).payouts = [(20, 1000)] ∧
    Wallets.balance sampleEscrowState.ext 200 100 = 500 := by
  decide

theorem sampleEscrow_solvent :
    total (Record.held 200) sampleEscrowState.storage =
        Wallets.balance sampleEscrowState.ext 200 100 ∧
      PaysOnce (sampleEscrowState.storage.record 1) := by
  have h := escrow_solvent_pays_once sampleToken 100 Wallets.balance sampleToken_callback
    (fun _ _ => false) 300 (Wallets.ofOwner 10 2000 (by decide)) sampleEscrowRun
    sampleEscrowRun_foreign
  exact ⟨h.2.1 sampleToken_callback sampleEscrowRun_foreign (fun _ => rfl) 200, h.2.2.1 1⟩

end Strimz.AgentEscrow
