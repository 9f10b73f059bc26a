import Strimz.AgentEscrow
import Strimz.Ledger

/-!
# One job of the escrow

What the escrow keeps of a job, and the changes it can undergo. Starting, delivering
and disputing are not guarded against re-entrancy, so those changes (`FreeStep`) can come
while another function waits for a token; funding and every way of closing a job are
guarded (`GuardedStep`). Statuses in which a guarded function waits for its own job's
transfer allow no free step, so the job is as it was when the transfer returns
(`FreeStep.fixed`).

`JobInv` is what every reachable record satisfies; its `Books` say, status by status,
what the job has been paid and has paid.
-/

namespace Strimz

namespace JobStatus

/-- The statuses of a job whose money the escrow holds. -/
def holds : JobStatus → Bool
  | funded | inProgress | delivered | disputed => true
  | _ => false

/-- The statuses that are never left. -/
def closed : JobStatus → Bool
  | completed | cancelled | resolved | reclaimed => true
  | _ => false

/-- The statuses a job can be in while its own transfer goes on. -/
def fixed : JobStatus → Bool
  | none | funded | inProgress | delivered => false
  | _ => true

/-- How many status changes can still come. -/
def rank : JobStatus → Nat
  | funded => 4
  | inProgress => 3
  | delivered => 2
  | disputed => 1
  | _ => 0

theorem rank_of_closed {s : JobStatus} (h : s.closed = true) : s.rank = 0 := by
  cases s <;> first | rfl | cases h

theorem rank_of_holds {s : JobStatus} (h : s.holds = true) : 1 ≤ s.rank := by
  cases s <;> first | decide | cases h

end JobStatus

namespace AgentEscrow

open Relation Ledger

/-- What the escrow keeps of a job, and the job's history. -/
structure Record where
  job : Job
  disputedFrom : JobStatus
  fundings : List (Address × Uint256)
  payouts : List (Address × Uint256)
  changes : List JobStatus
deriving DecidableEq

def noRecord : Record := ⟨noJob, .none, [], [], []⟩

def Storage.record (s : Storage) (jobId : Nat) : Record where
  job := s.jobs jobId
  disputedFrom := s.disputedFrom jobId
  fundings := s.fundings jobId
  payouts := s.payouts jobId
  changes := s.changes jobId

namespace Record

@[simps]
def move (next : JobStatus) (timestamp : Uint64) (r : Record) : Record :=
  { r with job := r.job.moved next timestamp, changes := r.changes ++ [next] }

/-- Leave for a status that is never left. -/
@[simps]
def close (next : JobStatus) (timestamp : Uint64) (r : Record) : Record :=
  { r with job := (r.job.moved next timestamp).stamped timestamp, changes := r.changes ++ [next] }

@[simps]
def fund (from_ : Address) (amount : Uint256) (r : Record) : Record :=
  { r with fundings := r.fundings ++ [(from_, amount)] }

@[simps]
def pay (to_ : Address) (amount : Uint256) (r : Record) : Record :=
  { r with payouts := r.payouts ++ [(to_, amount)] }

/-- The transfer of one side of a split, if there is one. -/
def side (to_ : Address) (amount : Uint256) : List (Address × Uint256) :=
  if 0 < amount then [(to_, amount)] else []

@[simps]
def paySide (to_ : Address) (amount : Uint256) (r : Record) : Record :=
  { r with payouts := r.payouts ++ side to_ amount }

theorem mem_side {to_ : Address} {amount : Uint256} {p : Address × Uint256}
    (h : p ∈ side to_ amount) : p.1 = to_ := by
  unfold side at h
  split at h
  · rw [List.mem_singleton.mp h]
  · cases h

theorem sum_side (to_ : Address) (amount : Uint256) :
    ((side to_ amount).map fun p => p.2.toNat).sum = amount.toNat := by
  unfold side
  split
  · simp
  · rename_i hzero
    obtain rfl : amount = 0 := by simpa using hzero
    rfl

@[simps]
def deliver (deliverableHash : Bytes32) (r : Record) : Record :=
  { r with job := r.job.delivering deliverableHash }

@[simps]
def markDisputed (r : Record) : Record := { r with disputedFrom := r.job.status }

end Record

/-- Who can reclaim an open job, and from when: `exitFor` of the escrow's invariant
tests. -/
def exitFor (r : Record) : Option (Address × Nat) :=
  let changedAt := r.job.statusChangedAt.toNat
  match r.job.status with
  | .funded => some (r.job.client, changedAt + START_TIMEOUT.toNat)
  | .inProgress => some (r.job.client, changedAt + DELIVERY_TIMEOUT.toNat)
  | .delivered => some (r.job.vendor, changedAt + APPROVAL_TIMEOUT.toNat)
  | .disputed => some (if r.disputedFrom = .delivered then r.job.vendor else r.job.client,
      changedAt + DISPUTE_TIMEOUT.toNat)
  | _ => none

theorem exitFor_isSome (r : Record) : (exitFor r).isSome = r.job.status.holds := by
  unfold exitFor
  cases r.job.status <;> rfl

/-! ## Steps -/

/-- What anyone can do to a job while another function waits for a token. -/
inductive FreeStep (this : Address) (timestamp : Uint64) : Record → Record → Prop where
  | created {sender vendor assessor token : Address} {amount : Uint256} {description : String}
      (hsender : sender ≠ this) (hamount : amount ≠ 0) (hvendor : vendor ≠ 0)
      (hneutral : vendor ≠ sender ∧ assessor ≠ sender ∧ vendor ≠ assessor) :
      FreeStep this timestamp noRecord
        { noRecord with
          job := newJob ⟨sender, timestamp⟩ vendor assessor token amount description }
  | started {r : Record} (hstatus : r.job.status = .funded) (hvendor : r.job.vendor ≠ this) :
      FreeStep this timestamp r (r.move .inProgress timestamp)
  | delivered {r : Record} (hstatus : r.job.status = .inProgress) (deliverableHash : Bytes32) :
      FreeStep this timestamp r ((r.deliver deliverableHash).move .delivered timestamp)
  | disputed {r : Record} (hstatus : r.job.status = .delivered ∨ r.job.status = .inProgress) :
      FreeStep this timestamp r (r.markDisputed.move .disputed timestamp)

/-- What a call about the job itself does to it, when it is guarded. -/
inductive GuardedStep {ξ : Type} (l : Label ξ) (jobId : Nat) : Record → Record → Prop where
  | funded {r : Record} (haction : l.action = .fundJob jobId) (hclient : r.job.client ≠ 0)
      (hstatus : r.job.status = .proposed) :
      GuardedStep l jobId r ((r.fund r.job.client r.job.amount).move .funded l.msg.timestamp)
  | released {r : Record} (haction : l.action = .approveAndRelease jobId)
      (hstatus : r.job.status = .delivered) :
      GuardedStep l jobId r
        ((r.close .completed l.msg.timestamp).pay r.job.vendor r.job.amount)
  | withdrawn {r : Record} (haction : ∃ reason, l.action = .cancelJob jobId reason)
      (hstatus : r.job.status = .proposed) :
      GuardedStep l jobId r (r.move .cancelled l.msg.timestamp)
  | refunded {r : Record} (haction : ∃ reason, l.action = .cancelJob jobId reason)
      (hstatus : r.job.status = .funded) :
      GuardedStep l jobId r
        ((r.move .cancelled l.msg.timestamp).pay r.job.client r.job.amount)
  | resolved {r : Record} {toVendor toClient : Uint256}
      (haction : l.action = .resolveDispute jobId toVendor toClient)
      (hstatus : r.job.status = .disputed)
      (hsum : toVendor.toNat + toClient.toNat = r.job.amount.toNat) :
      GuardedStep l jobId r
        (((r.close .resolved l.msg.timestamp).paySide r.job.vendor toVendor).paySide
          r.job.client toClient)
  | reclaimed {r : Record} {party : Address} {readyAt : Nat}
      (haction : l.action = .reclaimAfterTimeout jobId) (hsender : l.msg.sender = party)
      (hexit : exitFor r = some (party, readyAt)) (hready : readyAt ≤ l.time) :
      GuardedStep l jobId r
        ((r.close .reclaimed l.msg.timestamp).pay party r.job.amount)

section Steps

variable {ξ : Type} {this : Address} {timestamp : Uint64} {l : Label ξ} {jobId : Nat}
  {r r' : Record}

theorem FreeStep.not_fixed (h : FreeStep this timestamp r r') :
    r.job.status.fixed = false := by
  cases h with
  | created => rfl
  | started hstatus _ => rw [hstatus]; rfl
  | delivered hstatus _ => rw [hstatus]; rfl
  | disputed hstatus => rcases hstatus with hstatus | hstatus <;> rw [hstatus] <;> rfl

/-- Whatever others did in the meantime, a job whose status is fixed is as it was. -/
theorem FreeStep.fixed (h : ReflTransGen (FreeStep this timestamp) r r')
    (hr : r.job.status.fixed = true) : r' = r := by
  rcases ReflTransGen.cases_head h with rfl | ⟨_, hstep, -⟩
  · rfl
  · rw [hstep.not_fixed] at hr
    cases hr

theorem GuardedStep.holds_or_proposed (h : GuardedStep l jobId r r') :
    r.job.status.holds = true ∨ r.job.status = .proposed := by
  cases h with
  | funded _ _ hstatus => exact Or.inr hstatus
  | released _ hstatus => rw [hstatus]; exact Or.inl rfl
  | withdrawn _ hstatus => exact Or.inr hstatus
  | refunded _ hstatus => rw [hstatus]; exact Or.inl rfl
  | resolved _ hstatus _ => rw [hstatus]; exact Or.inl rfl
  | reclaimed _ _ hexit _ =>
      rw [← exitFor_isSome, hexit]
      exact Or.inl rfl

/-- A closed job allows no step at all. -/
theorem FreeStep.not_closed (h : FreeStep this timestamp r r') : r.job.status.closed = false := by
  have hfixed := h.not_fixed
  cases hstatus : r.job.status <;> rw [hstatus] at hfixed <;> first | rfl | cases hfixed

theorem GuardedStep.not_closed (h : GuardedStep l jobId r r') : r.job.status.closed = false := by
  have hholds := h.holds_or_proposed
  cases hstatus : r.job.status <;> rw [hstatus] at hholds <;> first | rfl | simp [JobStatus.holds] at hholds

/-- What a transaction can do to a job: at most one guarded step, which is the transaction's own,
or free steps. -/
def JobMoves (this : Address) (l : Label ξ) (jobId : Nat) (r r' : Record) : Prop :=
  ReflTransGen (FreeStep this l.msg.timestamp) r r' ∨ GuardedStep l jobId r r'

/-- What every step of a job preserves, a transaction preserves. -/
theorem JobMoves.preserves {P : Record → Prop} (h : JobMoves this l jobId r r')
    (hfree : ∀ {r r'}, FreeStep this l.msg.timestamp r r' → P r → P r')
    (hguarded : ∀ {r r'}, GuardedStep l jobId r r' → P r → P r') (hr : P r) : P r' := by
  rcases h with h | h
  · induction h with
    | refl => exact hr
    | tail _ hstep ih => exact hfree hstep ih
  · exact hguarded h hr

theorem JobMoves.closed (h : JobMoves this l jobId r r') (hr : r.job.status.closed = true) :
    r' = r := by
  rcases h with h | h
  · rcases ReflTransGen.cases_head h with rfl | ⟨_, hstep, -⟩
    · rfl
    · rw [hstep.not_closed] at hr
      cases hr
  · rw [h.not_closed] at hr
    cases hr

end Steps

/-! ## The invariant of a record -/

/-- `createJob`'s checks. -/
structure Terms (this : Address) (job : Job) : Prop where
  client_ne_this : job.client ≠ this
  amount : job.amount ≠ 0
  vendor : job.vendor ≠ 0
  vendor_ne_client : job.vendor ≠ job.client
  assessor_ne_client : job.assessor ≠ job.client
  vendor_ne_assessor : job.vendor ≠ job.assessor

/-- What a job keeps from its creation on. -/
structure SameTerms (job job' : Job) : Prop where
  client : job'.client = job.client
  vendor : job'.vendor = job.vendor
  assessor : job'.assessor = job.assessor
  token : job'.token = job.token
  amount : job'.amount = job.amount

/-- The job was funded, once, and has changed status at most four times since. -/
structure Funded (r : Record) : Prop where
  client : r.job.client ≠ 0
  fundings : r.fundings = [(r.job.client, r.job.amount)]
  changes : ∃ since, r.changes = .funded :: since ∧ since.length + r.job.status.rank ≤ 4

/-- The job paid exactly its amount, to its own two parties. -/
structure PaidOut (r : Record) : Prop where
  total : (r.payouts.map fun p => p.2.toNat).sum = r.job.amount.toNat
  parties : ∀ p ∈ r.payouts, p.1 = r.job.client ∨ p.1 = r.job.vendor

/-- What a job has been paid and has paid, by its status. -/
def Books (r : Record) : Prop :=
  match r.job.status with
  | .none | .proposed => r.fundings = [] ∧ r.payouts = [] ∧ r.changes = []
  | .funded | .inProgress | .delivered | .disputed => Funded r ∧ r.payouts = []
  | .cancelled => r.fundings = [] ∧ r.payouts = [] ∧ r.changes = [.cancelled] ∨
      Funded r ∧ PaidOut r
  | .completed | .resolved | .reclaimed => Funded r ∧ PaidOut r

structure JobInv (this : Address) (r : Record) : Prop where
  terms : r.job.status ≠ .none → Terms this r.job
  vendor_ne_this : r.job.status = .inProgress ∨ r.job.status = .delivered ∨
    r.job.status = .disputed → r.job.vendor ≠ this
  origin : r.job.status = .disputed →
    r.disputedFrom = .inProgress ∨ r.disputedFrom = .delivered
  books : Books r

section Invariant

variable {ξ : Type} {this : Address} {timestamp : Uint64} {l : Label ξ} {jobId : Nat}
  {r r' : Record}

theorem jobInv_noRecord : JobInv this noRecord where
  terms h := absurd rfl h
  vendor_ne_this h := by rcases h with h | h | h <;> cases h
  origin h := by cases h
  books := ⟨rfl, rfl, rfl⟩

theorem SameTerms.terms {job job' : Job} (h : SameTerms job job') (hjob : Terms this job) :
    Terms this job' := by
  obtain ⟨hclient, hvendor, hassessor, -, hamount⟩ := h
  constructor
  · rw [hclient]; exact hjob.client_ne_this
  · rw [hamount]; exact hjob.amount
  · rw [hvendor]; exact hjob.vendor
  · rw [hvendor, hclient]; exact hjob.vendor_ne_client
  · rw [hassessor, hclient]; exact hjob.assessor_ne_client
  · rw [hvendor, hassessor]; exact hjob.vendor_ne_assessor

theorem FreeStep.sameTerms (h : FreeStep this timestamp r r') (hr : r.job.status ≠ .none) :
    SameTerms r.job r'.job := by
  cases h with
  | created => exact absurd rfl hr
  | started | delivered | disputed => exact ⟨rfl, rfl, rfl, rfl, rfl⟩

theorem GuardedStep.sameTerms (h : GuardedStep l jobId r r') : SameTerms r.job r'.job := by
  cases h with
  | funded | released | withdrawn | refunded | resolved | reclaimed =>
      exact ⟨rfl, rfl, rfl, rfl, rfl⟩

theorem Books.held (h : Books r) (hr : r.job.status.holds = true) : Funded r ∧ r.payouts = [] := by
  unfold Books at h
  split at h
  all_goals first | exact h | (rename_i hstatus; rw [hstatus] at hr; cases hr)

/-- A status change of a funded job. -/
theorem Funded.next (h : Funded r) (hterms : SameTerms r.job r'.job)
    (hfundings : r'.fundings = r.fundings) (hchanges : r'.changes = r.changes ++ [r'.job.status])
    (hrank : r'.job.status.rank + 1 ≤ r.job.status.rank) : Funded r' := by
  obtain ⟨since, hsince, hle⟩ := h.changes
  refine ⟨hterms.client ▸ h.client, ?_, since ++ [r'.job.status], ?_, ?_⟩
  · rw [hfundings, h.fundings, hterms.client, hterms.amount]
  · rw [hchanges, hsince, List.cons_append]
  · rw [List.length_append, List.length_singleton]
    omega

theorem FreeStep.jobInv (h : FreeStep this timestamp r r') (hr : JobInv this r) :
    JobInv this r' := by
  have hterms : r.job.status ≠ .none → Terms this r'.job := fun hne =>
    (h.sameTerms hne).terms (hr.terms hne)
  have hbooks : ∀ hholds : r.job.status.holds = true, Funded r ∧ r.payouts = [] := hr.books.held
  cases h with
  | created hsender hamount hvendor hneutral =>
      exact {
        terms := fun _ =>
          ⟨hsender, hamount, hvendor, hneutral.1, hneutral.2.1, hneutral.2.2⟩
        vendor_ne_this := fun h => by rcases h with h | h | h <;> cases h
        origin := fun h => by cases h
        books := ⟨rfl, rfl, rfl⟩ }
  | started hstatus hvendor =>
      rw [hstatus] at hterms hbooks
      exact {
        terms := fun _ => hterms (by decide)
        vendor_ne_this := fun _ => hvendor
        origin := fun h => by cases h
        books := ⟨(hbooks rfl).1.next ⟨rfl, rfl, rfl, rfl, rfl⟩ rfl rfl
          (by rw [hstatus]; exact Nat.le_refl _), (hbooks rfl).2⟩ }
  | delivered hstatus deliverableHash =>
      have hvendor := hr.vendor_ne_this (Or.inl hstatus)
      rw [hstatus] at hterms hbooks
      exact {
        terms := fun _ => hterms (by decide)
        vendor_ne_this := fun _ => hvendor
        origin := fun h => by cases h
        books := ⟨(hbooks rfl).1.next ⟨rfl, rfl, rfl, rfl, rfl⟩ rfl rfl
          (by rw [hstatus]; exact Nat.le_refl _), (hbooks rfl).2⟩ }
  | disputed hstatus =>
      have hvendor := hr.vendor_ne_this (by tauto)
      have hne : r.job.status ≠ .none := by rcases hstatus with h | h <;> rw [h] <;> decide
      have hholds : r.job.status.holds = true := by rcases hstatus with h | h <;> rw [h] <;> rfl
      have hrank : 2 ≤ r.job.status.rank := by rcases hstatus with h | h <;> rw [h] <;> decide
      exact {
        terms := fun _ => hterms hne
        vendor_ne_this := fun _ => hvendor
        origin := fun _ => hstatus.symm
        books := ⟨(hbooks hholds).1.next ⟨rfl, rfl, rfl, rfl, rfl⟩ rfl rfl hrank,
          (hbooks hholds).2⟩ }

/-- A funded job that has been closed and paid out. -/
theorem jobInv_of_paid (hterms : Terms this r.job) (hstatus : r.job.status.closed = true)
    (hfunded : Funded r) (hpaid : PaidOut r) : JobInv this r where
  terms _ := hterms
  vendor_ne_this h := by rcases h with h | h | h <;> rw [h] at hstatus <;> cases hstatus
  origin h := by rw [h] at hstatus; cases hstatus
  books := by
    unfold Books
    cases hr : r.job.status <;> rw [hr] at hstatus <;>
      first | exact ⟨hfunded, hpaid⟩ | exact Or.inr ⟨hfunded, hpaid⟩ | cases hstatus

/-- Closing a job that holds its money by paying it all to one party. -/
theorem JobInv.closing (hr : JobInv this r) (hholds : r.job.status.holds = true)
    (hterms : SameTerms r.job r'.job) (hclosed : r'.job.status.closed = true)
    (hfundings : r'.fundings = r.fundings) (hchanges : r'.changes = r.changes ++ [r'.job.status])
    (hpaid : r.payouts = [] → PaidOut r') : JobInv this r' := by
  obtain ⟨hfunded, hpayouts⟩ := hr.books.held hholds
  refine jobInv_of_paid (hterms.terms (hr.terms ?_)) hclosed
    (hfunded.next hterms hfundings hchanges ?_) (hpaid hpayouts)
  · rintro h
    rw [h] at hholds
    cases hholds
  · rw [JobStatus.rank_of_closed hclosed]
    exact JobStatus.rank_of_holds hholds

theorem paidOut_of_single {party : Address} (hparty : party = r.job.client ∨ party = r.job.vendor)
    (h : r.payouts = [(party, r.job.amount)]) : PaidOut r where
  total := by rw [h]; simp
  parties := by rw [h]; simpa using hparty

theorem exitFor_party {party : Address} {readyAt : Nat} (h : exitFor r = some (party, readyAt)) :
    party = r.job.client ∨
      party = r.job.vendor ∧ (r.job.status = .delivered ∨ r.job.status = .disputed) := by
  unfold exitFor at h
  split at h
  all_goals simp only [Option.some.injEq, Prod.mk.injEq, reduceCtorEq] at h
  · exact Or.inl h.1.symm
  · exact Or.inl h.1.symm
  · rename_i hstatus
    exact Or.inr ⟨h.1.symm, Or.inl hstatus⟩
  · rename_i hstatus
    rw [← h.1]
    split
    · exact Or.inr ⟨rfl, Or.inr hstatus⟩
    · exact Or.inl rfl

theorem exitFor_holds {party : Address} {readyAt : Nat} (h : exitFor r = some (party, readyAt)) :
    r.job.status.holds = true := by
  rw [← exitFor_isSome, h]
  rfl

/-- Whoever can reclaim is not the escrow itself. -/
theorem JobInv.exit_ne_this (hr : JobInv this r) {party : Address} {readyAt : Nat}
    (h : exitFor r = some (party, readyAt)) : party ≠ this := by
  rcases exitFor_party h with hclient | ⟨hvendor, hstatus⟩
  · rw [hclient]
    refine (hr.terms fun hnone => ?_).client_ne_this
    have hholds := exitFor_holds h
    rw [hnone] at hholds
    cases hholds
  · rw [hvendor]
    exact hr.vendor_ne_this (Or.inr hstatus)

theorem GuardedStep.jobInv (h : GuardedStep l jobId r r') (hr : JobInv this r) :
    JobInv this r' := by
  have hterms := h.sameTerms
  cases h with
  | funded haction hclient hstatus =>
      have hbooks := hr.books
      simp only [Books, hstatus] at hbooks
      obtain ⟨hfundings, hpayouts, hchanges⟩ := hbooks
      exact {
        terms := fun _ => hterms.terms (hr.terms (by rw [hstatus]; decide))
        vendor_ne_this := fun h => by rcases h with h | h | h <;> cases h
        origin := fun h => by cases h
        books := ⟨⟨hclient, by simp [hfundings], [], by simp [hchanges], Nat.le_refl _⟩, hpayouts⟩ }
  | released haction hstatus =>
      exact hr.closing (by rw [hstatus]; rfl) hterms rfl rfl rfl fun hpayouts =>
        paidOut_of_single (Or.inr rfl) (by simp [hpayouts])
  | withdrawn haction hstatus =>
      have hbooks := hr.books
      simp only [Books, hstatus] at hbooks
      obtain ⟨hfundings, hpayouts, hchanges⟩ := hbooks
      exact {
        terms := fun _ => hterms.terms (hr.terms (by rw [hstatus]; decide))
        vendor_ne_this := fun h => by rcases h with h | h | h <;> cases h
        origin := fun h => by cases h
        books := Or.inl ⟨hfundings, hpayouts, by simp [hchanges]⟩ }
  | refunded haction hstatus =>
      exact hr.closing (by rw [hstatus]; rfl) hterms rfl rfl rfl fun hpayouts =>
        paidOut_of_single (Or.inl rfl) (by simp [hpayouts])
  | resolved haction hstatus hsum =>
      refine hr.closing (by rw [hstatus]; rfl) hterms rfl rfl rfl fun hpayouts => ⟨?_, ?_⟩
      · simp [hpayouts, Record.sum_side, hsum]
      · intro p hp
        simp only [Record.paySide_payouts, Record.close_payouts, hpayouts, List.nil_append,
          List.mem_append] at hp
        exact hp.symm.imp Record.mem_side Record.mem_side
  | reclaimed haction hsender hexit hready =>
      have hholds := exitFor_holds hexit
      have hparty := (exitFor_party hexit).imp_right And.left
      exact hr.closing hholds hterms rfl rfl rfl fun hpayouts =>
        paidOut_of_single hparty (by simp [hpayouts])

end Invariant

/-! ## The money of a record -/

/-- The money the escrow should hold of a token for a job. -/
def Record.held (token : Address) (r : Record) : Nat :=
  if r.job.status.holds = true then at_ r.job.token token r.job.amount.toNat else 0

/-- What of a token came in for a job. -/
def Record.got (token : Address) (r : Record) : Nat :=
  at_ r.job.token token (r.fundings.map fun p => p.2.toNat).sum

/-- What of a token went out for a job. -/
def Record.paid (token : Address) (r : Record) : Nat :=
  at_ r.job.token token (r.payouts.map fun p => p.2.toNat).sum

/-- The books of a job balance. -/
theorem JobInv.account {this : Address} {r : Record} (h : JobInv this r) (token : Address) :
    r.held token + r.paid token = r.got token := by
  have hbooks := h.books
  simp only [Record.held, Record.paid, Record.got]
  cases hstatus : r.job.status <;> simp only [Books, hstatus] at hbooks
  case none | proposed => simp [JobStatus.holds, hbooks.1, hbooks.2.1]
  case funded | inProgress | delivered | disputed =>
      simp [JobStatus.holds, hbooks.1.fundings, hbooks.2]
  case completed | resolved | reclaimed =>
      simp [JobStatus.holds, hbooks.1.fundings, hbooks.2.total]
  case cancelled =>
      rcases hbooks with ⟨hfundings, hpayouts, -⟩ | ⟨hfunded, hpaid⟩
      · simp [JobStatus.holds, hfundings, hpayouts]
      · simp [JobStatus.holds, hfunded.fundings, hpaid.total]

@[simp] theorem got_noRecord (token : Address) : noRecord.got token = 0 := at_zero _ _

@[simp] theorem paid_noRecord (token : Address) : noRecord.paid token = 0 := at_zero _ _

/-- Free steps move no money. -/
theorem FreeStep.money {this : Address} {timestamp : Uint64} {r r' : Record}
    (h : ReflTransGen (FreeStep this timestamp) r r') (token : Address) :
    r'.got token = r.got token ∧ r'.paid token = r.paid token := by
  induction h with
  | refl => exact ⟨rfl, rfl⟩
  | tail _ hstep ih =>
      rw [← ih.1, ← ih.2]
      cases hstep with
      | created => simp [Record.got, Record.paid, noRecord]
      | started | delivered | disputed => exact ⟨rfl, rfl⟩

theorem Record.got_fund (token : Address) (r : Record) (from_ : Address) (amount : Uint256) :
    (r.fund from_ amount).got token = r.got token + at_ r.job.token token amount.toNat := by
  simp [Record.got, at_add]

theorem Record.paid_pay (token : Address) (r : Record) (to_ : Address) (amount : Uint256) :
    (r.pay to_ amount).paid token = r.paid token + at_ r.job.token token amount.toNat := by
  simp [Record.paid, at_add]

end AgentEscrow

end Strimz
