import Strimz.EscrowSolvency

/-!
# The way out of the escrow

A job that holds money always has a party who can reclaim it, from a moment that is
known, and nothing in the contract can stand in the way of it. Status changes restamp the
clock, but there are at most four of them after funding, so a party that reclaims when it
can gets the money out by a date fixed at funding.
-/

namespace Strimz.AgentEscrow

open Tx Relation Ledger Runs

/-- A token that pays out what the escrow has. -/
structure LiveToken {ξ : Type} (O : Outside ξ) (this : Address)
    (balance : ξ → Address → Address → Nat) : Prop where
  pays : ∀ {msg token dst value c}, msg.sender = this → dst ≠ 0 →
    value.toNat ≤ balance c.ext token this → ∃ c', O.safeTransfer msg token dst value c = .ok c'

/-- The party that can reclaim the job does so: whatever call comes after a deadline is its
reclaim. Calls in the deadline's own block may come first. -/
def Punctual {ξ : Type} (O : Outside ξ) (this : Address) (id : Nat) (c : Ctx Storage ξ)
    (ls : List (Label ξ)) : Prop :=
  ∀ n l party readyAt, ls[n]? = some l →
    exitFor ((stateAt (step O this) c ls n).storage.record id) = some (party, readyAt) →
      readyAt < l.time → l.msg.sender = party ∧ l.action = .reclaimAfterTimeout id

/-- How long after funding a status can begin, and how long after funding it can last. -/
def startsBy : JobStatus → Nat
  | .inProgress => START_TIMEOUT.toNat
  | .delivered => START_TIMEOUT.toNat + DELIVERY_TIMEOUT.toNat
  | .disputed => START_TIMEOUT.toNat + DELIVERY_TIMEOUT.toNat + APPROVAL_TIMEOUT.toNat
  | _ => 0

def endsBy : JobStatus → Nat
  | .funded => START_TIMEOUT.toNat
  | .inProgress => START_TIMEOUT.toNat + DELIVERY_TIMEOUT.toNat
  | .delivered => START_TIMEOUT.toNat + DELIVERY_TIMEOUT.toNat + APPROVAL_TIMEOUT.toNat
  | .disputed => START_TIMEOUT.toNat + DELIVERY_TIMEOUT.toNat + APPROVAL_TIMEOUT.toNat +
      DISPUTE_TIMEOUT.toNat
  | _ => 0

section Exit

variable {ξ : Type} {O : Outside ξ} {this : Address} {balance : ξ → Address → Address → Nat}
  {c : Ctx Storage ξ} {l : Label ξ} {id : Nat} {r r' : Record} {party : Address} {readyAt : Nat}

theorem exitFor_window (h : exitFor r = some (party, readyAt)) :
    ∃ window : Uint64, readyAt = r.job.statusChangedAt.toNat + window.toNat := by
  unfold exitFor at h
  split at h
  all_goals simp only [Option.some.injEq, Prod.mk.injEq, reduceCtorEq] at h
  · exact ⟨START_TIMEOUT, h.2.symm⟩
  · exact ⟨DELIVERY_TIMEOUT, h.2.symm⟩
  · exact ⟨APPROVAL_TIMEOUT, h.2.symm⟩
  · exact ⟨DISPUTE_TIMEOUT, h.2.symm⟩

theorem total_ge (f : Record → Nat) {s : Storage} (hid : id < s.nextJobId) :
    f (s.record id) ≤ total f s :=
  Finset.single_le_sum (f := fun j => f (s.record j)) (fun _ _ => Nat.zero_le _)
    (Finset.mem_range.mpr hid)

/-- The party with standing can reclaim from the deadline on. -/
theorem reclaimAfterTimeout_succeeds (hlive : LiveToken O this balance)
    (hc : Inv (· ≤ ·) this balance c) {msg : Msg}
    (hexit : exitFor (c.storage.record id) = some (party, readyAt)) (hsender : msg.sender = party)
    (hready : readyAt ≤ msg.timestamp.toNat) :
    ∃ c', reclaimAfterTimeout O this msg id c = .ok ((), c') := by
  have hholds := exitFor_holds hexit
  obtain ⟨hfunded, -⟩ := (hc.jobs id).books.held hholds
  have hnone : (c.storage.record id).job.status ≠ .none := by
    intro hnone
    rw [hnone] at hholds
    cases hholds
  obtain ⟨window, rfl⟩ := exitFor_window hexit
  have hrange := Nat.lt_of_le_of_lt hready msg.timestamp.isLt
  have hparty : party ≠ 0 := by
    rcases exitFor_party hexit with h | ⟨h, -⟩
    · rw [h]
      exact hfunded.client
    · rw [h]
      exact ((hc.jobs id).terms hnone).vendor
  have hcovered : (c.storage.jobs id).amount.toNat ≤
      balance c.ext (c.storage.jobs id).token this := by
    have hheld := Nat.le_trans (total_ge (Record.held (c.storage.jobs id).token)
      (hc.fresh.lt hnone)) (hc.held slack_le _)
    rw [Record.held, if_pos hholds] at hheld
    change at_ (c.storage.jobs id).token _ _ ≤ _ at hheld
    rwa [at_self] at hheld
  let s := ((Storage.setEntered true c.storage).setStatus id .reclaimed msg.timestamp).updateJob id
    (Job.stamped msg.timestamp)
  obtain ⟨c₂, hcall⟩ : ∃ c₂, O.safeTransfer ⟨this, msg.timestamp⟩ (c.storage.jobs id).token party
      (c.storage.jobs id).amount ⟨s, c.ext⟩ = .ok c₂ := hlive.pays rfl hparty hcovered
  let c₁ : Ctx Storage ξ :=
    ⟨(c₂.storage.addPayout id party (c.storage.jobs id).amount).log
      (.jobReclaimed id party (c.storage.jobs id).amount (c.storage.jobs id).status), c₂.ext⟩
  have hclaim : claim msg id (c.storage.jobs id) (c.storage.disputedFrom id)
      ⟨Storage.setEntered true c.storage, c.ext⟩ =
        .ok ((party, window), ⟨Storage.setEntered true c.storage, c.ext⟩) :=
    claim_eq_ok (r := c.storage.record id).mpr ⟨hexit, hsender, rfl⟩
  refine ⟨⟨Storage.setEntered false c₁.storage, c₁.ext⟩,
    guarded_eq_ok.mpr ⟨hc.entered, c₁, ?_, rfl⟩⟩
  simp only [bind_eq_ok, loadJob_eq_ok, sload_eq_ok, revertIf_eq_ok, setStatus_eq_ok,
    setCompletedAt_eq_ok, checkedAdd_eq_ok, payOut, reentrantCall_eq_ok, sstore_eq_ok, emit_eq_ok,
    Prod.mk.injEq, existsAndEq, exists_const, true_and, and_true, ne_eq]
  refine ⟨hfunded.client, (party, window), _, hclaim, hrange, ?_, c₂, hcall, rfl⟩
  rw [BitVec.lt_def, Nat.not_lt]
  exact Nat.le_trans (Nat.le_of_eq (BitVec.toNat_add_of_lt hrange)) hready

/-- What the reclaim of a job does to it. -/
theorem GuardedStep.of_reclaim (h : GuardedStep l id r r')
    (haction : l.action = .reclaimAfterTimeout id) (hexit : exitFor r = some (party, readyAt)) :
    r' = (r.close .reclaimed l.msg.timestamp).pay party r.job.amount := by
  cases h with
  | @reclaimed party' _ _ _ hexit' _ =>
      obtain rfl : party' = party := by
        rw [hexit] at hexit'
        exact (Prod.mk.inj (Option.some.inj hexit')).1.symm
      rfl
  | funded haction' | released haction' | resolved haction' => rw [haction] at haction'; cases haction'
  | withdrawn haction' | refunded haction' =>
      obtain ⟨_, haction'⟩ := haction'
      rw [haction] at haction'
      cases haction'

theorem reclaim_pays (hO : CallbackToken (· ≤ ·) O this balance)
    (hlive : LiveToken O this balance) (hc : Inv (· ≤ ·) this balance c)
    (hl : Foreign (· ≤ ·) this balance l) (haction : l.action = .reclaimAfterTimeout id)
    (hexit : exitFor (c.storage.record id) = some (party, readyAt)) (hsender : l.msg.sender = party)
    (hready : readyAt ≤ l.time) :
    ∃ c', dispatch O this l.msg l.action c = .ok ((), c') ∧ c'.storage.record id =
      ((c.storage.record id).close .reclaimed l.msg.timestamp).pay party
        (c.storage.record id).job.amount := by
  obtain ⟨c', h⟩ := reclaimAfterTimeout_succeeds hlive hc hexit hsender hready
  rw [← show dispatch O this l.msg l.action = reclaimAfterTimeout O this l.msg id from by
    rw [haction]; rfl] at h
  have hacts := dispatch_acts slack_le hO hl hc (by rw [haction]; rfl) h
  exact ⟨c', h, hacts.2.of_reclaim haction hexit⟩

/-! ## Deadlines -/

theorem exitFor_endsBy {t : Nat} (h : exitFor r = some (party, readyAt))
    (hr : r.job.statusChangedAt.toNat ≤ t + startsBy r.job.status) :
    readyAt ≤ t + endsBy r.job.status := by
  unfold exitFor at h
  cases hstatus : r.job.status <;> rw [hstatus] at h hr <;>
    simp only [Option.some.injEq, Prod.mk.injEq, reduceCtorEq] at h <;>
    simp only [startsBy, endsBy] at hr ⊢ <;> omega

theorem startsBy_le_endsBy (s : JobStatus) : startsBy s ≤ endsBy s := by
  cases s <;> decide

theorem endsBy_le (s : JobStatus) : endsBy s ≤ endsBy .disputed := by
  cases s <;> decide

/-- A job funded at `t` that is still open has kept to its schedule. -/
def OnTime (t : Nat) (r : Record) : Prop :=
  r.job.status.closed = true ∨
    r.job.status.holds = true ∧ r.job.statusChangedAt.toNat ≤ t + startsBy r.job.status

theorem FreeStep.onTime {timestamp : Uint64} {t : Nat} (h : FreeStep this timestamp r r')
    (hholds : r.job.status.holds = true) (ht : timestamp.toNat ≤ t + endsBy r.job.status) :
    r'.job.status.holds = true ∧ r'.job.statusChangedAt.toNat ≤ t + startsBy r'.job.status ∧
      timestamp.toNat ≤ t + endsBy r'.job.status := by
  have hstep : ∀ {next : JobStatus}, endsBy r.job.status ≤ startsBy next →
      timestamp.toNat ≤ t + startsBy next ∧ timestamp.toNat ≤ t + endsBy next := by
    intro next hle
    have := startsBy_le_endsBy next
    omega
  cases h with
  | created => cases hholds
  | started hstatus _ =>
      rw [hstatus] at hstep
      exact ⟨rfl, hstep (show endsBy .funded ≤ startsBy .inProgress by decide)⟩
  | delivered hstatus _ =>
      rw [hstatus] at hstep
      exact ⟨rfl, hstep (show endsBy .inProgress ≤ startsBy .delivered by decide)⟩
  | disputed hstatus =>
      refine ⟨rfl, hstep (show endsBy r.job.status ≤ startsBy .disputed from ?_)⟩
      rcases hstatus with hstatus | hstatus <;> rw [hstatus] <;> decide

theorem GuardedStep.closes (h : GuardedStep l id r r') (hholds : r.job.status.holds = true) :
    r'.job.status.closed = true := by
  cases h with
  | funded _ _ hstatus => rw [hstatus] at hholds; cases hholds
  | released | withdrawn | refunded | resolved | reclaimed => rfl

theorem JobMoves.onTime {t : Nat} (h : JobMoves this l id r r') (hr : OnTime t r)
    (hready : r.job.status.holds = true → l.time ≤ t + endsBy r.job.status) : OnTime t r' := by
  rcases hr with hclosed | ⟨hholds, hchanged⟩
  · rw [h.closed hclosed]
    exact Or.inl hclosed
  · rcases h with h | h
    · have hrun : r'.job.status.holds = true ∧
          r'.job.statusChangedAt.toNat ≤ t + startsBy r'.job.status ∧
            l.msg.timestamp.toNat ≤ t + endsBy r'.job.status := by
        induction h with
        | refl => exact ⟨hholds, hchanged, hready hholds⟩
        | tail _ hstep ih => exact hstep.onTime ih.1 ih.2.2
      exact Or.inr ⟨hrun.1, hrun.2.1⟩
    · exact Or.inl (h.closes hholds)

/-- One transaction of a punctual run: past the last deadline the job is closed. -/
theorem step_onTime (hO : CallbackToken (· ≤ ·) O this balance) (hlive : LiveToken O this balance)
    (hl : Foreign (· ≤ ·) this balance l) (hc : Inv (· ≤ ·) this balance c) {t : Nat}
    (hr : OnTime t (c.storage.record id))
    (hpunctual : ∀ party readyAt, exitFor (c.storage.record id) = some (party, readyAt) →
      readyAt < l.time → l.msg.sender = party ∧ l.action = .reclaimAfterTimeout id) :
    OnTime t ((step O this c l).storage.record id) ∧
      (t + endsBy .disputed < l.time →
        ((step O this c l).storage.record id).job.status.closed = true) := by
  have hmoves := (step_cases slack_le hO hl hc).moves id
  rcases hr with hclosed | ⟨hholds, hchanged⟩
  · rw [hmoves.closed hclosed]
    exact ⟨Or.inl hclosed, fun _ => hclosed⟩
  · by_cases hlate : l.time ≤ t + endsBy (c.storage.record id).job.status
    · refine ⟨hmoves.onTime (Or.inr ⟨hholds, hchanged⟩) fun _ => hlate, fun hlt => ?_⟩
      have := endsBy_le (c.storage.record id).job.status
      omega
    · obtain ⟨⟨party, readyAt⟩, hexit⟩ :=
        Option.isSome_iff_exists.mp ((exitFor_isSome _).trans hholds)
      have hready := Nat.lt_of_le_of_lt (exitFor_endsBy hexit hchanged) (Nat.not_le.mp hlate)
      obtain ⟨hsender, haction⟩ := hpunctual party readyAt hexit hready
      obtain ⟨c', h, hrecord⟩ := reclaim_pays hO hlive hc hl haction hexit hsender
        (Nat.le_of_lt hready)
      have hclosed : ((step O this c l).storage.record id).job.status.closed = true := by
        rw [step, commit_of_ok h, hrecord]
        rfl
      exact ⟨Or.inl hclosed, fun _ => hclosed⟩

theorem Punctual.tail {ls : List (Label ξ)} (h : Punctual O this id c (l :: ls)) :
    Punctual O this id (step O this c l) ls :=
  fun n _ party readyAt hl' hexit => h (n + 1) _ party readyAt hl' hexit

/-- In a punctual run the job is closed by the first call that comes after the last
deadline there can be. -/
theorem stateAt_closed (hO : CallbackToken (· ≤ ·) O this balance)
    (hlive : LiveToken O this balance) {ls : List (Label ξ)}
    (hls : ∀ l ∈ ls, Foreign (· ≤ ·) this balance l) (hc : Inv (· ≤ ·) this balance c) {t : Nat}
    (hr : OnTime t (c.storage.record id)) (hpunctual : Punctual O this id c ls) {n : Nat}
    (hl : ls[n]? = some l) (hlate : t + endsBy .disputed < l.time) :
    ((stateAt (step O this) c ls (n + 1)).storage.record id).job.status.closed = true := by
  induction ls generalizing c n with
  | nil => simp at hl
  | cons a ls ih =>
      have hstep := step_onTime hO hlive (hls a List.mem_cons_self) hc hr
        fun party readyAt hexit hready => hpunctual 0 a party readyAt rfl hexit hready
      cases n with
      | zero =>
          obtain rfl : a = l := by simpa using hl
          exact hstep.2 hlate
      | succ n =>
          exact ih (fun l hl => hls l (List.mem_cons_of_mem _ hl))
            ((step_cases slack_le hO (hls a List.mem_cons_self) hc).inv slack_le hc) hstep.1
            hpunctual.tail (by simpa using hl)

/-- A funded job has changed status at most four times since its funding. -/
theorem JobInv.changes (h : JobInv this r) (hr : r.fundings ≠ []) :
    ∃ since, r.changes = .funded :: since ∧ since.length ≤ 4 := by
  have hfunded : Funded r := by
    have hbooks := h.books
    unfold Books at hbooks
    split at hbooks
    all_goals first
      | exact hbooks.1
      | exact absurd hbooks.1 hr
      | exact (hbooks.resolve_left fun h => hr h.1).1
  obtain ⟨since, hchanges, hle⟩ := hfunded.changes
  exact ⟨since, hchanges, by omega⟩

end Exit

/-- Escrowed funds always have a way out. In every reachable state a job that holds money
names a party and a moment from which on that party's reclaim succeeds, paused or not and
whatever the whitelist says, and pays it exactly the amount; a funded job changes status at
most four times after its funding; and if whoever has standing reclaims when it can, the job
is closed once the four windows have passed, whatever everyone else does. -/
theorem funds_always_have_a_way_out {ξ : Type} (O : Outside ξ) (this : Address)
    (balance : ξ → Address → Address → Nat) (hO : CallbackToken (· ≤ ·) O this balance)
    (hlive : LiveToken O this balance) (hasRole : RoleTable) (tokenWhitelist : Address) (x : ξ)
    (ls : List (Label ξ)) (hls : ∀ l ∈ ls, Foreign (· ≤ ·) this balance l) (id : Nat) :
    let c := exec (step O this) ⟨deployed hasRole tokenWhitelist, x⟩ ls
    let r := c.storage.record id
    (r.job.status.holds = true →
      (r.job.status = .disputed → r.disputedFrom = .inProgress ∨ r.disputedFrom = .delivered) ∧
      ∃ party readyAt, exitFor r = some (party, readyAt) ∧
        ∀ msg, msg.sender = party → readyAt ≤ msg.timestamp.toNat →
          ∃ c', dispatch O this msg (.reclaimAfterTimeout id) c = .ok ((), c') ∧
            (c'.storage.record id).job.status = .reclaimed ∧
            (c'.storage.record id).payouts = [(party, r.job.amount)]) ∧
    (r.fundings ≠ [] → ∃ since, r.changes = .funded :: since ∧ since.length ≤ 4) ∧
    (r.job.status = .funded → ∀ more, (∀ l ∈ more, Foreign (· ≤ ·) this balance l) →
      Punctual O this id c more → ∀ n l, more[n]? = some l →
        r.job.statusChangedAt.toNat + (START_TIMEOUT.toNat + DELIVERY_TIMEOUT.toNat +
          APPROVAL_TIMEOUT.toNat + DISPUTE_TIMEOUT.toNat) < l.time →
        ((stateAt (step O this) c more (n + 1)).storage.record id).job.status.closed = true) := by
  intro c r
  have hc : Inv (· ≤ ·) this balance c :=
    exec_inv slack_le hO hls (inv_deployed fun _ => Nat.zero_le _)
  refine ⟨fun hholds => ⟨(hc.jobs id).origin, ?_⟩, (hc.jobs id).changes,
    fun hstatus more hmore hpunctual n l hl hlate => ?_⟩
  · obtain ⟨⟨party, readyAt⟩, hexit⟩ :=
      Option.isSome_iff_exists.mp ((exitFor_isSome r).trans hholds)
    refine ⟨party, readyAt, hexit, fun msg hsender hready => ?_⟩
    obtain ⟨c', h, hrecord⟩ := reclaim_pays (l := ⟨msg, .reclaimAfterTimeout id⟩) hO hlive hc
      ⟨hsender ▸ (hc.jobs id).exit_ne_this hexit, fun f hf => by cases hf⟩ rfl hexit hsender hready
    refine ⟨c', h, by rw [hrecord]; rfl, ?_⟩
    rw [hrecord, Record.pay_payouts, Record.close_payouts, ((hc.jobs id).books.held hholds).2]
    rfl
  · have honTime : OnTime r.job.statusChangedAt.toNat r := by
      refine Or.inr ?_
      rw [hstatus]
      exact ⟨rfl, Nat.le_refl _⟩
    exact stateAt_closed hO hlive hmore hc honTime hpunctual hl hlate

theorem sampleToken_live : LiveToken sampleToken 100 Wallets.balance where
  pays hsender _ henough := by
    refine ⟨_, dif_pos ?_⟩
    rw [hsender]
    exact henough

/-- Job 2 of the sample run is in progress since 7: its client gets the money back. -/
theorem sampleEscrow_reclaim : ∃ c', dispatch sampleToken 100 ⟨10, 2592007⟩
    (.reclaimAfterTimeout 2) sampleEscrowState = .ok ((), c') ∧
      (c'.storage.record 2).payouts = [(10, 500)] := by
  have h := funds_always_have_a_way_out sampleToken 100 Wallets.balance sampleToken_callback
    sampleToken_live (fun _ _ => false) 300 (Wallets.ofOwner 10 2000 (by decide)) sampleEscrowRun
    sampleEscrowRun_foreign 2
  obtain ⟨-, party, readyAt, hexit, hreclaim⟩ := h.1 (by decide)
  obtain ⟨rfl, rfl⟩ : 10 = party ∧ 2592007 = readyAt := by
    have hsample : exitFor (sampleEscrowState.storage.record 2) = some (10, 2592007) := by decide
    change exitFor (sampleEscrowState.storage.record 2) = _ at hexit
    rw [hsample] at hexit
    exact Prod.mk.inj (Option.some.inj hexit)
  obtain ⟨c', hc', -, hpayouts⟩ := hreclaim ⟨10, 2592007⟩ rfl (by decide)
  exact ⟨c', hc', hpayouts.trans (by decide)⟩

end Strimz.AgentEscrow
