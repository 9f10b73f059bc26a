import Strimz.EscrowCalls

/-!
# Steps of the escrow

One transaction of the escrow, as the jobs see it (`step_cases`): a guarded call takes
its own job one guarded step along, and whatever else happens to the jobs are free steps.
What came in for the jobs and what went out are accounted for along the way: a transfer
and the note of it keep the account (`payOut_within`, `pullIn_within`), nothing else
touches it.
-/

namespace Strimz.AgentEscrow

open Tx Relation Ledger Runs

/-! ## Totals over the jobs -/

def total (f : Record → Nat) (s : Storage) : Nat :=
  ∑ id ∈ Finset.range s.nextJobId, f (s.record id)

section Totals

variable {f : Record → Nat} {s s' : Storage} {id k : Nat}

theorem total_congr (hblank : f noRecord = 0) (hfresh : Fresh s)
    (hnext : s.nextJobId ≤ s'.nextJobId) (h : ∀ j, f (s'.record j) = f (s.record j)) :
    total f s' = total f s := by
  refine (Finset.sum_congr rfl fun j _ => h j).trans (Finset.sum_subset ?_ fun j _ hj => ?_).symm
  · exact Finset.range_subset_range.mpr hnext
  · rw [hfresh j (Nat.not_lt.mp fun hlt => hj (Finset.mem_range.mpr hlt)), hblank]

theorem total_add {u : Storage} (hid : id < s.nextJobId) (hnext : u.nextJobId = s.nextJobId)
    (hothers : ∀ j ≠ id, u.record j = s.record j)
    (h : f (u.record id) = f (s.record id) + k) : total f u = total f s + k := by
  have hmem : id ∈ Finset.range s.nextJobId := Finset.mem_range.mpr hid
  unfold total
  rw [hnext, ← Finset.add_sum_erase _ _ hmem, ← Finset.add_sum_erase _ _ hmem, h]
  rw [Finset.sum_congr rfl fun j hj => by rw [hothers j (Finset.ne_of_mem_erase hj)]]
  omega

end Totals

/-- The escrow's balance covers what came in for its jobs less what went out. -/
def Solvent {ξ : Type} (R : Nat → Nat → Prop) (this : Address)
    (balance : ξ → Address → Address → Nat) (c : Ctx Storage ξ) : Prop :=
  ∀ token, R (total (Record.got token) c.storage)
    (balance c.ext token this + total (Record.paid token) c.storage)

/-- What a part of a guarded call about a job leaves, the job itself apart. -/
structure Within {ξ : Type} (R : Nat → Nat → Prop) (this : Address)
    (balance : ξ → Address → Address → Nat) (timestamp : Uint64) (id : Nat)
    (c c' : Ctx Storage ξ) : Prop where
  entered : c'.storage.entered = c.storage.entered
  next : c.storage.nextJobId ≤ c'.storage.nextJobId
  fresh : Fresh c'.storage
  others : ∀ j ≠ id, ReflTransGen (FreeStep this timestamp) (c.storage.record j)
    (c'.storage.record j)
  solvent : Solvent R this balance c → Solvent R this balance c'

section Within

variable {ξ : Type} {R : Nat → Nat → Prop} {O : Outside ξ} {this : Address}
  {balance : ξ → Address → Address → Nat} {timestamp : Uint64} {id : Nat}
  {c c₁ c' : Ctx Storage ξ} {msg : Msg} {token account : Address} {amount : Uint256}

theorem Within.trans (h : Within R this balance timestamp id c c₁)
    (h' : Within R this balance timestamp id c₁ c') : Within R this balance timestamp id c c' where
  entered := h'.entered.trans h.entered
  next := Nat.le_trans h.next h'.next
  fresh := h'.fresh
  others j hj := (h.others j hj).trans (h'.others j hj)
  solvent hc := h'.solvent (h.solvent hc)

/-- Free steps leave the account of the jobs as it is. -/
theorem Between.totals {inn out : Address → Nat} (h : Between R this balance timestamp inn out c c')
    (hfresh : Fresh c.storage) (t : Address) :
    total (Record.got t) c'.storage = total (Record.got t) c.storage ∧
      total (Record.paid t) c'.storage = total (Record.paid t) c.storage :=
  ⟨total_congr (got_noRecord t) hfresh h.next fun j => (FreeStep.money (h.records j) t).1,
    total_congr (paid_noRecord t) hfresh h.next fun j => (FreeStep.money (h.records j) t).2⟩

theorem Between.within (hR : Slack R) (h : Between R this balance timestamp 0 0 c c')
    (hfresh : Fresh c.storage) (id : Nat) : Within R this balance timestamp id c c' where
  entered := h.entered
  next := h.next
  fresh := h.fresh
  others j _ := h.records j
  solvent hc t := by
    rw [(h.totals hfresh t).1, (h.totals hfresh t).2]
    exact hR.trans (hc t) (hR.add _ (h.balances t))

/-- A write to the job's own record that moves no money. -/
theorem within_of_write {s : Storage} (hfresh : Fresh c.storage)
    (hentered : s.entered = c.storage.entered) (hnext : s.nextJobId = c.storage.nextJobId)
    (hid : id < c.storage.nextJobId) (hothers : ∀ j ≠ id, s.record j = c.storage.record j)
    (hgot : ∀ t, (s.record id).got t = (c.storage.record id).got t)
    (hpaid : ∀ t, (s.record id).paid t = (c.storage.record id).paid t) :
    Within R this balance timestamp id c ⟨s, c.ext⟩ where
  entered := hentered
  next := Nat.le_of_eq hnext.symm
  fresh j hj := by
    have hle : c.storage.nextJobId ≤ j := hnext ▸ hj
    rw [hothers j (by rintro rfl; exact absurd hid (Nat.not_lt.mpr hle))]
    exact hfresh j hle
  others j hj := by rw [hothers j hj]
  solvent hc t := by
    have hgot' := total_add (k := 0) hid hnext hothers (hgot t)
    have hpaid' := total_add (k := 0) hid hnext hothers (hpaid t)
    rw [Nat.add_zero] at hgot' hpaid'
    show R (total _ s) (balance c.ext t this + total _ s)
    rw [hgot', hpaid']
    exact hc t

/-- A transfer out of the escrow, and the note of it. -/
theorem payOut_within (hR : Slack R) (hO : CallbackToken R O this balance)
    (hentered : c.storage.entered = true) (hfresh : Fresh c.storage)
    (hfixed : (c.storage.record id).job.status.fixed = true)
    (htoken : (c.storage.record id).job.token = token) (haccount : account ≠ this)
    (h : payOut O this msg id token account amount c = .ok ((), c')) :
    Within R this balance msg.timestamp id c c' ∧
      c'.storage.record id = (c.storage.record id).pay account amount := by
  simp only [payOut, bind_eq_ok, reentrantCall_eq_ok, sstore_eq_ok, Prod.mk.injEq, existsAndEq,
    exists_const, true_and, and_true] at h
  obtain ⟨c₂, hcall, rfl⟩ := h
  have hbetween := (hO.safeTransfer hcall).between hR hentered hfresh
  have hsame : c₂.storage.record id = c.storage.record id := FreeStep.fixed (hbetween.records id) hfixed
  have hid : id < c₂.storage.nextJobId := hbetween.fresh.lt (by
    rw [hsame]
    rintro hnone
    rw [hnone] at hfixed
    cases hfixed)
  refine ⟨⟨hbetween.entered, hbetween.next, fun j hj => ?_, fun j hj => ?_, fun hc t => ?_⟩, ?_⟩
  · rw [record_addPayout_of_ne _ _ _ (by rintro rfl; exact absurd hid (Nat.not_lt.mpr hj))]
    exact hbetween.fresh j hj
  · rw [record_addPayout_of_ne _ _ _ hj]
    exact hbetween.records j
  · have hgot := total_add (f := Record.got t) (u := c₂.storage.addPayout id account amount)
      (k := 0) hid rfl (fun j hj => record_addPayout_of_ne _ _ _ hj)
      (by rw [record_addPayout]; rfl)
    have hpaid := total_add (f := Record.paid t) (u := c₂.storage.addPayout id account amount)
      (k := at_ token t amount.toNat) hid rfl (fun j hj => record_addPayout_of_ne _ _ _ hj)
      (by rw [record_addPayout, Record.paid_pay, hsame, htoken])
    have hbalance := hbetween.balances t
    rw [at_of_ne haccount, at_zero, Nat.add_zero, at_self] at hbalance
    show R (total (Record.got t) (c₂.storage.addPayout id account amount))
      (balance c₂.ext t this + total (Record.paid t) (c₂.storage.addPayout id account amount))
    rw [hgot, hpaid, (hbetween.totals hfresh t).1, (hbetween.totals hfresh t).2, Nat.add_zero,
      Nat.add_comm (total _ _), ← Nat.add_assoc]
    exact hR.trans (hc t) (hR.add _ hbalance)
  · rw [record_addPayout, hsame]

/-- A transfer into the escrow, and the note of it. -/
theorem pullIn_within (hR : Slack R) (hO : CallbackToken R O this balance)
    (hentered : c.storage.entered = true) (hfresh : Fresh c.storage)
    (hfixed : (c.storage.record id).job.status.fixed = true)
    (htoken : (c.storage.record id).job.token = token) (haccount : account ≠ this)
    (h : pullIn O this msg id token account amount c = .ok ((), c')) :
    Within R this balance msg.timestamp id c c' ∧
      c'.storage.record id = (c.storage.record id).fund account amount := by
  simp only [pullIn, bind_eq_ok, reentrantCall_eq_ok, sstore_eq_ok, Prod.mk.injEq, existsAndEq,
    exists_const, true_and, and_true] at h
  obtain ⟨c₂, hcall, rfl⟩ := h
  have hbetween := (hO.safeTransferFrom hcall).between hR hentered hfresh
  have hsame : c₂.storage.record id = c.storage.record id := FreeStep.fixed (hbetween.records id) hfixed
  have hid : id < c₂.storage.nextJobId := hbetween.fresh.lt (by
    rw [hsame]
    rintro hnone
    rw [hnone] at hfixed
    cases hfixed)
  refine ⟨⟨hbetween.entered, hbetween.next, fun j hj => ?_, fun j hj => ?_, fun hc t => ?_⟩, ?_⟩
  · rw [record_addFunding_of_ne _ _ _ (by rintro rfl; exact absurd hid (Nat.not_lt.mpr hj))]
    exact hbetween.fresh j hj
  · rw [record_addFunding_of_ne _ _ _ hj]
    exact hbetween.records j
  · have hgot := total_add (f := Record.got t) (u := c₂.storage.addFunding id account amount)
      (k := at_ token t amount.toNat) hid rfl (fun j hj => record_addFunding_of_ne _ _ _ hj)
      (by rw [record_addFunding, Record.got_fund, hsame, htoken])
    have hpaid := total_add (f := Record.paid t) (u := c₂.storage.addFunding id account amount)
      (k := 0) hid rfl (fun j hj => record_addFunding_of_ne _ _ _ hj)
      (by rw [record_addFunding]; rfl)
    have hbalance := hbetween.balances t
    rw [at_of_ne haccount, at_zero, Nat.add_zero, at_self] at hbalance
    show R (total (Record.got t) (c₂.storage.addFunding id account amount))
      (balance c₂.ext t this + total (Record.paid t) (c₂.storage.addFunding id account amount))
    rw [hgot, hpaid, (hbetween.totals hfresh t).1, (hbetween.totals hfresh t).2, Nat.add_zero]
    have hcovered := hR.add (at_ token t amount.toNat) (hc t)
    rw [Nat.add_right_comm] at hcovered
    exact hR.trans hcovered (hR.add _ hbalance)
  · rw [record_addFunding, hsame]

/-- A write that no job notices. -/
theorem within_of_same {s : Storage} (hfresh : Fresh c.storage)
    (hentered : s.entered = c.storage.entered) (hnext : s.nextJobId = c.storage.nextJobId)
    (hrecords : ∀ j, s.record j = c.storage.record j) :
    Within R this balance timestamp id c ⟨s, c.ext⟩ where
  entered := hentered
  next := Nat.le_of_eq hnext.symm
  fresh j hj := by
    rw [hrecords]
    exact hfresh j (hnext ▸ hj)
  others j _ := by rw [hrecords]
  solvent hc t := by
    unfold Solvent total at *
    simpa only [hnext, hrecords] using hc t

/-! ## The guarded functions -/

/-- What a guarded call about a job leaves: its own job one guarded step further. -/
def Acts (R : Nat → Nat → Prop) (this : Address) (balance : ξ → Address → Address → Nat)
    (l : Label ξ) (id : Nat) (c c' : Ctx Storage ξ) : Prop :=
  Within R this balance l.msg.timestamp id c c' ∧
    GuardedStep l id (c.storage.record id) (c'.storage.record id)

variable {l : Label ξ}

theorem nonReentrant_acts {body : Call ξ Unit} (hfresh : Fresh c.storage)
    (h : nonReentrant body c = .ok ((), c'))
    (hbody : ∀ c₀ c₁, c₀.storage.entered = true → Fresh c₀.storage →
      c₀.storage.record id = c.storage.record id →
      body c₀ = .ok ((), c₁) → Acts R this balance l id c₀ c₁) : Acts R this balance l id c c' := by
  obtain ⟨hentered, c₁, hrun, rfl⟩ := guarded_eq_ok.mp h
  obtain ⟨hwithin, hstep⟩ := hbody ⟨c.storage.setEntered true, c.ext⟩ c₁ rfl hfresh rfl hrun
  exact ⟨⟨hentered.symm, hwithin.next, hwithin.fresh, hwithin.others, hwithin.solvent⟩, hstep⟩

theorem setStatus_within (hfresh : Fresh c.storage)
    (hstatus : (c.storage.record id).job.status ≠ .none) (next : JobStatus) :
    Within R this balance timestamp id c ⟨c.storage.setStatus id next timestamp, c.ext⟩ :=
  within_of_write hfresh rfl rfl (hfresh.lt hstatus)
    (fun j hj => record_setStatus_of_ne _ _ hj)
    (fun t => by rw [record_setStatus]; rfl) fun t => by rw [record_setStatus]; rfl

theorem close_within (hfresh : Fresh c.storage)
    (hstatus : (c.storage.record id).job.status ≠ .none) (next : JobStatus) :
    Within R this balance timestamp id c
      ⟨(c.storage.setStatus id next timestamp).updateJob id (Job.stamped timestamp), c.ext⟩ :=
  within_of_write hfresh rfl rfl (hfresh.lt hstatus)
    (fun j hj => by rw [record_updateJob_of_ne _ _ hj, record_setStatus_of_ne _ _ hj])
    (fun t => by rw [record_stamped]; rfl) fun t => by rw [record_stamped]; rfl

theorem paySide_within (hR : Slack R) (hO : CallbackToken R O this balance) {party : Job → Address}
    (hentered : c.storage.entered = true) (hfresh : Fresh c.storage)
    (hfixed : (c.storage.record id).job.status.fixed = true)
    (haccount : party (c.storage.record id).job ≠ this)
    (h : paySide O this msg id party amount c = .ok ((), c')) :
    Within R this balance msg.timestamp id c c' ∧
      c'.storage.record id =
        (c.storage.record id).paySide (party (c.storage.record id).job) amount := by
  simp only [paySide, bind_eq_ok, readJob_eq_ok, ite_eq_ok, pure_eq_ok, Prod.mk.injEq, existsAndEq,
    true_and] at h
  rcases h with ⟨hpos, hpay⟩ | ⟨hzero, rfl⟩
  · obtain ⟨hwithin, hrecord⟩ := payOut_within hR hO hentered hfresh hfixed rfl haccount hpay
    refine ⟨hwithin, hrecord.trans ?_⟩
    rw [Record.paySide, Record.side, if_pos hpos]
    rfl
  · refine ⟨within_of_same hfresh rfl rfl fun _ => rfl, ?_⟩
    rw [Record.paySide, Record.side, if_neg hzero, List.append_nil]

/-- Who may reclaim, and the window, as `exitFor` has them. -/
theorem claim_eq_ok {r : Record} {p : Address × Uint64} :
    claim msg id r.job r.disputedFrom c = .ok (p, c') ↔
      exitFor r = some (p.1, r.job.statusChangedAt.toNat + p.2.toNat) ∧ msg.sender = p.1 ∧
        c' = c := by
  obtain ⟨party, window⟩ := p
  have hside : ∀ (account : Address) (w : Uint64) (e : Revert),
      (do revertIf (msg.sender ≠ account) e; return (account, w) : Call ξ (Address × Uint64)) c =
          .ok ((party, window), c') ↔
        some (account, r.job.statusChangedAt.toNat + w.toNat) =
          some (party, r.job.statusChangedAt.toNat + window.toNat) ∧ msg.sender = party ∧
            c' = c := by
    intro account w e
    simp only [bind_eq_ok, revertIf_eq_ok, pure_eq_ok, Prod.mk.injEq, existsAndEq, exists_const,
      true_and, and_true, ne_eq, not_not, Option.some.injEq, Nat.add_left_cancel_iff,
      BitVec.toNat_inj]
    constructor
    · rintro ⟨hsender, ⟨rfl, rfl⟩, hc⟩
      exact ⟨⟨rfl, rfl⟩, hsender, hc⟩
    · rintro ⟨⟨rfl, rfl⟩, hsender, hc⟩
      exact ⟨hsender, ⟨rfl, rfl⟩, hc⟩
  unfold claim exitFor
  cases r.job.status
  case funded | inProgress | delivered => exact hside _ _ _
  case disputed =>
      by_cases hfrom : r.disputedFrom = .delivered
      · simp only [standing, if_pos hfrom]
        exact hside _ _ _
      · simp only [standing, if_neg hfrom]
        exact hside _ _ _
  all_goals simp [standing, throw_eq_ok]

theorem approveAndRelease_acts (hR : Slack R) (hO : CallbackToken R O this balance)
    (haction : l.action = .approveAndRelease id) (hfresh : Fresh c.storage)
    (hinv : JobInv this (c.storage.record id))
    (h : approveAndRelease O this l.msg id c = .ok ((), c')) : Acts R this balance l id c c' := by
  refine nonReentrant_acts hfresh h fun c₀ c₁ hentered hfresh hsame hrun => ?_
  rw [← hsame] at hinv
  simp only [bind_eq_ok, loadJob_eq_ok, revertIf_eq_ok, setStatus_eq_ok, setCompletedAt_eq_ok,
    readJob_eq_ok, emit_eq_ok, Prod.mk.injEq, existsAndEq, exists_const, true_and, and_true,
    ne_eq, not_not] at hrun
  obtain ⟨-, hsender, hstatus, _, c₂, hpay, rfl⟩ := hrun
  change (c₀.storage.record id).job.status = .delivered at hstatus
  have hclose : Within R this balance l.msg.timestamp id c₀ _ :=
    close_within hfresh (by rw [hstatus]; decide) .completed
  obtain ⟨hpaid, hrecord⟩ := payOut_within hR hO (hclose.entered.trans hentered) hclose.fresh
    (by rw [record_stamped]; rfl) (by rw [record_stamped]; rfl)
    (hinv.vendor_ne_this (Or.inr (Or.inl hstatus))) hpay
  refine ⟨(hclose.trans hpaid).trans (within_of_same hpaid.fresh rfl rfl fun _ => rfl), ?_⟩
  show GuardedStep l id _ (c₂.storage.record id)
  rw [hrecord, record_stamped]
  exact .released haction hstatus

theorem fundJob_acts (hR : Slack R) (hO : CallbackToken R O this balance)
    (haction : l.action = .fundJob id) (hsender : l.msg.sender ≠ this) (hfresh : Fresh c.storage)
    (h : fundJob O this l.msg id c = .ok ((), c')) : Acts R this balance l id c c' := by
  simp only [fundJob, bind_eq_ok, sload_eq_ok, whenNotPaused_eq_ok, Prod.mk.injEq, existsAndEq,
    exists_const, true_and] at h
  refine nonReentrant_acts hfresh h.2 fun c₀ c₁ hentered hfresh hsame hrun => ?_
  simp only [bind_eq_ok, loadJob_eq_ok, revertIf_eq_ok, setStatus_eq_ok, staticcall_eq_ok,
    checkedSub_eq_ok, readJob_eq_ok, emit_eq_ok, Prod.mk.injEq, existsAndEq, exists_const,
    true_and, and_true, ne_eq, not_not] at hrun
  obtain ⟨hclient, hsender', hstatus, _, -, _, c₂, hpull, _, -, -, -, rfl⟩ := hrun
  change (c₀.storage.record id).job.status = .proposed at hstatus
  obtain ⟨hpulled, hrecord⟩ := pullIn_within hR hO hentered hfresh (by rw [hstatus]; rfl) rfl
    hsender hpull
  have hmove : Within R this balance l.msg.timestamp id c₂ _ :=
    setStatus_within hpulled.fresh
      (by rw [hrecord]; change (c₀.storage.record id).job.status ≠ _; rw [hstatus]; decide) .funded
  refine ⟨(hpulled.trans hmove).trans (within_of_same hmove.fresh rfl rfl fun _ => rfl), ?_⟩
  show GuardedStep l id _ ((c₂.storage.setStatus id .funded l.msg.timestamp).record id)
  rw [record_setStatus, hrecord, hsender']
  exact .funded haction hclient hstatus

theorem cancelJob_acts (hR : Slack R) (hO : CallbackToken R O this balance) {reason : String}
    (haction : l.action = .cancelJob id reason) (hfresh : Fresh c.storage)
    (hinv : JobInv this (c.storage.record id))
    (h : cancelJob O this l.msg id reason c = .ok ((), c')) : Acts R this balance l id c c' := by
  refine nonReentrant_acts hfresh h fun c₀ c₁ hentered hfresh hsame hrun => ?_
  rw [← hsame] at hinv
  simp only [bind_eq_ok, loadJob_eq_ok, revertIf_eq_ok, setStatus_eq_ok, ite_eq_ok,
    readJob_eq_ok, emit_eq_ok, Prod.mk.injEq, existsAndEq, exists_const, true_and, and_true,
    ne_eq, not_and_or, not_not] at hrun
  obtain ⟨-, -, hstatus, hrun⟩ := hrun
  change (c₀.storage.record id).job.status = .proposed ∨
    (c₀.storage.record id).job.status = .funded at hstatus
  have hnone : (c₀.storage.record id).job.status ≠ .none := by
    rcases hstatus with h | h <;> rw [h] <;> decide
  have hmove : Within R this balance l.msg.timestamp id c₀ _ :=
    setStatus_within hfresh hnone .cancelled
  rcases hrun with ⟨hfunded, _, c₂, hpay, rfl⟩ | ⟨hfunded, rfl⟩
  · obtain ⟨hpaid, hrecord⟩ := payOut_within hR hO (hmove.entered.trans hentered) hmove.fresh
      (by rw [record_setStatus]; rfl) (by rw [record_setStatus]; rfl)
      (hinv.terms hnone).client_ne_this hpay
    refine ⟨(hmove.trans hpaid).trans (within_of_same hpaid.fresh rfl rfl fun _ => rfl), ?_⟩
    show GuardedStep l id _ (c₂.storage.record id)
    rw [hrecord, record_setStatus]
    exact .refunded ⟨reason, haction⟩ hfunded
  · refine ⟨hmove.trans (within_of_same hmove.fresh rfl rfl fun _ => rfl), ?_⟩
    rw [record_log, record_setStatus]
    exact .withdrawn ⟨reason, haction⟩ (hstatus.resolve_right hfunded)

theorem resolveDispute_acts (hR : Slack R) (hO : CallbackToken R O this balance)
    {toVendor toClient : Uint256}
    (haction : l.action = .resolveDispute id toVendor toClient) (hfresh : Fresh c.storage)
    (hinv : JobInv this (c.storage.record id))
    (h : resolveDispute O this l.msg id toVendor toClient c = .ok ((), c')) :
    Acts R this balance l id c c' := by
  simp only [resolveDispute, bind_eq_ok, sload_eq_ok, onlyRole_eq_ok, Prod.mk.injEq, existsAndEq,
    exists_const, true_and] at h
  refine nonReentrant_acts hfresh h.2 fun c₀ c₁ hentered hfresh hsame hrun => ?_
  rw [← hsame] at hinv
  simp only [bind_eq_ok, loadJob_eq_ok, revertIf_eq_ok, setStatus_eq_ok, setCompletedAt_eq_ok,
    checkedAdd_eq_ok, emit_eq_ok, Prod.mk.injEq, existsAndEq, exists_const, true_and, and_true,
    ne_eq, not_not] at hrun
  obtain ⟨-, hstatus, hrange, hsum, _, c₂, hvendor, _, c₃, hclient, rfl⟩ := hrun
  change (c₀.storage.record id).job.status = .disputed at hstatus
  have hnone : (c₀.storage.record id).job.status ≠ .none := by rw [hstatus]; decide
  have hclose : Within R this balance l.msg.timestamp id c₀ _ :=
    close_within hfresh hnone .resolved
  obtain ⟨hpaid, hrecord⟩ := paySide_within hR hO (hclose.entered.trans hentered) hclose.fresh
    (by rw [record_stamped]; rfl)
    (by rw [record_stamped]; exact hinv.vendor_ne_this (Or.inr (Or.inr hstatus))) hvendor
  rw [record_stamped] at hrecord
  obtain ⟨hpaid', hrecord'⟩ := paySide_within hR hO
    (hpaid.entered.trans (hclose.entered.trans hentered)) hpaid.fresh (by rw [hrecord]; rfl)
    (by rw [hrecord]; exact (hinv.terms hnone).client_ne_this) hclient
  refine ⟨((hclose.trans hpaid).trans hpaid').trans
    (within_of_same hpaid'.fresh rfl rfl fun _ => rfl), ?_⟩
  show GuardedStep l id _ (c₃.storage.record id)
  rw [hrecord', hrecord]
  refine .resolved haction hstatus ?_
  rw [← BitVec.toNat_add_of_lt hrange, hsum]
  rfl

theorem reclaimAfterTimeout_acts (hR : Slack R) (hO : CallbackToken R O this balance)
    (haction : l.action = .reclaimAfterTimeout id) (hfresh : Fresh c.storage)
    (hinv : JobInv this (c.storage.record id))
    (h : reclaimAfterTimeout O this l.msg id c = .ok ((), c')) :
    Acts R this balance l id c c' := by
  refine nonReentrant_acts hfresh h fun c₀ c₁ hentered hfresh hsame hrun => ?_
  rw [← hsame] at hinv
  simp only [bind_eq_ok, loadJob_eq_ok, sload_eq_ok, revertIf_eq_ok, setStatus_eq_ok,
    setCompletedAt_eq_ok, checkedAdd_eq_ok, emit_eq_ok, Prod.mk.injEq, existsAndEq, exists_const,
    true_and, and_true, ne_eq] at hrun
  obtain ⟨-, p, _, hclaim, hrange, hready, _, c₂, hpay, rfl⟩ := hrun
  obtain ⟨hexit, hsender, hc⟩ := claim_eq_ok.mp (show claim l.msg id (c₀.storage.record id).job
    (c₀.storage.record id).disputedFrom c₀ = _ from hclaim)
  rw [hc] at hpay
  have hholds := exitFor_holds hexit
  have hnone : (c₀.storage.record id).job.status ≠ .none := by
    intro hnone
    rw [hnone] at hholds
    cases hholds
  have hclose : Within R this balance l.msg.timestamp id c₀ _ :=
    close_within hfresh hnone .reclaimed
  obtain ⟨hpaid, hrecord⟩ := payOut_within hR hO (hclose.entered.trans hentered) hclose.fresh
    (by rw [record_stamped]; rfl) (by rw [record_stamped]; rfl) (hinv.exit_ne_this hexit) hpay
  refine ⟨(hclose.trans hpaid).trans (within_of_same hpaid.fresh rfl rfl fun _ => rfl), ?_⟩
  show GuardedStep l id _ (c₂.storage.record id)
  rw [hrecord, record_stamped]
  refine .reclaimed haction hsender hexit ?_
  rw [BitVec.lt_def, Nat.not_lt, BitVec.toNat_add_of_lt hrange] at hready
  exact hready

end Within

/-! ## One transaction -/

/-- What every reachable state of the escrow satisfies. -/
structure Inv {ξ : Type} (R : Nat → Nat → Prop) (this : Address)
    (balance : ξ → Address → Address → Nat) (c : Ctx Storage ξ) : Prop where
  entered : c.storage.entered = false
  fresh : Fresh c.storage
  jobs : ∀ id, JobInv this (c.storage.record id)
  solvent : Solvent R this balance c

/-- What a transaction can leave. -/
inductive Stepped {ξ : Type} (R : Nat → Nat → Prop) (this : Address)
    (balance : ξ → Address → Address → Nat) (l : Label ξ) (c : Ctx Storage ξ) :
    Ctx Storage ξ → Prop where
  | same : Stepped R this balance l c c
  | unguarded {c' : Ctx Storage ξ} (hguards : l.action.guards = none)
      (h : Between R this balance l.msg.timestamp 0 0 c c') : Stepped R this balance l c c'
  | guarded {c' : Ctx Storage ξ} {id : Nat} (hguards : l.action.guards = some id)
      (h : Acts R this balance l id c c') : Stepped R this balance l c c'

section Transaction

variable {ξ : Type} {R : Nat → Nat → Prop} {O : Outside ξ} {this : Address}
  {balance : ξ → Address → Address → Nat} {id : Nat} {c c' : Ctx Storage ξ} {l : Label ξ}
  {ls : List (Label ξ)}

theorem dispatch_acts (hR : Slack R) (hO : CallbackToken R O this balance)
    (hl : Foreign R this balance l) (hc : Inv R this balance c)
    (hguards : l.action.guards = some id)
    (h : dispatch O this l.msg l.action c = .ok ((), c')) : Acts R this balance l id c c' := by
  cases haction : l.action with
  | fundJob j =>
      obtain rfl : j = id := by simpa [haction, Action.guards] using hguards
      rw [haction] at h
      exact fundJob_acts hR hO haction hl.sender hc.fresh h
  | approveAndRelease j =>
      obtain rfl : j = id := by simpa [haction, Action.guards] using hguards
      rw [haction] at h
      exact approveAndRelease_acts hR hO haction hc.fresh (hc.jobs j) h
  | cancelJob j reason =>
      obtain rfl : j = id := by simpa [haction, Action.guards] using hguards
      rw [haction] at h
      exact cancelJob_acts hR hO haction hc.fresh (hc.jobs j) h
  | resolveDispute j toVendor toClient =>
      obtain rfl : j = id := by simpa [haction, Action.guards] using hguards
      rw [haction] at h
      exact resolveDispute_acts hR hO haction hc.fresh (hc.jobs j) h
  | reclaimAfterTimeout j =>
      obtain rfl : j = id := by simpa [haction, Action.guards] using hguards
      rw [haction] at h
      exact reclaimAfterTimeout_acts hR hO haction hc.fresh (hc.jobs j) h
  | _ => rw [haction] at hguards; cases hguards

theorem step_cases (hR : Slack R) (hO : CallbackToken R O this balance)
    (hl : Foreign R this balance l) (hc : Inv R this balance c) :
    Stepped R this balance l c (step O this c l) :=
  commit_cases .same fun _ _ h => by
    cases hguards : l.action.guards with
    | none => exact .unguarded hguards (dispatch_between hR hl hguards hc.fresh h)
    | some id => exact .guarded hguards (dispatch_acts hR hO hl hc hguards h)

/-- A transaction as any one job sees it. -/
theorem Stepped.moves (h : Stepped R this balance l c c') (id : Nat) :
    JobMoves this l id (c.storage.record id) (c'.storage.record id) := by
  cases h with
  | same => exact Or.inl .refl
  | unguarded _ h => exact Or.inl (h.records id)
  | @guarded _ j _ h =>
      by_cases hj : id = j
      · subst hj
        exact Or.inr h.2
      · exact Or.inl (h.1.others id hj)

theorem Stepped.inv (hR : Slack R) (h : Stepped R this balance l c c')
    (hc : Inv R this balance c) : Inv R this balance c' where
  entered := by
    cases h with
    | same => exact hc.entered
    | unguarded _ h => exact h.entered.trans hc.entered
    | guarded _ h => exact h.1.entered.trans hc.entered
  fresh := by
    cases h with
    | same => exact hc.fresh
    | unguarded _ h => exact h.fresh
    | guarded _ h => exact h.1.fresh
  jobs id := (h.moves id).preserves FreeStep.jobInv GuardedStep.jobInv (hc.jobs id)
  solvent := by
    cases h with
    | same => exact hc.solvent
    | unguarded _ h => exact (h.within hR hc.fresh 0).solvent hc.solvent
    | guarded _ h => exact h.1.solvent hc.solvent

theorem exec_inv (hR : Slack R) (hO : CallbackToken R O this balance)
    (hls : ∀ l ∈ ls, Foreign R this balance l) (hc : Inv R this balance c) :
    Inv R this balance (exec (step O this) c ls) :=
  exec_invariant (P := Inv R this balance) hc fun _ l hl hc =>
    (step_cases hR hO (hls l hl) hc).inv hR hc

/-- What every step of a job preserves holds of it at the end of a run. -/
theorem exec_record {P : Record → Prop} (hR : Slack R) (hO : CallbackToken R O this balance)
    (hls : ∀ l ∈ ls, Foreign R this balance l) (hc : Inv R this balance c)
    (hmoves : ∀ l ∈ ls, ∀ {r r'}, JobMoves this l id r r' → P r → P r')
    (hP : P (c.storage.record id)) : P ((exec (step O this) c ls).storage.record id) :=
  (exec_invariant (P := fun c => Inv R this balance c ∧ P (c.storage.record id)) ⟨hc, hP⟩
    fun _ l hl hc => by
      have hstep := step_cases hR hO (hls l hl) hc.1
      exact ⟨hstep.inv hR hc.1, hmoves l hl (hstep.moves id) hc.2⟩).2

theorem inv_deployed {hasRole : RoleTable} {tokenWhitelist : Address} {x : ξ}
    (hx : ∀ token, R 0 (balance x token this)) :
    Inv R this balance ⟨deployed hasRole tokenWhitelist, x⟩ where
  entered := rfl
  fresh _ _ := rfl
  jobs _ := jobInv_noRecord
  solvent token := by
    have hgot : total (Record.got token) (deployed hasRole tokenWhitelist) = 0 :=
      Finset.sum_eq_zero fun _ _ => got_noRecord token
    have hpaid : total (Record.paid token) (deployed hasRole tokenWhitelist) = 0 :=
      Finset.sum_eq_zero fun _ _ => paid_noRecord token
    rw [hgot, hpaid, Nat.add_zero]
    exact hx token

/-- The balance of a solvent escrow covers the jobs that hold money. -/
theorem Inv.held (hR : Slack R) (hc : Inv R this balance c) (token : Address) :
    R (total (Record.held token) c.storage) (balance c.ext token this) := by
  have haccount : total (Record.held token) c.storage + total (Record.paid token) c.storage =
      total (Record.got token) c.storage := by
    rw [total, total, ← Finset.sum_add_distrib]
    exact Finset.sum_congr rfl fun id _ => (hc.jobs id).account token
  refine hR.cancel (total (Record.paid token) c.storage) ?_
  rw [haccount]
  exact hc.solvent token

end Transaction

end Strimz.AgentEscrow
