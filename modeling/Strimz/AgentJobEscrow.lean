import Strimz.AgentJobSteps
import Strimz.InFlight

/-!
# One escrow per job

The worker claims a job by moving it from `accepted` to `in_progress` in one statement, so
what matters is that a job is accepted once. It is, as long as no delivered job is approved:
`approveJob` takes `delivered` for a stage of the approval, while only the chain sets it, and
puts a job whose escrow is out back to `accepted`.
-/

namespace Strimz.Commerce

open Tx Runs Indexer InFlight

/-- The worker is about to send this job's escrow. -/
def Work.sends (id : RowId) : Work → Bool
  | .broadcasting job => job.id = id
  | _ => false

/-- The escrows of a job that went out or are about to. -/
def World.sentFor (w : World) (id : RowId) : Nat :=
  w.workers.countP (Work.sends id) + w.broadcasts.countP (·.jobId = id)

/-- Nothing has happened yet. -/
structure World.Launched (w : World) : Prop where
  jobs : w.db.agentJobs = []
  calls : w.calls = []
  queue : w.queue = []
  workers : w.workers = []
  broadcasts : w.broadcasts = []
  escrows : w.escrows = []
  logs : w.logs = []

/-- If the step is the update of `approveJob`, it does not find the job delivered. -/
def NotDelivered (w : World) : Label → Prop
  | .api k _ _ =>
      match w.calls[k]? with
      | some (.approving row) => ∀ j ∈ w.db.agentJobs, j.id = row.id → j.status ≠ .delivered
      | _ => True
  | _ => True

instance (w : World) : (l : Label) → Decidable (NotDelivered w l)
  | .api k _ _ => by
      unfold NotDelivered
      dsimp only
      split <;> infer_instance
  | .createJob _ _ | .approveJob _ _ | .dropCall _ | .take _ | .work _ _ | .dropWork _ | .mine _
  | .callEscrow _ _ _ | .project _ _ => isTrue trivial

theorem NotDelivered.status (h : NotDelivered w l) {j : AgentJobRow} (hj : j ∈ w.db.agentJobs)
    (hcall : ApprovalOf w l j.id) : j.status ≠ .delivered := by
  obtain ⟨k, id, now, row, rfl, hcall, hid⟩ := hcall
  unfold NotDelivered at h
  simp only [hcall] at h
  exact h j hj hid.symm

structure EscrowInv (w : World) : Prop where
  logs : w.EscrowLogs
  unique : (w.db.agentJobs.map (·.id)).Nodup
  known : ∀ id, 0 < w.sentFor id → id ∈ w.db.agentJobs.map (·.id)
  unsent : ∀ j ∈ w.db.agentJobs, Pending j.status → w.sentFor j.id = 0
  once : ∀ id, w.sentFor id ≤ 1

section Invariant

variable {S : Setup} {w w' : World} {l : Label}

theorem World.Launched.escrowInv (h : w.Launched) : EscrowInv w where
  logs := by simp [World.EscrowLogs, h.logs]
  unique := by simp [h.jobs]
  known := by simp [World.sentFor, h.workers, h.broadcasts]
  unsent := by simp [h.jobs]
  once := by simp [World.sentFor, h.workers, h.broadcasts]

/-- A step that claims nothing and sends nothing. -/
theorem EscrowInv.quiet (h : EscrowInv w) (hok : NotDelivered w l)
    (hrows : Rows S w l w') (hlogs : w'.EscrowLogs) (hsent : ∀ id, w'.sentFor id ≤ w.sentFor id) :
    EscrowInv w' := by
  have hknown : ∀ id, 0 < w'.sentFor id → id ∈ w.db.agentJobs.map (·.id) := fun id hid =>
    h.known id (Nat.lt_of_lt_of_le hid (hsent id))
  have honce : ∀ id, w'.sentFor id ≤ 1 := fun id => Nat.le_trans (hsent id) (h.once id)
  have hzero : ∀ {id}, w.sentFor id = 0 → w'.sentFor id = 0 := fun {id} hid =>
    Nat.le_zero.mp (hid ▸ hsent id)
  cases hrows with
  | moved f hf hjobs _ =>
      have hids : w'.db.agentJobs.map (·.id) = w.db.agentJobs.map (·.id) := by
        rw [hjobs, List.map_map]
        exact List.map_congr_left fun j _ => hf.id_eq j
      refine ⟨hlogs, hids ▸ h.unique, fun id hid => hids ▸ hknown id hid, ?_, honce⟩
      intro j' hj' hpending
      rw [hjobs] at hj'
      obtain ⟨j, hj, rfl⟩ := List.mem_map.mp hj'
      rw [hf.id_eq]
      rcases hf.pending hpending with hpending | ⟨hdelivered, hcall⟩
      · exact hzero (h.unsent j hj hpending)
      · exact absurd hdelivered (hok.status hj hcall)
  | inserted k id merchantId now cfg input spent jobsThen assessor hl hcall hfresh hjobs _ =>
      have hnew : id ∉ w.db.agentJobs.map (·.id) := fun hmem => by
        obtain ⟨j, hj, hid⟩ := List.mem_map.mp hmem
        exact hfresh j hj hid
      refine ⟨hlogs, ?_, fun i hi => ?_, ?_, honce⟩
      · rw [hjobs, List.map_append]
        refine List.nodup_append.mpr ⟨h.unique, List.nodup_singleton _, fun i hi i' hi' heq => ?_⟩
        have hid : i = id := heq.trans (List.mem_singleton.mp hi')
        exact hnew (hid ▸ hi)
      · rw [hjobs, List.map_append]
        exact List.mem_append_left _ (hknown i hi)
      · intro j hj hpending
        rw [hjobs] at hj
        rcases List.mem_append.mp hj with hj | hj
        · exact hzero (h.unsent j hj hpending)
        · rw [List.mem_singleton.mp hj]
          exact hzero (Nat.eq_zero_of_not_pos fun hpos => hnew (h.known id hpos))

/-- The claim: the job was accepted, so nothing was sent for it, and it is accepted no more. -/
theorem EscrowInv.claim (h : EscrowInv w) (l : Label) {job j₀ : AgentJobRow} (hj₀ : j₀ ∈ w.db.agentJobs)
    (hid : j₀.id = job.id) (haccepted : j₀.status = .accepted) (hlogs : w'.logs = w.logs)
    (hjobs : w'.db.agentJobs = w.db.agentJobs.map fun j =>
      if j.id = job.id ∧ j.status = .accepted then { j with status := .in_progress } else j)
    (hsent : ∀ id, w'.sentFor id = w.sentFor id + if job.id = id then 1 else 0) :
    EscrowInv w' := by
  have hf : RowMove w l fun j =>
      if j.id = job.id ∧ j.status = .accepted then { j with status := .in_progress } else j :=
    .claimed job.id
  have hids : w'.db.agentJobs.map (·.id) = w.db.agentJobs.map (·.id) := by
    rw [hjobs, List.map_map]
    exact List.map_congr_left fun j _ => hf.id_eq j
  have hnone : w.sentFor job.id = 0 := hid ▸ h.unsent j₀ hj₀ (.inr haccepted)
  refine ⟨fun lg hlg => h.logs lg (hlogs ▸ hlg), hids ▸ h.unique, fun id hpos => ?_, ?_,
    fun id => ?_⟩
  · rw [hids]
    by_cases hjob : job.id = id
    · rw [← hjob, ← hid]
      exact List.mem_map_of_mem hj₀
    · rw [hsent, if_neg hjob, Nat.add_zero] at hpos
      exact h.known id hpos
  · intro j' hj' hpending
    rw [hjobs] at hj'
    obtain ⟨j, hj, rfl⟩ := List.mem_map.mp hj'
    rw [hf.id_eq, hsent]
    by_cases hjob : job.id = j.id
    · -- ids are unique, so this is the row just claimed
      have hsame : j = j₀ := List.inj_on_of_nodup_map h.unique hj hj₀ (hjob.symm.trans hid.symm)
      rw [if_pos ⟨hjob.symm, hsame ▸ haccepted⟩] at hpending
      rcases hpending with hpending | hpending <;> cases hpending
    · rw [if_neg hjob, Nat.add_zero]
      rw [if_neg fun hboth => hjob hboth.1.symm] at hpending
      exact h.unsent j hj hpending
  · rw [hsent]
    by_cases hjob : job.id = id
    · rw [if_pos hjob, ← hjob, hnone]
    · rw [if_neg hjob]
      exact h.once id

/-- Past the claim nothing is sent that was not counted already. -/
theorem advanceWork_sent {k : Nat} {sent : Sent} {x : Work} (hx : w.workers[k]? = some x)
    (hclaim : ∀ job, x ≠ .claiming job) (id : RowId) :
    (advanceWork S w k sent).sentFor id ≤ w.sentFor id := by
  have hworkers := countP_erase hx (Work.sends id)
  unfold advanceWork
  dsimp only
  rw [hx]
  cases x with
  | claiming job => exact absurd rfl (hclaim job)
  | broadcasting job =>
      cases sent with
      | answered txHash =>
          show ((w.workers.eraseIdx k) ++ [_]).countP _ + (w.broadcasts ++ [_]).countP _ ≤ _
          rw [List.countP_append, List.countP_append, World.sentFor, hworkers]
          simp [Work.sends, World.broadcastFor]
          omega
      | unanswered txHash =>
          show (w.workers.eraseIdx k).countP _ + (w.broadcasts ++ [_]).countP _ ≤ _
          rw [List.countP_append, World.sentFor, hworkers]
          simp [Work.sends, World.broadcastFor]
          omega
      | failed => exact Nat.add_le_add_right (countP_erase_le _) _
  | recording jobId txHash => exact Nat.add_le_add_right (countP_erase_le _) _

/-- The invariant survives every step but the approval of a delivered job. -/
theorem EscrowInv.step (h : EscrowInv w) (hok : NotDelivered w l) :
    EscrowInv (Commerce.step S w l) := by
  have hquiet : (∀ id, (Commerce.step S w l).sentFor id ≤ w.sentFor id) →
      EscrowInv (Commerce.step S w l) := h.quiet hok (step_rows h.logs) h.logs.step
  cases l with
  | work k sent =>
      cases hx : w.workers[k]? with
      | none =>
          refine hquiet fun id => ?_
          show (advanceWork S w k sent).sentFor id ≤ _
          unfold advanceWork
          rw [hx]
      | some x =>
          cases x with
          | claiming job =>
              by_cases hany : w.db.agentJobs.any fun j => j.id = job.id ∧ j.status = .accepted
              · obtain ⟨j₀, hj₀, hfound⟩ := List.any_eq_true.mp hany
                obtain ⟨hid, haccepted⟩ := of_decide_eq_true hfound
                have hstep : advanceWork S w k sent =
                    ((w.setWorkers (w.workers.eraseIdx k)).updateJobs
                      (fun j => j.id = job.id ∧ j.status = .accepted)
                      fun j => { j with status := .in_progress }).setWorkers
                        (w.workers.eraseIdx k ++ [Work.broadcasting job]) := by
                  unfold advanceWork
                  simp only [hx, hany, if_true]
                  rfl
                show EscrowInv (advanceWork S w k sent)
                rw [hstep]
                refine h.claim (.work k sent) hj₀ hid haccepted rfl ?_ fun id => ?_
                · simp [World.setWorkers, World.updateJobs, World.setDb, Db.mapAgentJobs]
                · show (w.workers.eraseIdx k ++ [Work.broadcasting job]).countP _ +
                    w.broadcasts.countP _ = _
                  rw [World.sentFor, countP_erase hx, List.countP_append]
                  simp [Work.sends]
                  omega
              · refine hquiet fun id => ?_
                show (advanceWork S w k sent).sentFor id ≤ _
                unfold advanceWork
                simp only [hx, hany]
                exact Nat.add_le_add_right (countP_erase_le _) _
          | broadcasting job => exact hquiet (advanceWork_sent hx (fun _ h => by cases h))
          | recording jobId txHash => exact hquiet (advanceWork_sent hx (fun _ h => by cases h))
  | createJob merchantId input =>
      refine hquiet fun id => ?_
      show (createJob S merchantId input w).sentFor id ≤ _
      unfold createJob
      dsimp only
      split <;> exact Nat.le_refl _
  | approveJob merchantId id =>
      refine hquiet fun i => ?_
      show (approveJob merchantId id w).sentFor i ≤ _
      unfold approveJob
      split <;> exact Nat.le_refl _
  | api k id now =>
      refine hquiet fun i => ?_
      show (advanceCall S w k id now).sentFor i ≤ _
      unfold advanceCall
      dsimp only
      split
      · exact Nat.le_refl _
      · split
        · exact Nat.le_refl _
        · split
          · split <;> exact Nat.le_refl _
          · exact Nat.le_refl _
      · split <;> exact Nat.le_refl _
      · exact Nat.le_refl _
  | dropCall k => exact hquiet fun _ => Nat.le_refl _
  | take k =>
      refine hquiet fun i => ?_
      simp only [Commerce.step]
      split
      · exact Nat.le_refl _
      · show (w.workers ++ [_]).countP _ + _ ≤ _
        rw [List.countP_append]
        exact Nat.le_refl _
  | dropWork k => exact hquiet fun _ => Nat.add_le_add_right (countP_erase_le _) _
  | mine k =>
      refine hquiet fun i => ?_
      show (mine S w k).sentFor i ≤ _
      unfold mine
      split
      · exact Nat.le_refl _
      · rename_i b hb
        split
        · exact Nat.le_refl _
        · have hsame : (w.broadcasts.set k { b with mined := true }).countP (·.jobId = i) =
              w.broadcasts.countP (·.jobId = i) := countP_set hb rfl
          exact Nat.le_of_eq (congrArg (w.workers.countP (Work.sends i) + ·) hsame)
  | callEscrow j action txHash =>
      refine hquiet fun i => ?_
      show (callEscrow S w j action txHash).sentFor i ≤ _
      unfold callEscrow
      split
      · exact Nat.le_refl _
      · split <;> exact Nat.le_refl _
  | project n t =>
      refine hquiet fun i => ?_
      show (projectLog S w n t).sentFor i ≤ _
      unfold projectLog
      split <;> exact Nat.le_refl _

end Invariant

/-! ## Runs -/

/-- Whatever the order of requests, workers, crashes and projections, at every moment at most
one escrow went out for each job. -/
def OneEscrow (S : Setup) (w₀ : World) (ls : List Label) : Prop :=
  ∀ n id, (stateAt (step S) w₀ ls n).broadcasts.countP (·.jobId = id) ≤ 1

/-- No update of `approveJob` finds its job delivered. -/
def NeverDelivered (S : Setup) (w₀ : World) (ls : List Label) : Prop :=
  ∀ n l, ls[n]? = some l → NotDelivered (stateAt (step S) w₀ ls n) l

/-- As long as no delivered job is approved, a job is escrowed at most once. -/
theorem one_escrow_per_job (S : Setup) (w₀ : World) (ls : List Label) (h0 : w₀.Launched)
    (hok : NeverDelivered S w₀ ls) : OneEscrow S w₀ ls := by
  intro n id
  have hinv : EscrowInv (stateAt (step S) w₀ ls n) :=
    stateAt_induct (m := 0) h0.escrowInv (fun i l _ hl hi => hi.step (hok i l hl)) (Nat.zero_le n)
  exact Nat.le_trans (Nat.le_add_left _ _) (hinv.once id)

section Delivered

def commerceOn : AgentMerchantConfig := { enabledCapabilities := [.commerce] }

def shop : Setup where
  projector := ⟨.test, fun _ => some .usdc, 1, fun _ => none, fun _ => none⟩
  configs := fun _ => some commerceOn
  payoutAddress := fun _ => some 7
  tokenAddress := fun _ => 3
  account := 5
  escrowAddress := 6
  monthStart := 0

def launched : World := ⟨Db.empty, fun _ => ⟨"", 0, .usdc, 0, 0⟩, [], [], [], [], [], []⟩

theorem launched_launched : launched.Launched := ⟨rfl, rfl, rfl, rfl, rfl, rfl, rfl⟩

/-- A job is created, escrowed and linked to its escrow. -/
def escrowed : List Label :=
  [.createJob [1] ⟨8, "translate the manual", 5000000, .usdc, none⟩, .api 0 [9] 100,
   .api 0 [9] 100, .take 0, .work 0 .failed, .work 0 (.answered 11), .work 0 .failed, .mine 0,
   .project 0 200]

/-- Its client funds it, its vendor delivers it, and the merchant approves the delivery. -/
def approvedDelivery : List Label :=
  escrowed ++
  [.callEscrow 0 .fundJob 12, .project 1 300, .callEscrow 0 .startJob 13, .project 2 400,
   .callEscrow 0 (.submitDeliverable 77) 14, .project 3 500, .approveJob [1] [9], .api 0 [9] 600,
   .api 0 [9] 600, .take 1, .work 0 .failed, .work 0 (.answered 15)]

/-- Approving a delivered job sends its escrow again. -/
theorem delivered_job_escrowed_twice : ¬ OneEscrow shop launched approvedDelivery := by
  intro h
  have htwo : (stateAt (step shop) launched approvedDelivery 21).broadcasts.countP
      (·.jobId = [9]) = 2 := by decide +kernel
  have hone := h 21 [9]
  omega

/-- A job over the limit, approved twice, and the queue's job taken twice. -/
def approvedTwice : List Label :=
  [.createJob [1] ⟨8, "translate the manual", 2000000000, .usdc, none⟩, .api 0 [9] 100,
   .approveJob [1] [9], .approveJob [1] [9], .api 0 [9] 200, .api 0 [9] 200, .api 0 [9] 200,
   .take 0, .take 0, .work 0 .failed, .work 0 .failed, .work 0 (.unanswered 11), .take 0,
   .work 0 .failed, .mine 0]

theorem one_escrow_per_job_approvedTwice : OneEscrow shop launched approvedTwice := by
  have hall : ∀ n, (h : n < approvedTwice.length) →
      NotDelivered (stateAt (step shop) launched approvedTwice n) approvedTwice[n] := by
    decide +kernel
  refine one_escrow_per_job shop launched approvedTwice launched_launched fun n l hl => ?_
  obtain ⟨hn, rfl⟩ := List.getElem?_eq_some_iff.mp hl
  exact hall n hn

end Delivered

end Strimz.Commerce
