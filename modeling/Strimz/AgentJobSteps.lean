import Strimz.AgentJobs
import Strimz.ProjectionSteps

/-!
# What a step does to the rows

A step inserts one row under a new id or moves every row by one of a few functions
(`RowMove`). Only an approval makes a row `accepted`, and nothing makes one `proposed`.
-/

namespace Strimz.Commerce

open Tx Indexer

/-- The job an event is about and the status it sets. -/
def movedBy : Payload → Option (Nat × AgentJobStatus)
  | .jobFunded jobId _ => some (jobId, .funded)
  | .jobStarted jobId => some (jobId, .in_progress)
  | .jobDelivered jobId _ => some (jobId, .delivered)
  | .jobApproved jobId _ => some (jobId, .approved)
  | .jobReleased jobId _ _ => some (jobId, .completed)
  | .jobDisputed jobId _ _ => some (jobId, .disputed)
  | .jobCancelled jobId _ => some (jobId, .cancelled)
  | .jobResolved jobId _ _ _ => some (jobId, .resolved)
  | .jobReclaimed jobId _ _ _ => some (jobId, .reclaimed)
  | _ => none

/-- The events of the escrow. -/
def ofEscrow : Payload → Bool
  | .jobCreated _ _ _ _ _ => true
  | .jobRefunded _ _ _ => true
  | e => (movedBy e).isSome

/-- The step is the update of an `approveJob` of this job. -/
def ApprovalOf (w : World) (l : Label) (jobId : RowId) : Prop :=
  ∃ k id now row, l = .api k id now ∧ w.calls[k]? = some (.approving row) ∧ row.id = jobId

/-- What a statement can do to each row. -/
inductive RowMove (w : World) (l : Label) : (AgentJobRow → AgentJobRow) → Prop where
  | same : RowMove w l id
  | approved (jobId : RowId) (hcall : ApprovalOf w l jobId) : RowMove w l fun j =>
      if j.id = jobId ∧ j.status ∈ APPROVABLE then { j with status := .accepted } else j
  | claimed (jobId : RowId) : RowMove w l fun j =>
      if j.id = jobId ∧ j.status = .accepted then { j with status := .in_progress } else j
  | recorded (jobId : RowId) (txHash : Bytes32) : RowMove w l fun j =>
      if j.id = jobId then { j with escrowTxHash := some txHash } else j
  | linked (jobId : Nat) (vendor : Address) (txHash : Bytes32) : RowMove w l fun j =>
      if j.linksTo txHash vendor then j.link (int64 jobId) else j
  | moved (lg : Log) (e : Payload) (in_ : AgentJobStatusInput) (hlog : lg ∈ w.logs)
      (hdecoded : lg.decoded = .event e) (hmoved : movedBy e = some (in_.onchainJobId, in_.newStatus)) :
      RowMove w l fun j =>
        if j.onchainJobId = some (int64 in_.onchainJobId) ∧ j.status ≠ in_.newStatus then
          j.moveTo in_
        else j

section Projection

variable {db db' : Db} {p : Projector} {lg : Log} {t : Int} {e : Payload}
  {in_ : AgentJobStatusInput}

theorem applyJob_jobs {action : String} {metadata : Metadata} {r : Unit × Db}
    (h : Projector.applyJob in_ action metadata db = .ok r) :
    r.2.agentJobs = (db.moveJobs in_).agentJobs := by
  obtain ⟨n, db₁, hset, hlog⟩ := bind_eq_ok.mp h
  obtain ⟨-, -, -, rfl⟩ := setAgentJobStatus_eq_ok.mp hset
  obtain ⟨-, job, -, -, rfl⟩ := logAgentJobEvent_eq_ok.mp hlog
  rfl

/-- What projecting an event of the escrow does to the rows. -/
theorem apply_jobs {w : World} {l : Label} (hlog : lg ∈ w.logs) (hdecoded : lg.decoded = .event e)
    (he : ofEscrow e = true) {r : Unit × Db} (h : p.apply lg t db = .ok r) :
    ∃ f, RowMove w l f ∧ r.2.agentJobs = db.agentJobs.map f := by
  have hproject : p.project lg t e db = .ok r := by
    rw [Projector.apply, hdecoded] at h
    exact h
  have hmove : ∀ in_ action metadata, movedBy e = some (in_.onchainJobId, in_.newStatus) →
      Projector.applyJob in_ action metadata db = .ok r →
      ∃ f, RowMove w l f ∧ r.2.agentJobs = db.agentJobs.map f := fun in_ _ _ hmoved hjob =>
    ⟨_, .moved lg e in_ hlog hdecoded hmoved, applyJob_jobs hjob⟩
  cases e with
  | jobCreated jobId client vendor token amount =>
      obtain ⟨n, db₁, hlink, haudit⟩ := bind_eq_ok.mp hproject
      obtain ⟨-, -, hr⟩ := linkAgentJobOnchain_eq_ok.mp hlink
      obtain ⟨-, job, -, -, rfl⟩ := logAgentJobEvent_eq_ok.mp haudit
      obtain rfl := (Prod.mk.inj hr).2
      exact ⟨_, .linked jobId vendor lg.txHash, rfl⟩
  | jobRefunded jobId to_ amount =>
      obtain ⟨-, job, -, -, rfl⟩ := logAgentJobEvent_eq_ok.mp hproject
      exact ⟨id, .same, (List.map_id _).symm⟩
  | jobFunded | jobStarted | jobDelivered | jobApproved | jobReleased | jobDisputed
    | jobCancelled | jobResolved | jobReclaimed => exact hmove _ _ _ rfl hproject
  | _ => cases he

end Projection

/-! ## Statuses under a move -/

/-- The job is still to be escrowed. -/
def Pending (s : AgentJobStatus) : Prop := s = .proposed ∨ s = .accepted

theorem movedBy_not_pending {e : Payload} {jobId : Nat} {s : AgentJobStatus}
    (h : movedBy e = some (jobId, s)) : ¬ Pending s := by
  rintro (rfl | rfl) <;> cases e <;> simp [movedBy] at h

section Move

variable {w : World} {l : Label} {f : AgentJobRow → AgentJobRow}

theorem RowMove.id_eq (h : RowMove w l f) (j : AgentJobRow) : (f j).id = j.id := by
  cases h <;> first | rfl | (dsimp only; split <;> rfl)

theorem RowMove.merchantId_eq (h : RowMove w l f) (j : AgentJobRow) :
    (f j).merchantId = j.merchantId := by
  cases h <;> first | rfl | (dsimp only; split <;> rfl)

/-- A link is never undone. -/
theorem RowMove.onchainJobId (h : RowMove w l f) {j : AgentJobRow} {i : Int}
    (hj : j.onchainJobId = some i) : (f j).onchainJobId = some i := by
  cases h with
  | linked jobId vendor txHash =>
      have hlinked : j.linksTo txHash vendor = false := by simp [AgentJobRow.linksTo, hj]
      dsimp only
      rw [hlinked]
      exact hj
  | _ => first | exact hj | (dsimp only; split <;> exact hj)

/-- Where a row's status after a move comes from. -/
inductive StatusFrom (w : World) (l : Label) (j : AgentJobRow) : AgentJobStatus → Prop where
  | kept : StatusFrom w l j j.status
  | approved (hstatus : j.status ∈ APPROVABLE) (hcall : ApprovalOf w l j.id) :
      StatusFrom w l j .accepted
  | started : StatusFrom w l j .in_progress
  | logged (lg : Log) (e : Payload) (jobId : Nat) (next : AgentJobStatus) (hlog : lg ∈ w.logs)
      (hdecoded : lg.decoded = .event e) (hmoved : movedBy e = some (jobId, next))
      (hlink : j.onchainJobId = some (int64 jobId)) : StatusFrom w l j next

theorem RowMove.status (h : RowMove w l f) (j : AgentJobRow) : StatusFrom w l j (f j).status := by
  cases h with
  | same => exact .kept
  | approved jobId hcall =>
      dsimp only
      split
      · rename_i happroved
        exact .approved happroved.2 (happroved.1 ▸ hcall)
      · exact .kept
  | claimed jobId =>
      dsimp only
      split
      · exact .started
      · exact .kept
  | recorded jobId txHash =>
      dsimp only
      split <;> exact .kept
  | linked jobId vendor txHash =>
      dsimp only
      split
      · exact .started
      · exact .kept
  | moved lg e in_ hlog hdecoded hmoved =>
      dsimp only
      split
      · rename_i hlinked
        exact .logged lg e in_.onchainJobId in_.newStatus hlog hdecoded hmoved hlinked.1
      · exact .kept

/-- Only an approval makes a job wait for its escrow again, and only a delivered one. -/
theorem RowMove.pending (h : RowMove w l f) {j : AgentJobRow} (hj : Pending (f j).status) :
    Pending j.status ∨ j.status = .delivered ∧ ApprovalOf w l j.id := by
  have hfrom := h.status j
  generalize (f j).status = s at hj hfrom
  cases hfrom with
  | kept => exact .inl hj
  | approved hstatus hcall =>
      rcases List.mem_pair.mp hstatus with hstatus | hstatus
      · exact .inl (.inl hstatus)
      · exact .inr ⟨hstatus, hcall⟩
  | started => rcases hj with hj | hj <;> cases hj
  | logged lg e jobId next _ _ hmoved _ => exact absurd hj (movedBy_not_pending hmoved)

end Move

/-! ## Every step -/

/-- Every log is an event of the escrow. -/
def World.EscrowLogs (w : World) : Prop :=
  ∀ lg ∈ w.logs, ∃ e, lg.decoded = .event e ∧ ofEscrow e = true

/-- What a step does to the rows and to the columns no projection reads. -/
inductive Rows (S : Setup) (w : World) (l : Label) (w' : World) : Prop where
  | moved (f : AgentJobRow → AgentJobRow) (hf : RowMove w l f)
      (hjobs : w'.db.agentJobs = w.db.agentJobs.map f) (hterms : w'.terms = w.terms)
  | inserted (k : Nat) (id merchantId : RowId) (now : Int) (cfg : AgentMerchantConfig)
      (input : CreateAgentJobInput) (spent jobsThen : Nat) (assessor : Address)
      (hlabel : l = .api k id now)
      (hcall : w.calls[k]? = some (.creating merchantId cfg input spent jobsThen))
      (hfresh : ∀ j ∈ w.db.agentJobs, j.id ≠ id)
      (hjobs : w'.db.agentJobs = w.db.agentJobs ++ [newRow id merchantId cfg input])
      (hterms : w'.terms = Function.update w.terms id (newTerms input assessor now))

section Steps

variable {S : Setup} {w : World} {l : Label}

theorem World.job?_eq_none {id : RowId} (h : w.job? id = none) :
    ∀ j ∈ w.db.agentJobs, j.id ≠ id := by
  intro j hj hid
  have hnot := List.find?_eq_none.mp h j hj
  simp [hid] at hnot

theorem rows_of_same {w' : World} (hjobs : w'.db.agentJobs = w.db.agentJobs)
    (hterms : w'.terms = w.terms) : Rows S w l w' :=
  .moved id .same (hjobs.trans (List.map_id _).symm) hterms

theorem advanceCall_rows {k : Nat} {id : RowId} {now : Int} :
    Rows S w (.api k id now) (advanceCall S w k id now) := by
  unfold advanceCall
  dsimp only
  split
  · exact rows_of_same rfl rfl
  · rename_i merchantId cfg input spent jobsThen hcall
    split
    · exact rows_of_same rfl rfl
    · rename_i assessor _
      split
      · rename_i hfree
        have hjobs : (World.insertJob (newRow id merchantId cfg input) (newTerms input assessor now)
            (w.setCalls (w.calls.eraseIdx k))).db.agentJobs =
              w.db.agentJobs ++ [newRow id merchantId cfg input] := rfl
        split <;> exact .inserted k id merchantId now cfg input spent jobsThen assessor rfl hcall
          (World.job?_eq_none hfree) hjobs rfl
      · exact rows_of_same rfl rfl
  · rename_i row hcall
    split
    · exact .moved _ (.approved row.id ⟨k, id, now, row, rfl, hcall, rfl⟩) (by simp [World.setCalls, World.updateJobs, World.setDb,
        Db.mapAgentJobs]) rfl
    · exact rows_of_same rfl rfl
  · exact rows_of_same rfl rfl

theorem advanceWork_rows {k : Nat} {sent : Sent} :
    Rows S w (.work k sent) (advanceWork S w k sent) := by
  unfold advanceWork
  dsimp only
  split
  · exact rows_of_same rfl rfl
  · rename_i job hwork
    split
    · exact .moved _ (.claimed job.id) (by simp [World.setWorkers, World.updateJobs, World.setDb,
        Db.mapAgentJobs]) rfl
    · exact rows_of_same rfl rfl
  · split <;> exact rows_of_same rfl rfl
  · rename_i jobId txHash hwork
    exact .moved _ (.recorded jobId txHash) (by simp [World.setWorkers, World.updateJobs,
      World.setDb, Db.mapAgentJobs]) rfl

theorem projectLog_rows (h : w.EscrowLogs) {n : Nat} {t : Int} :
    Rows S w (.project n t) (projectLog S w n t) := by
  unfold projectLog
  split
  · exact rows_of_same rfl rfl
  · rename_i lg hlg
    have hmem : lg ∈ w.logs := List.mem_of_getElem? hlg
    obtain ⟨e, hdecoded, he⟩ := h lg hmem
    refine commit_cases (P := fun db => Rows S w _ (w.setDb db)) (rows_of_same rfl rfl) ?_
    intro _ db' happly
    obtain ⟨f, hf, hjobs⟩ := apply_jobs hmem hdecoded he happly
    exact .moved f hf hjobs rfl

/-- Every step, by what it does to the rows. -/
theorem step_rows (h : w.EscrowLogs) : Rows S w l (step S w l) := by
  cases l with
  | createJob merchantId input =>
      show Rows S w _ (createJob S merchantId input w)
      unfold createJob
      dsimp only
      split <;> exact rows_of_same rfl rfl
  | approveJob merchantId id =>
      show Rows S w _ (approveJob merchantId id w)
      unfold approveJob
      split <;> exact rows_of_same rfl rfl
  | api k id now => exact advanceCall_rows
  | dropCall k => exact rows_of_same rfl rfl
  | take k =>
      simp only [step]
      split <;> exact rows_of_same rfl rfl
  | work k sent => exact advanceWork_rows
  | dropWork k => exact rows_of_same rfl rfl
  | mine k =>
      show Rows S w _ (mine S w k)
      unfold mine
      split
      · exact rows_of_same rfl rfl
      · split <;> exact rows_of_same rfl rfl
  | callEscrow j action txHash =>
      show Rows S w _ (callEscrow S w j action txHash)
      unfold callEscrow
      split
      · exact rows_of_same rfl rfl
      · split <;> exact rows_of_same rfl rfl
  | project n t => exact projectLog_rows h

/-- What a call on an escrow emits is about that escrow. -/
theorem act_events {e e' : Escrow} {jobId : Nat} {action : EscrowAction} {events : List Payload}
    (h : e.act jobId action = some (e', events)) :
    ∀ x ∈ events, ofEscrow x = true ∧ ∀ n s, movedBy x = some (n, s) → n = jobId := by
  cases action <;> simp only [Escrow.act, Option.map_eq_some_iff, Option.ite_none_right_eq_some,
    Option.some.injEq, Prod.mk.injEq] at h
  case cancelJob =>
    split at h
    · obtain ⟨-, rfl⟩ := by simpa using h
      simp [ofEscrow, movedBy]
    · obtain ⟨-, -, rfl⟩ := by simpa using h
      simp [ofEscrow, movedBy]
  case reclaimAfterTimeout =>
    obtain ⟨recipient, -, -, rfl⟩ := h
    simp [ofEscrow, movedBy]
  all_goals
    obtain ⟨-, -, rfl⟩ := h
    simp [ofEscrow, movedBy]

theorem mem_logEvents {txHash : Bytes32} {events : List Payload} {lg : Log}
    (h : lg ∈ (w.logEvents S txHash events).logs) :
    lg ∈ w.logs ∨ ∃ x ∈ events, lg.decoded = .event x := by
  rcases List.mem_append.mp h with h | h
  · exact .inl h
  · obtain ⟨i, hi, rfl⟩ := List.mem_mapIdx.mp h
    exact .inr ⟨_, List.getElem_mem hi, rfl⟩

/-- What a step does to the chain: nothing, one more escrow, or one call on an escrow. -/
inductive ChainStep (S : Setup) (w w' : World) : Prop where
  | same (hescrows : w'.escrows = w.escrows) (hlogs : w'.logs = w.logs)
  | mined (b : Broadcast)
      (hescrows : w'.escrows =
        w.escrows ++ [⟨S.account, b.vendor, b.assessor, b.amount, .proposed, .none, []⟩])
      (hlogs : ∀ lg ∈ w'.logs, lg ∈ w.logs ∨ lg.decoded =
        .event (.jobCreated (w.escrows.length + 1) S.account b.vendor b.token b.amount))
  | called (j : Nat) (action : EscrowAction) (e e' : Escrow) (events : List Payload)
      (he : w.escrows[j]? = some e) (hact : e.act (j + 1) action = some (e', events))
      (hescrows : w'.escrows = w.escrows.set j e')
      (hlogs : ∀ lg ∈ w'.logs, lg ∈ w.logs ∨ ∃ x ∈ events, lg.decoded = .event x)

theorem step_chain : ChainStep S w (step S w l) := by
  cases l with
  | createJob merchantId input =>
      show ChainStep S w (createJob S merchantId input w)
      unfold createJob
      dsimp only
      split <;> exact .same rfl rfl
  | approveJob merchantId id =>
      show ChainStep S w (approveJob merchantId id w)
      unfold approveJob
      split <;> exact .same rfl rfl
  | api k id now =>
      show ChainStep S w (advanceCall S w k id now)
      unfold advanceCall
      dsimp only
      split
      · exact .same rfl rfl
      · split
        · exact .same rfl rfl
        · split
          · split <;> exact .same rfl rfl
          · exact .same rfl rfl
      · split <;> exact .same rfl rfl
      · exact .same rfl rfl
  | dropCall k => exact .same rfl rfl
  | take k =>
      simp only [step]
      split <;> exact .same rfl rfl
  | work k sent =>
      show ChainStep S w (advanceWork S w k sent)
      unfold advanceWork
      dsimp only
      split
      · exact .same rfl rfl
      · split <;> exact .same rfl rfl
      · split <;> exact .same rfl rfl
      · exact .same rfl rfl
  | dropWork k => exact .same rfl rfl
  | mine k =>
      show ChainStep S w (mine S w k)
      unfold mine
      split
      · exact .same rfl rfl
      · rename_i b hb
        split
        · exact .same rfl rfl
        · refine .mined b rfl fun lg hlg => ?_
          rcases mem_logEvents hlg with h | ⟨x, hx, hdecoded⟩
          · exact .inl h
          · rw [List.mem_singleton.mp hx] at hdecoded
            exact .inr hdecoded
  | callEscrow j action txHash =>
      show ChainStep S w (callEscrow S w j action txHash)
      unfold callEscrow
      split
      · exact .same rfl rfl
      · rename_i e he
        split
        · exact .same rfl rfl
        · rename_i e' events hact
          exact .called j action e e' events he hact rfl fun lg hlg => mem_logEvents hlg
  | project n t =>
      show ChainStep S w (projectLog S w n t)
      unfold projectLog
      split <;> exact .same rfl rfl

theorem World.EscrowLogs.step (h : w.EscrowLogs) : (Commerce.step S w l).EscrowLogs := by
  intro lg hlg
  cases step_chain (S := S) (w := w) (l := l) with
  | same _ hlogs => exact h lg (hlogs ▸ hlg)
  | mined b _ hlogs =>
      rcases hlogs lg hlg with hold | hnew
      · exact h lg hold
      · exact ⟨_, hnew, rfl⟩
  | called j action e e' events _ hact _ hlogs =>
      rcases hlogs lg hlg with hold | ⟨x, hx, hdecoded⟩
      · exact h lg hold
      · exact ⟨x, hdecoded, (act_events hact x hx).1⟩

end Steps

end Strimz.Commerce
